import IosCourse.SnapIdentity

/-!
# Responses that outlive their account

The query of `getUser` names the email of the account that is signed in when the
feed is loaded. Its completion takes the user name from the response and asks
again who is signed in for the email. Between the two the account can log out or
give way to another one, and any number of lookups can be on their way.
-/

namespace SnapLookups

open DocumentCollection SnapDocuments GuardedRuns SnapSession
open SnapSystem (UserSingleton)

/-- The lookup whose completion is executed in this step, and its response. -/
def completed (s : Session) (e : Event) : Option (Lookup × List (ℕ × Doc)) :=
  if (acting s e).any s.trapped then none
  else
    match e with
    | .getUser index none =>
      (s.lookups[index]?).bind fun lookup => lookup.answer.map fun documents =>
        (lookup, documents)
    | _ => none

/-- The user name that the loop over these documents stores last. -/
def lastName (documents : List (ℕ × Doc)) : Option String :=
  (documents.filterMap fun document => username document.2).getLast?

/-- One entry of `UserInfo` holds this email together with this user name. -/
def Listed (s : Session) (email userName : String) : Prop :=
  ∃ d ∈ s.signIn.userInfo.documents, hasEmail email d ∧ username d = some userName

instance (s : Session) (email userName : String) : Decidable (Listed s email userName) :=
  inferInstanceAs (Decidable (∃ d ∈ s.signIn.userInfo.documents, _))

/-- A completion does not trap, and a pair that it stores is that of one entry. -/
def StoresOneEntry (s : Session) (e : Event) (t : Session) : Prop :=
  ∀ c ∈ completed s e, t.trapped c.1.device = false ∧
    (storesName c.2 = true → Listed t (t.snaps.sharedUserInfo c.1.device).email
      (t.snaps.sharedUserInfo c.1.device).userName)

instance (s : Session) (e : Event) (t : Session) : Decidable (StoresOneEntry s e t) :=
  inferInstanceAs (Decidable (∀ c ∈ completed s e, _))

/-- When a response with a user name is delivered, the account whose email was queried
is the one that is signed in. -/
def AccountKept (s : Session) (e : Event) : Prop :=
  ∀ c ∈ completed s e, storesName c.2 = true → s.currentUser c.1.device = some c.1.email

instance (s : Session) (e : Event) : Decidable (AccountKept s e) :=
  inferInstanceAs (Decidable (∀ c ∈ completed s e, _))

/-- Entries with the same user name are entries of the same account. -/
def NamesDistinct (s : Session) : Prop :=
  ∀ d ∈ s.signIn.userInfo.documents, ∀ d' ∈ s.signIn.userInfo.documents,
    username d = username d' → d "email" = d' "email"

instance (s : Session) : Decidable (NamesDistinct s) :=
  inferInstanceAs (Decidable (∀ d ∈ s.signIn.userInfo.documents, _))

theorem lastName_cons (document : ℕ × Doc) (rest : List (ℕ × Doc)) :
    lastName (document :: rest) = (lastName rest).or (username document.2) := by
  cases name : username document.2 with
  | none => simp [lastName, name]
  | some userName =>
    simp only [lastName, List.filterMap_cons, name, List.getLast?_cons]
    cases (rest.filterMap fun document => username document.2).getLast? <;> rfl

theorem storesName_iff {documents : List (ℕ × Doc)} :
    storesName documents = true ↔ ∃ name, lastName documents = some name := by
  induction documents with
  | nil => simp [storesName, lastName]
  | cons document rest ih =>
    simp only [storesName, List.any_cons, Bool.or_eq_true] at ih ⊢
    rw [ih, lastName_cons]
    cases lastName rest <;> simp [Option.isSome_iff_exists]

/-- While somebody is signed in, the loop stores the last name of the response and
the email of that account. -/
theorem foldl_signedIn (email : String) (documents : List (ℕ × Doc)) (user : UserSingleton) :
    documents.foldl (storeUserInfo (some email)) (user, false) =
      ((lastName documents).elim user fun name => ⟨email, name⟩, false) := by
  induction documents generalizing user with
  | nil => rfl
  | cons document rest ih =>
    rw [List.foldl_cons, lastName_cons]
    cases name : username document.2 with
    | none => rw [storeUserInfo_of_none name, ih, Option.or_none]
    | some userName =>
      have round : storeUserInfo (some email) (user, false) document =
          (⟨email, userName⟩, false) := by simp [storeUserInfo, name]
      rw [round, ih]
      cases lastName rest <;> rfl

/-- After a log-out the first user name of the response traps. -/
theorem foldl_signedOut {documents : List (ℕ × Doc)} (stores : storesName documents = true)
    (user : UserSingleton) : (documents.foldl (storeUserInfo none) (user, false)).2 = true := by
  induction documents generalizing user with
  | nil => cases stores
  | cons document rest ih =>
    rw [List.foldl_cons]
    cases name : username document.2 with
    | none =>
      rw [storeUserInfo_of_none name]
      exact ih (by simpa [storesName, name] using stores) user
    | some userName =>
      have round : storeUserInfo none (user, false) document =
          ({ user with userName := userName }, true) := by simp [storeUserInfo, name]
      rw [round, foldl_storeUserInfo_of_trapped]

theorem completed_cases {s : Session} {e : Event} {lookup : Lookup}
    {documents : List (ℕ × Doc)} (h : completed s e = some (lookup, documents)) :
    ∃ index, e = .getUser index none ∧ s.lookups[index]? = some lookup ∧
      lookup.answer = some documents ∧ step s e = perform s e := by
  unfold completed at h
  split at h
  · cases h
  · rename_i running
    split at h
    · rename_i index
      obtain ⟨found, present, h⟩ := Option.bind_eq_some_iff.mp h
      obtain ⟨response, answer, h⟩ := Option.map_eq_some_iff.mp h
      cases h
      exact ⟨index, rfl, present, answer, if_neg running⟩
    · cases h

theorem completed_step {s : Session} {e : Event} {lookup : Lookup}
    {documents : List (ℕ × Doc)} (h : completed s e = some (lookup, documents)) :
    ((step s e).snaps.sharedUserInfo lookup.device, (step s e).trapped lookup.device) =
        documents.foldl (storeUserInfo (s.currentUser lookup.device))
          (s.snaps.sharedUserInfo lookup.device, false) ∧
      (step s e).signIn = s.signIn := by
  obtain ⟨index, rfl, present, answer, performs⟩ := completed_cases h
  rw [performs]
  simp [perform, present, answer, SnapSystem.step]

/-- Every response that is under way consists of entries of `UserInfo` with the
email that was queried. -/
def AnswersListed (s : Session) : Prop :=
  ∀ lookup ∈ s.lookups, ∀ documents, lookup.answer = some documents →
    ∀ document ∈ documents,
      document.2 ∈ s.signIn.userInfo.documents ∧ hasEmail lookup.email document.2

theorem userInfo_step {s : Session} {d : Doc} (h : d ∈ s.signIn.userInfo.documents)
    (e : Event) : d ∈ (step s e).signIn.userInfo.documents := by
  rw [signIn_step]
  cases signInEvent s e with
  | none => exact h
  | some event =>
    show d ∈ (SnapSignIn.step s.signIn event).userInfo.documents
    cases SnapSignIn.entryStep s.signIn event with
    | creates _ _ _ _ userInfo => rwa [userInfo]
    | added _ _ _ _ _ _ _ _ _ userInfo =>
      rw [userInfo]
      split
      · rw [Collection.documents_add]
        exact List.mem_cons_of_mem _ h
      · exact h
    | kept _ _ _ userInfo => rwa [userInfo]

theorem answersListed_step (s : Session) (e : Event) (h : AnswersListed s) :
    AnswersListed (step s e) := by
  intro lookup mem documents answer document found
  rcases lookups_step mem with old | unanswered | fresh
  · obtain ⟨listed, asked⟩ := h lookup old documents answer document found
    exact ⟨userInfo_step listed e, asked⟩
  · rw [unanswered] at answer
    cases answer
  · obtain rfl := Option.some.inj (answer.symm.trans fresh)
    obtain ⟨present, asked⟩ := Collection.mem_query.mp found
    exact ⟨userInfo_step (Collection.mem_documents.mpr ⟨_, present⟩) e, asked⟩

/-- The entry behind the last name of a response. -/
theorem listed_of_lastName {s : Session} (h : AnswersListed s) {lookup : Lookup}
    (mem : lookup ∈ s.lookups) {documents : List (ℕ × Doc)}
    (answer : lookup.answer = some documents) {name : String}
    (last : lastName documents = some name) : Listed s lookup.email name := by
  obtain ⟨document, found, named⟩ := List.mem_filterMap.mp (List.mem_of_getLast? last)
  obtain ⟨listed, asked⟩ := h lookup mem documents answer document found
  exact ⟨document.2, listed, asked, named⟩

/-- A completion with a user name stores it beside the email of whoever is signed in. -/
theorem storesOneEntry_iff (s : Session) (e : Event) :
    StoresOneEntry s e (step s e) ↔ ∀ c ∈ completed s e, ∀ name ∈ lastName c.2,
      ∃ email ∈ s.currentUser c.1.device, Listed s email name := by
  cases completes : completed s e with
  | none => simp [StoresOneEntry, completes]
  | some c =>
    obtain ⟨lookup, documents⟩ := c
    obtain ⟨result, entries⟩ := completed_step completes
    simp only [StoresOneEntry, completes, Option.mem_def, Option.some.injEq,
      forall_eq', Listed, entries]
    cases last : lastName documents with
    | none =>
      have quiet : storesName documents = false := by
        rw [Bool.eq_false_iff, ne_eq, storesName_iff, last]
        simp
      rw [foldl_storeUserInfo_of_not _ quiet, Prod.mk.injEq] at result
      simp [quiet, result.2]
    | some name =>
      have stores : storesName documents = true := storesName_iff.mpr ⟨name, last⟩
      cases user : s.currentUser lookup.device with
      | none =>
        rw [user] at result
        have trapped := foldl_signedOut stores (s.snaps.sharedUserInfo lookup.device)
        rw [← result] at trapped
        simp [show (step s e).trapped lookup.device = true from trapped]
      | some email =>
        rw [user, foldl_signedIn, last, Option.elim_some, Prod.mk.injEq] at result
        simp [stores, result]

/-- The entry that a delivered response was found for. -/
theorem listed_of_completed {s : Session} (h : AnswersListed s) {e : Event} {lookup : Lookup}
    {documents : List (ℕ × Doc)} (completes : completed s e = some (lookup, documents))
    {name : String} (last : lastName documents = some name) : Listed s lookup.email name := by
  obtain ⟨_, _, present, answer, _⟩ := completed_cases completes
  exact listed_of_lastName h (List.mem_of_getElem? present) answer last

theorem storesOneEntry_of_accountKept {s : Session} {e : Event} (h : AnswersListed s)
    (kept : AccountKept s e) : StoresOneEntry s e (step s e) := by
  rw [storesOneEntry_iff]
  rintro ⟨lookup, documents⟩ completes name last
  have signedIn := kept _ completes (storesName_iff.mpr ⟨name, last⟩)
  exact ⟨lookup.email, signedIn, listed_of_completed h completes last⟩

/-- Where user names are unique, nothing less than the kept account will do. -/
theorem accountKept_of_storesOneEntry {s : Session} {e : Event} (h : AnswersListed s)
    (distinct : NamesDistinct s) (stores : StoresOneEntry s e (step s e)) : AccountKept s e := by
  rw [storesOneEntry_iff] at stores
  rintro ⟨lookup, documents⟩ completes named
  obtain ⟨name, last⟩ := storesName_iff.mp named
  obtain ⟨email, signedIn, d, mem, stored, named⟩ := stores _ completes name last
  obtain ⟨d', mem', asked, named'⟩ := listed_of_completed h completes last
  have same := distinct d mem d' mem' (named.trans named'.symm)
  rw [hasEmail, decide_eq_true_eq] at stored asked
  rw [stored, asked] at same
  cases same
  exact signedIn

theorem answersListed_start (mySnaps : Store) (clock : ℤ) (fields : ℕ → SnapSignIn.Fields) :
    AnswersListed (start mySnaps clock fields) := by
  intro lookup mem
  cases mem

/-- In every run in which the queried account is signed in whenever a response with a
user name is delivered, no completion traps and each one stores one entry. In the runs
in which user names stay unique it also takes no less. -/
theorem lookups_consistent (mySnaps : Store) (clock : ℤ) (fields : ℕ → SnapSignIn.Fields)
    (es : List Event) :
    (Always step (fun s e _ => AccountKept s e) (start mySnaps clock fields) es →
      Always step StoresOneEntry (start mySnaps clock fields) es) ∧
    (Always step (fun s _ _ => NamesDistinct s) (start mySnaps clock fields) es →
      Always step StoresOneEntry (start mySnaps clock fields) es →
        Always step (fun s e _ => AccountKept s e) (start mySnaps clock fields) es) := by
  constructor
  · exact always_of_invariant (fun s e h _ => answersListed_step s e h)
      (fun _ _ h kept => storesOneEntry_of_accountKept h kept)
      (answersListed_start mySnaps clock fields)
  · intro distinct
    have exact_step : ∀ s e, AnswersListed s → NamesDistinct s →
        (StoresOneEntry s e (step s e) ↔ AccountKept s e) := fun s e h distinct =>
      ⟨accountKept_of_storesOneEntry h distinct, storesOneEntry_of_accountKept h⟩
    exact (always_congr_of_invariant answersListed_step exact_step
      (answersListed_start mySnaps clock fields) distinct).mp

/-- Two accounts on one device, one after the other; each gets its own response. -/
def oneAfterTheOther : List Event :=
  (SnapSignIn.signUpAs 0 "ada@mail" "ada" none).map .signIn ++
    [.answerUser 0, .getUser 0 none, .logOutClicked 0] ++
    (SnapSignIn.signUpAs 0 "bob@mail" "bob" none).map .signIn ++ [.answerUser 0, .getUser 0 none]

theorem two_accounts_consistent :
    Always step StoresOneEntry (start .empty 0 SnapIdentity.noFields) oneAfterTheOther ∧
      Always step (fun s e _ => AccountKept s e) (start .empty 0 SnapIdentity.noFields)
        oneAfterTheOther :=
  have consistent := lookups_consistent .empty 0 SnapIdentity.noFields oneAfterTheOther
  have stored := consistent.1 (by decide)
  ⟨stored, consistent.2 (by decide) stored⟩

/-- A log-out overtakes the response of the lookup: its completion traps. -/
theorem logOut_overtakes_response :
    ¬ ∀ (mySnaps : Store) (clock : ℤ) (fields : ℕ → SnapSignIn.Fields) (es : List Event),
      Always step StoresOneEntry (start mySnaps clock fields) es := by
  intro every
  have only := every .empty 0 SnapIdentity.noFields
    ((SnapSignIn.signUpAs 0 "ada@mail" "ada" none).map .signIn ++
      [.answerUser 0, .logOutClicked 0, .getUser 0 none])
  revert only
  decide

/-- A change of accounts instead mixes the name of one with the email of the other. -/
example : ¬ Always step StoresOneEntry (start .empty 0 SnapIdentity.noFields)
    ((SnapSignIn.signUpAs 0 "ada@mail" "ada" none).map .signIn ++
      [.answerUser 0, .logOutClicked 0] ++
      (SnapSignIn.signUpAs 0 "bob@mail" "bob" none).map .signIn ++ [.getUser 0 none]) := by
  decide

end SnapLookups
