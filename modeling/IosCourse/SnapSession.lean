import IosCourse.SnapSignIn
import IosCourse.SnapSystem

/-!
# Accounts, lookups and uploads together

A device signs in and out, and each time the feed is loaded it looks up the user
name of the current account in `UserInfo`. The completion of a lookup writes the
name to `UserSingleton`, which is never cleared, and takes the email from whoever
is signed in by then. Uploads read the singleton at their own pace. Signing in,
the lookups and the shared collection `mySnaps` run interleaved here, on any
number of devices.
-/

namespace SnapSession

open DocumentCollection SnapDocuments SnapUpload SnapFeed GuardedRuns
open SnapSystem (System UserSingleton Flow FlowStep OwnerStep nextWrite reader)
open SnapSignIn (SignInState registered created entered EmailKept FreshUsername)

/-- A pending query of `getUser`: the email it asks for, and the entries that it
has found once the server has answered. -/
structure Lookup where
  device : ℕ
  email : String
  answer : Option (List (ℕ × Doc))

/-- `trapped` tells which processes have ended in a runtime error. For each device
`loadedFor` is the email of the lookup that stored the present user name, and for
each flow `tappedBy` is the email of the account that was signed in at its tap. -/
structure Session where
  snaps : System
  signIn : SignInState
  currentUser : ℕ → Option String
  lookups : List Lookup
  trapped : ℕ → Bool
  loadedFor : ℕ → Option String
  tappedBy : List String

inductive Event where
  | signIn (event : SnapSignIn.Event)
  | logOutClicked (device : ℕ)
  | answerUser (index : ℕ)
  | getUser (index : ℕ) (error : Option String)
  | uploadClicked (device : ℕ) (imageURL : String)
  | snaps (event : SnapSystem.Event)

/-- The feed is loaded and asks for the user name of the current account. -/
def openFeed (device : ℕ) (email : String) (s : Session) : Session :=
  { s with
    currentUser := Function.update s.currentUser device (some email)
    lookups := s.lookups ++ [⟨device, email, none⟩] }

def Lookup.answered (userInfo : Store) (lookup : Lookup) : Lookup :=
  if lookup.answer.isNone then
    { lookup with answer := some (userInfo.query (hasEmail lookup.email)) }
  else lookup

/-- One round of the loop in the completion of `getUser`, on the singleton and a
flag that tells whether the forced unwrap of the current user has trapped. -/
def storeUserInfo (currentUser : Option String) (acc : UserSingleton × Bool)
    (document : ℕ × Doc) : UserSingleton × Bool :=
  if acc.2 then acc
  else
    match username document.2 with
    | none => acc
    | some userName =>
      match currentUser with
      | none => ({ acc.1 with userName := userName }, true)
      | some email => (⟨email, userName⟩, false)

/-- The documents of a lookup that end up in the singleton. -/
def storesName (documents : List (ℕ × Doc)) : Bool :=
  documents.any fun document => (username document.2).isSome

/-- Taps and the singleton are driven by this system, the rest runs by itself. -/
def ownEvent : SnapSystem.Event → Bool
  | .tap _ _ | .storeUser _ _ => false
  | _ => true

/-- The device whose process executes the step. -/
def acting (s : Session) : Event → Option ℕ
  | .signIn (.edit device _) | .signIn (.signInClicked device)
  | .signIn (.signUpClicked device) => some device
  | .signIn (.signIn index _) => (s.signIn.signIns[index]?).map Prod.fst
  | .signIn (.createUser index _) => (s.signIn.requests[index]?).map SnapSignIn.Request.device
  | .signIn (.addDocument _ _) | .answerUser _ => none
  | .logOutClicked device | .uploadClicked device _ => some device
  | .getUser index _ => (s.lookups[index]?).map Lookup.device
  | .snaps (.query n) | .snaps (.answer n) => (s.snaps.flows[n]?).map Flow.device
  | .snaps (.callback index _) => (s.snaps.snapshots[index]?).map Prod.fst
  | .snaps (.listenerError device _) => some device
  | .snaps _ => none

def perform (s : Session) : Event → Session
  | .signIn event =>
    let t := { s with signIn := SnapSignIn.step s.signIn event }
    match entered s.signIn event with
    | none => t
    | some (device, email) => openFeed device email t
  | .logOutClicked device =>
    { s with currentUser := Function.update s.currentUser device none }
  | .answerUser index =>
    { s with lookups := s.lookups.modify index (Lookup.answered s.signIn.userInfo) }
  | .getUser index error =>
    match s.lookups[index]? with
    | none => s
    | some lookup =>
      match error, lookup.answer with
      | some message, _ =>
        { s with
          lookups := s.lookups.eraseIdx index
          snaps := SnapSystem.step s.snaps (.listenerError lookup.device message) }
      | none, none => s
      | none, some documents =>
        let result := documents.foldl (storeUserInfo (s.currentUser lookup.device))
          (s.snaps.sharedUserInfo lookup.device, false)
        { s with
          lookups := s.lookups.eraseIdx index
          snaps := SnapSystem.step s.snaps (.storeUser lookup.device result.1)
          trapped := Function.update s.trapped lookup.device result.2
          loadedFor :=
            if storesName documents then
              Function.update s.loadedFor lookup.device (some lookup.email)
            else s.loadedFor }
  | .uploadClicked device imageURL =>
    match s.currentUser device with
    | none => s
    | some account =>
      { s with
        snaps := SnapSystem.step s.snaps (.tap device imageURL)
        tappedBy := s.tappedBy ++ [account] }
  | .snaps event =>
    if ownEvent event then { s with snaps := SnapSystem.step s.snaps event } else s

/-- A process that has trapped executes nothing any more. -/
def step (s : Session) (e : Event) : Session :=
  if (acting s e).any s.trapped then s else perform s e

theorem step_cases (s : Session) (e : Event) : step s e = s ∨ step s e = perform s e := by
  by_cases blocked : (acting s e).any s.trapped = true
  · exact Or.inl (if_pos blocked)
  · exact Or.inr (if_neg blocked)

/-- Nobody has an account or is signed in. -/
def start (mySnaps : Store) (clock : ℤ) (fields : ℕ → SnapSignIn.Fields) : Session where
  snaps := SnapSystem.start mySnaps clock fun _ => .initial
  signIn := SnapSignIn.start fields
  currentUser := fun _ => none
  lookups := []
  trapped := fun _ => false
  loadedFor := fun _ => none
  tappedBy := []

/-- What the step does to the shared collection and its clients. -/
def snapsEvent (s : Session) (e : Event) : Option SnapSystem.Event :=
  if (acting s e).any s.trapped then none
  else
    match e with
    | .getUser index error =>
      (s.lookups[index]?).bind fun lookup =>
        match error, lookup.answer with
        | some message, _ => some (.listenerError lookup.device message)
        | none, none => none
        | none, some documents =>
          some (.storeUser lookup.device
            (documents.foldl (storeUserInfo (s.currentUser lookup.device))
              (s.snaps.sharedUserInfo lookup.device, false)).1)
    | .uploadClicked device imageURL => (s.currentUser device).map fun _ => .tap device imageURL
    | .snaps event => if ownEvent event then some event else none
    | _ => none

/-- What the step does to the accounts and the sign-in screens. -/
def signInEvent (s : Session) (e : Event) : Option SnapSignIn.Event :=
  if (acting s e).any s.trapped then none
  else
    match e with
    | .signIn event => some event
    | _ => none

theorem snaps_step (s : Session) (e : Event) :
    (step s e).snaps = (snapsEvent s e).elim s.snaps (SnapSystem.step s.snaps) := by
  unfold step snapsEvent
  split
  · rfl
  · cases e with
    | signIn event =>
      simp only [perform]
      split <;> rfl
    | getUser index error =>
      cases found : s.lookups[index]? with
      | none => simp [perform, found]
      | some lookup =>
        cases error with
        | some message => simp [perform, found]
        | none => cases answer : lookup.answer <;> simp [perform, found, answer]
    | uploadClicked device imageURL =>
      cases user : s.currentUser device <;> simp [perform, user]
    | snaps event => cases own : ownEvent event <;> simp [perform, own]
    | _ => rfl

theorem signIn_step (s : Session) (e : Event) :
    (step s e).signIn = (signInEvent s e).elim s.signIn (SnapSignIn.step s.signIn) := by
  unfold step signInEvent
  split
  · rfl
  · cases e with
    | signIn event =>
      simp only [perform]
      split <;> rfl
    | getUser index error =>
      simp only [perform]
      split
      · rfl
      · split <;> rfl
    | uploadClicked device imageURL =>
      simp only [perform]
      split <;> rfl
    | snaps event =>
      simp only [perform]
      split <;> rfl
    | _ => rfl

/-- A step records one tapping account for each flow that it adds. -/
theorem taps_step (s : Session) (e : Event) :
    ∃ more, (step s e).tappedBy = s.tappedBy ++ more ∧
      (step s e).snaps.flows.length = s.snaps.flows.length + more.length := by
  rcases step_cases s e with h | h
  · exact ⟨[], by simp [h], by simp [h]⟩
  · rw [h]
    cases e with
    | signIn event =>
      refine ⟨[], ?_⟩
      simp only [perform]
      split <;> simp [openFeed]
    | getUser index error =>
      refine ⟨[], ?_⟩
      simp only [perform]
      split
      · simp
      · split <;> simp [SnapSystem.step]
    | uploadClicked device imageURL =>
      cases user : s.currentUser device with
      | none => exact ⟨[], by simp [perform, user], by simp [perform, user]⟩
      | some account =>
        exact ⟨[account], by simp [perform, user], by simp [perform, user, SnapSystem.step]⟩
    | snaps event =>
      refine ⟨[], ?_⟩
      cases own : ownEvent event with
      | false => simp [perform, own]
      | true =>
        have noTap : ∀ device url, event ≠ .tap device url := by
          rintro device url rfl
          cases own
        simp [perform, own, SnapSystem.length_flows_step noTap]
    | _ => exact ⟨[], by simp [perform], by simp [perform]⟩

/-- The record of the tapping accounts has one entry for each flow. -/
def TapsRecorded (s : Session) : Prop := s.tappedBy.length = s.snaps.flows.length

theorem tapsRecorded_step (s : Session) (e : Event) (h : TapsRecorded s) :
    TapsRecorded (step s e) := by
  obtain ⟨more, recorded, added⟩ := taps_step s e
  rw [TapsRecorded] at h ⊢
  rw [recorded, added, List.length_append]
  omega

/-- The user name that the account behind flow `n` has registered. -/
def ownName (s : Session) (n : ℕ) : Option String :=
  (s.tappedBy[n]?).bind (registered s.signIn)

theorem ownName_step {s : Session} {n : ℕ} {name : String} (known : ownName s n = some name)
    (e : Event) : ownName (step s e) n = some name := by
  obtain ⟨account, tapped, found⟩ := Option.bind_eq_some_iff.mp known
  obtain ⟨more, grown, _⟩ := taps_step s e
  have kept : (step s e).tappedBy[n]? = some account := by
    have bound := (List.getElem?_eq_some_iff.mp tapped).1
    rw [grown, List.getElem?_append_left bound, tapped]
  have still : registered (step s e).signIn account = some name := by
    rw [signIn_step]
    cases signInEvent s e with
    | none => exact found
    | some event => exact SnapSignIn.registered_step found event
  exact Option.bind_eq_some_iff.mpr ⟨account, kept, still⟩

theorem storeUserInfo_of_none {currentUser : Option String} {acc : UserSingleton × Bool}
    {document : ℕ × Doc} (h : username document.2 = none) :
    storeUserInfo currentUser acc document = acc := by
  simp [storeUserInfo, h]

theorem storeUserInfo_of_some (currentUser : Option String) (user : UserSingleton)
    {document : ℕ × Doc} {name : String} (h : username document.2 = some name) :
    (storeUserInfo currentUser (user, false) document).1.userName = name := by
  cases currentUser <;> simp [storeUserInfo, h]

theorem foldl_storeUserInfo_of_trapped (currentUser : Option String)
    (documents : List (ℕ × Doc)) (user : UserSingleton) :
    documents.foldl (storeUserInfo currentUser) (user, true) = (user, true) := by
  induction documents with
  | nil => rfl
  | cons document rest ih => simpa [storeUserInfo] using ih

/-- A lookup without a user name leaves the singleton alone. -/
theorem foldl_storeUserInfo_of_not (currentUser : Option String) {documents : List (ℕ × Doc)}
    (h : storesName documents = false) (acc : UserSingleton × Bool) :
    documents.foldl (storeUserInfo currentUser) acc = acc := by
  induction documents with
  | nil => rfl
  | cons document rest ih =>
    simp only [storesName, List.any_cons, Bool.or_eq_false_iff] at h
    have nameless : username document.2 = none := by simpa using h.1
    rw [List.foldl_cons, storeUserInfo_of_none nameless]
    exact ih h.2

/-- Otherwise the singleton ends up with the user name of one of its documents,
also when the process traps on the way. -/
theorem foldl_storeUserInfo_name (currentUser : Option String) {documents : List (ℕ × Doc)}
    (h : storesName documents = true) (user : UserSingleton) :
    ∃ document ∈ documents, username document.2 =
      some (documents.foldl (storeUserInfo currentUser) (user, false)).1.userName := by
  induction documents generalizing user with
  | nil => cases h
  | cons document rest ih =>
    rw [List.foldl_cons]
    cases name : username document.2 with
    | none =>
      have later : storesName rest = true := by simpa [storesName, name] using h
      rw [storeUserInfo_of_none name]
      obtain ⟨found, mem, stored⟩ := ih later user
      exact ⟨found, List.mem_cons_of_mem _ mem, stored⟩
    | some userName =>
      have here := storeUserInfo_of_some currentUser user name
      rcases round : storeUserInfo currentUser (user, false) document with ⟨next, trapped⟩
      rw [round] at here
      by_cases last : trapped = true ∨ storesName rest = false
      · refine ⟨document, List.mem_cons_self, ?_⟩
        rcases last with rfl | quiet
        · rw [foldl_storeUserInfo_of_trapped, name, ← here]
        · rw [foldl_storeUserInfo_of_not currentUser quiet, name, ← here]
      · obtain ⟨rfl, later⟩ : trapped = false ∧ storesName rest = true := by
          simpa only [not_or, Bool.not_eq_true, Bool.not_eq_false] using last
        obtain ⟨found, mem, stored⟩ := ih later next
        exact ⟨found, List.mem_cons_of_mem _ mem, stored⟩

theorem lookups_step {s : Session} {e : Event} {lookup : Lookup}
    (h : lookup ∈ (step s e).lookups) :
    lookup ∈ s.lookups ∨ lookup.answer = none ∨
      lookup.answer = some (s.signIn.userInfo.query (hasEmail lookup.email)) := by
  rcases step_cases s e with same | performs
  · exact Or.inl (same ▸ h)
  · rw [performs] at h
    cases e with
    | signIn event =>
      simp only [perform] at h
      split at h
      · exact Or.inl h
      · rcases List.mem_append.mp h with old | new
        · exact Or.inl old
        · exact Or.inr (Or.inl (by rw [List.mem_singleton.mp new]))
    | answerUser index =>
      obtain ⟨i, hi⟩ := List.mem_iff_getElem?.mp h
      rcases SnapSystem.getElem?_modify_cases hi with ⟨_, before⟩ | ⟨rfl, old, before, rfl⟩
      · exact Or.inl (List.mem_of_getElem? before)
      · unfold Lookup.answered
        split
        · exact Or.inr (Or.inr rfl)
        · exact Or.inl (List.mem_of_getElem? before)
    | getUser index error =>
      simp only [perform] at h
      split at h
      · exact Or.inl h
      · split at h
        · exact Or.inl (List.mem_of_mem_eraseIdx h)
        · exact Or.inl h
        · exact Or.inl (List.mem_of_mem_eraseIdx h)
    | uploadClicked device imageURL =>
      simp only [perform] at h
      split at h <;> exact Or.inl h
    | snaps event =>
      simp only [perform] at h
      split at h <;> exact Or.inl h
    | logOutClicked device => exact Or.inl h

/-- The singleton of a device changes only when a lookup stores the user name of
one of its documents, and then the device is recorded as loaded for that lookup. -/
inductive LoadStep (s : Session) (e : Event) (device : ℕ) : Prop where
  | stored (lookup : Lookup) (mem : lookup ∈ s.lookups) (documents : List (ℕ × Doc))
      (answer : lookup.answer = some documents)
      (loaded : (step s e).loadedFor device = some lookup.email) (document : ℕ × Doc)
      (found : document ∈ documents) (name : username document.2 =
        some ((step s e).snaps.sharedUserInfo device).userName)
  | kept (loaded : (step s e).loadedFor device = s.loadedFor device)
      (user : (step s e).snaps.sharedUserInfo device = s.snaps.sharedUserInfo device)

/-- The completion of an answered lookup, seen from any device. -/
theorem loadStep_completed {s : Session} {index : ℕ} {lookup : Lookup}
    {documents : List (ℕ × Doc)} (present : s.lookups[index]? = some lookup)
    (answer : lookup.answer = some documents) (device : ℕ)
    (performs : step s (.getUser index none) = perform s (.getUser index none)) :
    LoadStep s (.getUser index none) device := by
  by_cases elsewhere : device = lookup.device
  · subst elsewhere
    cases stores : storesName documents with
    | true =>
      obtain ⟨document, found, name⟩ := foldl_storeUserInfo_name
        (s.currentUser lookup.device) stores (s.snaps.sharedUserInfo lookup.device)
      refine .stored lookup (List.mem_of_getElem? present) documents answer ?_ document found ?_
      · simp [performs, perform, present, answer, stores]
      · simpa [performs, perform, present, answer, SnapSystem.step] using name
    | false =>
      have quiet := foldl_storeUserInfo_of_not (s.currentUser lookup.device) stores
        (s.snaps.sharedUserInfo lookup.device, false)
      refine .kept (by simp [performs, perform, present, answer, stores]) ?_
      simp [performs, perform, present, answer, SnapSystem.step, quiet]
  · refine .kept ?_ ?_
    · cases stores : storesName documents <;>
        simp [performs, perform, present, answer, stores, elsewhere]
    · simp [performs, perform, present, answer, SnapSystem.step, elsewhere]

theorem loadStep (s : Session) (e : Event) (device : ℕ) : LoadStep s e device := by
  rcases step_cases s e with same | performs
  · exact .kept (by rw [same]) (by rw [same])
  · cases e with
    | signIn event =>
      refine .kept ?_ ?_ <;> rw [performs] <;> simp only [perform] <;> split <;> rfl
    | getUser index error =>
      cases present : s.lookups[index]? with
      | none => refine .kept ?_ ?_ <;> simp [performs, perform, present]
      | some lookup =>
        cases error with
        | some message =>
          refine .kept ?_ ?_ <;> simp [performs, perform, present, SnapSystem.step]
        | none =>
          cases answer : lookup.answer with
          | none => refine .kept ?_ ?_ <;> simp [performs, perform, present, answer]
          | some documents => exact loadStep_completed present answer device performs
    | uploadClicked tapping imageURL =>
      refine .kept ?_ ?_ <;> rw [performs] <;> simp only [perform] <;> split <;> rfl
    | snaps event =>
      cases own : ownEvent event with
      | false => refine .kept ?_ ?_ <;> simp [performs, perform, own]
      | true =>
        have quiet : ∀ device user, event ≠ .storeUser device user := by
          rintro device user rfl
          cases own
        refine .kept ?_ ?_ <;>
          simp [performs, perform, own, SnapSystem.sharedUserInfo_step quiet]
    | _ => refine .kept ?_ ?_ <;> rw [performs] <;> rfl

end SnapSession
