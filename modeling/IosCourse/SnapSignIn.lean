import Mathlib.Data.List.Perm.Basic
import Mathlib.Logic.Function.Basic
import IosCourse.GuardedRuns
import IosCourse.SnapDocuments

/-!
# The sign-in screen of SnapchatClone

`SignInVC.SignUpClicked` asks for an account and, once the account exists, adds a
document with an email and a user name to `UserInfo` and moves on to the feed
without waiting for it. The text fields are read at the tap for the account, and
again when the account exists for the document. Requests of any number of
devices are under way at a time, and each of them may fail.
-/

namespace SnapSignIn

open DocumentCollection SnapDocuments GuardedRuns

/-- The text fields of the sign-in screen. -/
structure Fields where
  email : String
  username : String
  password : String
  deriving DecidableEq

/-- A pending `createUser`, with the fields as they were at the tap. -/
structure Request where
  device : ℕ
  typed : Fields

/-- An account that `createUser` has created. `typed` is the user name at the tap,
`username` the one that was sent to `UserInfo`. -/
structure Account where
  device : ℕ
  email : String
  typed : String
  username : String
  deriving DecidableEq

/-- `signIns` are the pending sign-ins, each with its device and email, and
`additions` the writes to `UserInfo` whose completions are pending. -/
structure SignInState where
  fields : ℕ → Fields
  signIns : List (ℕ × String)
  requests : List Request
  accounts : List Account
  additions : List (ℕ × Doc)
  userInfo : Store
  onFeed : ℕ → Bool
  alerts : ℕ → List (String × String)

inductive Event where
  | edit (device : ℕ) (fields : Fields)
  | signInClicked (device : ℕ)
  | signIn (index : ℕ) (error : Option String)
  | signUpClicked (device : ℕ)
  | createUser (index : ℕ) (error : Option String)
  | addDocument (index : ℕ) (error : Option String)

/-- The account that a successful `createUser` creates. An email belongs to at
most one account. -/
def created (s : SignInState) : Event → Option Account
  | .createUser index none =>
    (s.requests[index]?).bind fun request =>
      if request.typed.email ∈ s.accounts.map Account.email then none
      else some ⟨request.device, request.typed.email, request.typed.username,
        (s.fields request.device).username⟩
  | _ => none

/-- The device on which this step moves on to the feed, and the email of the
account that is signed in there. -/
def entered (s : SignInState) : Event → Option (ℕ × String)
  | .signIn index none =>
    (s.signIns[index]?).bind fun signIn =>
      if signIn.2 ∈ s.accounts.map Account.email then some signIn else none
  | e => (created s e).map fun account => (account.device, account.email)

def makeAlert (device : ℕ) (title message : String) (s : SignInState) : SignInState :=
  { s with alerts := Function.update s.alerts device (s.alerts device ++ [(title, message)]) }

def step (s : SignInState) : Event → SignInState
  | .edit device fields => { s with fields := Function.update s.fields device fields }
  | .signInClicked device =>
    let fields := s.fields device
    if fields.password ≠ "" ∧ fields.email ≠ "" then
      { s with signIns := s.signIns ++ [(device, fields.email)] }
    else makeAlert device "Error" "Username/Email/Password?" s
  | .signIn index (some error) =>
    match s.signIns[index]? with
    | none => s
    | some (device, _) =>
      makeAlert device "Error" error { s with signIns := s.signIns.eraseIdx index }
  | .signIn index none =>
    match entered s (.signIn index none) with
    | none => s
    | some (device, _) =>
      { s with
        signIns := s.signIns.eraseIdx index
        onFeed := Function.update s.onFeed device true }
  | .signUpClicked device =>
    let fields := s.fields device
    if fields.username ≠ "" ∧ fields.password ≠ "" ∧ fields.email ≠ "" then
      { s with requests := s.requests ++ [⟨device, fields⟩] }
    else makeAlert device "Error" "Username/Email/Password?" s
  | .createUser index (some error) =>
    match s.requests[index]? with
    | none => s
    | some request =>
      makeAlert request.device "Error" error { s with requests := s.requests.eraseIdx index }
  | .createUser index none =>
    match created s (.createUser index none) with
    | none => s
    | some account =>
      -- Both fields are read here, not at the tap.
      let fields := s.fields account.device
      { s with
        requests := s.requests.eraseIdx index
        accounts := s.accounts ++ [account]
        additions :=
          s.additions ++ [(account.device, userDictionary fields.email fields.username)]
        onFeed := Function.update s.onFeed account.device true }
  | .addDocument index error =>
    match s.additions[index]? with
    | none => s
    | some (device, data) =>
      let s := { s with additions := s.additions.eraseIdx index }
      match error with
      | some message => makeAlert device "Error" message s
      | none => { s with userInfo := s.userInfo.add data }

/-- No account, no entry and no request. -/
def start (fields : ℕ → Fields) : SignInState where
  fields := fields
  signIns := []
  requests := []
  accounts := []
  additions := []
  userInfo := .empty
  onFeed := fun _ => false
  alerts := fun _ => []

section Alert
variable (device : ℕ) (title message : String) (s : SignInState)

@[simp] theorem makeAlert_accounts :
    (makeAlert device title message s).accounts = s.accounts := rfl

@[simp] theorem makeAlert_additions :
    (makeAlert device title message s).additions = s.additions := rfl

@[simp] theorem makeAlert_userInfo :
    (makeAlert device title message s).userInfo = s.userInfo := rfl

end Alert

theorem created_eq_some {s : SignInState} {e : Event} {account : Account}
    (h : created s e = some account) :
    ∃ index request, e = .createUser index none ∧ s.requests[index]? = some request ∧
      request.typed.email ∉ s.accounts.map Account.email ∧
      account = ⟨request.device, request.typed.email, request.typed.username,
        (s.fields request.device).username⟩ := by
  match e with
  | .createUser index none =>
    obtain ⟨request, hrequest, h⟩ := Option.bind_eq_some_iff.mp h
    obtain ⟨unused, account_eq⟩ := Option.ite_none_left_eq_some.mp h
    exact ⟨index, request, rfl, hrequest, unused, (Option.some.inj account_eq).symm⟩
  | .createUser _ (some _) | .edit _ _ | .signInClicked _ | .signIn _ _ | .signUpClicked _
  | .addDocument _ _ => cases h

/-- A step creates an account together with the request for its entry, or ends
the request for one entry, or leaves accounts and entries alone. -/
inductive EntryStep (s : SignInState) (e : Event) : Prop where
  | creates (account : Account) (creates : created s e = some account)
      (accounts : (step s e).accounts = s.accounts ++ [account])
      (additions : (step s e).additions = s.additions ++
        [(account.device, userDictionary (s.fields account.device).email account.username)])
      (userInfo : (step s e).userInfo = s.userInfo)
  | added (index : ℕ) (error : Option String) (device : ℕ) (data : Doc)
      (quiet : created s e = none) (event : e = .addDocument index error)
      (pending : s.additions[index]? = some (device, data))
      (accounts : (step s e).accounts = s.accounts)
      (additions : (step s e).additions = s.additions.eraseIdx index)
      (userInfo : (step s e).userInfo =
        if error = none then s.userInfo.add data else s.userInfo)
  | kept (quiet : created s e = none) (accounts : (step s e).accounts = s.accounts)
      (additions : (step s e).additions = s.additions)
      (userInfo : (step s e).userInfo = s.userInfo)

theorem entryStep (s : SignInState) (e : Event) : EntryStep s e := by
  match e with
  | .edit device fields => exact .kept rfl rfl rfl rfl
  | .signInClicked _ | .signIn _ (some _) | .signIn _ none | .signUpClicked _ =>
    refine .kept rfl ?_ ?_ ?_ <;> simp only [step] <;> split <;> rfl
  | .createUser index (some error) =>
    refine .kept rfl ?_ ?_ ?_ <;> simp only [step] <;> split <;> rfl
  | .createUser index none =>
    cases h : created s (.createUser index none) with
    | none => refine .kept h ?_ ?_ ?_ <;> simp only [step, h]
    | some account =>
      obtain ⟨_, _, _, _, _, rfl⟩ := created_eq_some h
      refine .creates _ h ?_ ?_ ?_ <;> simp only [step, h]
  | .addDocument index error =>
    cases pending : s.additions[index]? with
    | none =>
      refine .kept rfl ?_ ?_ ?_ <;> simp only [step, pending]
    | some addition =>
      obtain ⟨device, data⟩ := addition
      refine .added index error device data rfl rfl pending ?_ ?_ ?_ <;>
        cases error <;> simp [step, pending]

theorem accounts_step (s : SignInState) (e : Event) :
    (step s e).accounts = s.accounts ++ (created s e).toList := by
  cases entryStep s e with
  | creates account creates accounts _ _ => simp [accounts, creates]
  | added _ _ _ _ quiet _ _ accounts _ _ => simp [accounts, quiet]
  | kept quiet accounts _ _ => simp [accounts, quiet]

/-- What tells the accounts apart still does, if a new account differs in it. -/
theorem nodup_step {s : SignInState} {e : Event} {f : Account → String}
    (distinct : (s.accounts.map f).Nodup)
    (fresh : ∀ account ∈ created s e, f account ∉ s.accounts.map f) :
    ((step s e).accounts.map f).Nodup := by
  rw [accounts_step, List.map_append]
  cases h : created s e with
  | none => simpa using distinct
  | some account =>
    have unused := fresh account h
    exact List.nodup_append.mpr ⟨distinct, List.nodup_singleton _, by simpa using unused⟩

/-- The user name that the account with this email sent to `UserInfo`. -/
def registered (s : SignInState) (email : String) : Option String :=
  (s.accounts.find? fun account => account.email = email).map Account.username

theorem registered_step {s : SignInState} {email name : String}
    (known : registered s email = some name) (e : Event) :
    registered (step s e) email = some name := by
  obtain ⟨account, found, username⟩ := Option.map_eq_some_iff.mp known
  simp [registered, accounts_step, found, username]

theorem registered_created {s : SignInState} {e : Event} {account : Account}
    (creates : created s e = some account) :
    registered (step s e) account.email = some account.username := by
  obtain ⟨_, request, _, _, unused, same⟩ := created_eq_some creates
  have absent : s.accounts.find? (fun other => other.email = account.email) = none := by
    rw [List.find?_eq_none]
    intro other mem
    have differs : other.email ≠ request.typed.email :=
      fun taken => unused (taken ▸ List.mem_map_of_mem mem)
    simpa [same] using differs
  simp [registered, accounts_step, creates, absent]

theorem account_of_registered {s : SignInState} {email name : String}
    (known : registered s email = some name) :
    ∃ account ∈ s.accounts, account.email = email ∧ account.username = name := by
  obtain ⟨account, found, username⟩ := Option.map_eq_some_iff.mp known
  have email_eq := List.find?_some found
  exact ⟨account, List.mem_of_find?_eq_some found, by simpa using email_eq, username⟩

/-- The entry of a new account is sent under the email of the account. -/
def EmailKept (s : SignInState) (e : Event) : Prop :=
  ∀ account ∈ created s e, (s.fields account.device).email = account.email

instance (s : SignInState) (e : Event) : Decidable (EmailKept s e) :=
  inferInstanceAs (Decidable (∀ account ∈ created s e, _))

/-- The entry pairs the email of some account with the name it registered. -/
def Genuine (s : SignInState) (d : Doc) : Prop :=
  ∃ email name, d = userDictionary email name ∧ registered s email = some name

def EntriesGenuine (s : SignInState) : Prop :=
  ∀ d ∈ s.userInfo.documents ++ s.additions.map Prod.snd, Genuine s d

theorem entriesGenuine_step (s : SignInState) (e : Event) (h : EntriesGenuine s)
    (kept : EmailKept s e) : EntriesGenuine (step s e) := by
  have old : ∀ d ∈ s.userInfo.documents ++ s.additions.map Prod.snd, Genuine (step s e) d := by
    intro d mem
    obtain ⟨email, name, rfl, known⟩ := h d mem
    exact ⟨email, name, rfl, registered_step known e⟩
  intro d mem
  cases entryStep s e with
  | creates account creates accounts additions userInfo =>
    rw [additions, userInfo, List.map_append, ← List.append_assoc] at mem
    rcases List.mem_append.mp mem with mem | mem
    · exact old d mem
    · rw [kept account creates] at mem
      exact ⟨_, _, by simpa using mem, registered_created creates⟩
  | added index error device data quiet event pending accounts additions userInfo =>
    have sent : data ∈ s.additions.map Prod.snd :=
      List.mem_map_of_mem (List.mem_of_getElem? pending)
    have stored : d ∈ (step s e).userInfo.documents → d = data ∨ d ∈ s.userInfo.documents := by
      rw [userInfo]
      split
      · rw [Collection.documents_add]
        exact List.mem_cons.mp
      · exact Or.inr
    rw [additions] at mem
    rcases List.mem_append.mp mem with mem | mem
    · rcases stored mem with rfl | mem
      · exact old d (List.mem_append_right _ sent)
      · exact old d (List.mem_append_left _ mem)
    · obtain ⟨addition, hmem, rfl⟩ := List.mem_map.mp mem
      have before := List.mem_of_mem_eraseIdx hmem
      exact old _ (List.mem_append_right _ (List.mem_map_of_mem before))
  | kept quiet accounts additions userInfo =>
    rw [additions, userInfo] at mem
    exact old d mem

/-- No other account has registered the name of a new account. -/
def FreshUsername (s : SignInState) (e : Event) : Prop :=
  ∀ account ∈ created s e, account.username ∉ s.accounts.map Account.username

instance (s : SignInState) (e : Event) : Decidable (FreshUsername s e) :=
  inferInstanceAs (Decidable (∀ account ∈ created s e, _))

theorem registered_injective {s : SignInState}
    (distinct : (s.accounts.map Account.username).Nodup) {email email' name : String}
    (known : registered s email = some name) (known' : registered s email' = some name) :
    email = email' := by
  obtain ⟨account, mem, rfl, rfl⟩ := account_of_registered known
  obtain ⟨account', mem', rfl, same⟩ := account_of_registered known'
  rw [List.inj_on_of_nodup_map distinct mem mem' same.symm]

/-- The entry that an account should have. -/
def Account.entry (account : Account) : Doc := userDictionary account.email account.typed

/-- When an account is created its fields still read as they did at the tap, and
no write to `UserInfo` fails. -/
def Undisturbed (s : SignInState) : Event → Prop
  | .createUser index none => ∀ request ∈ s.requests[index]?,
      (s.fields request.device).email = request.typed.email ∧
        (s.fields request.device).username = request.typed.username
  | .addDocument index (some _) => s.additions[index]? = none
  | _ => True

instance (s : SignInState) : (e : Event) → Decidable (Undisturbed s e)
  | .createUser index none =>
    inferInstanceAs (Decidable (∀ request ∈ s.requests[index]?, _ ∧ _))
  | .addDocument index (some _) => inferInstanceAs (Decidable (s.additions[index]? = none))
  | .createUser _ (some _) | .addDocument _ none | .edit _ _ | .signInClicked _ | .signIn _ _
  | .signUpClicked _ => .isTrue trivial

/-- Every account that has moved on to the feed has exactly one entry, with the
email it was created with and the user name that was typed at the tap. -/
def Registered (s : SignInState) : Prop :=
  ∀ account ∈ s.accounts, s.onFeed account.device = true →
    ∃ id, s.userInfo.query (hasEmail account.email) = [(id, account.entry)]

def Quiescent (s : SignInState) : Prop := s.requests = [] ∧ s.additions = []

/-- No two accounts share an email, and the entries stored or under way are, in
some order, those that the accounts should have. -/
structure Matched (s : SignInState) : Prop where
  distinct : (s.accounts.map Account.email).Nodup
  entries : (s.userInfo.documents ++ s.additions.map Prod.snd).Perm
    (s.accounts.map Account.entry)

theorem email_of_created_unused {s : SignInState} {e : Event} :
    ∀ account ∈ created s e, account.email ∉ s.accounts.map Account.email := by
  intro account creates
  obtain ⟨_, request, _, _, unused, rfl⟩ := created_eq_some creates
  exact unused

theorem created_entry {s : SignInState} {e : Event} {account : Account}
    (creates : created s e = some account) (undisturbed : Undisturbed s e) :
    userDictionary (s.fields account.device).email account.username = account.entry := by
  obtain ⟨index, request, rfl, pending, _, rfl⟩ := created_eq_some creates
  obtain ⟨email, username⟩ := undisturbed request pending
  simp only [Account.entry, email, username]

theorem matched_step (s : SignInState) (e : Event) (h : Matched s)
    (undisturbed : Undisturbed s e) : Matched (step s e) := by
  refine ⟨nodup_step h.distinct email_of_created_unused, ?_⟩
  have entries := h.entries
  cases entryStep s e with
  | creates account creates accounts additions userInfo =>
    have entry := created_entry creates undisturbed
    rw [accounts, additions, userInfo, List.map_append, List.map_append, ← List.append_assoc]
    simpa [entry] using entries.append_right [account.entry]
  | added index error device data quiet event pending accounts additions userInfo =>
    have success : error = none := by
      cases error with
      | none => rfl
      | some message =>
        subst event
        rw [Undisturbed, pending] at undisturbed
        cases undisturbed
    obtain ⟨bound, addition⟩ := List.getElem?_eq_some_iff.mp pending
    have moved := (List.getElem_cons_eraseIdx_perm bound).map Prod.snd
    rw [accounts, additions, userInfo, if_pos success, Collection.documents_add]
    refine List.Perm.trans ?_ entries
    refine List.Perm.trans List.perm_middle.symm ?_
    simpa [addition] using moved.append_left s.userInfo.documents
  | kept quiet accounts additions userInfo => rwa [accounts, additions, userInfo]

theorem filter_entries {accounts : List Account}
    (distinct : (accounts.map Account.email).Nodup) {account : Account}
    (mem : account ∈ accounts) :
    (accounts.map Account.entry).filter (hasEmail account.email) = [account.entry] := by
  induction accounts with
  | nil => cases mem
  | cons first rest ih =>
    rw [List.map_cons, List.nodup_cons] at distinct
    rcases List.mem_cons.mp mem with rfl | mem
    · have others : (rest.map Account.entry).filter (hasEmail account.email) = [] := by
        simp only [List.filter_eq_nil_iff, List.mem_map]
        rintro _ ⟨other, hother, rfl⟩
        have differs : other.email ≠ account.email :=
          fun same => distinct.1 (same ▸ List.mem_map_of_mem hother)
        simpa [Account.entry] using differs
      simp [Account.entry] at others ⊢
      exact others
    · have differs : first.email ≠ account.email :=
        fun same => distinct.1 (same ▸ List.mem_map_of_mem mem)
      simpa [Account.entry, differs] using ih distinct.2 mem

theorem registered_of_matched {s : SignInState} (h : Matched s) (quiet : s.additions = []) :
    Registered s := by
  intro account mem _
  have entries : s.userInfo.documents.Perm (s.accounts.map Account.entry) := by
    simpa [quiet] using h.entries
  have found := entries.filter (hasEmail account.email)
  rw [filter_entries h.distinct mem, List.perm_singleton, ← Collection.query_map_snd] at found
  obtain ⟨⟨id, d⟩, single, rfl⟩ := List.map_eq_singleton_iff.mp found
  exact ⟨id, single⟩

/-- In every run in which fields stay as typed until their account exists and no
write to `UserInfo` fails, whenever no completion is pending, each account on the
feed has exactly one entry, and it is the one that was typed. -/
theorem registration_integrity (fields : ℕ → Fields) (es : List Event)
    (undisturbed : Always step (fun s e _ => Undisturbed s e) (start fields) es)
    (quiet : Quiescent (run step (start fields) es)) :
    Registered (run step (start fields) es) := by
  have matched : Matched (run step (start fields) es) :=
    invariant_run matched_step ⟨List.nodup_nil, List.Perm.nil⟩ undisturbed
  exact registered_of_matched matched quiet.2

/-- A registration without disturbance, up to the completion of its last request. -/
def signUpAs (device : ℕ) (email username : String) (added : Option String) : List Event :=
  [.edit device ⟨email, username, "secret"⟩, .signUpClicked device, .createUser 0 none,
    .addDocument 0 added]

theorem one_registration_integrity :
    Registered (run step (start fun _ => ⟨"", "", ""⟩) (signUpAs 0 "ada@mail" "ada" none)) :=
  registration_integrity _ _ (by decide) ⟨rfl, rfl⟩

/-- The write to `UserInfo` fails after the app has moved on: an account without entry. -/
theorem failed_entry_leaves_account_unregistered :
    ¬ ∀ (fields : ℕ → Fields) (es : List Event), Quiescent (run step (start fields) es) →
      Registered (run step (start fields) es) := by
  intro every
  obtain ⟨id, entry⟩ := every (fun _ => ⟨"", "", ""⟩)
    (signUpAs 0 "ada@mail" "ada" (some "offline")) ⟨rfl, rfl⟩
    ⟨0, "ada@mail", "ada", "ada"⟩ (by decide) rfl
  cases entry

end SnapSignIn
