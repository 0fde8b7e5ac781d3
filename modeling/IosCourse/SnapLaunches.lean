import IosCourse.SnapLookups

/-!
# Launching the app again

The process of a device can end at any moment, also by a trap. What it kept in memory is
lost: the singleton, the feed, the fields of the sign-in screen and every completion that
was to come. The account stays signed in, and Firestore keeps the writes that it was asked
for. The next launch goes straight to the feed if somebody is signed in.
-/

namespace SnapLaunches

open DocumentCollection SnapDocuments SnapUpload SnapFeed GuardedRuns SnapSession SnapIdentity
open SnapSystem (System UserSingleton Flow)
open SnapSignIn (SignInState registered entered Genuine EntriesGenuine)
open SnapLookups (lastName)

/-- `entries` and `deletions` are requests that ended processes have left to Firestore:
nobody waits for their completion. -/
structure World where
  session : Session
  entries : List Doc := []
  deletions : List ℕ := []

inductive Event where
  | session (event : SnapSession.Event)
  | launch (device : ℕ)
  | entry (index : ℕ) (ok : Bool)
  | deletion (index : ℕ) (ok : Bool)

/-- A flow still has the writes that it has requested. It requests no others. -/
def endFlow (device : ℕ) (f : Flow) : Flow :=
  if f.device = device then
    match f.stage with
    | .writing _ _ => f
    | .uploading | .answered _ => { f with stage := .writing [] false }
  else f

def endUploads (device : ℕ) (s : System) : System :=
  { s with
    sharedUserInfo := Function.update s.sharedUserInfo device .initial
    flows := s.flows.map (endFlow device)
    snapshots := s.snapshots.filter fun snapshot => snapshot.1 ≠ device
    feeds := Function.update s.feeds device .loaded
    deletes := s.deletes.filter fun deletion => deletion.1 ≠ device }

def endSignIn (device : ℕ) (s : SignInState) : SignInState :=
  { s with
    fields := Function.update s.fields device ⟨"", "", ""⟩
    signIns := s.signIns.filter fun signIn => signIn.1 ≠ device
    requests := s.requests.filter fun request => request.device ≠ device
    additions := s.additions.filter fun addition => addition.1 ≠ device
    onFeed := Function.update s.onFeed device false
    alerts := Function.update s.alerts device [] }

def endProcess (device : ℕ) (s : Session) : Session :=
  { s with
    snaps := endUploads device s.snaps
    signIn := endSignIn device s.signIn
    lookups := s.lookups.filter fun lookup => lookup.device ≠ device
    trapped := Function.update s.trapped device false
    loadedFor := Function.update s.loadedFor device none }

/-- The scene connects: the tab bar with the feed replaces the sign-in screen. -/
def scene (device : ℕ) (s : Session) : Session :=
  match s.currentUser device with
  | none => s
  | some email =>
    let onFeed := Function.update s.signIn.onFeed device true
    openFeed device email { s with signIn := { s.signIn with onFeed := onFeed } }

def sent (device : ℕ) {Request : Type} (requests : List (ℕ × Request)) : List Request :=
  (requests.filter fun request => request.1 = device).map Prod.snd

def step (w : World) : Event → World
  | .session event => { w with session := SnapSession.step w.session event }
  | .launch device =>
    { session := scene device (endProcess device w.session)
      entries := w.entries ++ sent device w.session.signIn.additions
      deletions := w.deletions ++ sent device w.session.snaps.deletes }
  | .entry index ok =>
    match w.entries[index]? with
    | none => w
    | some data =>
      let userInfo := w.session.signIn.userInfo
      let signIn :=
        { w.session.signIn with userInfo := if ok then userInfo.add data else userInfo }
      { w with
        entries := w.entries.eraseIdx index
        session := { w.session with signIn := signIn } }
  | .deletion index ok =>
    match w.deletions[index]? with
    | none => w
    | some id =>
      let mySnaps := w.session.snaps.mySnaps
      let snaps := { w.session.snaps with mySnaps := if ok then mySnaps.delete id else mySnaps }
      { w with
        deletions := w.deletions.eraseIdx index
        session := { w.session with snaps := snaps } }

/-- Nobody has an account or is signed in, and no process has ended. -/
def start (mySnaps : Store) (clock : ℤ) (fields : ℕ → SnapSignIn.Fields) : World :=
  { session := SnapSession.start mySnaps clock fields }

/-- Every new account sends its entry to `UserInfo` under its own email. -/
def PairsOwnEmail (w : World) : Event → Prop
  | .session event => SnapIdentity.PairsOwnEmail w.session event
  | _ => True

instance (w : World) : (e : Event) → Decidable (PairsOwnEmail w e)
  | .session event => inferInstanceAs (Decidable (SnapIdentity.PairsOwnEmail w.session event))
  | .launch _ | .entry _ _ | .deletion _ _ => .isTrue trivial

/-- A flow reads the singleton only while it holds the name of the account that tapped. -/
def ReadsAfterLoading (w : World) : Event → Prop
  | .session event => SnapIdentity.ReadsAfterLoading w.session event
  | _ => True

instance (w : World) : (e : Event) → Decidable (ReadsAfterLoading w e)
  | .session event =>
    inferInstanceAs (Decidable (SnapIdentity.ReadsAfterLoading w.session event))
  | .launch _ | .entry _ _ | .deletion _ _ => .isTrue trivial

/-- The flow is the same, or it has been cut short before it requested a write. -/
def CutShort (f f' : Flow) : Prop := f' = f ∨ f' = { f with stage := .writing [] false }

theorem cutShort_endFlow (device : ℕ) (f : Flow) : CutShort f (endFlow device f) := by
  unfold endFlow
  split
  · split
    · exact .inl rfl
    all_goals exact .inr rfl
  · exact .inl rfl

section Transfer
variable {s t : Session}

theorem ownDocument_transfer (names : ∀ n, ownName t n = ownName s n)
    (creators : t.snaps.createdBy = s.snaps.createdBy)
    (issued : t.snaps.mySnaps.nextId = s.snaps.mySnaps.nextId) {n id : ℕ}
    (h : OwnDocument s n id) : OwnDocument t n id := by
  obtain ⟨bound, name, own, created⟩ := h
  refine ⟨issued ▸ bound, name, (names n).trans own, fun m creator => ?_⟩
  rw [creators] at creator
  exact (names m).trans (created m creator)

theorem ownFlow_transfer (names : ∀ n, ownName t n = ownName s n)
    (creators : t.snaps.createdBy = s.snaps.createdBy)
    (issued : t.snaps.mySnaps.nextId = s.snaps.mySnaps.nextId) {n : ℕ} {f f' : Flow}
    (h : OwnFlow s n f) (cut : CutShort f f') : OwnFlow t n f' := by
  have own : ∀ {id : ℕ}, OwnDocument s n id → OwnDocument t n id :=
    fun old => ownDocument_transfer names creators issued old
  rcases cut with rfl | rfl
  · refine ⟨fun name queried => (names n).trans (h.queried name queried),
      fun name built => (names n).trans (h.built name built),
      fun documents stage document mem => own (h.documents documents stage document mem),
      fun pending acknowledged stage w mem => ?_⟩
    have before := h.writes pending acknowledged stage w mem
    cases w with
    | setData id urls => exact own before
    | addDocument urls owner => exact (names n).trans before
  · refine ⟨fun name queried => (names n).trans (h.queried name queried),
      fun name built => (names n).trans (h.built name built), ?_, ?_⟩
    · rintro documents ⟨⟩
    · rintro pending acknowledged ⟨⟩ w mem
      cases mem

theorem attributed_transfer (h : Attributed s) (names : ∀ n, ownName t n = ownName s n)
    (creators : t.snaps.createdBy = s.snaps.createdBy)
    (issued : t.snaps.mySnaps.nextId = s.snaps.mySnaps.nextId)
    (owners : ∀ id name, t.snaps.mySnaps.field id "snapOwner" = some (.string name) →
      s.snaps.mySnaps.field id "snapOwner" = some (.string name))
    (flows : ∀ (n : ℕ) (f' : Flow), t.snaps.flows[n]? = some f' →
      ∃ f, s.snaps.flows[n]? = some f ∧ CutShort f f') : Attributed t := by
  refine ⟨fun id m creator => ?_, fun id m name creator owner => ?_, fun n f' present => ?_⟩
  · rw [creators] at creator
    exact issued ▸ h.issued id m creator
  · rw [creators] at creator
    exact (names m).trans (h.creators id m name creator (owners id name owner))
  · obtain ⟨f, before, cut⟩ := flows n f' present
    exact ownFlow_transfer names creators issued (h.flows n f before) cut

theorem lookupsSound_transfer (h : LookupsSound s)
    (names : ∀ email, registered t.signIn email = registered s.signIn email)
    (entries : ∀ d ∈ t.signIn.userInfo.documents ++ t.signIn.additions.map Prod.snd,
      Genuine s.signIn d)
    (lookups : ∀ lookup ∈ t.lookups, lookup ∈ s.lookups ∨ lookup.answer = none)
    (loaded : ∀ device email, t.loadedFor device = some email →
      s.loadedFor device = some email ∧
        t.snaps.sharedUserInfo device = s.snaps.sharedUserInfo device) : LookupsSound t := by
  refine ⟨fun d mem => ?_, ?_, fun device email stored => ?_⟩
  · obtain ⟨email, name, entry, known⟩ := entries d mem
    exact ⟨email, name, entry, (names email).trans known⟩
  · intro lookup mem documents answer document found name named
    rcases lookups lookup mem with old | unanswered
    · exact (names _).trans (h.answers lookup old documents answer document found name named)
    · rw [unanswered] at answer
      cases answer
  · obtain ⟨before, user⟩ := loaded device email stored
    rw [user]
    exact (names email).trans (h.loaded device email before)

end Transfer

section Scene
variable (device : ℕ) (s : Session)

@[simp] theorem snaps_scene : (scene device s).snaps = s.snaps := by
  unfold scene
  split <;> rfl

@[simp] theorem trapped_scene : (scene device s).trapped = s.trapped := by
  unfold scene
  split <;> rfl

@[simp] theorem loadedFor_scene : (scene device s).loadedFor = s.loadedFor := by
  unfold scene
  split <;> rfl

@[simp] theorem tappedBy_scene : (scene device s).tappedBy = s.tappedBy := by
  unfold scene
  split <;> rfl

@[simp] theorem accounts_scene : (scene device s).signIn.accounts = s.signIn.accounts := by
  unfold scene
  split <;> rfl

@[simp] theorem userInfo_scene : (scene device s).signIn.userInfo = s.signIn.userInfo := by
  unfold scene
  split <;> rfl

@[simp] theorem additions_scene : (scene device s).signIn.additions = s.signIn.additions := by
  unfold scene
  split <;> rfl

@[simp] theorem currentUser_scene : (scene device s).currentUser = s.currentUser := by
  unfold scene
  split
  · rfl
  · rename_i email user
    rw [openFeed, ← user]
    exact Function.update_eq_self device s.currentUser

@[simp] theorem lookups_scene : (scene device s).lookups =
    s.lookups ++ ((s.currentUser device).map fun email => ⟨device, email, none⟩).toList := by
  unfold scene
  split
  · rename_i user
    simp [user]
  · rename_i email user
    simp [user, openFeed]

end Scene

theorem registered_of_accounts {s t : SignInState} (accounts : t.accounts = s.accounts)
    (email : String) : registered t email = registered s email := by
  rw [registered, registered, accounts]

theorem ownName_of_accounts {s t : Session} (accounts : t.signIn.accounts = s.signIn.accounts)
    (taps : t.tappedBy = s.tappedBy) (n : ℕ) : ownName t n = ownName s n := by
  rw [ownName, ownName, taps]
  exact congrArg _ (funext (registered_of_accounts accounts))

/-- Accounts and taps belong to the sessions. -/
theorem accounts_step (w : World) (e : Event) : (∃ event, e = .session event) ∨
    ((step w e).session.signIn.accounts = w.session.signIn.accounts ∧
      (step w e).session.tappedBy = w.session.tappedBy) := by
  cases e with
  | session event => exact .inl ⟨event, rfl⟩
  | launch device => exact .inr (by simp [step, endProcess, endSignIn])
  | entry index ok | deletion index ok =>
    simp only [step]
    split <;> exact .inr ⟨rfl, rfl⟩

theorem attributed_launch {s : Session} (h : Attributed s) (device : ℕ) :
    Attributed (scene device (endProcess device s)) := by
  have names : ∀ n, ownName (scene device (endProcess device s)) n = ownName s n :=
    ownName_of_accounts (by simp [endProcess, endSignIn]) (by simp [endProcess])
  refine attributed_transfer h names ?_ ?_ ?_ fun n f' present => ?_
  · simp [endProcess, endUploads]
  · simp [endProcess, endUploads]
  · simp [endProcess, endUploads]
  · simp only [snaps_scene, endProcess, endUploads, List.getElem?_map] at present
    obtain ⟨f, before, rfl⟩ := Option.map_eq_some_iff.mp present
    exact ⟨f, before, cutShort_endFlow device f⟩

theorem genuine_of_sent {device : ℕ} {w : World} (h : LookupsSound w.session) {d : Doc}
    (mem : d ∈ sent device w.session.signIn.additions) : Genuine w.session.signIn d := by
  obtain ⟨addition, pending, rfl⟩ := List.mem_map.mp mem
  exact h.entries _ (List.mem_append_right _ (List.mem_map_of_mem (List.mem_filter.mp pending).1))

theorem lookupsSound_launch {s : Session} (h : LookupsSound s) (device : ℕ) :
    LookupsSound (scene device (endProcess device s)) := by
  refine lookupsSound_transfer h (registered_of_accounts (by simp [endProcess, endSignIn]))
    (fun d mem => h.entries d ?_) (fun lookup mem => ?_) (fun other email stored => ?_)
  · simp only [userInfo_scene, additions_scene, endProcess, endSignIn] at mem
    refine (List.Sublist.append_left ?_ s.signIn.userInfo.documents).subset mem
    exact List.filter_sublist.map Prod.snd
  · rw [lookups_scene] at mem
    rcases List.mem_append.mp mem with old | new
    · exact .inl (List.mem_filter.mp old).1
    · obtain ⟨email, _, rfl⟩ := Option.map_eq_some_iff.mp (Option.mem_toList.mp new)
      exact .inr rfl
  · simp only [loadedFor_scene, snaps_scene, endProcess, endUploads] at stored ⊢
    by_cases here : other = device
    · rw [here, Function.update_self] at stored
      cases stored
    · rw [Function.update_of_ne here] at stored ⊢
      exact ⟨stored, rfl⟩

/-- All entries that can still reach `UserInfo` are genuine, and so is what was found there. -/
structure SoundWorld (w : World) : Prop where
  lookups : LookupsSound w.session
  entries : ∀ d ∈ w.entries, Genuine w.session.signIn d

theorem genuine_step {w : World} {d : Doc} (h : Genuine w.session.signIn d) (e : Event) :
    Genuine (step w e).session.signIn d := by
  obtain ⟨email, name, entry, known⟩ := h
  refine ⟨email, name, entry, ?_⟩
  rcases accounts_step w e with ⟨event, rfl⟩ | ⟨accounts, _⟩
  · exact registered_session_step known event
  · exact (registered_of_accounts accounts email).trans known

theorem soundWorld_step (w : World) (e : Event) (h : SoundWorld w) (paired : PairsOwnEmail w e) :
    SoundWorld (step w e) := by
  cases e with
  | session event =>
    exact ⟨lookupsSound_step w.session event h.lookups paired,
      fun d mem => genuine_step (h.entries d mem) (.session event)⟩
  | launch device =>
    refine ⟨lookupsSound_launch h.lookups device, fun d mem => genuine_step ?_ (.launch device)⟩
    rcases List.mem_append.mp mem with old | new
    · exact h.entries d old
    · exact genuine_of_sent h.lookups new
  | entry index ok =>
    cases pending : w.entries[index]? with
    | none =>
      simp only [step, pending]
      exact h
    | some data =>
      have data_genuine := h.entries data (List.mem_of_getElem? pending)
      simp only [step, pending]
      refine ⟨?_, fun d mem => h.entries d (List.mem_of_mem_eraseIdx mem)⟩
      refine lookupsSound_transfer h.lookups (fun email => rfl) (fun d mem => ?_)
        (fun lookup mem => .inl mem) (fun device email stored => ⟨stored, rfl⟩)
      cases ok with
      | false => exact h.lookups.entries d mem
      | true =>
        simp only [if_true, Collection.documents_add, List.cons_append] at mem
        rcases List.mem_cons.mp mem with rfl | old
        · exact data_genuine
        · exact h.lookups.entries d old
  | deletion index ok =>
    simp only [step]
    split
    · exact h
    · exact ⟨⟨h.lookups.entries, h.lookups.answers, h.lookups.loaded⟩, h.entries⟩

theorem attributed_world_step (w : World) (e : Event) (h : Attributed w.session)
    (sound : LookupsSound w.session) (reads : ReadsAfterLoading w e) :
    Attributed (step w e).session := by
  cases e with
  | session event =>
    exact attributed_step w.session event h (holdsOwnName_of_loaded sound reads)
  | launch device => exact attributed_launch h device
  | entry index ok =>
    have same := (accounts_step w (.entry index ok)).resolve_left nofun
    have snaps : (step w (.entry index ok)).session.snaps = w.session.snaps := by
      simp only [step]
      split <;> rfl
    refine attributed_transfer h (ownName_of_accounts same.1 same.2) ?_ ?_ ?_ ?_ <;> rw [snaps]
    · exact fun id name owner => owner
    · exact fun n f present => ⟨f, present, .inl rfl⟩
  | deletion index ok =>
    simp only [step]
    split
    · exact h
    · rename_i id pending
      refine attributed_transfer h (fun n => rfl) rfl ?_ ?_
        fun n f present => ⟨f, present, .inl rfl⟩
      · cases ok <;> simp
      · intro other name owner
        cases ok with
        | false => exact owner
        | true =>
          simp only [if_true, Collection.field_delete] at owner
          exact (Option.ite_none_left_eq_some.mp owner).2

theorem tapsRecorded_world_step (w : World) (e : Event) (h : TapsRecorded w.session) :
    TapsRecorded (step w e).session := by
  cases e with
  | session event => exact tapsRecorded_step w.session event h
  | launch device =>
    simpa [TapsRecorded, step, endProcess, endUploads] using h
  | entry index ok | deletion index ok =>
    simp only [step]
    split <;> exact h

theorem soundWorld_start (mySnaps : Store) (clock : ℤ) (fields : ℕ → SnapSignIn.Fields) :
    SoundWorld (start mySnaps clock fields) := by
  refine ⟨⟨?_, ?_, ?_⟩, ?_⟩
  · intro d mem
    cases mem
  · intro lookup mem
    cases mem
  · intro device email loaded
    cases loaded
  · intro d mem
    cases mem

/-- However often the processes end and are launched again: if every account sends its entry
under its own email, and flows read the singleton only after the lookup for the account that
tapped, then all queries and new documents carry that account's registered name. -/
theorem attribution_across_launches (mySnaps : Store) (clock : ℤ)
    (fields : ℕ → SnapSignIn.Fields) (es : List Event)
    (guarded : Always step (fun w e _ => PairsOwnEmail w e ∧ ReadsAfterLoading w e)
      (start mySnaps clock fields) es) :
    NamesOfTapper (run step (start mySnaps clock fields) es).session := by
  let inv : World → Prop := fun w =>
    Attributed w.session ∧ SoundWorld w ∧ TapsRecorded w.session
  have preserved : ∀ w e, inv w → PairsOwnEmail w e ∧ ReadsAfterLoading w e → inv (step w e) := by
    rintro w e ⟨attributed, sound, taps⟩ ⟨paired, reads⟩
    exact ⟨attributed_world_step w e attributed sound.lookups reads,
      soundWorld_step w e sound paired, tapsRecorded_world_step w e taps⟩
  obtain ⟨attributed, _, taps⟩ := invariant_run preserved
    ⟨attributed_start mySnaps clock fields, soundWorld_start mySnaps clock fields, rfl⟩ guarded
  exact namesOfTapper_of_attributed attributed taps

/-- The user name is loaded after a launch, with one account signed in. -/
def loadName : List SnapSession.Event := [.answerUser 0, .getUser 0 none]

theorem attribution_after_launch :
    NamesOfTapper (run step (start .empty 0 noFields)
      ((join 0 "ada@mail" "ada").map .session ++ [.launch 0] ++
        (loadName ++ wholeUpload 0 0 "a").map .session)).session :=
  attribution_across_launches .empty 0 noFields _ (by decide)

/-- An upload that does not wait for the name goes under the initial one. -/
example : (run step (start .empty 0 noFields)
    ((join 0 "ada@mail" "ada").map .session ++ [.launch 0] ++
      (wholeUpload 0 0 "a").map .session)).session.snaps.mySnaps.field 0 "snapOwner" =
        some (.string "") := by decide

/-- The account that is signed in on the device stays signed in there. -/
def StaysSignedIn (device : ℕ) (w : World) : Event → Prop
  | .session (.logOutClicked other) => other ≠ device
  | .session (.signIn event) => ∀ entry ∈ entered w.session.signIn event, entry.1 ≠ device
  | _ => True

instance (device : ℕ) (w : World) : (e : Event) → Decidable (StaysSignedIn device w e)
  | .session (.logOutClicked other) => inferInstanceAs (Decidable (other ≠ device))
  | .session (.signIn event) =>
    inferInstanceAs (Decidable (∀ entry ∈ entered w.session.signIn event, entry.1 ≠ device))
  | .session (.answerUser _) | .session (.getUser _ _) | .session (.uploadClicked _ _)
  | .session (.snaps _) | .launch _ | .entry _ _ | .deletion _ _ => .isTrue trivial

/-- The process runs, asks for nobody but the account that is signed in, and its singleton is
untouched or holds what a lookup for that account has stored. -/
structure Renewed (device : ℕ) (email : String) (s : Session) : Prop where
  signedIn : s.currentUser device = some email
  running : s.trapped device = false
  asked : ∀ lookup ∈ s.lookups, lookup.device = device → lookup.email = email
  user : (s.loadedFor device = none ∧ s.snaps.sharedUserInfo device = .initial) ∨
    (s.loadedFor device = some email ∧ (s.snaps.sharedUserInfo device).email = email)

section Renewed
variable {device : ℕ} {email : String} {s t : Session}

theorem renewed_launch (signedIn : s.currentUser device = some email) :
    Renewed device email (scene device (endProcess device s)) where
  signedIn := by simpa [endProcess] using signedIn
  running := by simp [endProcess]
  asked lookup mem here := by
    rw [lookups_scene] at mem
    rcases List.mem_append.mp mem with old | new
    · have elsewhere := (List.mem_filter.mp old).2
      simp [here] at elsewhere
    · obtain ⟨user, found, rfl⟩ := Option.map_eq_some_iff.mp (Option.mem_toList.mp new)
      exact Option.some.inj (found.symm.trans signedIn)
  user := .inl (by simp [endProcess, endUploads])

/-- A step that leaves the device alone. -/
theorem renewed_frame (h : Renewed device email s)
    (currentUser : t.currentUser device = s.currentUser device)
    (trapped : t.trapped device = s.trapped device)
    (lookups : ∀ lookup ∈ t.lookups, lookup.device = device →
      ∃ before ∈ s.lookups, before.device = device ∧ lookup.email = before.email)
    (loadedFor : t.loadedFor device = s.loadedFor device)
    (user : t.snaps.sharedUserInfo device = s.snaps.sharedUserInfo device) :
    Renewed device email t where
  signedIn := currentUser.trans h.signedIn
  running := trapped.trans h.running
  asked lookup mem here := by
    obtain ⟨before, old, there, same⟩ := lookups lookup mem here
    exact same.trans (h.asked before old there)
  user := by
    rw [loadedFor, user]
    exact h.user

theorem renewed_same (h : Renewed device email s) (currentUser : t.currentUser = s.currentUser)
    (trapped : t.trapped = s.trapped) (lookups : t.lookups = s.lookups)
    (loadedFor : t.loadedFor = s.loadedFor)
    (user : t.snaps.sharedUserInfo = s.snaps.sharedUserInfo) : Renewed device email t := by
  refine renewed_frame h (by rw [currentUser]) (by rw [trapped]) (fun lookup mem here => ?_)
    (by rw [loadedFor]) (by rw [user])
  exact ⟨lookup, lookups ▸ mem, here, rfl⟩

theorem renewed_openFeed (h : Renewed device email s) {other : ℕ} (elsewhere : other ≠ device)
    (account : String) : Renewed device email (openFeed other account s) := by
  refine renewed_frame h (Function.update_of_ne elsewhere.symm _ _) rfl (fun lookup mem here => ?_)
    rfl rfl
  rcases List.mem_append.mp mem with old | new
  · exact ⟨lookup, old, here, rfl⟩
  · rw [List.mem_singleton.mp new] at here
    exact absurd here elsewhere

/-- The completion of an answered lookup. -/
theorem renewed_completed (h : Renewed device email s) {index : ℕ} {lookup : Lookup}
    {documents : List (ℕ × Doc)} (present : s.lookups[index]? = some lookup)
    (answer : lookup.answer = some documents) :
    Renewed device email (perform s (.getUser index none)) := by
  have rest : ∀ other ∈ s.lookups.eraseIdx index, other.device = device →
      ∃ before ∈ s.lookups, before.device = device ∧ other.email = before.email :=
    fun other mem here => ⟨other, List.mem_of_mem_eraseIdx mem, here, rfl⟩
  by_cases here : lookup.device = device
  · subst here
    have asked := h.asked lookup (List.mem_of_getElem? present) rfl
    refine ⟨?_, ?_, fun other mem there => ?_, ?_⟩
    · simpa [perform, present, answer] using h.signedIn
    · simp [perform, present, answer, h.signedIn, SnapLookups.foldl_signedIn]
    · simp only [perform, present, answer] at mem
      exact h.asked other (List.mem_of_mem_eraseIdx mem) there
    · cases last : lastName documents with
      | none =>
        have quiet : storesName documents = false := by
          rw [Bool.eq_false_iff, ne_eq, SnapLookups.storesName_iff, last]
          simp
        simpa [perform, present, answer, quiet, foldl_storeUserInfo_of_not, SnapSystem.step]
          using h.user
      | some name =>
        have stores : storesName documents = true := SnapLookups.storesName_iff.mpr ⟨name, last⟩
        refine .inr ⟨?_, ?_⟩
        · simpa [perform, present, answer, stores] using asked
        · simp [perform, present, answer, h.signedIn, SnapLookups.foldl_signedIn, last,
            SnapSystem.step]
  · have elsewhere : device ≠ lookup.device := fun same => here same.symm
    refine renewed_frame h ?_ ?_ ?_ ?_ ?_
    · simp [perform, present, answer]
    · simp [perform, present, answer, elsewhere]
    · simpa [perform, present, answer] using rest
    · cases stores : storesName documents <;> simp [perform, present, answer, stores, elsewhere]
    · simp [perform, present, answer, SnapSystem.step, elsewhere]

theorem renewed_answered (h : Renewed device email s) (index : ℕ) :
    Renewed device email (perform s (.answerUser index)) := by
  have kept : ∀ (lookup : Lookup) (userInfo : Store),
      (lookup.answered userInfo).device = lookup.device ∧
        (lookup.answered userInfo).email = lookup.email := by
    intro lookup userInfo
    unfold Lookup.answered
    split <;> exact ⟨rfl, rfl⟩
  refine renewed_frame h rfl rfl (fun lookup mem here => ?_) rfl rfl
  obtain ⟨i, hi⟩ := List.mem_iff_getElem?.mp mem
  rcases SnapSystem.getElem?_modify_cases hi with ⟨_, before⟩ | ⟨rfl, old, before, rfl⟩
  · exact ⟨lookup, List.mem_of_getElem? before, here, rfl⟩
  · exact ⟨old, List.mem_of_getElem? before, (kept old _).1.symm.trans here, (kept old _).2⟩

theorem renewed_getUser (h : Renewed device email s) (index : ℕ) (error : Option String) :
    Renewed device email (perform s (.getUser index error)) := by
  cases present : s.lookups[index]? with
  | none =>
    simp only [perform, present]
    exact h
  | some lookup =>
    cases error with
    | some message =>
      simp only [perform, present]
      exact renewed_frame h rfl rfl
        (fun other mem here => ⟨other, List.mem_of_mem_eraseIdx mem, here, rfl⟩) rfl rfl
    | none =>
      cases answer : lookup.answer with
      | none =>
        simp only [perform, present, answer]
        exact h
      | some documents => exact renewed_completed h present answer

theorem renewed_session_step {w : World} (h : Renewed device email w.session)
    (e : SnapSession.Event) (stays : StaysSignedIn device w (.session e)) :
    Renewed device email (SnapSession.step w.session e) := by
  rcases step_cases w.session e with same | performs
  · rwa [same]
  · rw [performs]
    cases e with
    | signIn event =>
      have signed : Renewed device email
          { w.session with signIn := SnapSignIn.step w.session.signIn event } :=
        renewed_same h rfl rfl rfl rfl rfl
      cases enters : entered w.session.signIn event with
      | none =>
        simp only [perform, enters]
        exact signed
      | some entry =>
        simp only [perform, enters]
        exact renewed_openFeed signed (stays entry enters) entry.2
    | logOutClicked other =>
      exact renewed_frame h (Function.update_of_ne stays.symm _ _) rfl
        (fun lookup mem here => ⟨lookup, mem, here, rfl⟩) rfl rfl
    | answerUser index => exact renewed_answered h index
    | getUser index error => exact renewed_getUser h index error
    | uploadClicked tapping imageURL =>
      simp only [perform]
      split
      · exact h
      · exact renewed_same h rfl rfl rfl rfl rfl
    | snaps event =>
      cases own : ownEvent event with
      | false =>
        simp only [perform, own]
        exact h
      | true =>
        have quiet : ∀ device user, event ≠ .storeUser device user := by
          rintro device user rfl
          cases own
        simp only [perform, own]
        exact renewed_same h rfl rfl rfl rfl (SnapSystem.sharedUserInfo_step quiet)

theorem renewed_step (w : World) (e : Event) (h : Renewed device email w.session)
    (stays : StaysSignedIn device w e) : Renewed device email (step w e).session := by
  cases e with
  | session event => exact renewed_session_step h event stays
  | launch other =>
    by_cases here : other = device
    · rw [here]
      exact renewed_launch h.signedIn
    · have elsewhere : device ≠ other := fun same => here same.symm
      refine renewed_frame h ?_ ?_ (fun lookup mem there => ?_) ?_ ?_
      · simp [step, endProcess]
      · simp [step, endProcess, elsewhere]
      · simp only [step, lookups_scene] at mem
        rcases List.mem_append.mp mem with old | new
        · exact ⟨lookup, (List.mem_filter.mp old).1, there, rfl⟩
        · obtain ⟨user, _, rfl⟩ := Option.map_eq_some_iff.mp (Option.mem_toList.mp new)
          exact absurd there here
      · simp [step, endProcess, elsewhere]
      · simp [step, endProcess, endUploads, elsewhere]
  | entry index ok | deletion index ok =>
    simp only [step]
    split
    · exact h
    · exact renewed_same h rfl rfl rfl rfl rfl

end Renewed

/-- From a launch with somebody signed in, for as long as this account stays signed in on the
device, the process never traps. Its singleton is as initialised or pairs the email of the
account with the name that the account has registered, whatever was there before. -/
theorem launch_renews_identity (mySnaps : Store) (clock : ℤ) (fields : ℕ → SnapSignIn.Fields)
    (es later : List Event) (device : ℕ) (email : String)
    (paired : Always step (fun w e _ => PairsOwnEmail w e) (start mySnaps clock fields)
      (es ++ .launch device :: later))
    (signedIn : (run step (start mySnaps clock fields) es).session.currentUser device = some email)
    (stays : Always step (fun w e _ => StaysSignedIn device w e)
      (run step (start mySnaps clock fields) es) (.launch device :: later)) :
    let s := (run step (start mySnaps clock fields) (es ++ .launch device :: later)).session
    s.currentUser device = some email ∧ s.trapped device = false ∧
      ((s.loadedFor device = none ∧ s.snaps.sharedUserInfo device = .initial) ∨
        s.loadedFor device = some email ∧ ∃ name, registered s.signIn email = some name ∧
          s.snaps.sharedUserInfo device = ⟨email, name⟩) := by
  intro s
  have sound : LookupsSound s := by
    have whole := invariant_run soundWorld_step (soundWorld_start mySnaps clock fields) paired
    exact whole.lookups
  have renewed : Renewed device email s := by
    have reached : s = (run step (step (run step (start mySnaps clock fields) es)
        (.launch device)) later).session := by
      rw [← run_cons, ← run_append]
    rw [reached]
    exact @invariant_run _ _ step (fun w => Renewed device email w.session) _ renewed_step _ _
      (renewed_launch signedIn) stays.2
  refine ⟨renewed.signedIn, renewed.running, renewed.user.imp id fun loaded => ?_⟩
  have known := sound.loaded device email loaded.1
  refine ⟨loaded.1, _, known, ?_⟩
  rw [← loaded.2]

/-- Bob signs up after Ada on one device; his name has not been loaded yet. -/
def bobAfterAda : List SnapSession.Event :=
  join 0 "ada@mail" "ada" ++ [.logOutClicked 0] ++
    (SnapSignIn.signUpAs 0 "bob@mail" "bob" none).map .signIn

theorem bob_renewed :
    let s := (run step (start .empty 0 noFields)
      (bobAfterAda.map .session ++ .launch 0 :: loadName.map .session)).session
    s.currentUser 0 = some "bob@mail" ∧ s.trapped 0 = false ∧
      ((s.loadedFor 0 = none ∧ s.snaps.sharedUserInfo 0 = .initial) ∨
        s.loadedFor 0 = some "bob@mail" ∧ ∃ name, registered s.signIn "bob@mail" = some name ∧
          s.snaps.sharedUserInfo 0 = ⟨"bob@mail", name⟩) :=
  launch_renews_identity .empty 0 noFields (bobAfterAda.map .session) (loadName.map .session) 0
    "bob@mail" (by decide) (by decide) (by decide)

end SnapLaunches
