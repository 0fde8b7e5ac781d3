import IosCourse.SnapSession

/-!
# Whose name an upload carries

A flow reads the user name from the singleton of its device up to twice after its
tap. As long as it finds the name of the account that tapped, its queries and new
documents carry that name; and it finds that name whenever the lookup stored last
on the device was the one for that account. User names identify accounts only if
no two accounts register the same one.
-/

namespace SnapIdentity

open DocumentCollection SnapDocuments SnapUpload GuardedRuns SnapSession
open SnapSystem (FlowStep OwnerStep Flow nextWrite reader)
open SnapSignIn (registered created EmailKept FreshUsername EntriesGenuine)

/-- A flow that reads the singleton in this step finds the user name that the
account that tapped has registered. -/
def HoldsOwnName (s : Session) (e : Event) : Prop :=
  ∀ event ∈ snapsEvent s e, ∀ r ∈ reader s.snaps event,
    ownName s r.1 = some (s.snaps.sharedUserInfo r.2.device).userName

instance (s : Session) (e : Event) : Decidable (HoldsOwnName s e) :=
  inferInstanceAs (Decidable (∀ event ∈ snapsEvent s e, ∀ r ∈ reader s.snaps event, _))

/-- The flow may write to this document: whoever created it, if a flow of this run
did, has registered the same name. -/
def OwnDocument (s : Session) (n id : ℕ) : Prop :=
  id < s.snaps.mySnaps.nextId ∧ ∃ name, ownName s n = some name ∧
    ∀ m, s.snaps.createdBy id = some m → ownName s m = some name

def OwnWrite (s : Session) (n : ℕ) : Write → Prop
  | .setData id _ => OwnDocument s n id
  | .addDocument _ owner => ownName s n = some owner

/-- All names and documents that the flow refers to are those of its account. -/
structure OwnFlow (s : Session) (n : ℕ) (f : Flow) : Prop where
  queried : ∀ name, f.queryName = some name → ownName s n = some name
  built : ∀ name, f.buildName = some name → ownName s n = some name
  documents : ∀ documents, f.stage = .answered documents →
    ∀ document ∈ documents, OwnDocument s n document.1
  writes : ∀ pending acknowledged, f.stage = .writing pending acknowledged →
    ∀ w ∈ pending, OwnWrite s n w

/-- Every flow, and every document that a flow has created, carries the name of
the account behind the flow. -/
structure Attributed (s : Session) : Prop where
  issued : ∀ id m, s.snaps.createdBy id = some m → id < s.snaps.mySnaps.nextId
  creators : ∀ id m name, s.snaps.createdBy id = some m →
    s.snaps.mySnaps.field id "snapOwner" = some (.string name) → ownName s m = some name
  flows : ∀ n f, s.snaps.flows[n]? = some f → OwnFlow s n f

theorem attributed_start (mySnaps : Store) (clock : ℤ) (fields : ℕ → SnapSignIn.Fields) :
    Attributed (start mySnaps clock fields) := by
  refine ⟨?_, ?_, ?_⟩
  · intro id m h
    cases h
  · intro id m name h
    cases h
  · intro n f h
    cases h

theorem ownDocument_step {s : Session} {n id : ℕ} (h : OwnDocument s n id) (e : Event) :
    OwnDocument (step s e) n id := by
  obtain ⟨issued, name, own, creators⟩ := h
  have kept : id < (step s e).snaps.mySnaps.nextId ∧
      (step s e).snaps.createdBy id = s.snaps.createdBy id := by
    rw [snaps_step]
    cases snapsEvent s e with
    | none => exact ⟨issued, rfl⟩
    | some event =>
      exact ⟨lt_of_lt_of_le issued (SnapSystem.nextId_le_step _ _),
        SnapSystem.createdBy_step issued event⟩
  refine ⟨kept.1, name, ownName_step own e, ?_⟩
  intro m created
  exact ownName_step (creators m (kept.2 ▸ created)) e

theorem ownWrite_step {s : Session} {n : ℕ} {w : Write} (h : OwnWrite s n w) (e : Event) :
    OwnWrite (step s e) n w := by
  cases w with
  | setData id urls => exact ownDocument_step h e
  | addDocument urls owner => exact ownName_step h e

theorem ownFlow_step {s : Session} {n : ℕ} {f : Flow} (h : OwnFlow s n f) (e : Event) :
    OwnFlow (step s e) n f where
  queried name queried := ownName_step (h.queried name queried) e
  built name built := ownName_step (h.built name built) e
  documents documents stage document mem :=
    ownDocument_step (h.documents documents stage document mem) e
  writes pending acknowledged stage w mem :=
    ownWrite_step (h.writes pending acknowledged stage w mem) e

/-- The documents found under the flow's own name are its account's documents. -/
theorem ownDocument_of_ownedBy {s : Session} (h : Attributed s) {n : ℕ} {name : String}
    (own : ownName s n = some name) {document : ℕ × Doc}
    (mem : document ∈ ownedBy s.snaps.mySnaps name) : OwnDocument s n document.1 := by
  obtain ⟨present, owner⟩ := mem_ownedBy.mp mem
  refine ⟨Collection.lt_nextId present, name, own, ?_⟩
  intro m created
  exact h.creators document.1 m name created (by rw [Collection.field_eq present, owner])

/-- The requests of a flow are its account's, if the query found documents of the
account, or the name read for a new document is the account's. -/
theorem ownWrite_of_requested {s : Session} {n : ℕ} {imageURL userName : String}
    {documents : List (ℕ × Doc)} (found : ∀ document ∈ documents, OwnDocument s n document.1)
    (read : documents = [] → ownName s n = some userName) {w : Write}
    (mem : w ∈ requestedWrites imageURL userName documents) : OwnWrite s n w := by
  rcases mem_requestedWrites mem with ⟨id, d, urls, hd, _, rfl⟩ | ⟨empty, rfl⟩
  · exact found (id, d) hd
  · exact read empty

theorem flows_step {s : Session} {e : Event} (h : Attributed s) (holds : HoldsOwnName s e)
    {n : ℕ} {f' : Flow} (hf' : (step s e).snaps.flows[n]? = some f') :
    OwnFlow (step s e) n f' := by
  rw [snaps_step] at hf'
  cases happens : snapsEvent s e with
  | none =>
    rw [happens] at hf'
    exact ownFlow_step (h.flows n f' hf') e
  | some event =>
    rw [happens] at hf'
    cases SnapSystem.flowStep hf' with
    | same before => exact ownFlow_step (h.flows n f' before) e
    | tapped device imageURL event_eq index result =>
      subst result
      refine ⟨?_, ?_, ?_, ?_⟩ <;> intros <;> contradiction
    | queried f before event_eq stage result =>
      subst event_eq
      have old := h.flows n f before
      have own := holds _ happens _ (SnapSystem.reader_query before stage)
      subst result
      refine ⟨?_, ?_, ?_, ?_⟩
      · rintro name ⟨⟩
        exact ownName_step own e
      · exact fun name built => ownName_step (old.built name built) e
      · rintro documents ⟨⟩ document mem
        exact ownDocument_step (ownDocument_of_ownedBy h own mem) e
      · rintro pending acknowledged ⟨⟩
    | answered f before event_eq documents stage result =>
      subst event_eq
      have old := h.flows n f before
      have found := old.documents documents stage
      have read : documents = [] →
          ownName s n = some (s.snaps.sharedUserInfo f.device).userName := by
        rintro rfl
        exact holds _ happens _ (SnapSystem.reader_answer before stage)
      subst result
      refine ⟨?_, ?_, ?_, ?_⟩
      · exact fun name queried => ownName_step (old.queried name queried) e
      · intro name built
        obtain ⟨empty, same⟩ := Option.ite_none_right_eq_some.mp built
        rw [← same]
        exact ownName_step (read (List.isEmpty_iff.mp empty)) e
      · rintro _ ⟨⟩
      · rintro pending acknowledged ⟨⟩ w mem
        exact ownWrite_step (ownWrite_of_requested found read mem) e
    | settled f before index ok event_eq pending acknowledged stage w write result =>
      have old := h.flows n f before
      subst result
      refine ⟨?_, ?_, ?_, ?_⟩
      · exact fun name queried => ownName_step (old.queried name queried) e
      · exact fun name built => ownName_step (old.built name built) e
      · rintro _ ⟨⟩
      · rintro _ _ ⟨⟩ w' mem
        have before' := old.writes pending acknowledged stage w' (List.mem_of_mem_eraseIdx mem)
        exact ownWrite_step before' e

/-- A pending write of a flow, as the invariant sees it. -/
theorem ownWrite_of_next {s : Session} (h : Attributed s) {n index : ℕ} {w : Write}
    (next : nextWrite s.snaps n index = some w) : OwnWrite s n w := by
  obtain ⟨_, _, f, pending, acknowledged, event, hf, stage, write⟩ :=
    SnapSystem.applied_cases (e := .write n index true) next
  cases event
  exact (h.flows n f hf).writes pending acknowledged stage w (List.mem_of_getElem? write)

theorem issued_step {s : Session} (h : Attributed s) (e : Event) {id m : ℕ}
    (creator : (step s e).snaps.createdBy id = some m) :
    id < (step s e).snaps.mySnaps.nextId := by
  rw [snaps_step] at creator ⊢
  cases happens : snapsEvent s e with
  | none =>
    rw [happens] at creator
    exact h.issued id m creator
  | some event =>
    rw [happens, Option.elim_some] at creator
    rw [Option.elim_some]
    cases SnapSystem.ownerStep s.snaps event with
    | added n index urls owner event_eq next creators store =>
      rw [store, Collection.nextId_add]
      by_cases new : id = s.snaps.mySnaps.nextId
      · omega
      · rw [creators, Function.update_of_ne new] at creator
        have := h.issued id m creator
        omega
    | kept creators issued owners =>
      rw [creators] at creator
      exact lt_of_lt_of_le (h.issued id m creator) issued

theorem creators_step {s : Session} (h : Attributed s) (e : Event) {id m : ℕ} {name : String}
    (creator : (step s e).snaps.createdBy id = some m)
    (owner : (step s e).snaps.mySnaps.field id "snapOwner" = some (.string name)) :
    ownName s m = some name := by
  rw [snaps_step] at creator owner
  cases happens : snapsEvent s e with
  | none =>
    rw [happens] at creator owner
    exact h.creators id m name creator owner
  | some event =>
    rw [happens, Option.elim_some] at creator owner
    cases SnapSystem.ownerStep s.snaps event with
    | added n index urls name' event_eq next creators store =>
      rw [store, Collection.field_add] at owner
      by_cases new : id = s.snaps.mySnaps.nextId
      · -- The new document carries the name that its flow had read.
        rw [creators, new, Function.update_self] at creator
        rw [if_pos new, snapDictionary_owner] at owner
        cases creator
        cases owner
        exact ownWrite_of_next h next
      · rw [creators, Function.update_of_ne new] at creator
        rw [if_neg new] at owner
        exact h.creators id m name creator owner
    | kept creators issued owners =>
      rw [creators] at creator
      exact h.creators id m name creator (owners id name owner)

theorem attributed_step (s : Session) (e : Event) (h : Attributed s)
    (holds : HoldsOwnName s e) : Attributed (step s e) where
  issued _ _ creator := issued_step h e creator
  creators _ _ _ creator owner := ownName_step (creators_step h e creator owner) e
  flows _ _ flow := flows_step h holds flow

/-- A flow reads the singleton only while the lookup stored last on its device is
one for the account that tapped. -/
def ReadsAfterLoading (s : Session) (e : Event) : Prop :=
  ∀ event ∈ snapsEvent s e, ∀ r ∈ reader s.snaps event,
    ∃ account ∈ s.tappedBy[r.1]?, s.loadedFor r.2.device = some account

instance (s : Session) (e : Event) : Decidable (ReadsAfterLoading s e) :=
  inferInstanceAs (Decidable (∀ event ∈ snapsEvent s e, ∀ r ∈ reader s.snaps event,
    ∃ account ∈ s.tappedBy[r.1]?, _))

/-- Every new account sends its entry to `UserInfo` under its own email. -/
def PairsOwnEmail (s : Session) (e : Event) : Prop :=
  ∀ event ∈ signInEvent s e, EmailKept s.signIn event

instance (s : Session) (e : Event) : Decidable (PairsOwnEmail s e) :=
  inferInstanceAs (Decidable (∀ event ∈ signInEvent s e, _))

/-- What lookups find, and what they have stored, are names registered by the
account that was looked up. -/
structure LookupsSound (s : Session) : Prop where
  entries : EntriesGenuine s.signIn
  answers : ∀ lookup ∈ s.lookups, ∀ documents, lookup.answer = some documents →
    ∀ document ∈ documents, ∀ name, username document.2 = some name →
      registered s.signIn lookup.email = some name
  loaded : ∀ device email, s.loadedFor device = some email →
    registered s.signIn email = some (s.snaps.sharedUserInfo device).userName

theorem registered_session_step {s : Session} {email name : String}
    (known : registered s.signIn email = some name) (e : Event) :
    registered (step s e).signIn email = some name := by
  rw [signIn_step]
  cases signInEvent s e with
  | none => exact known
  | some event => exact SnapSignIn.registered_step known event

/-- The entries found for an email carry the name registered with that email. -/
theorem registered_of_found {s : Session} (entries : EntriesGenuine s.signIn) {email : String}
    {document : ℕ × Doc} (mem : document ∈ s.signIn.userInfo.query (hasEmail email))
    {name : String} (named : username document.2 = some name) :
    registered s.signIn email = some name := by
  obtain ⟨present, asked⟩ := Collection.mem_query.mp mem
  have stored : document.2 ∈ s.signIn.userInfo.documents :=
    Collection.mem_documents.mpr ⟨document.1, present⟩
  obtain ⟨email', name', entry, known⟩ := entries _ (List.mem_append_left _ stored)
  rw [entry] at asked named
  have same : email' = email := by simpa using asked
  cases named
  rwa [← same]

theorem lookupsSound_step (s : Session) (e : Event) (h : LookupsSound s)
    (paired : PairsOwnEmail s e) : LookupsSound (step s e) := by
  refine ⟨?_, ?_, ?_⟩
  · rw [signIn_step]
    cases happens : signInEvent s e with
    | none => exact h.entries
    | some event => exact SnapSignIn.entriesGenuine_step _ event h.entries (paired event happens)
  · intro lookup mem documents answer document found name named
    refine registered_session_step ?_ e
    rcases lookups_step mem with old | unanswered | fresh
    · exact h.answers lookup old documents answer document found name named
    · rw [unanswered] at answer
      cases answer
    · obtain rfl := Option.some.inj (answer.symm.trans fresh)
      exact registered_of_found h.entries found named
  · intro device email loaded
    cases loadStep s e device with
    | stored lookup mem documents answer loaded' document found name =>
      obtain rfl : lookup.email = email := Option.some.inj (loaded'.symm.trans loaded)
      have known := h.answers lookup mem documents answer document found _ name
      exact registered_session_step known e
    | kept loaded' user =>
      rw [loaded'] at loaded
      rw [user]
      exact registered_session_step (h.loaded device email loaded) e

theorem holdsOwnName_of_loaded {s : Session} (h : LookupsSound s) {e : Event}
    (reads : ReadsAfterLoading s e) : HoldsOwnName s e := by
  intro event happens r read
  obtain ⟨account, tapped, loaded⟩ := reads event happens r read
  exact Option.bind_eq_some_iff.mpr ⟨account, tapped, h.loaded _ account loaded⟩

/-- Every owner query and every new document of a flow carries the user name that
the account signed in at its tap has registered. -/
def NamesOfTapper (s : Session) : Prop :=
  ∀ n f, s.snaps.flows[n]? = some f → ∃ account, s.tappedBy[n]? = some account ∧
    (∀ name, f.queryName = some name ∨ f.buildName = some name →
      registered s.signIn account = some name) ∧
    ∀ id name, s.snaps.createdBy id = some n →
      s.snaps.mySnaps.field id "snapOwner" = some (.string name) →
      registered s.signIn account = some name

theorem namesOfTapper_of_attributed {s : Session} (h : Attributed s) (taps : TapsRecorded s) :
    NamesOfTapper s := by
  intro n f hf
  have bound : n < s.tappedBy.length := by
    have := (List.getElem?_eq_some_iff.mp hf).1
    rw [TapsRecorded] at taps
    omega
  have tapped : s.tappedBy[n]? = some s.tappedBy[n] := List.getElem?_eq_getElem bound
  have own : ∀ name, ownName s n = some name → registered s.signIn s.tappedBy[n] = some name := by
    intro name known
    rwa [ownName, tapped, Option.bind_some] at known
  refine ⟨_, tapped, ?_, ?_⟩
  · rintro name (queried | built)
    · exact own name ((h.flows n f hf).queried name queried)
    · exact own name ((h.flows n f hf).built name built)
  · intro id name created owner
    exact own name (h.creators id n name created owner)

/-- If every account sends its entry under its own email, then in every run whose
flows read the singleton only after the lookup for the account that tapped, all
queries and new documents carry that account's registered name. -/
theorem correct_attribution (mySnaps : Store) (clock : ℤ) (fields : ℕ → SnapSignIn.Fields)
    (es : List Event)
    (guarded : Always step (fun s e _ => PairsOwnEmail s e ∧ ReadsAfterLoading s e)
      (start mySnaps clock fields) es) :
    NamesOfTapper (run step (start mySnaps clock fields) es) := by
  let inv : Session → Prop := fun s => Attributed s ∧ LookupsSound s ∧ TapsRecorded s
  have preserved : ∀ s e, inv s → PairsOwnEmail s e ∧ ReadsAfterLoading s e → inv (step s e) := by
    rintro s e ⟨attributed, sound, taps⟩ ⟨paired, reads⟩
    exact ⟨attributed_step s e attributed (holdsOwnName_of_loaded sound reads),
      lookupsSound_step s e sound paired, tapsRecorded_step s e taps⟩
  have sound : LookupsSound (start mySnaps clock fields) := by
    refine ⟨?_, ?_, ?_⟩
    · intro d mem
      cases mem
    · intro lookup mem
      cases mem
    · intro device email loaded
      cases loaded
  obtain ⟨attributed, _, taps⟩ :=
    invariant_run preserved ⟨attributed_start mySnaps clock fields, sound, rfl⟩ guarded
  exact namesOfTapper_of_attributed attributed taps

def noFields : ℕ → SnapSignIn.Fields := fun _ => ⟨"", "", ""⟩

/-- A registration up to the moment at which the user name is loaded. -/
def join (device : ℕ) (email username : String) : List Event :=
  (SnapSignIn.signUpAs device email username none).map .signIn ++ [.answerUser 0, .getUser 0 none]

def wholeUpload (device flow : ℕ) (imageURL : String) : List Event :=
  [.uploadClicked device imageURL, .snaps (.query flow), .snaps (.answer flow),
    .snaps (.write flow 0 true)]

theorem correct_attribution_of_first_upload :
    NamesOfTapper (run step (start .empty 0 noFields)
      (join 0 "ada@mail" "ada" ++ wholeUpload 0 0 "a")) :=
  correct_attribution .empty 0 noFields _ (by decide)

/-- The second account of a device uploads before its lookup is answered. -/
theorem upload_under_previous_name :
    ¬ ∀ (mySnaps : Store) (clock : ℤ) (fields : ℕ → SnapSignIn.Fields) (es : List Event),
      Always step (fun s e _ => PairsOwnEmail s e) (start mySnaps clock fields) es →
      NamesOfTapper (run step (start mySnaps clock fields) es) := by
  intro every
  obtain ⟨account, tapped, names, _⟩ := every .empty 0 noFields
    (join 0 "ada@mail" "ada" ++ [.logOutClicked 0] ++
      (SnapSignIn.signUpAs 0 "bob@mail" "bob" none).map .signIn ++
      [.uploadClicked 0 "b", .snaps (.query 0)]) (by decide) 0 _ rfl
  obtain rfl : "bob@mail" = account := Option.some.inj tapped
  have wrong := names "ada" (Or.inl rfl)
  revert wrong
  decide

/-- The flow whose step this is. -/
def movedFlow : SnapSystem.Event → Option ℕ
  | .query n | .answer n | .write n _ _ => some n
  | _ => none

/-- A step of a flow changes no document that a flow of another account created. -/
def LeavesOthersAlone (s : Session) (e : Event) (t : Session) : Prop :=
  ∀ event ∈ snapsEvent s e, ∀ n ∈ movedFlow event, ∀ account ∈ s.tappedBy[n]?,
    ∀ id m, s.snaps.createdBy id = some m → ∀ other ∈ s.tappedBy[m]?, other ≠ account →
      t.snaps.mySnaps.get? id = s.snaps.mySnaps.get? id

/-- No account registers a user name that another account has registered. -/
def RegistersFreshName (s : Session) (e : Event) : Prop :=
  ∀ event ∈ signInEvent s e, FreshUsername s.signIn event

instance (s : Session) (e : Event) : Decidable (RegistersFreshName s e) :=
  inferInstanceAs (Decidable (∀ event ∈ signInEvent s e, _))

def UsernamesDistinct (s : Session) : Prop :=
  (s.signIn.accounts.map SnapSignIn.Account.username).Nodup

theorem usernamesDistinct_step (s : Session) (e : Event) (h : UsernamesDistinct s)
    (fresh : RegistersFreshName s e) : UsernamesDistinct (step s e) := by
  rw [UsernamesDistinct, signIn_step]
  cases happens : signInEvent s e with
  | none => exact h
  | some event => exact SnapSignIn.nodup_step h (fresh event happens)

/-- Two flows whose accounts registered one name belong to one account. -/
theorem same_account {s : Session} (distinct : UsernamesDistinct s) {n m : ℕ}
    {name account other : String} (own : ownName s n = some name)
    (own' : ownName s m = some name) (tapped : s.tappedBy[n]? = some account)
    (tapped' : s.tappedBy[m]? = some other) : other = account := by
  rw [ownName, tapped, Option.bind_some] at own
  rw [ownName, tapped', Option.bind_some] at own'
  exact SnapSignIn.registered_injective distinct own' own

theorem leavesOthersAlone_step {s : Session} (e : Event) (h : Attributed s)
    (distinct : UsernamesDistinct s) : LeavesOthersAlone s e (step s e) := by
  intro event happens n moved account tapped id m created other tapped' differ
  rw [snaps_step, show snapsEvent s e = some event from happens, Option.elim_some]
  cases SnapSystem.storeStep s.snaps event with
  | wrote w applies result =>
    obtain ⟨n', index, _, _, _, rfl, _, _, _⟩ := SnapSystem.applied_cases applies
    cases moved
    have own := ownWrite_of_next h applies
    rw [result]
    cases w with
    | setData id' urls =>
      have apart : id ≠ id' := by
        rintro rfl
        obtain ⟨_, name, mine, creators⟩ := own
        exact differ (same_account distinct mine (creators m created) tapped tapped')
      rw [Write.apply, Collection.get?_merge, if_neg apart]
    | addDocument urls owner =>
      have old := (h.issued id m created).ne
      rw [Write.apply, Collection.get?_add, if_neg old]
  | deleted id' quiet removes result =>
    cases event with
    | delete index ok => cases moved
    | _ => cases removes
  | kept quiet result => rw [result]

/-- If every flow finds its own account's name in the singleton and no user name
is registered twice, then no upload ever changes another account's documents. -/
theorem no_interference (mySnaps : Store) (clock : ℤ) (fields : ℕ → SnapSignIn.Fields)
    (es : List Event)
    (guarded : Always step (fun s e _ => HoldsOwnName s e ∧ RegistersFreshName s e)
      (start mySnaps clock fields) es) :
    Always step LeavesOthersAlone (start mySnaps clock fields) es := by
  let inv : Session → Prop := fun s => Attributed s ∧ UsernamesDistinct s
  have preserved : ∀ s e, inv s → HoldsOwnName s e ∧ RegistersFreshName s e → inv (step s e) := by
    rintro s e ⟨attributed, distinct⟩ ⟨holds, fresh⟩
    exact ⟨attributed_step s e attributed holds, usernamesDistinct_step s e distinct fresh⟩
  have supplied : ∀ s e, inv s → HoldsOwnName s e ∧ RegistersFreshName s e →
      LeavesOthersAlone s e (step s e) :=
    fun s e h _ => leavesOthersAlone_step e h.1 h.2
  exact always_of_invariant preserved supplied
    ⟨attributed_start mySnaps clock fields, List.nodup_nil⟩ guarded

theorem no_interference_of_two_names :
    Always step LeavesOthersAlone (start .empty 0 noFields)
      (join 0 "ada@mail" "ada" ++ wholeUpload 0 0 "a" ++ join 1 "eve@mail" "eve" ++
        wholeUpload 1 1 "b") :=
  no_interference .empty 0 noFields _ (by decide)

/-- Two accounts register one name: the upload of the second reaches the document
of the first. -/
theorem shared_name_interferes :
    ¬ ∀ (mySnaps : Store) (clock : ℤ) (fields : ℕ → SnapSignIn.Fields) (es : List Event),
      Always step (fun s e _ => HoldsOwnName s e) (start mySnaps clock fields) es →
      Always step LeavesOthersAlone (start mySnaps clock fields) es := by
  intro every
  have always := every .empty 0 noFields
    (join 0 "ada@mail" "ada" ++ wholeUpload 0 0 "a" ++ join 1 "eve@mail" "ada" ++
      [.uploadClicked 1 "b", .snaps (.query 1), .snaps (.answer 1)] ++
      [.snaps (.write 1 0 true)]) (by decide)
  have last := ((always_append step _ _ _).mp always).2.1
  have same := last (.write 1 0 true) rfl 1 rfl "eve@mail" rfl 0 0 rfl "ada@mail" rfl (by decide)
  have images := congrArg (fun d => d.bind fun fields => fields "imageURLArray") same
  revert images
  decide

end SnapIdentity
