import Mathlib.Data.List.Sort
import Mathlib.Logic.Function.Basic
import IosCourse.SnapUpload
import IosCourse.SnapFeed

/-!
# SnapchatClone as an interleaved system

Any number of devices share the collection `mySnaps`. An upload is a flow of
separate steps: its owner query is answered, the callback of the query requests
writes, and each write reaches the server on its own or fails. Snapshots travel
to the listeners of the feed and deletions travel back; all of these can be
overtaken by the steps of other devices. Queries and snapshots carry the documents
of the server, without the writes of the device itself that are still pending.
`UserSingleton` is one variable on each device, and a flow reads it when it reads
it, not when its button was tapped.
-/

namespace SnapSystem

open DocumentCollection SnapDocuments SnapUpload SnapFeed GuardedRuns

structure UserSingleton where
  email : String
  userName : String
  deriving DecidableEq

/-- The value that `UserSingleton.sharedUserInfo` is initialised to. -/
def UserSingleton.initial : UserSingleton := ⟨"", ""⟩

/-- How far a tap has come. `acknowledged` tells whether the write settled last
was applied. -/
inductive Stage where
  | uploading
  | answered (documents : List (ℕ × Doc))
  | writing (pending : List Write) (acknowledged : Bool)

/-- One tap on the upload button whose image has a download URL. `queryName` and
`buildName` record what the two reads of the singleton returned, the second one
only when a new document was built. -/
structure Flow where
  device : ℕ
  imageURL : String
  queryName : Option String
  buildName : Option String
  stage : Stage

/-- `createdBy` records the flow that added a document; a snapshot and a deletion
under way carry the device that they go to or come from. -/
structure System where
  mySnaps : Store
  clock : ℤ
  sharedUserInfo : ℕ → UserSingleton
  flows : List Flow
  createdBy : ℕ → Option ℕ
  snapshots : List (ℕ × List (ℕ × Doc))
  feeds : ℕ → FeedVC
  deletes : List (ℕ × ℕ)

inductive Event where
  | advance (elapsed : ℕ)
  | storeUser (device : ℕ) (user : UserSingleton)
  | tap (device : ℕ) (imageURL : String)
  | query (flow : ℕ)
  | answer (flow : ℕ)
  | write (flow index : ℕ) (ok : Bool)
  | emit (device : ℕ)
  | callback (index : ℕ) (now : ℕ → ℤ)
  | listenerError (device : ℕ) (message : String)
  | delete (index : ℕ) (error : Option String)

namespace Flow

/-- The owner query, issued and answered under the name found in the singleton. -/
def query (s : System) (f : Flow) : Flow :=
  match f.stage with
  | .uploading =>
    let name := (s.sharedUserInfo f.device).userName
    { f with queryName := some name, stage := .answered (ownedBy s.mySnaps name) }
  | _ => f

/-- The callback of the query, which reads the singleton again. -/
def answer (s : System) (f : Flow) : Flow :=
  match f.stage with
  | .answered documents =>
    let name := (s.sharedUserInfo f.device).userName
    { f with
      buildName := if documents.isEmpty then some name else none
      stage := .writing (requestedWrites f.imageURL name documents) false }
  | _ => f

def pendingWrite (index : ℕ) (f : Flow) : Option Write :=
  match f.stage with
  | .writing pending _ => pending[index]?
  | _ => none

def settle (index : ℕ) (ok : Bool) (f : Flow) : Flow :=
  match f.stage with
  | .writing pending _ => { f with stage := .writing (pending.eraseIdx index) ok }
  | _ => f

/-- The name whose documents hold the image: the owner of the new document, or
else the name that was queried. -/
def owner (f : Flow) : Option String := f.buildName.or f.queryName

end Flow

/-- The listener's query: documents that have a date, the latest first. -/
def orderByDate (snaps : Store) : List (ℕ × Doc) :=
  (snaps.query fun d => (d "date").isSome).insertionSort fun a b =>
    (date b.2).getD 0 ≤ (date a.2).getD 0

def nextWrite (s : System) (flow index : ℕ) : Option Write :=
  s.flows[flow]?.bind (Flow.pendingWrite index)

/-- Only a new document has a creator. -/
def recordCreator (s : System) (flow : ℕ) : Write → ℕ → Option ℕ
  | .setData _ _ => s.createdBy
  | .addDocument _ _ => Function.update s.createdBy s.mySnaps.nextId (some flow)

def step (s : System) : Event → System
  | .advance elapsed => { s with clock := s.clock + elapsed }
  | .storeUser device user =>
    { s with sharedUserInfo := Function.update s.sharedUserInfo device user }
  | .tap device imageURL =>
    { s with flows := s.flows ++ [⟨device, imageURL, none, none, .uploading⟩] }
  | .query flow => { s with flows := s.flows.modify flow (Flow.query s) }
  | .answer flow => { s with flows := s.flows.modify flow (Flow.answer s) }
  | .write flow index ok =>
    match nextWrite s flow index with
    | none => s
    | some w =>
      { s with
        flows := s.flows.modify flow (Flow.settle index ok)
        mySnaps := if ok then w.apply s.clock s.mySnaps else s.mySnaps
        createdBy := if ok then recordCreator s flow w else s.createdBy }
  | .emit device => { s with snapshots := s.snapshots ++ [(device, orderByDate s.mySnaps)] }
  | .callback index now =>
    match s.snapshots[index]? with
    | none => s
    | some (device, documents) =>
      let result := getSnapsFromFirebase none documents now (s.feeds device)
      { s with
        snapshots := s.snapshots.eraseIdx index
        feeds := Function.update s.feeds device result.1
        deletes := s.deletes ++ result.2.map fun id => (device, id) }
  | .listenerError device message =>
    let result := getSnapsFromFirebase (some message) [] (fun _ => 0) (s.feeds device)
    { s with feeds := Function.update s.feeds device result.1 }
  | .delete index error =>
    match s.deletes[index]? with
    | none => s
    | some (device, id) =>
      let s := { s with deletes := s.deletes.eraseIdx index }
      match error with
      | some message =>
        let alerted := (s.feeds device).makeAlert "Error" message
        { s with feeds := Function.update s.feeds device alerted }
      | none => { s with mySnaps := s.mySnaps.delete id }

/-- No flow, snapshot or deletion is under way. -/
def start (mySnaps : Store) (clock : ℤ) (users : ℕ → UserSingleton) : System where
  mySnaps := mySnaps
  clock := clock
  sharedUserInfo := users
  flows := []
  createdBy := fun _ => none
  snapshots := []
  feeds := fun _ => FeedVC.loaded
  deletes := []

/-- A settled write changes its flow and the collection. -/
structure WriteFrame (s t : System) : Prop where
  clock : t.clock = s.clock
  sharedUserInfo : t.sharedUserInfo = s.sharedUserInfo
  snapshots : t.snapshots = s.snapshots
  deletes : t.deletes = s.deletes
  feeds : t.feeds = s.feeds

theorem write_frame (s : System) (flow index : ℕ) (ok : Bool) :
    WriteFrame s (step s (.write flow index ok)) := by
  simp only [step]
  split <;> exact ⟨rfl, rfl, rfl, rfl, rfl⟩

/-- A callback of the listener changes its feed and the messages under way. -/
structure CallbackFrame (s t : System) : Prop where
  mySnaps : t.mySnaps = s.mySnaps
  clock : t.clock = s.clock
  sharedUserInfo : t.sharedUserInfo = s.sharedUserInfo
  flows : t.flows = s.flows
  createdBy : t.createdBy = s.createdBy

theorem callback_frame (s : System) (index : ℕ) (now : ℕ → ℤ) :
    CallbackFrame s (step s (.callback index now)) := by
  simp only [step]
  split <;> exact ⟨rfl, rfl, rfl, rfl, rfl⟩

/-- An answered deletion changes the collection, or the alerts of a feed. -/
structure DeleteFrame (s t : System) : Prop where
  clock : t.clock = s.clock
  sharedUserInfo : t.sharedUserInfo = s.sharedUserInfo
  flows : t.flows = s.flows
  createdBy : t.createdBy = s.createdBy
  snapshots : t.snapshots = s.snapshots

theorem delete_frame (s : System) (index : ℕ) (error : Option String) :
    DeleteFrame s (step s (.delete index error)) := by
  simp only [step]
  split
  · exact ⟨rfl, rfl, rfl, rfl, rfl⟩
  · split <;> exact ⟨rfl, rfl, rfl, rfl, rfl⟩

/-- The write that the server applies in this step. -/
def applied (s : System) : Event → Option Write
  | .write flow index true => nextWrite s flow index
  | _ => none

/-- The identifier that the server deletes in this step. -/
def removed (s : System) : Event → Option ℕ
  | .delete index none => (s.deletes[index]?).map Prod.snd
  | _ => none

theorem mySnaps_of_applied {s : System} {e : Event} {w : Write} (h : applied s e = some w) :
    (step s e).mySnaps = w.apply s.clock s.mySnaps := by
  cases e with
  | write flow index ok =>
    cases ok with
    | false => cases h
    | true =>
      have hw : nextWrite s flow index = some w := h
      simp [step, hw]
  | _ => cases h

theorem mySnaps_of_removed {s : System} {e : Event} {id : ℕ} (h : removed s e = some id) :
    (step s e).mySnaps = s.mySnaps.delete id := by
  cases e with
  | delete index error =>
    cases error with
    | some message => cases h
    | none =>
      obtain ⟨⟨device, id'⟩, hid, rfl⟩ := Option.map_eq_some_iff.mp h
      simp [step, hid]
  | _ => cases h

/-- A step that applies no write and no deletion leaves the collection alone. -/
theorem mySnaps_unchanged {s : System} {e : Event} (quiet : applied s e = none)
    (kept : removed s e = none) : (step s e).mySnaps = s.mySnaps := by
  cases e with
  | write flow index ok =>
    cases hw : nextWrite s flow index with
    | none => simp [step, hw]
    | some w =>
      cases ok with
      | false => simp [step, hw]
      | true => rw [applied, hw] at quiet; cases quiet
  | delete index error =>
    cases hid : s.deletes[index]? with
    | none => simp [step, hid]
    | some message =>
      cases error with
      | some text => simp [step, hid]
      | none => rw [removed, hid] at kept; cases kept
  | callback index now => exact (callback_frame s index now).mySnaps
  | _ => rfl

/-- The three things that a step can do to the collection. -/
inductive StoreStep (s : System) (e : Event) : Prop where
  | wrote (w : Write) (applies : applied s e = some w)
      (result : (step s e).mySnaps = w.apply s.clock s.mySnaps)
  | deleted (id : ℕ) (quiet : applied s e = none) (removes : removed s e = some id)
      (result : (step s e).mySnaps = s.mySnaps.delete id)
  | kept (quiet : applied s e = none) (result : (step s e).mySnaps = s.mySnaps)

theorem storeStep (s : System) (e : Event) : StoreStep s e := by
  cases hw : applied s e with
  | some w => exact .wrote w hw (mySnaps_of_applied hw)
  | none =>
    cases hid : removed s e with
    | some id => exact .deleted id hw hid (mySnaps_of_removed hid)
    | none => exact .kept hw (mySnaps_unchanged hw hid)

/-- How flow `m` can look after a step, in terms of how it looked before. -/
inductive FlowStep (s : System) (e : Event) (m : ℕ) (f' : Flow) : Prop where
  | same (before : s.flows[m]? = some f')
  | tapped (device : ℕ) (imageURL : String) (event : e = .tap device imageURL)
      (index : m = s.flows.length) (result : f' = ⟨device, imageURL, none, none, .uploading⟩)
  | queried (f : Flow) (before : s.flows[m]? = some f) (event : e = .query m)
      (stage : f.stage = .uploading)
      (result : f' = { f with
        queryName := some (s.sharedUserInfo f.device).userName
        stage := .answered (ownedBy s.mySnaps (s.sharedUserInfo f.device).userName) })
  | answered (f : Flow) (before : s.flows[m]? = some f) (event : e = .answer m)
      (documents : List (ℕ × Doc)) (stage : f.stage = .answered documents)
      (result : f' = { f with
        buildName :=
          if documents.isEmpty then some (s.sharedUserInfo f.device).userName else none
        stage := .writing
          (requestedWrites f.imageURL (s.sharedUserInfo f.device).userName documents) false })
  | settled (f : Flow) (before : s.flows[m]? = some f) (index : ℕ) (ok : Bool)
      (event : e = .write m index ok) (pending : List Write) (acknowledged : Bool)
      (stage : f.stage = .writing pending acknowledged) (w : Write)
      (write : pending[index]? = some w)
      (result : f' = { f with stage := .writing (pending.eraseIdx index) ok })

theorem getElem?_modify_cases {α : Type*} {l : List α} {n m : ℕ} {g : α → α} {a : α}
    (h : (l.modify n g)[m]? = some a) :
    (n ≠ m ∧ l[m]? = some a) ∨ (n = m ∧ ∃ b, l[m]? = some b ∧ a = g b) := by
  rw [List.getElem?_modify] at h
  by_cases same : n = m
  · obtain ⟨b, hb, rfl⟩ := Option.map_eq_some_iff.mp h
    exact Or.inr ⟨same, b, hb, by simp [same]⟩
  · exact Or.inl ⟨same, by simpa [same] using h⟩

theorem flowStep {s : System} {e : Event} {m : ℕ} {f' : Flow}
    (h : (step s e).flows[m]? = some f') : FlowStep s e m f' := by
  cases e with
  | tap device imageURL =>
    simp only [step, List.getElem?_append] at h
    split at h
    · exact .same h
    · rw [List.getElem?_singleton] at h
      split at h
      · exact .tapped device imageURL rfl (by omega) (Option.some.inj h).symm
      · cases h
  | query flow =>
    rcases getElem?_modify_cases h with ⟨_, before⟩ | ⟨rfl, f, before, result⟩
    · exact .same before
    · cases stage : f.stage with
      | uploading =>
        exact .queried f before rfl stage (by rw [result, Flow.query, stage])
      | answered documents =>
        exact .same (by rw [before, result, Flow.query, stage])
      | writing pending acknowledged =>
        exact .same (by rw [before, result, Flow.query, stage])
  | answer flow =>
    rcases getElem?_modify_cases h with ⟨_, before⟩ | ⟨rfl, f, before, result⟩
    · exact .same before
    · cases stage : f.stage with
      | uploading => exact .same (by rw [before, result, Flow.answer, stage])
      | answered documents =>
        exact .answered f before rfl documents stage (by rw [result, Flow.answer, stage])
      | writing pending acknowledged =>
        exact .same (by rw [before, result, Flow.answer, stage])
  | write flow index ok =>
    cases hw : nextWrite s flow index with
    | none =>
      simp only [step, hw] at h
      exact .same h
    | some w =>
      simp only [step, hw] at h
      rcases getElem?_modify_cases h with ⟨_, before⟩ | ⟨rfl, f, before, result⟩
      · exact .same before
      · rw [nextWrite, before, Option.bind_some, Flow.pendingWrite] at hw
        cases stage : f.stage with
        | uploading => rw [stage] at hw; cases hw
        | answered documents => rw [stage] at hw; cases hw
        | writing pending acknowledged =>
          rw [stage] at hw
          exact .settled f before index ok rfl pending acknowledged stage w hw
            (by rw [result, Flow.settle, stage])
  | callback index now => exact .same ((callback_frame s index now).flows ▸ h)
  | delete index error => exact .same ((delete_frame s index error).flows ▸ h)
  | _ => exact .same h

/-- A write that is applied is requested by some flow in its last stage. -/
theorem applied_cases {s : System} {e : Event} {w : Write} (h : applied s e = some w) :
    ∃ n index f pending acknowledged, e = .write n index true ∧ s.flows[n]? = some f ∧
      f.stage = .writing pending acknowledged ∧ pending[index]? = some w := by
  cases e with
  | write n index ok =>
    cases ok with
    | false => cases h
    | true =>
      obtain ⟨f, hf, hw⟩ := Option.bind_eq_some_iff.mp (show nextWrite s n index = some w from h)
      cases stage : f.stage with
      | uploading => rw [Flow.pendingWrite, stage] at hw; cases hw
      | answered documents => rw [Flow.pendingWrite, stage] at hw; cases hw
      | writing pending acknowledged =>
        rw [Flow.pendingWrite, stage] at hw
        exact ⟨n, index, f, pending, acknowledged, rfl, hf, stage, hw⟩
  | _ => cases h

/-- A flow that looks the same after a step has not had a write applied in it. -/
theorem unmoved_of_same {s : System} {m index : ℕ} {f : Flow} (before : s.flows[m]? = some f)
    (same : (step s (.write m index true)).flows[m]? = some f) :
    applied s (.write m index true) = none := by
  cases next : nextWrite s m index with
  | none => exact next
  | some w =>
    have settled : f.settle index true = f := by simpa [step, next, before] using same
    rw [nextWrite, before, Option.bind_some, Flow.pendingWrite] at next
    cases stage : f.stage with
    | uploading => rw [stage] at next; cases next
    | answered documents => rw [stage] at next; cases next
    | writing pending acknowledged =>
      rw [stage] at next
      have inside := (List.getElem?_eq_some_iff.mp next).1
      have shorter : pending.eraseIdx index = pending := by
        have stages := congrArg Flow.stage settled
        rw [Flow.settle, stage] at stages
        exact (Stage.writing.inj stages).1
      have length := List.length_eraseIdx_of_lt inside
      rw [shorter] at length
      omega

theorem mem_orderByDate {snaps : Store} {id : ℕ} {d : Doc} :
    (id, d) ∈ orderByDate snaps ↔ snaps.get? id = some d ∧ (d "date").isSome := by
  rw [orderByDate, List.mem_insertionSort, Collection.mem_query]

theorem clock_le_step (s : System) (e : Event) : s.clock ≤ (step s e).clock := by
  cases e with
  | advance elapsed => simp [step]
  | write flow index ok => exact (write_frame s flow index ok).clock.ge
  | callback index now => exact (callback_frame s index now).clock.ge
  | delete index error => exact (delete_frame s index error).clock.ge
  | _ => rfl

theorem snapshots_step {s : System} {e : Event} {message : ℕ × List (ℕ × Doc)}
    (h : message ∈ (step s e).snapshots) :
    message ∈ s.snapshots ∨
      (e = .emit message.1 ∧ message.2 = orderByDate s.mySnaps) := by
  cases e with
  | emit device =>
    rcases List.mem_append.mp h with h | h
    · exact Or.inl h
    · obtain rfl := List.mem_singleton.mp h
      exact Or.inr ⟨rfl, rfl⟩
  | write flow index ok => exact Or.inl ((write_frame s flow index ok).snapshots ▸ h)
  | callback index now =>
    simp only [step] at h
    split at h
    · exact Or.inl h
    · exact Or.inl (List.mem_of_mem_eraseIdx h)
  | delete index error => exact Or.inl ((delete_frame s index error).snapshots ▸ h)
  | _ => exact Or.inl h

theorem deletes_step {s : System} {e : Event} {device id : ℕ}
    (h : (device, id) ∈ (step s e).deletes) :
    (device, id) ∈ s.deletes ∨ ∃ index now documents, e = .callback index now ∧
      s.snapshots[index]? = some (device, documents) ∧
      id ∈ (getSnapsFromFirebase none documents now (s.feeds device)).2 := by
  cases e with
  | write flow index ok => exact Or.inl ((write_frame s flow index ok).deletes ▸ h)
  | callback index now =>
    simp only [step] at h
    split at h
    · exact Or.inl h
    · rename_i listener documents present
      rcases List.mem_append.mp h with h | h
      · exact Or.inl h
      · obtain ⟨_, issued, same⟩ := List.mem_map.mp h
        cases same
        exact Or.inr ⟨index, now, documents, rfl, present, issued⟩
  | delete index error =>
    simp only [step] at h
    split at h
    · exact Or.inl h
    · split at h <;> exact Or.inl (List.mem_of_mem_eraseIdx h)
  | _ => exact Or.inl h

theorem createdBy_unchanged {s : System} {e : Event} (quiet : applied s e = none) :
    (step s e).createdBy = s.createdBy := by
  cases e with
  | write flow index ok =>
    cases hw : nextWrite s flow index with
    | none => simp [step, hw]
    | some w =>
      cases ok with
      | false => simp [step, hw]
      | true => rw [applied, hw] at quiet; cases quiet
  | callback index now => exact (callback_frame s index now).createdBy
  | delete index error => exact (delete_frame s index error).createdBy
  | _ => rfl

/-- A document gets its owner and its creator when it is added, and no other step
gives an owner to a document or changes a creator. -/
inductive OwnerStep (s : System) (e : Event) : Prop where
  | added (n index : ℕ) (urls : List String) (owner : String)
      (event : e = .write n index true)
      (next : nextWrite s n index = some (.addDocument urls owner))
      (creators : (step s e).createdBy = Function.update s.createdBy s.mySnaps.nextId (some n))
      (store : (step s e).mySnaps = s.mySnaps.add (snapDictionary urls owner s.clock))
  | kept (creators : (step s e).createdBy = s.createdBy)
      (issued : s.mySnaps.nextId ≤ (step s e).mySnaps.nextId)
      (owners : ∀ id name, (step s e).mySnaps.field id "snapOwner" = some (.string name) →
        s.mySnaps.field id "snapOwner" = some (.string name))

theorem ownerStep (s : System) (e : Event) : OwnerStep s e := by
  cases storeStep s e with
  | wrote w applies result =>
    obtain ⟨n, index, _, _, _, rfl, _, _, _⟩ := applied_cases applies
    have next : nextWrite s n index = some w := applies
    cases w with
    | setData id urls =>
      refine .kept ?_ ?_ ?_
      · simp [step, next, recordCreator]
      · rw [result]
        exact le_max_left _ _
      · intro i name owner
        rwa [result, Write.apply, field_merge_additional _ _ _ _ (by decide)] at owner
    | addDocument urls owner =>
      exact .added n index urls owner rfl next (by simp [step, next, recordCreator]) result
  | deleted id quiet removes result =>
    refine .kept (createdBy_unchanged quiet) (by rw [result, Collection.nextId_delete]) ?_
    intro i name owner
    rw [result, Collection.field_delete, Option.ite_none_left_eq_some] at owner
    exact owner.2
  | kept quiet result =>
    refine .kept (createdBy_unchanged quiet) (by rw [result]) ?_
    intro i name owner
    rwa [result] at owner

theorem nextId_le_step (s : System) (e : Event) :
    s.mySnaps.nextId ≤ (step s e).mySnaps.nextId := by
  cases ownerStep s e with
  | added n index urls owner event next creators store =>
    rw [store, Collection.nextId_add]
    omega
  | kept creators issued owners => exact issued

theorem createdBy_step {s : System} {id : ℕ} (issued : id < s.mySnaps.nextId) (e : Event) :
    (step s e).createdBy id = s.createdBy id := by
  cases ownerStep s e with
  | added n index urls owner event next creators store =>
    rw [creators, Function.update_of_ne issued.ne]
  | kept creators _ owners => rw [creators]

/-- Only the completion of a user lookup writes to a singleton. -/
theorem sharedUserInfo_step {s : System} {e : Event}
    (other : ∀ device user, e ≠ .storeUser device user) :
    (step s e).sharedUserInfo = s.sharedUserInfo := by
  cases e with
  | storeUser device user => exact absurd rfl (other device user)
  | write flow index ok => exact (write_frame s flow index ok).sharedUserInfo
  | callback index now => exact (callback_frame s index now).sharedUserInfo
  | delete index error => exact (delete_frame s index error).sharedUserInfo
  | _ => rfl

theorem length_flows_step {s : System} {e : Event} (other : ∀ device url, e ≠ .tap device url) :
    (step s e).flows.length = s.flows.length := by
  cases e with
  | tap device url => exact absurd rfl (other device url)
  | query flow => simp [step]
  | answer flow => simp [step]
  | write flow index ok => simp only [step]; split <;> simp
  | callback index now => rw [(callback_frame s index now).flows]
  | delete index error => rw [(delete_frame s index error).flows]
  | _ => rfl

/-- The flow that reads the user name from the singleton in this step. The second
read is made only for a new document. -/
def reader (s : System) : Event → Option (ℕ × Flow)
  | .query n =>
    (s.flows[n]?).bind fun f =>
      match f.stage with
      | .uploading => some (n, f)
      | _ => none
  | .answer n =>
    (s.flows[n]?).bind fun f =>
      match f.stage with
      | .answered [] => some (n, f)
      | _ => none
  | _ => none

theorem reader_query {s : System} {n : ℕ} {f : Flow} (h : s.flows[n]? = some f)
    (stage : f.stage = .uploading) : reader s (.query n) = some (n, f) := by
  simp [reader, h, stage]

theorem reader_answer {s : System} {n : ℕ} {f : Flow} (h : s.flows[n]? = some f)
    (stage : f.stage = .answered []) : reader s (.answer n) = some (n, f) := by
  simp [reader, h, stage]

/-- The server accepts this write of a tap. -/
def accepts (outcomes : Outcomes) : Write → Bool
  | .setData documentID _ => (outcomes.setData documentID).isNone
  | .addDocument _ _ => outcomes.addDocument.isNone

theorem finishWrite_snaps (outcomes : Outcomes) (stamp : ℤ) (tap : Tap) (w : Write) :
    (finishWrite outcomes stamp tap w).snaps =
      if accepts outcomes w then w.apply stamp tap.snaps else tap.snaps := by
  cases w with
  | setData id urls => cases h : outcomes.setData id <;> simp [finishWrite, accepts, h]
  | addDocument urls owner => cases h : outcomes.addDocument <;> simp [finishWrite, accepts, h]

/-- What the remaining writes of flow `n` leave behind when they are settled one by one. -/
structure Settled (s t : System) (n : ℕ) (snaps : Store) : Prop where
  mySnaps : t.mySnaps = snaps
  finished : ∃ f acknowledged, t.flows[n]? = some f ∧ f.stage = .writing [] acknowledged
  others : ∀ m, m ≠ n → t.flows[m]? = s.flows[m]?

/-- Settling the pending writes of a flow one by one is the loop of the handler. -/
theorem uninterrupted_writes (outcomes : Outcomes) (n : ℕ) (pending : List Write) {s : System}
    {f : Flow} {acknowledged : Bool} (flow : s.flows[n]? = some f)
    (stage : f.stage = .writing pending acknowledged) {tap : Tap} (same : tap.snaps = s.mySnaps) :
    Settled s (run step s (pending.map fun w => .write n 0 (accepts outcomes w))) n
      (pending.foldl (finishWrite outcomes s.clock) tap).snaps := by
  induction pending generalizing s f acknowledged tap with
  | nil => exact ⟨same.symm, ⟨f, acknowledged, flow, stage⟩, fun _ _ => rfl⟩
  | cons w rest ih =>
    have next : nextWrite s n 0 = some w := by simp [nextWrite, flow, Flow.pendingWrite, stage]
    let t := step s (.write n 0 (accepts outcomes w))
    have settled : t.flows[n]? = some (f.settle 0 (accepts outcomes w)) := by
      simp [t, step, next, flow]
    have remaining : (f.settle 0 (accepts outcomes w)).stage =
        .writing rest (accepts outcomes w) := by
      simp [Flow.settle, stage]
    have clock : t.clock = s.clock := by simp [t, step, next]
    have stored : (finishWrite outcomes s.clock tap w).snaps = t.mySnaps := by
      simp [t, step, next, finishWrite_snaps, same]
    have elsewhere : ∀ m, m ≠ n → t.flows[m]? = s.flows[m]? := by
      intro m other
      simp [t, step, next, other.symm]
    obtain ⟨mySnaps, finished, others⟩ := ih settled remaining stored
    rw [clock] at mySnaps
    exact ⟨mySnaps, finished, fun m other => (others m other).trans (elsewhere m other)⟩

/-- The download URL of the image, if its upload comes that far. -/
def uploadedURL (outcomes : Outcomes) : Option String :=
  if outcomes.jpegData ∧ outcomes.putData = none then outcomes.downloadURL.toOption else none

theorem uploadClicked_snaps (outcomes : Outcomes) (queryName buildName : String) (stamp : ℤ)
    (snaps : Store) : (uploadClicked outcomes queryName buildName stamp snaps).snaps =
      (uploadedURL outcomes).elim snaps fun imageURL =>
        if outcomes.getDocuments = none then
          ((requestedWrites imageURL buildName (ownedBy snaps queryName)).foldl
            (finishWrite outcomes stamp) ⟨snaps, []⟩).snaps
        else snaps := by
  cases image : outcomes.jpegData with
  | false => simp [uploadClicked, uploadedURL, image]
  | true =>
    cases put : outcomes.putData with
    | some error => simp [uploadClicked, uploadedURL, image, put]
    | none =>
      cases url : outcomes.downloadURL with
      | error message => simp [uploadClicked, uploadedURL, image, put, url, Except.toOption]
      | ok imageURL =>
        cases get : outcomes.getDocuments <;>
          simp [uploadClicked, uploadedURL, image, put, url, get, Except.toOption]

/-- The steps of a tap that nothing interrupts, with these outcomes of its requests. A tap
whose image gets no URL is no flow, and a failed query leaves its flow as it is. -/
def uninterrupted (outcomes : Outcomes) (s : System) (device : ℕ) : List Event :=
  (uploadedURL outcomes).elim [] fun imageURL =>
    let name := (s.sharedUserInfo device).userName
    let n := s.flows.length
    .tap device imageURL ::
      if outcomes.getDocuments = none then
        .query n :: .answer n :: (requestedWrites imageURL name (ownedBy s.mySnaps name)).map
          fun w => .write n 0 (accepts outcomes w)
      else []

theorem flows_tap (s : System) (device : ℕ) (imageURL : String) {m : ℕ}
    (other : m ≠ s.flows.length) : (step s (.tap device imageURL)).flows[m]? = s.flows[m]? := by
  rw [step, List.getElem?_append]
  split
  · rfl
  · rename_i beyond
    have absent : m - s.flows.length ≠ 0 := by omega
    simp [absent, List.getElem?_eq_none (Nat.not_lt.mp beyond)]

/-- The flow of a fresh tap that is queried and answered at once, and then settled. -/
theorem settled_tap (outcomes : Outcomes) (s : System) (device : ℕ) (imageURL : String) :
    let name := (s.sharedUserInfo device).userName
    let n := s.flows.length
    let writes := requestedWrites imageURL name (ownedBy s.mySnaps name)
    Settled s (run step s (.tap device imageURL :: .query n :: .answer n ::
        writes.map fun w => .write n 0 (accepts outcomes w))) n
      (writes.foldl (finishWrite outcomes s.clock) ⟨s.mySnaps, []⟩).snaps := by
  intro name n writes
  let t := run step s [.tap device imageURL, .query n, .answer n]
  have flow : t.flows[n]? = some ⟨device, imageURL, some name,
      if (ownedBy s.mySnaps name).isEmpty then some name else none, .writing writes false⟩ := by
    simp [t, step, n, name, writes, Flow.query, Flow.answer]
  have others : ∀ m, m ≠ n → t.flows[m]? = s.flows[m]? := by
    intro m other
    have unqueried : t.flows[m]? = (step s (.tap device imageURL)).flows[m]? := by
      simp [t, step, other.symm]
    rw [unqueried, flows_tap s device imageURL other]
  have loop := uninterrupted_writes outcomes n writes flow rfl
    (show (⟨s.mySnaps, []⟩ : Tap).snaps = t.mySnaps from rfl)
  exact ⟨loop.mySnaps, loop.finished, fun m other => (loop.others m other).trans (others m other)⟩

/-- For all outcomes of its requests, a tap whose steps follow each other without
interruption does to the collection what the handler does when it is run from start to
end. It leaves the flows of all other taps alone and no write of its own behind. -/
theorem uninterrupted_tap (outcomes : Outcomes) (s : System) (device : ℕ) :
    let name := (s.sharedUserInfo device).userName
    let t := run step s (uninterrupted outcomes s device)
    t.mySnaps = (uploadClicked outcomes name name s.clock s.mySnaps).snaps ∧
      (∀ m, m ≠ s.flows.length → t.flows[m]? = s.flows[m]?) ∧
      ∀ f, t.flows[s.flows.length]? = some f → ∀ index, f.pendingWrite index = none := by
  intro name t
  rw [uploadClicked_snaps]
  cases url : uploadedURL outcomes with
  | none =>
    have idle : t = s := by simp [t, uninterrupted, url]
    rw [idle]
    exact ⟨rfl, fun _ _ => rfl, fun f present => by simp at present⟩
  | some imageURL =>
    rw [Option.elim_some]
    by_cases get : outcomes.getDocuments = none
    · have settled := settled_tap outcomes s device imageURL
      have steps : t = run step s (.tap device imageURL :: .query s.flows.length ::
          .answer s.flows.length :: (requestedWrites imageURL name
            (ownedBy s.mySnaps name)).map fun w =>
              .write s.flows.length 0 (accepts outcomes w)) := by
        simp [t, uninterrupted, url, get, name]
      rw [steps, if_pos get]
      refine ⟨settled.mySnaps, settled.others, fun f present index => ?_⟩
      obtain ⟨f', acknowledged, last, stage⟩ := settled.finished
      obtain rfl := Option.some.inj (last.symm.trans present)
      simp [Flow.pendingWrite, stage]
    · have steps : t = step s (.tap device imageURL) := by simp [t, uninterrupted, url, get]
      rw [steps, if_neg get]
      refine ⟨rfl, fun m other => flows_tap s device imageURL other, fun f present index => ?_⟩
      have fresh : f = ⟨device, imageURL, none, none, .uploading⟩ := by
        simpa [step] using present.symm
      simp [fresh, Flow.pendingWrite]

end SnapSystem
