import IosCourse.ArtBook

/-!
# What a failed save of ArtBookProject leaves behind

A save that fails validation is only printed: its object stays among the pending
insertions of the shared context, where every later save validates it again. As
long as it is there, neither a new painting nor a deletion reaches the store.
-/

namespace ArtBookSaves

open GuardedRuns ManagedContext ArtBook ArtBook.App

/-- The text is no number, or one that fits the attribute `year`. -/
def AcceptableYear (text : String) : Prop :=
  ∀ year ∈ SwiftInt.ofString text, SwiftInt.Fits 16 year

instance (text : String) : Decidable (AcceptableYear text) :=
  inferInstanceAs (Decidable (∀ year ∈ SwiftInt.ofString text, _))

def Persisted (s : App) (id : UUID) : Prop := ∃ painting ∈ s.context.store, painting.id = some id

instance (s : App) (id : UUID) : Decidable (Persisted s id) :=
  inferInstanceAs (Decidable (∃ painting ∈ s.context.store, _))

/-- The painting that a tap on the save button saves with an acceptable year. -/
def savedPainting (s : App) : Event → Option Paintings
  | .SaveButtonClicled _ _ =>
    (s.savingScreen.filter fun screen => AcceptableYear screen.YearText).map fun screen =>
      screen.newPainting s.nextUUID
  | _ => none

/-- The identifier of the persisted painting that is deleted in this step. -/
def deletedID (s : App) : Event → Option UUID
  | .commitDelete row _ _ =>
    if row < s.list.rows then (s.list.idArray[row]?).filter fun id => Persisted s id else none
  | _ => none

/-- The painting is in the store after its save, or gone from it after its deletion. -/
def ReachesStore (s : App) (e : Event) (t : App) : Prop :=
  (∀ painting ∈ savedPainting s e, painting ∈ t.context.store) ∧
    ∀ id ∈ deletedID s e, ¬ Persisted t id

instance (s : App) (e : Event) (t : App) : Decidable (ReachesStore s e t) :=
  inferInstanceAs (Decidable ((∀ painting ∈ savedPainting s e, _) ∧ ∀ id ∈ deletedID s e, _))

/-- No object with an invalid year is left over from an earlier save. -/
def NoneLeftInvalid (s : App) (e : Event) : Prop :=
  (savedPainting s e).isSome ∨ (deletedID s e).isSome → s.context.inserted.all Paintings.valid

instance (s : App) (e : Event) : Decidable (NoneLeftInvalid s e) :=
  inferInstanceAs (Decidable (_ → _))

/-- The save of this step does not fail for any reason but validation. -/
def NoStoreError : Event → Prop
  | .SaveButtonClicled error _ | .commitDelete _ _ error => error = false
  | _ => True

instance : (e : Event) → Decidable (NoStoreError e)
  | .SaveButtonClicled error _ | .commitDelete _ _ error =>
    inferInstanceAs (Decidable (error = false))
  | .launch _ | .viewDidLoad _ | .viewWillAppear | .cellForRowAt _ | .didSelectRowAt _ _
  | .addButtonClicked _ | .edit _ _ _ | .imagePicked _ | .back => .isTrue trivial

theorem newPainting_valid {id : UUID} {screen : DetailsVC}
    (h : AcceptableYear screen.YearText) : (screen.newPainting id).valid = true := by
  unfold DetailsVC.newPainting
  cases year : SwiftInt.ofString screen.YearText with
  | none => rfl
  | some n => simpa [Paintings.valid] using h n year

theorem newPainting_notMem {s : App} (h : Sound s) (screen : DetailsVC) :
    screen.newPainting s.nextUUID ∉ s.context.all := by
  intro mem
  exact h.titled.fresh rfl (List.mem_map_of_mem mem)

/-- One save with an acceptable year. -/
theorem saved_reaches_iff {s : App} (h : Sound s) {error : Bool}
    {orders : ℕ → FetchOrder Paintings} {painting : Paintings}
    (saves : savedPainting s (.SaveButtonClicled error orders) = some painting) :
    painting ∈ (step s (.SaveButtonClicled error orders)).context.store ↔
      error = false ∧ s.context.inserted.all Paintings.valid := by
  obtain ⟨screen, saving, rfl⟩ := Option.map_eq_some_iff.mp saves
  obtain ⟨opened, acceptable⟩ := Option.filter_eq_some_iff.mp saving
  rw [← Context.mem_store_insert_save_iff (newPainting_notMem h screen)
    (newPainting_valid (by simpa using acceptable))]
  simp [step, h.running, perform, saveButtonClicled, opened]

/-- One deletion of a persisted painting. -/
theorem deleted_reaches_iff {s : App} (h : Sound s) {row : ℕ} {order : FetchOrder Paintings}
    {error : Bool} {id : UUID} (deletes : deletedID s (.commitDelete row order error) = some id) :
    ¬ Persisted (step s (.commitDelete row order error)) id ↔
      error = false ∧ s.context.inserted.all Paintings.valid := by
  obtain ⟨asked, found⟩ := Option.ite_none_right_eq_some.mp deletes
  obtain ⟨shown, persisted⟩ := Option.filter_eq_some_iff.mp found
  obtain ⟨stored, inStore, same⟩ : Persisted s id := by simpa using persisted
  obtain ⟨painting, mem, _, id', _, hid, _, behind⟩ := h.shows.record_of_row asked
  obtain rfl : id' = id := Option.some.inj (hid.symm.trans shown)
  obtain rfl : stored = painting := h.titled.distinct.eq_of_key
    (Context.mem_all_of_mem_store inStore) (Context.mem_all_of_mem_objects mem)
    (same.trans behind.symm)
  rw [← h.titled.distinct.deleted_iff mem inStore, behind]
  have removes := commitDelete_eq h asked mem (behind.trans hid.symm) order error
  simp [step, h.running, perform, asked, removes, Persisted]

theorem reachesStore_iff (s : App) (e : Event) (h : Sound s) (noError : NoStoreError e) :
    ReachesStore s e (step s e) ↔ NoneLeftInvalid s e := by
  cases e with
  | SaveButtonClicled error orders =>
    obtain rfl : error = false := noError
    cases saves : savedPainting s (.SaveButtonClicled false orders) with
    | none => simp [ReachesStore, NoneLeftInvalid, saves, deletedID]
    | some painting =>
      have exact := saved_reaches_iff h saves
      simp [ReachesStore, NoneLeftInvalid, saves, deletedID, exact]
  | commitDelete row order error =>
    obtain rfl : error = false := noError
    cases deletes : deletedID s (.commitDelete row order false) with
    | none => simp [ReachesStore, NoneLeftInvalid, deletes, savedPainting]
    | some id =>
      have exact := deleted_reaches_iff h deletes
      simp [ReachesStore, NoneLeftInvalid, deletes, savedPainting, exact]
  | _ => simp [ReachesStore, NoneLeftInvalid, savedPainting, deletedID]

/-- In a run whose saves fail only by validation, all acceptable paintings and all
deletions reach the store exactly when none of these steps finds an object with an
invalid year among the pending insertions. -/
theorem saves_reach_store_iff (es : List Event) (noError : ∀ e ∈ es, NoStoreError e) :
    Always step ReachesStore start es ↔
      Always step (fun s e _ => NoneLeftInvalid s e) start es :=
  always_congr_of_invariant sound_step (fun s e sound ok => reachesStore_iff s e sound ok)
    sound_start (always_of_mem step noError start)

/-- The first launch, and one painting entered and saved. -/
def enter (year : String) : List Event :=
  [.addButtonClicked .unchanged, .edit "name" "artist" year, .imagePicked none,
    .SaveButtonClicled false fun _ => .unchanged, .back]

def firstLaunch : List Event := [.launch .unchanged, .viewWillAppear]

theorem valid_saves_reach_store :
    Always step ReachesStore start (firstLaunch ++ enter "1990" ++ enter "no year") :=
  (saves_reach_store_iff _ (by decide)).mpr (by decide)

/-- The year 99999 does not fit; the painting entered after it is not saved either. -/
theorem failed_save_blocks_later_save :
    ¬ ∀ es : List Event, (∀ e ∈ es, NoStoreError e) → Always step ReachesStore start es := by
  intro every
  have only := every (firstLaunch ++ enter "99999" ++ enter "1990") (by decide)
  revert only
  decide

end ArtBookSaves
