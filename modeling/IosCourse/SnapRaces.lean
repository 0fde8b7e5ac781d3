import IosCourse.SnapSystem

/-!
# Races between uploads

An upload reads a document, appends to its copy and writes the copy back; another
upload looks for a document of its owner and adds one when it finds none; a merge
may land after the deletion of its document. Each of these is safe exactly as
long as what the flow read is still true when its write reaches the server. The
results range over all devices, flows, owners and orders of steps.
-/

namespace SnapRaces

open DocumentCollection SnapDocuments SnapUpload SnapSystem GuardedRuns

/-- The images that a document holds at present. -/
def currentURLs (snaps : Store) (id : ℕ) : List String :=
  ((snaps.field id "imageURLArray").bind Value.asStringArray).getD []

/-- All images in the documents of an owner. -/
def imagesOf (snaps : Store) (name : String) : List String :=
  (ownedBy snaps name).flatMap fun document => currentURLs snaps document.1

/-- The last write of the flow was acknowledged without an error. -/
def completed (f : Flow) : Bool :=
  match f.stage with
  | .writing [] true => true
  | _ => false

/-- The image of the flow is in some document of the user it was stored for. -/
def Held (snaps : Store) (f : Flow) : Prop :=
  ∃ name ∈ f.owner, f.imageURL ∈ imagesOf snaps name

instance (snaps : Store) (f : Flow) : Decidable (Held snaps f) :=
  inferInstanceAs (Decidable (∃ name ∈ f.owner, _))

/-- A merge that is applied in this step writes back a copy which still contains
everything that the document holds. -/
def UpToDate (s : System) (e : Event) : Prop :=
  match applied s e with
  | some (.setData id urls) => currentURLs s.mySnaps id ⊆ urls
  | _ => True

instance (s : System) (e : Event) : Decidable (UpToDate s e) := by
  unfold UpToDate
  split <;> infer_instance

theorem mem_imagesOf {snaps : Store} {name url : String} :
    url ∈ imagesOf snaps name ↔
      ∃ id, snaps.field id "snapOwner" = some (.string name) ∧ url ∈ currentURLs snaps id := by
  simp only [imagesOf, List.mem_flatMap, Prod.exists, mem_ownedBy]
  constructor
  · rintro ⟨id, d, ⟨hd, howner⟩, hurl⟩
    exact ⟨id, by rw [Collection.field_eq hd, howner], hurl⟩
  · rintro ⟨id, howner, hurl⟩
    obtain ⟨d, hd, hfield⟩ := Collection.get?_of_field howner
    exact ⟨id, d, ⟨hd, hfield⟩, hurl⟩

/-- Owned documents stay where they are, keep their owner and lose no image. -/
def Grows (before after : Store) : Prop :=
  ∀ id name, before.field id "snapOwner" = some (.string name) →
    after.field id "snapOwner" = some (.string name) ∧
      currentURLs before id ⊆ currentURLs after id

theorem imagesOf_mono {before after : Store} (grows : Grows before after) {name url : String}
    (h : url ∈ imagesOf before name) : url ∈ imagesOf after name := by
  obtain ⟨id, owner, mem⟩ := mem_imagesOf.mp h
  obtain ⟨owner', more⟩ := grows id name owner
  exact mem_imagesOf.mpr ⟨id, owner', more mem⟩

@[simp] theorem currentURLs_merge_self (snaps : Store) (id : ℕ) (urls : List String) :
    currentURLs (snaps.merge id (additionalDictionary urls)) id = urls := by
  simp [currentURLs, Collection.field_merge_self (additionalDictionary_urls urls),
    Value.asStringArray]

theorem currentURLs_merge_of_ne (snaps : Store) {id i : ℕ} (other : i ≠ id)
    (urls : List String) :
    currentURLs (snaps.merge id (additionalDictionary urls)) i = currentURLs snaps i := by
  simp [currentURLs, Collection.field_merge_of_ne other]

theorem currentURLs_nextId (snaps : Store) : currentURLs snaps snaps.nextId = [] := by
  have missing : snaps.field snaps.nextId "imageURLArray" = none := by
    rw [Option.eq_none_iff_forall_ne_some]
    intro v present
    obtain ⟨d, hd, _⟩ := Collection.get?_of_field present
    exact (Collection.lt_nextId hd).ne rfl
  rw [currentURLs, missing]
  rfl

/-- A document that is not deleted loses no image to an up-to-date merge. -/
theorem currentURLs_step {s : System} {e : Event} {id : ℕ} (kept : removed s e ≠ some id)
    (upToDate : UpToDate s e) : currentURLs s.mySnaps id ⊆ currentURLs (step s e).mySnaps id := by
  cases storeStep s e with
  | wrote w applies result =>
    rw [result]
    cases w with
    | setData i urls =>
      rw [UpToDate, applies] at upToDate
      by_cases same : id = i
      · subst same
        rwa [Write.apply, currentURLs_merge_self]
      · rw [Write.apply, currentURLs_merge_of_ne _ same]
        exact List.Subset.refl _
    | addDocument urls owner =>
      by_cases new : id = s.mySnaps.nextId
      · rw [new, currentURLs_nextId]
        exact List.nil_subset _
      · simp [Write.apply, currentURLs, Collection.field_add, new]
  | deleted i quiet removes result =>
    have other : id ≠ i := by
      rintro rfl
      exact kept removes
    simp [result, currentURLs, Collection.field_delete, other]
  | kept quiet result =>
    rw [result]
    exact List.Subset.refl _

theorem owner_step {s : System} {e : Event} {id : ℕ} {name : String}
    (kept : removed s e ≠ some id)
    (owner : s.mySnaps.field id "snapOwner" = some (.string name)) :
    (step s e).mySnaps.field id "snapOwner" = some (.string name) := by
  cases storeStep s e with
  | wrote w applies result =>
    rw [result]
    cases w with
    | setData i urls => rwa [Write.apply, field_merge_additional _ _ _ _ (by decide)]
    | addDocument urls name' =>
      obtain ⟨d, hd, _⟩ := Collection.get?_of_field owner
      rwa [Write.apply, Collection.field_add, if_neg (Collection.lt_nextId hd).ne]
  | deleted i quiet removes result =>
    have other : id ≠ i := by
      rintro rfl
      exact kept removes
    rwa [result, Collection.field_delete, if_neg other]
  | kept quiet result => rwa [result]

theorem grows_step {s : System} {e : Event} (kept : removed s e = none)
    (upToDate : UpToDate s e) : Grows s.mySnaps (step s e).mySnaps := by
  intro id name owner
  have stays : removed s e ≠ some id := by simp [kept]
  exact ⟨owner_step stays owner, currentURLs_step stays upToDate⟩

/-- A requested write carries the image, to documents of the named owner. -/
def WriteTargets (snaps : Store) (name url : String) : Write → Prop
  | .setData id urls => url ∈ urls ∧ snaps.field id "snapOwner" = some (.string name)
  | .addDocument urls owner => url ∈ urls ∧ owner = name

/-- What holds of a flow at each of its stages while no document is deleted. -/
def FlowTargets (snaps : Store) (f : Flow) : Prop :=
  match f.stage with
  | .uploading => f.buildName = none
  | .answered documents => f.buildName = none ∧ ∃ name, f.queryName = some name ∧
      ∀ document ∈ documents, snaps.field document.1 "snapOwner" = some (.string name)
  | .writing pending acknowledged => ∃ name, f.owner = some name ∧
      (∀ w ∈ pending, WriteTargets snaps name f.imageURL w) ∧
      (acknowledged = true → f.imageURL ∈ imagesOf snaps name)

theorem writeTargets_mono {before after : Store} (grows : Grows before after)
    {name url : String} {w : Write} (h : WriteTargets before name url w) :
    WriteTargets after name url w := by
  cases w with
  | setData id urls => exact ⟨h.1, (grows id name h.2).1⟩
  | addDocument urls owner => exact h

theorem flowTargets_mono {before after : Store} (grows : Grows before after) {f : Flow}
    (h : FlowTargets before f) : FlowTargets after f := by
  unfold FlowTargets at h ⊢
  split at h
  · exact h
  · obtain ⟨fresh, name, queried, owned⟩ := h
    exact ⟨fresh, name, queried, fun document mem => (grows _ name (owned document mem)).1⟩
  · obtain ⟨name, owner, targets, held⟩ := h
    exact ⟨name, owner, fun w mem => writeTargets_mono grows (targets w mem),
      fun acknowledged => imagesOf_mono grows (held acknowledged)⟩

/-- An applied write puts the image into a document of the named owner. -/
theorem image_of_applied {snaps : Store} {name url : String} {w : Write} (stamp : ℤ)
    (h : WriteTargets snaps name url w) : url ∈ imagesOf (w.apply stamp snaps) name := by
  cases w with
  | setData id urls =>
    obtain ⟨mem, owner⟩ := h
    refine mem_imagesOf.mpr ⟨id, ?_, ?_⟩
    · rwa [Write.apply, field_merge_additional _ _ _ _ (by decide)]
    · rwa [Write.apply, currentURLs_merge_self]
  | addDocument urls owner =>
    obtain ⟨mem, rfl⟩ := h
    refine mem_imagesOf.mpr ⟨snaps.nextId, ?_, ?_⟩
    · simp [Write.apply, Collection.field_add]
    · simpa [Write.apply, currentURLs, Collection.field_add, Value.asStringArray] using mem

theorem flowTargets_answered {snaps : Store} {f : Flow} {documents : List (ℕ × Doc)}
    (userName : String) (stage : f.stage = .answered documents) (h : FlowTargets snaps f) :
    FlowTargets snaps { f with
      buildName := if documents.isEmpty then some userName else none
      stage := .writing (requestedWrites f.imageURL userName documents) false } := by
  rw [FlowTargets, stage] at h
  obtain ⟨_, name, queried, owned⟩ := h
  by_cases empty : documents = []
  · subst empty
    refine ⟨userName, rfl, ?_, by simp⟩
    intro w mem
    obtain rfl : w = .addDocument [f.imageURL] userName := by simpa [requestedWrites] using mem
    exact ⟨List.mem_singleton.mpr rfl, rfl⟩
  · refine ⟨name, by simp [Flow.owner, queried, empty], ?_, by simp⟩
    intro w mem
    rcases mem_requestedWrites mem with ⟨id, d, urls, hd, _, rfl⟩ | ⟨rfl, _⟩
    · exact ⟨by simp, owned (id, d) hd⟩
    · exact absurd rfl empty

def FlowsTargets (s : System) : Prop :=
  ∀ (m : ℕ) (f : Flow), s.flows[m]? = some f → FlowTargets s.mySnaps f

theorem flowsTargets_step (s : System) (e : Event) (h : FlowsTargets s)
    (ok : removed s e = none ∧ UpToDate s e) : FlowsTargets (step s e) := by
  intro m f' hf'
  have grows := grows_step ok.1 ok.2
  cases flowStep hf' with
  | same before => exact flowTargets_mono grows (h m f' before)
  | tapped device imageURL event index result => subst result; rfl
  | queried f before event stage result =>
    have fresh := h m f before
    rw [FlowTargets, stage] at fresh
    subst result
    refine ⟨fresh, _, rfl, ?_⟩
    rintro ⟨id, d⟩ mem
    obtain ⟨hd, howner⟩ := mem_ownedBy.mp mem
    exact (grows id _ (by rw [Collection.field_eq hd, howner])).1
  | answered f before event documents stage result =>
    subst result
    exact flowTargets_mono grows (flowTargets_answered _ stage (h m f before))
  | settled f before index ok' event pending acknowledged stage w write result =>
    have now := h m f before
    rw [FlowTargets, stage] at now
    obtain ⟨name, owner, targets, _⟩ := now
    subst result
    refine ⟨name, owner, ?_, ?_⟩
    · intro w' mem
      exact writeTargets_mono grows (targets w' (List.mem_of_mem_eraseIdx mem))
    · rintro rfl
      have applies : applied s e = some w := by
        simp [event, applied, nextWrite, before, Flow.pendingWrite, stage, write]
      rw [mySnaps_of_applied applies]
      exact image_of_applied s.clock (targets w (List.mem_of_getElem? write))

/-- Without deletions, and as long as every merge writes back an up-to-date copy,
each image whose last write was acknowledged is held in every later state. -/
theorem acknowledged_image_held (mySnaps : Store) (clock : ℤ) (users : ℕ → UserSingleton)
    (es : List Event)
    (guarded : Always step (fun s e _ => removed s e = none ∧ UpToDate s e)
      (start mySnaps clock users) es) :
    ∀ f ∈ (run step (start mySnaps clock users) es).flows, completed f = true →
      Held (run step (start mySnaps clock users) es).mySnaps f := by
  have final : FlowsTargets (run step (start mySnaps clock users) es) :=
    invariant_run flowsTargets_step (fun m f hf => by simp [start] at hf) guarded
  intro f mem done
  obtain ⟨m, hm⟩ := List.mem_iff_getElem?.mp mem
  have targets := final m f hm
  unfold completed at done
  split at done
  · rename_i stage
    rw [FlowTargets, stage] at targets
    obtain ⟨name, owner, _, held⟩ := targets
    exact ⟨name, owner, held rfl⟩
  · cases done

/-- All steps of a tap with one write, from one end to the other. -/
def wholeUpload (device flow : ℕ) (imageURL : String) : List Event :=
  [.tap device imageURL, .query flow, .answer flow, .write flow 0 true]

def signedInAs (name : String) : ℕ → UserSingleton := fun _ => ⟨"", name⟩

theorem acknowledged_image_held_in_sequence :
    Held (run step (start .empty 0 (signedInAs "ada"))
        (wholeUpload 0 0 "a" ++ wholeUpload 1 1 "b")).mySnaps
      ⟨0, "a", some "ada", some "ada", .writing [] true⟩ :=
  acknowledged_image_held _ _ _ _ (by decide) _
    (List.mem_of_getElem? (show _[0]? = some _ from rfl)) rfl

/-- Two devices of one user append to the same copy: the first image is lost. -/
theorem concurrent_append_loses_image :
    ¬ ∀ (mySnaps : Store) (clock : ℤ) (users : ℕ → UserSingleton) (es : List Event),
      Always step (fun s e _ => removed s e = none) (start mySnaps clock users) es →
      ∀ f ∈ (run step (start mySnaps clock users) es).flows, completed f = true →
        Held (run step (start mySnaps clock users) es).mySnaps f := by
  intro every
  have lost := every .empty 0 (signedInAs "ada")
    (wholeUpload 0 0 "a" ++ [.tap 1 "b", .tap 2 "c", .query 1, .query 2, .answer 1,
      .answer 2, .write 1 0 true, .write 2 0 true]) (by decide)
  revert lost
  decide

def OneDocumentPerOwner (snaps : Store) : Prop :=
  ∀ i j name, snaps.field i "snapOwner" = some (.string name) →
    snaps.field j "snapOwner" = some (.string name) → i = j

/-- A new document is applied while the owner query for its name returns nothing. -/
def OwnerAbsent (s : System) (e : Event) : Prop :=
  match applied s e with
  | some (.addDocument _ owner) => ownedBy s.mySnaps owner = []
  | _ => True

theorem oneDocument_merge {snaps : Store} (one : OneDocumentPerOwner snaps) (id : ℕ)
    (urls : List String) : OneDocumentPerOwner (snaps.merge id (additionalDictionary urls)) := by
  intro i j name hi hj
  rw [field_merge_additional _ _ _ _ (by decide)] at hi hj
  exact one i j name hi hj

theorem oneDocument_delete {snaps : Store} (one : OneDocumentPerOwner snaps) (id : ℕ) :
    OneDocumentPerOwner (snaps.delete id) := by
  intro i j name hi hj
  rw [Collection.field_delete, Option.ite_none_left_eq_some] at hi hj
  exact one i j name hi.2 hj.2

theorem oneDocument_add_iff {snaps : Store} (one : OneDocumentPerOwner snaps)
    (urls : List String) (owner : String) (stamp : ℤ) :
    OneDocumentPerOwner (snaps.add (snapDictionary urls owner stamp)) ↔
      ownedBy snaps owner = [] := by
  have old : ∀ i name, snaps.field i "snapOwner" = some (.string name) → i ≠ snaps.nextId := by
    intro i name hi
    obtain ⟨d, hd, _⟩ := Collection.get?_of_field hi
    exact (Collection.lt_nextId hd).ne
  rw [ownedBy_eq_nil]
  constructor
  · intro both i hi
    have other := old i owner hi
    refine other (both i snaps.nextId owner ?_ ?_)
    · rwa [Collection.field_add, if_neg other]
    · simp [Collection.field_add]
  · intro absent i j name hi hj
    rw [Collection.field_add] at hi hj
    split at hi <;> split at hj <;> rename_i hi' hj'
    · rw [hi', hj']
    · simp only [snapDictionary_owner, Option.some.injEq, Value.string.injEq] at hi
      exact absurd hj (hi ▸ absent j)
    · simp only [snapDictionary_owner, Option.some.injEq, Value.string.injEq] at hj
      exact absurd hi (hj ▸ absent i)
    · exact one i j name hi hj

theorem oneDocument_step_iff (s : System) (e : Event) (one : OneDocumentPerOwner s.mySnaps) :
    OneDocumentPerOwner (step s e).mySnaps ↔ OwnerAbsent s e := by
  cases storeStep s e with
  | wrote w applies result =>
    rw [result, OwnerAbsent, applies]
    cases w with
    | setData id urls => simpa [Write.apply] using oneDocument_merge one id urls
    | addDocument urls owner => exact oneDocument_add_iff one urls owner s.clock
  | deleted id quiet removes result =>
    rw [result, OwnerAbsent, quiet]
    simpa using oneDocument_delete one id
  | kept quiet result =>
    rw [result, OwnerAbsent, quiet]
    simpa using one

/-- Starting from the empty collection, no state has two documents of one owner
exactly when each new document finds its owner without one. -/
theorem one_document_per_owner_iff (clock : ℤ) (users : ℕ → UserSingleton)
    (es : List Event) :
    Always step (fun _ _ t => OneDocumentPerOwner t.mySnaps) (start .empty clock users) es ↔
      Always step (fun s e _ => OwnerAbsent s e) (start .empty clock users) es := by
  refine always_iff_of_exact (fun _ _ (_ : True) => trivial)
    (fun s e _ one => oneDocument_step_iff s e one) trivial ?_ es
  intro i j name hi
  simp [start, Collection.field] at hi

/-- Two first uploads of one user both find nothing, and both add a document. -/
theorem concurrent_first_uploads_duplicate :
    ¬ ∀ (clock : ℤ) (users : ℕ → UserSingleton) (es : List Event),
      OneDocumentPerOwner (run step (start .empty clock users) es).mySnaps := by
  intro every
  have same := every 0 (signedInAs "ada") [.tap 0 "a", .tap 1 "b", .query 0, .query 1,
    .answer 0, .answer 1, .write 0 0 true, .write 1 0 true] 0 1 "ada" (by decide) (by decide)
  cases same

/-- Every document can be found by its owner and by date, and holds an image. -/
def SchemaKept (snaps : Store) : Prop :=
  ∀ id d, snaps.get? id = some d → ∃ owner stamp urls,
    d "snapOwner" = some (.string owner) ∧ d "date" = some (.timestamp stamp) ∧
      d "imageURLArray" = some (.strings urls) ∧ urls ≠ []

/-- A merge is applied to a document that still exists. -/
def MergesExisting (s : System) (e : Event) : Prop :=
  match applied s e with
  | some (.setData id _) => (s.mySnaps.get? id).isSome
  | _ => True

def urlsOf : Write → List String
  | .setData _ urls => urls
  | .addDocument urls _ => urls

/-- Every write that is still pending carries the image of its flow. -/
def WritesCarryImage (s : System) : Prop :=
  ∀ (m : ℕ) (f : Flow), s.flows[m]? = some f → ∀ pending acknowledged,
    f.stage = .writing pending acknowledged → ∀ w ∈ pending, f.imageURL ∈ urlsOf w

theorem writesCarryImage_start (mySnaps : Store) (clock : ℤ) (users : ℕ → UserSingleton) :
    WritesCarryImage (start mySnaps clock users) := by
  intro m f hf
  simp [start] at hf

theorem writesCarryImage_step (s : System) (e : Event) (h : WritesCarryImage s) :
    WritesCarryImage (step s e) := by
  intro m f' hf' pending' acknowledged' stage' w' mem
  cases flowStep hf' with
  | same before => exact h m f' before pending' acknowledged' stage' w' mem
  | tapped device imageURL event index result => subst result; cases stage'
  | queried f before event stage result => subst result; cases stage'
  | answered f before event documents stage result =>
    subst result
    cases stage'
    rcases mem_requestedWrites mem with ⟨id, d, urls, _, _, rfl⟩ | ⟨_, rfl⟩ <;>
      simp [urlsOf]
  | settled f before index ok event pending acknowledged stage w write result =>
    subst result
    cases stage'
    exact h m f before pending acknowledged stage w' (List.mem_of_mem_eraseIdx mem)

theorem urlsOf_applied_ne_nil {s : System} (h : WritesCarryImage s) {e : Event} {w : Write}
    (applies : applied s e = some w) : urlsOf w ≠ [] := by
  obtain ⟨n, index, f, pending, acknowledged, _, hf, stage, write⟩ := applied_cases applies
  exact List.ne_nil_of_mem
    (h n f hf pending acknowledged stage w (List.mem_of_getElem? write))

theorem schemaKept_merge_iff {snaps : Store} (schema : SchemaKept snaps) (id : ℕ)
    {urls : List String} (nonempty : urls ≠ []) :
    SchemaKept (snaps.merge id (additionalDictionary urls)) ↔ (snaps.get? id).isSome := by
  have others : ∀ k, k ≠ "imageURLArray" → additionalDictionary urls k = none :=
    fun _ h => additionalDictionary_of_ne urls h
  constructor
  · intro after
    cases hid : snaps.get? id with
    | some d => rfl
    | none =>
      obtain ⟨owner, _, _, howner, _⟩ := after id _ (by rw [Collection.get?_merge, if_pos rfl])
      rw [overlay_of_none (others _ (by decide)), hid] at howner
      cases howner
  · intro exists_id i d' hd'
    obtain ⟨d, hd⟩ := Option.isSome_iff_exists.mp exists_id
    rw [Collection.get?_merge] at hd'
    split at hd'
    · obtain ⟨owner, stamp, _, howner, hdate, _⟩ := schema id d hd
      cases hd'
      rw [hd, Option.getD_some]
      refine ⟨owner, stamp, urls, ?_, ?_, overlay_of_some (additionalDictionary_urls urls),
        nonempty⟩
      · rw [overlay_of_none (others _ (by decide)), howner]
      · rw [overlay_of_none (others _ (by decide)), hdate]
    · exact schema i d' hd'

theorem schemaKept_add {snaps : Store} (schema : SchemaKept snaps) {urls : List String}
    (owner : String) (stamp : ℤ) (nonempty : urls ≠ []) :
    SchemaKept (snaps.add (snapDictionary urls owner stamp)) := by
  intro i d' hd'
  rw [Collection.get?_add] at hd'
  split at hd'
  · cases hd'
    exact ⟨owner, stamp, urls, rfl, rfl, rfl, nonempty⟩
  · exact schema i d' hd'

theorem schemaKept_delete {snaps : Store} (schema : SchemaKept snaps) (id : ℕ) :
    SchemaKept (snaps.delete id) := by
  intro i d hd
  rw [Collection.get?_delete, Option.ite_none_left_eq_some] at hd
  exact schema i d hd.2

theorem schemaKept_step_iff (s : System) (e : Event) (carry : WritesCarryImage s)
    (schema : SchemaKept s.mySnaps) :
    SchemaKept (step s e).mySnaps ↔ MergesExisting s e := by
  cases storeStep s e with
  | wrote w applies result =>
    have images := urlsOf_applied_ne_nil carry applies
    rw [result, MergesExisting, applies]
    cases w with
    | setData id urls => exact schemaKept_merge_iff schema id images
    | addDocument urls owner =>
      exact iff_of_true (schemaKept_add schema owner s.clock images) trivial
  | deleted id quiet removes result =>
    rw [result, MergesExisting, quiet]
    simpa using schemaKept_delete schema id
  | kept quiet result =>
    rw [result, MergesExisting, quiet]
    simpa using schema

/-- Starting from the empty collection, every document of every state has all
three fields exactly when each merge finds its document still there. -/
theorem schema_kept_iff (clock : ℤ) (users : ℕ → UserSingleton) (es : List Event) :
    Always step (fun _ _ t => SchemaKept t.mySnaps) (start .empty clock users) es ↔
      Always step (fun s e _ => MergesExisting s e) (start .empty clock users) es := by
  refine always_iff_of_exact writesCarryImage_step
    (fun s e carry schema => schemaKept_step_iff s e carry schema)
    (writesCarryImage_start _ _ _) ?_ es
  intro id d hd
  simp [start] at hd

/-- The expired document of the user is deleted between the query of an upload
and its merge, which then creates a document with nothing but the images. -/
theorem merge_after_delete_breaks_schema :
    ¬ ∀ (clock : ℤ) (users : ℕ → UserSingleton) (es : List Event),
      SchemaKept (run step (start .empty clock users) es).mySnaps := by
  intro every
  let es := wholeUpload 0 0 "a" ++ [.tap 0 "b", .query 1, .answer 1,
    .advance 86400000000000, .emit 1, .callback 0 fun _ => 86400000000000, .delete 0 none,
    .write 1 0 true]
  have present : ((run step (start .empty 0 (signedInAs "ada")) es).mySnaps.get? 0).isSome := by
    decide
  have ownerless : (run step (start .empty 0 (signedInAs "ada")) es).mySnaps.field 0
      "snapOwner" = none := by decide
  obtain ⟨d, hd⟩ := Option.isSome_iff_exists.mp present
  obtain ⟨owner, _, _, howner, _⟩ := every 0 (signedInAs "ada") es 0 d hd
  rw [Collection.field_eq hd, howner] at ownerless
  cases ownerless

end SnapRaces
