import IosCourse.SnapRaces

/-!
# Where the images of a document come from

A merge replaces the whole array of a document by a copy that was read earlier,
and the document may have been deleted, or its owner's other uploads may have
landed, since then. Whatever is lost on the way, nothing is invented: in every
interleaving each image of an owner's document was there from the start, or it was
tapped in an upload made under that owner's name.
-/

namespace SnapProvenance

open DocumentCollection SnapDocuments SnapUpload SnapSystem SnapRaces GuardedRuns

/-- The flow has fixed its owner and requested its writes. -/
def requested (f : Flow) : Bool :=
  match f.stage with
  | .writing _ _ => true
  | _ => false

/-- The owner's document `id` held the image from the start, or the image belongs to
an upload made under the owner's name. -/
def Origin (initial : Store) (s : System) (name : String) (id : ℕ) (url : String) : Prop :=
  (initial.field id "snapOwner" = some (.string name) ∧ url ∈ currentURLs initial id) ∨
    ∃ f ∈ s.flows, requested f = true ∧ f.owner = some name ∧ f.imageURL = url

/-- The document has been issued, and whatever owner it has is `name`. -/
def FoundUnder (snaps : Store) (name : String) (id : ℕ) : Prop :=
  id < snaps.nextId ∧ ∀ owner, snaps.field id "snapOwner" = some (.string owner) → owner = name

/-- A document that a query for `name` has returned. -/
def KnownDocument (initial : Store) (s : System) (name : String) (document : ℕ × Doc) : Prop :=
  FoundUnder s.mySnaps name document.1 ∧
    ∀ urls, imageURLArray document.2 = some urls →
      ∀ url ∈ urls, Origin initial s name document.1 url

/-- A write requested for `name`: it adds `url` to images of known origin. -/
def KnownWrite (initial : Store) (s : System) (name url : String) : Write → Prop
  | .setData id urls => FoundUnder s.mySnaps name id ∧
      ∃ old, urls = old ++ [url] ∧ ∀ u ∈ old, Origin initial s name id u
  | .addDocument urls owner => urls = [url] ∧ owner = name

/-- What holds of a flow at each of its stages. -/
def KnownFlow (initial : Store) (s : System) (f : Flow) : Prop :=
  match f.stage with
  | .uploading => f.queryName = none ∧ f.buildName = none
  | .answered documents => f.buildName = none ∧ ∃ name, f.queryName = some name ∧
      ∀ document ∈ documents, KnownDocument initial s name document
  | .writing pending _ => ∃ name, f.owner = some name ∧
      ∀ w ∈ pending, KnownWrite initial s name f.imageURL w

structure Accountable (initial : Store) (s : System) : Prop where
  stored : ∀ id name, s.mySnaps.field id "snapOwner" = some (.string name) →
    ∀ url ∈ currentURLs s.mySnaps id, Origin initial s name id url
  flows : ∀ (m : ℕ) (f : Flow), s.flows[m]? = some f → KnownFlow initial s f

theorem accountable_start (mySnaps : Store) (clock : ℤ) (users : ℕ → UserSingleton) :
    Accountable mySnaps (start mySnaps clock users) := by
  constructor
  · intro id name owner url mem
    exact Or.inl ⟨owner, mem⟩
  · intro m f hf
    simp [start] at hf

section Steps
variable {initial : Store} {s : System} {e : Event}

theorem length_flows_le_step (s : System) (e : Event) :
    s.flows.length ≤ (step s e).flows.length := by
  cases e with
  | tap device imageURL => simp [step]
  | _ => exact (length_flows_step (by rintro _ _ ⟨⟩)).ge

/-- An upload that has requested its writes keeps its owner and its image. -/
theorem requested_step {f : Flow} (mem : f ∈ s.flows) (writing : requested f = true)
    (e : Event) : ∃ f' ∈ (step s e).flows,
      requested f' = true ∧ f'.owner = f.owner ∧ f'.imageURL = f.imageURL := by
  obtain ⟨m, hm⟩ := List.mem_iff_getElem?.mp mem
  have bound : m < (step s e).flows.length := by
    have before := (List.getElem?_eq_some_iff.mp hm).1
    have grown := length_flows_le_step s e
    omega
  obtain ⟨f', hf'⟩ : ∃ f', (step s e).flows[m]? = some f' :=
    ⟨_, List.getElem?_eq_getElem bound⟩
  refine ⟨f', List.mem_of_getElem? hf', ?_⟩
  cases flowStep hf' with
  | same before =>
    cases hm.symm.trans before
    exact ⟨writing, rfl, rfl⟩
  | tapped device imageURL event index result =>
    have old := (List.getElem?_eq_some_iff.mp hm).1
    omega
  | queried g before event stage result =>
    cases hm.symm.trans before
    rw [requested, stage] at writing
    cases writing
  | answered g before event documents stage result =>
    cases hm.symm.trans before
    rw [requested, stage] at writing
    cases writing
  | settled g before index ok event pending acknowledged stage w write result =>
    cases hm.symm.trans before
    subst result
    exact ⟨rfl, rfl, rfl⟩

theorem origin_step {name url : String} {id : ℕ} (h : Origin initial s name id url)
    (e : Event) : Origin initial (step s e) name id url := by
  rcases h with old | ⟨f, mem, writing, owner, image⟩
  · exact Or.inl old
  · obtain ⟨f', mem', writing', owner', image'⟩ := requested_step mem writing e
    exact Or.inr ⟨f', mem', writing', owner'.trans owner, image'.trans image⟩

/-- An identifier in use gets no owner that it did not have. -/
theorem owner_of_step {id : ℕ} (issued : id < s.mySnaps.nextId) {name : String}
    (owner : (step s e).mySnaps.field id "snapOwner" = some (.string name)) :
    s.mySnaps.field id "snapOwner" = some (.string name) := by
  cases ownerStep s e with
  | added n index urls owner' event next creators store =>
    rwa [store, Collection.field_add, if_neg issued.ne] at owner
  | kept creators issued' owners => exact owners id name owner

theorem foundUnder_step {name : String} {id : ℕ} (h : FoundUnder s.mySnaps name id)
    (e : Event) : FoundUnder (step s e).mySnaps name id :=
  ⟨lt_of_lt_of_le h.1 (nextId_le_step s e), fun owner now => h.2 owner (owner_of_step h.1 now)⟩

theorem knownDocument_step {name : String} {document : ℕ × Doc}
    (h : KnownDocument initial s name document) (e : Event) :
    KnownDocument initial (step s e) name document :=
  ⟨foundUnder_step h.1 e, fun urls found url mem => origin_step (h.2 urls found url mem) e⟩

theorem knownWrite_step {name url : String} {w : Write} (h : KnownWrite initial s name url w)
    (e : Event) : KnownWrite initial (step s e) name url w := by
  cases w with
  | setData id urls =>
    obtain ⟨found, old, same, known⟩ := h
    exact ⟨foundUnder_step found e, old, same, fun u mem => origin_step (known u mem) e⟩
  | addDocument urls owner => exact h

theorem knownFlow_step {f : Flow} (h : KnownFlow initial s f) (e : Event) :
    KnownFlow initial (step s e) f := by
  unfold KnownFlow at h ⊢
  split at h
  · exact h
  · obtain ⟨unbuilt, name, queried, known⟩ := h
    exact ⟨unbuilt, name, queried, fun document mem => knownDocument_step (known document mem) e⟩
  · obtain ⟨name, owner, known⟩ := h
    exact ⟨name, owner, fun w mem => knownWrite_step (known w mem) e⟩

theorem foundUnder_of_ownedBy {snaps : Store} {name : String} {document : ℕ × Doc}
    (mem : document ∈ ownedBy snaps name) : FoundUnder snaps name document.1 := by
  obtain ⟨present, owner⟩ := mem_ownedBy.mp mem
  refine ⟨Collection.lt_nextId present, fun other found => ?_⟩
  rw [Collection.field_eq present, owner] at found
  cases found
  rfl

theorem currentURLs_of_get? {snaps : Store} {id : ℕ} {d : Doc} {urls : List String}
    (present : snaps.get? id = some d) (found : imageURLArray d = some urls) :
    currentURLs snaps id = urls := by
  rw [currentURLs, Collection.field_eq present]
  exact congrArg (Option.getD · []) found

theorem knownDocument_of_ownedBy (h : Accountable initial s) {name : String}
    {document : ℕ × Doc} (mem : document ∈ ownedBy s.mySnaps name) :
    KnownDocument initial s name document := by
  refine ⟨foundUnder_of_ownedBy mem, fun urls found url inside => ?_⟩
  obtain ⟨present, owner⟩ := mem_ownedBy.mp mem
  refine h.stored document.1 name (by rw [Collection.field_eq present, owner]) url ?_
  rwa [currentURLs_of_get? present found]

/-- The callback of the query requests writes under the name that was queried, or
under the name that it reads for a new document. -/
theorem knownFlow_answered {f : Flow} {documents : List (ℕ × Doc)} (userName : String)
    (stage : f.stage = .answered documents) (h : KnownFlow initial s f) :
    KnownFlow initial s { f with
      buildName := if documents.isEmpty then some userName else none
      stage := .writing (requestedWrites f.imageURL userName documents) false } := by
  rw [KnownFlow, stage] at h
  obtain ⟨unbuilt, name, queried, known⟩ := h
  by_cases empty : documents = []
  · subst empty
    refine ⟨userName, rfl, ?_⟩
    intro w mem
    obtain rfl : w = .addDocument [f.imageURL] userName := by simpa [requestedWrites] using mem
    exact ⟨rfl, rfl⟩
  · refine ⟨name, by simp [Flow.owner, queried, empty], ?_⟩
    intro w mem
    rcases mem_requestedWrites mem with ⟨id, d, urls, hd, images, rfl⟩ | ⟨none, _⟩
    · exact ⟨(known _ hd).1, urls, rfl, (known _ hd).2 urls images⟩
    · exact absurd none empty

theorem knownFlows_step (h : Accountable initial s) {m : ℕ} {f' : Flow}
    (hf' : (step s e).flows[m]? = some f') : KnownFlow initial (step s e) f' := by
  cases flowStep hf' with
  | same before => exact knownFlow_step (h.flows m f' before) e
  | tapped device imageURL event index result =>
    subst result
    exact ⟨rfl, rfl⟩
  | queried f before event stage result =>
    have now := h.flows m f before
    rw [KnownFlow, stage] at now
    subst result
    exact ⟨now.2, _, rfl, fun document mem =>
      knownDocument_step (knownDocument_of_ownedBy h mem) e⟩
  | answered f before event documents stage result =>
    subst result
    exact knownFlow_step (knownFlow_answered _ stage (h.flows m f before)) e
  | settled f before index ok event pending acknowledged stage w write result =>
    have now := h.flows m f before
    rw [KnownFlow, stage] at now
    obtain ⟨name, owner, known⟩ := now
    subst result
    exact ⟨name, owner, fun w' mem =>
      knownWrite_step (known w' (List.mem_of_mem_eraseIdx mem)) e⟩

/-- An applied write belongs to a flow that has requested it, under one name. -/
theorem knownWrite_of_applied (h : Accountable initial s) {w : Write}
    (applies : applied s e = some w) : ∃ f ∈ s.flows, ∃ name, requested f = true ∧
      f.owner = some name ∧ KnownWrite initial s name f.imageURL w := by
  obtain ⟨n, index, f, pending, acknowledged, _, hf, stage, write⟩ := applied_cases applies
  have now := h.flows n f hf
  rw [KnownFlow, stage] at now
  obtain ⟨name, owner, known⟩ := now
  exact ⟨f, List.mem_of_getElem? hf, name, by rw [requested, stage], owner,
    known w (List.mem_of_getElem? write)⟩

theorem stored_step (h : Accountable initial s) (e : Event) (id : ℕ) (name : String)
    (owner : (step s e).mySnaps.field id "snapOwner" = some (.string name)) (url : String)
    (mem : url ∈ currentURLs (step s e).mySnaps id) :
    Origin initial (step s e) name id url := by
  cases storeStep s e with
  | wrote w applies result =>
    obtain ⟨f, hf, name', writing, fowner, known⟩ := knownWrite_of_applied h applies
    have own : Origin initial s name' id f.imageURL := Or.inr ⟨f, hf, writing, fowner, rfl⟩
    rw [result] at owner mem
    cases w with
    | setData i urls =>
      obtain ⟨found, old, rfl, origins⟩ := known
      rw [Write.apply, field_merge_additional _ _ _ _ (by decide)] at owner
      by_cases same : id = i
      · subst same
        obtain rfl := found.2 name owner
        rw [Write.apply, currentURLs_merge_self, List.mem_append, List.mem_singleton] at mem
        rcases mem with mem | rfl
        · exact origin_step (origins url mem) e
        · exact origin_step own e
      · rw [Write.apply, currentURLs_merge_of_ne _ same] at mem
        exact origin_step (h.stored id name owner url mem) e
    | addDocument urls owner' =>
      obtain ⟨rfl, rfl⟩ := known
      rw [Write.apply, Collection.field_add] at owner
      rw [Write.apply, currentURLs, Collection.field_add] at mem
      by_cases new : id = s.mySnaps.nextId
      · rw [if_pos new, snapDictionary_owner] at owner
        cases owner
        rw [if_pos new, snapDictionary_urls] at mem
        obtain rfl := List.mem_singleton.mp mem
        exact origin_step own e
      · rw [if_neg new] at owner mem
        exact origin_step (h.stored id name owner url mem) e
  | deleted i quiet removes result =>
    rw [result, Collection.field_delete, Option.ite_none_left_eq_some] at owner
    rw [result, currentURLs, Collection.field_delete, if_neg owner.1] at mem
    exact origin_step (h.stored id name owner.2 url mem) e
  | kept quiet result =>
    rw [result] at owner mem
    exact origin_step (h.stored id name owner url mem) e

theorem accountable_step (s : System) (e : Event) (h : Accountable initial s) :
    Accountable initial (step s e) :=
  ⟨stored_step h e, fun _ _ flow => knownFlows_step h flow⟩

end Steps

/-- In every state of every run, each image in the document of an owner was in that
document from the start, or is the image of an upload made under that owner's name. -/
theorem no_invented_image (mySnaps : Store) (clock : ℤ) (users : ℕ → UserSingleton)
    (es : List Event) :
    Always step (fun _ _ t => ∀ id name, t.mySnaps.field id "snapOwner" = some (.string name) →
        ∀ url ∈ currentURLs t.mySnaps id, Origin mySnaps t name id url)
      (start mySnaps clock users) es := by
  refine always_of_invariant (fun s e h (_ : True) => accountable_step s e h)
    (fun s e h _ => ?_) (accountable_start mySnaps clock users) (always_trivial _ _ _)
  exact (accountable_step s e h).stored

end SnapProvenance
