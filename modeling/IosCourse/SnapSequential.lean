import Mathlib.Data.List.Perm.Basic
import IosCourse.SnapRaces

/-!
# Uploads one after the other

If an upload makes its query only when every other one has settled its last write, no
merge writes back an outdated copy: until its own merge is applied a document holds what
was read of it, or it has been deleted in between. Taps, snapshots and deletions may
come at any time.
-/

namespace SnapSequential

open DocumentCollection SnapDocuments SnapUpload SnapSystem SnapRaces GuardedRuns

/-- The flow has made its query and has a write left to settle. -/
def underWay (f : Flow) : Bool :=
  match f.stage with
  | .uploading => false
  | .answered _ => true
  | .writing pending _ => !pending.isEmpty

/-- A flow makes its query while no other one is under way. -/
def QueriesAlone (s : System) : Event → Prop
  | .query n => ∀ m < s.flows.length, m ≠ n → ∀ f ∈ s.flows[m]?, underWay f = false
  | _ => True

instance (s : System) : (e : Event) → Decidable (QueriesAlone s e)
  | .query n => inferInstanceAs (Decidable
      (∀ m < s.flows.length, m ≠ n → ∀ f ∈ s.flows[m]?, underWay f = false))
  | .advance _ | .storeUser _ _ | .tap _ _ | .answer _ | .write _ _ _ | .emit _
  | .callback _ _ | .listenerError _ _ | .delete _ _ => .isTrue trivial

/-- The document that a write is merged into. -/
def mergedId : Write → Option ℕ
  | .setData id _ => some id
  | .addDocument _ _ => none

/-- These are all images of the document, which is not one that is still to come. -/
structure HoldsAtMost (snaps : Store) (id : ℕ) (urls : List String) : Prop where
  issued : id < snaps.nextId
  within : currentURLs snaps id ⊆ urls

/-- What the flow has read of the documents that it is going to write is not outdated,
and it writes each of them once. -/
def CopiesCurrent (snaps : Store) (f : Flow) : Prop :=
  match f.stage with
  | .uploading => True
  | .answered documents => (documents.map Prod.fst).Nodup ∧ ∀ document ∈ documents,
      ∀ urls, imageURLArray document.2 = some urls → HoldsAtMost snaps document.1 urls
  | .writing pending _ => (pending.filterMap mergedId).Nodup ∧
      ∀ id urls, .setData id urls ∈ pending → HoldsAtMost snaps id urls

/-- At most one flow is under way, and its copies are current. -/
structure Sequential (s : System) : Prop where
  one : ∀ (m n : ℕ) (f g : Flow), s.flows[m]? = some f → s.flows[n]? = some g →
    underWay f = true → underWay g = true → m = n
  copies : ∀ (m : ℕ) (f : Flow), s.flows[m]? = some f → CopiesCurrent s.mySnaps f

theorem sequential_start (mySnaps : Store) (clock : ℤ) (users : ℕ → UserSingleton) :
    Sequential (start mySnaps clock users) where
  one m n f g hf := by simp [start] at hf
  copies m f hf := by simp [start] at hf

/-- Only a merge into the document itself can add images to it. -/
theorem holdsAtMost_step {s : System} {e : Event} {id : ℕ} {urls : List String}
    (h : HoldsAtMost s.mySnaps id urls)
    (unmerged : ∀ urls', applied s e ≠ some (.setData id urls')) :
    HoldsAtMost (step s e).mySnaps id urls := by
  cases storeStep s e with
  | wrote w applies result =>
    rw [result]
    cases w with
    | setData i urls' =>
      have other : id ≠ i := by
        rintro rfl
        exact unmerged urls' applies
      refine ⟨lt_of_lt_of_le h.issued (le_max_left _ _), ?_⟩
      rw [Write.apply, currentURLs_merge_of_ne _ other]
      exact h.within
    | addDocument urls' owner =>
      refine ⟨Nat.lt_succ_of_lt h.issued, ?_⟩
      rw [Write.apply, currentURLs, Collection.field_add, if_neg h.issued.ne]
      exact h.within
  | deleted i quiet removes result =>
    rw [result]
    refine ⟨h.issued, ?_⟩
    rw [currentURLs, Collection.field_delete]
    split
    · exact List.nil_subset _
    · exact h.within
  | kept quiet result => rwa [result]

theorem copiesCurrent_of_quiet {s : System} {e : Event} (quiet : applied s e = none) {f : Flow}
    (h : CopiesCurrent s.mySnaps f) : CopiesCurrent (step s e).mySnaps f := by
  have unmerged : ∀ id urls, applied s e ≠ some (.setData id urls) := by simp [quiet]
  unfold CopiesCurrent at h ⊢
  split at h
  · trivial
  · refine ⟨h.1, fun document mem urls copied => ?_⟩
    exact holdsAtMost_step (h.2 document mem urls copied) (unmerged _)
  · exact ⟨h.1, fun id urls mem => holdsAtMost_step (h.2 id urls mem) (unmerged id)⟩

theorem copiesCurrent_of_idle {snaps : Store} {f : Flow} (idle : underWay f = false) :
    CopiesCurrent snaps f := by
  unfold underWay at idle
  unfold CopiesCurrent
  split at idle
  · trivial
  · cases idle
  · rename_i pending acknowledged stage
    obtain rfl : pending = [] := by simpa using idle
    simp

/-- The answer of the query is what the collection holds. -/
theorem copiesCurrent_queried (snaps : Store) (name : String) (f : Flow) :
    CopiesCurrent snaps { f with
      queryName := some name
      stage := .answered (ownedBy snaps name) } := by
  refine ⟨Collection.query_ids_nodup _, ?_⟩
  rintro ⟨id, d⟩ mem urls copied
  have present := (mem_ownedBy.mp mem).1
  refine ⟨Collection.lt_nextId present, ?_⟩
  rw [currentURLs, Collection.field_eq present, show d "imageURLArray" = _ from
    imageURLArray_eq_some.mp copied]
  exact List.Subset.refl _

/-- Each document of the answer is merged into at most once. -/
theorem mergedIds_requestedWrites (imageURL userName : String) (documents : List (ℕ × Doc)) :
    ((requestedWrites imageURL userName documents).filterMap mergedId).Sublist
      (documents.map Prod.fst) := by
  have appended : ∀ rest : List (ℕ × Doc),
      ((rest.filterMap (appendURL imageURL)).filterMap mergedId).Sublist (rest.map Prod.fst) := by
    intro rest
    induction rest with
    | nil => exact List.Sublist.refl _
    | cons document rest ih =>
      rw [List.filterMap_cons, List.map_cons, appendURL]
      cases imageURLArray document.2 with
      | none => exact ih.cons _
      | some urls => exact ih.cons_cons _
  unfold requestedWrites
  split
  · exact appended documents
  · exact List.nil_sublist _

theorem copiesCurrent_answered {snaps : Store} {f : Flow} {documents : List (ℕ × Doc)}
    (stage : f.stage = .answered documents) (h : CopiesCurrent snaps f) (userName : String)
    (buildName : Option String) :
    CopiesCurrent snaps { f with
      buildName := buildName
      stage := .writing (requestedWrites f.imageURL userName documents) false } := by
  rw [CopiesCurrent, stage] at h
  refine ⟨h.1.sublist (mergedIds_requestedWrites _ _ _), ?_⟩
  intro id urls mem
  rcases mem_requestedWrites mem with ⟨i, d, copy, read, copied, same⟩ | ⟨_, same⟩
  · cases same
    have held := h.2 (id, d) read copy copied
    exact ⟨held.issued, fun url present => List.mem_append_left _ (held.within present)⟩
  · cases same

/-- The writes that are left are merged into other documents. -/
theorem mergedId_of_left {pending : List Write} (distinct : (pending.filterMap mergedId).Nodup)
    {index : ℕ} {w : Write} (write : pending[index]? = some w) {id : ℕ}
    (merges : mergedId w = some id) {w' : Write} (mem : w' ∈ pending.eraseIdx index) :
    mergedId w' ≠ some id := by
  obtain ⟨inside, rfl⟩ := List.getElem?_eq_some_iff.mp write
  have split := (List.getElem_cons_eraseIdx_perm inside).filterMap mergedId
  rw [List.filterMap_cons, merges] at split
  have once := (List.nodup_cons.mp (split.nodup_iff.mpr distinct)).1
  intro same
  exact once (List.mem_filterMap.mpr ⟨w', mem, same⟩)

theorem copiesCurrent_settled {s : System} {n index : ℕ} {ok : Bool} {f : Flow}
    {pending : List Write} {acknowledged : Bool} (before : s.flows[n]? = some f)
    (stage : f.stage = .writing pending acknowledged) (h : CopiesCurrent s.mySnaps f) {w : Write}
    (write : pending[index]? = some w) :
    CopiesCurrent (step s (.write n index ok)).mySnaps
      { f with stage := .writing (pending.eraseIdx index) ok } := by
  rw [CopiesCurrent, stage] at h
  refine ⟨h.1.sublist ((List.eraseIdx_sublist _ _).filterMap _), ?_⟩
  intro id urls mem
  refine holdsAtMost_step (h.2 id urls (List.mem_of_mem_eraseIdx mem)) ?_
  intro urls' applies
  obtain ⟨_, _, g, _, _, event, hg, stage', write'⟩ := applied_cases applies
  cases event
  cases before.symm.trans hg
  cases stage.symm.trans stage'
  cases write.symm.trans write'
  exact mergedId_of_left h.1 write rfl mem rfl

theorem underWay_of_applied {s : System} {e : Event} {w : Write} (applies : applied s e = some w) :
    ∃ n index f, e = .write n index true ∧ s.flows[n]? = some f ∧ underWay f = true := by
  obtain ⟨n, index, f, pending, acknowledged, event, hf, stage, write⟩ := applied_cases applies
  refine ⟨n, index, f, event, hf, ?_⟩
  rw [underWay, stage]
  cases pending with
  | nil => cases write
  | cons => rfl

/-- While a flow is under way no write of another one is applied. -/
theorem quiet_of_underWay {s : System} (h : Sequential s) {e : Event} {m : ℕ} {f : Flow}
    (before : s.flows[m]? = some f) (busy : underWay f = true)
    (unmoved : ∀ index, e = .write m index true → applied s e = none) : applied s e = none := by
  cases applies : applied s e with
  | none => rfl
  | some w =>
    obtain ⟨n, index, g, event, hg, writes⟩ := underWay_of_applied applies
    obtain rfl : m = n := h.one m n f g before hg busy writes
    cases (unmoved index event).symm.trans applies

/-- A flow gets under way by its query. -/
theorem underWay_step {s : System} {e : Event} {m : ℕ} {f' : Flow}
    (after : (step s e).flows[m]? = some f') (busy : underWay f' = true) :
    (∃ f, s.flows[m]? = some f ∧ underWay f = true) ∨ e = .query m := by
  cases flowStep after with
  | same before => exact Or.inl ⟨f', before, busy⟩
  | tapped device imageURL event index result =>
    subst result
    cases busy
  | queried f before event stage result => exact Or.inr event
  | answered f before event documents stage result =>
    exact Or.inl ⟨f, before, by rw [underWay, stage]⟩
  | settled f before index ok event pending acknowledged stage w write result =>
    refine Or.inl ⟨f, before, ?_⟩
    rw [underWay, stage]
    cases pending with
    | nil => cases write
    | cons => rfl

theorem sequential_step (s : System) (e : Event) (h : Sequential s) (alone : QueriesAlone s e) :
    Sequential (step s e) where
  one m n f g hf hg busy busy' := by
    have idle : ∀ {j k f}, e = .query k → j ≠ k → s.flows[j]? = some f → underWay f = false := by
      rintro j k f rfl other hf
      exact alone j (List.getElem?_eq_some_iff.mp hf).1 other f hf
    by_contra apart
    rcases underWay_step hf busy with ⟨f₀, hf₀, old⟩ | event
    · rcases underWay_step hg busy' with ⟨g₀, hg₀, old'⟩ | event'
      · exact apart (h.one m n f₀ g₀ hf₀ hg₀ old old')
      · cases old.symm.trans (idle event' apart hf₀)
    · rcases underWay_step hg busy' with ⟨g₀, hg₀, old'⟩ | event'
      · cases old'.symm.trans (idle event (Ne.symm apart) hg₀)
      · cases event.symm.trans event'
        exact apart rfl
  copies m f' hf' := by
    cases flowStep hf' with
    | same before =>
      cases busy : underWay f' with
      | false => exact copiesCurrent_of_idle busy
      | true =>
        refine copiesCurrent_of_quiet (quiet_of_underWay h before busy ?_) (h.copies m f' before)
        rintro index rfl
        exact unmoved_of_same before hf'
    | tapped device imageURL event index result =>
      subst result
      trivial
    | queried f before event stage result =>
      subst event result
      exact copiesCurrent_queried _ _ _
    | answered f before event documents stage result =>
      subst event result
      exact copiesCurrent_answered stage (h.copies m f before) _ _
    | settled f before index ok event pending acknowledged stage w write result =>
      subst event result
      exact copiesCurrent_settled before stage (h.copies m f before) write

/-- A merge writes the copy that its flow has read. -/
theorem upToDate_of_sequential {s : System} (h : Sequential s) (e : Event) : UpToDate s e := by
  unfold UpToDate
  split
  · rename_i id urls applies
    obtain ⟨n, index, f, pending, acknowledged, _, hf, stage, write⟩ := applied_cases applies
    have copies := h.copies n f hf
    rw [CopiesCurrent, stage] at copies
    exact (copies.2 id urls (List.mem_of_getElem? write)).within
  · trivial

/-- In a run in which every flow makes its query alone, each merge writes back all that
the document holds. -/
theorem upToDate_of_queriesAlone (mySnaps : Store) (clock : ℤ) (users : ℕ → UserSingleton)
    (es : List Event)
    (alone : Always step (fun s e _ => QueriesAlone s e) (start mySnaps clock users) es) :
    Always step (fun s e _ => UpToDate s e) (start mySnaps clock users) es :=
  always_of_invariant sequential_step (fun _ e h _ => upToDate_of_sequential h e)
    (sequential_start mySnaps clock users) alone

end SnapSequential
