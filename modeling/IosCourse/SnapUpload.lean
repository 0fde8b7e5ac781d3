import Mathlib.Logic.Basic
import IosCourse.SnapDocuments

/-!
# The upload handler of SnapchatClone

`UploadVC.UploadClicked` chains five callbacks: the image is put into storage,
its download URL is fetched, the documents of the owner are queried, and then
the URL is appended to each of them or stored in a new document. Here one tap is
executed from start to end for every combination of outcomes of these requests.
The callback of the query and the writes it requests are shared with the
interleaved system, where other clients run between them.
-/

namespace SnapUpload

open DocumentCollection SnapDocuments

/-- A Firestore write that the callback of the owner query requests. -/
inductive Write where
  | setData (documentID : ℕ) (imageURLArray : List String)
  | addDocument (imageURLArray : List String) (snapOwner : String)
  deriving DecidableEq

/-- One round of the loop over the returned documents. A document without a
string array gets no write. -/
def appendURL (imageURL : String) (document : ℕ × Doc) : Option Write :=
  (imageURLArray document.2).map fun urls => .setData document.1 (urls ++ [imageURL])

/-- The callback of the owner query. `userName` is read here a second time. -/
def requestedWrites (imageURL userName : String) (documents : List (ℕ × Doc)) : List Write :=
  if documents.isEmpty = false then documents.filterMap (appendURL imageURL)
  else [.addDocument [imageURL] userName]

/-- What a write does to the collection when the server applies it. -/
def Write.apply (stamp : ℤ) (snaps : Store) : Write → Store
  | .setData documentID urls => snaps.merge documentID (additionalDictionary urls)
  | .addDocument urls owner => snaps.add (snapDictionary urls owner stamp)

theorem mem_requestedWrites {imageURL userName : String} {documents : List (ℕ × Doc)}
    {w : Write} (h : w ∈ requestedWrites imageURL userName documents) :
    (∃ id d urls, (id, d) ∈ documents ∧ imageURLArray d = some urls ∧
      w = .setData id (urls ++ [imageURL])) ∨
    (documents = [] ∧ w = .addDocument [imageURL] userName) := by
  cases documents with
  | nil => exact Or.inr ⟨rfl, by simpa [requestedWrites] using h⟩
  | cons first rest =>
    obtain ⟨⟨id, d⟩, hd, hw⟩ := List.mem_filterMap.mp h
    obtain ⟨urls, hurls, rfl⟩ := Option.map_eq_some_iff.mp hw
    exact Or.inl ⟨id, d, urls, hd, hurls, rfl⟩

/-- What the screen shows to the user. -/
inductive Effect where
  | alert (title message : String)
  | selectedIndex (index : ℕ)
  | image (named : String)
  deriving DecidableEq

def makeAlert (title message : String) : List Effect := [.alert title message]

def succeeded : List Effect := [.selectedIndex 0, .image "select"]

/-- How each request of a tap ends: `some` carries the description of an error. -/
structure Outcomes where
  jpegData : Bool
  putData : Option String
  downloadURL : Except String String
  getDocuments : Option String
  setData : ℕ → Option String
  addDocument : Option String

structure Tap where
  snaps : Store
  effects : List Effect

/-- A requested write and its completion. Only `addDocument` reports a failure. -/
def finishWrite (outcomes : Outcomes) (stamp : ℤ) (tap : Tap) (w : Write) : Tap :=
  match w with
  | .setData documentID _ =>
    match outcomes.setData documentID with
    | none => ⟨w.apply stamp tap.snaps, tap.effects ++ succeeded⟩
    | some _ => tap
  | .addDocument _ _ =>
    match outcomes.addDocument with
    | some error => ⟨tap.snaps, tap.effects ++ makeAlert "Error" error⟩
    | none => ⟨w.apply stamp tap.snaps, tap.effects ++ succeeded⟩

/-- The whole chain. The user name is read for the query and again for a new document. -/
def uploadClicked (outcomes : Outcomes) (queryName buildName : String) (stamp : ℤ)
    (snaps : Store) : Tap :=
  if outcomes.jpegData then
    match outcomes.putData with
    | some error => ⟨snaps, makeAlert "Error" error⟩
    | none =>
      match outcomes.downloadURL with
      | .error _ => ⟨snaps, []⟩
      | .ok imageURL =>
        match outcomes.getDocuments with
        | some error => ⟨snaps, makeAlert "Error" error⟩
        | none =>
          (requestedWrites imageURL buildName (ownedBy snaps queryName)).foldl
            (finishWrite outcomes stamp) ⟨snaps, []⟩
  else ⟨snaps, []⟩

section Loop
variable (outcomes : Outcomes) (stamp : ℤ) (imageURL : String)

/-- The whole loop, from the documents to the completions of their writes. -/
def appendLoop (documents : List (ℕ × Doc)) (tap : Tap) : Tap :=
  (documents.filterMap (appendURL imageURL)).foldl (finishWrite outcomes stamp) tap

/-- The round of one document reaches the store. -/
def Appends (document : ℕ × Doc) : Prop :=
  (imageURLArray document.2).isSome ∧ outcomes.setData document.1 = none

instance (document : ℕ × Doc) : Decidable (Appends outcomes document) :=
  inferInstanceAs (Decidable (_ ∧ _))

theorem appendLoop_cons (document : ℕ × Doc) (rest : List (ℕ × Doc)) (tap : Tap) :
    appendLoop outcomes stamp imageURL (document :: rest) tap =
      appendLoop outcomes stamp imageURL rest
        (if Appends outcomes document then
          ⟨tap.snaps.merge document.1
            (additionalDictionary ((imageURLArray document.2).getD [] ++ [imageURL])),
            tap.effects ++ succeeded⟩
        else tap) := by
  cases hu : imageURLArray document.2 with
  | none => simp [appendLoop, appendURL, Appends, hu]
  | some urls =>
    cases ho : outcomes.setData document.1 with
    | none => simp [appendLoop, appendURL, Appends, finishWrite, Write.apply, hu, ho]
    | some error => simp [appendLoop, appendURL, Appends, finishWrite, hu, ho]

variable {outcomes stamp imageURL}

theorem appendLoop_no_alert (documents : List (ℕ × Doc)) {tap : Tap}
    (h : ∀ t m, Effect.alert t m ∉ tap.effects) (t m : String) :
    Effect.alert t m ∉ (appendLoop outcomes stamp imageURL documents tap).effects := by
  induction documents generalizing tap with
  | nil => exact h t m
  | cons document rest ih =>
    rw [appendLoop_cons]
    apply ih
    intro t m
    split
    · simp [succeeded, h t m]
    · exact h t m

theorem appendLoop_effects_mono (documents : List (ℕ × Doc)) (tap : Tap) :
    tap.effects ⊆ (appendLoop outcomes stamp imageURL documents tap).effects := by
  induction documents generalizing tap with
  | nil => exact List.Subset.refl _
  | cons document rest ih =>
    rw [appendLoop_cons]
    refine List.Subset.trans ?_ (ih _)
    split
    · exact List.subset_append_left _ _
    · exact List.Subset.refl _

theorem appendLoop_succeeds {documents : List (ℕ × Doc)} {tap : Tap}
    (some_append : ∃ document ∈ documents, Appends outcomes document) :
    succeeded ⊆ (appendLoop outcomes stamp imageURL documents tap).effects := by
  induction documents generalizing tap with
  | nil => obtain ⟨_, mem, _⟩ := some_append; cases mem
  | cons document rest ih =>
    rw [appendLoop_cons]
    by_cases here : Appends outcomes document
    · rw [if_pos here]
      refine List.Subset.trans ?_ (appendLoop_effects_mono rest _)
      exact List.subset_append_right _ _
    · obtain ⟨other, mem, hother⟩ := some_append
      rcases List.mem_cons.mp mem with rfl | mem
      · exact absurd hother here
      · exact ih ⟨other, mem, hother⟩

/-- Documents outside the list are not touched by the loop. -/
theorem appendLoop_field_of_notMem {documents : List (ℕ × Doc)} {id : ℕ}
    (notMem : id ∉ documents.map Prod.fst) (tap : Tap) (k : String) :
    (appendLoop outcomes stamp imageURL documents tap).snaps.field id k =
      tap.snaps.field id k := by
  induction documents generalizing tap with
  | nil => rfl
  | cons document rest ih =>
    rw [List.map_cons, List.mem_cons, not_or] at notMem
    rw [appendLoop_cons, ih notMem.2]
    split
    · exact Collection.field_merge_of_ne notMem.1 k
    · rfl

/-- The final array of a listed document is the one of its own round. -/
theorem appendLoop_field {documents : List (ℕ × Doc)}
    (nodup : (documents.map Prod.fst).Nodup) {document : ℕ × Doc}
    (mem : document ∈ documents) (tap : Tap) :
    (appendLoop outcomes stamp imageURL documents tap).snaps.field document.1
        "imageURLArray" =
      if Appends outcomes document then
        some (.strings ((imageURLArray document.2).getD [] ++ [imageURL]))
      else tap.snaps.field document.1 "imageURLArray" := by
  induction documents generalizing tap with
  | nil => cases mem
  | cons first rest ih =>
    rw [List.map_cons, List.nodup_cons] at nodup
    rw [appendLoop_cons]
    rcases List.mem_cons.mp mem with rfl | mem
    · rw [appendLoop_field_of_notMem nodup.1]
      split
      · exact Collection.field_merge_self (additionalDictionary_urls _) _
      · rfl
    · have other : document.1 ≠ first.1 := by
        intro same
        exact nodup.1 (same ▸ List.mem_map_of_mem mem)
      rw [ih nodup.2 mem]
      congr 1
      split
      · exact Collection.field_merge_of_ne other _
      · rfl

end Loop

/-- The URL is in all matching documents, or in the new one, and the success
action ran. -/
def Delivered (outcomes : Outcomes) (queryName buildName : String) (before : Store)
    (tap : Tap) : Prop :=
  ∃ imageURL, outcomes.downloadURL = .ok imageURL ∧ succeeded ⊆ tap.effects ∧
    if ownedBy before queryName = [] then
      tap.snaps.field before.nextId "imageURLArray" = some (.strings [imageURL]) ∧
      tap.snaps.field before.nextId "snapOwner" = some (.string buildName)
    else
      ∀ document ∈ ownedBy before queryName, ∃ urls,
        imageURLArray document.2 = some urls ∧
        tap.snaps.field document.1 "imageURLArray" = some (.strings (urls ++ [imageURL]))

/-- An alert was shown and no document changed. -/
def Refused (before : Store) (tap : Tap) : Prop :=
  (∃ title message, Effect.alert title message ∈ tap.effects) ∧
    ∀ id, tap.snaps.get? id = before.get? id

/-- The outcomes whose error path, if any, has an alert: either an early request
fails, or the URL arrives and every matching document takes its append. -/
def Reportable (outcomes : Outcomes) (documents : List (ℕ × Doc)) : Prop :=
  outcomes.putData ≠ none ∨
    (∃ imageURL, outcomes.downloadURL = .ok imageURL) ∧
      (outcomes.getDocuments ≠ none ∨ ∀ document ∈ documents, Appends outcomes document)

section Outcome
variable {outcomes : Outcomes} {queryName buildName : String} {before : Store} {stamp : ℤ}

theorem outcome_of_alert (error : String) :
    Xor (Delivered outcomes queryName buildName before ⟨before, makeAlert "Error" error⟩)
      (Refused before ⟨before, makeAlert "Error" error⟩) := by
  refine Or.inr ⟨⟨⟨"Error", error, List.mem_singleton.mpr rfl⟩, fun _ => rfl⟩, ?_⟩
  rintro ⟨_, _, success, _⟩
  simp [succeeded, makeAlert] at success

theorem outcome_of_silence :
    ¬ Xor (Delivered outcomes queryName buildName before ⟨before, []⟩)
      (Refused before ⟨before, []⟩) := by
  rintro (⟨⟨_, _, success, _⟩, _⟩ | ⟨⟨⟨_, _, alert⟩, _⟩, _⟩)
  · simp [succeeded] at success
  · cases alert

theorem outcome_of_create {imageURL : String} (url : outcomes.downloadURL = .ok imageURL)
    (none_owned : ownedBy before queryName = []) :
    let tap := finishWrite outcomes stamp ⟨before, []⟩ (.addDocument [imageURL] buildName)
    Xor (Delivered outcomes queryName buildName before tap) (Refused before tap) := by
  cases add : outcomes.addDocument with
  | some error =>
    simpa only [finishWrite, add, List.nil_append] using outcome_of_alert error
  | none =>
    refine Or.inl ⟨⟨imageURL, url, ?_, ?_⟩, ?_⟩
    · simp [finishWrite, add]
    · simp [none_owned, finishWrite, add, Write.apply, Collection.field_add]
    · rintro ⟨⟨_, _, alert⟩, _⟩
      simp [finishWrite, add, succeeded] at alert

/-- The append branch never alerts, so only a complete loop counts as an outcome. -/
theorem outcome_of_append {imageURL : String} (url : outcomes.downloadURL = .ok imageURL)
    (owned : ownedBy before queryName ≠ []) :
    let documents := ownedBy before queryName
    let tap := appendLoop outcomes stamp imageURL documents ⟨before, []⟩
    Xor (Delivered outcomes queryName buildName before tap) (Refused before tap) ↔
      ∀ document ∈ documents, Appends outcomes document := by
  intro documents tap
  have nodup : (documents.map Prod.fst).Nodup := Collection.query_ids_nodup _
  have quiet : ¬ Refused before tap := by
    rintro ⟨⟨t, m, alert⟩, _⟩
    exact appendLoop_no_alert documents (by simp) t m alert
  constructor
  · rintro (⟨⟨imageURL', url', _, stored⟩, _⟩ | ⟨refused, _⟩)
    · intro document mem
      rw [if_neg owned] at stored
      obtain ⟨urls, hurls, final⟩ := stored document mem
      by_contra missed
      rw [appendLoop_field nodup mem, if_neg missed] at final
      have unchanged := Collection.field_eq (mem_ownedBy.mp mem).1 "imageURLArray"
      rw [final, imageURLArray_eq_some.mp hurls] at unchanged
      simp at unchanged
    · exact absurd refused quiet
  · intro all
    refine Or.inl ⟨⟨imageURL, url, ?_, ?_⟩, quiet⟩
    · obtain ⟨document, mem⟩ := List.exists_mem_of_ne_nil _ owned
      exact appendLoop_succeeds ⟨document, mem, all document mem⟩
    · rw [if_neg owned]
      intro document mem
      obtain ⟨urls, hurls⟩ := Option.isSome_iff_exists.mp (all document mem).1
      refine ⟨urls, hurls, ?_⟩
      rw [appendLoop_field nodup mem, if_pos (all document mem), hurls]
      rfl

end Outcome

/-- A tap on a decodable image ends in exactly one of the two intended outcomes
if and only if the outcomes of its requests are reportable. -/
theorem uploadClicked_outcome_iff (outcomes : Outcomes) (queryName buildName : String)
    (stamp : ℤ) (before : Store) (decodable : outcomes.jpegData = true) :
    Xor (Delivered outcomes queryName buildName before
        (uploadClicked outcomes queryName buildName stamp before))
      (Refused before (uploadClicked outcomes queryName buildName stamp before)) ↔
    Reportable outcomes (ownedBy before queryName) := by
  simp only [uploadClicked, decodable, if_true, Reportable]
  cases put : outcomes.putData with
  | some error => simpa using outcome_of_alert error
  | none =>
    cases url : outcomes.downloadURL with
    | error message => simpa using outcome_of_silence
    | ok imageURL =>
      cases get : outcomes.getDocuments with
      | some error => simpa using outcome_of_alert error
      | none =>
        by_cases owned : ownedBy before queryName = []
        · simpa [owned, requestedWrites] using outcome_of_create url owned
        · have nonempty : (ownedBy before queryName).isEmpty = false := by simpa using owned
          simpa [requestedWrites, nonempty, appendLoop] using outcome_of_append url owned

/-- The image is stored but its download URL is not returned. -/
def urlUnavailable : Outcomes where
  jpegData := true
  putData := none
  downloadURL := .error "offline"
  getDocuments := none
  setData := fun _ => none
  addDocument := none

def allSucceed : Outcomes := { urlUnavailable with downloadURL := .ok "a" }

theorem first_uploadClicked_outcome :
    Xor (Delivered allSucceed "ada" "ada" .empty
        (uploadClicked allSucceed "ada" "ada" 0 .empty))
      (Refused .empty (uploadClicked allSucceed "ada" "ada" 0 .empty)) :=
  (uploadClicked_outcome_iff allSucceed "ada" "ada" 0 .empty rfl).mpr
    (Or.inr ⟨⟨"a", rfl⟩, Or.inr (by intro document mem; cases mem)⟩)

/-- Nobody is told that the upload came to nothing. -/
theorem unavailable_url_is_silent :
    ¬ ∀ (outcomes : Outcomes) (queryName buildName : String) (stamp : ℤ) (before : Store),
      outcomes.jpegData = true →
      Xor (Delivered outcomes queryName buildName before
          (uploadClicked outcomes queryName buildName stamp before))
        (Refused before (uploadClicked outcomes queryName buildName stamp before)) :=
  fun every => outcome_of_silence (every urlUnavailable "ada" "ada" 0 .empty rfl)

end SnapUpload
