import IosCourse.GuardedRuns
import IosCourse.SnapDocuments

/-!
# The feed of SnapchatClone

`FeedVC.getSnapsFromFirebase` rebuilds the rows of the feed in every callback of
a snapshot listener and asks the server to delete what it finds expired. The
device clock is read once for each document, so a callback carries a reading for
every identifier. The state that survives from one callback to the next is part
of the model: a callback with an empty snapshot leaves it alone.
-/

namespace SnapFeed

open DocumentCollection SnapDocuments GuardedRuns

structure Snap where
  username : String
  imageURLArray : List String
  date : ℤ
  timeDifference : ℤ
  deriving DecidableEq

/-- `rows` is the row count that the table view was last given. -/
structure FeedVC where
  snapArray : List Snap
  rows : ℕ
  alerts : List (String × String)
  deriving DecidableEq

/-- The feed when its screen is loaded. -/
def FeedVC.loaded : FeedVC := ⟨[], 0, []⟩

def FeedVC.makeAlert (title message : String) (feed : FeedVC) : FeedVC :=
  { feed with alerts := feed.alerts ++ [(title, message)] }

/-- One round of the loop: the rows so far and the deletions requested so far. -/
def visit (now : ℕ → ℤ) (acc : List Snap × List ℕ) (document : ℕ × Doc) :
    List Snap × List ℕ :=
  match snapOwner document.2 with
  | none => acc
  | some username =>
    match imageURLArray document.2 with
    | none => acc
    | some urls =>
      match date document.2 with
      | none => acc
      | some date =>
        let difference := hoursBetween date (now document.1)
        if 24 ≤ difference then (acc.1, acc.2 ++ [document.1])
        else (acc.1 ++ [⟨username, urls, date, 24 - difference⟩], acc.2)

/-- The listener's callback: the new state of the screen and the identifiers of
the documents whose deletion it requests. -/
def getSnapsFromFirebase (error : Option String) (documents : List (ℕ × Doc))
    (now : ℕ → ℤ) (feed : FeedVC) : FeedVC × List ℕ :=
  match error with
  | some message => (feed.makeAlert "Error" message, [])
  | none =>
    if documents.isEmpty = false then
      let visited := documents.foldl (visit now) ([], [])
      ({ feed with snapArray := visited.1, rows := visited.1.length }, visited.2)
    else (feed, [])

/-- The fields of a document that passes all three casts. -/
def castFields (d : Doc) : Option (String × List String × ℤ) := do
  let username ← snapOwner d
  let urls ← imageURLArray d
  let date ← date d
  return (username, urls, date)

/-- The row of a document that is younger than 24 whole hours. -/
def liveSnap (now : ℕ → ℤ) (document : ℕ × Doc) : Option Snap :=
  (castFields document.2).bind fun (username, urls, date) =>
    if hoursBetween date (now document.1) < 24 then
      some ⟨username, urls, date, 24 - hoursBetween date (now document.1)⟩
    else none

/-- The identifier of a document that is 24 whole hours old or older. -/
def expiredId (now : ℕ → ℤ) (document : ℕ × Doc) : Option ℕ :=
  (castFields document.2).bind fun (_, _, date) =>
    if hoursBetween date (now document.1) < 24 then none else some document.1

theorem castFields_eq_some {d : Doc} {username : String} {urls : List String} {t : ℤ} :
    castFields d = some (username, urls, t) ↔
      snapOwner d = some username ∧ imageURLArray d = some urls ∧ date d = some t := by
  cases hu : snapOwner d <;> cases hi : imageURLArray d <;> cases ht : date d <;>
    simp [castFields, hu, hi, ht]

theorem liveSnap_eq_some {now : ℕ → ℤ} {document : ℕ × Doc} {snap : Snap} :
    liveSnap now document = some snap ↔
      castFields document.2 = some (snap.username, snap.imageURLArray, snap.date) ∧
      hoursBetween snap.date (now document.1) < 24 ∧
      snap.timeDifference = 24 - hoursBetween snap.date (now document.1) := by
  obtain ⟨username, urls, date, left⟩ := snap
  rw [liveSnap, Option.bind_eq_some_iff]
  constructor
  · rintro ⟨⟨username', urls', date'⟩, fields, h⟩
    simp only [Option.ite_none_right_eq_some, Option.some.injEq, Snap.mk.injEq] at h
    obtain ⟨young, rfl, rfl, rfl, rfl⟩ := h
    exact ⟨fields, young, rfl⟩
  · rintro ⟨fields, young, remaining⟩
    dsimp only at remaining
    subst remaining
    exact ⟨_, fields, if_pos young⟩

theorem expiredId_eq_some {now : ℕ → ℤ} {document : ℕ × Doc} {id : ℕ} :
    expiredId now document = some id ↔ id = document.1 ∧
      ∃ username urls t, castFields document.2 = some (username, urls, t) ∧
        t + day ≤ now id := by
  rw [expiredId, Option.bind_eq_some_iff]
  constructor
  · rintro ⟨⟨username, urls, date⟩, fields, h⟩
    simp only [Option.ite_none_left_eq_some, Option.some.injEq, not_lt] at h
    obtain ⟨old, rfl⟩ := h
    exact ⟨rfl, username, urls, date, fields, expired_iff.mp old⟩
  · rintro ⟨rfl, username, urls, date, fields, old⟩
    exact ⟨_, fields, if_neg (not_lt.mpr (expired_iff.mpr old))⟩

theorem visit_eq (now : ℕ → ℤ) (acc : List Snap × List ℕ) (document : ℕ × Doc) :
    visit now acc document =
      (acc.1 ++ (liveSnap now document).toList, acc.2 ++ (expiredId now document).toList) := by
  cases hu : snapOwner document.2 with
  | none => simp [visit, liveSnap, expiredId, castFields, hu]
  | some username =>
    cases hi : imageURLArray document.2 with
    | none => simp [visit, liveSnap, expiredId, castFields, hu, hi]
    | some urls =>
      cases ht : date document.2 with
      | none => simp [visit, liveSnap, expiredId, castFields, hu, hi, ht]
      | some date =>
        by_cases young : hoursBetween date (now document.1) < 24
        · have live : ¬ 24 ≤ hoursBetween date (now document.1) := by omega
          simp [visit, liveSnap, expiredId, castFields, hu, hi, ht, young, live]
        · have old : 24 ≤ hoursBetween date (now document.1) := by omega
          simp [visit, liveSnap, expiredId, castFields, hu, hi, ht, young, old]

theorem foldl_visit (now : ℕ → ℤ) (documents : List (ℕ × Doc)) (acc : List Snap × List ℕ) :
    documents.foldl (visit now) acc =
      (acc.1 ++ documents.filterMap (liveSnap now),
        acc.2 ++ documents.filterMap (expiredId now)) := by
  induction documents generalizing acc with
  | nil => simp
  | cons document rest ih =>
    rw [List.foldl_cons, ih, visit_eq, List.filterMap_cons, List.filterMap_cons]
    cases liveSnap now document <;> cases expiredId now document <;> simp

theorem getSnaps_of_ne_nil {documents : List (ℕ × Doc)} (nonempty : documents ≠ [])
    (now : ℕ → ℤ) (feed : FeedVC) :
    getSnapsFromFirebase none documents now feed =
      ({ feed with
          snapArray := documents.filterMap (liveSnap now)
          rows := (documents.filterMap (liveSnap now)).length },
        documents.filterMap (expiredId now)) := by
  have h : documents.isEmpty = false := by simpa using nonempty
  simp [getSnapsFromFirebase, h, foldl_visit]

@[simp] theorem getSnaps_nil (now : ℕ → ℤ) (feed : FeedVC) :
    getSnapsFromFirebase none [] now feed = (feed, []) := rfl

/-- Exactly the expired documents of the snapshot are marked for deletion. -/
theorem mem_deletes {error : Option String} {documents : List (ℕ × Doc)} {now : ℕ → ℤ}
    {feed : FeedVC} {id : ℕ} :
    id ∈ (getSnapsFromFirebase error documents now feed).2 ↔ error = none ∧
      ∃ d username urls t, (id, d) ∈ documents ∧
        castFields d = some (username, urls, t) ∧ t + day ≤ now id := by
  cases error with
  | some message => simp [getSnapsFromFirebase]
  | none =>
    by_cases empty : documents = []
    · simp [empty]
    · rw [getSnaps_of_ne_nil empty]
      simp only [List.mem_filterMap, expiredId_eq_some, true_and]
      constructor
      · rintro ⟨⟨i, d⟩, mem, rfl, username, urls, t, fields, old⟩
        exact ⟨d, username, urls, t, mem, fields, old⟩
      · rintro ⟨d, username, urls, t, mem, fields, old⟩
        exact ⟨(id, d), mem, rfl, username, urls, t, fields, old⟩

/-- What a row must agree with: the fields of a document younger than a day. -/
def liveFields (now : ℕ → ℤ) (document : ℕ × Doc) : Option (String × List String × ℤ) :=
  (castFields document.2).bind fun fields =>
    if hoursBetween fields.2.2 (now document.1) < 24 then some fields else none

def Snap.fields (snap : Snap) : String × List String × ℤ :=
  (snap.username, snap.imageURLArray, snap.date)

/-- The rows are the live documents of this snapshot, in its order, and each
shows a remaining time between 1 and 24 hours. -/
def FeedMatches (now : ℕ → ℤ) (documents : List (ℕ × Doc)) (snapArray : List Snap) : Prop :=
  snapArray.map Snap.fields = documents.filterMap (liveFields now) ∧
    ∀ snap ∈ snapArray, 1 ≤ snap.timeDifference ∧ snap.timeDifference ≤ 24

/-- A snapshot replaces the rows unless it is empty, and no document that passes
the casts is dated an hour or more after the device clock. -/
def Regular (now : ℕ → ℤ) (documents : List (ℕ × Doc)) (snapArray : List Snap) : Prop :=
  (documents = [] → snapArray = []) ∧
    ∀ document ∈ documents, ∀ fields, castFields document.2 = some fields →
      fields.2.2 - hour < now document.1

theorem liveSnap_map_fields (now : ℕ → ℤ) (document : ℕ × Doc) :
    (liveSnap now document).map Snap.fields = liveFields now document := by
  cases h : castFields document.2 with
  | none => simp [liveSnap, liveFields, h]
  | some fields =>
    by_cases young : hoursBetween fields.2.2 (now document.1) < 24
    · simp [liveSnap, liveFields, h, young, Snap.fields]
    · simp [liveSnap, liveFields, h, young]

theorem filterMap_liveSnap_fields (now : ℕ → ℤ) (documents : List (ℕ × Doc)) :
    (documents.filterMap (liveSnap now)).map Snap.fields =
      documents.filterMap (liveFields now) := by
  rw [List.map_filterMap]
  exact congrArg (documents.filterMap ·) (funext fun d => liveSnap_map_fields now d)

/-- The remaining time of every row is in range exactly when no row is dated too
far ahead of the device clock; an expired document is never ahead of it. -/
theorem timeDifferences_in_range_iff (now : ℕ → ℤ) (documents : List (ℕ × Doc)) :
    (∀ snap ∈ documents.filterMap (liveSnap now),
      1 ≤ snap.timeDifference ∧ snap.timeDifference ≤ 24) ↔
    ∀ document ∈ documents, ∀ fields, castFields document.2 = some fields →
      fields.2.2 - hour < now document.1 := by
  constructor
  · rintro inRange document mem ⟨username, urls, date⟩ fields
    rw [← hoursBetween_nonneg_iff]
    by_cases young : hoursBetween date (now document.1) < 24
    · have row := inRange ⟨username, urls, date, 24 - hoursBetween date (now document.1)⟩
        (List.mem_filterMap.mpr ⟨document, mem, liveSnap_eq_some.mpr ⟨fields, young, rfl⟩⟩)
      have := row.2
      dsimp only at this ⊢
      omega
    · dsimp only
      omega
  · intro punctual snap mem
    obtain ⟨document, hdocument, row⟩ := List.mem_filterMap.mp mem
    obtain ⟨fields, young, left⟩ := liveSnap_eq_some.mp row
    have := hoursBetween_nonneg_iff.mpr (punctual document hdocument _ fields)
    dsimp only at this
    omega

theorem callback_matches_iff (now : ℕ → ℤ) (documents : List (ℕ × Doc)) (feed : FeedVC) :
    FeedMatches now documents (getSnapsFromFirebase none documents now feed).1.snapArray ↔
      Regular now documents feed.snapArray := by
  by_cases empty : documents = []
  · subst empty
    rw [getSnaps_nil]
    constructor
    · rintro ⟨rows, _⟩
      exact ⟨fun _ => by simpa using rows, by simp⟩
    · rintro ⟨cleared, _⟩
      simp [FeedMatches, cleared rfl]
  · rw [getSnaps_of_ne_nil empty, FeedMatches, Regular, filterMap_liveSnap_fields,
      timeDifferences_in_range_iff]
    simp [empty]

/-- A callback without an error. -/
structure Callback where
  documents : List (ℕ × Doc)
  now : ℕ → ℤ

def onCallback (feed : FeedVC) (callback : Callback) : FeedVC :=
  (getSnapsFromFirebase none callback.documents callback.now feed).1

/-- After every callback of a run the rows are the live documents of its snapshot
exactly when every callback of the run is regular for the rows it finds. -/
theorem feed_matches_always_iff (feed : FeedVC) (callbacks : List Callback) :
    Always onCallback (fun _ callback after =>
        FeedMatches callback.now callback.documents after.snapArray) feed callbacks ↔
      Always onCallback (fun before callback _ =>
        Regular callback.now callback.documents before.snapArray) feed callbacks :=
  always_congr onCallback
    (fun before callback => callback_matches_iff callback.now callback.documents before)
    feed callbacks

/-- The last document was deleted, so the second snapshot is empty: its row stays. -/
theorem feed_keeps_row_of_deleted_document :
    ¬ Always onCallback (fun _ callback after =>
        FeedMatches callback.now callback.documents after.snapArray) .loaded
      [⟨[(0, snapDictionary ["u"] "ada" 0)], fun _ => 0⟩, ⟨[], fun _ => 0⟩] := by
  rintro ⟨_, ⟨rows, _⟩, _⟩
  exact absurd rows (by decide)

end SnapFeed
