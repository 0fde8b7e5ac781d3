import IosCourse.SnapExpiry
import Mathlib.Data.List.Perm.Basic

/-!
# Expired documents are removed for good

Whatever a device finds expired in a snapshot it asks the server to delete, once for
every snapshot in which it finds it. An answered deletion is final: an append that comes
later brings the images back into a document without a date, which no listener is sent,
and the server gives a new document an identifier of its own.
-/

namespace SnapCleanup

open DocumentCollection SnapDocuments SnapUpload SnapFeed SnapSystem SnapRaces SnapExpiry
open GuardedRuns

/-- The identifier is used up, and there is no date under it. -/
structure Gone (id : ℕ) (s : System) : Prop where
  issued : id < s.mySnaps.nextId
  undated : s.mySnaps.field id "date" = none

/-- The server has issued every identifier that travels to or from a listener. -/
structure IdsIssued (s : System) : Prop where
  sent : ∀ message ∈ s.snapshots, ∀ document ∈ message.2, document.1 < s.mySnaps.nextId
  asked : ∀ deletion ∈ s.deletes, deletion.2 < s.mySnaps.nextId

/-- The event is not a deletion that the server refuses. -/
def NotRefused : Event → Prop
  | .delete _ (some _) => False
  | _ => True

instance : (e : Event) → Decidable (NotRefused e)
  | .delete _ (some _) => .isFalse id
  | .delete _ none | .advance _ | .storeUser _ _ | .tap _ _ | .query _ | .answer _
  | .write _ _ _ | .emit _ | .callback _ _ | .listenerError _ _ => .isTrue trivial

variable {s : System} {e : Event} {id device : ℕ}

/-- Only a new document is given a date. -/
theorem gone_step (s : System) (e : Event) (h : Gone id s) : Gone id (step s e) := by
  refine ⟨lt_of_lt_of_le h.issued (nextId_le_step s e), ?_⟩
  cases storeStep s e with
  | wrote w applies result =>
    rw [result]
    cases w with
    | setData i urls =>
      rw [Write.apply, field_merge_additional _ _ _ _ (by decide)]
      exact h.undated
    | addDocument urls owner =>
      rw [Write.apply, Collection.field_add, if_neg h.issued.ne]
      exact h.undated
  | deleted i quiet removes result =>
    rw [result, Collection.field_delete]
    split
    · rfl
    · exact h.undated
  | kept quiet result =>
    rw [result]
    exact h.undated

theorem not_sent_of_gone (h : Gone id s) (d : Doc) : (id, d) ∉ orderByDate s.mySnaps := by
  intro sent
  obtain ⟨found, dated⟩ := mem_orderByDate.mp sent
  rw [← Collection.field_eq found, h.undated] at dated
  cases dated

theorem idsIssued_start (mySnaps : Store) (clock : ℤ) (users : ℕ → UserSingleton) :
    IdsIssued (start mySnaps clock users) :=
  ⟨fun _ mem => absurd mem List.not_mem_nil, fun _ mem => absurd mem List.not_mem_nil⟩

theorem idsIssued_step (s : System) (e : Event) (h : IdsIssued s) : IdsIssued (step s e) := by
  have grown := nextId_le_step s e
  constructor
  · intro message mem document inMessage
    rcases snapshots_step mem with old | ⟨_, new⟩
    · exact lt_of_lt_of_le (h.sent message old document inMessage) grown
    · rw [new] at inMessage
      exact lt_of_lt_of_le (Collection.lt_nextId (mem_orderByDate.mp inMessage).1) grown
  · rintro ⟨device, id⟩ mem
    rcases deletes_step mem with old | ⟨index, now, documents, rfl, present, requested⟩
    · exact lt_of_lt_of_le (h.asked _ old) grown
    · obtain ⟨_, d, _, _, _, inMessage, _⟩ := mem_deletes.mp requested
      exact lt_of_lt_of_le (h.sent _ (List.mem_of_getElem? present) _ inMessage) grown

theorem gone_of_removed (h : IdsIssued s) (removes : removed s e = some id) :
    Gone id (step s e) := by
  obtain ⟨device, asked⟩ := mem_deletes_of_removed removes
  refine ⟨lt_of_lt_of_le (h.asked _ asked) (nextId_le_step s e), ?_⟩
  rw [mySnaps_of_removed removes, Collection.field_delete, if_pos rfl]

/-- A deletion stays under way until the server answers it. -/
theorem pending_step (asked : (device, id) ∈ s.deletes) (granted : NotRefused e) :
    (device, id) ∈ (step s e).deletes ∨ removed s e = some id := by
  cases e with
  | write flow index ok => exact .inl ((write_frame s flow index ok).deletes ▸ asked)
  | callback index now =>
    simp only [step]
    split
    · exact .inl asked
    · exact .inl (List.mem_append_left _ asked)
  | delete index error =>
    cases error with
    | some message => cases granted
    | none =>
      cases found : s.deletes[index]? with
      | none => exact .inl (by simpa [step, found] using asked)
      | some deletion =>
        obtain ⟨inside, rfl⟩ := List.getElem?_eq_some_iff.mp found
        have split := (List.getElem_cons_eraseIdx_perm inside).mem_iff.mpr asked
        rcases List.mem_cons.mp split with this_one | other
        · exact .inr (by simp [removed, found, ← this_one])
        · exact .inl (by simpa [step, found] using other)
  | _ => exact .inl asked

/-- Along a run without refusals a requested deletion is under way or done. -/
theorem pending_or_gone (issued : IdsIssued s) (asked : (device, id) ∈ s.deletes)
    {es : List Event} (granted : Always step (fun _ e _ => NotRefused e) s es) :
    (device, id) ∈ (run step s es).deletes ∨ Gone id (run step s es) := by
  refine (@invariant_run _ _ step
    (fun s => IdsIssued s ∧ ((device, id) ∈ s.deletes ∨ Gone id s)) (fun _ e => NotRefused e)
    (fun s e h ok => ⟨idsIssued_step s e h.1, ?_⟩) s es ⟨issued, .inl asked⟩ granted).2
  rcases h.2 with waiting | done
  · rcases pending_step waiting ok with still | removes
    · exact .inl still
    · exact .inr (gone_of_removed h.1 removes)
  · exact .inr (gone_step s e done)

theorem asked_of_callback {index : ℕ} {now : ℕ → ℤ} {documents : List (ℕ × Doc)}
    (present : s.snapshots[index]? = some (device, documents))
    (expired : id ∈ (getSnapsFromFirebase none documents now (s.feeds device)).2) :
    (device, id) ∈ (step s (.callback index now)).deletes := by
  simp only [step, present]
  exact List.mem_append_right _ (List.mem_map.mpr ⟨id, expired, rfl⟩)

/-- A device examines a snapshot and finds a document expired. However the run goes on,
if the server refuses no deletion and the one requested here is no longer under way,
then the document is in no later snapshot. -/
theorem expired_removed_for_good (mySnaps : Store) (clock : ℤ) (users : ℕ → UserSingleton)
    (es : List Event) {index : ℕ} {now : ℕ → ℤ} {documents : List (ℕ × Doc)} {d : Doc}
    {username : String} {urls : List String} {t : ℤ}
    (present : (run step (start mySnaps clock users) es).snapshots[index]? =
      some (device, documents))
    (examined : (id, d) ∈ documents) (fields : castFields d = some (username, urls, t))
    (expired : t + day ≤ now id) (later : List Event)
    (granted : ∀ e ∈ later, NotRefused e)
    (answered : (device, id) ∉ (run step (start mySnaps clock users)
      (es ++ .callback index now :: later)).deletes) :
    ∀ (more : List Event) (d : Doc), (id, d) ∉ orderByDate (run step (start mySnaps clock users)
      (es ++ .callback index now :: (later ++ more))).mySnaps := by
  intro more document
  have issued : IdsIssued (run step (start mySnaps clock users) es) :=
    invariant_free_run idsIssued_step (idsIssued_start mySnaps clock users) es
  have asked := asked_of_callback present
    (mem_deletes.mpr ⟨rfl, d, username, urls, t, examined, fields, expired⟩)
  rw [run_append, run_cons] at answered ⊢
  have gone := (pending_or_gone (idsIssued_step _ _ issued) asked
    (always_of_mem step granted _)).resolve_left answered
  rw [run_append]
  exact not_sent_of_gone (invariant_free_run gone_step gone more) document

/-- The first upload of a user, and a snapshot that is examined a day later. -/
def uploadedADayAgo : List Event :=
  wholeUpload 0 0 "a" ++ [.advance 86400000000000, .emit 0]

/-- The document is deleted while a second upload is about to append to it. -/
theorem first_upload_removed_for_good :
    (0, snapDictionary ["a"] "ada" 0) ∉ orderByDate
      (run step (start .empty 0 (signedInAs "ada"))
        (uploadedADayAgo ++ .callback 0 (fun _ => 86400000000000) ::
          ([.tap 0 "b", .query 1, .delete 0 none, .answer 1, .write 1 0 true] ++
            [.emit 1]))).mySnaps := by
  have present : (run step (start .empty 0 (signedInAs "ada")) uploadedADayAgo).snapshots[0]? =
      some (0, [(0, snapDictionary ["a"] "ada" 0)]) := rfl
  have examined : (0, snapDictionary ["a"] "ada" 0) ∈ [(0, snapDictionary ["a"] "ada" 0)] :=
    List.mem_singleton.mpr rfl
  exact expired_removed_for_good .empty 0 (signedInAs "ada") uploadedADayAgo present examined rfl
    (by decide) _ (by decide) (by decide) [.emit 1] _

end SnapCleanup
