import IosCourse.SnapSequential

/-!
# Expiry of documents

The date of a document comes from the server's clock, the age of a document is
computed with the clock of the device that shows it, and every device may delete
every document. An append keeps the date, so all images of a document expire
together. Deletions travel to the server like any other request; the results
below follow a date from the store through the snapshots to the deletions.
-/

namespace SnapExpiry

open DocumentCollection SnapDocuments SnapUpload SnapFeed SnapSystem SnapRaces
open SnapSequential GuardedRuns

/-- While it examines a snapshot, each device reads a clock that is ahead of the
server's by its own constant `skew`, or behind where that is negative. -/
def ReadsClock (skew : ℕ → ℤ) (s : System) : Event → Prop
  | .callback index now =>
    match s.snapshots[index]? with
    | none => True
    | some (device, documents) =>
      ∀ document ∈ documents, now document.1 = s.clock + skew device
  | _ => True

instance (skew : ℕ → ℤ) (s : System) : (e : Event) → Decidable (ReadsClock skew s e)
  | .callback index now => by
    unfold ReadsClock
    dsimp only
    split <;> infer_instance
  | .advance _ | .storeUser _ _ | .tap _ _ | .query _ | .answer _ | .write _ _ _ | .emit _
  | .listenerError _ _ | .delete _ _ => .isTrue trivial

/-- Whatever a callback asks to delete is dated at least a day before the
server's present time. -/
def DeletesOnlyExpired (s : System) : Event → Prop
  | .callback index now =>
    match s.snapshots[index]? with
    | none => True
    | some (device, documents) =>
      ∀ id ∈ (getSnapsFromFirebase none documents now (s.feeds device)).2,
        ∃ d t, (id, d) ∈ documents ∧ date d = some t ∧ t + day ≤ s.clock
  | _ => True

theorem deletesOnlyExpired_of_not_ahead {skew : ℕ → ℤ} (behind : ∀ device, skew device ≤ 0)
    (s : System) (e : Event) (reads : ReadsClock skew s e) : DeletesOnlyExpired s e := by
  cases e with
  | callback index now =>
    unfold DeletesOnlyExpired
    unfold ReadsClock at reads
    dsimp only at reads ⊢
    split at reads
    · trivial
    · rename_i device documents _
      intro id mem
      obtain ⟨_, d, username, urls, t, hd, fields, old⟩ := mem_deletes.mp mem
      refine ⟨d, t, hd, (castFields_eq_some.mp fields).2.2, ?_⟩
      have reading : now id = s.clock + skew device := reads (id, d) hd
      have := behind device
      omega
  | _ => trivial

/-- One upload, and a snapshot that reaches the device just before a day is over. -/
def almostADayLater (device : ℕ) : List Event :=
  wholeUpload device 0 "a" ++ [.advance 86399999999999, .emit device]

theorem almostADayLater_snapshots (device : ℕ) :
    (run step (start .empty 0 (signedInAs "ada")) (almostADayLater device)).snapshots =
      [(device, [(0, snapDictionary ["a"] "ada" 0)])] := rfl

theorem almostADayLater_clock (device : ℕ) :
    (run step (start .empty 0 (signedInAs "ada")) (almostADayLater device)).clock =
      day - 1 := rfl

/-- A device that is ahead by any amount deletes a document too early. -/
theorem premature_of_ahead {skew : ℕ → ℤ} {device : ℕ} (ahead : 0 < skew device) :
    let s := run step (start .empty 0 (signedInAs "ada")) (almostADayLater device)
    ¬ DeletesOnlyExpired s (.callback 0 fun _ => s.clock + skew device) := by
  intro s only
  unfold DeletesOnlyExpired at only
  dsimp only at only
  rw [show s.snapshots = _ from almostADayLater_snapshots device] at only
  have clock : s.clock = day - 1 := almostADayLater_clock device
  obtain ⟨d, t, mem, dated, old⟩ := only 0 (mem_deletes.mpr
    ⟨rfl, _, "ada", ["a"], 0, List.mem_singleton.mpr rfl, rfl, by omega⟩)
  obtain rfl : d = snapDictionary ["a"] "ada" 0 := by simpa using mem
  rw [date_eq_some, snapDictionary_date] at dated
  cases dated
  omega

/-- No run ever issues a premature deletion exactly when no device is ahead. -/
theorem no_premature_delete_iff (skew : ℕ → ℤ) :
    (∀ (mySnaps : Store) (clock : ℤ) (users : ℕ → UserSingleton) (es : List Event),
      Always step (fun s e _ => ReadsClock skew s e) (start mySnaps clock users) es →
      Always step (fun s e _ => DeletesOnlyExpired s e) (start mySnaps clock users) es) ↔
    ∀ device, skew device ≤ 0 := by
  constructor
  · intro never device
    by_contra ahead
    let s := run step (start .empty 0 (signedInAs "ada")) (almostADayLater device)
    have reads : Always step (fun s e _ => ReadsClock skew s e)
        (start .empty 0 (signedInAs "ada"))
        (almostADayLater device ++ [.callback 0 fun _ => s.clock + skew device]) := by
      rw [always_append]
      refine ⟨⟨trivial, trivial, trivial, trivial, trivial, trivial, trivial⟩, ?_, trivial⟩
      intro document _
      rfl
    have only := never _ _ _ _ reads
    rw [always_append] at only
    exact premature_of_ahead (not_le.mp ahead) only.2.1
  · intro behind mySnaps clock users es reads
    exact always_mono step (fun s e _ => deletesOnlyExpired_of_not_ahead behind s e) reads

/-- A device whose clock is an hour fast deletes a document that is not a day old. -/
theorem fast_clock_deletes_early :
    ¬ ∀ (mySnaps : Store) (clock : ℤ) (users : ℕ → UserSingleton) (es : List Event),
      Always step (fun s e _ => DeletesOnlyExpired s e) (start mySnaps clock users) es := by
  intro every
  have only := every .empty 0 (signedInAs "ada")
    (almostADayLater 0 ++ [.callback 0 fun _ => day - 1 + hour])
  rw [always_append] at only
  exact @premature_of_ahead (fun _ => hour) 0 (by decide) only.2.1

def dateAt (snaps : Store) (id : ℕ) : Option ℤ :=
  (snaps.field id "date").bind Value.asTimestamp

/-- The document that a write is about to change or create. -/
def target (snaps : Store) : Write → ℕ
  | .setData id _ => id
  | .addDocument _ _ => snaps.nextId

theorem dateAt_of_get? {snaps : Store} {id : ℕ} {d : Doc} (h : snaps.get? id = some d) :
    dateAt snaps id = date d := by
  rw [dateAt, Collection.field_eq h, date]

theorem dateAt_merge (snaps : Store) (id i : ℕ) (urls : List String) :
    dateAt (snaps.merge id (additionalDictionary urls)) i = dateAt snaps i := by
  rw [dateAt, field_merge_additional _ _ _ _ (by decide), dateAt]

theorem dateAt_add (snaps : Store) (urls : List String) (owner : String) (stamp : ℤ) (i : ℕ) :
    dateAt (snaps.add (snapDictionary urls owner stamp)) i =
      if i = snaps.nextId then some stamp else dateAt snaps i := by
  rw [dateAt, Collection.field_add]
  split
  · rfl
  · rfl

theorem dateAt_delete (snaps : Store) (id i : ℕ) :
    dateAt (snaps.delete id) i = if i = id then none else dateAt snaps i := by
  rw [dateAt, Collection.field_delete]
  split
  · rfl
  · rfl

/-- Wherever a date of the document is found, it is `stamp`, and a deletion of
the document is under way only once a day has passed since. -/
structure Dated (id : ℕ) (stamp : Option ℤ) (s : System) : Prop where
  issued : id < s.mySnaps.nextId
  stored : ∀ t, dateAt s.mySnaps id = some t → stamp = some t
  sent : ∀ message ∈ s.snapshots, ∀ d, (id, d) ∈ message.2 →
    ∀ t, date d = some t → stamp = some t
  due : ∀ device, (device, id) ∈ s.deletes → ∃ t, stamp = some t ∧ t + day ≤ s.clock

theorem dated_store_step {id : ℕ} {stamp : Option ℤ} {s : System} (h : Dated id stamp s)
    (e : Event) : id < (step s e).mySnaps.nextId ∧
      ∀ t, dateAt (step s e).mySnaps id = some t → stamp = some t := by
  have issued := h.issued
  cases storeStep s e with
  | wrote w applies result =>
    rw [result]
    cases w with
    | setData i urls =>
      refine ⟨lt_of_lt_of_le issued (le_max_left _ _), ?_⟩
      rw [Write.apply, dateAt_merge]
      exact h.stored
    | addDocument urls owner =>
      refine ⟨Nat.lt_succ_of_lt issued, ?_⟩
      rw [Write.apply, dateAt_add, if_neg issued.ne]
      exact h.stored
  | deleted i quiet removes result =>
    rw [result]
    refine ⟨issued, ?_⟩
    rw [dateAt_delete]
    intro t dated
    exact h.stored t (Option.ite_none_left_eq_some.mp dated).2
  | kept quiet result =>
    rw [result]
    exact ⟨issued, h.stored⟩

theorem dated_step {id : ℕ} {stamp : Option ℤ} (s : System) (e : Event)
    (h : Dated id stamp s) (agree : ReadsClock (fun _ => 0) s e) :
    Dated id stamp (step s e) := by
  obtain ⟨issued, stored⟩ := dated_store_step h e
  refine ⟨issued, stored, ?_, ?_⟩
  · intro message mem d hd t dated
    rcases snapshots_step mem with old | ⟨_, new⟩
    · exact h.sent message old d hd t dated
    · rw [new, mem_orderByDate] at hd
      exact h.stored t (by rw [dateAt_of_get? hd.1, dated])
  · intro device mem
    rcases deletes_step mem with old | ⟨index, now, documents, rfl, present, issuedNow⟩
    · obtain ⟨t, dated, passed⟩ := h.due device old
      exact ⟨t, dated, le_trans passed (clock_le_step s e)⟩
    · obtain ⟨_, d, username, urls, t, hd, fields, old⟩ := mem_deletes.mp issuedNow
      rw [ReadsClock, present] at agree
      have reading : now id = s.clock + 0 := agree (id, d) hd
      have later := clock_le_step s (.callback index now)
      exact ⟨t, h.sent _ (List.mem_of_getElem? present) d hd t
        (castFields_eq_some.mp fields).2.2, by omega⟩

/-- The date of the document that a write reaches: the one it had, unless the
write creates the document. -/
def dateAfter (snaps : Store) (now : ℤ) : Write → Option ℤ
  | .setData id _ => dateAt snaps id
  | .addDocument _ _ => some now

theorem dateAt_applied (snaps : Store) (stamp : ℤ) (w : Write) :
    dateAt (w.apply stamp snaps) (target snaps w) = dateAfter snaps stamp w := by
  cases w with
  | setData id urls => exact dateAt_merge snaps id id urls
  | addDocument urls owner => exact (dateAt_add snaps urls owner stamp _).trans (if_pos rfl)

theorem currentURLs_applied (snaps : Store) (stamp : ℤ) (w : Write) :
    currentURLs (w.apply stamp snaps) (target snaps w) = urlsOf w := by
  cases w with
  | setData id urls => exact currentURLs_merge_self snaps id urls
  | addDocument urls owner =>
    simp [Write.apply, target, urlsOf, currentURLs, Collection.field_add, Value.asStringArray]

/-- Right after a write is applied with nothing under way to or from a listener,
the date of its document is settled. -/
theorem dated_of_applied {s : System} {n index : ℕ} {w : Write}
    (next : nextWrite s n index = some w) (noSnapshot : s.snapshots = [])
    (noDelete : s.deletes = []) :
    Dated (target s.mySnaps w) (dateAt (w.apply s.clock s.mySnaps) (target s.mySnaps w))
      (step s (.write n index true)) := by
  have stored : (step s (.write n index true)).mySnaps = w.apply s.clock s.mySnaps :=
    mySnaps_of_applied next
  have snapshots : (step s (.write n index true)).snapshots = [] := by
    simpa only [step, next] using noSnapshot
  have deletes : (step s (.write n index true)).deletes = [] := by
    simpa only [step, next] using noDelete
  refine ⟨?_, fun t dated => stored ▸ dated, ?_, ?_⟩
  · rw [stored]
    cases w <;> simp [Write.apply, target]
  · simp [snapshots]
  · simp [deletes]

theorem mem_deletes_of_removed {s : System} {e : Event} {id : ℕ} (h : removed s e = some id) :
    ∃ device, (device, id) ∈ s.deletes := by
  cases e with
  | delete index error =>
    cases error with
    | some message => cases h
    | none =>
      obtain ⟨⟨device, _⟩, present, rfl⟩ := Option.map_eq_some_iff.mp h
      exact ⟨device, List.mem_of_getElem? present⟩
  | _ => cases h

/-- A document that is not deleted keeps an image through merges that are up to date. -/
theorem url_kept {id : ℕ} {url : String} {s : System} {es : List Event}
    (held : url ∈ currentURLs s.mySnaps id)
    (kept : Always step (fun s e _ => removed s e ≠ some id) s es)
    (upToDate : Always step (fun s e _ => UpToDate s e) s es) :
    url ∈ currentURLs (run step s es).mySnaps id :=
  @invariant_run _ _ step (fun s => url ∈ currentURLs s.mySnaps id)
    (fun s e => removed s e ≠ some id ∧ UpToDate s e)
    (fun _ _ mem keeps => currentURLs_step keeps.1 keeps.2 mem) s es held
    ((always_and _ _ _).mpr ⟨kept, upToDate⟩)

/-- Let the clocks agree, and let no snapshot or deletion be under way when a write
of an upload is applied. The document it reaches holds the image. If the uploads of the
run are made one after the other, later ones keep the image there. The document is
deleted later only if it has a date, and not before a day has passed since that date:
the time of the write if it created the document, else the date the document had. -/
theorem image_lifetime (mySnaps : Store) (clock : ℤ) (users : ℕ → UserSingleton)
    (before : List Event) (n index : ℕ) (f : Flow) (w : Write)
    (flow : (run step (start mySnaps clock users) before).flows[n]? = some f)
    (next : nextWrite (run step (start mySnaps clock users) before) n index = some w)
    (noSnapshot : (run step (start mySnaps clock users) before).snapshots = [])
    (noDelete : (run step (start mySnaps clock users) before).deletes = [])
    (after : List Event)
    (agree : Always step (fun s e _ => ReadsClock (fun _ => 0) s e)
      (run step (start mySnaps clock users) (before ++ [.write n index true])) after) :
    let s := run step (start mySnaps clock users) before
    let stored := step s (.write n index true)
    let later := run step stored after
    f.imageURL ∈ currentURLs stored.mySnaps (target s.mySnaps w) ∧
      (Always step (fun s' e _ => QueriesAlone s' e) (start mySnaps clock users)
          (before ++ .write n index true :: after) →
        Always step (fun s' e _ => removed s' e ≠ some (target s.mySnaps w)) stored after →
          f.imageURL ∈ currentURLs later.mySnaps (target s.mySnaps w)) ∧
      ∀ last, removed later last = some (target s.mySnaps w) →
        ∃ t, dateAfter s.mySnaps s.clock w = some t ∧ t + day ≤ later.clock := by
  intro s stored later
  have applies : stored.mySnaps = w.apply s.clock s.mySnaps := mySnaps_of_applied next
  have held : f.imageURL ∈ currentURLs stored.mySnaps (target s.mySnaps w) := by
    have carry : WritesCarryImage s :=
      invariant_free_run writesCarryImage_step (writesCarryImage_start _ _ _) before
    obtain ⟨_, _, f', pending, acknowledged, event, hf', stage, write⟩ :=
      applied_cases (s := s) (e := .write n index true) next
    cases event
    cases flow.symm.trans hf'
    have image := carry n f flow pending acknowledged stage w (List.mem_of_getElem? write)
    rwa [applies, currentURLs_applied]
  refine ⟨held, ?_, ?_⟩
  · intro alone kept
    have upToDate := upToDate_of_queriesAlone mySnaps clock users _ alone
    rw [always_append, always_cons] at upToDate
    exact url_kept held kept upToDate.2.2
  · intro last deleted
    have first := dated_of_applied next noSnapshot noDelete
    rw [run_append] at agree
    have final := invariant_run dated_step first agree
    rw [dateAt_applied] at final
    obtain ⟨device, pending⟩ := mem_deletes_of_removed deleted
    exact final.due device pending

/-- The first upload of a user, and an append and the events up to the expiry. -/
def firstUpload : List Event := [.tap 0 "a", .query 0, .answer 0]

def dayLater : List Event :=
  wholeUpload 0 1 "b" ++
    [.advance 86400000000000, .emit 0, .callback 0 fun _ => 86400000000000]

theorem first_image_lifetime :
    let stored := step (run step (start .empty 0 (signedInAs "ada")) firstUpload) (.write 0 0 true)
    "a" ∈ currentURLs stored.mySnaps 0 ∧
      "a" ∈ currentURLs (run step stored dayLater).mySnaps 0 ∧
      ∃ t, some (0 : ℤ) = some t ∧ t + day ≤ (run step stored dayLater).clock :=
  have lifetime := image_lifetime .empty 0 (signedInAs "ada") firstUpload 0 0 _
    (.addDocument ["a"] "ada") rfl rfl rfl rfl dayLater (by decide)
  ⟨lifetime.1, lifetime.2.1 (by decide) (by decide), lifetime.2.2 (.delete 0 none) rfl⟩

/-- An image appended 23 hours after its document was created is deleted one hour
later, although every request succeeded and no two activities overlapped. -/
theorem appended_image_deleted_early :
    let uploaded := run step (start .empty 0 (signedInAs "ada"))
      (wholeUpload 0 0 "a" ++ [.advance 82800000000000] ++ wholeUpload 0 1 "b")
    let expiry : List Event := [.advance 3600000000000, .emit 0,
      .callback 0 fun _ => 86400000000000, .delete 0 none]
    (∀ f ∈ uploaded.flows, completed f = true) ∧ "b" ∈ imagesOf uploaded.mySnaps "ada" ∧
      Always step (fun s e _ => ReadsClock (fun _ => 0) s e) uploaded expiry ∧
      "b" ∉ imagesOf (run step uploaded expiry).mySnaps "ada" ∧
      (run step uploaded expiry).clock < uploaded.clock + day := by
  decide

end SnapExpiry
