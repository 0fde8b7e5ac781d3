import IosCourse.SnapAlbums
import IosCourse.SnapDisplay

/-!
# What the feeds show of the albums

A snapshot is taken at one moment and reaches its device at another, possibly after
snapshots that were taken later, while uploads and deletions go on. A feed can be out
of date, but it never mixes moments: its rows are those that the last callback made,
with its own readings of the clock, of the albums at the moment when its snapshot was
taken.
-/

namespace SnapConsistency

open DocumentCollection SnapDocuments SnapFeed SnapSystem SnapRaces SnapDisplay
open SnapProvenance SnapAlbums GuardedRuns

/-- The rows that the listener makes of a collection. -/
def rowsOf (now : ℕ → ℤ) (snaps : Store) : List Snap :=
  (orderByDate snaps).filterMap (liveSnap now)

/-- The last callback of a run that was given a snapshot for this device which is not
empty: it came after `before`, and its snapshot was taken after `cut`. -/
structure LastExamined (s₀ : System) (device : ℕ) (es cut before : List Event) (index : ℕ)
    (now : ℕ → ℤ) (after : List Event) : Prop where
  split : es = before ++ .callback index now :: after
  taken : cut ++ [.emit device] <+: before
  delivered : (run step s₀ before).snapshots[index]? =
    some (device, orderByDate (run step s₀ cut).mySnaps)
  nonempty : orderByDate (run step s₀ cut).mySnaps ≠ []
  last : Always step (fun s e _ => ¬ Rebuilds device s e)
    (run step s₀ (before ++ [.callback index now])) after

/-- Every snapshot under way was taken from the collection at one moment of the run so
far, and the rows of every feed are those of the last snapshot examined, if any. -/
structure FromThePast (s₀ : System) (past : List Event) (s : System) : Prop where
  present : s = run step s₀ past
  sent : ∀ message ∈ s.snapshots, ∃ cut, cut ++ [.emit message.1] <+: past ∧
    message.2 = orderByDate (run step s₀ cut).mySnaps
  shown : ∀ device,
    (Always step (fun s e _ => ¬ Rebuilds device s e) s₀ past ∧
      (s.feeds device).snapArray = []) ∨
    ∃ cut before index now after, LastExamined s₀ device past cut before index now after ∧
      (s.feeds device).snapArray = rowsOf now (run step s₀ cut).mySnaps

theorem fromThePast_start (mySnaps : Store) (clock : ℤ) (users : ℕ → UserSingleton) :
    FromThePast (start mySnaps clock users) [] (start mySnaps clock users) where
  present := rfl
  sent message mem := by simp [start] at mem
  shown _ := Or.inl ⟨trivial, rfl⟩

theorem LastExamined.extend {s₀ : System} {device index : ℕ} {now : ℕ → ℤ}
    {past cut before after : List Event}
    (h : LastExamined s₀ device past cut before index now after) {e : Event}
    (idle : ¬ Rebuilds device (run step s₀ past) e) :
    LastExamined s₀ device (past ++ [e]) cut before index now (after ++ [e]) where
  split := by rw [h.split, List.append_assoc, List.cons_append]
  taken := h.taken
  delivered := h.delivered
  nonempty := h.nonempty
  last := by
    rw [always_append, ← run_append, List.append_assoc, List.singleton_append, ← h.split]
    exact ⟨h.last, idle, trivial⟩

theorem fromThePast_step {s₀ : System} (past : List Event) (s : System) (e : Event)
    (h : FromThePast s₀ past s) : FromThePast s₀ (past ++ [e]) (step s e) where
  present := by rw [h.present, run_append, run_cons, run_nil]
  sent message mem := by
    rcases snapshots_step mem with old | ⟨rfl, new⟩
    · obtain ⟨cut, earlier, same⟩ := h.sent message old
      exact ⟨cut, earlier.trans (List.prefix_append _ _), same⟩
    · exact ⟨past, List.prefix_rfl, by rw [new, h.present]⟩
  shown device := by
    cases feedStep s e device with
    | kept idle snapArray rows =>
      rw [snapArray]
      rcases h.shown device with ⟨never, empty⟩ | ⟨cut, before, index, now, after, last, same⟩
      · refine Or.inl ⟨?_, empty⟩
        rw [always_append, ← h.present]
        exact ⟨never, idle, trivial⟩
      · exact Or.inr ⟨cut, before, index, now, after ++ [e], last.extend (h.present ▸ idle), same⟩
    | rebuilt index now event documents sent nonempty snapArray rows =>
      obtain ⟨cut, taken, same⟩ := h.sent _ (List.mem_of_getElem? sent)
      dsimp only at same
      subst event same
      refine Or.inr ⟨cut, past, index, now, [], ⟨rfl, taken, ?_, nonempty, trivial⟩, snapArray⟩
      rw [← h.present, sent]

/-- The rows are the albums younger than 24 hours, one row each, the latest first. The
device reads its clock anew for each album. -/
structure ShowsAlbums (now : String → ℤ) (albums : Albums) (rows : List Snap) : Prop where
  exact : ∀ row, row ∈ rows ↔ ∃ name album, albums name = some album ∧
    hoursBetween album.date (now name) < 24 ∧
    row = ⟨name, album.urls, album.date, 24 - hoursBetween album.date (now name)⟩
  once : (rows.map Snap.username).Nodup
  latestFirst : rows.Pairwise fun first second => second.date ≤ first.date

/-- The row of an album, if it is young enough. -/
theorem liveSnap_document {now : ℕ → ℤ} {id : ℕ} {name : String} {album : Album} {row : Snap} :
    liveSnap now (id, document name album) = some row ↔
      hoursBetween album.date (now id) < 24 ∧
        row = ⟨name, album.urls, album.date, 24 - hoursBetween album.date (now id)⟩ := by
  have fields : castFields (document name album) = some (name, album.urls, album.date) := rfl
  rw [liveSnap, fields, Option.bind_some, Option.ite_none_right_eq_some, Option.some.injEq]
  exact and_congr_right fun _ => eq_comm

/-- The reading that is made for the document of a name. -/
def readingFor (now : ℕ → ℤ) (snaps : Store) (name : String) : ℤ :=
  ((ownedBy snaps name).head?.map fun row => now row.1).getD 0

theorem readingFor_document {snaps : Store} {albums : Albums} (h : Represents snaps albums)
    {name : String} {album : Album} {id : ℕ}
    (present : snaps.get? id = some (document name album)) (now : ℕ → ℤ) :
    readingFor now snaps name = now id := by
  rw [readingFor, ownedBy_of_document h present]
  rfl

theorem orderByDate_nodup (snaps : Store) : ((orderByDate snaps).map Prod.fst).Nodup := by
  have sorted : (orderByDate snaps).Perm (snaps.query fun d => (d "date").isSome) :=
    List.perm_insertionSort _ _
  exact (sorted.map Prod.fst).nodup_iff.mpr (Collection.query_ids_nodup _)

theorem orderByDate_pairwise (snaps : Store) : (orderByDate snaps).Pairwise fun first second =>
    (date second.2).getD 0 ≤ (date first.2).getD 0 := by
  have total : Std.Total fun first second : ℕ × Doc =>
      (date second.2).getD 0 ≤ (date first.2).getD 0 := ⟨fun _ _ => le_total _ _⟩
  have transitive : IsTrans (ℕ × Doc) fun first second =>
      (date second.2).getD 0 ≤ (date first.2).getD 0 := ⟨fun _ _ _ h h' => h'.trans h⟩
  exact List.pairwise_insertionSort _ _

/-- Each row of a collection that stands for albums is the row of an album. -/
theorem mem_rowsOf {snaps : Store} {albums : Albums} (h : Represents snaps albums)
    {now : ℕ → ℤ} {row : Snap} : row ∈ rowsOf now snaps ↔ ∃ name album,
      albums name = some album ∧ hoursBetween album.date (readingFor now snaps name) < 24 ∧
      row = ⟨name, album.urls, album.date,
        24 - hoursBetween album.date (readingFor now snaps name)⟩ := by
  rw [rowsOf, List.mem_filterMap]
  constructor
  · rintro ⟨⟨id, d⟩, mem, live⟩
    have present := (mem_orderByDate.mp mem).1
    obtain ⟨name, album, known, rfl⟩ := h.sound id d present
    refine ⟨name, album, known, ?_⟩
    rw [readingFor_document h present]
    exact liveSnap_document.mp live
  · rintro ⟨name, album, known, live⟩
    obtain ⟨id, present⟩ := h.complete name album known
    rw [readingFor_document h present] at live
    exact ⟨(id, document name album), mem_orderByDate.mpr ⟨present, rfl⟩,
      liveSnap_document.mpr live⟩

theorem showsAlbums_rowsOf {snaps : Store} {albums : Albums} (h : Represents snaps albums)
    (now : ℕ → ℤ) : ShowsAlbums (readingFor now snaps) albums (rowsOf now snaps) where
  exact row := mem_rowsOf h
  once := by
    have apart := List.pairwise_map.mp (orderByDate_nodup snaps)
    rw [List.Nodup, List.pairwise_map, rowsOf, List.pairwise_filterMap]
    refine apart.imp_of_mem ?_
    rintro ⟨i, d⟩ ⟨j, d'⟩ hi hj other row live row' live' same
    obtain ⟨name, album, _, rfl⟩ := h.sound i d (mem_orderByDate.mp hi).1
    obtain ⟨name', album', _, rfl⟩ := h.sound j d' (mem_orderByDate.mp hj).1
    obtain ⟨_, rfl⟩ := liveSnap_document.mp live
    obtain ⟨_, rfl⟩ := liveSnap_document.mp live'
    obtain rfl : name = name' := same
    exact other (h.one i j name (owner_of_document (mem_orderByDate.mp hi).1)
      (owner_of_document (mem_orderByDate.mp hj).1))
  latestFirst := by
    rw [rowsOf, List.pairwise_filterMap]
    refine (orderByDate_pairwise snaps).imp_of_mem ?_
    rintro ⟨i, d⟩ ⟨j, d'⟩ hi hj later row live row' live'
    obtain ⟨name, album, _, rfl⟩ := h.sound i d (mem_orderByDate.mp hi).1
    obtain ⟨name', album', _, rfl⟩ := h.sound j d' (mem_orderByDate.mp hj).1
    obtain ⟨_, rfl⟩ := liveSnap_document.mp live
    obtain ⟨_, rfl⟩ := liveSnap_document.mp live'
    exact later

/-- The albums after a run that begins with none. -/
def albumsAfter (clock : ℤ) (users : ℕ → UserSingleton) (es : List Event) : Albums :=
  (run (together step follow) (start .empty clock users, noAlbums) es).2

/-- Wherever every applied write is current, the collection stands for the albums. -/
theorem represents_run {clock : ℤ} {users : ℕ → UserSingleton} {es : List Event}
    (guarded : Always step (fun s e _ => Current s e) (start .empty clock users) es) :
    Represents (run step (start .empty clock users) es).mySnaps
      (albumsAfter clock users es) := by
  have kept : ∀ (p : System × Albums) (e : Event),
      Accountable .empty p.1 ∧ Represents p.1.mySnaps p.2 → Current p.1 e →
      Accountable .empty (together step follow p e).1 ∧
        Represents (together step follow p e).1.mySnaps (together step follow p e).2 :=
    fun p e h current => ⟨accountable_step p.1 e h.1,
      (represents_step_iff h.1 h.2).mpr current⟩
  have final := invariant_run kept
    (s := (start .empty clock users, noAlbums))
    ⟨accountable_start _ _ _, represents_empty⟩
    ((always_together step follow (start .empty clock users, noAlbums) es).mpr guarded)
  rw [← run_together_fst step follow (start .empty clock users, noAlbums) es]
  exact final.2

theorem current_of_earlier {clock : ℤ} {users : ℕ → UserSingleton} {cut es : List Event}
    (earlier : cut <+: es)
    (guarded : Always step (fun s e _ => Current s e) (start .empty clock users) es) :
    Always step (fun s e _ => Current s e) (start .empty clock users) cut := by
  obtain ⟨rest, rfl⟩ := earlier
  exact ((always_append step _ _ _).mp guarded).1

/-- Where every applied write is current, the rows of each feed are exactly the albums at
the moment when the snapshot was taken that its listener has examined last, as far as
they are young by the readings of that callback, whatever snapshots overtook each
other. Empty snapshots do not count, and as long as there was no other the feed has no
rows. -/
theorem feeds_show_one_moment (clock : ℤ) (users : ℕ → UserSingleton) (es : List Event)
    (guarded : Always step (fun s e _ => Current s e) (start .empty clock users) es)
    (device : ℕ) :
    let s₀ := start .empty clock users
    let rows := ((run step s₀ es).feeds device).snapArray
    (Always step (fun s e _ => ¬ Rebuilds device s e) s₀ es ∧ rows = []) ∨
      ∃ cut before index now after, LastExamined s₀ device es cut before index now after ∧
        ShowsAlbums (readingFor now (run step s₀ cut).mySnaps) (albumsAfter clock users cut)
          rows := by
  intro s₀ rows
  have reached : FromThePast s₀ ([] ++ es) (run step s₀ es) :=
    history_run fromThePast_step (fromThePast_start _ _ _) es
  rcases reached.shown device with untouched | ⟨cut, before, index, now, after, last, same⟩
  · exact Or.inl untouched
  · have earlier : cut <+: es :=
      (List.prefix_append _ _).trans (last.taken.trans ⟨_, last.split.symm⟩)
    refine Or.inr ⟨cut, before, index, now, after, last, ?_⟩
    rw [show rows = _ from same]
    exact showsAlbums_rowsOf (represents_run (current_of_earlier earlier guarded)) now

/-- The feed of a second device after an upload that it has been told of. -/
theorem feed_shows_first_upload :
    let s₀ := start .empty 0 (signedInAs "ada")
    let es := wholeUpload 0 0 "a" ++ [.emit 1, .callback 0 fun _ => 0]
    let rows := ((run step s₀ es).feeds 1).snapArray
    (Always step (fun s e _ => ¬ Rebuilds 1 s e) s₀ es ∧ rows = []) ∨
      ∃ cut before index now after, LastExamined s₀ 1 es cut before index now after ∧
        ShowsAlbums (readingFor now (run step s₀ cut).mySnaps)
          (albumsAfter 0 (signedInAs "ada") cut) rows :=
  feeds_show_one_moment _ _ _ (by decide) 1

/-- One device after the other gets a snapshot and examines it; `length` snapshots are
under way to begin with. -/
def refresh (now : ℕ → ℕ → ℤ) (length : ℕ) (devices : List ℕ) : List Event :=
  devices.flatMap fun device => [.emit device, .callback length (now device)]

/-- What refreshing a feed changes. -/
structure Refreshed (s t : System) (device : ℕ) (now : ℕ → ℤ) : Prop where
  mySnaps : t.mySnaps = s.mySnaps
  snapshots : t.snapshots = s.snapshots
  here : (t.feeds device).snapArray = rowsOf now s.mySnaps
  elsewhere : ∀ other, other ≠ device → t.feeds other = s.feeds other

theorem refreshed {s : System} (nonempty : orderByDate s.mySnaps ≠ []) (device : ℕ)
    (now : ℕ → ℤ) :
    Refreshed s (run step s [.emit device, .callback s.snapshots.length now]) device now := by
  have sent : (s.snapshots ++ [(device, orderByDate s.mySnaps)])[s.snapshots.length]? =
      some (device, orderByDate s.mySnaps) := by simp
  refine ⟨?_, ?_, ?_, ?_⟩
  · simp [step]
  · simp [step, List.eraseIdx_append_of_length_le]
  · simp [step, getSnaps_of_ne_nil nonempty, rowsOf]
  · intro other apart
    simp [step, apart]

theorem refresh_shows {s : System} (nonempty : orderByDate s.mySnaps ≠ [])
    (now : ℕ → ℕ → ℤ) (devices : List ℕ) :
    (∀ device ∈ devices, ((run step s (refresh now s.snapshots.length devices)).feeds
        device).snapArray = rowsOf (now device) s.mySnaps) ∧
      ∀ device, device ∉ devices →
        (run step s (refresh now s.snapshots.length devices)).feeds device =
          s.feeds device := by
  induction devices generalizing s with
  | nil => exact ⟨fun device mem => absurd mem List.not_mem_nil, fun _ _ => rfl⟩
  | cons first rest ih =>
    have once := refreshed nonempty first (now first)
    have later := ih (s := run step s [.emit first, .callback s.snapshots.length (now first)])
      (by rwa [once.mySnaps])
    rw [once.snapshots, once.mySnaps] at later
    have same : run step s (refresh now s.snapshots.length (first :: rest)) =
        run step (run step s [.emit first, .callback s.snapshots.length (now first)])
          (refresh now s.snapshots.length rest) := by
      rw [refresh, List.flatMap_cons, run_append]
      rfl
    rw [same]
    refine ⟨?_, ?_⟩
    · intro device mem
      by_cases again : device ∈ rest
      · exact later.1 device again
      · obtain rfl : device = first := (List.mem_cons.mp mem).resolve_right again
        rw [later.2 device again, once.here]
    · intro device absent
      rw [List.mem_cons, not_or] at absent
      rw [later.2 device absent.2, once.elsewhere device absent.1]

theorem orderByDate_ne_nil {snaps : Store} {albums : Albums} (h : Represents snaps albums)
    {name : String} (some_album : (albums name).isSome) : orderByDate snaps ≠ [] := by
  obtain ⟨album, known⟩ := Option.isSome_iff_exists.mp some_album
  obtain ⟨id, present⟩ := h.complete name album known
  exact List.ne_nil_of_mem (mem_orderByDate.mpr ⟨present, rfl⟩)

/-- Where every applied write is current and there is an album, all feeds that are
brought up to date show the same albums: the present ones, as far as they are young. -/
theorem refreshed_feeds_agree (clock : ℤ) (users : ℕ → UserSingleton) (es : List Event)
    (guarded : Always step (fun s e _ => Current s e) (start .empty clock users) es)
    {name : String} (some_album : (albumsAfter clock users es name).isSome)
    (now : ℕ → ℕ → ℤ) (devices : List ℕ) :
    let s := run step (start .empty clock users) es
    ∀ device ∈ devices, ShowsAlbums (readingFor (now device) s.mySnaps)
      (albumsAfter clock users es)
      ((run step s (refresh now s.snapshots.length devices)).feeds device).snapArray := by
  intro s device mem
  have stands : Represents s.mySnaps (albumsAfter clock users es) := represents_run guarded
  rw [(refresh_shows (orderByDate_ne_nil stands some_album) now devices).1 device mem]
  exact showsAlbums_rowsOf stands (now device)

theorem two_feeds_agree :
    let s := run step (start .empty 0 (signedInAs "ada")) (wholeUpload 0 0 "a")
    ∀ device ∈ [0, 1], ShowsAlbums (readingFor (fun _ => 0) s.mySnaps)
      (albumsAfter 0 (signedInAs "ada") (wholeUpload 0 0 "a"))
      ((run step s (refresh (fun _ _ => 0) s.snapshots.length [0, 1])).feeds
        device).snapArray :=
  @refreshed_feeds_agree 0 (signedInAs "ada") (wholeUpload 0 0 "a") (by decide) "ada" rfl
    (fun _ _ => 0) [0, 1]

end SnapConsistency
