import IosCourse.SnapConsistency

/-!
# An upload reaches those who look

From the tap on the upload button of one device to the slide show on another: the write
of an upload puts the image into an album, the album keeps it while it exists, every feed
that is brought up to date has a row for the album as long as it is young, and a tap on
that row opens a screen with the image among its pictures.
-/

namespace SnapDelivery

open DocumentCollection SnapDocuments SnapUpload SnapFeed SnapSystem SnapRaces SnapDisplay
open SnapProvenance SnapAlbums SnapConsistency GuardedRuns

def InAlbum (albums : Albums) (name url : String) : Prop :=
  ∃ album, albums name = some album ∧ url ∈ album.urls

/-- The event does not remove the album of the name. -/
def Keeps (name : String) (s : System) (e : Event) : Prop := performed s e ≠ some (.expire name)

section Albums
variable {albums : Albums} {name url : String} {s : System} {e : Event}

theorem inAlbum_upload (albums : Albums) (name url : String) (now : ℤ) :
    InAlbum (publish albums (.upload name url now)) name url := by
  refine ⟨extended albums name url now, by simp [publish], ?_⟩
  cases slot : albums name with
  | none => simp [extended, slot, Album.first]
  | some album => simp [extended, slot, Album.append]

/-- Uploads only add images, and the other albums may go. -/
theorem inAlbum_publish (h : InAlbum albums name url) {action : Action}
    (kept : action ≠ .expire name) : InAlbum (publish albums action) name url := by
  obtain ⟨album, slot, mem⟩ := h
  cases action with
  | upload other url' now =>
    by_cases same : other = name
    · subst same
      exact ⟨album.append url', by simp [publish, extended, slot], List.mem_append_left _ mem⟩
    · exact ⟨album, by simp [publish, Ne.symm same, slot], mem⟩
  | expire other =>
    have apart : name ≠ other := fun same => kept (congrArg Action.expire same.symm)
    exact ⟨album, by simp [publish, apart, slot], mem⟩

theorem inAlbum_follow (h : InAlbum albums name url) (kept : Keeps name s e) :
    InAlbum (follow s e albums) name url := by
  rw [follow]
  cases acts : performed s e with
  | none => exact h
  | some action =>
    refine inAlbum_publish h fun expires => kept ?_
    rw [acts, expires]

end Albums

section Runs
variable {clock : ℤ} {users : ℕ → UserSingleton} {name url : String}

theorem albumsAfter_append (clock : ℤ) (users : ℕ → UserSingleton) (es fs : List Event) :
    albumsAfter clock users (es ++ fs) = (run (together step follow)
      (run step (start .empty clock users) es, albumsAfter clock users es) fs).2 := by
  have same : (run (together step follow) (start .empty clock users, noAlbums) es).1 =
      run step (start .empty clock users) es := run_together_fst step follow _ es
  rw [albumsAfter, run_append, albumsAfter, ← same]

/-- What is in an album when a write is applied stays there while the album exists. -/
theorem inAlbum_run {es later : List Event} {n index : ℕ} {f : Flow} {w : Write}
    (flow : (run step (start .empty clock users) es).flows[n]? = some f)
    (next : nextWrite (run step (start .empty clock users) es) n index = some w)
    (owner : f.owner = some name)
    (kept : Always step (fun s e _ => Keeps name s e)
      (run step (start .empty clock users) (es ++ [.write n index true])) later) :
    InAlbum (albumsAfter clock users (es ++ .write n index true :: later)) name f.imageURL := by
  have acts : performed (run step (start .empty clock users) es) (.write n index true) =
      some (.upload name f.imageURL (run step (start .empty clock users) es).clock) := by
    simp [performed, next, flow, owner]
  have first : InAlbum (follow (run step (start .empty clock users) es) (.write n index true)
      (albumsAfter clock users es)) name f.imageURL := by
    rw [follow, acts]
    exact inAlbum_upload _ _ _ _
  rw [albumsAfter_append, run_cons]
  rw [run_append] at kept
  exact @invariant_run _ _ (together step follow) (fun p => InAlbum p.2 name f.imageURL)
    (fun p e => Keeps name p.1 e) (fun _ _ h ok => inAlbum_follow h ok) _ later first
    ((always_together step follow (_, follow _ _ _) later).mpr kept)

end Runs

section Screen
variable {URL : Type} {parse : String → Option URL}

theorem mem_inputs {urls : List String} {inputs : List URL}
    (parsed : urls.mapM parse = some inputs) {url : String} (mem : url ∈ urls) :
    ∃ input ∈ inputs, parse url = some input := by
  induction urls generalizing inputs with
  | nil => cases mem
  | cons first rest ih =>
    simp only [List.mapM_cons, Option.bind_eq_bind, Option.bind_eq_some_iff, Option.pure_def,
      Option.some.injEq] at parsed
    obtain ⟨input, here, others, there, rfl⟩ := parsed
    rcases List.mem_cons.mp mem with rfl | later
    · exact ⟨input, List.mem_cons_self, here⟩
    · obtain ⟨found, inOthers, same⟩ := ih there later
      exact ⟨found, List.mem_cons_of_mem _ inOthers, same⟩

/-- A tap on a row for the name opens a screen with the picture. -/
def Opens (parse : String → Option URL) (feed : FeedVC) (name url : String) : Prop :=
  ∃ row < feed.rows, ∃ snap, didSelectRowAt feed row = some snap ∧ snap.username = name ∧
    ∃ screen, SnapVC.viewDidLoad parse (some snap) = some screen ∧
      ∃ input ∈ screen.inputArray, parse url = some input

theorem opens_of_row {feed : FeedVC} (counted : feed.rows = numberOfRowsInSection feed)
    {snap : Snap} (mem : snap ∈ feed.snapArray) (showable : Showable parse snap.imageURLArray)
    {url : String} (image : url ∈ snap.imageURLArray) : Opens parse feed snap.username url := by
  obtain ⟨row, bound, rfl⟩ := List.mem_iff_getElem.mp mem
  obtain ⟨inputs, parsed⟩ := inputs_of_parses showable.2
  refine ⟨row, by rwa [counted], _, List.getElem?_eq_getElem bound, rfl, ?_⟩
  exact ⟨_, by simp only [SnapVC.viewDidLoad, parsed]; rfl, mem_inputs parsed image⟩

theorem tapParses_refresh (parse : String → Option URL) (now : ℕ → ℕ → ℤ) (length : ℕ)
    (devices : List ℕ) : ∀ e ∈ refresh now length devices, TapParses parse e := by
  intro e mem
  obtain ⟨device, _, inPair⟩ := List.mem_flatMap.mp mem
  rcases List.mem_cons.mp inPair with rfl | last
  · trivial
  · rw [List.mem_singleton.mp last]
    trivial

/-- Let every applied write be current and every tapped image have a URL that parses.
When a write of an upload is applied and its album is not removed since, each device
that then brings its feed up to date, and by whose clock the album is young, has a row
for the album that opens with the image among its pictures. -/
theorem upload_reaches_viewers (clock : ℤ) (users : ℕ → UserSingleton) (es later : List Event)
    {n index : ℕ} {f : Flow} {w : Write} {name : String}
    (flow : (run step (start .empty clock users) es).flows[n]? = some f)
    (next : nextWrite (run step (start .empty clock users) es) n index = some w)
    (owner : f.owner = some name)
    (guarded : Always step (fun s e _ => Current s e) (start .empty clock users)
      (es ++ .write n index true :: later))
    (kept : Always step (fun s e _ => Keeps name s e)
      (run step (start .empty clock users) (es ++ [.write n index true])) later)
    (parses : ∀ e ∈ es ++ .write n index true :: later, TapParses parse e)
    (now : ℕ → ℕ → ℤ) (devices : List ℕ) :
    let s := run step (start .empty clock users) (es ++ .write n index true :: later)
    ∃ album, albumsAfter clock users (es ++ .write n index true :: later) name = some album ∧
      ∀ device ∈ devices, hoursBetween album.date (readingFor (now device) s.mySnaps name) < 24 →
        Opens parse ((run step s (refresh now s.snapshots.length devices)).feeds device) name
          f.imageURL := by
  intro s
  obtain ⟨album, slot, image⟩ := inAlbum_run flow next owner kept
  refine ⟨album, slot, fun device mem young => ?_⟩
  have stands : Represents s.mySnaps
      (albumsAfter clock users (es ++ .write n index true :: later)) := represents_run guarded
  have shown := (refresh_shows (orderByDate_ne_nil stands (Option.isSome_iff_exists.mpr ⟨_, slot⟩))
    now devices).1 device mem
  have showable : ArraysShowable parse (run step s (refresh now s.snapshots.length devices)) :=
    invariant_run arraysShowable_step
      (invariant_run arraysShowable_step (arraysShowable_start clock users)
        (always_of_mem step parses _))
      (always_of_mem step (tapParses_refresh parse now _ devices) _)
  have row := (mem_rowsOf stands).mpr ⟨name, album, slot, young, rfl⟩
  rw [← shown] at row
  exact opens_of_row (showable.counted device) row (showable.shown device _ row) image

end Screen

/-- A second upload of a user, seen by two devices. -/
theorem second_upload_reaches_viewers :
    let es := wholeUpload 0 0 "a" ++ [.tap 0 "b", .query 1, .answer 1]
    let s := run step (start .empty 0 (signedInAs "ada")) (es ++ .write 1 0 true :: [])
    ∃ album, albumsAfter 0 (signedInAs "ada") (es ++ .write 1 0 true :: []) "ada" = some album ∧
      ∀ device ∈ [1, 2], hoursBetween album.date (readingFor (fun _ => 0) s.mySnaps "ada") < 24 →
        Opens (fun text => if text = "" then none else some text)
          ((run step s (refresh (fun _ _ => 0) s.snapshots.length [1, 2])).feeds device) "ada"
          "b" := by
  intro es s
  refine upload_reaches_viewers 0 (signedInAs "ada") es [] (n := 1) (f := ⟨0, "b", some "ada",
    none, .writing [.setData 0 ["a", "b"]] false⟩) rfl rfl rfl (by decide) trivial ?_ _ _
  simp [es, wholeUpload, TapParses]

end SnapDelivery
