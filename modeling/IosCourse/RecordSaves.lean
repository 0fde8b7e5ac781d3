import IosCourse.RecordLists
import IosCourse.TravelBookPins

/-!
# Saved records of ArtBookProject and TravelBook

Both applications insert a record when the save button is tapped and delete one when a
row is swiped away, and save at once; a save that throws is only printed. What a launch
finds is what the context held after the last save that did not throw, and every
record holds what was on the screen when it was entered, except that a place is where the
last long press on that screen was, not where its pin was when the screen was opened.
-/

namespace RecordSaves

open GuardedRuns ManagedContext ParallelArrays ListedContext ContextJournal
open RecordLists
open ArtBook (Paintings DetailsVC)
open TravelBook (Places ViewController)

/-- The painting behind a row. -/
def paintingAt (s : ArtBook.App) (row : ℕ) : Option Paintings :=
  (s.list.idArray[row]?).bind fun id =>
    s.context.objects.find? fun painting => painting.id = some id

def paintingOperations (s : ArtBook.App) : ArtBook.Event → List (Operation Paintings)
  | .launch _ => [.reset]
  | .commitDelete row _ error =>
    if row < s.list.rows then
      (paintingAt s row).elim [] fun painting => [.delete painting, .save error]
    else []
  | .SaveButtonClicled error _ =>
    s.savingScreen.elim [] fun screen => [.insert (screen.newPainting s.nextUUID), .save error]
  | _ => []

def placeAt (s : TravelBook.App) (row : ℕ) : Option Places :=
  (s.list.idArray[row]?).bind fun id => s.context.objects.find? fun place => place.id = some id

def placeOperations (s : TravelBook.App) : TravelBook.Event → List (Operation Places)
  | .launch _ => [.reset]
  | .commitDelete row _ error =>
    if row < s.list.rows then
      (placeAt s row).elim [] fun place => [.delete place, .save error]
    else []
  | .SaveButtonClicked error _ =>
    s.details.elim [] fun screen => [.insert (screen.newPlace s.nextUUID), .save error]
  | _ => []

theorem paintingOperations_eq (s : ArtBook.App) (e : ArtBook.Event) :
    paintingOperations s e = ArtBook.application.operations s e.listed := by
  cases e <;> rfl

theorem placeOperations_eq (s : TravelBook.App) (e : TravelBook.Event) :
    placeOperations s e = TravelBook.application.operations s e.listed := by
  cases e <;> rfl

/-- Every event changes the context by its operations alone. -/
theorem painting_context_step (s : ArtBook.App) (e : ArtBook.Event) (h : s.Sound) :
    (s.step e).context =
      run (ContextJournal.perform Paintings.valid) s.context (paintingOperations s e) := by
  rw [paintingOperations_eq]
  exact ListedApplications.context_perform ArtBook.conforms (ArtBook.App.sound_iff.mp h)
    (ArtBook.App.performed_listed h e)

theorem place_context_step (s : TravelBook.App) (e : TravelBook.Event) (h : s.Sound) :
    (s.step e).context =
      run (ContextJournal.perform Places.valid) s.context (placeOperations s e) := by
  rw [placeOperations_eq]
  exact ListedApplications.context_perform TravelBook.conforms (TravelBook.App.sound_iff.mp h)
    (TravelBook.App.performed_listed h e)

/-- The paintings that the list held after the last save that did not throw. -/
def savedPaintings (es : List ArtBook.Event) : List Paintings :=
  (run (together ArtBook.App.step
    (rememberStep Paintings.valid ArtBook.App.context paintingOperations)) (.start, []) es).2

def savedPlaces (es : List TravelBook.Event) : List Places :=
  (run (together TravelBook.App.step
    (rememberStep Places.valid TravelBook.App.context placeOperations)) (.start, []) es).2

theorem painting_store_perm (es : List ArtBook.Event) :
    (run ArtBook.App.step .start es).context.store.Perm (savedPaintings es) :=
  @store_perm_of_run _ _ _ _ _ _ ArtBook.App.Sound _ _ ArtBook.App.sound_step
    painting_context_step _ ArtBook.App.sound_start _ (.refl _) es

theorem place_store_perm (es : List TravelBook.Event) :
    (run TravelBook.App.step .start es).context.store.Perm (savedPlaces es) :=
  @store_perm_of_run _ _ _ _ _ _ TravelBook.App.Sound _ _ TravelBook.App.sound_step
    place_context_step _ TravelBook.App.sound_start _ (.refl _) es

/-- A launch lists, row by row, whatever the store it finds is a permutation of. -/
theorem aligned_of_launch {App Table Screen Object Title : Type} [DecidableEq Object]
    {app : ListedApplications.Application App Table Screen Object Title} {good : Object → Prop}
    (conforms : ListedApplications.Conforms app good) {s t : App}
    (before : ListedApplications.Sound app good s) (after : ListedApplications.Sound app good t)
    {order : FetchOrder Object} (performed : app.perform s (.launch order) = some t)
    {saved : List Object} (stored : (app.context s).store.Perm saved) :
    Aligned app.title app.id (app.titles (app.list t)) (app.ids (app.list t)) saved ∧
      app.rows (app.list t) = saved.length := by
  have context : app.context t = (app.context s).reset :=
    ListedApplications.context_perform conforms before performed
  have found : (app.context t).objects.Perm saved := by
    rwa [context, Context.objects_reset]
  have titled := ListedApplications.titled_of_registered conforms after.registered
  have listed := after.shows.listed.of_perm found
  refine ⟨listed.aligned ?_, ?_⟩
  · exact (found.map _).nodup_iff.mp titled.ids_nodup
  · rw [after.shows.counted, listed.length_records]

/-- After a launch the list shows, row by row with title and identifier, the records
that the context held after the last save of the run that did not throw. -/
theorem launch_restores_last_save :
    (∀ (es : List ArtBook.Event) (order : FetchOrder Paintings),
      let t := run ArtBook.App.step .start (es ++ [.launch order])
      Aligned Paintings.name Paintings.id t.list.nameArray t.list.idArray (savedPaintings es) ∧
        t.list.rows = (savedPaintings es).length) ∧
    (∀ (es : List TravelBook.Event) (order : FetchOrder Places),
      let t := run TravelBook.App.step .start (es ++ [.launch order])
      Aligned Places.title Places.id t.list.titleArray t.list.idArray (savedPlaces es) ∧
        t.list.rows = (savedPlaces es).length) := by
  constructor
  · intro es order t
    have reached : t = (run ArtBook.App.step .start es).step (.launch order) := run_append ..
    have before := ArtBook.App.sound_run es
    exact aligned_of_launch ArtBook.conforms (ArtBook.App.sound_iff.mp before)
      (ArtBook.App.sound_iff.mp (ArtBook.App.sound_run _))
      (reached ▸ ArtBook.App.performed_listed before (.launch order)) (painting_store_perm es)
  · intro es order t
    have reached : t = (run TravelBook.App.step .start es).step (.launch order) := run_append ..
    have before := TravelBook.App.sound_run es
    exact aligned_of_launch TravelBook.conforms (TravelBook.App.sound_iff.mp before)
      (TravelBook.App.sound_iff.mp (TravelBook.App.sound_run _))
      (reached ▸ TravelBook.App.performed_listed before (.launch order)) (place_store_perm es)

/-- The screens from which the records of a run were entered, by identifier. -/
def enteredPaintings (es : List ArtBook.Event) : ℕ → Option DetailsVC :=
  (run (together ArtBook.App.step fun s e => ArtBook.application.enteredStep s e.listed)
    (.start, fun _ => none) es).2

def enteredPlaces (es : List TravelBook.Event) : ℕ → Option ViewController :=
  (run (together TravelBook.App.step fun s e => TravelBook.application.enteredStep s e.listed)
    (.start, fun _ => none) es).2

theorem genuine_run (es : List ArtBook.Event) :
    ArtBook.application.Genuine (run ArtBook.App.step .start es) (enteredPaintings es) := by
  have reached := @invariant_free_run _ _
    (together ArtBook.App.step fun s e => ArtBook.application.enteredStep s e.listed)
    (fun p => p.1.Sound ∧ ArtBook.application.Genuine p.1 p.2)
    (fun p e h => ⟨ArtBook.App.sound_step p.1 e h.1, ListedApplications.genuine_perform
      ArtBook.conforms (ArtBook.App.sound_iff.mp h.1) h.2 (ArtBook.App.performed_listed h.1 e)⟩)
    (.start, fun _ => none)
    ⟨ArtBook.App.sound_start, fun painting mem => absurd mem List.not_mem_nil⟩ es
  rw [run_together_fst] at reached
  exact reached.2

/-- The coordinates of every screen that a place was entered on follow its long presses. -/
structure PlacesEntered (s : TravelBook.App) (entered : ℕ → Option ViewController) : Prop where
  tracked : TravelBookPins.Tracked s
  genuine : TravelBook.application.Genuine s entered
  tracks : ∀ n, ∀ screen ∈ entered n, TravelBookPins.ChosenTracks screen

theorem placesEntered_run (es : List TravelBook.Event) :
    PlacesEntered (run TravelBook.App.step .start es) (enteredPlaces es) := by
  have reached := @invariant_free_run _ _
    (together TravelBook.App.step fun s e => TravelBook.application.enteredStep s e.listed)
    (fun p => PlacesEntered p.1 p.2)
    (fun p e h => ⟨TravelBookPins.tracked_step p.1 e h.tracked,
      ListedApplications.genuine_perform TravelBook.conforms
        (TravelBook.App.sound_iff.mp h.tracked.sound) h.genuine
        (TravelBook.App.performed_listed h.tracked.sound e),
      ListedApplications.entered_enteredStep h.tracks h.tracked.tracks e.listed⟩)
    (.start, fun _ => none)
    ⟨⟨TravelBook.App.sound_start, fun _ opened => by cases opened⟩,
      fun place mem => absurd mem List.not_mem_nil, fun _ _ known => by cases known⟩ es
  rw [run_together_fst] at reached
  exact reached

/-- The texts and the image that were entered. A year that is no number comes back as 0. -/
structure ShowsEntered (entered screen : DetailsVC) : Prop where
  name : screen.NameText = entered.NameText
  artist : screen.ArtistText = entered.ArtistText
  year : screen.YearText = (SwiftInt.ofString entered.YearText).elim "0" toString
  image : screen.ImageView = entered.ImageView
  viewed : screen.saveButtonIsHidden = true

/-- The texts that were entered, and a single pin: where the last long press on the entering
screen had put one or, if there was none, at zero, whatever pin the screen was opened with. -/
structure ShowsEnteredPlace (entered screen : ViewController) : Prop where
  title : screen.NameText = entered.NameText
  subtitle : screen.CommentText = entered.CommentText
  pin : ∃ marker : TravelBook.Annotation, screen.annotations = [marker] ∧
    (∀ placed ∈ entered.placedPins.getLast?, marker.coordinate = placed.coordinate) ∧
    (entered.placedPins = [] → marker.coordinate = ⟨0, 0⟩)

theorem showsEntered_of_views {entered screen : DetailsVC} {n : ℕ}
    (views : ViewsPainting (entered.newPainting n) screen) : ShowsEntered entered screen := by
  obtain ⟨name, artist, year, image, viewed⟩ := views
  cases parsed : SwiftInt.ofString entered.YearText with
  | none =>
    simp only [DetailsVC.newPainting, parsed] at name artist year image
    exact ⟨name, artist, by rw [year, parsed]; rfl, image, viewed⟩
  | some number =>
    simp only [DetailsVC.newPainting, parsed] at name artist year image
    exact ⟨name, artist, by rw [year, parsed]; rfl, image, viewed⟩

theorem showsEnteredPlace_of_views {entered screen : ViewController} {n : ℕ}
    (tracks : TravelBookPins.ChosenTracks entered)
    (views : ViewsPlace (entered.newPlace n) screen) : ShowsEnteredPlace entered screen := by
  obtain ⟨title, subtitle, marker, single, latitude, longitude⟩ := views
  have chosen : marker.coordinate = ⟨entered.chosenLatitude, entered.chosenLongitude⟩ := by
    obtain ⟨_, _, coordinate⟩ := marker
    cases coordinate
    cases latitude
    cases longitude
    rfl
  rw [TravelBookPins.ChosenTracks] at tracks
  refine ⟨(Option.some.inj title).symm, (Option.some.inj subtitle).symm, marker, single, ?_, ?_⟩
  · intro placed last
    rw [chosen, tracks, Option.mem_def.mp last]
    rfl
  · intro none_placed
    rw [chosen, tracks, none_placed]
    rfl

/-- A tap on this row opens a screen with what was entered under its identifier. -/
def RowShowsPainting (es : List ArtBook.Event) (row : ℕ) (order : FetchOrder Paintings) : Prop :=
  let s := run ArtBook.App.step .start es
  ∃ id ∈ s.list.idArray[row]?, ∃ entered ∈ enteredPaintings es id,
    ∃ screen ∈ (s.step (.didSelectRowAt row order)).details, ShowsEntered entered screen

def RowShowsPlace (es : List TravelBook.Event) (row : ℕ) (order : FetchOrder Places) : Prop :=
  let s := run TravelBook.App.step .start es
  ∃ id ∈ s.list.idArray[row]?, ∃ entered ∈ enteredPlaces es id,
    ∃ screen ∈ (s.step (.didSelectRowAt row order)).details, ShowsEnteredPlace entered screen

/-- After any run, with failed saves, deletions and launches in between, a tap on a row
whose text is not empty shows what was entered under the identifier of the row. -/
theorem rows_show_what_was_entered :
    (∀ (es : List ArtBook.Event) (row : ℕ) (order : FetchOrder Paintings),
      let s := run ArtBook.App.step .start es
      row < s.list.rows → 0 < s.list.observers → s.list.nameArray[row]? ≠ some "" →
        RowShowsPainting es row order) ∧
    (∀ (es : List TravelBook.Event) (row : ℕ) (order : FetchOrder Places),
      let s := run TravelBook.App.step .start es
      row < s.list.rows → 0 < s.list.observers → s.list.titleArray[row]? ≠ some "" →
        RowShowsPlace es row order) := by
  constructor
  · intro es row order s asked appeared named
    have h := ArtBook.App.sound_run es
    obtain ⟨painting, mem, behind, screen, shown, views⟩ :=
      (opensPainting_iff h ⟨asked, appeared⟩ order).mpr named
    obtain ⟨n, entered, known, rfl⟩ :=
      genuine_run es painting (Context.mem_all_of_mem_objects mem)
    exact ⟨n, behind.symm, entered, known, screen, shown, showsEntered_of_views views⟩
  · intro es row order s asked appeared titled
    have h := TravelBook.App.sound_run es
    obtain ⟨place, mem, behind, screen, shown, views⟩ :=
      (opensPlace_iff h ⟨asked, appeared⟩ order).mpr titled
    obtain ⟨n, entered, known, rfl⟩ :=
      (placesEntered_run es).genuine place (Context.mem_all_of_mem_objects mem)
    have tracks := (placesEntered_run es).tracks n entered known
    exact ⟨n, behind.symm, entered, known, screen, shown,
      showsEnteredPlace_of_views tracks views⟩

theorem entered_records_are_shown :
    RowShowsPainting (enterPainting "name") 0 .unchanged ∧
      RowShowsPlace (enterPlace "home") 0 .unchanged :=
  ⟨rows_show_what_was_entered.1 (enterPainting "name") 0 .unchanged (by decide) (by decide)
      (by decide),
    rows_show_what_was_entered.2 (enterPlace "home") 0 .unchanged (by decide) (by decide)
      (by decide)⟩

end RecordSaves
