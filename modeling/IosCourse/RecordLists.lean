import IosCourse.ArtBook
import IosCourse.TravelBook

/-!
# The lists of ArtBookProject and TravelBook

In both applications the list keeps two arrays beside the context, and the screen
of one record is opened through the entries of these arrays at the selected row.
The arrays stay aligned with the context in every run. Which record is shown is
decided by the identifier, but whether a record is shown at all by the title.
-/

namespace RecordLists

open GuardedRuns ManagedContext ParallelArrays ListedContext
open ArtBook (Paintings DetailsVC)
open TravelBook (Places ViewController)

/-- The process has not trapped, its arrays are aligned with the context, and the
table knows their length. -/
structure PaintingsListed (s : ArtBook.App) : Prop where
  running : s.trapped = false
  aligned : Aligned Paintings.name Paintings.id s.list.nameArray s.list.idArray s.context.objects
  counted : s.list.rows = s.list.nameArray.length

structure PlacesListed (s : TravelBook.App) : Prop where
  running : s.trapped = false
  aligned : Aligned Places.title Places.id s.list.titleArray s.list.idArray s.context.objects
  counted : s.list.rows = s.list.idArray.length

/-- A deletion at a row removes exactly the record shown there. -/
def DeletesPainting (s : ArtBook.App) (e : ArtBook.Event) (t : ArtBook.App) : Prop :=
  match e with
  | .commitDelete row _ _ => row < s.list.rows →
    RowRemoved Paintings.name Paintings.id row s.list.nameArray s.list.idArray
      s.context.objects t.list.nameArray t.list.idArray t.context.objects
  | _ => True

def DeletesPlace (s : TravelBook.App) (e : TravelBook.Event) (t : TravelBook.App) : Prop :=
  match e with
  | .commitDelete row _ _ => row < s.list.rows →
    RowRemoved Places.title Places.id row s.list.titleArray s.list.idArray
      s.context.objects t.list.titleArray t.list.idArray t.context.objects
  | _ => True

theorem paintingsListed_of_sound {s : ArtBook.App} (h : s.Sound) : PaintingsListed s :=
  ⟨h.running, h.shows.listed.aligned h.titled.ids_nodup, h.shows.counted⟩

theorem placesListed_of_sound {s : TravelBook.App} (h : s.Sound) : PlacesListed s :=
  ⟨h.running, h.shows.listed.aligned h.titled.ids_nodup, h.shows.counted_ids⟩

theorem deletesPainting_step {s : ArtBook.App} (h : s.Sound) (e : ArtBook.Event) :
    DeletesPainting s e (s.step e) := by
  cases e with
  | commitDelete row order error =>
    intro asked
    exact ListedApplications.rowRemoved_of_commitDelete ArtBook.conforms
      (ArtBook.App.sound_iff.mp h) asked
      (ArtBook.App.performed_listed h (.commitDelete row order error))
  | _ => trivial

theorem deletesPlace_step {s : TravelBook.App} (h : s.Sound) (e : TravelBook.Event) :
    DeletesPlace s e (s.step e) := by
  cases e with
  | commitDelete row order error =>
    intro asked
    exact ListedApplications.rowRemoved_of_commitDelete TravelBook.conforms
      (TravelBook.App.sound_iff.mp h) asked
      (TravelBook.App.performed_listed h (.commitDelete row order error))
  | _ => trivial

/-- In every run of either application no array access is out of range, the list is
aligned with the context, and each deletion removes the record of its row. -/
theorem lists_aligned :
    (∀ es : List ArtBook.Event, PaintingsListed (run ArtBook.App.step .start es) ∧
      Always ArtBook.App.step DeletesPainting .start es) ∧
    (∀ es : List TravelBook.Event, PlacesListed (run TravelBook.App.step .start es) ∧
      Always TravelBook.App.step DeletesPlace .start es) := by
  refine ⟨fun es => ⟨?_, ?_⟩, fun es => ⟨?_, ?_⟩⟩
  · exact paintingsListed_of_sound (ArtBook.App.sound_run es)
  · exact always_of_invariant (fun s e h _ => ArtBook.App.sound_step s e h)
      (fun s e h _ => deletesPainting_step h e) ArtBook.App.sound_start
      (always_trivial _ _ es)
  · exact placesListed_of_sound (TravelBook.App.sound_run es)
  · exact always_of_invariant (fun s e h _ => TravelBook.App.sound_step s e h)
      (fun s e h _ => deletesPlace_step h e) TravelBook.App.sound_start
      (always_trivial _ _ es)

/-- The screen shows the fields of the painting and cannot be saved. -/
structure ViewsPainting (painting : Paintings) (screen : DetailsVC) : Prop where
  name : screen.NameText = painting.name.getD ""
  artist : screen.ArtistText = painting.artist.getD ""
  year : screen.YearText = (painting.year.map toString).getD ""
  image : screen.ImageView = painting.image
  viewed : screen.saveButtonIsHidden = true

/-- The screen shows the texts of the place and one pin, at its coordinates. -/
structure ViewsPlace (place : Places) (screen : ViewController) : Prop where
  title : place.title = some screen.NameText
  subtitle : place.subtitle = some screen.CommentText
  pin : ∃ marker : TravelBook.Annotation, screen.annotations = [marker] ∧
    place.latitude = some marker.coordinate.latitude ∧
    place.longitude = some marker.coordinate.longitude

/-- A tap on the row opens the screen of the record with the row's identifier. -/
def OpensPainting (s : ArtBook.App) (row : ℕ) (order : FetchOrder Paintings) : Prop :=
  ∃ painting ∈ s.context.objects, painting.id = s.list.idArray[row]? ∧
    ∃ screen ∈ (s.step (.didSelectRowAt row order)).details, ViewsPainting painting screen

def OpensPlace (s : TravelBook.App) (row : ℕ) (order : FetchOrder Places) : Prop :=
  ∃ place ∈ s.context.objects, place.id = s.list.idArray[row]? ∧
    ∃ screen ∈ (s.step (.didSelectRowAt row order)).details, ViewsPlace place screen

/-- The empty form for a new painting. The save button waits for an image. -/
def emptyForm : DetailsVC := { saveButtonIsHidden := false, saveButtonIsEnabled := false }

/-- The empty form for a new place: a map without a pin. -/
def emptyMap : ViewController := {}

theorem opensPainting_iff {s : ArtBook.App} (h : s.Sound) {row : ℕ}
    (delivered : row < s.list.rows ∧ 0 < s.list.observers) (order : FetchOrder Paintings) :
    OpensPainting s row order ↔ s.list.nameArray[row]? ≠ some "" := by
  obtain ⟨painting, mem, name, id, named, identified, hname, hid⟩ :=
    h.shows.record_of_row delivered.1
  have found : s.context.fetch order (fun p => p.id = some id) = [painting] := by
    rw [← hid]
    exact h.titled.distinct.fetch_eq mem order
  have opened : ∀ screen,
      DetailsVC.viewDidLoad order s.context name (some id) = some screen →
      (s.step (.didSelectRowAt row order)).details = some screen := by
    intro screen loaded
    simp [ArtBook.App.step, h.running,
      ArtBook.App.didSelectRowAt_eq named identified loaded delivered]
  rw [named]
  by_cases blank : name = ""
  · subst blank
    have form := opened _ rfl
    refine iff_of_false ?_ (by simp)
    rintro ⟨_, _, _, screen, shown, views⟩
    rw [form, Option.mem_some_iff] at shown
    subst shown
    exact Bool.false_ne_true views.viewed
  · have view := opened (DetailsVC.fill { saveButtonIsHidden := true } painting)
      (by simp [DetailsVC.viewDidLoad, blank, found])
    refine iff_of_true ⟨painting, mem, hid.trans identified.symm, _, view, ?_⟩
      (by simpa using blank)
    exact ⟨rfl, rfl, rfl, Option.or_none, rfl⟩

theorem opensPlace_iff {s : TravelBook.App} (h : s.Sound) {row : ℕ}
    (delivered : row < s.list.rows ∧ 0 < s.list.observers) (order : FetchOrder Places) :
    OpensPlace s row order ↔ s.list.titleArray[row]? ≠ some "" := by
  obtain ⟨place, mem, title, id, titled, identified, htitle, hid⟩ :=
    h.shows.record_of_row delivered.1
  have found : s.context.fetch order (fun p => p.id = some id) = [place] := by
    rw [← hid]
    exact h.titled.distinct.fetch_eq mem order
  have opened : ∀ screen,
      ViewController.viewDidLoad order s.context title (some id) = some screen →
      (s.step (.didSelectRowAt row order)).details = some screen := by
    intro screen loaded
    simp [TravelBook.App.step, h.running,
      TravelBook.App.didSelectRowAt_eq titled identified loaded delivered]
  rw [titled]
  by_cases blank : title = ""
  · subst blank
    have form := opened _ rfl
    refine iff_of_false ?_ (by simp)
    rintro ⟨_, _, _, screen, shown, views⟩
    rw [form, Option.mem_some_iff] at shown
    subst shown
    obtain ⟨marker, pins, _⟩ := views.pin
    cases pins
  · have view := opened (ViewController.load {} place)
      (by simp [ViewController.viewDidLoad, blank, found])
    refine iff_of_true ⟨place, mem, hid.trans identified.symm, _, view, ?_⟩ (by simpa using blank)
    have complete := h.complete.sound place (Context.mem_all_of_mem_objects mem)
    obtain ⟨_ | title, _ | subtitle, _ | latitude, _ | longitude, _⟩ := place <;>
      simp [Places.Complete] at complete
    exact ⟨rfl, rfl, _, rfl, rfl, rfl⟩

theorem addButtonClicked_opens {s : ArtBook.App} (h : s.Sound) (appeared : 0 < s.list.observers)
    (order : FetchOrder Paintings) :
    (s.step (.addButtonClicked order)).details = some emptyForm := by
  have opened : s.perform (.addButtonClicked order) =
      some { s with list := s.list.addButtonClicked, details := some emptyForm } :=
    if_pos appeared
  simp [ArtBook.App.step, h.running, opened]

theorem addButtonClicked_opens_map {s : TravelBook.App} (h : s.Sound)
    (appeared : 0 < s.list.observers) (order : FetchOrder Places) :
    (s.step (.addButtonClicked order)).details = some emptyMap := by
  have opened : s.perform (.addButtonClicked order) =
      some { s with list := s.list.addButtonClicked, details := some emptyMap } :=
    if_pos appeared
  simp [TravelBook.App.step, h.running, opened]

/-- In every state that a run of either application reaches, a tap on a row opens
the record with the row's identifier exactly when the text of the row is not empty,
and the add button opens the empty form. -/
theorem row_opens_record_iff (paintings : List ArtBook.Event) (places : List TravelBook.Event)
    (row : ℕ) (paintingOrder : FetchOrder Paintings) (placeOrder : FetchOrder Places) :
    let s := run ArtBook.App.step .start paintings
    let t := run TravelBook.App.step .start places
    (0 < s.list.observers →
      (row < s.list.rows →
        (OpensPainting s row paintingOrder ↔ s.list.nameArray[row]? ≠ some "")) ∧
      (s.step (.addButtonClicked paintingOrder)).details = some emptyForm) ∧
    (0 < t.list.observers →
      (row < t.list.rows → (OpensPlace t row placeOrder ↔ t.list.titleArray[row]? ≠ some "")) ∧
      (t.step (.addButtonClicked placeOrder)).details = some emptyMap) := by
  intro s t
  constructor
  · intro appeared
    have h := ArtBook.App.sound_run paintings
    exact ⟨fun asked => opensPainting_iff h ⟨asked, appeared⟩ paintingOrder,
      addButtonClicked_opens h appeared paintingOrder⟩
  · intro appeared
    have h := TravelBook.App.sound_run places
    exact ⟨fun asked => opensPlace_iff h ⟨asked, appeared⟩ placeOrder,
      addButtonClicked_opens_map h appeared placeOrder⟩

/-- One painting is entered under this name, and the list is shown again. -/
def enterPainting (name : String) : List ArtBook.Event :=
  [.launch .unchanged, .viewWillAppear, .addButtonClicked .unchanged, .edit name "artist" "1990",
    .imagePicked none, .SaveButtonClicled false fun _ => .unchanged, .back, .viewWillAppear]

/-- One place is entered under this title, and the list is shown again. -/
def enterPlace (title : String) : List TravelBook.Event :=
  [.launch .unchanged, .viewWillAppear, .addButtonClicked .unchanged, .edit title "",
    .chooseLocation .began ⟨41, 29⟩, .SaveButtonClicked false fun _ => .unchanged, .back,
    .viewWillAppear]

theorem named_rows_open_records :
    OpensPainting (run ArtBook.App.step .start (enterPainting "name")) 0 .unchanged ∧
      OpensPlace (run TravelBook.App.step .start (enterPlace "home")) 0 .unchanged := by
  have opens := row_opens_record_iff (enterPainting "name") (enterPlace "home") 0 .unchanged
    .unchanged
  exact ⟨((opens.1 (by decide)).1 (by decide)).mpr (by decide),
    ((opens.2 (by decide)).1 (by decide)).mpr (by decide)⟩

/-- A record with an empty title has a row, but a tap on it opens the empty form. -/
theorem blank_rows_open_empty_forms :
    (¬ ∀ (es : List ArtBook.Event) (row : ℕ) (order : FetchOrder Paintings),
      let s := run ArtBook.App.step .start es
      0 < s.list.observers → row < s.list.rows → OpensPainting s row order) ∧
    (¬ ∀ (es : List TravelBook.Event) (row : ℕ) (order : FetchOrder Places),
      let s := run TravelBook.App.step .start es
      0 < s.list.observers → row < s.list.rows → OpensPlace s row order) := by
  constructor
  · intro every
    have opens := every (enterPainting "") 0 .unchanged (by decide) (by decide)
    have h := ArtBook.App.sound_run (enterPainting "")
    exact (opensPainting_iff h (by decide) .unchanged).mp opens (by decide)
  · intro every
    have opens := every (enterPlace "") 0 .unchanged (by decide) (by decide)
    have h := TravelBook.App.sound_run (enterPlace "")
    exact (opensPlace_iff h (by decide) .unchanged).mp opens (by decide)

end RecordLists
