import IosCourse.MainQueue
import IosCourse.TravelBook

/-!
# The map of TravelBook

While a new place is entered the visible region follows the user; on the screen of a
saved place it stays at its pin. The button in the callout of a pin asks a geocoder for
the address of the place and opens the directions when the answer comes. Answers come in
any order, between edits and further long presses. The pins that these put on the map
have the same button.
-/

namespace TravelBookMap

open GuardedRuns MainQueue ManagedContext ListedContext TravelBook

universe u
variable {Placemark : Type u}

/-- What is handed over to the maps of the system. -/
structure MapItem (Placemark : Type u) where
  placemark : Placemark
  name : String
  deriving DecidableEq

/-- `region` is the centre of the region that was set last, and `opened` lists the items
whose directions were opened. -/
structure MapScreen (Placemark : Type u) where
  screen : ViewController
  selectedTitle : String
  region : Option Coordinate := none
  opened : List (MapItem Placemark) := []

inductive Touch where
  | edit (name comment : String)
  | chooseLocation (state : GestureState) (touchedCoordinates : Coordinate)
  | didUpdateLocations (locations : List Coordinate)
  | calloutAccessoryControlTapped

namespace MapScreen

/-- The region is set for every pin that is loaded. -/
def viewDidLoad (order : FetchOrder Places) (context : Context Places) (selectedTitle : String)
    (selectedId : Option UUID) : Option (MapScreen Placemark) :=
  (ViewController.viewDidLoad order context selectedTitle selectedId).map fun screen =>
    { screen := screen
      selectedTitle := selectedTitle
      region := screen.loadedPins.getLast?.map Annotation.coordinate }

/-- `none` is a trap: the first of no locations. -/
def didUpdateLocations (locations : List Coordinate) (m : MapScreen Placemark) :
    Option (MapScreen Placemark) :=
  if m.selectedTitle = "" then
    locations.head?.map fun location => { m with region := some location }
  else some m

/-- The location that the geocoder is asked about. -/
def calloutAccessoryControlTapped (m : MapScreen Placemark) : Option Coordinate :=
  if m.selectedTitle ≠ "" then some ⟨m.screen.annotationLatitude, m.screen.annotationLongitude⟩
  else none

def touched (m : MapScreen Placemark) :
    Touch → Option (MapScreen Placemark × Option Coordinate)
  | .edit name comment =>
    some ({ m with screen := { m.screen with NameText := name, CommentText := comment } }, none)
  | .chooseLocation state touchedCoordinates =>
    some ({ m with screen := m.screen.chooseLocation state touchedCoordinates }, none)
  | .didUpdateLocations locations => (m.didUpdateLocations locations).map fun m => (m, none)
  | .calloutAccessoryControlTapped => some (m, m.calloutAccessoryControlTapped)

/-- The item for an answer of the geocoder, if it has a place. -/
def itemFor (title : String) (placemarks : Option (List Placemark)) :
    Option (MapItem Placemark) :=
  (placemarks.bind List.head?).map fun placemark => ⟨placemark, title⟩

def reverseGeocoded (placemarks : Option (List Placemark)) (m : MapScreen Placemark) :
    MapScreen Placemark :=
  { m with opened := m.opened ++ (itemFor m.screen.annotationTitle placemarks).toList }

end MapScreen

open MapScreen (itemFor)

/-- The geocoder answers on the main thread, so that no block is put on its queue. -/
def program : Program (MapScreen Placemark) Touch Coordinate (Option (List Placemark)) Empty where
  tap := MapScreen.touched
  complete m _ placemarks := some (m.reverseGeocoded placemarks, none)
  execute _ block := block.elim

abbrev MapApp (Placemark : Type u) :=
  App (MapScreen Placemark) Coordinate (Option (List Placemark)) Empty

/-- The screen is about the place with this title and coordinate, and about no other. -/
structure Leads (title : String) (coordinate : Coordinate) (s : MapApp Placemark) : Prop where
  selected : s.screen.selectedTitle ≠ ""
  named : s.screen.screen.annotationTitle = title
  latitude : s.screen.screen.annotationLatitude = coordinate.latitude
  longitude : s.screen.screen.annotationLongitude = coordinate.longitude
  pin : s.screen.screen.loadedPins.map Annotation.coordinate = [coordinate]
  region : s.screen.region = some coordinate
  asked : ∀ location ∈ s.started, location = coordinate
  opened : s.screen.opened = s.finished.filterMap fun answer => itemFor title answer.2

section Saved
variable {title : String} {coordinate : Coordinate} {s t : MapApp Placemark}

/-- Nothing that the user does changes what the screen is about. -/
theorem leads_tapped (h : Leads title coordinate s) {touch : Touch}
    {screen : MapScreen Placemark} {request : Option Coordinate}
    (result : s.screen.touched touch = some (screen, request)) :
    Leads title coordinate (s.tapped screen request) := by
  have unasked : ∀ location ∈ s.started ++ [], location = coordinate := by
    simpa using h.asked
  cases touch with
  | edit name comment =>
    cases result
    exact ⟨h.selected, h.named, h.latitude, h.longitude, h.pin, h.region, unasked, h.opened⟩
  | chooseLocation state touchedCoordinates =>
    cases result
    cases state with
    | began | changed | ended =>
      exact ⟨h.selected, h.named, h.latitude, h.longitude, h.pin, h.region, unasked, h.opened⟩
  | didUpdateLocations locations =>
    simp only [MapScreen.touched, MapScreen.didUpdateLocations, h.selected, if_false,
      Option.map_some, Option.some.injEq, Prod.mk.injEq] at result
    obtain ⟨rfl, rfl⟩ := result
    exact ⟨h.selected, h.named, h.latitude, h.longitude, h.pin, h.region, unasked, h.opened⟩
  | calloutAccessoryControlTapped =>
    have here : s.screen.calloutAccessoryControlTapped = some coordinate := by
      rw [MapScreen.calloutAccessoryControlTapped, if_pos h.selected, h.latitude, h.longitude]
    simp only [MapScreen.touched, here, Option.some.injEq, Prod.mk.injEq] at result
    obtain ⟨rfl, rfl⟩ := result
    refine ⟨h.selected, h.named, h.latitude, h.longitude, h.pin, h.region, ?_, h.opened⟩
    intro location mem
    rcases List.mem_append.mp mem with before | now
    · exact h.asked location before
    · exact List.mem_singleton.mp now

theorem leads_completed (h : Leads title coordinate s) (index : ℕ) (request : Coordinate)
    (placemarks : Option (List Placemark)) :
    Leads title coordinate
      (s.completed index request placemarks (s.screen.reverseGeocoded placemarks) none) := by
  refine ⟨h.selected, h.named, h.latitude, h.longitude, h.pin, h.region, h.asked, ?_⟩
  have last : [(request, placemarks)].filterMap (fun answer => itemFor title answer.2) =
      (itemFor title placemarks).toList := by
    cases item : itemFor title placemarks <;> simp [item]
  simp only [App.completed, MapScreen.reverseGeocoded, List.filterMap_append, last, h.named,
    h.opened]

theorem leads_run (start : Leads title coordinate s) (running : s.trapped = false)
    (es : List (Event Touch (Option (List Placemark)))) :
    Leads title coordinate (run (step program) s es) ∧
      (run (step program) s es).trapped = false := by
  refine invariant_of_safe (fun s e h _ => ?_) (fun s e t h _ moved => ?_) start running
    (always_trivial _ _ es)
  · cases e with
    | tap touch =>
      cases touch with
      | didUpdateLocations locations =>
        simp [Safe, program, MapScreen.touched, MapScreen.didUpdateLocations, h.selected]
      | edit | chooseLocation | calloutAccessoryControlTapped => rfl
    | complete => exact fun _ _ => rfl
    | block => trivial
  · cases moved with
    | tap result => exact leads_tapped h result
    | complete pending result =>
      cases result
      exact leads_completed h _ _ _
    | @block block => cases block

/-- The screen right after the record was loaded. -/
theorem leads_start {place : Places} (complete : place.Complete) {order : FetchOrder Places}
    {context : Context Places} {id : UUID} (titled : place.title = some title)
    (nonempty : title ≠ "")
    (found : context.fetch order (fun p => p.id = some id) = [place]) :
    ∃ screen : MapScreen Placemark,
      MapScreen.viewDidLoad order context title (some id) = some screen ∧
      ∃ coordinate : Coordinate, place.latitude = some coordinate.latitude ∧
        place.longitude = some coordinate.longitude ∧
        Leads title coordinate { screen := screen } := by
  obtain ⟨_ | title', _ | subtitle, _ | latitude, _ | longitude, _⟩ := place <;>
    simp [Places.Complete] at complete
  obtain rfl : title' = title := Option.some.inj titled
  refine ⟨_, by simp [MapScreen.viewDidLoad, ViewController.viewDidLoad, nonempty, found]; rfl,
    ⟨latitude, longitude⟩, rfl, rfl, nonempty, rfl, rfl, rfl, rfl, rfl, ?_, rfl⟩
  exact fun _ none_asked => absurd none_asked List.not_mem_nil

end Saved

/-- A tap on a row shows the screen that is loaded for its title and identifier. -/
theorem details_didSelectRowAt {s : TravelBook.App} (h : s.Sound) {row : ℕ} {title : String}
    {id : UUID} (asked : row < s.list.rows) (titled : s.list.titleArray[row]? = some title)
    (identified : s.list.idArray[row]? = some id) {order : FetchOrder Places}
    {screen : MapScreen Placemark}
    (loaded : MapScreen.viewDidLoad order s.context title (some id) = some screen)
    (appeared : 0 < s.list.observers) :
    (s.step (.didSelectRowAt row order)).details = some screen.screen := by
  obtain ⟨details, opened, rfl⟩ := Option.map_eq_some_iff.mp loaded
  have selects := TravelBook.App.didSelectRowAt_eq titled identified opened ⟨asked, appeared⟩
  simp [TravelBook.App.step, h.running, selects]

/-- After any run of the application a tap on a row with a title opens the screen of the
record behind it. Whatever is done there, the region stays at the record, the geocoder
is only asked about its coordinate, even from the callouts of other pins, and each answer
with a place opens the directions under its title once. -/
theorem directions_lead_to_record (es : List TravelBook.Event) (row : ℕ)
    (order : FetchOrder Places) (touches : List (Event Touch (Option (List Placemark))))
    {title : String} {id : UUID}
    (asked : row < (run TravelBook.App.step .start es).list.rows)
    (titled : (run TravelBook.App.step .start es).list.titleArray[row]? = some title)
    (identified : (run TravelBook.App.step .start es).list.idArray[row]? = some id)
    (nonempty : title ≠ "") :
    ∃ place ∈ (run TravelBook.App.step .start es).context.objects, place.id = some id ∧
      place.title = some title ∧ ∃ coordinate : Coordinate,
      place.latitude = some coordinate.latitude ∧ place.longitude = some coordinate.longitude ∧
      ∃ screen, MapScreen.viewDidLoad order (run TravelBook.App.step .start es).context title
        (some id) = some screen ∧
        (0 < (run TravelBook.App.step .start es).list.observers →
          ((run TravelBook.App.step .start es).step (.didSelectRowAt row order)).details =
            some screen.screen) ∧
        let t := run (step program) { screen := screen } touches
        t.trapped = false ∧ t.screen.region = some coordinate ∧
          (∀ location ∈ t.started, location = coordinate) ∧
          t.finished.length ≤ t.started.length ∧
          t.screen.opened = t.finished.filterMap fun answer => itemFor title answer.2 := by
  have h := TravelBook.App.sound_run es
  obtain ⟨place, mem, title', id', titled', identified', named, known⟩ :=
    h.shows.record_of_row asked
  obtain rfl : title' = title := Option.some.inj (titled'.symm.trans titled)
  obtain rfl : id' = id := Option.some.inj (identified'.symm.trans identified)
  have found : (run TravelBook.App.step .start es).context.fetch order
      (fun p => p.id = some id') = [place] := by
    rw [← known]
    exact h.titled.distinct.fetch_eq mem order
  have complete := h.complete.sound place (Context.mem_all_of_mem_objects mem)
  obtain ⟨screen, loaded, coordinate, latitude, longitude, start⟩ :=
    leads_start complete named nonempty found
  refine ⟨place, mem, known, named, coordinate, latitude, longitude, screen, loaded,
    details_didSelectRowAt h asked titled' identified' loaded, ?_⟩
  obtain ⟨leads, running⟩ := leads_run start rfl touches
  have once := (completesOnce_run program screen touches).length_eq
  refine ⟨running, leads.region, leads.asked, ?_, leads.opened⟩
  simp only [List.length_append, List.length_map] at once
  omega

/-- A place is entered at a pin and saved, and the list is shown again. -/
def savedHome : List TravelBook.Event :=
  [.launch .unchanged, .viewWillAppear, .addButtonClicked .unchanged, .edit "home" "",
    .chooseLocation .began ⟨41, 29⟩, .SaveButtonClicked false fun _ => .unchanged, .back,
    .viewWillAppear]

/-- Two callouts are tapped, one of them of a new pin, and answered in the other order. -/
def twoCallouts : List (Event Touch (Option (List String))) :=
  [.tap .calloutAccessoryControlTapped, .tap (.chooseLocation .began ⟨0, 0⟩),
    .tap .calloutAccessoryControlTapped, .complete 1 (some ["Main Street"]),
    .tap (.didUpdateLocations [⟨1, 1⟩]), .complete 0 none]

theorem home_found_from_two_callouts :
    ∃ place ∈ (run TravelBook.App.step .start savedHome).context.objects, place.id = some 0 ∧
      place.title = some "home" ∧ ∃ coordinate : Coordinate,
      place.latitude = some coordinate.latitude ∧ place.longitude = some coordinate.longitude ∧
      ∃ screen, MapScreen.viewDidLoad .unchanged
          (run TravelBook.App.step .start savedHome).context "home" (some 0) = some screen ∧
        (0 < (run TravelBook.App.step .start savedHome).list.observers →
          ((run TravelBook.App.step .start savedHome).step
            (.didSelectRowAt 0 .unchanged)).details = some screen.screen) ∧
        let t := run (step program) { screen := screen } twoCallouts
        t.trapped = false ∧ t.screen.region = some coordinate ∧
          (∀ location ∈ t.started, location = coordinate) ∧
          t.finished.length ≤ t.started.length ∧
          t.screen.opened = t.finished.filterMap fun answer => itemFor "home" answer.2 :=
  directions_lead_to_record savedHome 0 .unchanged twoCallouts (by decide) (by decide) (by decide)
    (by decide)

end TravelBookMap
