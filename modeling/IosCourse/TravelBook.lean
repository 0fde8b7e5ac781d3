import Mathlib.Data.Rat.Defs
import IosCourse.GuardedRuns
import IosCourse.ListedApplications

/-!
# TravelBook

A list of places, and a screen with a map that shows one of them or takes the
data of a new one. A long press puts a pin on the map in either case, and the
screen can be saved in either case. The screen keeps the coordinates of the last
long press apart from those of the place that it was opened for.
-/

namespace TravelBook

open GuardedRuns ManagedContext ParallelArrays ListedContext

/-- Identifiers are handed out by a counter, so no two calls of `UUID()` agree. -/
abbrev UUID := ℕ

/-- An object of the entity, with the defaults of the data model. -/
structure Places where
  title : Option String := none
  subtitle : Option String := none
  latitude : Option ℚ := some 0
  longitude : Option ℚ := some 0
  id : Option UUID := none
  deriving DecidableEq

/-- All attributes that a screen casts have a value. -/
def Places.Complete (place : Places) : Prop :=
  place.title.isSome ∧ place.subtitle.isSome ∧ place.latitude.isSome ∧ place.longitude.isSome

/-- No attribute of a place has a range. -/
def Places.valid (_place : Places) : Bool := true

structure Coordinate where
  latitude : ℚ
  longitude : ℚ
  deriving DecidableEq

structure Annotation where
  title : String
  subtitle : String
  coordinate : Coordinate
  deriving DecidableEq

/-- The annotations of the map in two parts, those that were added when the screen
was loaded and those that long presses have added since. -/
structure ViewController where
  NameText : String := ""
  CommentText : String := ""
  chosenLatitude : ℚ := 0
  chosenLongitude : ℚ := 0
  annotationTitle : String := ""
  annotationSubtitle : String := ""
  annotationLongitude : ℚ := 0
  annotationLatitude : ℚ := 0
  loadedPins : List Annotation := []
  placedPins : List Annotation := []
  deriving DecidableEq

inductive GestureState where
  | began | changed | ended
  deriving DecidableEq

namespace ViewController

def annotations (screen : ViewController) : List Annotation :=
  screen.loadedPins ++ screen.placedPins

/-- One round of the loop over the fetched objects: a chain of casts. -/
def load (screen : ViewController) (result : Places) : ViewController :=
  match result.title with
  | none => screen
  | some title =>
    let screen := { screen with annotationTitle := title }
    match result.subtitle with
    | none => screen
    | some subtitle =>
      let screen := { screen with annotationSubtitle := subtitle }
      match result.longitude with
      | none => screen
      | some longitude =>
        let screen := { screen with annotationLongitude := longitude }
        match result.latitude with
        | none => screen
        | some latitude =>
          { screen with
            annotationLatitude := latitude
            loadedPins := screen.loadedPins ++ [⟨title, subtitle, ⟨latitude, longitude⟩⟩]
            NameText := title
            CommentText := subtitle }

/-- The screen decides by the title what it is for, and unwraps the identifier. -/
def viewDidLoad (order : FetchOrder Places) (context : Context Places)
    (selectedTitle : String) (selectedId : Option UUID) : Option ViewController :=
  if selectedTitle ≠ "" then do
    let id ← selectedId
    return (context.fetch order fun place => place.id = some id).foldl load {}
  else some {}

/-- Only the beginning of a long press sets a pin. -/
def chooseLocation (state : GestureState) (touchedCoordinates : Coordinate)
    (screen : ViewController) : ViewController :=
  if state = .began then
    { screen with
      chosenLatitude := touchedCoordinates.latitude
      chosenLongitude := touchedCoordinates.longitude
      placedPins := screen.placedPins ++
        [⟨screen.NameText, screen.CommentText, touchedCoordinates⟩] }
  else screen

/-- The object that the save button inserts, with a new identifier. -/
def newPlace (id : UUID) (screen : ViewController) : Places where
  title := some screen.NameText
  subtitle := some screen.CommentText
  longitude := some screen.chosenLongitude
  latitude := some screen.chosenLatitude
  id := some id

end ViewController

/-- `rows` is the row count that the table view was last given, and `observers`
counts the registrations for the notification. -/
structure ListViewController where
  titleArray : List String := []
  idArray : List UUID := []
  chosenTitle : String := ""
  chosenTitleId : Option UUID := none
  rows : ℕ := 0
  observers : ℕ := 0
  deriving DecidableEq

namespace ListViewController

def numberOfRowsInSection (list : ListViewController) : ℕ := list.idArray.length

def reloadData (list : ListViewController) : ListViewController :=
  { list with rows := list.numberOfRowsInSection }

/-- One round of the loop in `getData`, with two independent casts. -/
def append (list : ListViewController) (result : Places) : ListViewController :=
  { list with
    titleArray := list.titleArray ++ result.title.toList
    idArray := list.idArray ++ result.id.toList }.reloadData

/-- The arrays are cleared only if the fetch has found something. -/
def getData (order : FetchOrder Places) (context : Context Places)
    (list : ListViewController) : ListViewController :=
  let results := context.fetch order fun _ => true
  if 0 < results.length then results.foldl append { list with titleArray := [], idArray := [] }
  else list

/-- The notification reaches `getData` once for each registration. -/
def post (orders : ℕ → FetchOrder Places) (context : Context Places)
    (list : ListViewController) : ListViewController :=
  (List.range list.observers).foldl (fun list n => list.getData (orders n) context) list

def cellForRowAt (row : ℕ) (list : ListViewController) : Option String := list.titleArray[row]?

def didSelectRowAt (row : ℕ) (list : ListViewController) : Option ListViewController := do
  let title ← list.titleArray[row]?
  let id ← list.idArray[row]?
  return { list with chosenTitle := title, chosenTitleId := some id }

/-- The identifier that was selected before stays. -/
def addButtonClicked (list : ListViewController) : ListViewController :=
  { list with chosenTitle := "" }

def removeRow (row : ℕ) (list : ListViewController) : Option ListViewController := do
  let idArray ← removeAt row list.idArray
  let titleArray ← removeAt row list.titleArray
  return { list with idArray := idArray, titleArray := titleArray }.reloadData

end ListViewController

structure App where
  context : Context Places
  nextUUID : UUID
  list : ListViewController
  details : Option ViewController
  trapped : Bool
  deriving DecidableEq

/-- A save may fail with an `error` of the store. -/
inductive Event where
  | launch (order : FetchOrder Places)
  | viewDidLoad (order : FetchOrder Places)
  | viewWillAppear
  | cellForRowAt (row : ℕ)
  | didSelectRowAt (row : ℕ) (order : FetchOrder Places)
  | addButtonClicked (order : FetchOrder Places)
  | commitDelete (row : ℕ) (order : FetchOrder Places) (error : Bool)
  | edit (name comment : String)
  | chooseLocation (state : GestureState) (touchedCoordinates : Coordinate)
  | SaveButtonClicked (error : Bool) (orders : ℕ → FetchOrder Places)
  | back

namespace App

/-- `prepare(for:)` hands over the selection, and the other screen is loaded. -/
def performSegue (order : FetchOrder Places) (list : ListViewController) (s : App) :
    Option App := do
  let details ← ViewController.viewDidLoad order s.context list.chosenTitle list.chosenTitleId
  return { s with list := list, details := some details }

/-- The loop over the fetched objects, left at the first deletion. The identifier
of the row is read again in each round. -/
def deleteLoop (row : ℕ) (error : Bool) (s : App) : List Places → Option App
  | [] => some s
  | result :: rest =>
    match result.id with
    | none => deleteLoop row error s rest
    | some id => do
      let shown ← s.list.idArray[row]?
      if id = shown then
        let context := s.context.delete result
        let list ← s.list.removeRow row
        return { s with context := context.save Places.valid error, list := list }
      else deleteLoop row error s rest

def commitDelete (row : ℕ) (order : FetchOrder Places) (error : Bool) (s : App) :
    Option App := do
  let id ← s.list.idArray[row]?
  deleteLoop row error s (s.context.fetch order fun place => place.id = some id)

/-- A save that throws is only printed; the notification is posted in any case. -/
def saveButtonClicked (error : Bool) (orders : ℕ → FetchOrder Places) (s : App) : App :=
  match s.details with
  | none => s
  | some screen =>
    let context := (s.context.insert (screen.newPlace s.nextUUID)).save Places.valid error
    { s with
      context := context
      nextUUID := s.nextUUID + 1
      list := s.list.post orders context }

/-- Rows are asked for and tapped below the row count, and the list leads to the
other screen only after it has appeared. -/
def perform (s : App) : Event → Option App
  | .launch order =>
    let context := s.context.reset
    some { s with
      context := context
      list := ListViewController.getData order context {}
      details := none }
  | .viewDidLoad order => some { s with list := s.list.getData order s.context }
  | .viewWillAppear => some { s with list := { s.list with observers := s.list.observers + 1 } }
  | .cellForRowAt row =>
    if row < s.list.rows then (s.list.cellForRowAt row).map fun _ => s else some s
  | .didSelectRowAt row order =>
    if row < s.list.rows ∧ 0 < s.list.observers then do
      let list ← s.list.didSelectRowAt row
      s.performSegue order list
    else some s
  | .addButtonClicked order =>
    if 0 < s.list.observers then s.performSegue order s.list.addButtonClicked else some s
  | .commitDelete row order error =>
    if row < s.list.rows then s.commitDelete row order error else some s
  | .edit name comment =>
    some { s with details := s.details.map fun screen =>
      { screen with NameText := name, CommentText := comment } }
  | .chooseLocation state touchedCoordinates =>
    some { s with details := s.details.map (·.chooseLocation state touchedCoordinates) }
  | .SaveButtonClicked error orders => some (s.saveButtonClicked error orders)
  | .back => some { s with details := none }

/-- A process that has trapped does nothing more. -/
def step (s : App) (e : Event) : App :=
  if s.trapped then s else (s.perform e).getD { s with trapped := true }

/-- The first launch, on an empty store. -/
def start : App := ⟨.empty, 0, {}, none, false⟩

end App

/-- The two screens as an application that lists a context. -/
def application :
    ListedApplications.Application App ListViewController ViewController Places String where
  title := Places.title
  id := Places.id
  titles := ListViewController.titleArray
  ids := ListViewController.idArray
  rows := ListViewController.rows
  observers := ListViewController.observers
  clear list := { list with titleArray := [], idArray := [] }
  append := ListViewController.append
  valid := Places.valid
  context := App.context
  nextUUID := App.nextUUID
  list := App.list
  details := App.details
  trapped := App.trapped
  update s context nextUUID list details :=
    { s with context := context, nextUUID := nextUUID, list := list, details := details }
  loaded := {}
  getData := ListViewController.getData
  appear list := { list with observers := list.observers + 1 }
  cellForRowAt := ListViewController.cellForRowAt
  didSelectRowAt := ListViewController.didSelectRowAt
  addButtonClicked := ListViewController.addButtonClicked
  removeRow := ListViewController.removeRow
  viewDidLoad order context list :=
    ViewController.viewDidLoad order context list.chosenTitle list.chosenTitleId
  saving details := details
  record := ViewController.newPlace

def Event.listed : Event → ListedApplications.Event ViewController Places
  | .launch order => .launch order
  | .viewDidLoad order => .viewDidLoad order
  | .viewWillAppear => .viewWillAppear
  | .cellForRowAt row => .cellForRowAt row
  | .didSelectRowAt row order => .didSelectRowAt row order
  | .addButtonClicked order => .addButtonClicked order
  | .commitDelete row order error => .commitDelete row order error
  | .edit name comment =>
    .edit fun screen => { screen with NameText := name, CommentText := comment }
  | .chooseLocation state touchedCoordinates =>
    .edit fun screen => screen.chooseLocation state touchedCoordinates
  | .SaveButtonClicked error orders => .save error orders
  | .back => .back

theorem removeRow_eq {list : ListViewController} {row : ℕ} (titles : row < list.titleArray.length)
    (ids : row < list.idArray.length) :
    list.removeRow row = some { list with
      idArray := list.idArray.eraseIdx row
      titleArray := list.titleArray.eraseIdx row }.reloadData := by
  simp [ListViewController.removeRow, removeAt, titles, ids]

theorem viewDidLoad_of_id (order : FetchOrder Places) (context : Context Places)
    (title : String) (id : UUID) :
    ∃ screen, ViewController.viewDidLoad order context title (some id) = some screen := by
  unfold ViewController.viewDidLoad
  split <;> exact ⟨_, rfl⟩

/-- `getData` leaves the arrays alone when it finds nothing. -/
theorem getData_cases (order : FetchOrder Places) (context : Context Places)
    (list : ListViewController) :
    list.getData order context = (context.fetch order fun _ => true).foldl
        ListViewController.append { list with titleArray := [], idArray := [] } ∨
      (context.fetch order fun _ => true) = [] ∧ list.getData order context = list := by
  simp only [ListViewController.getData]
  split
  · exact Or.inl rfl
  · rename_i nothing
    exact Or.inr ⟨by simpa using nothing, rfl⟩

/-- Every place is entered with all attributes. The table counts the identifiers. -/
theorem conforms : ListedApplications.Conforms application Places.Complete where
  fills := {
    titles_clear _ := rfl
    ids_clear _ := rfl
    rows_clear _ := rfl
    observers_clear _ := rfl
    titles_append _ _ := rfl
    ids_append _ _ := rfl
    observers_append _ _ := rfl
    reloads _ _ aligned := aligned.symm }
  titled _ complete := complete.1
  context_update _ _ _ _ _ := rfl
  nextUUID_update _ _ _ _ _ := rfl
  list_update _ _ _ _ _ := rfl
  details_update _ _ _ _ _ := rfl
  trapped_update _ _ _ _ _ := rfl
  loaded := ⟨rfl, rfl, rfl⟩
  refreshed := getData_cases
  appear _ := ⟨rfl, rfl, rfl, Nat.succ_pos _⟩
  cells _ _ := rfl
  selects row list title id titled identified := by
    have titled : list.titleArray[row]? = some title := titled
    have identified : list.idArray[row]? = some id := identified
    refine ⟨{ list with chosenTitle := title, chosenTitleId := some id }, ?_,
      ⟨rfl, rfl, rfl, rfl⟩, fun order context => viewDidLoad_of_id order context title id⟩
    simp [application, ListViewController.didSelectRowAt, titled, identified]
  adds _ := ⟨⟨rfl, rfl, rfl, rfl⟩, fun _ _ => ⟨_, rfl⟩⟩
  removes row list bound aligned := by
    have titles : row < list.titleArray.length := bound
    have same : list.titleArray.length = list.idArray.length := aligned
    refine ⟨_, removeRow_eq titles (same ▸ titles), rfl, rfl, ?_, rfl⟩
    show (list.idArray.eraseIdx row).length = (list.titleArray.eraseIdx row).length
    rw [List.length_eraseIdx, List.length_eraseIdx, same]
  saving _ _ saves := saves
  id_record _ _ := rfl
  good_record _ _ := ⟨rfl, rfl, rfl, rfl⟩

/-- The arrays and the row count are right for this context. -/
def ListViewController.Shows (context : Context Places) (list : ListViewController) : Prop :=
  ListedContext.Shows Places.title Places.id context list.titleArray list.idArray list.rows

namespace App

structure Sound (s : App) : Prop where
  running : s.trapped = false
  complete : s.context.Registered Places.id Places.Complete s.nextUUID
  shows : s.list.Shows s.context
  appeared : s.details.isSome → 0 < s.list.observers

theorem Sound.titled {s : App} (h : Sound s) :
    Titled Places.title Places.id s.nextUUID s.context :=
  ListedApplications.titled_of_registered conforms h.complete

theorem sound_start : Sound start where
  running := rfl
  complete := Context.registered_empty
  shows := shows_empty
  appeared := fun opened => absurd opened (by decide)

theorem sound_iff {s : App} :
    Sound s ↔ ListedApplications.Sound application Places.Complete s :=
  ⟨fun h => ⟨h.running, h.complete, h.shows, h.appeared⟩,
    fun h => ⟨h.running, h.registered, h.shows, h.appeared⟩⟩

theorem deleteLoop_eq (row : ℕ) (error : Bool) (s : App) (results : List Places) :
    deleteLoop row error s results = application.deleteLoop row error s results := by
  induction results with
  | nil => rfl
  | cons result rest ih =>
    rw [deleteLoop, ListedApplications.Application.deleteLoop, ih]
    rfl

theorem commitDelete_listed (row : ℕ) (order : FetchOrder Places) (error : Bool) (s : App) :
    s.commitDelete row order error = application.commitDelete row order error s := by
  simp only [commitDelete, deleteLoop_eq]
  rfl

/-- The handlers are those of an application that lists a context. -/
theorem perform_eq (s : App) (e : Event) : s.perform e = application.perform s e.listed := by
  cases e with
  | commitDelete row order error =>
    rw [perform, commitDelete_listed]
    rfl
  | SaveButtonClicked error orders =>
    obtain ⟨context, nextUUID, list, details, trapped⟩ := s
    cases details <;> rfl
  | _ => rfl

/-- A deletion removes the row, deletes its record, and saves. -/
theorem commitDelete_eq {s : App} (h : Sound s) {row : ℕ} (asked : row < s.list.rows)
    {place : Places} (mem : place ∈ s.context.objects)
    (behind : place.id = s.list.idArray[row]?) (order : FetchOrder Places) (error : Bool) :
    s.commitDelete row order error = some { s with
      context := (s.context.delete place).save Places.valid error
      list := { s.list with
        idArray := s.list.idArray.eraseIdx row
        titleArray := s.list.titleArray.eraseIdx row }.reloadData } := by
  have titles : row < s.list.titleArray.length := h.shows.counted ▸ asked
  have removes := removeRow_eq titles (h.shows.listed.length_eq ▸ titles)
  rw [commitDelete_listed]
  exact ListedApplications.commitDelete_eq (sound_iff.mp h) asked mem behind removes order error

/-- Selecting a row opens the other screen for its title and identifier. -/
theorem didSelectRowAt_eq {s : App} {row : ℕ} {title : String} {id : UUID}
    (titled : s.list.titleArray[row]? = some title) (identified : s.list.idArray[row]? = some id)
    {order : FetchOrder Places} {screen : ViewController}
    (loaded : ViewController.viewDidLoad order s.context title (some id) = some screen)
    (delivered : row < s.list.rows ∧ 0 < s.list.observers) :
    s.perform (.didSelectRowAt row order) = some { s with
      list := { s.list with chosenTitle := title, chosenTitleId := some id }
      details := some screen } := by
  simp [perform, delivered, ListViewController.didSelectRowAt, titled, identified, performSegue,
    loaded]

/-- No event traps, and every event keeps the arrays aligned. -/
theorem step_succeeds {s : App} (h : Sound s) (e : Event) :
    s.perform e = some (step s e) ∧ Sound (step s e) := by
  refine @trapStep_succeeds _ _ perform App.trapped (fun s => { s with trapped := true }) Sound
    (fun _ h => h.running) (fun s e h => ?_) s h e
  obtain ⟨t, performed, sound⟩ :=
    ListedApplications.perform_sound conforms (sound_iff.mp h) e.listed
  exact ⟨t, (perform_eq s e).trans performed, sound_iff.mpr sound⟩

theorem sound_step (s : App) (e : Event) (h : Sound s) : Sound (step s e) := (step_succeeds h e).2

theorem performed_listed {s : App} (h : Sound s) (e : Event) :
    application.perform s e.listed = some (s.step e) :=
  (perform_eq s e).symm.trans (step_succeeds h e).1

/-- No run ever traps or loses the alignment of the list. -/
theorem sound_run (es : List Event) : Sound (run step start es) :=
  invariant_free_run sound_step sound_start es

end App

end TravelBook
