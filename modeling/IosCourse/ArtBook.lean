import IosCourse.GuardedRuns
import IosCourse.ListedApplications
import IosCourse.SwiftInt

/-!
# ArtBookProject

A list of paintings, and a screen that shows one of them or takes the data of a
new one. Both screens work on the same context. The list keeps names and
identifiers in two arrays, which `getData` fills from a fetch; it is called when
the list is loaded and, once for every time the list has appeared, whenever a
painting has been saved. A handler returns `none` where the source traps.
-/

namespace ArtBook

open GuardedRuns ManagedContext ParallelArrays ListedContext

/-- Identifiers are handed out by a counter, so no two calls of `UUID()` agree. -/
abbrev UUID := ℕ

abbrev Data := List UInt8

/-- An object of the entity, with the defaults of the data model. -/
structure Paintings where
  name : Option String := none
  artist : Option String := none
  year : Option ℤ := some 0
  id : Option UUID := none
  image : Option Data := none
  deriving DecidableEq

/-- The attribute `year` is an Integer 16; the others have no range. -/
def Paintings.valid (painting : Paintings) : Bool :=
  painting.year.all fun year => SwiftInt.Fits 16 year

/-- A picture is represented by its JPEG data; `none` stands for the image of the
storyboard and for a picture without data. -/
structure DetailsVC where
  NameText : String := ""
  ArtistText : String := ""
  YearText : String := ""
  ImageView : Option Data := none
  saveButtonIsHidden : Bool := false
  saveButtonIsEnabled : Bool := true
  deriving DecidableEq

namespace DetailsVC

/-- One round of the loop over the fetched objects. -/
def fill (screen : DetailsVC) (result : Paintings) : DetailsVC :=
  { screen with
    NameText := result.name.getD screen.NameText
    ArtistText := result.artist.getD screen.ArtistText
    YearText := (result.year.map toString).getD screen.YearText
    ImageView := result.image.or screen.ImageView }

/-- The screen decides by the name what it is for, and unwraps the identifier. -/
def viewDidLoad (order : FetchOrder Paintings) (context : Context Paintings)
    (chosenPainting : String) (chosenPaintingID : Option UUID) : Option DetailsVC :=
  if chosenPainting ≠ "" then do
    let id ← chosenPaintingID
    let screen : DetailsVC := { saveButtonIsHidden := true }
    return (context.fetch order fun painting => painting.id = some id).foldl fill screen
  else some { saveButtonIsHidden := false, saveButtonIsEnabled := false }

/-- The object that the save button inserts, with a new identifier. -/
def newPainting (id : UUID) (screen : DetailsVC) : Paintings :=
  let painting : Paintings := { name := some screen.NameText, artist := some screen.ArtistText }
  let painting :=
    match SwiftInt.ofString screen.YearText with
    | some year => { painting with year := some year }
    | none => painting
  { painting with id := some id, image := screen.ImageView }

end DetailsVC

/-- `rows` is the row count that the table view was last given, and `observers`
counts the registrations for the notification. -/
structure ViewController where
  nameArray : List String := []
  idArray : List UUID := []
  selectedPainting : String := ""
  selectedPaintingID : Option UUID := none
  rows : ℕ := 0
  observers : ℕ := 0
  deriving DecidableEq

namespace ViewController

def numberOfRowsInSection (list : ViewController) : ℕ := list.nameArray.length

def reloadData (list : ViewController) : ViewController :=
  { list with rows := list.numberOfRowsInSection }

/-- One round of the loop in `getData`, with two independent casts. -/
def append (list : ViewController) (result : Paintings) : ViewController :=
  { list with
    nameArray := list.nameArray ++ result.name.toList
    idArray := list.idArray ++ result.id.toList }.reloadData

def getData (order : FetchOrder Paintings) (context : Context Paintings)
    (list : ViewController) : ViewController :=
  (context.fetch order fun _ => true).foldl append { list with nameArray := [], idArray := [] }

/-- The notification reaches `getData` once for each registration. -/
def post (orders : ℕ → FetchOrder Paintings) (context : Context Paintings)
    (list : ViewController) : ViewController :=
  (List.range list.observers).foldl (fun list n => list.getData (orders n) context) list

def cellForRowAt (row : ℕ) (list : ViewController) : Option String := list.nameArray[row]?

def didSelectRowAt (row : ℕ) (list : ViewController) : Option ViewController := do
  let name ← list.nameArray[row]?
  let id ← list.idArray[row]?
  return { list with selectedPainting := name, selectedPaintingID := some id }

/-- The identifier that was selected before stays. -/
def addButtonClicked (list : ViewController) : ViewController :=
  { list with selectedPainting := "" }

def removeRow (row : ℕ) (list : ViewController) : Option ViewController := do
  let nameArray ← removeAt row list.nameArray
  let idArray ← removeAt row list.idArray
  return { list with nameArray := nameArray, idArray := idArray }.reloadData

end ViewController

structure App where
  context : Context Paintings
  nextUUID : UUID
  list : ViewController
  details : Option DetailsVC
  trapped : Bool
  deriving DecidableEq

/-- A save may fail with an `error` of the store, apart from validation. -/
inductive Event where
  | launch (order : FetchOrder Paintings)
  | viewDidLoad (order : FetchOrder Paintings)
  | viewWillAppear
  | cellForRowAt (row : ℕ)
  | didSelectRowAt (row : ℕ) (order : FetchOrder Paintings)
  | addButtonClicked (order : FetchOrder Paintings)
  | commitDelete (row : ℕ) (order : FetchOrder Paintings) (error : Bool)
  | edit (name artist year : String)
  | imagePicked (image : Option Data)
  | SaveButtonClicled (error : Bool) (orders : ℕ → FetchOrder Paintings)
  | back

namespace App

/-- `prepare(for:)` hands over the selection, and the other screen is loaded. -/
def performSegue (order : FetchOrder Paintings) (list : ViewController) (s : App) :
    Option App := do
  let details ← DetailsVC.viewDidLoad order s.context list.selectedPainting
    list.selectedPaintingID
  return { s with list := list, details := some details }

/-- The loop over the fetched objects, left at the first deletion. The identifier
of the row is read again in each round. -/
def deleteLoop (row : ℕ) (error : Bool) (s : App) : List Paintings → Option App
  | [] => some s
  | result :: rest =>
    match result.id with
    | none => deleteLoop row error s rest
    | some id => do
      let shown ← s.list.idArray[row]?
      if id = shown then
        let context := s.context.delete result
        let list ← s.list.removeRow row
        return { s with context := context.save Paintings.valid error, list := list }
      else deleteLoop row error s rest

def commitDelete (row : ℕ) (order : FetchOrder Paintings) (error : Bool) (s : App) :
    Option App := do
  let id ← s.list.idArray[row]?
  deleteLoop row error s (s.context.fetch order fun painting => painting.id = some id)

/-- The screen on which the save button can be tapped. -/
def savingScreen (s : App) : Option DetailsVC :=
  s.details.filter fun screen => !screen.saveButtonIsHidden && screen.saveButtonIsEnabled

/-- A save that throws is only printed; the notification is posted in any case. -/
def saveButtonClicled (error : Bool) (orders : ℕ → FetchOrder Paintings) (s : App) : App :=
  match s.savingScreen with
  | none => s
  | some screen =>
    let context := (s.context.insert (screen.newPainting s.nextUUID)).save Paintings.valid error
    { s with
      context := context
      nextUUID := s.nextUUID + 1
      list := s.list.post orders context }

/-- Rows are asked for and tapped below the row count, and the list leads to the
other screen only after it has appeared. -/
def perform (s : App) : Event → Option App
  | .launch order =>
    let context := s.context.reset
    some { s with
      context := context
      list := ViewController.getData order context {}
      details := none }
  | .viewDidLoad order => some { s with list := s.list.getData order s.context }
  | .viewWillAppear => some { s with list := { s.list with observers := s.list.observers + 1 } }
  | .cellForRowAt row =>
    if row < s.list.rows then (s.list.cellForRowAt row).map fun _ => s else some s
  | .didSelectRowAt row order =>
    if row < s.list.rows ∧ 0 < s.list.observers then do
      let list ← s.list.didSelectRowAt row
      s.performSegue order list
    else some s
  | .addButtonClicked order =>
    if 0 < s.list.observers then s.performSegue order s.list.addButtonClicked else some s
  | .commitDelete row order error =>
    if row < s.list.rows then s.commitDelete row order error else some s
  | .edit name artist year =>
    some { s with details := s.details.map fun screen =>
      { screen with NameText := name, ArtistText := artist, YearText := year } }
  | .imagePicked image =>
    some { s with details := s.details.map fun screen =>
      { screen with ImageView := image, saveButtonIsEnabled := true } }
  | .SaveButtonClicled error orders => some (s.saveButtonClicled error orders)
  | .back => some { s with details := none }

/-- A process that has trapped does nothing more. -/
def step (s : App) (e : Event) : App :=
  if s.trapped then s else (s.perform e).getD { s with trapped := true }

/-- The first launch, on an empty store. -/
def start : App := ⟨.empty, 0, {}, none, false⟩

end App

/-- The two screens as an application that lists a context. -/
def application : ListedApplications.Application App ViewController DetailsVC Paintings String where
  title := Paintings.name
  id := Paintings.id
  titles := ViewController.nameArray
  ids := ViewController.idArray
  rows := ViewController.rows
  observers := ViewController.observers
  clear list := { list with nameArray := [], idArray := [] }
  append := ViewController.append
  valid := Paintings.valid
  context := App.context
  nextUUID := App.nextUUID
  list := App.list
  details := App.details
  trapped := App.trapped
  update s context nextUUID list details :=
    { s with context := context, nextUUID := nextUUID, list := list, details := details }
  loaded := {}
  getData := ViewController.getData
  appear list := { list with observers := list.observers + 1 }
  cellForRowAt := ViewController.cellForRowAt
  didSelectRowAt := ViewController.didSelectRowAt
  addButtonClicked := ViewController.addButtonClicked
  removeRow := ViewController.removeRow
  viewDidLoad order context list :=
    DetailsVC.viewDidLoad order context list.selectedPainting list.selectedPaintingID
  saving details :=
    details.filter fun screen => !screen.saveButtonIsHidden && screen.saveButtonIsEnabled
  record := DetailsVC.newPainting

def Event.listed : Event → ListedApplications.Event DetailsVC Paintings
  | .launch order => .launch order
  | .viewDidLoad order => .viewDidLoad order
  | .viewWillAppear => .viewWillAppear
  | .cellForRowAt row => .cellForRowAt row
  | .didSelectRowAt row order => .didSelectRowAt row order
  | .addButtonClicked order => .addButtonClicked order
  | .commitDelete row order error => .commitDelete row order error
  | .edit name artist year =>
    .edit fun screen => { screen with NameText := name, ArtistText := artist, YearText := year }
  | .imagePicked image =>
    .edit fun screen => { screen with ImageView := image, saveButtonIsEnabled := true }
  | .SaveButtonClicled error orders => .save error orders
  | .back => .back

theorem removeRow_eq {list : ViewController} {row : ℕ} (names : row < list.nameArray.length)
    (ids : row < list.idArray.length) :
    list.removeRow row = some { list with
      nameArray := list.nameArray.eraseIdx row
      idArray := list.idArray.eraseIdx row }.reloadData := by
  simp [ViewController.removeRow, removeAt, names, ids]

theorem viewDidLoad_of_id (order : FetchOrder Paintings) (context : Context Paintings)
    (name : String) (id : UUID) :
    ∃ screen, DetailsVC.viewDidLoad order context name (some id) = some screen := by
  unfold DetailsVC.viewDidLoad
  split <;> exact ⟨_, rfl⟩

/-- Every painting is entered with a name. -/
theorem conforms :
    ListedApplications.Conforms application fun painting => painting.name.isSome where
  fills := by constructor <;> intros <;> rfl
  titled _ named := named
  context_update _ _ _ _ _ := rfl
  nextUUID_update _ _ _ _ _ := rfl
  list_update _ _ _ _ _ := rfl
  details_update _ _ _ _ _ := rfl
  trapped_update _ _ _ _ _ := rfl
  loaded := ⟨rfl, rfl, rfl⟩
  refreshed _ _ _ := Or.inl rfl
  appear _ := ⟨rfl, rfl, rfl, Nat.succ_pos _⟩
  cells _ _ := rfl
  selects row list name id named identified := by
    have named : list.nameArray[row]? = some name := named
    have identified : list.idArray[row]? = some id := identified
    refine ⟨{ list with selectedPainting := name, selectedPaintingID := some id }, ?_,
      ⟨rfl, rfl, rfl, rfl⟩, fun order context => viewDidLoad_of_id order context name id⟩
    simp [application, ViewController.didSelectRowAt, named, identified]
  adds _ := ⟨⟨rfl, rfl, rfl, rfl⟩, fun _ _ => ⟨_, rfl⟩⟩
  removes row list bound aligned := ⟨_, removeRow_eq bound (aligned ▸ bound), rfl, rfl, rfl, rfl⟩
  saving _ _ saves := (Option.filter_eq_some_iff.mp saves).1
  id_record _ _ := rfl
  good_record n screen := by
    show (screen.newPainting n).name.isSome
    unfold DetailsVC.newPainting
    cases SwiftInt.ofString screen.YearText <;> rfl

/-- The arrays and the row count are right for this context. -/
def ViewController.Shows (context : Context Paintings) (list : ViewController) : Prop :=
  ListedContext.Shows Paintings.name Paintings.id context list.nameArray list.idArray list.rows

namespace App

structure Sound (s : App) : Prop where
  running : s.trapped = false
  titled : Titled Paintings.name Paintings.id s.nextUUID s.context
  shows : s.list.Shows s.context
  appeared : s.details.isSome → 0 < s.list.observers

theorem sound_start : Sound start where
  running := rfl
  titled := Context.registered_empty
  shows := shows_empty
  appeared := fun opened => absurd opened (by decide)

theorem sound_iff {s : App} :
    Sound s ↔ ListedApplications.Sound application (fun painting => painting.name.isSome) s :=
  ⟨fun h => ⟨h.running, h.titled, h.shows, h.appeared⟩,
    fun h => ⟨h.running, h.registered, h.shows, h.appeared⟩⟩

theorem deleteLoop_eq (row : ℕ) (error : Bool) (s : App) (results : List Paintings) :
    deleteLoop row error s results = application.deleteLoop row error s results := by
  induction results with
  | nil => rfl
  | cons result rest ih =>
    rw [deleteLoop, ListedApplications.Application.deleteLoop, ih]
    rfl

theorem commitDelete_listed (row : ℕ) (order : FetchOrder Paintings) (error : Bool) (s : App) :
    s.commitDelete row order error = application.commitDelete row order error s := by
  simp only [commitDelete, deleteLoop_eq]
  rfl

/-- The handlers are those of an application that lists a context. -/
theorem perform_eq (s : App) (e : Event) : s.perform e = application.perform s e.listed := by
  cases e with
  | commitDelete row order error =>
    rw [perform, commitDelete_listed]
    rfl
  | SaveButtonClicled error orders =>
    show some (s.saveButtonClicled error orders) = some (application.save error orders s)
    have same : application.saving (application.details s) = s.savingScreen := rfl
    unfold saveButtonClicled ListedApplications.Application.save
    rw [same]
    cases s.savingScreen <;> rfl
  | _ => rfl

/-- A deletion removes the row, deletes its record, and saves. -/
theorem commitDelete_eq {s : App} (h : Sound s) {row : ℕ} (asked : row < s.list.rows)
    {painting : Paintings} (mem : painting ∈ s.context.objects)
    (behind : painting.id = s.list.idArray[row]?) (order : FetchOrder Paintings) (error : Bool) :
    s.commitDelete row order error = some { s with
      context := (s.context.delete painting).save Paintings.valid error
      list := { s.list with
        nameArray := s.list.nameArray.eraseIdx row
        idArray := s.list.idArray.eraseIdx row }.reloadData } := by
  have names : row < s.list.nameArray.length := h.shows.counted ▸ asked
  have removes := removeRow_eq names (h.shows.listed.length_eq ▸ names)
  rw [commitDelete_listed]
  exact ListedApplications.commitDelete_eq (sound_iff.mp h) asked mem behind removes order error

/-- Selecting a row opens the other screen for its name and identifier. -/
theorem didSelectRowAt_eq {s : App} {row : ℕ} {name : String} {id : UUID}
    (named : s.list.nameArray[row]? = some name) (identified : s.list.idArray[row]? = some id)
    {order : FetchOrder Paintings} {screen : DetailsVC}
    (loaded : DetailsVC.viewDidLoad order s.context name (some id) = some screen)
    (delivered : row < s.list.rows ∧ 0 < s.list.observers) :
    s.perform (.didSelectRowAt row order) = some { s with
      list := { s.list with selectedPainting := name, selectedPaintingID := some id }
      details := some screen } := by
  simp [perform, delivered, ViewController.didSelectRowAt, named, identified, performSegue, loaded]

/-- No event traps, and every event keeps the arrays aligned. -/
theorem step_succeeds {s : App} (h : Sound s) (e : Event) :
    s.perform e = some (step s e) ∧ Sound (step s e) := by
  refine @trapStep_succeeds _ _ perform App.trapped (fun s => { s with trapped := true }) Sound
    (fun _ h => h.running) (fun s e h => ?_) s h e
  obtain ⟨t, performed, sound⟩ :=
    ListedApplications.perform_sound conforms (sound_iff.mp h) e.listed
  exact ⟨t, (perform_eq s e).trans performed, sound_iff.mpr sound⟩

theorem sound_step (s : App) (e : Event) (h : Sound s) : Sound (step s e) := (step_succeeds h e).2

theorem performed_listed {s : App} (h : Sound s) (e : Event) :
    application.perform s e.listed = some (s.step e) :=
  (perform_eq s e).symm.trans (step_succeeds h e).1

/-- No run ever traps or loses the alignment of the list. -/
theorem sound_run (es : List Event) : Sound (run step start es) :=
  invariant_free_run sound_step sound_start es

end App

end ArtBook
