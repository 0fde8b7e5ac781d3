import IosCourse.GuardedRuns
import IosCourse.ParallelArrays

/-!
# LandmarkBook

The names and the images of the landmarks are two arrays that are filled when the view
is loaded. A row is deleted from both, and the table view compares its row count before
and after. A touched row is shown on a second screen. Seen from outside, the arrays are
one list of landmarks from which rows are taken out.
-/

namespace LandmarkBook

open GuardedRuns ParallelArrays

universe u
variable {UIImage : Type u}

structure Landmark (UIImage : Type u) where
  name : String
  image : UIImage

/-- `rows` is the row count that the table view was last given. -/
structure ViewController (UIImage : Type u) where
  landmarkNames : List String := []
  landmarkImages : List UIImage := []
  chosenLandmarkNames : String := ""
  chosenLandmarkImages : UIImage
  rows : ℕ := 0

structure ImageViewContoller (UIImage : Type u) where
  selectedLandmarkName : String := ""
  selectedLandmarkImage : UIImage
  LandmarkLabel : String := "Label"
  LandmarkImageView : Option UIImage := none

def names : List String := ["Colosseum", "GreatWall", "Kremlin", "StoneHenge", "TajMahal", "Eiffel"]

namespace ViewController

/-- `none` is a trap: an image that is not among the assets is unwrapped by force. -/
def viewDidLoad (named : String → Option UIImage) (s : ViewController UIImage) :
    Option (ViewController UIImage) :=
  (names.mapM named).map fun images =>
    { s with
      landmarkNames := s.landmarkNames ++ names
      landmarkImages := s.landmarkImages ++ images }

def numberOfRowsInSection (s : ViewController UIImage) : ℕ := s.landmarkImages.length

def cellForRowAt (row : ℕ) (s : ViewController UIImage) : Option String := s.landmarkNames[row]?

/-- The table view traps where the new count is not one less than the old. -/
def deleteRow (s : ViewController UIImage) : Option (ViewController UIImage) :=
  if s.numberOfRowsInSection + 1 = s.rows then some { s with rows := s.numberOfRowsInSection }
  else none

def commitDelete (row : ℕ) (s : ViewController UIImage) : Option (ViewController UIImage) :=
  (removeAt row s.landmarkNames).bind fun names =>
    (removeAt row s.landmarkImages).bind fun images =>
      deleteRow { s with landmarkNames := names, landmarkImages := images }

def prepare (s : ViewController UIImage) : ImageViewContoller UIImage :=
  { selectedLandmarkName := s.chosenLandmarkNames
    selectedLandmarkImage := s.chosenLandmarkImages }

def didSelectRowAt (row : ℕ) (s : ViewController UIImage) :
    Option (ViewController UIImage × ImageViewContoller UIImage) :=
  s.landmarkNames[row]?.bind fun name =>
    s.landmarkImages[row]?.map fun image =>
      let s := { s with chosenLandmarkNames := name, chosenLandmarkImages := image }
      (s, s.prepare)

end ViewController

def ImageViewContoller.viewDidLoad (s : ImageViewContoller UIImage) : ImageViewContoller UIImage :=
  { s with
    LandmarkLabel := s.selectedLandmarkName
    LandmarkImageView := some s.selectedLandmarkImage }

/-- `shown` is the second screen with the row that was touched. -/
structure App (UIImage : Type u) where
  screen : ViewController UIImage
  shown : Option (ℕ × ImageViewContoller UIImage) := none
  trapped : Bool := false

inductive Event where
  | numberOfRowsInSection
  | cellForRowAt (row : ℕ)
  | commitDelete (row : ℕ)
  | didSelectRowAt (row : ℕ)
  | back

namespace App

/-- The table has the rows that it was given last and is covered by the second screen. -/
def perform (s : App UIImage) : Event → Option (App UIImage)
  | .numberOfRowsInSection =>
    some { s with screen := { s.screen with rows := s.screen.numberOfRowsInSection } }
  | .cellForRowAt row =>
    if row < s.screen.rows then (s.screen.cellForRowAt row).map fun _ => s else some s
  | .commitDelete row =>
    if s.shown.isNone ∧ row < s.screen.rows then
      (s.screen.commitDelete row).map fun screen => { s with screen := screen }
    else some s
  | .didSelectRowAt row =>
    if s.shown.isNone ∧ row < s.screen.rows then
      (s.screen.didSelectRowAt row).map fun (screen, next) =>
        { s with screen := screen, shown := some (row, next.viewDidLoad) }
    else some s
  | .back => some { s with shown := none }

def step : App UIImage → Event → App UIImage :=
  trapStep perform App.trapped fun s => { s with trapped := true }

end App

/-- The screen shows this list of landmarks. -/
structure Shows (s : App UIImage) (book : List (Landmark UIImage)) : Prop where
  running : s.trapped = false
  landmarkNames : s.screen.landmarkNames = book.map Landmark.name
  landmarkImages : s.screen.landmarkImages = book.map Landmark.image
  rows : s.screen.rows = 0 ∨ s.screen.rows = book.length
  shown : ∀ row next, s.shown = some (row, next) → ∃ landmark, book[row]? = some landmark ∧
    next.LandmarkLabel = landmark.name ∧ next.LandmarkImageView = some landmark.image

/-- What an event does to the list. -/
def removeRow (s : App UIImage) (e : Event) (book : List (Landmark UIImage)) :
    List (Landmark UIImage) :=
  match e with
  | .commitDelete row => if s.shown.isNone ∧ row < s.screen.rows then book.eraseIdx row else book
  | _ => book

variable {s : App UIImage} {book : List (Landmark UIImage)}

theorem entry_of_row (h : Shows s book) {row : ℕ} (below : row < s.screen.rows) :
    ∃ landmark, book[row]? = some landmark ∧
      s.screen.landmarkNames[row]? = some landmark.name ∧
      s.screen.landmarkImages[row]? = some landmark.image := by
  have inBook : row < book.length := by
    have counted := h.rows
    omega
  have entry : book[row]? = some book[row] := List.getElem?_eq_getElem inBook
  refine ⟨book[row], entry, ?_, ?_⟩
  · rw [h.landmarkNames, List.getElem?_map, entry, Option.map_some]
  · rw [h.landmarkImages, List.getElem?_map, entry, Option.map_some]

end LandmarkBook
