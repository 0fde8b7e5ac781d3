import IosCourse.TravelBook

/-!
# The coordinates that TravelBook saves

A save writes the chosen coordinates, which start at zero and follow the long
presses only. The pin of a place that was opened from the list is kept in other
variables, which a save does not read, and a save does not ask for a pin.
-/

namespace TravelBookPins

open GuardedRuns ManagedContext TravelBook TravelBook.App

/-- The pin last placed on the screen or, if there is none, the one loaded with it. -/
def pin (screen : ViewController) : Option Coordinate :=
  (screen.placedPins.getLast?.or screen.loadedPins.getLast?).map Annotation.coordinate

/-- What has been inserted is where the pin is, and without a pin nothing has. -/
def InsertedAtPin (screen : ViewController) (before after : List Places) : Prop :=
  match pin screen with
  | none => after = before
  | some coordinate => ∀ place ∈ after, place ∉ before →
    place.latitude = some coordinate.latitude ∧ place.longitude = some coordinate.longitude

instance (screen : ViewController) (before after : List Places) :
    Decidable (InsertedAtPin screen before after) := by
  unfold InsertedAtPin
  split <;> infer_instance

def SavesPin (s : App) (e : Event) (t : App) : Prop :=
  match e with
  | .SaveButtonClicked _ _ => ∀ screen ∈ s.details,
    InsertedAtPin screen s.context.objects t.context.objects
  | _ => True

instance (s : App) (e : Event) (t : App) : Decidable (SavesPin s e t) := by
  unfold SavesPin
  split <;> infer_instance

/-- Before a save a pin was placed on the screen, or the loaded one is at zero. -/
def PlacedOrZero (s : App) (e : Event) : Prop :=
  match e with
  | .SaveButtonClicked _ _ => ∀ screen ∈ s.details, screen.placedPins ≠ [] ∨
    screen.loadedPins.getLast?.map Annotation.coordinate = some ⟨0, 0⟩
  | _ => True

/-- The chosen coordinates are those of the last placed pin, or zero. -/
def ChosenTracks (screen : ViewController) : Prop :=
  (⟨screen.chosenLatitude, screen.chosenLongitude⟩ : Coordinate) =
    (screen.placedPins.getLast?.map Annotation.coordinate).getD ⟨0, 0⟩

theorem load_keeps (screen : ViewController) (result : Places) :
    (screen.load result).placedPins = screen.placedPins ∧
      (screen.load result).chosenLatitude = screen.chosenLatitude ∧
      (screen.load result).chosenLongitude = screen.chosenLongitude := by
  obtain ⟨title, subtitle, latitude, longitude, _⟩ := result
  cases title <;> cases subtitle <;> cases longitude <;> cases latitude <;>
    exact ⟨rfl, rfl, rfl⟩

theorem chosenTracks_load {screen : ViewController} (h : ChosenTracks screen)
    (results : List Places) : ChosenTracks (results.foldl ViewController.load screen) := by
  induction results generalizing screen with
  | nil => exact h
  | cons result rest ih =>
    obtain ⟨placed, latitude, longitude⟩ := load_keeps screen result
    refine ih ?_
    rw [ChosenTracks, placed, latitude, longitude]
    exact h

theorem chosenTracks_viewDidLoad {order : FetchOrder Places} {context : Context Places}
    {title : String} {id : Option UUID} {screen : ViewController}
    (loaded : ViewController.viewDidLoad order context title id = some screen) :
    ChosenTracks screen := by
  unfold ViewController.viewDidLoad at loaded
  split at loaded
  · obtain ⟨id, rfl, h⟩ := Option.bind_eq_some_iff.mp loaded
    cases h
    have fresh : ChosenTracks {} := rfl
    exact chosenTracks_load fresh _
  · cases loaded
    rfl

theorem chosenTracks_chooseLocation {screen : ViewController} (h : ChosenTracks screen)
    (state : GestureState) (touchedCoordinates : Coordinate) :
    ChosenTracks (screen.chooseLocation state touchedCoordinates) := by
  unfold ViewController.chooseLocation
  split
  · simp [ChosenTracks]
  · exact h

theorem chosenTracks_performSegue {s t : App} {order : FetchOrder Places}
    {list : ListViewController} (h : s.performSegue order list = some t) :
    ∀ screen ∈ t.details, ChosenTracks screen := by
  obtain ⟨screen, loaded, h⟩ := Option.bind_eq_some_iff.mp h
  cases h
  rintro _ ⟨⟩
  exact chosenTracks_viewDidLoad loaded

/-- Every open screen keeps track of the long presses on it. -/
structure Tracked (s : App) : Prop where
  sound : Sound s
  tracks : ∀ screen ∈ s.details, ChosenTracks screen

theorem tracks_perform {s t : App} {e : Event} (h : Tracked s)
    (performed : s.perform e = some t) : ∀ screen ∈ t.details, ChosenTracks screen := by
  cases e with
  | launch order => cases performed; exact fun _ opened => by cases opened
  | viewDidLoad order => cases performed; exact h.tracks
  | viewWillAppear => cases performed; exact h.tracks
  | cellForRowAt row =>
    simp only [perform] at performed
    split at performed
    · obtain ⟨_, _, rfl⟩ := Option.map_eq_some_iff.mp performed
      exact h.tracks
    · cases performed
      exact h.tracks
  | didSelectRowAt row order =>
    simp only [perform] at performed
    split at performed
    · obtain ⟨list, _, opened⟩ := Option.bind_eq_some_iff.mp performed
      exact chosenTracks_performSegue opened
    · cases performed
      exact h.tracks
  | addButtonClicked order =>
    simp only [perform] at performed
    split at performed
    · exact chosenTracks_performSegue performed
    · cases performed
      exact h.tracks
  | commitDelete row order error =>
    simp only [perform] at performed
    split at performed
    · rename_i asked
      obtain ⟨place, mem, behind⟩ := h.sound.shows.behind_row asked
      rw [commitDelete_eq h.sound asked mem behind] at performed
      cases performed
      exact h.tracks
    · cases performed
      exact h.tracks
  | edit name comment =>
    cases performed
    intro screen mem
    obtain ⟨before, opened, rfl⟩ := Option.map_eq_some_iff.mp mem
    exact h.tracks before opened
  | chooseLocation state touchedCoordinates =>
    cases performed
    intro screen mem
    obtain ⟨before, opened, rfl⟩ := Option.map_eq_some_iff.mp mem
    exact chosenTracks_chooseLocation (h.tracks before opened) state touchedCoordinates
  | SaveButtonClicked error orders =>
    cases performed
    unfold saveButtonClicked
    split <;> exact h.tracks
  | back => cases performed; exact fun _ opened => by cases opened

theorem tracked_step (s : App) (e : Event) (h : Tracked s) : Tracked (step s e) := by
  obtain ⟨performed, sound⟩ := step_succeeds h.sound e
  exact ⟨sound, tracks_perform h performed⟩

/-- The inserted record is the only new one. -/
theorem objects_saved {s : App} (h : Sound s) {screen : ViewController}
    (opened : s.details = some screen) (error : Bool) (orders : ℕ → FetchOrder Places) :
    (step s (.SaveButtonClicked error orders)).context.objects =
        s.context.objects ++ [screen.newPlace s.nextUUID] ∧
      screen.newPlace s.nextUUID ∉ s.context.objects := by
  refine ⟨by simp [step, h.running, perform, saveButtonClicked, opened], ?_⟩
  intro old
  exact h.titled.fresh rfl (List.mem_map_of_mem (Context.mem_all_of_mem_objects old))

theorem forall_new_iff {old : List Places} {new : Places} (fresh : new ∉ old)
    {P : Places → Prop} : (∀ place ∈ old ++ [new], place ∉ old → P place) ↔ P new := by
  constructor
  · exact fun every => every new (by simp) fresh
  · intro holds place mem absent
    rcases List.mem_append.mp mem with known | added
    · exact absurd known absent
    · rwa [List.mem_singleton.mp added]

theorem newPlace_at_iff {screen : ViewController} {id : UUID} {coordinate : Coordinate} :
    (screen.newPlace id).latitude = some coordinate.latitude ∧
        (screen.newPlace id).longitude = some coordinate.longitude ↔
      (⟨screen.chosenLatitude, screen.chosenLongitude⟩ : Coordinate) = coordinate := by
  obtain ⟨latitude, longitude⟩ := coordinate
  simp [ViewController.newPlace]

theorem savesPin_iff (s : App) (e : Event) (h : Tracked s) :
    SavesPin s e (step s e) ↔ PlacedOrZero s e := by
  cases e with
  | SaveButtonClicked error orders =>
    cases opened : s.details with
    | none => simp [SavesPin, PlacedOrZero, opened]
    | some screen =>
      obtain ⟨objects, new⟩ := objects_saved h.sound opened error orders
      have tracks : ChosenTracks screen := h.tracks screen opened
      simp only [SavesPin, PlacedOrZero, opened, objects, Option.mem_def, Option.some.injEq,
        forall_eq']
      cases placed : screen.placedPins.getLast? with
      | some last =>
        rw [ChosenTracks, placed] at tracks
        have nonempty : screen.placedPins ≠ [] := by
          rintro none_placed
          simp [none_placed] at placed
        simp only [InsertedAtPin, pin, placed, Option.some_or, Option.map_some,
          forall_new_iff new, newPlace_at_iff]
        exact iff_of_true tracks (Or.inl nonempty)
      | none =>
        rw [ChosenTracks, placed] at tracks
        have empty := List.getLast?_eq_none_iff.mp placed
        cases loaded : screen.loadedPins.getLast? with
        | none => simp [InsertedAtPin, pin, loaded, empty]
        | some first =>
          simp only [InsertedAtPin, pin, loaded, Option.map_some, forall_new_iff new,
            newPlace_at_iff, empty]
          rw [tracks]
          simp [eq_comm]
  | _ => simp [SavesPin, PlacedOrZero]

/-- Every record that a run inserts is at the pin of its screen exactly when every
save comes after a long press on its screen or finds the loaded pin at zero. -/
theorem saved_at_pin_iff (es : List Event) :
    Always step SavesPin start es ↔ Always step (fun s e _ => PlacedOrZero s e) start es := by
  have tracked : Tracked start := ⟨sound_start, fun _ opened => by cases opened⟩
  exact always_congr_of_invariant tracked_step (fun s e h _ => savesPin_iff s e h) tracked
    (always_trivial step start es)

/-- A place is saved with a pin; when it is opened and saved unchanged, the new
record is at zero. -/
theorem reopened_place_saved_at_zero : ¬ ∀ es : List Event, Always step SavesPin start es := by
  intro every
  have only := every [.launch .unchanged, .viewWillAppear, .addButtonClicked .unchanged,
    .edit "home" "", .chooseLocation .began ⟨41, 29⟩,
    .SaveButtonClicked false fun _ => .unchanged, .back, .didSelectRowAt 0 .unchanged,
    .SaveButtonClicked false fun _ => .unchanged]
  revert only
  decide

end TravelBookPins
