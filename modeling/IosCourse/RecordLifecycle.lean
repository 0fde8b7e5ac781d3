import IosCourse.ContextLifecycle
import IosCourse.RecordSaves

/-!
# ArtBookProject and TravelBook in the background

Both applications keep the scene delegate of the project template: the context is saved
when the application enters the background, and a save that throws there ends the
process, although the save button only prints the same error. What the list showed at
that moment is stored from then on.
-/

namespace RecordLifecycle

open GuardedRuns ManagedContext ParallelArrays ListedContext ContextJournal ContextLifecycle
open RecordSaves
open ArtBook (Paintings)
open TravelBook (Places)

def artBook : Host ArtBook.App ArtBook.Event Paintings where
  perform := ArtBook.App.perform
  launches
    | .launch _ => true
    | _ => false
  context := ArtBook.App.context
  setContext s context := { s with context := context }
  trapped := ArtBook.App.trapped
  setTrapped s trapped := { s with trapped := trapped }

def travelBook : Host TravelBook.App TravelBook.Event Places where
  perform := TravelBook.App.perform
  launches
    | .launch _ => true
    | _ => false
  context := TravelBook.App.context
  setContext s context := { s with context := context }
  trapped := TravelBook.App.trapped
  setTrapped s trapped := { s with trapped := trapped }

section Hosts
variable {App Table Screen Object Title Event : Type} [DecidableEq Object]
variable {app : ListedApplications.Application App Table Screen Object Title}
variable {good : Object → Prop} {host : Host App Event Object}
variable {listed : Event → ListedApplications.Event Screen Object}

/-- A host is lawful if its events are those of an application that lists a context, under
their own names, and it replaces the context and ends the process without touching more. -/
theorem lawful_of_conforms (conforms : ListedApplications.Conforms app good)
    (performs : ∀ s e, host.perform s e = app.perform s (listed e))
    (context : host.context = app.context) (trapped : host.trapped = app.trapped)
    (replaces : host.setContext = app.withContext)
    (context_setTrapped : ∀ s b, host.context (host.setTrapped s b) = host.context s)
    (trapped_setTrapped : ∀ s b, host.trapped (host.setTrapped s b) = b)
    (revived : ∀ s, host.trapped s = false →
      host.setTrapped (host.setTrapped s true) false = s) :
    Lawful host app.valid (ListedApplications.Sound app good)
      (fun s e => app.operations s (listed e)) where
  running s h := by rw [trapped, h.running]
  performs s e h := by
    obtain ⟨t, performed, sound⟩ := ListedApplications.perform_sound conforms h (listed e)
    refine ⟨t, (performs s e).trans performed, sound, ?_⟩
    rw [context]
    exact ListedApplications.context_perform conforms h performed
  saved s error h := by
    have shows : app.Shows ((app.context s).save app.valid error) (app.list s) := by
      refine ⟨?_, h.shows.counted⟩
      rw [Context.objects_save]
      exact h.shows.listed
    rw [replaces, context]
    exact ListedApplications.sound_update conforms h.running
      (h.registered.of_subperm (Context.all_save_sublist ..).subperm) shows h.appeared
  context_setContext s c := by
    rw [context, replaces]
    exact conforms.context_update ..
  context_setTrapped := context_setTrapped
  trapped_setTrapped := trapped_setTrapped
  revived s h := revived s (by rw [trapped, h.running])

omit [DecidableEq Object] in
/-- A deletion by the application that is there is made at the row of its record. -/
theorem commitDelete_of_delete {s : App} {e : LifeEvent Event} {o : Object} {id : ℕ}
    (launches : ∀ e, host.launches e = (listed e).launches)
    (known : app.id o = some id)
    (deletes : .delete o ∈ lifeOperations host (fun s e => app.operations s (listed e)) s e) :
    ∃ event row order error, e = .foreground event ∧ listed event = .commitDelete row order error ∧
      row < app.rows (app.list s) ∧ (app.ids (app.list s))[row]? = some id := by
  obtain ⟨event, rfl, alive | ⟨launch, revived⟩⟩ := delete_of_lifeOperations deletes
  · obtain ⟨row, order, error, asks, asked, found⟩ :=
      ListedApplications.commitDelete_of_delete alive
    exact ⟨event, row, order, error, rfl, asks, asked,
      ListedApplications.id_of_recordAt found known⟩
  · obtain ⟨row, order, error, asks, _⟩ := ListedApplications.commitDelete_of_delete revived
    rw [launches, asks] at launch
    cases launch

end Hosts

theorem artBook_lawful : Lawful artBook Paintings.valid
    (ListedApplications.Sound ArtBook.application fun painting => painting.name.isSome)
    (fun s e => ArtBook.application.operations s e.listed) :=
  lawful_of_conforms ArtBook.conforms ArtBook.App.perform_eq rfl rfl rfl (fun _ _ => rfl)
    (fun _ _ => rfl) fun ⟨_, _, _, _, _⟩ running => by cases running; rfl

theorem travelBook_lawful : Lawful travelBook Places.valid
    (ListedApplications.Sound TravelBook.application Places.Complete)
    (fun s e => TravelBook.application.operations s e.listed) :=
  lawful_of_conforms TravelBook.conforms TravelBook.App.perform_eq rfl rfl rfl (fun _ _ => rfl)
    (fun _ _ => rfl) fun ⟨_, _, _, _, _⟩ running => by cases running; rfl

theorem painting_reached (es : List (LifeEvent ArtBook.Event)) : Reached artBook
    (ListedApplications.Sound ArtBook.application fun painting => painting.name.isSome)
    (run (step artBook Paintings.valid) .start es) :=
  reached_run artBook_lawful (.running (ArtBook.App.sound_iff.mp ArtBook.App.sound_start)) es

theorem place_reached (es : List (LifeEvent TravelBook.Event)) : Reached travelBook
    (ListedApplications.Sound TravelBook.application Places.Complete)
    (run (step travelBook Places.valid) .start es) :=
  reached_run travelBook_lawful (.running (TravelBook.App.sound_iff.mp TravelBook.App.sound_start))
    es

/-- If the store works whenever the application enters the background, each step of a run
of ArtBookProject, also after earlier ends and launches, ends the process exactly where it
is one into the background and a painting with a year that does not fit is listed.
TravelBook is never ended. -/
theorem ended_in_background_iff :
    (∀ es : List (LifeEvent ArtBook.Event), (∀ e ∈ es, e ≠ .enterBackground true) →
      Always (step artBook Paintings.valid)
        (fun s e t => StaysAlive artBook s e t ↔ ShowsValid artBook Paintings.valid s e)
        .start es) ∧
    ∀ es : List (LifeEvent TravelBook.Event), (∀ e ∈ es, e ≠ .enterBackground true) →
      Always (step travelBook Places.valid) (StaysAlive travelBook) .start es := by
  constructor
  · intro es works
    exact always_staysAlive_iff artBook_lawful (painting_reached [])
      (fun painting mem => absurd mem List.not_mem_nil) es works
  · intro es works
    have ends_iff := always_staysAlive_iff travelBook_lawful (place_reached [])
      (fun place mem => absurd mem List.not_mem_nil) es works
    refine always_mono _ (fun s e t same => same.mpr ?_) ends_iff
    cases e with
    | foreground event => trivial
    | enterBackground error => exact fun _ _ _ => rfl

/-- The first launch, and a painting entered with this year. -/
def entered (year : String) : List (LifeEvent ArtBook.Event) :=
  [.foreground (.launch .unchanged), .foreground .viewWillAppear,
    .foreground (.addButtonClicked .unchanged), .foreground (.edit "name" "artist" year),
    .foreground (.imagePicked none), .foreground (.SaveButtonClicled false fun _ => .unchanged)]

/-- A painting with a year out of range is entered, the process ends in the background, is
launched again, and enters the background with a painting whose year fits. -/
def endedOnce : List (LifeEvent ArtBook.Event) :=
  entered "99999" ++ [.enterBackground false] ++ entered "1990" ++ [.enterBackground false]

theorem ended_once_then_alive :
    Always (step artBook Paintings.valid)
        (fun s e t => StaysAlive artBook s e t ↔ ShowsValid artBook Paintings.valid s e)
        .start endedOnce ∧
      Always (step travelBook Places.valid) (StaysAlive travelBook) .start
        [.foreground (.launch .unchanged), .enterBackground false] :=
  ⟨ended_in_background_iff.1 endedOnce (by simp [endedOnce, entered]),
    ended_in_background_iff.2 _ (by simp)⟩

/-- A year out of range ends the process, and the painting is gone after the next launch. -/
example :
    let s := run (step artBook Paintings.valid) .start (entered "99999" ++ [.enterBackground false])
    s.trapped = true ∧ s.list.nameArray = ["name"] ∧
      (step artBook Paintings.valid s (.foreground (.launch .unchanged))).list.nameArray = [] := by
  decide

/-- The row with this identifier is deleted. -/
def DeletesPaintingOf (id : ℕ) (s : ArtBook.App) : LifeEvent ArtBook.Event → Prop
  | .foreground (.commitDelete row _ _) => row < s.list.rows ∧ s.list.idArray[row]? = some id
  | _ => False

def DeletesPlaceOf (id : ℕ) (s : TravelBook.App) : LifeEvent TravelBook.Event → Prop
  | .foreground (.commitDelete row _ _) => row < s.list.rows ∧ s.list.idArray[row]? = some id
  | _ => False

theorem deletes_painting {s : ArtBook.App} {e : LifeEvent ArtBook.Event} {painting : Paintings}
    {id : ℕ} (known : painting.id = some id)
    (deletes : .delete painting ∈ lifeOperations artBook
      (fun s e => ArtBook.application.operations s e.listed) s e) : DeletesPaintingOf id s e := by
  obtain ⟨event, row, order, error, rfl, asks, asked, identified⟩ :=
    commitDelete_of_delete (fun e => by cases e <;> rfl) known deletes
  cases event <;> cases asks
  exact ⟨asked, identified⟩

theorem deletes_place {s : TravelBook.App} {e : LifeEvent TravelBook.Event} {place : Places}
    {id : ℕ} (known : place.id = some id)
    (deletes : .delete place ∈ lifeOperations travelBook
      (fun s e => TravelBook.application.operations s e.listed) s e) : DeletesPlaceOf id s e := by
  obtain ⟨event, row, order, error, rfl, asks, asked, identified⟩ :=
    commitDelete_of_delete (fun e => by cases e <;> rfl) known deletes
  cases event <;> cases asks
  exact ⟨asked, identified⟩

section Rows
universe u v w
variable {App : Type u} {Event : Type v} {Object : Type w} [DecidableEq Object]
variable {host : Host App Event Object} {valid : Object → Bool} {good : App → Prop}
variable {operations : App → Event → List (Operation Object)}
variable {title : Object → Option String} {id : Object → Option ℕ}
variable {titles : App → List String} {ids : App → List ℕ}

/-- An application that lists the records of its context in two arrays keeps a row that is
listed when it enters the background, as long as no record with its identifier is deleted. -/
theorem row_survives (lawful : Lawful host valid good operations)
    (lists : ∀ s, good s → Lists title id (titles s) (ids s) (host.context s).objects) {s : App}
    (reached : Reached host good s) {error : Bool} {later : List (LifeEvent Event)}
    (survives : host.trapped (step host valid s (.enterBackground error)) = false)
    {row n : ℕ} {name : String} (named : (titles s)[row]? = some name)
    (identified : (ids s)[row]? = some n)
    (kept : Always (step host valid)
      (fun t e _ => ∀ o, id o = some n → Operation.delete o ∉ lifeOperations host operations t e)
      (step host valid s (.enterBackground error)) later) :
    let t := run (step host valid) (step host valid s (.enterBackground error)) later
    (∃ o ∈ (host.context t).store, title o = some name ∧ id o = some n) ∧
      (host.trapped t = false →
        ∃ row : ℕ, (titles t)[row]? = some name ∧ (ids t)[row]? = some n) := by
  intro t
  have before := good_of_reached lawful reached (running_of_enterBackground survives)
  obtain ⟨o, shown, known, same⟩ := (lists s before).record_of_row identified
  rw [named] at same
  have stored : o ∈ (host.context t).committed := committed_after_background lawful before shown
    survives (always_mono _ (fun _ _ _ untouched => untouched o known) kept)
  refine ⟨⟨o, List.mem_append_left _ stored, same, known⟩, fun running => ?_⟩
  have after : good t := by
    have begun := (reached_step lawful s (.enterBackground error) reached).1
    exact good_of_reached lawful (reached_run lawful begun later) running
  obtain ⟨row, names, identifiers⟩ :=
    (lists t after).row_of_record (List.mem_append_left _ stored)
  exact ⟨row, names.trans same, identifiers.trans known⟩

end Rows

/-- The row is listed, and its record is stored. -/
def PaintingKept (name : String) (id : ℕ) (s : ArtBook.App) : Prop :=
  (∃ painting ∈ s.context.store, painting.name = some name ∧ painting.id = some id) ∧
    (s.trapped = false →
      ∃ row : ℕ, s.list.nameArray[row]? = some name ∧ s.list.idArray[row]? = some id)

def PlaceKept (title : String) (id : ℕ) (s : TravelBook.App) : Prop :=
  (∃ place ∈ s.context.store, place.title = some title ∧ place.id = some id) ∧
    (s.trapped = false →
      ∃ row : ℕ, s.list.titleArray[row]? = some title ∧ s.list.idArray[row]? = some id)

/-- Every row that is listed when the application enters the background, and is not ended
there, is listed in all that follows until it is deleted: across saves that throw, further
ends of the process and launches. -/
theorem backgrounded_rows_survive :
    (∀ (es later : List (LifeEvent ArtBook.Event)) (error : Bool) (row id : ℕ) (name : String),
      let s := run (step artBook Paintings.valid) .start es
      let t := step artBook Paintings.valid s (.enterBackground error)
      t.trapped = false → s.list.nameArray[row]? = some name → s.list.idArray[row]? = some id →
      Always (step artBook Paintings.valid) (fun s e _ => ¬ DeletesPaintingOf id s e) t later →
        PaintingKept name id (run (step artBook Paintings.valid) t later)) ∧
    ∀ (es later : List (LifeEvent TravelBook.Event)) (error : Bool) (row id : ℕ) (title : String),
      let s := run (step travelBook Places.valid) .start es
      let t := step travelBook Places.valid s (.enterBackground error)
      t.trapped = false → s.list.titleArray[row]? = some title → s.list.idArray[row]? = some id →
      Always (step travelBook Places.valid) (fun s e _ => ¬ DeletesPlaceOf id s e) t later →
        PlaceKept title id (run (step travelBook Places.valid) t later) := by
  constructor
  · intro es later error row id name s t survives named identified kept
    exact row_survives artBook_lawful (fun s h => h.shows.listed)
      (painting_reached es) survives named identified
      (always_mono _ (fun s e _ untouched o known deletes =>
        untouched (deletes_painting known deletes)) kept)
  · intro es later error row id title s t survives titled identified kept
    exact row_survives travelBook_lawful (fun s h => h.shows.listed)
      (place_reached es) survives titled identified
      (always_mono _ (fun s e _ untouched o known deletes =>
        untouched (deletes_place known deletes)) kept)

/-- A second painting ends the process in the background, and the app is launched again. -/
def endedBySecond : List (LifeEvent ArtBook.Event) :=
  [.foreground (.addButtonClicked .unchanged), .foreground (.edit "second" "artist" "99999"),
    .foreground (.imagePicked none), .foreground (.SaveButtonClicled false fun _ => .unchanged),
    .enterBackground false, .foreground (.launch .unchanged)]

/-- A place whose save throws. -/
def refusedPlace : List (LifeEvent TravelBook.Event) :=
  [.foreground (.launch .unchanged), .foreground .viewWillAppear,
    .foreground (.addButtonClicked .unchanged), .foreground (.edit "home" "comment"),
    .foreground (.SaveButtonClicked true fun _ => .unchanged)]

theorem first_rows_survive :
    PaintingKept "name" 0 (run (step artBook Paintings.valid)
      (step artBook Paintings.valid (run (step artBook Paintings.valid) .start (entered "1990"))
        (.enterBackground false)) endedBySecond) ∧
    PlaceKept "home" 0 (run (step travelBook Places.valid)
      (step travelBook Places.valid (run (step travelBook Places.valid) .start refusedPlace)
        (.enterBackground false)) [.foreground (.launch .unchanged)]) :=
  ⟨backgrounded_rows_survive.1 (entered "1990") endedBySecond false 0 0 "name" (by decide)
      (by decide) (by decide) ⟨id, id, id, id, id, id, trivial⟩,
    backgrounded_rows_survive.2 refusedPlace [.foreground (.launch .unchanged)] false 0 0 "home"
      (by decide) (by decide) (by decide) ⟨id, trivial⟩⟩

end RecordLifecycle
