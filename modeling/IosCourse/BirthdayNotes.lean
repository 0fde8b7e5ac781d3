import IosCourse.GuardedRuns
import Mathlib.Logic.Function.Basic

/-!
# The birthday note

Save stores the texts of two fields under two keys, and a launch shows what is stored.
Delete should remove both values, but its handler misspells the second key, and the
storyboard connects the button to the handler of Save as well. UIKit does not say in
which order the handlers of one button run.
-/

namespace BirthdayNotes

open GuardedRuns

/-- A stored object. -/
inductive Value where
  | string (text : String)
  | other

/-- The cast `as? String`. -/
def Value.asString : Value → Option String
  | string text => some text
  | other => none

/-- `UserDefaults.standard`, which survives the end of the app. -/
structure UserDefaults where
  object : String → Option Value

namespace UserDefaults

def set (d : UserDefaults) (text key : String) : UserDefaults :=
  ⟨Function.update d.object key (some (.string text))⟩

def removeObject (d : UserDefaults) (key : String) : UserDefaults :=
  ⟨Function.update d.object key none⟩

/-- The object under a key, if it is a string. -/
def string (d : UserDefaults) (key : String) : Option String := (d.object key).bind Value.asString

@[simp] theorem string_set (d : UserDefaults) (text key other : String) :
    (d.set text key).string other = if other = key then some text else d.string other := by
  by_cases same : other = key
  · subst same
    simp [set, string, Value.asString]
  · simp [set, string, same]

@[simp] theorem string_removeObject (d : UserDefaults) (key other : String) :
    (d.removeObject key).string other = if other = key then none else d.string other := by
  by_cases same : other = key
  · subst same
    simp [removeObject, string]
  · simp [removeObject, string, same]

end UserDefaults

/-- The screen, with the texts it has in the storyboard. -/
structure ViewController where
  nameTextFiled : String := ""
  birthdayTextField : String := ""
  nameLabel : String := "Name"
  birthdayLabel : String := "Birthday"
  deriving DecidableEq

def viewDidLoad (d : UserDefaults) : ViewController :=
  let shown : ViewController := {}
  let shown := match d.string "Name" with
    | some newName => { shown with nameLabel := "Name: " ++ newName }
    | none => shown
  match d.string "Birthday" with
  | some newBirthday => { shown with birthdayLabel := "Birthday: " ++ newBirthday }
  | none => shown

def saveClicked (d : UserDefaults) (v : ViewController) : UserDefaults × ViewController :=
  ((d.set v.nameTextFiled "Name").set v.birthdayTextField "Birthday",
    { v with
      nameLabel := "Name: " ++ v.nameTextFiled
      birthdayLabel := "Birthday: " ++ v.birthdayTextField })

def deleteClicked (d : UserDefaults) (v : ViewController) : UserDefaults × ViewController :=
  let storedName := d.string "Name"
  let storedBirthday := d.string "Birthday"
  let d := if storedName.isSome then d.removeObject "Name" else d
  let d := if storedBirthday.isSome then d.removeObject "Birthay" else d
  (d, v)

inductive Action where
  | saveClicked | deleteClicked
  deriving DecidableEq

def Action.perform (state : UserDefaults × ViewController) :
    Action → UserDefaults × ViewController
  | saveClicked => BirthdayNotes.saveClicked state.1 state.2
  | deleteClicked => BirthdayNotes.deleteClicked state.1 state.2

inductive Button where
  | save | delete
  deriving DecidableEq

/-- The actions the storyboard connects to a button. -/
def Button.actions : Button → List Action
  | save => [.saveClicked]
  | delete => [.deleteClicked, .saveClicked]

/-- What a tap asks for. -/
inductive Tap where
  | saved (name birthday : String)
  | deleted
  deriving DecidableEq

def Button.asks (v : ViewController) : Button → Tap
  | save => .saved v.nameTextFiled v.birthdayTextField
  | delete => .deleted

/-- The phone. `lastTap` is what the last tap asked for. -/
structure App where
  defaults : UserDefaults
  screen : Option ViewController := none
  lastTap : Option Tap := none

/-- A tap runs all actions of its button, in any order. -/
inductive Event where
  | launch
  | editName (text : String)
  | editBirthday (text : String)
  | tap (button : Button) (order : List Action) (all : order.Perm button.actions)

def step (s : App) : Event → App
  | .launch => { s with screen := some (viewDidLoad s.defaults) }
  | .editName text =>
    { s with screen := s.screen.map fun v => { v with nameTextFiled := text } }
  | .editBirthday text =>
    { s with screen := s.screen.map fun v => { v with birthdayTextField := text } }
  | .tap button order _ =>
    match s.screen with
    | none => s
    | some v =>
      let (defaults, shown) := order.foldl Action.perform (s.defaults, v)
      { defaults := defaults, screen := some shown, lastTap := some (button.asks v) }

/-- A phone on which the app is not running, with anything stored. -/
def installed (d : UserDefaults) : App := { defaults := d }

def ViewController.labels (v : ViewController) : String × String := (v.nameLabel, v.birthdayLabel)

/-- The labels after a launch that follows a tap: the texts of a Save, and the texts of
the storyboard after a Delete. -/
def Tap.labels : Tap → String × String
  | saved name birthday => ("Name: " ++ name, "Birthday: " ++ birthday)
  | deleted => ("Name", "Birthday")

/-- A launch shows what the last tap asked for. -/
def ShowsLastTap (s : App) (e : Event) (t : App) : Prop :=
  match e with
  | .launch => s.lastTap = none ∨ t.screen.map ViewController.labels = s.lastTap.map Tap.labels
  | _ => True

instance : ∀ s e t, Decidable (ShowsLastTap s e t)
  | _, .launch, _ => inferInstanceAs (Decidable (_ ∨ _))
  | _, .editName _, _ => .isTrue trivial
  | _, .editBirthday _, _ => .isTrue trivial
  | _, .tap _ _ _, _ => .isTrue trivial

/-- No launch comes directly after a Delete, edits apart. -/
def NotAfterDelete (s : App) (e : Event) : Prop :=
  match e with
  | .launch => s.lastTap ≠ some .deleted
  | _ => True

theorem labels_viewDidLoad (d : UserDefaults) :
    (viewDidLoad d).labels = ((d.string "Name").elim "Name" fun name => "Name: " ++ name,
      (d.string "Birthday").elim "Birthday" fun birthday => "Birthday: " ++ birthday) := by
  unfold viewDidLoad ViewController.labels
  cases d.string "Name" <;> cases d.string "Birthday" <;> rfl

theorem birthday_deleteClicked (d : UserDefaults) (v : ViewController) :
    (deleteClicked d v).1.string "Birthday" = d.string "Birthday" := by
  unfold deleteClicked
  dsimp only
  split <;> split <;> simp

theorem birthday_saveClicked (d : UserDefaults) (v : ViewController) :
    (saveClicked d v).1.string "Birthday" = some v.birthdayTextField := by
  simp [saveClicked]

/-- In whatever order the handlers of a button run, a birthday stays stored, and the
handler of Save stores one. -/
theorem birthday_perform (order : List Action) (state : UserDefaults × ViewController)
    (stored : (state.1.string "Birthday").isSome ∨ .saveClicked ∈ order) :
    ((order.foldl Action.perform state).1.string "Birthday").isSome := by
  induction order generalizing state with
  | nil => simpa using stored
  | cons action order ih =>
    refine ih _ ?_
    cases action with
    | saveClicked => exact .inl (by simp [Action.perform, birthday_saveClicked])
    | deleteClicked => simpa [Action.perform, birthday_deleteClicked] using stored

/-- What is stored after each kind of tap. -/
def Stored (s : App) : Prop :=
  match s.lastTap with
  | none => True
  | some (.saved name birthday) =>
    s.defaults.string "Name" = some name ∧ s.defaults.string "Birthday" = some birthday
  | some .deleted => (s.defaults.string "Birthday").isSome

theorem stored_step (s : App) (e : Event) (h : Stored s) : Stored (step s e) := by
  cases e with
  | launch | editName | editBirthday => exact h
  | tap button order all =>
    unfold step
    cases running : s.screen with
    | none => exact h
    | some v =>
      cases button with
      | save =>
        obtain rfl : order = [.saveClicked] := List.perm_singleton.mp all
        simp [Stored, Button.asks, Action.perform, saveClicked]
      | delete =>
        have saves : .saveClicked ∈ order := all.mem_iff.mpr (by simp [Button.actions])
        exact birthday_perform order (s.defaults, v) (.inr saves)

/-- The launch after a Delete shows the birthday that is still stored. -/
theorem showsLastTap_iff {s : App} (h : Stored s) (e : Event) :
    ShowsLastTap s e (step s e) ↔ NotAfterDelete s e := by
  cases e with
  | editName | editBirthday | tap => exact Iff.rfl
  | launch =>
    unfold Stored at h
    simp only [ShowsLastTap, NotAfterDelete, step, Option.map_some, labels_viewDidLoad]
    cases last : s.lastTap with
    | none => simp
    | some tap =>
      cases tap with
      | saved name birthday =>
        simp only [last] at h
        simp [h.1, h.2, Tap.labels]
      | deleted =>
        simp only [last] at h
        obtain ⟨birthday, kept⟩ := Option.isSome_iff_exists.mp h
        have longer : "Birthday: " ++ birthday ≠ "Birthday" := by
          intro same
          have lengths := congrArg String.length same
          rw [String.length_append] at lengths
          have : "Birthday: ".length = 10 := rfl
          have : "Birthday".length = 8 := rfl
          omega
        simp [kept, Tap.labels, longer]

/-- Every launch shows what the last tap asked for exactly when no launch comes after a
Delete without a Save between them. -/
theorem launch_shows_last_tap_iff (d : UserDefaults) (es : List Event) :
    Always step ShowsLastTap (installed d) es ↔
      Always step (fun s e _ => NotAfterDelete s e) (installed d) es :=
  always_congr_of_invariant stored_step (fun _ e h _ => showsLastTap_iff h e) trivial
    (always_trivial step _ es)

/-- A note is saved and deleted, and the next launch shows its birthday. -/
theorem deleted_note_returns :
    ¬ ∀ (d : UserDefaults) (es : List Event), Always step ShowsLastTap (installed d) es := by
  intro every
  have once := every ⟨fun _ => none⟩ [.launch, .editName "Ada", .editBirthday "10 December",
    .tap .save [.saveClicked] (.refl _), .tap .delete [.saveClicked, .deleteClicked] (.swap _ _ _),
    .launch]
  revert once
  decide

end BirthdayNotes
