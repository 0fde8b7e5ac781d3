import IosCourse.GuardedRuns
import IosCourse.SwiftInt

/-!
# The calculator

The four buttons read both text fields as integers and write the result of one
operator to the label. A text that is not an integer leaves the label alone. The
operators are those of Swift: they trap where the exact result does not exist or
does not fit, and nothing in the handlers keeps such operands away from them.
-/

namespace SimpleCalculator

open GuardedRuns SwiftInt

structure ViewController where
  firstText : String := ""
  secondText : String := ""
  resultLabel : String := "Result"
  deriving DecidableEq

/-- What the four handlers share. `none` is a trap. -/
def ViewController.clicked (operator : ℤ → ℤ → Option ℤ) (s : ViewController) :
    Option ViewController :=
  match ofString s.firstText with
  | none => some s
  | some firstNumber =>
    match ofString s.secondText with
    | none => some s
    | some secondNumber =>
      (operator firstNumber secondNumber).map fun result =>
        { s with resultLabel := toString result }

def ViewController.sumClicked : ViewController → Option ViewController := clicked (add 64)

def ViewController.minusClicked : ViewController → Option ViewController := clicked (sub 64)

def ViewController.multiplyClicked : ViewController → Option ViewController := clicked (mul 64)

def ViewController.divideClicked : ViewController → Option ViewController := clicked (div 64)

inductive Button where
  | sum | minus | multiply | divide
  deriving DecidableEq

/-- The action the storyboard connects to a button. -/
def Button.action : Button → ViewController → Option ViewController
  | sum => ViewController.sumClicked
  | minus => ViewController.minusClicked
  | multiply => ViewController.multiplyClicked
  | divide => ViewController.divideClicked

/-- The result in the integers. Division by zero has none. -/
def Button.exact : Button → ℤ → ℤ → Option ℤ
  | sum, a, b => some (a + b)
  | minus, a, b => some (a - b)
  | multiply, a, b => some (a * b)
  | divide, a, b => if b = 0 then none else some (a.tdiv b)

/-- The exact result of the two texts, if there is one and it is an `Int`. -/
def result (button : Button) (s : ViewController) : Option ℤ :=
  (ofString s.firstText).bind fun a => (ofString s.secondText).bind fun b =>
    (button.exact a b).filter fun n => Fits 64 n

/-- The tap does not trap, shows the result where there is one, and changes nothing
else. -/
def Calculates (button : Button) (s : ViewController) : Prop :=
  button.action s =
    some { s with resultLabel := (result button s).elim s.resultLabel toString }

instance (button : Button) (s : ViewController) : Decidable (Calculates button s) :=
  inferInstanceAs (Decidable (_ = _))

/-- The operands a button can take. -/
def Button.Admits : Button → ℤ → ℤ → Prop
  | sum, a, b => Fits 64 (a + b)
  | minus, a, b => Fits 64 (a - b)
  | multiply, a, b => Fits 64 (a * b)
  | divide, a, b => b ≠ 0 ∧ ¬ (a = -2 ^ 63 ∧ b = -1)

/-- Either a text is not an integer or the button can take both. -/
def Operable (button : Button) (s : ViewController) : Prop :=
  ∀ a b, ofString s.firstText = some a → ofString s.secondText = some b → button.Admits a b

/-- The operator behind each button. -/
def Button.operator : Button → ℤ → ℤ → Option ℤ
  | sum => add 64
  | minus => sub 64
  | multiply => mul 64
  | divide => div 64

theorem action_eq (button : Button) : button.action = ViewController.clicked button.operator := by
  cases button <;> rfl

/-- An operator gives the exact result if it fits and traps otherwise. -/
theorem operator_eq (button : Button) (a b : ℤ) :
    button.operator a b = (button.exact a b).filter fun n => Fits 64 n := by
  cases button with
  | sum => simp [Button.operator, Button.exact, add, checked, Option.filter]
  | minus => simp [Button.operator, Button.exact, sub, checked, Option.filter]
  | multiply => simp [Button.operator, Button.exact, mul, checked, Option.filter]
  | divide =>
    by_cases zero : b = 0
    · simp [Button.operator, Button.exact, div, zero]
    · simp [Button.operator, Button.exact, div, checked, Option.filter, zero]

theorem operator_isSome (button : Button) {a b : ℤ} (fits : Fits 64 a) :
    (button.operator a b).isSome ↔ button.Admits a b := by
  cases button with
  | sum => exact checked_isSome
  | minus => exact checked_isSome
  | multiply => exact checked_isSome
  | divide =>
    by_cases zero : b = 0
    · simp [Button.operator, Button.Admits, div, zero]
    · rw [Button.operator, div, if_neg zero, checked_isSome, fits_tdiv_iff fits zero,
        Button.Admits, and_iff_right zero]

/-- Where a text is no integer a tap does nothing, and elsewhere it does what the
operator gives. -/
theorem action_cases (button : Button) (s : ViewController) :
    (button.action s = some s ∧ result button s = none ∧ Operable button s) ∨
      ∃ outcome : Option ℤ,
        button.action s = outcome.map (fun n => { s with resultLabel := toString n }) ∧
        result button s = outcome ∧ (Operable button s ↔ outcome.isSome) := by
  rw [action_eq]
  cases first : ofString s.firstText with
  | none => exact .inl (by simp [ViewController.clicked, result, Operable, first])
  | some a =>
    cases second : ofString s.secondText with
    | none => exact .inl (by simp [ViewController.clicked, result, Operable, first, second])
    | some b =>
      refine .inr ⟨button.operator a b, ?_, ?_, ?_⟩
      · simp [ViewController.clicked, first, second]
      · rw [operator_eq]
        simp [result, first, second]
      · rw [operator_isSome button (fits_of_ofString first)]
        simp [Operable, first, second]

/-- A button does what it should exactly where it can take both numbers. Everywhere
else it traps. -/
theorem calculates_iff (button : Button) (s : ViewController) :
    (Calculates button s ↔ Operable button s) ∧
      (button.action s = none ↔ ¬ Operable button s) := by
  rcases action_cases button s with ⟨same, noResult, operable⟩ | ⟨outcome, acts, exact, operable⟩
  · simp [Calculates, same, noResult, operable]
  · rw [Calculates, acts, exact, operable]
    cases outcome with
    | none => simp
    | some n => simp

/-- The largest integer plus one is no integer. -/
theorem large_sum_traps :
    ¬ ∀ (button : Button) (s : ViewController), Calculates button s := by
  intro every
  have sum := every .sum { firstText := "9223372036854775807", secondText := "1" }
  revert sum
  decide

example : Button.divide.action { firstText := "1", secondText := "0" } = none := by decide

example : Button.divide.action { firstText := "-9", secondText := "2" } =
    some { firstText := "-9", secondText := "2", resultLabel := "-4" } := by decide

structure App where
  screen : ViewController := {}
  trapped : Bool := false
  deriving DecidableEq

/-- The user edits the fields, and may enter the result as the first number. -/
inductive Event where
  | editFirst (text : String)
  | editSecond (text : String)
  | enterResult
  | tapped (button : Button)

def App.perform (s : App) : Event → Option App
  | .editFirst text => some { s with screen := { s.screen with firstText := text } }
  | .editSecond text => some { s with screen := { s.screen with secondText := text } }
  | .enterResult => some { s with screen := { s.screen with firstText := s.screen.resultLabel } }
  | .tapped button => (button.action s.screen).map fun screen => { s with screen := screen }

def App.step : App → Event → App :=
  trapStep App.perform App.trapped fun s => { s with trapped := true }

/-- A text together with the number that it is read as. -/
structure Operand where
  text : String
  value : ℤ
  read : ofString text = some value

/-- A calculation goes on with the result of the step before. -/
def calculation (steps : List (Button × Operand)) : List Event :=
  steps.flatMap fun step => [.editSecond step.2.text, .tapped step.1, .enterResult]

/-- The exact result of a step, if there is one and it is an `Int`. -/
def Button.next (n : ℤ) (step : Button × Operand) : Option ℤ :=
  (step.1.exact n step.2.value).filter fun result => Fits 64 result

def exactValue (n : ℤ) (steps : List (Button × Operand)) : Option ℤ := steps.foldlM Button.next n

/-- A button on two numbers does what the exact step does. -/
theorem action_next (button : Button) (operand : Operand) {s : ViewController} {n : ℤ}
    (first : ofString s.firstText = some n) :
    button.action { s with secondText := operand.text } = (Button.next n (button, operand)).map
      fun result => { s with secondText := operand.text, resultLabel := toString result } := by
  rw [action_eq, ViewController.clicked]
  simp only [first, operand.read, operator_eq, Button.next]

theorem run_step (step : Button × Operand) {s : ViewController} {n : ℤ}
    (first : ofString s.firstText = some n) :
    run App.step ⟨s, false⟩ (calculation [step]) =
      (Button.next n step).elim ⟨{ s with secondText := step.2.text }, true⟩ fun result =>
        ⟨{ s with
            firstText := toString result
            secondText := step.2.text
            resultLabel := toString result }, false⟩ := by
  obtain ⟨button, operand⟩ := step
  have tap := action_next button operand first
  cases outcome : Button.next n (button, operand) with
  | none => simp [calculation, App.step, trapStep, App.perform, tap, outcome]
  | some result => simp [calculation, App.step, trapStep, App.perform, tap, outcome]

theorem calculation_from (steps : List (Button × Operand)) {s : ViewController} {n : ℤ}
    (first : ofString s.firstText = some n) :
    let t := run App.step ⟨s, false⟩ (calculation steps)
    (t.trapped = true ↔ exactValue n steps = none) ∧
      ∀ m ∈ exactValue n steps, ofString t.screen.firstText = some m ∧
        (steps ≠ [] → t.screen.resultLabel = toString m) := by
  induction steps generalizing s n with
  | nil =>
    refine ⟨by simp [calculation, exactValue], ?_⟩
    rintro m ⟨⟩
    exact ⟨first, fun some_step => absurd rfl some_step⟩
  | cons step rest ih =>
    have split : calculation (step :: rest) = calculation [step] ++ calculation rest := by
      simp [calculation]
    have fold : exactValue n (step :: rest) =
        (Button.next n step).bind fun result => exactValue result rest := List.foldlM_cons
    rw [split, run_append, run_step step first, fold]
    cases outcome : Button.next n step with
    | none =>
      rw [Option.elim_none, Option.bind_none, App.step, run_trapped rfl]
      exact ⟨by simp, by rintro m ⟨⟩⟩
    | some result =>
      have fits : Fits 64 result := by
        simpa using (Option.filter_eq_some_iff.mp outcome).2
      have again : ofString (toString result) = some result := by
        rw [ofString_toString, checked, if_pos fits]
      rw [Option.elim_some, Option.bind_some]
      let shown : ViewController := { s with
        firstText := toString result
        secondText := step.2.text
        resultLabel := toString result }
      obtain ⟨traps, shows⟩ := ih (s := shown) again
      refine ⟨traps, fun m exact => ⟨(shows m exact).1, fun _ => ?_⟩⟩
      cases rest with
      | nil =>
        cases exact
        rfl
      | cons next later => exact (shows m exact).2 (List.cons_ne_nil _ _)

/-- A calculation of any length, in which each result is entered as the next first
number, traps exactly where a result does not exist or is no `Int`, and otherwise shows
the exact value. -/
theorem calculation_exact (s : ViewController) (first : Operand)
    (steps : List (Button × Operand)) :
    let t := run App.step ⟨s, false⟩ (.editFirst first.text :: calculation steps)
    (t.trapped = true ↔ exactValue first.value steps = none) ∧
      ∀ n ∈ exactValue first.value steps, ofString t.screen.firstText = some n ∧
        (steps ≠ [] → t.screen.resultLabel = toString n) :=
  @calculation_from steps { s with firstText := first.text } first.value first.read

/-- No tap of the run has operands that its button cannot take. -/
def Admissible (s : App) : Event → Prop
  | .tapped button => Operable button s.screen
  | _ => True

/-- The label of the storyboard, or a number that can be entered again. -/
def Readable (label : String) : Prop :=
  label = "Result" ∨ ∃ n, label = toString n ∧ ofString label = some n

theorem trapped_step_iff (s : App) (e : Event) (running : s.trapped = false) :
    (s.step e).trapped = false ↔ Admissible s e := by
  cases e with
  | tapped button =>
    rcases action_cases button s.screen with ⟨same, _, operable⟩ | ⟨outcome, acts, _, operable⟩
    · simp [App.step, trapStep, running, App.perform, same, Admissible, operable]
    · cases outcome with
      | none => simpa [App.step, trapStep, running, App.perform, acts, Admissible] using operable
      | some n => simpa [App.step, trapStep, running, App.perform, acts, Admissible] using operable
  | _ => simp [App.step, trapStep, running, App.perform, Admissible]

/-- A tap shows a result that fits, or leaves the label as it was. -/
theorem resultLabel_action {button : Button} {s t : ViewController}
    (acts : button.action s = some t) (readable : Readable s.resultLabel) :
    Readable t.resultLabel := by
  rcases action_cases button s with ⟨same, _, _⟩ | ⟨outcome, effect, exact, _⟩
  · cases same.symm.trans acts
    exact readable
  · obtain ⟨n, rfl, rfl⟩ := Option.map_eq_some_iff.mp (effect.symm.trans acts)
    obtain ⟨a, _, b⟩ := Option.bind_eq_some_iff.mp exact
    obtain ⟨c, _, b⟩ := Option.bind_eq_some_iff.mp b
    have fits : Fits 64 n := by simpa using (Option.filter_eq_some_iff.mp b).2
    exact Or.inr ⟨n, rfl, by rw [ofString_toString, checked, if_pos fits]⟩

theorem readable_step (s : App) (e : Event) (readable : Readable s.screen.resultLabel) :
    Readable (s.step e).screen.resultLabel := by
  rw [App.step, trapStep]
  split
  · exact readable
  · cases e with
    | tapped button =>
      cases acts : button.action s.screen with
      | none => simpa [App.perform, acts] using readable
      | some screen => simpa [App.perform, acts] using resultLabel_action acts readable
    | _ => exact readable

/-- In every run the process traps exactly if some tap finds two numbers that its button
cannot take, and the label always shows a number that can be entered again. -/
theorem runs_trap_iff (es : List Event) :
    let t := run App.step {} es
    (t.trapped = false ↔ Always App.step (fun s e _ => Admissible s e) {} es) ∧
      Readable t.screen.resultLabel := by
  constructor
  · refine @run_iff_of_exact _ _ App.step (fun _ => True) (fun s => s.trapped = false) Admissible
      (fun _ _ _ => trivial) (fun s e _ running => trapped_step_iff s e running) ?_ {} trivial
      rfl es
    intro s e _ ended
    have trapped : s.trapped = true := by simpa using ended
    rw [App.step, trapStep, if_pos trapped]
    exact ended
  · exact @invariant_free_run _ _ App.step (fun s => Readable s.screen.resultLabel) readable_step
      _ (Or.inl rfl) es

end SimpleCalculator
