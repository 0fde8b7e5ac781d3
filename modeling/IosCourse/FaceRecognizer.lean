import IosCourse.MainQueue

/-!
# Signing in with the face

Each tap on Sign In evaluates the biometric policy, if the device has one. The reply
arrives on another thread and puts a block on the main queue, which shows the second
screen or writes an error into the label. The second screen covers the button until the
user goes back; replies that are still under way do not wait for that.
-/

namespace FaceRecognizer

open GuardedRuns MainQueue

/-- `secondVCs` counts the second screens on the navigation stack, above the first. -/
structure ViewController where
  myLabel : String := "Label"
  secondVCs : ℕ := 0
  deriving DecidableEq

inductive Tap where
  | signInClicked (canEvaluatePolicy : Bool)
  | back

def signInClicked (canEvaluatePolicy : Bool) (s : ViewController) :
    ViewController × Option Unit :=
  (s, if canEvaluatePolicy then some () else none)

/-- Only what is on top of the stack can be touched. -/
def touched (s : ViewController) : Tap → ViewController × Option Unit
  | .signInClicked canEvaluatePolicy =>
    if s.secondVCs = 0 then signInClicked canEvaluatePolicy s else (s, none)
  | .back => ({ s with secondVCs := s.secondVCs - 1 }, none)

/-- The block that a reply puts on the main queue. -/
def replied (s : ViewController) (success : Bool) : ViewController :=
  if success = true then { s with secondVCs := s.secondVCs + 1 }
  else { s with myLabel := "error!" }

def program : Program ViewController Tap Unit Bool Bool where
  tap s tap := some (touched s tap)
  complete s _ success := some (s, some success)
  execute := replied

/-- The app at its start. -/
def start : App ViewController Unit Bool Bool := { screen := {} }

def goesBack : Event Tap Bool → Bool
  | .tap .back => true
  | _ => false

/-- Every second screen has a successful block, and every successful block a second screen
unless the user has gone back. The label tells of the failed blocks. -/
structure Entitled (es : List (Event Tap Bool)) (s : App ViewController Unit Bool Bool) :
    Prop where
  screens : s.screen.secondVCs ≤ s.ran.count true
  successes : s.ran.count true ≤ s.screen.secondVCs + es.countP goesBack
  label : s.screen.myLabel = if false ∈ s.ran then "error!" else "Label"

variable {s t : App ViewController Unit Bool Bool} {es : List (Event Tap Bool)}

theorem entitled_later (h : Entitled es s) (e : Event Tap Bool) : Entitled (es ++ [e]) s := by
  have more : es.countP goesBack ≤ (es ++ [e]).countP goesBack := by
    rw [List.countP_append]
    exact Nat.le_add_right _ _
  exact ⟨h.screens, Nat.le_trans h.successes (Nat.add_le_add_left more _), h.label⟩

theorem entitled_touched (h : Entitled es s) (tap : Tap) (request : Option Unit) :
    Entitled (es ++ [.tap tap]) (s.tapped (touched s.screen tap).1 request) := by
  have unchanged : ∀ tap, Entitled (es ++ [.tap tap]) (s.tapped s.screen request) :=
    fun tap => ⟨h.screens, (entitled_later h _).successes, h.label⟩
  cases tap with
  | signInClicked canEvaluatePolicy =>
    simp only [touched]
    split <;> exact unchanged _
  | back =>
    have screens := h.screens
    have successes := h.successes
    refine ⟨Nat.le_trans (Nat.sub_le _ _) screens, ?_, h.label⟩
    have one : (es ++ [Event.tap Tap.back]).countP goesBack = es.countP goesBack + 1 := by
      simp [goesBack]
    simp only [App.tapped, touched, one]
    omega

theorem entitled_replied (h : Entitled es s) (success : Bool) (rest : List Bool) :
    Entitled es (s.executed (replied s.screen success) success rest) := by
  have screens := h.screens
  have successes := h.successes
  cases success with
  | true =>
    refine ⟨?_, ?_, ?_⟩
    · simpa [App.executed, replied] using screens
    · simp only [App.executed, replied, List.count_append, List.count_singleton_self, if_true]
      omega
    · simpa [App.executed, replied] using h.label
  | false =>
    refine ⟨?_, ?_, ?_⟩
    · simpa [App.executed, replied] using screens
    · simpa [App.executed, replied] using successes
    · simp [App.executed, replied]

theorem entitled_moves {e : Event Tap Bool} (h : Entitled es s) (moved : Moves program s e t) :
    Entitled (es ++ [e]) t := by
  cases moved with
  | @tap tap screen request result =>
    have pair : touched s.screen tap = (screen, request) := Option.some.inj result
    have kept := entitled_touched h tap request
    rwa [pair] at kept
  | @complete index success request screen block pending result =>
    cases result
    have later := entitled_later h (.complete index success)
    exact ⟨later.screens, later.successes, later.label⟩
  | block waiting => exact entitled_later (entitled_replied h _ _) _

theorem entitled_run (es : List (Event Tap Bool)) : Entitled es (run (step program) start es) := by
  refine @history_run _ _ (step program) Entitled (fun past s e h => ?_) []
    start ⟨Nat.zero_le _, Nat.zero_le _, rfl⟩ es
  rcases step_cases program s e with trapped | same | moved
  · have later := entitled_later h e
    rw [trapped]
    exact ⟨later.screens, later.successes, later.label⟩
  · rw [same]
    exact entitled_later h e
  · exact entitled_moves h moved

/-- Every evaluation is replied to at most once, and the replies are acted on once and in
their order. There are at most as many second screens as successes, none without one, and
fewer only where the user went back. The label says whether a failure has been acted on. -/
theorem second_screen_needs_success (es : List (Event Tap Bool)) :
    let s := run (step program) start es
    s.requests.length + s.finished.length = s.started.length ∧
      s.ran ++ s.blocks = s.finished.map Prod.snd ∧
      (0 < s.screen.secondVCs → ((), true) ∈ s.finished) ∧
      s.screen.secondVCs ≤ s.ran.count true ∧
      s.ran.count true ≤ s.screen.secondVCs + es.countP goesBack ∧
      s.screen.myLabel = if false ∈ s.ran then "error!" else "Label" := by
  intro s
  have once : (s.requests ++ s.finished.map Prod.fst).Perm s.started :=
    completesOnce_run program {} es
  have order : InOrder (fun _ success => some success) s := by
    refine inOrder_run program (fun screen request success later block result => ?_) {} es
    cases result
    rfl
  rw [InOrder, List.filterMap_eq_map'] at order
  have entitled : Entitled es s := entitled_run es
  refine ⟨by simpa using once.length_eq, order, fun shown => ?_, entitled.screens,
    entitled.successes, entitled.label⟩
  have success : true ∈ s.ran := List.count_pos_iff.mp (Nat.lt_of_lt_of_le shown entitled.screens)
  have replies : true ∈ s.finished.map Prod.snd := order ▸ List.mem_append_left s.blocks success
  obtain ⟨⟨_, reply⟩, finished, rfl⟩ := List.mem_map.mp replies
  exact finished

/-- Two quick taps, and both evaluations succeed: two screens lie on the stack. -/
example : (run (step program) start [.tap (.signInClicked true), .tap (.signInClicked true),
    .complete 0 true, .complete 0 true, .block, .block]).screen.secondVCs = 2 := by decide

end FaceRecognizer
