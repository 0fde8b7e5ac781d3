import IosCourse.GuardedRuns
import Mathlib.Data.List.Perm.Basic

/-!
# Requests and the main queue

A screen starts requests on the main thread. Each of them completes once, at any time
and in any order, on another thread. Its completion handler may change the screen and
may put a block on the main queue; the main thread takes the blocks from the front.
A screen is given by what a tap, a completion handler and a block do to it.
-/

namespace MainQueue

open GuardedRuns

universe u v w x y
variable {Screen : Type u} {Tap : Type v} {Request : Type w} {Outcome : Type x} {Block : Type y}

/-- `none` is a trap. -/
structure Program (Screen : Type u) (Tap : Type v) (Request : Type w) (Outcome : Type x)
    (Block : Type y) where
  tap : Screen → Tap → Option (Screen × Option Request)
  complete : Screen → Request → Outcome → Option (Screen × Option Block)
  execute : Screen → Block → Screen

/-- The screen, the requests under way and the waiting blocks. `started`, `finished` and
`ran` record what has happened so far, in its order. -/
structure App (Screen : Type u) (Request : Type w) (Outcome : Type x) (Block : Type y) where
  screen : Screen
  requests : List Request := []
  blocks : List Block := []
  started : List Request := []
  finished : List (Request × Outcome) := []
  ran : List Block := []
  trapped : Bool := false

inductive Event (Tap : Type v) (Outcome : Type x) where
  | tap (tap : Tap)
  | complete (index : ℕ) (outcome : Outcome)
  | block

namespace App

def tapped (s : App Screen Request Outcome Block) (screen : Screen) (request : Option Request) :
    App Screen Request Outcome Block :=
  { s with
    screen := screen
    requests := s.requests ++ request.toList
    started := s.started ++ request.toList }

def completed (s : App Screen Request Outcome Block) (index : ℕ) (request : Request)
    (outcome : Outcome) (screen : Screen) (block : Option Block) :
    App Screen Request Outcome Block :=
  { s with
    screen := screen
    requests := s.requests.eraseIdx index
    blocks := s.blocks ++ block.toList
    finished := s.finished ++ [(request, outcome)] }

def executed (s : App Screen Request Outcome Block) (screen : Screen) (block : Block)
    (rest : List Block) : App Screen Request Outcome Block :=
  { s with screen := screen, blocks := rest, ran := s.ran ++ [block] }

def trap (s : App Screen Request Outcome Block) : App Screen Request Outcome Block :=
  { s with trapped := true }

end App

variable (p : Program Screen Tap Request Outcome Block)

def perform (s : App Screen Request Outcome Block) :
    Event Tap Outcome → Option (App Screen Request Outcome Block)
  | .tap tap => (p.tap s.screen tap).map fun (screen, request) => s.tapped screen request
  | .complete index outcome =>
    match s.requests[index]? with
    | none => some s
    | some request =>
      (p.complete s.screen request outcome).map fun (screen, block) =>
        s.completed index request outcome screen block
  | .block =>
    match s.blocks with
    | [] => some s
    | block :: rest => some (s.executed (p.execute s.screen block) block rest)

def step : App Screen Request Outcome Block → Event Tap Outcome →
    App Screen Request Outcome Block :=
  trapStep (perform p) App.trapped App.trap

/-- The effect of an event that changes something. -/
inductive Moves (s : App Screen Request Outcome Block) :
    Event Tap Outcome → App Screen Request Outcome Block → Prop where
  | tap {tap : Tap} {screen : Screen} {request : Option Request}
      (result : p.tap s.screen tap = some (screen, request)) :
      Moves s (.tap tap) (s.tapped screen request)
  | complete {index : ℕ} {outcome : Outcome} {request : Request} {screen : Screen}
      {block : Option Block} (pending : s.requests[index]? = some request)
      (result : p.complete s.screen request outcome = some (screen, block)) :
      Moves s (.complete index outcome) (s.completed index request outcome screen block)
  | block {block : Block} {rest : List Block} (waiting : s.blocks = block :: rest) :
      Moves s .block (s.executed (p.execute s.screen block) block rest)

variable {p}
variable {s t : App Screen Request Outcome Block} {e : Event Tap Outcome}

theorem perform_cases (performed : perform p s e = some t) : t = s ∨ Moves p s e t := by
  cases e with
  | tap tap =>
    obtain ⟨⟨screen, request⟩, result, rfl⟩ := Option.map_eq_some_iff.mp performed
    exact .inr (.tap result)
  | complete index outcome =>
    cases pending : s.requests[index]? with
    | none =>
      simp only [perform, pending, Option.some.injEq] at performed
      exact .inl performed.symm
    | some request =>
      simp only [perform, pending] at performed
      obtain ⟨⟨screen, block⟩, result, rfl⟩ := Option.map_eq_some_iff.mp performed
      exact .inr (.complete pending result)
  | block =>
    cases waiting : s.blocks with
    | nil =>
      simp only [perform, waiting, Option.some.injEq] at performed
      exact .inl performed.symm
    | cons block rest =>
      simp only [perform, waiting, Option.some.injEq] at performed
      exact .inr (performed ▸ .block waiting)

/-- A step traps, does nothing or moves. -/
theorem step_cases (p : Program Screen Tap Request Outcome Block)
    (s : App Screen Request Outcome Block) (e : Event Tap Outcome) :
    step p s e = s.trap ∨ step p s e = s ∨ Moves p s e (step p s e) := by
  by_cases ended : s.trapped = true
  · exact .inr (.inl (if_pos ended))
  · have result : step p s e = (perform p s e).getD s.trap := if_neg ended
    cases performed : perform p s e with
    | none => exact .inl (by rw [result, performed, Option.getD_none])
    | some t =>
      rw [result, performed, Option.getD_some]
      exact .inr (perform_cases performed)

/-- The rule for invariants. -/
theorem invariant_of_moves {inv : App Screen Request Outcome Block → Prop}
    (trap : ∀ s, inv s → inv s.trap)
    (moves : ∀ s e t, inv s → Moves p s e t → inv t) (start : inv s)
    (es : List (Event Tap Outcome)) : inv (run (step p) s es) := by
  refine invariant_free_run (fun s e h => ?_) start es
  rcases step_cases p s e with trapped | same | moved
  · rw [trapped]
    exact trap s h
  · rwa [same]
  · exact moves s e _ h moved

def CompletesOnce (s : App Screen Request Outcome Block) : Prop :=
  (s.requests ++ s.finished.map Prod.fst).Perm s.started

theorem completesOnce_tapped (h : CompletesOnce s) (screen : Screen) (request : Option Request) :
    CompletesOnce (s.tapped screen request) := by
  have later : (s.requests ++ request.toList ++ s.finished.map Prod.fst).Perm
      (s.requests ++ s.finished.map Prod.fst ++ request.toList) := by
    simp only [List.append_assoc]
    exact List.Perm.append_left s.requests List.perm_append_comm
  exact later.trans (h.append_right request.toList)

theorem completesOnce_completed (h : CompletesOnce s) {index : ℕ} {request : Request}
    (pending : s.requests[index]? = some request) (outcome : Outcome) (screen : Screen)
    (block : Option Block) :
    CompletesOnce (s.completed index request outcome screen block) := by
  obtain ⟨inside, rfl⟩ := List.getElem?_eq_some_iff.mp pending
  have moved : (s.requests.eraseIdx index ++ (s.finished.map Prod.fst ++ [s.requests[index]])).Perm
      (s.requests[index] :: s.requests.eraseIdx index ++ s.finished.map Prod.fst) := by
    rw [← List.append_assoc]
    exact List.perm_append_singleton _ _
  have same := (List.getElem_cons_eraseIdx_perm inside).append_right (s.finished.map Prod.fst)
  simpa [CompletesOnce, App.completed] using (moved.trans same).trans h

/-- Every request that was started is under way or has completed, once. -/
theorem completesOnce_run (p : Program Screen Tap Request Outcome Block) (screen : Screen)
    (es : List (Event Tap Outcome)) : CompletesOnce (run (step p) { screen := screen } es) := by
  refine invariant_of_moves (fun s h => h) (fun s e t h moved => ?_) (List.Perm.refl _) es
  cases moved with
  | tap result => exact completesOnce_tapped h _ _
  | complete pending result => exact completesOnce_completed h pending _ _ _
  | block waiting => exact h

section Order
variable (hands : Request → Outcome → Option Block)

/-- The blocks of the completed requests have run or wait, in the order of completion. -/
def InOrder (s : App Screen Request Outcome Block) : Prop :=
  s.ran ++ s.blocks = s.finished.filterMap fun (request, outcome) => hands request outcome

variable {hands}

theorem inOrder_completed (h : InOrder hands s) (index : ℕ) (request : Request)
    (outcome : Outcome) (screen : Screen) :
    InOrder hands (s.completed index request outcome screen (hands request outcome)) := by
  have last : [(request, outcome)].filterMap (fun (request, outcome) => hands request outcome) =
      (hands request outcome).toList := by
    cases handed : hands request outcome <;> simp [handed]
  unfold InOrder App.completed
  rw [← List.append_assoc, h, List.filterMap_append, last]

/-- No block is lost, runs twice or overtakes another. -/
theorem inOrder_run (p : Program Screen Tap Request Outcome Block)
    (agree : ∀ screen request outcome later block,
      p.complete screen request outcome = some (later, block) → block = hands request outcome)
    (screen : Screen) (es : List (Event Tap Outcome)) :
    InOrder hands (run (step p) { screen := screen } es) := by
  have start : InOrder hands ({ screen := screen } : App Screen Request Outcome Block) := rfl
  refine invariant_of_moves (fun s h => h) (fun s e t h moved => ?_) start es
  cases moved with
  | tap result => exact h
  | complete pending result =>
    rw [agree _ _ _ _ _ result]
    exact inOrder_completed h _ _ _ _
  | block waiting =>
    rw [InOrder, waiting] at h
    simpa [InOrder, App.executed] using h

end Order

/-- The event does not trap. -/
def Safe (p : Program Screen Tap Request Outcome Block) (s : App Screen Request Outcome Block) :
    Event Tap Outcome → Prop
  | .tap tap => (p.tap s.screen tap).isSome
  | .complete index outcome =>
    ∀ request, s.requests[index]? = some request → (p.complete s.screen request outcome).isSome
  | .block => True

theorem safe_iff (p : Program Screen Tap Request Outcome Block)
    (s : App Screen Request Outcome Block) (e : Event Tap Outcome) :
    Safe p s e ↔ (perform p s e).isSome := by
  cases e with
  | tap tap => simp [Safe, perform]
  | complete index outcome =>
    cases pending : s.requests[index]? with
    | none | some request => simp [Safe, perform, pending]
  | block => cases waiting : s.blocks <;> simp [Safe, perform, waiting]

theorem trapped_step_iff (running : s.trapped = false) (e : Event Tap Outcome) :
    (step p s e).trapped = false ↔ Safe p s e := by
  rw [safe_iff]
  have result : step p s e = (perform p s e).getD s.trap := if_neg (by simp [running])
  cases performed : perform p s e with
  | none => simp [result, performed, App.trap]
  | some t =>
    rw [result, performed]
    rcases perform_cases performed with rfl | moved
    · simp [running]
    · cases moved <;> exact iff_of_true running rfl

/-- The rule for invariants that let no permitted event trap. -/
theorem invariant_of_safe {inv : App Screen Request Outcome Block → Prop}
    {ok : App Screen Request Outcome Block → Event Tap Outcome → Prop}
    (safe : ∀ s e, inv s → ok s e → Safe p s e)
    (moves : ∀ s e t, inv s → ok s e → Moves p s e t → inv t)
    (start : inv s) (running : s.trapped = false) {es : List (Event Tap Outcome)}
    (permitted : Always (step p) (fun s e _ => ok s e) s es) :
    inv (run (step p) s es) ∧ (run (step p) s es).trapped = false := by
  refine @invariant_run _ _ (step p) (fun s => inv s ∧ s.trapped = false) ok
    (fun s e h admitted => ?_) s es ⟨start, running⟩ permitted
  have kept := (trapped_step_iff h.2 e).mpr (safe s e h.1 admitted)
  refine ⟨?_, kept⟩
  rcases step_cases p s e with trapped | same | moved
  · rw [trapped] at kept
    cases kept
  · rw [same]
    exact h.1
  · exact moves s e _ h.1 admitted moved

/-- A run traps exactly where one of its events does. -/
theorem running_iff (running : s.trapped = false) (es : List (Event Tap Outcome)) :
    (run (step p) s es).trapped = false ↔ Always (step p) (fun s e _ => Safe p s e) s es := by
  have lost : ∀ s (e : Event Tap Outcome), s.trapped ≠ false → (step p s e).trapped ≠ false := by
    intro s e ended
    have idle : step p s e = s := if_pos (by simpa using ended)
    rwa [idle]
  exact @run_iff_of_exact _ _ (step p) (fun _ => True) (fun s => s.trapped = false) (Safe p)
    (fun _ _ h => h) (fun s e _ now => trapped_step_iff now e) (fun s e _ => lost s e) s trivial
    running es

end MainQueue
