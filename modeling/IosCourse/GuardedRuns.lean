import Mathlib.Data.List.Basic

/-!
# Runs of an event-driven program

A program that handles one event at a time is a total step function; an event
that refers to nothing pending leaves the state alone. A run folds the step over
a list of events, so quantifying over event lists quantifies over every order in
which the events can arrive. Conditions on a run are conditions on its steps.
-/

namespace GuardedRuns

universe u v w
variable {State : Type u} {Event : Type v}

def run (step : State → Event → State) (s : State) (es : List Event) : State :=
  es.foldl step s

/-- `Q` relates the state before, the event and the state after, at every step. -/
def Always (step : State → Event → State) (Q : State → Event → State → Prop) :
    State → List Event → Prop
  | _, [] => True
  | s, e :: es => Q s e (step s e) ∧ Always step Q (step s e) es

instance decidableAlways (step : State → Event → State)
    (Q : State → Event → State → Prop) [∀ s e t, Decidable (Q s e t)] :
    (s : State) → (es : List Event) → Decidable (Always step Q s es)
  | _, [] => .isTrue trivial
  | s, e :: es =>
    have := decidableAlways step Q (step s e) es
    inferInstanceAs (Decidable (Q s e (step s e) ∧ Always step Q (step s e) es))

section Basics
variable (step : State → Event → State) {Q R : State → Event → State → Prop}

@[simp] theorem run_nil (s : State) : run step s [] = s := rfl

@[simp] theorem run_cons (s : State) (e : Event) (es : List Event) :
    run step s (e :: es) = run step (step s e) es := rfl

theorem run_append (s : State) (es fs : List Event) :
    run step s (es ++ fs) = run step (run step s es) fs :=
  List.foldl_append

@[simp] theorem always_nil (s : State) : Always step Q s [] := trivial

@[simp] theorem always_cons (s : State) (e : Event) (es : List Event) :
    Always step Q s (e :: es) ↔ Q s e (step s e) ∧ Always step Q (step s e) es := Iff.rfl

theorem always_append (s : State) (es fs : List Event) :
    Always step Q s (es ++ fs) ↔
      Always step Q s es ∧ Always step Q (run step s es) fs := by
  induction es generalizing s with
  | nil => simp
  | cons e es ih => simp only [List.cons_append, always_cons, run_cons, ih, and_assoc]

theorem always_and (s : State) (es : List Event) :
    Always step (fun s e t => Q s e t ∧ R s e t) s es ↔ Always step Q s es ∧ Always step R s es := by
  induction es generalizing s with
  | nil => exact ⟨fun _ => ⟨trivial, trivial⟩, fun _ => trivial⟩
  | cons e es ih => rw [always_cons, always_cons, always_cons, ih, and_and_and_comm]

theorem always_mono (weaken : ∀ s e t, Q s e t → R s e t) {s : State} {es : List Event}
    (h : Always step Q s es) : Always step R s es := by
  induction es generalizing s with
  | nil => trivial
  | cons e es ih => exact ⟨weaken _ _ _ h.1, ih h.2⟩

/-- A condition on the events alone can be checked event by event. -/
theorem always_of_mem {admits : Event → Prop} {es : List Event} (h : ∀ e ∈ es, admits e)
    (s : State) : Always step (fun _ e _ => admits e) s es := by
  induction es generalizing s with
  | nil => trivial
  | cons e es ih =>
    exact ⟨h e List.mem_cons_self, ih (fun e' mem => h e' (List.mem_cons_of_mem e mem)) _⟩

theorem always_trivial (s : State) (es : List Event) :
    Always step (fun _ _ _ => True) s es :=
  always_of_mem step (fun _ _ => trivial) s

theorem always_congr (agree : ∀ s e, Q s e (step s e) ↔ R s e (step s e)) (s : State)
    (es : List Event) : Always step Q s es ↔ Always step R s es := by
  induction es generalizing s with
  | nil => rfl
  | cons e es ih => rw [always_cons, always_cons, agree, ih]

end Basics

section Invariants
variable {step : State → Event → State} {inv P : State → Prop}
variable {ok : State → Event → Prop}

/-- What a permitted step preserves holds after every run of permitted steps. -/
theorem invariant_run (preserved : ∀ s e, inv s → ok s e → inv (step s e))
    {s : State} {es : List Event} (start : inv s)
    (permitted : Always step (fun s e _ => ok s e) s es) : inv (run step s es) := by
  induction es generalizing s with
  | nil => exact start
  | cons e es ih => exact ih (preserved s e start permitted.1) permitted.2

theorem invariant_free_run (preserved : ∀ s e, inv s → inv (step s e))
    {s : State} (start : inv s) (es : List Event) : inv (run step s es) :=
  List.foldlRecOn es step start fun s h e _ => preserved s e h

/-- An invariant that may refer to all the events so far. -/
theorem history_run {tells : List Event → State → Prop}
    (preserved : ∀ past s e, tells past s → tells (past ++ [e]) (step s e))
    {past : List Event} {s : State} (start : tells past s) (es : List Event) :
    tells (past ++ es) (run step s es) := by
  induction es generalizing past s with
  | nil => rwa [List.append_nil]
  | cons e es ih =>
    have later := ih (preserved past s e start)
    rwa [List.append_assoc, List.singleton_append] at later

/-- A property of single steps that an invariant supplies holds along a whole run. -/
theorem always_of_invariant {Q : State → Event → State → Prop}
    (preserved : ∀ s e, inv s → ok s e → inv (step s e))
    (supplied : ∀ s e, inv s → ok s e → Q s e (step s e))
    {s : State} {es : List Event} (start : inv s)
    (permitted : Always step (fun s e _ => ok s e) s es) : Always step Q s es := by
  induction es generalizing s with
  | nil => trivial
  | cons e es ih =>
    exact ⟨supplied s e start permitted.1, ih (preserved s e start permitted.1) permitted.2⟩

/-- Two properties of single steps that agree wherever an invariant holds agree
along every run that starts there. -/
theorem always_congr_of_invariant {Q R : State → Event → State → Prop}
    (preserved : ∀ s e, inv s → inv (step s e))
    (agree : ∀ s e, inv s → ok s e → (Q s e (step s e) ↔ R s e (step s e)))
    {s : State} {es : List Event} (start : inv s)
    (permitted : Always step (fun s e _ => ok s e) s es) :
    Always step Q s es ↔ Always step R s es := by
  induction es generalizing s with
  | nil => rfl
  | cons e es ih =>
    exact and_congr (agree s e start permitted.1) (ih (preserved s e start) permitted.2)

/-- If a step keeps `P` exactly when `ok` admits it, then `P` holds in every state
of a run exactly when `ok` admits every step. The auxiliary `inv` needs no guard. -/
theorem always_iff_of_exact (preserved : ∀ s e, inv s → inv (step s e))
    (exact : ∀ s e, inv s → P s → (P (step s e) ↔ ok s e))
    {s : State} (start : inv s) (holds : P s) (es : List Event) :
    Always step (fun _ _ t => P t) s es ↔ Always step (fun s e _ => ok s e) s es := by
  induction es generalizing s with
  | nil => simp
  | cons e es ih =>
    have here := exact s e start holds
    constructor
    · rintro ⟨now, later⟩
      exact ⟨here.mp now, (ih (preserved s e start) now).mp later⟩
    · rintro ⟨now, later⟩
      have kept := here.mpr now
      exact ⟨kept, (ih (preserved s e start) kept).mpr later⟩

/-- If moreover a lost `P` never comes back, the last state tells whether every step
was admitted. -/
theorem run_iff_of_exact (preserved : ∀ s e, inv s → inv (step s e))
    (exact : ∀ s e, inv s → P s → (P (step s e) ↔ ok s e))
    (lost : ∀ s e, inv s → ¬ P s → ¬ P (step s e))
    {s : State} (start : inv s) (holds : P s) (es : List Event) :
    P (run step s es) ↔ Always step (fun s e _ => ok s e) s es := by
  induction es generalizing s with
  | nil => simp [holds]
  | cons e es ih =>
    have here := exact s e start holds
    rw [run_cons, always_cons, ← here]
    by_cases kept : P (step s e)
    · rw [ih (preserved s e start) kept, and_iff_right kept]
    · -- what is lost now is lost in the end
      have ended : inv (run step (step s e) es) ∧ ¬ P (run step (step s e) es) :=
        @invariant_free_run _ _ step (fun t => inv t ∧ ¬ P t)
          (fun t e h => ⟨preserved t e h.1, lost t e h.1 h.2⟩) _
          ⟨preserved s e start, kept⟩ es
      exact iff_of_false ended.2 fun both => kept both.1

end Invariants

section Traps
variable {perform : State → Event → Option State} {trapped : State → Bool} {trap : State → State}
variable {inv : State → Prop}

/-- The step of a process in which an event may trap. Once trapped it does nothing. -/
def trapStep (perform : State → Event → Option State) (trapped : State → Bool)
    (trap : State → State) (s : State) (e : Event) : State :=
  if trapped s then s else (perform s e).getD (trap s)

/-- Where an invariant lets every event succeed, no step traps, and the invariant stays. -/
theorem trapStep_succeeds (running : ∀ s, inv s → trapped s = false)
    (succeeds : ∀ s e, inv s → ∃ t, perform s e = some t ∧ inv t) {s : State} (h : inv s)
    (e : Event) :
    perform s e = some (trapStep perform trapped trap s e) ∧
      inv (trapStep perform trapped trap s e) := by
  obtain ⟨t, performed, kept⟩ := succeeds s e h
  have result : trapStep perform trapped trap s e = t := by
    simp [trapStep, running s h, performed]
  rw [result]
  exact ⟨performed, kept⟩

/-- Nothing happens after a trap. -/
theorem run_trapped {s : State} (ended : trapped s = true) (es : List Event) :
    run (trapStep perform trapped trap) s es = s := by
  induction es with
  | nil => rfl
  | cons e es ih =>
    have idle : trapStep perform trapped trap s e = s := if_pos ended
    rw [run_cons, idle, ih]

/-- What each round of a loop preserves, the loop preserves. -/
theorem foldlM_preserves {Item : Type w} {body : State → Item → Option State}
    (kept : ∀ s item, inv s → ∃ t, body s item = some t ∧ inv t) {s : State} (h : inv s)
    (items : List Item) : ∃ t, items.foldlM body s = some t ∧ inv t := by
  induction items generalizing s with
  | nil => exact ⟨s, rfl, h⟩
  | cons item items ih =>
    obtain ⟨t, once, keptOnce⟩ := kept s item h
    obtain ⟨last, rest, keptLast⟩ := ih keptOnce
    refine ⟨last, ?_, keptLast⟩
    rw [List.foldlM_cons, once]
    exact rest

end Traps

section Companions
variable {Companion : Type w} (step : State → Event → State)
variable (follow : State → Event → Companion → Companion)

/-- A second machine that sees every event, together with the state it happens in. -/
def together (p : State × Companion) (e : Event) : State × Companion :=
  (step p.1 e, follow p.1 e p.2)

@[simp] theorem together_fst (p : State × Companion) (e : Event) :
    (together step follow p e).1 = step p.1 e := rfl

@[simp] theorem together_snd (p : State × Companion) (e : Event) :
    (together step follow p e).2 = follow p.1 e p.2 := rfl

theorem run_together_fst (p : State × Companion) (es : List Event) :
    (run (together step follow) p es).1 = run step p.1 es := by
  induction es generalizing p with
  | nil => rfl
  | cons e es ih => exact ih _

/-- What does not mention the companion holds with it as it does without. -/
theorem always_together {Q : State → Event → State → Prop} (p : State × Companion)
    (es : List Event) :
    Always (together step follow) (fun p e q => Q p.1 e q.1) p es ↔ Always step Q p.1 es := by
  induction es generalizing p with
  | nil => rfl
  | cons e es ih => exact and_congr Iff.rfl (ih _)

end Companions

end GuardedRuns
