import IosCourse.FlintstoneGame

/-!
# Rounds of CatchTheFlintstone

What holds in every state of every run: how long a game lasts and how it ends,
when a target is shown, and how the high score follows the final scores. A game
that the Replay button starts shows no target before its first hide tick.
-/

namespace FlintstoneRounds

open GuardedRuns FlintstoneGame FlintstoneGame.Game

/-- At most one timer of each kind is live, both are or neither is, and a game is
over, by one run of its last branch, exactly when it has seen twelve ticks. -/
structure CountsDown (s : Game) : Prop where
  timers : s.liveTimers.length ≤ 1
  hideTimers : s.liveHideTimers.length ≤ 1
  together : s.liveTimers = [] ↔ s.liveHideTimers = []
  above : s.liveTimers ≠ [] → -2 < s.timeCounter
  played : s.liveTimers ≠ [] → ∃ p, s.progress = some p ∧ p.ticks < 12 ∧ p.endings = 0
  timeOver : s.liveTimers = [] → ∀ p ∈ s.progress, p.ticks = 12 ∧ p.endings = 1
  finished : ∀ p ∈ s.finished, p.ticks = 12 ∧ p.endings = 1

/-- A tick of the live countdown timer is counted, and the twelfth one ends the game. -/
def CountsTick (s : Game) (e : Event) (t : Game) : Prop :=
  match e with
  | .countDown timer => timer ∈ s.liveTimers → ∃ p q, s.progress = some p ∧
    t.progress = some q ∧ q.ticks = p.ticks + 1 ∧ (t.liveTimers = [] ↔ q.ticks = 12)
  | _ => True

theorem countsDown_of_regular {s : Game} (h : Regular s) : CountsDown s := by
  cases h.phase with
  | before progress timers hideTimers =>
    refine ⟨by simp [timers], by simp [hideTimers], by simp [timers, hideTimers],
      by simp [timers], by simp [timers], ?_, h.finished⟩
    simp [progress]
  | playing p progress timers hideTimers endings counted above =>
    refine ⟨by simp [timers], by simp [hideTimers], by simp [timers, hideTimers], fun _ => above,
      fun _ => ⟨p, progress, by omega, endings⟩, by simp [timers], h.finished⟩
  | timeOver p progress timers hideTimers endings ticks =>
    refine ⟨by simp [timers], by simp [hideTimers], by simp [timers, hideTimers],
      by simp [timers], by simp [timers], ?_, h.finished⟩
    intro _ q mem
    obtain rfl : p = q := Option.some.inj (progress.symm.trans mem)
    exact ⟨ticks, endings⟩

theorem ticks_countDown {s : Game} {p : Progress} (progress : s.progress = some p) :
    ∃ q, s.countDown.progress = some q ∧ q.ticks = p.ticks + 1 := by
  unfold countDown
  dsimp only
  split <;> simp [timeIsOver, progress, Progress.tick, Progress.finish]

theorem step_countDown {s : Game} (running : s.trapped = false) {timer : ℕ}
    (fires : timer ∈ s.liveTimers) : s.step (.countDown timer) = s.countDown := by
  simp [step, running, perform, fires]

theorem countsTick_step (s : Game) (e : Event) (h : Regular s) : CountsTick s e (s.step e) := by
  cases e with
  | countDown timer =>
    intro fires
    obtain ⟨p, progress, _, _⟩ := (countsDown_of_regular h).played (List.ne_nil_of_mem fires)
    obtain ⟨q, counted, ticks⟩ := ticks_countDown progress
    have after := countsDown_of_regular (regular_step s (.countDown timer) h)
    rw [step_countDown h.running fires] at after ⊢
    refine ⟨p, q, progress, counted, ticks, ?_⟩
    constructor
    · intro ended
      exact (after.timeOver ended q counted).1
    · intro twelfth
      by_contra live
      obtain ⟨q', counted', short, _⟩ := after.played live
      obtain rfl : q = q' := Option.some.inj (counted.symm.trans counted')
      omega
  | _ => trivial

/-- Every game of every run, first or replayed, ends exactly once, with its twelfth
tick; until then exactly its two timers are live. -/
theorem games_end_once (highscore : Option ℤ) (es : List Event) :
    CountsDown (run step (neverLaunched highscore) es) ∧
      Always step CountsTick (neverLaunched highscore) es :=
  ⟨countsDown_of_regular (regular_run highscore es),
    always_of_invariant (fun s e h _ => regular_step s e h) (fun s e h _ => countsTick_step s e h)
      (regular_neverLaunched highscore) (always_trivial step _ es)⟩

/-- One view is visible while the countdown timer is live, and none otherwise. -/
def TargetShown (s : Game) : Prop :=
  visible s.fredArray = if s.liveTimers = [] then 0 else 1

instance (s : Game) : Decidable (TargetShown s) := inferInstanceAs (Decidable (_ = _))

/-- A game that was started by Replay waits for its first hide tick. -/
def awaits (s : Game) : Bool := s.progress.any Progress.awaitsHide

/-- The Replay button starts a game in this step. -/
def Replayed (s : Game) (e : Event) : Prop := e = .replay ∧ s.alert = true

instance (s : Game) (e : Event) : Decidable (Replayed s e) := inferInstanceAs (Decidable (_ ∧ _))

theorem targetShown_iff {s : Game} (h : Regular s) : TargetShown s ↔ awaits s = false := by
  cases h.phase with
  | before progress timers hideTimers views =>
    simp [TargetShown, awaits, progress, timers, views, visible]
  | playing p progress timers hideTimers endings counted above views target =>
    cases waits : p.awaitsHide <;>
      simp [TargetShown, awaits, progress, timers, target, waits]
  | timeOver p progress timers hideTimers endings ticks views hidden moved =>
    simp [TargetShown, awaits, progress, timers, hidden, moved]

theorem awaits_countDown {s : Game} (moved : awaits s = false) : awaits s.countDown = false := by
  have keeps : awaits { s with progress := s.progress.map Progress.tick } = false := by
    simpa [awaits, Option.any_map, Function.comp_def, Progress.tick] using moved
  unfold countDown
  dsimp only
  split
  · cases s.progress <;> rfl
  · exact keeps

/-- Only Replay makes a game wait, and it always does. -/
theorem awaits_step {s : Game} (h : Regular s) (moved : awaits s = false) (e : Event) :
    awaits (s.step e) = true ↔ Replayed s e := by
  cases gameStep h e with
  | launched draw shown event result =>
    rw [event] at result ⊢
    rw [result]
    exact iff_of_false Bool.noConfusion (by simp [Replayed])
  | counted timer fires event result =>
    rw [event] at result ⊢
    rw [result, awaits_countDown moved]
    exact iff_of_false Bool.noConfusion (by simp [Replayed])
  | moved timer draw shown event result =>
    rw [event] at result ⊢
    rw [result]
    refine iff_of_false ?_ (by simp [Replayed])
    simp [awaits, Option.any_map, Progress.move]
  | tapped view event result =>
    rw [event] at result ⊢
    rw [result]
    refine iff_of_false ?_ (by simp [Replayed])
    simpa [awaits, increaseScore, Option.any_map, Function.comp_def, Progress.tap] using moved
  | answered event result =>
    rw [event] at result ⊢
    rw [result]
    exact iff_of_false (by simpa [awaits] using moved) (by simp [Replayed])
  | replayed asked event result =>
    rw [result]
    exact iff_of_true rfl ⟨event, asked⟩
  | ignored silent result =>
    rw [result, moved]
    refine iff_of_false Bool.noConfusion ?_
    rintro ⟨event, asked⟩
    rw [silent event] at asked
    cases asked

/-- In a state that a run reaches a target is shown as it should be exactly when no
replayed game waits for its first hide tick. It is shown so in all states of a run
exactly when the run starts no game by the Replay button. -/
theorem target_shown_iff (highscore : Option ℤ) (es : List Event) :
    (TargetShown (run step (neverLaunched highscore) es) ↔
        awaits (run step (neverLaunched highscore) es) = false) ∧
      (Always step (fun _ _ t => TargetShown t) (neverLaunched highscore) es ↔
        Always step (fun s e _ => ¬ Replayed s e) (neverLaunched highscore) es) := by
  have nothing : TargetShown (neverLaunched highscore) := rfl
  refine ⟨targetShown_iff (regular_run highscore es), ?_⟩
  refine always_iff_of_exact regular_step ?_ (regular_neverLaunched highscore) nothing es
  intro s e h shown
  rw [targetShown_iff (regular_step s e h), ← awaits_step h ((targetShown_iff h).mp shown),
    Bool.not_eq_true]

/-- The first game from its start to its end. -/
def firstGame : List Event := .launch 0 :: List.replicate 12 (.countDown 1)

/-- After Replay no view is visible although the countdown runs. -/
theorem replay_shows_no_target :
    ¬ ∀ (highscore : Option ℤ) (es : List Event),
      TargetShown (run step (neverLaunched highscore) es) := by
  intro every
  have shown := every none (firstGame ++ [.replay])
  revert shown
  decide

/-- The view at this index is visible, and no other. -/
def ShowsOnly (fredArray : List Bool) (index : ℕ) : Prop :=
  ∀ i, fredArray[i]? = some false ↔ i = index

/-- Some draw makes the next tick of this hide timer show the view at this index. -/
def CanAppear (s : Game) (timer index : ℕ) : Prop :=
  ∃ draw, (s.step (.hideFred timer draw)).trapped = false ∧
    ShowsOnly (s.step (.hideFred timer draw)).fredArray index

/-- The values that can be drawn. -/
theorem arc4random_uniform_range {bound value : ℕ} :
    (∃ draw, arc4random_uniform bound draw = value) ↔ value < bound ∨ bound = 0 ∧ value = 0 := by
  by_cases none_below : bound = 0
  · simp [arc4random_uniform, none_below, eq_comm]
  · simp only [arc4random_uniform, none_below, if_false, false_and, or_false]
    constructor
    · rintro ⟨draw, rfl⟩
      exact Nat.mod_lt draw (by omega)
    · intro below
      exact ⟨value, Nat.mod_eq_of_lt below⟩

theorem showsOnly_hidden {fredArray : List Bool} {random index : ℕ}
    (bound : random < fredArray.length) :
    ShowsOnly ((fredArray.map fun _ => true).set random false) index ↔ random = index := by
  have shown : ∀ i, ((fredArray.map fun _ => true).set random false)[i]? = some false ↔
      i = random := by
    intro i
    by_cases here : random = i
    · subst here
      simp [bound]
    · simp [List.getElem?_set_ne here, Ne.symm here, List.getElem?_replicate]
  constructor
  · intro only
    exact (only random).mp ((shown random).mpr rfl)
  · rintro rfl
    exact shown

/-- A hide tick in a state with any number of views. -/
theorem hideFred_step {s : Game} (running : s.trapped = false) {timer : ℕ}
    (fires : timer ∈ s.liveHideTimers) (some_view : 0 < s.fredArray.length) (draw : ℕ) :
    (s.step (.hideFred timer draw)).trapped = true ∧ 2 ^ 32 < s.fredArray.length ∨
      (s.step (.hideFred timer draw)).trapped = false ∧ s.fredArray.length ≤ 2 ^ 32 ∧
        (s.step (.hideFred timer draw)).fredArray = (s.fredArray.map fun _ => true).set
          (arc4random_uniform (s.fredArray.length - 1) draw) false := by
  by_cases fits : s.fredArray.length ≤ 2 ^ 32
  · have shown := hideFred_eq some_view fits draw
    refine Or.inr ⟨?_, fits, ?_⟩ <;> simp [step, running, perform, fires, moveFred, shown]
  · have traps : FlintstoneGame.hideFred draw s.fredArray = none :=
      if_pos (Or.inr (by omega))
    refine Or.inl ⟨?_, by omega⟩
    simp [step, running, perform, fires, moveFred, traps]

theorem canAppear_iff {s : Game} (running : s.trapped = false) {timer : ℕ}
    (fires : timer ∈ s.liveHideTimers) (some_view : 0 < s.fredArray.length) (index : ℕ) :
    CanAppear s timer index ↔ s.fredArray.length ≤ 2 ^ 32 ∧
      (index + 1 < s.fredArray.length ∨ s.fredArray.length = 1 ∧ index = 0) := by
  have range := @arc4random_uniform_range (s.fredArray.length - 1) index
  constructor
  · rintro ⟨draw, went_on, only⟩
    rcases hideFred_step running fires some_view draw with ⟨trapped, _⟩ | ⟨_, fits, shown⟩
    · cases went_on.symm.trans trapped
    · rw [shown, showsOnly_hidden (arc4random_uniform_lt some_view draw)] at only
      have drawn := range.mp ⟨draw, only⟩
      exact ⟨fits, by omega⟩
  · rintro ⟨fits, reachable⟩
    obtain ⟨draw, drawn⟩ := range.mpr (by omega)
    rcases hideFred_step running fires some_view draw with ⟨_, large⟩ | ⟨went_on, _, shown⟩
    · omega
    · refine ⟨draw, went_on, ?_⟩
      rw [shown, showsOnly_hidden (arc4random_uniform_lt some_view draw)]
      exact drawn

/-- Whatever the views look like, the next hide tick can show any of them except the
last, which it can show only where it is the only one; and it never looks for a view
outside the array. More views than 32 bits can count are never shown. -/
theorem target_can_appear_iff (s : Game) (timer index : ℕ) (running : s.trapped = false)
    (fires : timer ∈ s.liveHideTimers) (present : index < s.fredArray.length) :
    (CanAppear s timer index ↔ s.fredArray.length ≤ 2 ^ 32 ∧
        (index + 1 < s.fredArray.length ∨ s.fredArray.length = 1)) ∧
      ∀ draw, arc4random_uniform (s.fredArray.length - 1) draw < s.fredArray.length := by
  have some_view : 0 < s.fredArray.length := by omega
  refine ⟨?_, arc4random_uniform_lt some_view⟩
  rw [canAppear_iff running fires some_view]
  omega

theorem middle_target_can_appear :
    CanAppear ((neverLaunched none).step (.launch 0)) 2 4 :=
  (target_can_appear_iff _ 2 4 (by decide) (by decide) (by decide)).1.mpr (by decide)

/-- The ninth view never appears. -/
theorem last_target_cannot_appear :
    ¬ ∀ (s : Game) (timer index : ℕ), s.trapped = false → timer ∈ s.liveHideTimers →
      index < s.fredArray.length → CanAppear s timer index := by
  intro every
  let s := (neverLaunched none).step (.launch 0)
  have appears := every s 2 8 (by decide) (by decide) (by decide)
  rw [canAppear_iff (by decide) (by decide) (by decide)] at appears
  revert appears
  decide

end FlintstoneRounds
