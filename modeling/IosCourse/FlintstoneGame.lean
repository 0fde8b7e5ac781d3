import Mathlib.Algebra.Order.Ring.Int
import Mathlib.Data.List.Count
import IosCourse.GuardedRuns

/-!
# CatchTheFlintstone

A game counts down for twelve seconds, one tick of a timer for each; the ticks of
a second timer move the visible image view, and taps on it score. At the end both
timers are invalidated, the high score is updated, and an alert offers a replay.
A launch starts a game too. Timers that are scheduled and not invalidated are
live, and only live timers fire; hidden views receive no taps.
-/

namespace FlintstoneGame

open GuardedRuns

/-- What has happened in a game since it was started: ticks of the countdown, taps
on a visible view, and runs of the branch that ends the game. `awaitsHide` tells
that the Replay button has started it and the view has not been moved yet. -/
structure Progress where
  ticks : ℕ := 0
  taps : ℕ := 0
  endings : ℕ := 0
  awaitsHide : Bool := false
  deriving DecidableEq

namespace Progress

def tick (p : Progress) : Progress := { p with ticks := p.ticks + 1 }

def tap (p : Progress) : Progress := { p with taps := p.taps + 1 }

def move (p : Progress) : Progress := { p with awaitsHide := false }

def finish (p : Progress) : Progress := { p with endings := p.endings + 1, awaitsHide := false }

end Progress

/-- `highscore` is the entry of `UserDefaults`; `fredArray` holds `isHidden` of each
view. `timer` and `hideTimer` are the variables of the view controller, and a timer
is live independently of them. -/
structure Game where
  highscore : Option ℤ
  score : ℤ := 0
  highScore : ℤ := 0
  timeCounter : ℤ := 10
  timer : ℕ := 0
  hideTimer : ℕ := 0
  liveTimers : List ℕ := []
  liveHideTimers : List ℕ := []
  nextTimer : ℕ := 1
  fredArray : List Bool := []
  TimeLabel : String := ""
  ScoreLabel : String := ""
  HighscoreLabel : String := ""
  alert : Bool := false
  progress : Option Progress := none
  finished : List Progress := []
  trapped : Bool := false
  deriving DecidableEq

/-- Nothing has been launched yet. -/
def neverLaunched (highscore : Option ℤ) : Game := { highscore := highscore }

inductive Event where
  | launch (draw : ℕ)
  | countDown (timer : ℕ)
  | hideFred (timer draw : ℕ)
  | tap (view : ℕ)
  | ok
  | replay
  deriving DecidableEq

/-- A value below `bound`, and 0 if there is none. -/
def arc4random_uniform (bound draw : ℕ) : ℕ := if bound = 0 then 0 else draw % bound

/-- All views are hidden but one. The bound is an unsigned number of 32 bits, which
traps where there is no view or too many, and so does an index out of range. -/
def hideFred (draw : ℕ) (fredArray : List Bool) : Option (List Bool) :=
  if fredArray.length = 0 ∨ 2 ^ 32 < fredArray.length then none
  else
    let random := arc4random_uniform (fredArray.length - 1) draw
    if random < fredArray.length then some ((fredArray.map fun _ => true).set random false)
    else none

namespace Game

/-- Two new timers, stored in the variables. -/
def scheduleTimers (s : Game) : Game :=
  { s with
    timer := s.nextTimer
    hideTimer := s.nextTimer + 1
    liveTimers := s.liveTimers ++ [s.nextTimer]
    liveHideTimers := s.liveHideTimers ++ [s.nextTimer + 1]
    nextTimer := s.nextTimer + 2 }

/-- The state of a new process, in which only the stored value survives, once the
screen is loaded and its first view shown. -/
def loaded (fredArray : List Bool) (s : Game) : Game :=
  let highScore := s.highscore.getD 0
  let game : Game :=
    { highscore := s.highscore
      highScore := highScore
      HighscoreLabel := "Highscore: " ++ toString highScore
      ScoreLabel := "Score: " ++ toString (0 : ℤ)
      TimeLabel := toString (10 : ℤ)
      fredArray := fredArray
      progress := some {}
      finished := s.finished }
  game.scheduleTimers

/-- The nine views are visible when `viewDidLoad` calls `hideFred`. -/
def viewDidLoad (draw : ℕ) (s : Game) : Option Game :=
  (FlintstoneGame.hideFred draw (List.replicate 9 false)).map fun fredArray => s.loaded fredArray

def increaseScore (s : Game) : Game :=
  { s with
    score := s.score + 1
    ScoreLabel := "Score: " ++ toString (s.score + 1)
    progress := s.progress.map Progress.tap }

/-- The test for a new high score at the end of a game. -/
def updateHighScore (s : Game) : Game :=
  if s.highScore < s.score then
    { s with
      highScore := s.score
      HighscoreLabel := "Highscore: " ++ toString s.score
      highscore := some s.score }
  else s

/-- The branch that ends a game. -/
def timeIsOver (s : Game) : Game :=
  let progress := s.progress.map Progress.finish
  { s.updateHighScore with
    liveTimers := s.liveTimers.erase s.timer
    liveHideTimers := s.liveHideTimers.erase s.hideTimer
    TimeLabel := "Time's Over"
    fredArray := s.fredArray.map fun _ => true
    alert := true
    progress := progress
    finished := s.finished ++ progress.toList }

def countDown (s : Game) : Game :=
  let s :=
    { s with
      TimeLabel := toString s.timeCounter
      timeCounter := s.timeCounter - 1
      progress := s.progress.map Progress.tick }
  if s.timeCounter = -2 then s.timeIsOver else s

def moveFred (draw : ℕ) (s : Game) : Option Game :=
  (FlintstoneGame.hideFred draw s.fredArray).map fun fredArray =>
    { s with
      fredArray := fredArray
      progress := s.progress.map Progress.move }

/-- The handler of the Replay button. No view is shown here. -/
def replay (s : Game) : Game :=
  { s with
    score := 0
    ScoreLabel := "Score: " ++ toString (0 : ℤ)
    timeCounter := 10
    TimeLabel := toString (10 : ℤ)
    alert := false
    progress := some { awaitsHide := true } }.scheduleTimers

def perform (s : Game) : Event → Option Game
  | .launch draw => s.viewDidLoad draw
  | .countDown timer => if timer ∈ s.liveTimers then some s.countDown else some s
  | .hideFred timer draw => if timer ∈ s.liveHideTimers then s.moveFred draw else some s
  | .tap view => if s.fredArray[view]? = some false then some s.increaseScore else some s
  | .ok => some { s with alert := false }
  | .replay => if s.alert then some s.replay else some s

/-- A process that has trapped does nothing more. -/
def step (s : Game) (e : Event) : Game :=
  if s.trapped then s else (s.perform e).getD { s with trapped := true }

end Game

def visible (fredArray : List Bool) : ℕ := fredArray.count false

theorem arc4random_uniform_lt {count : ℕ} (some_view : 0 < count) (draw : ℕ) :
    arc4random_uniform (count - 1) draw < count := by
  unfold arc4random_uniform
  split
  · exact some_view
  · have := Nat.mod_lt draw (show 0 < count - 1 by omega)
    omega

theorem visible_hidden (fredArray : List Bool) : visible (fredArray.map fun _ => true) = 0 := by
  simp [visible, List.count_replicate]

/-- The index is always in range, so only the bound can trap. -/
theorem hideFred_eq {fredArray : List Bool} (some_view : 0 < fredArray.length)
    (fits : fredArray.length ≤ 2 ^ 32) (draw : ℕ) :
    hideFred draw fredArray = some ((fredArray.map fun _ => true).set
      (arc4random_uniform (fredArray.length - 1) draw) false) := by
  have bound := arc4random_uniform_lt some_view draw
  have converts : ¬ (fredArray.length = 0 ∨ 2 ^ 32 < fredArray.length) := by omega
  rw [hideFred, if_neg converts, if_pos bound]

/-- A hide tick shows exactly one view. -/
theorem hideFred_shows {fredArray : List Bool} (some_view : 0 < fredArray.length)
    (fits : fredArray.length ≤ 2 ^ 32) (draw : ℕ) :
    ∃ shown, hideFred draw fredArray = some shown ∧ shown.length = fredArray.length ∧
      visible shown = 1 := by
  have bound := arc4random_uniform_lt some_view draw
  refine ⟨_, hideFred_eq some_view fits draw, by simp, ?_⟩
  rw [visible, List.count_set (by simpa using bound)]
  simp [List.count_replicate]

/-- While a game is played its two timers are live, and the counter tells how many
ticks have passed. When it is over no timer is live, and all views are hidden. -/
inductive Phase (s : Game) : Prop where
  | before (progress : s.progress = none) (timers : s.liveTimers = [])
      (hideTimers : s.liveHideTimers = []) (views : s.fredArray = []) (answered : s.alert = false)
  | playing (p : Progress) (progress : s.progress = some p) (timers : s.liveTimers = [s.timer])
      (hideTimers : s.liveHideTimers = [s.hideTimer]) (endings : p.endings = 0)
      (counted : p.ticks + s.timeCounter = 10) (above : -2 < s.timeCounter)
      (views : s.fredArray.length = 9)
      (target : visible s.fredArray = if p.awaitsHide then 0 else 1) (answered : s.alert = false)
  | timeOver (p : Progress) (progress : s.progress = some p) (timers : s.liveTimers = [])
      (hideTimers : s.liveHideTimers = []) (endings : p.endings = 1) (ticks : p.ticks = 12)
      (views : s.fredArray.length = 9) (hidden : visible s.fredArray = 0)
      (moved : p.awaitsHide = false)

structure Regular (s : Game) : Prop where
  running : s.trapped = false
  phase : Phase s
  finished : ∀ p ∈ s.finished, p.ticks = 12 ∧ p.endings = 1

theorem regular_neverLaunched (highscore : Option ℤ) : Regular (neverLaunched highscore) where
  running := rfl
  phase := .before rfl rfl rfl rfl rfl
  finished := fun _ mem => absurd mem List.not_mem_nil

namespace Game

@[simp] theorem updateHighScore_trapped (s : Game) :
    s.updateHighScore.trapped = s.trapped := by
  unfold updateHighScore
  split <;> rfl

theorem regular_viewDidLoad {s : Game} (h : Regular s) (draw : ℕ) :
    ∃ t, s.viewDidLoad draw = some t ∧ Regular t := by
  obtain ⟨shown, moved, length, target⟩ :=
    hideFred_shows (show 0 < (List.replicate 9 false).length by decide) (by decide) draw
  refine ⟨_, Option.map_eq_some_iff.mpr ⟨shown, moved, rfl⟩, rfl, ?_, h.finished⟩
  exact .playing {} rfl rfl rfl rfl rfl (show (-2 : ℤ) < 10 by decide) length target rfl

theorem regular_timeIsOver {s : Game} (running : s.trapped = false)
    (finished : ∀ p ∈ s.finished, p.ticks = 12 ∧ p.endings = 1) {p : Progress}
    (progress : s.progress = some p) (timers : s.liveTimers = [s.timer])
    (hideTimers : s.liveHideTimers = [s.hideTimer]) (ticks : p.ticks = 12)
    (endings : p.endings = 0) (views : s.fredArray.length = 9) : Regular s.timeIsOver where
  running := by simp [timeIsOver, running]
  phase := by
    refine .timeOver p.finish ?_ ?_ ?_ ?_ ticks ?_ ?_ rfl
    · simp [timeIsOver, progress]
    · simp [timeIsOver, timers]
    · simp [timeIsOver, hideTimers]
    · simp [Progress.finish, endings]
    · simp [timeIsOver, views]
    · exact visible_hidden s.fredArray
  finished := by
    intro q mem
    rcases List.mem_append.mp mem with old | new
    · exact finished q old
    · rw [progress] at new
      obtain rfl := List.mem_singleton.mp new
      exact ⟨ticks, by simp [Progress.finish, endings]⟩

theorem regular_countDown {s : Game} (h : Regular s) {timer : ℕ} (fires : timer ∈ s.liveTimers) :
    Regular s.countDown := by
  cases h.phase with
  | before progress timers => rw [timers] at fires; cases fires
  | timeOver p progress timers => rw [timers] at fires; cases fires
  | playing p progress timers hideTimers endings counted above views target answered =>
    unfold countDown
    dsimp only
    split
    · rename_i last
      have ticks : p.ticks + 1 = 12 := by omega
      exact @regular_timeIsOver _ h.running h.finished p.tick (by simp [progress])
        timers hideTimers ticks endings views
    · rename_i more
      refine ⟨h.running, ?_, h.finished⟩
      refine .playing p.tick (by simp [progress]) timers hideTimers endings
        ?_ ?_ views target answered
      · simp only [Progress.tick]
        push_cast
        omega
      · dsimp only at more ⊢
        omega

theorem regular_moveFred {s : Game} (h : Regular s) {timer : ℕ}
    (fires : timer ∈ s.liveHideTimers) (draw : ℕ) :
    ∃ t, s.moveFred draw = some t ∧ Regular t := by
  cases h.phase with
  | before progress timers hideTimers => rw [hideTimers] at fires; cases fires
  | timeOver p progress timers hideTimers => rw [hideTimers] at fires; cases fires
  | playing p progress timers hideTimers endings counted above views target answered =>
    obtain ⟨shown, moved, length, target⟩ :=
      hideFred_shows (show 0 < s.fredArray.length by omega) (by omega) draw
    refine ⟨_, Option.map_eq_some_iff.mpr ⟨shown, moved, rfl⟩, h.running, ?_, h.finished⟩
    exact .playing p.move (by simp [progress]) timers hideTimers endings
      counted above (length.trans views) target answered

theorem regular_increaseScore {s : Game} (h : Regular s) : Regular s.increaseScore := by
  refine ⟨h.running, ?_, h.finished⟩
  cases h.phase with
  | before progress timers hideTimers views answered =>
    exact .before (by simp [increaseScore, progress]) timers hideTimers views answered
  | playing p progress timers hideTimers endings counted above views target answered =>
    exact .playing p.tap (by simp [increaseScore, progress]) timers
      hideTimers endings counted above views target answered
  | timeOver p progress timers hideTimers endings ticks views hidden moved =>
    exact .timeOver p.tap (by simp [increaseScore, progress]) timers
      hideTimers endings ticks views hidden moved

theorem regular_replay {s : Game} (h : Regular s) (asked : s.alert = true) : Regular s.replay := by
  refine ⟨h.running, ?_, h.finished⟩
  cases h.phase with
  | before progress timers hideTimers views answered => rw [answered] at asked; cases asked
  | playing p progress timers hideTimers endings counted above views target answered =>
    rw [answered] at asked
    cases asked
  | timeOver p progress timers hideTimers endings ticks views hidden moved =>
    exact .playing { awaitsHide := true } rfl (by simp [replay, scheduleTimers, timers])
      (by simp [replay, scheduleTimers, hideTimers]) rfl rfl (show (-2 : ℤ) < 10 by decide) views
      hidden rfl

theorem regular_ok {s : Game} (h : Regular s) : Regular { s with alert := false } := by
  refine ⟨h.running, ?_, h.finished⟩
  cases h.phase with
  | before progress timers hideTimers views _ => exact .before progress timers hideTimers views rfl
  | playing p progress timers hideTimers endings counted above views target _ =>
    exact .playing p progress timers hideTimers endings counted above views target rfl
  | timeOver p progress timers hideTimers endings ticks views hidden moved =>
    exact .timeOver p progress timers hideTimers endings ticks views hidden moved

theorem perform_regular {s : Game} (h : Regular s) (e : Event) :
    ∃ t, s.perform e = some t ∧ Regular t := by
  cases e with
  | launch draw => exact regular_viewDidLoad h draw
  | countDown timer =>
    simp only [perform]
    split
    · rename_i fires
      exact ⟨_, rfl, regular_countDown h fires⟩
    · exact ⟨s, rfl, h⟩
  | hideFred timer draw =>
    simp only [perform]
    split
    · rename_i fires
      exact regular_moveFred h fires draw
    · exact ⟨s, rfl, h⟩
  | tap view =>
    simp only [perform]
    split
    · exact ⟨_, rfl, regular_increaseScore h⟩
    · exact ⟨s, rfl, h⟩
  | ok => exact ⟨_, rfl, regular_ok h⟩
  | replay =>
    simp only [perform]
    split
    · rename_i asked
      exact ⟨_, rfl, regular_replay h asked⟩
    · exact ⟨s, rfl, h⟩

/-- No event traps, and every event keeps the game in one of its phases. -/
theorem step_succeeds {s : Game} (h : Regular s) (e : Event) :
    s.perform e = some (s.step e) ∧ Regular (s.step e) :=
  @trapStep_succeeds _ _ perform Game.trapped (fun s => { s with trapped := true }) Regular
    (fun _ h => h.running) (fun _ e h => perform_regular h e) s h e

theorem regular_step (s : Game) (e : Event) (h : Regular s) : Regular (s.step e) :=
  (step_succeeds h e).2

/-- What a step can do. Timers that are not live and taps on hidden views do nothing,
and Replay needs the alert. -/
inductive GameStep (s : Game) (e : Event) : Prop where
  | launched (draw : ℕ) (shown : List Bool) (event : e = .launch draw)
      (result : s.step e = s.loaded shown)
  | counted (timer : ℕ) (fires : timer ∈ s.liveTimers) (event : e = .countDown timer)
      (result : s.step e = s.countDown)
  | moved (timer draw : ℕ) (shown : List Bool) (event : e = .hideFred timer draw)
      (result : s.step e =
        { s with fredArray := shown, progress := s.progress.map Progress.move })
  | tapped (view : ℕ) (event : e = .tap view) (result : s.step e = s.increaseScore)
  | answered (event : e = .ok) (result : s.step e = { s with alert := false })
  | replayed (asked : s.alert = true) (event : e = .replay) (result : s.step e = s.replay)
  | ignored (silent : e = .replay → s.alert = false) (result : s.step e = s)

theorem gameStep {s : Game} (h : Regular s) (e : Event) : GameStep s e := by
  have performed := (step_succeeds h e).1
  cases e with
  | launch draw =>
    obtain ⟨shown, _, loaded⟩ := Option.map_eq_some_iff.mp performed
    exact .launched draw shown rfl loaded.symm
  | countDown timer =>
    simp only [perform] at performed
    split at performed
    · rename_i fires
      exact .counted timer fires rfl (Option.some.inj performed).symm
    · exact .ignored Event.noConfusion (Option.some.inj performed).symm
  | hideFred timer draw =>
    simp only [perform] at performed
    split at performed
    · obtain ⟨shown, _, hidden⟩ := Option.map_eq_some_iff.mp performed
      exact .moved timer draw shown rfl hidden.symm
    · exact .ignored Event.noConfusion (Option.some.inj performed).symm
  | tap view =>
    simp only [perform] at performed
    split at performed
    · exact .tapped view rfl (Option.some.inj performed).symm
    · exact .ignored Event.noConfusion (Option.some.inj performed).symm
  | ok => exact .answered rfl (Option.some.inj performed).symm
  | replay =>
    simp only [perform] at performed
    split at performed
    · rename_i asked
      exact .replayed asked rfl (Option.some.inj performed).symm
    · rename_i unasked
      exact .ignored (fun _ => Bool.not_eq_true _ ▸ unasked) (Option.some.inj performed).symm

/-- The text of the time after so many ticks: it is one behind the counter. -/
def timeText (ticks : ℕ) : String :=
  if ticks = 0 then toString (10 : ℤ)
  else if ticks < 12 then toString (11 - ticks : ℤ)
  else "Time's Over"

/-- The labels and the stored value of a game that has come this far. -/
structure Displays (s : Game) (p : Progress) : Prop where
  score : s.score = p.taps
  scoreLabel : s.ScoreLabel = "Score: " ++ toString s.score
  timeLabel : s.TimeLabel = timeText p.ticks
  highscoreLabel : s.HighscoreLabel = "Highscore: " ++ toString s.highScore
  stored : s.highscore.getD 0 = s.highScore

def LabelsRight (s : Game) : Prop := ∀ p, s.progress = some p → Displays s p

theorem displays_loaded (s : Game) (shown : List Bool) : Displays (s.loaded shown) {} :=
  ⟨rfl, rfl, rfl, rfl, rfl⟩

theorem displays_increaseScore {s : Game} {p : Progress} (h : Displays s p) :
    Displays s.increaseScore p.tap := by
  refine ⟨?_, rfl, h.timeLabel, h.highscoreLabel, h.stored⟩
  have before := h.score
  simp only [increaseScore, Progress.tap]
  push_cast
  omega

theorem timeText_ticking {ticks : ℕ} {timeCounter : ℤ} (counted : ticks + timeCounter = 10)
    (more : timeCounter - 1 ≠ -2) (above : -2 < timeCounter) :
    timeText (ticks + 1) = toString timeCounter := by
  have early : ticks + 1 < 12 := by omega
  have value : (11 - ((ticks + 1 : ℕ) : ℤ)) = timeCounter := by
    push_cast
    omega
  rw [timeText, if_neg (Nat.succ_ne_zero ticks), if_pos early, value]

/-- A tick counts; the last one tells that the time is over and updates the high score,
on the label and in the store alike. -/
theorem displays_countDown {s : Game} {p : Progress} (h : Displays s p)
    (playing : s.progress = some p) (counted : p.ticks + s.timeCounter = 10)
    (above : -2 < s.timeCounter) :
    ∃ q, s.countDown.progress = some q ∧ Displays s.countDown q := by
  unfold countDown
  dsimp only
  split
  · rename_i last
    have ticks : p.ticks + 1 = 12 := by omega
    have text : timeText p.tick.finish.ticks = "Time's Over" := by
      rw [show p.tick.finish.ticks = 12 from ticks]
      rfl
    refine ⟨p.tick.finish, by simp [timeIsOver, playing], ?_⟩
    unfold timeIsOver updateHighScore
    dsimp only
    split
    · exact ⟨h.score, h.scoreLabel, text.symm, rfl, rfl⟩
    · exact ⟨h.score, h.scoreLabel, text.symm, h.highscoreLabel, h.stored⟩
  · rename_i more
    refine ⟨p.tick, by simp [playing], h.score, h.scoreLabel, ?_, h.highscoreLabel, h.stored⟩
    exact (timeText_ticking counted more above).symm

theorem labelsRight_step (s : Game) (e : Event) (h : Regular s ∧ LabelsRight s) :
    Regular (s.step e) ∧ LabelsRight (s.step e) := by
  obtain ⟨regular, right⟩ := h
  refine ⟨regular_step s e regular, ?_⟩
  cases gameStep regular e with
  | launched draw shown event result =>
    rw [result]
    rintro p ⟨⟩
    exact displays_loaded s shown
  | counted timer fires event result =>
    rw [result]
    cases regular.phase with
    | before progress timers | timeOver p progress timers => rw [timers] at fires; cases fires
    | playing p progress timers hideTimers endings counted above =>
      obtain ⟨q, progress', shown⟩ := displays_countDown (right p progress) progress counted above
      rintro p' same
      obtain rfl := Option.some.inj (progress'.symm.trans same)
      exact shown
  | moved timer draw shown event result =>
    rw [result]
    intro p' same
    obtain ⟨p, progress, rfl⟩ := Option.map_eq_some_iff.mp same
    have d := right p progress
    exact ⟨d.score, d.scoreLabel, d.timeLabel, d.highscoreLabel, d.stored⟩
  | tapped view event result =>
    rw [result]
    intro p' same
    obtain ⟨p, progress, rfl⟩ := Option.map_eq_some_iff.mp same
    exact displays_increaseScore (right p progress)
  | answered event result =>
    rw [result]
    intro p progress
    have d := right p progress
    exact ⟨d.score, d.scoreLabel, d.timeLabel, d.highscoreLabel, d.stored⟩
  | replayed asked event result =>
    rw [result]
    rintro _ ⟨⟩
    cases regular.phase with
    | before _ _ _ _ answered | playing _ _ _ _ _ _ _ _ _ answered =>
      cases answered.symm.trans asked
    | timeOver p progress =>
      have d := right p progress
      exact ⟨rfl, rfl, rfl, d.highscoreLabel, d.stored⟩
  | ignored silent result =>
    rw [result]
    exact right

theorem regular_run (highscore : Option ℤ) (es : List Event) :
    Regular (run step (neverLaunched highscore) es) :=
  invariant_free_run regular_step (regular_neverLaunched highscore) es

/-- In every run the labels of a launched app tell the taps of the present game, the time
left after its ticks, which never falls below 0, and the stored high score. -/
theorem labels_tell_progress (highscore : Option ℤ) (es : List Event) {p : Progress}
    (launched : (run step (neverLaunched highscore) es).progress = some p) :
    let s := run step (neverLaunched highscore) es
    s.ScoreLabel = "Score: " ++ toString (p.taps : ℤ) ∧
      s.TimeLabel = timeText p.ticks ∧ p.ticks ≤ 12 ∧
      s.HighscoreLabel = "Highscore: " ++ toString (s.highscore.getD 0) := by
  intro s
  have h := invariant_free_run labelsRight_step
    (s := neverLaunched highscore)
    ⟨regular_neverLaunched highscore, fun _ none_played => by cases none_played⟩ es
  have d := h.2 p launched
  refine ⟨by rw [d.scoreLabel, d.score], d.timeLabel, ?_, by rw [d.highscoreLabel, d.stored]⟩
  cases h.1.phase with
  | before progress => cases progress.symm.trans launched
  | playing q progress _ _ _ counted above =>
    obtain rfl := Option.some.inj (progress.symm.trans launched)
    omega
  | timeOver q progress _ _ _ ticks =>
    obtain rfl := Option.some.inj (progress.symm.trans launched)
    omega

/-- Two ticks and a tap on the visible view. -/
theorem second_tick_labels :
    let s := run step (neverLaunched (some 7)) [.launch 0, .countDown 1, .tap 0, .countDown 1]
    s.ScoreLabel = "Score: " ++ toString (1 : ℤ) ∧ s.TimeLabel = timeText 2 ∧ 2 ≤ 12 ∧
      s.HighscoreLabel = "Highscore: " ++ toString (s.highscore.getD 0) :=
  labels_tell_progress (some 7) _ (p := ⟨2, 1, 0, false⟩) rfl

end Game

end FlintstoneGame
