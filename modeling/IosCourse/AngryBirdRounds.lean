import Mathlib.Data.List.Chain
import Mathlib.Data.List.Nodup
import IosCourse.AngryBird

/-!
# Rounds of AngryBirdClone

A round goes from a launch to the frame that puts the bird back. Launches and
resets alternate, and touches change nothing in between. The score, however, is
raised by contacts at any time and only reset at the end of a round, and what the
reset puts back does not include the rotation of the bird.
-/

namespace AngryBirdRounds

open GuardedRuns AngryBird AngryBird.Scene

variable {home : CGPoint}

/-- One more deed, for the number of contacts counted since the last impulse. -/
def tally (n : ℕ) : Deed → ℕ
  | .impulse _ _ => 0
  | .counted => n + 1
  | .reset => n

def contactsSinceLaunch (history : List Deed) : ℕ := history.foldl tally 0

/-- During a round the score counts the contacts since the launch, and between two
rounds it is zero and shown as such. -/
def ScoreOfLaunch (s : Scene) : Prop :=
  if s.gameStarted = true then s.score = contactsSinceLaunch s.history
  else s.score = 0 ∧ s.scoreLabel = some "0"

instance (s : Scene) : Decidable (ScoreOfLaunch s) := inferInstanceAs (Decidable (ite _ _ _))

/-- A contact is counted while no round is in progress. -/
def CountsEarly (s : Scene) : Event → Prop
  | .didBegin bodyA bodyB => Counts bodyA bodyB ∧ s.gameStarted = false
  | _ => False

theorem contactsSinceLaunch_counted (history : List Deed) :
    contactsSinceLaunch (history ++ [.counted]) = contactsSinceLaunch history + 1 :=
  List.foldl_concat ..

theorem contactsSinceLaunch_launched (history : List Deed) (release : CGPoint)
    (impulse : CGVector) {times : ℕ} (some_time : 0 < times) :
    contactsSinceLaunch (history ++ List.replicate times (.impulse release impulse)) = 0 := by
  obtain ⟨n, rfl⟩ : ∃ n, times = n + 1 := ⟨times - 1, by omega⟩
  rw [List.replicate_succ', ← List.append_assoc, contactsSinceLaunch, List.foldl_concat]
  rfl

/-- A step spoils the score exactly when it counts a contact before the launch. -/
theorem scoreOfLaunch_step {s : Scene} (h : Presented home s) (score : ScoreOfLaunch s)
    (e : Event) : ScoreOfLaunch (s.step e) ↔ ¬ CountsEarly s e := by
  cases sceneStep h e with
  | dragged touch event waiting hit result =>
    have quiet : ¬ CountsEarly s e := by
      rcases event with rfl | rfl <;> exact not_false
    rw [result]
    exact iff_of_true score quiet
  | launched touch event waiting hit result =>
    have zero : s.score = 0 := by
      simp only [ScoreOfLaunch, waiting, Bool.false_eq_true, if_false] at score
      exact score.1
    rw [result, event]
    refine iff_of_true ?_ not_false
    simp only [ScoreOfLaunch, afterLaunch, if_true, zero]
    rw [contactsSinceLaunch_launched _ _ _ hit, Nat.cast_zero]
  | counted bodyA bodyB event counts result =>
    rw [result, event]
    cases started : s.gameStarted with
    | true =>
      simp only [ScoreOfLaunch, started, if_true] at score
      refine iff_of_true ?_ (by simp [CountsEarly, started])
      simp only [ScoreOfLaunch, if_true, score, contactsSinceLaunch_counted]
      push_cast
      rfl
    | false =>
      simp only [ScoreOfLaunch, started, Bool.false_eq_true, if_false] at score
      refine iff_of_false ?_ (by simp [CountsEarly, counts, started])
      simp [ScoreOfLaunch, score.1]
  | simulated motion event result =>
    rw [result, event]
    exact iff_of_true score not_false
  | reset body has ends result =>
    rw [result, ends.1]
    exact iff_of_true ⟨rfl, rfl⟩ not_false
  | ignored quiet goesOn missed result =>
    rw [result]
    refine iff_of_true score ?_
    cases e with
    | didBegin bodyA bodyB => exact fun early => quiet bodyA bodyB rfl early.1
    | _ => exact not_false

/-- The score belongs to the current launch in all states of a run exactly when no
contact is counted while no round is in progress. -/
theorem score_of_launch_iff (placed : SpriteNode) (es : List Event) :
    Always step (fun _ _ t => ScoreOfLaunch t) (presented placed) es ↔
      Always step (fun s e _ => ¬ CountsEarly s e) (presented placed) es :=
  always_iff_of_exact presented_step (fun _ e h score => scoreOfLaunch_step h score e)
    (presented_didMove placed) ⟨rfl, rfl⟩ es

/-- The bird is dragged onto a box before it is launched. -/
theorem dragged_onto_box_scores :
    ¬ ∀ (placed : SpriteNode) (es : List Event),
      Always step (fun _ _ t => ScoreOfLaunch t) (presented placed) es := by
  intro every
  have only := every {} [.touchesBegan (some ⟨⟨0, 0⟩, [.bird, .background]⟩),
    .touchesMoved (some ⟨⟨300, 20⟩, [.bird, .box 0, .background]⟩), .didBegin .bird (.box 0)]
  revert only
  decide +kernel

/-- Launches and resets are told apart; contacts are left out. -/
def launchOrReset : Deed → Option Bool
  | .impulse _ _ => some true
  | .counted => none
  | .reset => some false

def rounds (history : List Deed) : List Bool := history.filterMap launchOrReset

/-- Launches and resets take turns, beginning with a launch. -/
def TakesTurns (history : List Deed) : Prop := (false :: rounds history).IsChain (· ≠ ·)

/-- Every impulse points from where it was given back to the bird's first place. -/
def PointsHome (home : CGPoint) (history : List Deed) : Prop :=
  ∀ release impulse, .impulse release impulse ∈ history →
    impulse = ⟨home.x - release.x, home.y - release.y⟩

def IsTouch : Event → Prop
  | .touchesBegan _ | .touchesMoved _ | .touchesEnded _ => True
  | _ => False

/-- During a round a touch changes neither the bird nor the score. -/
def TouchesIgnored (s : Scene) (e : Event) (t : Scene) : Prop :=
  s.gameStarted = true → IsTouch e → t.bird = s.bird ∧ t.score = s.score

/-- The nodes under a touch are listed once each. -/
def NodesDistinct : Event → Prop
  | .touchesBegan (some touch) | .touchesMoved (some touch) | .touchesEnded (some touch) =>
    touch.nodes.Nodup
  | _ => True

instance : (e : Event) → Decidable (NodesDistinct e)
  | .touchesBegan (some touch) => inferInstanceAs (Decidable touch.nodes.Nodup)
  | .touchesMoved (some touch) => inferInstanceAs (Decidable touch.nodes.Nodup)
  | .touchesEnded (some touch) => inferInstanceAs (Decidable touch.nodes.Nodup)
  | .touchesBegan none | .touchesMoved none | .touchesEnded none => .isTrue trivial
  | .didBegin _ _ | .physics _ | .update => .isTrue trivial

/-- The touch lets go of the bird while it waits for its launch. -/
def Releases (s : Scene) (e : Event) (touch : Touch) : Prop :=
  e = .touchesEnded (some touch) ∧ s.gameStarted = false ∧ .bird ∈ touch.nodes

/-- A release that meets the waiting bird launches it by one impulse, and nothing else
gives an impulse. -/
def LaunchedByRelease (home : CGPoint) (s : Scene) (e : Event) (t : Scene) : Prop :=
  (∀ touch, Releases s e touch →
      t.gameStarted = true ∧
        t.history = s.history ++ [.impulse touch.location (impulseBack home touch.location)] ∧
        t.bird.physicsBody = s.bird.physicsBody.map fun body =>
          { body.applyImpulse (impulseBack home touch.location) with affectedByGravity := true }) ∧
    ((∀ touch, ¬ Releases s e touch) →
      ∀ release impulse, t.history.count (.impulse release impulse) =
        s.history.count (.impulse release impulse))

/-- The history of a scene, and how its last entry tells the phase. -/
structure Alternating (home : CGPoint) (s : Scene) : Prop where
  presented : Presented home s
  turns : TakesTurns s.history
  phase : (false :: rounds s.history).getLast? = some s.gameStarted
  aimed : PointsHome home s.history

theorem takesTurns_concat {history : List Deed} {started : Bool} (turns : TakesTurns history)
    (phase : (false :: rounds history).getLast? = some started) (deed : Deed)
    (next : launchOrReset deed = some (!started)) :
    TakesTurns (history ++ [deed]) ∧
      (false :: rounds (history ++ [deed])).getLast? = some (!started) := by
  have more : false :: rounds (history ++ [deed]) = (false :: rounds history) ++ [!started] := by
    simp [rounds, List.filterMap_cons, next]
  refine ⟨?_, by rw [more, List.getLast?_concat]⟩
  rw [TakesTurns, more]
  refine List.isChain_append.mpr ⟨turns, List.isChain_singleton _, ?_⟩
  intro last isLast following isNext
  rw [phase, Option.mem_some_iff] at isLast
  rw [List.head?_cons, Option.mem_some_iff] at isNext
  subst isLast isNext
  exact (Bool.not_ne_self started).symm

theorem pointsHome_concat {history : List Deed} (aimed : PointsHome home history) {deed : Deed}
    (own : ∀ release impulse, deed = .impulse release impulse →
      impulse = ⟨home.x - release.x, home.y - release.y⟩) :
    PointsHome home (history ++ [deed]) := by
  intro release impulse mem
  rcases List.mem_append.mp mem with old | new
  · exact aimed release impulse old
  · exact own release impulse (List.mem_singleton.mp new).symm

theorem impulseBack_eq (home release : CGPoint) :
    impulseBack home release = ⟨home.x - release.x, home.y - release.y⟩ := by
  simp [impulseBack]

theorem bird_listed_once {nodes : List Node} (distinct : nodes.Nodup)
    (hit : 0 < nodes.count .bird) : nodes.count .bird = 1 := by
  have most := List.nodup_iff_count_le_one.mp distinct Node.bird
  omega

theorem alternating_step (s : Scene) (e : Event) (h : Alternating home s)
    (distinct : NodesDistinct e) : Alternating home (s.step e) := by
  have presented := presented_step s e h.presented
  cases sceneStep h.presented e with
  | dragged touch event waiting hit result =>
    rw [result] at presented ⊢
    exact ⟨presented, h.turns, h.phase, h.aimed⟩
  | launched touch event waiting hit result =>
    rw [event] at distinct
    rw [result, bird_listed_once distinct hit] at presented ⊢
    obtain ⟨turns, phase⟩ := takesTurns_concat h.turns h.phase
      (.impulse touch.location (impulseBack home touch.location)) (by rw [waiting]; rfl)
    rw [waiting] at phase
    refine ⟨presented, turns, phase, ?_⟩
    refine pointsHome_concat h.aimed ?_
    rintro _ _ ⟨⟩
    exact impulseBack_eq home touch.location
  | counted bodyA bodyB event counts result =>
    rw [result] at presented ⊢
    have same : rounds (s.history ++ [.counted]) = rounds s.history := by
      simp [rounds, launchOrReset]
    refine ⟨presented, ?_, by rw [same]; exact h.phase, ?_⟩
    · rw [TakesTurns, same]
      exact h.turns
    · exact pointsHome_concat h.aimed (by simp)
  | simulated motion event result =>
    rw [result] at presented ⊢
    exact ⟨presented, h.turns, h.phase, h.aimed⟩
  | reset body has ends result =>
    rw [result] at presented ⊢
    obtain ⟨turns, phase⟩ := takesTurns_concat h.turns h.phase .reset (by rw [ends.2.1]; rfl)
    rw [ends.2.1] at phase
    exact ⟨presented, turns, phase, pointsHome_concat h.aimed (by simp)⟩
  | ignored quiet goesOn missed result => rwa [result]

/-- A touch drags or launches a waiting bird that it meets, or does nothing. -/
theorem touch_cases {s : Scene} (h : Presented home s) {e : Event} (touches : IsTouch e) :
    (s.gameStarted = false ∧ ∃ touch, 0 < touch.nodes.count .bird ∧
        ((e = .touchesBegan (some touch) ∨ e = .touchesMoved (some touch)) ∧
            s.step e = { s with bird := { s.bird with position := touch.location } } ∨
          e = .touchesEnded (some touch) ∧
            s.step e = s.afterLaunch home touch.location (touch.nodes.count .bird))) ∨
      s.step e = s ∧
        ∀ touch, Touches e touch → s.gameStarted = false → touch.nodes.count .bird = 0 := by
  cases sceneStep h e with
  | dragged touch event waiting hit result =>
    exact Or.inl ⟨waiting, touch, hit, Or.inl ⟨event, result⟩⟩
  | launched touch event waiting hit result =>
    exact Or.inl ⟨waiting, touch, hit, Or.inr ⟨event, result⟩⟩
  | ignored quiet goesOn missed result => exact Or.inr ⟨result, missed⟩
  | counted bodyA bodyB event counts result => rw [event] at touches; cases touches
  | simulated motion event result => rw [event] at touches; cases touches
  | reset body has ends result => rw [ends.1] at touches; cases touches

theorem touchesIgnored_step {s : Scene} (h : Presented home s) (e : Event) :
    TouchesIgnored s e (s.step e) := by
  intro started touches
  rcases touch_cases h touches with ⟨waiting, _⟩ | ⟨result, _⟩
  · cases waiting.symm.trans started
  · rw [result]
    exact ⟨rfl, rfl⟩

/-- A step that is no release adds no impulse to the history. -/
theorem launchedByRelease_of_quiet {s t : Scene} {e : Event} (deeds : List Deed)
    (unreleased : ∀ touch, e ≠ .touchesEnded (some touch))
    (history : t.history = s.history ++ deeds)
    (others : ∀ release impulse, .impulse release impulse ∉ deeds) :
    LaunchedByRelease home s e t := by
  refine ⟨fun touch released => absurd released.1 (unreleased touch), ?_⟩
  intro _ release impulse
  rw [history, List.count_append, List.count_eq_zero.mpr (others release impulse), add_zero]

theorem launchedByRelease_step {s : Scene} (h : Presented home s) (e : Event)
    (distinct : NodesDistinct e) : LaunchedByRelease home s e (s.step e) := by
  cases sceneStep h e with
  | dragged touch event waiting hit result =>
    rw [result]
    refine launchedByRelease_of_quiet [] ?_ (by simp) (by simp)
    rcases event with rfl | rfl <;> simp
  | launched touch event waiting hit result =>
    rw [event] at distinct
    rw [result, bird_listed_once distinct hit]
    refine ⟨?_, fun unreleased => absurd ⟨event, waiting, List.count_pos_iff.mp hit⟩
      (unreleased touch)⟩
    rintro touch' ⟨event', _, _⟩
    obtain rfl : touch = touch' := by simpa [event] using event'
    exact ⟨rfl, rfl, by simp [afterLaunch, launched_once]⟩
  | counted bodyA bodyB event counts result =>
    rw [result]
    exact launchedByRelease_of_quiet [.counted] (by simp [event]) rfl (by simp)
  | simulated motion event result =>
    rw [result]
    exact launchedByRelease_of_quiet [] (by simp [event]) (by simp [simulate]) (by simp)
  | reset body has ends result =>
    rw [result]
    exact launchedByRelease_of_quiet [.reset] (by simp [ends.1]) rfl (by simp)
  | ignored quiet goesOn missed result =>
    rw [result]
    refine ⟨?_, fun _ _ _ => rfl⟩
    rintro touch ⟨event, waiting, hit⟩
    have never := missed touch (Or.inr (Or.inr event)) waiting
    exact absurd hit (List.count_eq_zero.mp never)

/-- In every run launches and resets take turns, every release that meets the waiting
bird launches it, every impulse points home, and during a round no touch has an effect. -/
theorem one_launch_per_round (placed : SpriteNode) (es : List Event)
    (distinct : ∀ e ∈ es, NodesDistinct e) :
    TakesTurns (run step (presented placed) es).history ∧
      PointsHome placed.position (run step (presented placed) es).history ∧
      Always step TouchesIgnored (presented placed) es ∧
      Always step (LaunchedByRelease placed.position) (presented placed) es := by
  have start : Alternating placed.position (presented placed) :=
    ⟨presented_didMove placed, List.isChain_singleton _, rfl,
      by simp [PointsHome, presented, didMove]⟩
  have reached := invariant_run alternating_step start (always_of_mem step distinct _)
  refine ⟨reached.turns, reached.aimed, ?_, ?_⟩
  · exact always_of_invariant (fun s e h _ => presented_step s e h)
      (fun s e h _ => touchesIgnored_step h e) (presented_didMove placed) (always_trivial step _ es)
  · exact always_of_invariant (fun s e h _ => presented_step s e h)
      (fun s e h distinct => launchedByRelease_step h e distinct) (presented_didMove placed)
      (always_of_mem step distinct _)

/-- Two rounds: the bird is let go below its place, scores, comes to rest and is put
back, and is let go again. -/
def twoRounds : List Event :=
  let drag : Touch := ⟨⟨-40, -30⟩, [.bird, .background]⟩
  [.touchesMoved (some drag), .touchesEnded (some drag), .didBegin .bird (.box 0),
    .touchesMoved (some ⟨⟨5, 5⟩, [.bird]⟩), .physics ⟨⟨500, 0⟩, 1, ⟨0, 0⟩, 0⟩, .update,
    .touchesMoved (some drag), .touchesEnded (some drag)]

theorem two_launches_in_two_rounds :
    TakesTurns (run step (presented {}) twoRounds).history ∧
      PointsHome ⟨0, 0⟩ (run step (presented {}) twoRounds).history ∧
      Always step TouchesIgnored (presented {}) twoRounds ∧
      Always step (LaunchedByRelease ⟨0, 0⟩) (presented {}) twoRounds :=
  one_launch_per_round {} twoRounds (by decide)

example : rounds (run step (presented {}) twoRounds).history = [true, false, true] := by
  decide +kernel

/-- Where the bird is and how it moves. -/
structure Kinematics where
  position : CGPoint
  zRotation : ℚ
  velocity : Option CGVector
  angularVelocity : Option ℚ
  affectedByGravity : Option Bool
  deriving DecidableEq

def kinematics (bird : SpriteNode) : Kinematics where
  position := bird.position
  zRotation := bird.zRotation
  velocity := bird.physicsBody.map PhysicsBody.velocity
  angularVelocity := bird.physicsBody.map PhysicsBody.angularVelocity
  affectedByGravity := bird.physicsBody.map PhysicsBody.affectedByGravity

/-- A step that ends a round gives the bird the state that it had after `didMove`. -/
def RestoresBird (placed : SpriteNode) (s : Scene) (_e : Event) (t : Scene) : Prop :=
  s.gameStarted = true → t.gameStarted = false →
    kinematics t.bird = kinematics (presented placed).bird

instance (placed : SpriteNode) (s : Scene) (e : Event) (t : Scene) :
    Decidable (RestoresBird placed s e t) := inferInstanceAs (Decidable (_ → _ → _))

/-- A bird that is about to be put back is turned as it was in the beginning. -/
def RotationKept (placed : SpriteNode) (s : Scene) (e : Event) : Prop :=
  Ends s e → s.bird.zRotation = placed.zRotation

theorem restoresBird_iff {placed : SpriteNode} {s : Scene} (h : Presented placed.position s)
    (e : Event) : RestoresBird placed s e (s.step e) ↔ RotationKept placed s e := by
  have restored : Ends s e → (kinematics (s.step e).bird = kinematics (presented placed).bird ↔
      s.bird.zRotation = placed.zRotation) := by
    intro ends
    obtain ⟨body, _, result⟩ := step_of_ends h ends
    rw [result]
    simp [kinematics, Scene.reset, presented, didMove]
  constructor
  · intro restores ends
    have ended := (gameStarted_step h ends.2.1 e).mpr ends
    exact (restored ends).mp (restores ends.2.1 ended)
  · intro kept started ended
    have ends := (gameStarted_step h started e).mp ended
    exact (restored ends).mpr (kept ends)

/-- A round can begin here: at the presentation, or where a round has just ended. -/
def RoundBegins (placed : SpriteNode) (es : List Event) : Prop :=
  es = [] ∨ ∃ before e, es = before ++ [e] ∧ Ends (run step (presented placed) before) e

/-- Nothing happens but touches. -/
def Drags (es : List Event) : Prop := ∀ e ∈ es, IsTouch e

/-- The same drag leaves the bird in equal states in both rounds. -/
def EqualLaunches (placed : SpriteNode) (first second drag : List Event) : Prop :=
  RoundBegins placed first → RoundBegins placed second → Drags drag →
    kinematics (run step (presented placed) (first ++ drag)).bird =
      kinematics (run step (presented placed) (second ++ drag)).bird

def EqualRotations (placed : SpriteNode) (first second drag : List Event) : Prop :=
  RoundBegins placed first → RoundBegins placed second → Drags drag →
    (run step (presented placed) first).bird.zRotation =
      (run step (presented placed) second).bird.zRotation

/-- What a drag reads and changes of the scene. -/
structure Aim where
  position : CGPoint
  physicsBody : Option PhysicsBody
  gameStarted : Bool

def aim (s : Scene) : Aim := ⟨s.bird.position, s.bird.physicsBody, s.gameStarted⟩

def aimStep (home : CGPoint) (a : Aim) : Event → Aim
  | .touchesBegan (some touch) | .touchesMoved (some touch) =>
    if a.gameStarted = false ∧ 0 < touch.nodes.count .bird then
      { a with position := touch.location }
    else a
  | .touchesEnded (some touch) =>
    if a.gameStarted = false ∧ 0 < touch.nodes.count .bird then
      { a with
        physicsBody :=
          a.physicsBody.map (·.launched home touch.location (touch.nodes.count .bird))
        gameStarted := true }
    else a
  | _ => a

theorem aimStep_missed {s : Scene} {e : Event} (touches : IsTouch e)
    (missed : ∀ touch, Touches e touch → s.gameStarted = false → touch.nodes.count .bird = 0) :
    aimStep home (aim s) e = aim s := by
  have idle : ∀ touch, Touches e touch →
      ¬ ((aim s).gameStarted = false ∧ 0 < touch.nodes.count .bird) := by
    rintro touch first ⟨waiting, hit⟩
    have := missed touch first waiting
    omega
  cases e with
  | touchesBegan touch =>
    cases touch with
    | none => rfl
    | some touch => exact if_neg (idle touch (Or.inl rfl))
  | touchesMoved touch =>
    cases touch with
    | none => rfl
    | some touch => exact if_neg (idle touch (Or.inr (Or.inl rfl)))
  | touchesEnded touch =>
    cases touch with
    | none => rfl
    | some touch => exact if_neg (idle touch (Or.inr (Or.inr rfl)))
  | _ => cases touches

/-- A touch acts on the aim alone, and leaves the rotation. -/
theorem aim_step {s : Scene} (h : Presented home s) {e : Event} (touches : IsTouch e) :
    aim (s.step e) = aimStep home (aim s) e ∧ (s.step e).bird.zRotation = s.bird.zRotation := by
  rcases touch_cases h touches with ⟨waiting, touch, hit, acts⟩ | ⟨result, missed⟩
  · have meets : (aim s).gameStarted = false ∧ 0 < touch.nodes.count .bird := ⟨waiting, hit⟩
    rcases acts with ⟨event, result⟩ | ⟨event, result⟩
    · rw [result]
      rcases event with rfl | rfl <;> exact ⟨(if_pos meets).symm, rfl⟩
    · rw [result, event]
      exact ⟨(if_pos meets).symm, rfl⟩
  · rw [result]
    exact ⟨(aimStep_missed touches missed).symm, rfl⟩

theorem aim_run {s : Scene} (h : Presented home s) {drag : List Event} (drags : Drags drag) :
    aim (run step s drag) = drag.foldl (aimStep home) (aim s) ∧
      (run step s drag).bird.zRotation = s.bird.zRotation := by
  induction drag generalizing s with
  | nil => exact ⟨rfl, rfl⟩
  | cons e drag ih =>
    obtain ⟨aims, rotation⟩ := aim_step h (drags e List.mem_cons_self)
    obtain ⟨aimsLater, rotationLater⟩ := ih (presented_step s e h)
      fun e' mem => drags e' (List.mem_cons_of_mem e mem)
    rw [aims] at aimsLater
    exact ⟨aimsLater, rotationLater.trans rotation⟩

theorem kinematics_eq_iff {s t : Scene} (same : aim s = aim t) :
    kinematics s.bird = kinematics t.bird ↔ s.bird.zRotation = t.bird.zRotation := by
  obtain ⟨position, physicsBody, _⟩ := Aim.mk.inj same
  simp [kinematics, position, physicsBody]

/-- The mass of the bird is never changed. -/
structure Weighed (home : CGPoint) (s : Scene) : Prop where
  presented : Presented home s
  mass : ∀ body ∈ s.bird.physicsBody, body.mass = 15 / 100

theorem weighed_step (s : Scene) (e : Event) (h : Weighed home s) : Weighed home (s.step e) := by
  refine ⟨presented_step s e h.presented, ?_⟩
  cases sceneStep h.presented e with
  | launched touch event waiting hit result =>
    rw [result]
    intro body mem
    obtain ⟨before, has, rfl⟩ := Option.map_eq_some_iff.mp mem
    exact h.mass before has
  | simulated motion event result =>
    rw [result]
    intro body mem
    obtain ⟨before, has, rfl⟩ := Option.map_eq_some_iff.mp mem
    exact h.mass before has
  | reset body has ends result =>
    rw [result]
    rintro _ ⟨⟩
    exact h.mass body has
  | dragged _ _ _ _ result | counted _ _ _ _ result | ignored _ _ _ result =>
    rw [result]
    exact h.mass

theorem weighed_run (placed : SpriteNode) (es : List Event) :
    Weighed placed.position (run step (presented placed) es) :=
  invariant_free_run weighed_step ⟨presented_didMove placed, by rintro _ ⟨⟩; rfl⟩ es

/-- All rounds begin with the same aim. -/
theorem aim_roundBegins {placed : SpriteNode} {es : List Event} (begins : RoundBegins placed es) :
    aim (run step (presented placed) es) = aim (presented placed) := by
  rcases begins with rfl | ⟨before, e, rfl, ends⟩
  · rfl
  · have reached := weighed_run placed before
    obtain ⟨body, has, result⟩ := step_of_ends reached.presented ends
    rw [run_append, run_cons, run_nil, result]
    simp [aim, Scene.reset, presented, didMove, reached.mass body has]

theorem equalLaunches_iff (placed : SpriteNode) (first second drag : List Event) :
    EqualLaunches placed first second drag ↔ EqualRotations placed first second drag := by
  refine imp_congr_right fun begins => imp_congr_right fun begins' => ?_
  refine imp_congr_right fun drags => ?_
  obtain ⟨aims, rotation⟩ := aim_run (weighed_run placed first).presented drags
  obtain ⟨aims', rotation'⟩ := aim_run (weighed_run placed second).presented drags
  rw [run_append, run_append, kinematics_eq_iff, rotation, rotation']
  rw [aims, aims', aim_roundBegins begins, aim_roundBegins begins']

/-- Every reset of a run restores the bird exactly when every round ends with the
rotation that the bird had in the beginning. Equal drags launch the bird from equal
states exactly when their two rounds begin with equal rotations. -/
theorem bird_restored_iff (placed : SpriteNode) (es first second drag : List Event) :
    (Always step (RestoresBird placed) (presented placed) es ↔
        Always step (fun s e _ => RotationKept placed s e) (presented placed) es) ∧
      (EqualLaunches placed first second drag ↔ EqualRotations placed first second drag) :=
  ⟨always_congr_of_invariant presented_step (fun _ e h _ => restoresBird_iff h e)
      (presented_didMove placed) (always_trivial step _ es),
    equalLaunches_iff placed first second drag⟩

/-- The bird comes to rest turned, and is put back turned. -/
theorem turned_bird_stays_turned :
    ¬ ∀ (placed : SpriteNode) (es : List Event),
      Always step (RestoresBird placed) (presented placed) es := by
  intro every
  have only := every {} twoRounds
  revert only
  decide +kernel

end AngryBirdRounds
