import Mathlib.Algebra.Order.Field.Rat
import Mathlib.Tactic.Linarith
import Mathlib.Tactic.Ring
import IosCourse.GuardedRuns

/-!
# AngryBirdClone

The bird is dragged from its place and launched by the impulse that points back
to it; the frame callback puts the bird back and ends the round once its test
finds it at rest. Touches, contacts, physics steps and frames come in any order.
Numbers are exact: an impulse adds impulse / mass to the velocity.
-/

namespace AngryBird

open GuardedRuns

structure CGPoint where
  x : ℚ
  y : ℚ
  deriving DecidableEq

structure CGVector where
  dx : ℚ
  dy : ℚ
  deriving DecidableEq

structure PhysicsBody where
  velocity : CGVector := ⟨0, 0⟩
  angularVelocity : ℚ := 0
  affectedByGravity : Bool := true
  mass : ℚ
  deriving DecidableEq

structure SpriteNode where
  position : CGPoint := ⟨0, 0⟩
  zRotation : ℚ := 0
  zPosition : ℚ := 0
  physicsBody : Option PhysicsBody := none
  deriving DecidableEq

/-- The nodes of the scene, which a touch may meet. -/
inductive Node where
  | bird
  | box (number : Fin 5)
  | background
  | tree
  | camera
  | scoreLabel
  deriving DecidableEq

/-- The bodies that may come into contact; the scene's own is its frame. -/
inductive Body where
  | bird
  | box (number : Fin 5)
  | frame
  deriving DecidableEq

namespace ColliderType

def Bird : UInt32 := 1

def Box : UInt32 := 2

end ColliderType

/-- What the scene has done, in order. -/
inductive Deed where
  | impulse (release : CGPoint) (impulse : CGVector)
  | counted
  | reset
  deriving DecidableEq

/-- `history` is no variable of the source. -/
structure Scene where
  bird : SpriteNode := {}
  gameStarted : Bool := false
  originalPosition : Option CGPoint := none
  score : ℤ := 0
  scoreLabel : Option String := none
  history : List Deed := []
  trapped : Bool := false
  deriving DecidableEq

structure Touch where
  location : CGPoint
  nodes : List Node
  deriving DecidableEq

/-- What a physics step may change about the bird. -/
structure Motion where
  position : CGPoint
  zRotation : ℚ
  velocity : CGVector
  angularVelocity : ℚ
  deriving DecidableEq

/-- A touch event brings its first touch, if any. -/
inductive Event where
  | touchesBegan (touch : Option Touch)
  | touchesMoved (touch : Option Touch)
  | touchesEnded (touch : Option Touch)
  | didBegin (bodyA bodyB : Body)
  | physics (motion : Motion)
  | update
  deriving DecidableEq

namespace Node

def isSprite : Node → Bool
  | .camera => false
  | .scoreLabel => false
  | _ => true

end Node

namespace Body

/-- The masks that `didMove` sets; the frame keeps the default. -/
def collisionBitMask : Body → UInt32
  | .bird => ColliderType.Box
  | .box _ => ColliderType.Bird
  | .frame => 0xFFFFFFFF

end Body

namespace PhysicsBody

def applyImpulse (impulse : CGVector) (body : PhysicsBody) : PhysicsBody :=
  { body with
    velocity :=
      ⟨body.velocity.dx + impulse.dx / body.mass, body.velocity.dy + impulse.dy / body.mass⟩ }

/-- The test of the frame callback has no absolute values. -/
def Slow (body : PhysicsBody) : Prop :=
  body.velocity.dx ≤ 1 / 10 ∧ body.velocity.dy ≤ 1 / 10 ∧ body.angularVelocity ≤ 1 / 10

instance (body : PhysicsBody) : Decidable body.Slow := inferInstanceAs (Decidable (_ ∧ _))

end PhysicsBody

namespace Scene

/-- The bird gets its physics body, and its place in the scene file is kept. -/
def didMove (placed : SpriteNode) (s : Scene) : Scene :=
  { s with
    bird := { placed with physicsBody := some { affectedByGravity := false, mass := 15 / 100 } }
    originalPosition := some placed.position
    scoreLabel := some "0" }

def didBegin (bodyA bodyB : Body) (s : Scene) : Scene :=
  if bodyA.collisionBitMask = ColliderType.Bird ∨ bodyB.collisionBitMask = ColliderType.Bird then
    { s with
      score := s.score + 1
      scoreLabel := some (toString (s.score + 1))
      history := s.history ++ [.counted] }
  else s

/-- The loop of the three touch handlers over the touched nodes. The phase is tested
once, before it. -/
def onBird (handle : CGPoint → Scene → Option Scene) (touch : Option Touch) (s : Scene) :
    Option Scene :=
  if s.gameStarted = false then
    match touch with
    | none => some s
    | some touch =>
      touch.nodes.foldlM
        (fun s node => if node.isSprite ∧ node = .bird then handle touch.location s else some s) s
  else some s

def moveBird (touchLocation : CGPoint) (s : Scene) : Option Scene :=
  some { s with bird := { s.bird with position := touchLocation } }

def launchBird (touchLocation : CGPoint) (s : Scene) : Option Scene :=
  s.originalPosition.map fun originalPosition =>
    let dx := touchLocation.x - originalPosition.x
    let dy := touchLocation.y - originalPosition.y
    let impulse : CGVector := ⟨-dx, -dy⟩
    { s with
      bird :=
        { s.bird with
          physicsBody := s.bird.physicsBody.map fun body =>
            { body.applyImpulse impulse with affectedByGravity := true } }
      gameStarted := true
      history := s.history ++ [.impulse touchLocation impulse] }

def touchesBegan : Option Touch → Scene → Option Scene := onBird moveBird

def touchesMoved : Option Touch → Scene → Option Scene := onBird moveBird

def touchesEnded : Option Touch → Scene → Option Scene := onBird launchBird

/-- The bird is put back. Its rotation stays. -/
def reset (body : PhysicsBody) (originalPosition : CGPoint) (s : Scene) : Scene :=
  { s with
    bird :=
      { s.bird with
        position := originalPosition
        zPosition := 1
        physicsBody := some
          { body with
            affectedByGravity := false
            velocity := ⟨0, 0⟩
            angularVelocity := 0 } }
    score := 0
    scoreLabel := some "0"
    gameStarted := false
    history := s.history ++ [.reset] }

def update (s : Scene) : Option Scene :=
  match s.bird.physicsBody with
  | none => some s
  | some body =>
    if body.Slow ∧ s.gameStarted = true then
      s.originalPosition.map fun originalPosition => s.reset body originalPosition
    else some s

def simulate (motion : Motion) (s : Scene) : Scene :=
  { s with
    bird :=
      { s.bird with
        position := motion.position
        zRotation := motion.zRotation
        physicsBody := s.bird.physicsBody.map fun body =>
          { body with
            velocity := motion.velocity
            angularVelocity := motion.angularVelocity } } }

def perform (s : Scene) : Event → Option Scene
  | .touchesBegan touch => s.touchesBegan touch
  | .touchesMoved touch => s.touchesMoved touch
  | .touchesEnded touch => s.touchesEnded touch
  | .didBegin bodyA bodyB => some (s.didBegin bodyA bodyB)
  | .physics motion => some (s.simulate motion)
  | .update => s.update

/-- A process that has trapped does nothing more. -/
def step (s : Scene) (e : Event) : Scene :=
  if s.trapped then s else (s.perform e).getD { s with trapped := true }

end Scene

/-- The scene once it has been presented. -/
def presented (placed : SpriteNode) : Scene := ({} : Scene).didMove placed

/-- What `didMove` sets up stays, so that nothing unwraps `nil`. -/
structure Presented (home : CGPoint) (s : Scene) : Prop where
  running : s.trapped = false
  original : s.originalPosition = some home
  body : s.bird.physicsBody.isSome = true

theorem presented_didMove (placed : SpriteNode) : Presented placed.position (presented placed) :=
  ⟨rfl, rfl, rfl⟩

namespace Scene

theorem onBird_started {s : Scene} (started : s.gameStarted = true)
    (handle : CGPoint → Scene → Option Scene) (touch : Option Touch) :
    s.onBird handle touch = some s := by
  simp [onBird, started]

theorem onBird_preserves {P : Scene → Prop} {handle : CGPoint → Scene → Option Scene}
    (handled : ∀ location s, P s → ∃ t, handle location s = some t ∧ P t) {s : Scene} (h : P s)
    (touch : Option Touch) : ∃ t, s.onBird handle touch = some t ∧ P t := by
  unfold onBird
  split
  · cases touch with
    | none => exact ⟨s, rfl, h⟩
    | some touch =>
      refine foldlM_preserves (fun s node h => ?_) h touch.nodes
      split
      · exact handled touch.location s h
      · exact ⟨s, rfl, h⟩
  · exact ⟨s, rfl, h⟩

variable {home : CGPoint}

theorem presented_moveBird (location : CGPoint) (s : Scene) (h : Presented home s) :
    ∃ t, moveBird location s = some t ∧ Presented home t :=
  ⟨_, rfl, h.running, h.original, h.body⟩

theorem presented_launchBird (location : CGPoint) (s : Scene) (h : Presented home s) :
    ∃ t, launchBird location s = some t ∧ Presented home t := by
  refine ⟨_, Option.map_eq_some_iff.mpr ⟨home, h.original, rfl⟩, h.running, h.original, ?_⟩
  simpa using h.body

theorem presented_update {s : Scene} (h : Presented home s) :
    ∃ t, s.update = some t ∧ Presented home t := by
  obtain ⟨body, has⟩ := Option.isSome_iff_exists.mp h.body
  simp only [update, has]
  split
  · exact ⟨_, Option.map_eq_some_iff.mpr ⟨home, h.original, rfl⟩, h.running, h.original, rfl⟩
  · exact ⟨s, rfl, h⟩

theorem perform_presented {s : Scene} (h : Presented home s) (e : Event) :
    ∃ t, s.perform e = some t ∧ Presented home t := by
  cases e with
  | touchesBegan touch => exact onBird_preserves presented_moveBird h touch
  | touchesMoved touch => exact onBird_preserves presented_moveBird h touch
  | touchesEnded touch => exact onBird_preserves presented_launchBird h touch
  | didBegin bodyA bodyB =>
    refine ⟨_, rfl, ?_⟩
    unfold didBegin
    split
    · exact ⟨h.running, h.original, h.body⟩
    · exact h
  | physics motion => exact ⟨_, rfl, h.running, h.original, by simpa [simulate] using h.body⟩
  | update => exact presented_update h

/-- No event traps. -/
theorem step_succeeds {s : Scene} (h : Presented home s) (e : Event) :
    s.perform e = some (s.step e) ∧ Presented home (s.step e) :=
  @trapStep_succeeds _ _ perform Scene.trapped (fun s => { s with trapped := true })
    (Presented home) (fun _ h => h.running) (fun _ e h => perform_presented h e) s h e

theorem presented_step (s : Scene) (e : Event) (h : Presented home s) :
    Presented home (s.step e) :=
  (step_succeeds h e).2

end Scene

open Scene

theorem presented_run (placed : SpriteNode) (es : List Event) :
    Presented placed.position (run step (presented placed) es) :=
  invariant_free_run presented_step (presented_didMove placed) es

/-- The impulse of a launch, as `touchesEnded` computes it. -/
def impulseBack (home release : CGPoint) : CGVector :=
  ⟨-(release.x - home.x), -(release.y - home.y)⟩

/-- The body after so many of these impulses at once. -/
def PhysicsBody.launched (home release : CGPoint) (times : ℕ) (body : PhysicsBody) : PhysicsBody :=
  { body with
    velocity :=
      ⟨body.velocity.dx + times * ((impulseBack home release).dx / body.mass),
        body.velocity.dy + times * ((impulseBack home release).dy / body.mass)⟩
    affectedByGravity := true }

namespace Scene

def afterLaunch (home release : CGPoint) (times : ℕ) (s : Scene) : Scene :=
  { s with
    bird := { s.bird with physicsBody := s.bird.physicsBody.map (·.launched home release times) }
    gameStarted := true
    history := s.history ++ List.replicate times (.impulse release (impulseBack home release)) }

/-- The loop over the touched nodes visits the bird as often as it is listed. -/
theorem onBird_waiting {s : Scene} (waiting : s.gameStarted = false)
    (handle : CGPoint → Scene → Option Scene) (touch : Touch) :
    s.onBird handle (some touch) =
      (List.replicate (touch.nodes.count .bird) Node.bird).foldlM
        (fun s _ => handle touch.location s) s := by
  have visits : (fun (s : Scene) (node : Node) =>
      if node.isSprite ∧ node = .bird then handle touch.location s else some s) =
      fun s node => if decide (node = .bird) then handle touch.location s else pure s := by
    funext s node
    cases node <;> simp [Node.isSprite]
  simp only [onBird, waiting, if_true]
  rw [visits, ← List.foldlM_filter, List.filter_eq]

theorem moveBird_replicate (location : CGPoint) (times : ℕ) (s : Scene) :
    (List.replicate (times + 1) Node.bird).foldlM (fun s _ => moveBird location s) s =
      some { s with bird := { s.bird with position := location } } := by
  induction times generalizing s with
  | zero => rfl
  | succ times ih =>
    rw [List.replicate_succ, List.foldlM_cons]
    exact ih _

/-- A touch handler does nothing, or it visits the bird at least once. -/
theorem onBird_cases {handle : CGPoint → Scene → Option Scene} {touch : Option Touch}
    {s t : Scene} (performed : s.onBird handle touch = some t) :
    (t = s ∧ ∀ hit ∈ touch, s.gameStarted = false → hit.nodes.count .bird = 0) ∨
      ∃ hit times, touch = some hit ∧ s.gameStarted = false ∧
        hit.nodes.count .bird = times + 1 ∧
        (List.replicate (times + 1) Node.bird).foldlM (fun s _ => handle hit.location s) s =
          some t := by
  cases started : s.gameStarted with
  | true =>
    rw [onBird_started started] at performed
    exact Or.inl ⟨(Option.some.inj performed).symm, by simp⟩
  | false =>
    cases touch with
    | none =>
      simp only [onBird, started, if_true, Option.some.injEq] at performed
      exact Or.inl ⟨performed.symm, by simp⟩
    | some hit =>
      rw [onBird_waiting started] at performed
      cases visits : hit.nodes.count .bird with
      | zero =>
        rw [visits] at performed
        exact Or.inl ⟨(Option.some.inj performed).symm, by simp [visits]⟩
      | succ times =>
        rw [visits] at performed
        exact Or.inr ⟨hit, times, rfl, rfl, visits, performed⟩

theorem launched_once (home release : CGPoint) (body : PhysicsBody) :
    body.launched home release 1 =
      { body.applyImpulse (impulseBack home release) with affectedByGravity := true } := by
  simp [PhysicsBody.launched, PhysicsBody.applyImpulse]

theorem launchBird_eq {home : CGPoint} (release : CGPoint) {s : Scene}
    (original : s.originalPosition = some home) :
    launchBird release s = some (s.afterLaunch home release 1) := by
  simp only [launchBird, original, afterLaunch, launched_once]
  rfl

theorem afterLaunch_afterLaunch (home release : CGPoint) (times : ℕ) (s : Scene) :
    (s.afterLaunch home release 1).afterLaunch home release times =
      s.afterLaunch home release (times + 1) := by
  have add : ∀ v i : ℚ, v + 1 * i + times * i = v + ((times : ℚ) + 1) * i := by
    intro v i
    ring
  simp only [afterLaunch, PhysicsBody.launched, Option.map_map, Function.comp_def, Nat.cast_one,
    Nat.cast_add, add, List.append_assoc, List.replicate_one, List.singleton_append,
    ← List.replicate_succ]

theorem launchBird_replicate {home : CGPoint} (release : CGPoint) (times : ℕ) {s : Scene}
    (original : s.originalPosition = some home) :
    (List.replicate (times + 1) Node.bird).foldlM (fun s _ => launchBird release s) s =
      some (s.afterLaunch home release (times + 1)) := by
  induction times generalizing s with
  | zero =>
    rw [List.replicate_one, List.foldlM_cons, launchBird_eq release original]
    rfl
  | succ times ih =>
    have rest := ih (s := s.afterLaunch home release 1) original
    rw [List.replicate_succ, List.foldlM_cons, launchBird_eq release original]
    exact rest.trans (congrArg some (afterLaunch_afterLaunch home release (times + 1) s))

end Scene

/-- A contact that `didBegin` counts. -/
def Counts (bodyA bodyB : Body) : Prop :=
  bodyA.collisionBitMask = ColliderType.Bird ∨ bodyB.collisionBitMask = ColliderType.Bird

instance (bodyA bodyB : Body) : Decidable (Counts bodyA bodyB) :=
  inferInstanceAs (Decidable (_ ∨ _))

/-- The frame finds a round that is to be ended. -/
def Ends (s : Scene) (e : Event) : Prop :=
  e = .update ∧ s.gameStarted = true ∧ ∀ body ∈ s.bird.physicsBody, body.Slow

/-- The first touch of a touch event. -/
def Touches (e : Event) (touch : Touch) : Prop :=
  e = .touchesBegan (some touch) ∨ e = .touchesMoved (some touch) ∨ e = .touchesEnded (some touch)

/-- Touches do something only while no round is in progress and when they meet the bird. -/
inductive SceneStep (home : CGPoint) (s : Scene) (e : Event) : Prop where
  | dragged (touch : Touch)
      (event : e = .touchesBegan (some touch) ∨ e = .touchesMoved (some touch))
      (waiting : s.gameStarted = false) (hit : 0 < touch.nodes.count .bird)
      (result : s.step e = { s with bird := { s.bird with position := touch.location } })
  | launched (touch : Touch) (event : e = .touchesEnded (some touch))
      (waiting : s.gameStarted = false) (hit : 0 < touch.nodes.count .bird)
      (result : s.step e = s.afterLaunch home touch.location (touch.nodes.count .bird))
  | counted (bodyA bodyB : Body) (event : e = .didBegin bodyA bodyB) (counts : Counts bodyA bodyB)
      (result : s.step e =
        { s with
          score := s.score + 1
          scoreLabel := some (toString (s.score + 1))
          history := s.history ++ [.counted] })
  | simulated (motion : Motion) (event : e = .physics motion)
      (result : s.step e = s.simulate motion)
  | reset (body : PhysicsBody) (has : s.bird.physicsBody = some body) (ends : Ends s e)
      (result : s.step e = s.reset body home)
  | ignored (quiet : ∀ bodyA bodyB, e = .didBegin bodyA bodyB → ¬ Counts bodyA bodyB)
      (goesOn : ¬ Ends s e)
      (missed : ∀ touch, Touches e touch → s.gameStarted = false → touch.nodes.count .bird = 0)
      (result : s.step e = s)

theorem sceneStep_moved {home : CGPoint} {s : Scene} {e : Event} {touch : Option Touch}
    (event : e = .touchesBegan touch ∨ e = .touchesMoved touch)
    (performed : s.onBird moveBird touch = some (s.step e)) : SceneStep home s e := by
  rcases onBird_cases performed with ⟨same, missed⟩ | ⟨hit, times, rfl, waiting, visits, visited⟩
  · refine .ignored ?_ ?_ ?_ same
    · rcases event with rfl | rfl <;> simp
    · rcases event with rfl | rfl <;> simp [Ends]
    · rcases event with rfl | rfl <;> simpa [Touches] using missed
  · rw [moveBird_replicate] at visited
    exact .dragged hit event waiting (by omega) (Option.some.inj visited).symm

theorem sceneStep {home : CGPoint} {s : Scene} (h : Presented home s) (e : Event) :
    SceneStep home s e := by
  have performed := (step_succeeds h e).1
  cases e with
  | touchesBegan touch => exact sceneStep_moved (Or.inl rfl) performed
  | touchesMoved touch => exact sceneStep_moved (Or.inr rfl) performed
  | touchesEnded touch =>
    rcases onBird_cases performed with ⟨same, missed⟩ | ⟨hit, times, rfl, waiting, visits, visited⟩
    · exact .ignored (by simp) (by simp [Ends]) (by simpa [Touches] using missed) same
    · rw [launchBird_replicate _ _ h.original, ← visits] at visited
      exact .launched hit rfl waiting (by omega) (Option.some.inj visited).symm
  | didBegin bodyA bodyB =>
    by_cases counts : Counts bodyA bodyB
    · refine .counted bodyA bodyB rfl counts ?_
      rw [← Option.some.inj performed]
      exact if_pos counts
    · refine .ignored ?_ (by simp [Ends]) (by simp [Touches]) ?_
      · rintro _ _ ⟨⟩
        exact counts
      · rw [← Option.some.inj performed]
        exact if_neg counts
  | physics motion => exact .simulated motion rfl (Option.some.inj performed).symm
  | update =>
    obtain ⟨body, has⟩ := Option.isSome_iff_exists.mp h.body
    have ends : Ends s .update ↔ body.Slow ∧ s.gameStarted = true := by
      simp [Ends, has, and_comm]
    simp only [perform, update, has, h.original, Option.map_some] at performed
    split at performed
    · rename_i resets
      exact .reset body has (ends.mpr resets) (Option.some.inj performed).symm
    · rename_i goesOn
      exact .ignored (by simp) (fun h => goesOn (ends.mp h)) (by simp [Touches])
        (Option.some.inj performed).symm

theorem step_of_ends {home : CGPoint} {s : Scene} (h : Presented home s) {e : Event}
    (ends : Ends s e) : ∃ body ∈ s.bird.physicsBody, s.step e = s.reset body home := by
  cases sceneStep h e with
  | dragged touch event waiting hit result => cases waiting.symm.trans ends.2.1
  | launched touch event waiting hit result => cases waiting.symm.trans ends.2.1
  | counted bodyA bodyB event counts result => rw [event] at ends; cases ends.1
  | simulated motion event result => rw [event] at ends; cases ends.1
  | reset body has _ result => exact ⟨body, has, result⟩
  | ignored quiet goesOn missed result => exact absurd ends goesOn

namespace PhysicsBody

def AtRest (body : PhysicsBody) : Prop :=
  |body.velocity.dx| ≤ 1 / 10 ∧ |body.velocity.dy| ≤ 1 / 10 ∧ |body.angularVelocity| ≤ 1 / 10

/-- Nothing moves fast to the left, downwards or clockwise. -/
def NotBackwards (body : PhysicsBody) : Prop :=
  -(1 / 10) ≤ body.velocity.dx ∧ -(1 / 10) ≤ body.velocity.dy ∧ -(1 / 10) ≤ body.angularVelocity

instance (body : PhysicsBody) : Decidable body.AtRest := inferInstanceAs (Decidable (_ ∧ _))

theorem atRest_iff (body : PhysicsBody) : body.AtRest ↔ body.NotBackwards ∧ body.Slow := by
  simp only [AtRest, NotBackwards, Slow, abs_le]
  tauto

end PhysicsBody

/-- A round that this step ends has come to rest. -/
def EndsAtRest (s : Scene) (_e : Event) (t : Scene) : Prop :=
  s.gameStarted = true → t.gameStarted = false → ∀ body ∈ s.bird.physicsBody, body.AtRest

instance (s : Scene) (e : Event) (t : Scene) : Decidable (EndsAtRest s e t) :=
  inferInstanceAs (Decidable (_ → _))

/-- A bird that passes the test of a frame during a round is not moving backwards. -/
def TestedForwards (s : Scene) (e : Event) : Prop :=
  e = .update → s.gameStarted = true →
    ∀ body ∈ s.bird.physicsBody, body.Slow → body.NotBackwards

variable {home : CGPoint}

/-- Only a frame ends a round, and it does so exactly when the test finds the bird slow. -/
theorem gameStarted_step {s : Scene} (h : Presented home s) (started : s.gameStarted = true)
    (e : Event) : (s.step e).gameStarted = false ↔ Ends s e := by
  cases sceneStep h e with
  | dragged touch event waiting hit result => rw [waiting] at started; cases started
  | launched touch event waiting hit result => rw [waiting] at started; cases started
  | counted bodyA bodyB event counts result =>
    rw [result]
    exact iff_of_false (by simp [started]) (by simp [event, Ends])
  | simulated motion event result =>
    rw [result]
    exact iff_of_false (by simp [simulate, started]) (by simp [event, Ends])
  | reset body has ends result =>
    rw [result]
    exact iff_of_true rfl ends
  | ignored quiet goesOn missed result =>
    rw [result]
    exact iff_of_false (by simp [started]) goesOn

theorem gameStarted_update {s : Scene} (h : Presented home s) (started : s.gameStarted = true) :
    (s.step .update).gameStarted = false ↔ ∀ body ∈ s.bird.physicsBody, body.Slow := by
  rw [gameStarted_step h started]
  simp [Ends, started]

theorem endsAtRest_iff {s : Scene} (h : Presented home s) (e : Event) :
    EndsAtRest s e (s.step e) ↔ TestedForwards s e := by
  constructor
  · rintro rests rfl started body mem slow
    have ended := (gameStarted_update h started).mpr
      fun b has => by rwa [Option.mem_unique has mem]
    exact (body.atRest_iff.mp (rests started ended body mem)).1
  · intro tested started ended body mem
    obtain ⟨frame, _, slow⟩ := (gameStarted_step h started e).mp ended
    exact body.atRest_iff.mpr ⟨tested frame started body mem (slow body mem), slow body mem⟩

/-- The touch launches the bird, and one component of its velocity is not small. -/
def LaunchedFast (s : Scene) (touch : Option Touch) : Prop :=
  let launched := s.step (.touchesEnded touch)
  s.gameStarted = false ∧ launched.gameStarted = true ∧
    ∀ body ∈ launched.bird.physicsBody, 1 / 10 < |body.velocity.dx| ∨ 1 / 10 < |body.velocity.dy|

/-- The frame that follows such a launch does not cancel it. -/
def LaunchKept (s : Scene) (touch : Option Touch) : Prop :=
  LaunchedFast s touch → ((s.step (.touchesEnded touch)).step .update).gameStarted = true

def LaunchForwards (s : Scene) (touch : Option Touch) : Prop :=
  LaunchedFast s touch → ¬ ∀ body ∈ (s.step (.touchesEnded touch)).bird.physicsBody, body.Slow

theorem launchKept_iff {s : Scene} (h : Presented home s) (touch : Option Touch) :
    LaunchKept s touch ↔ LaunchForwards s touch := by
  refine imp_congr_right fun launched => ?_
  have after := presented_step s (.touchesEnded touch) h
  rw [← gameStarted_update after launched.2.1, Bool.not_eq_false]

/-- In a run every round ends at rest exactly when at every frame during a round a
bird that passes the test is not moving backwards. In each state reached the frame
after a fast launch keeps it exactly when the launch moves the bird forwards. -/
theorem rounds_end_at_rest_iff (placed : SpriteNode) (es : List Event) :
    (Always step EndsAtRest (presented placed) es ↔
        Always step (fun s e _ => TestedForwards s e) (presented placed) es) ∧
      ∀ touch, LaunchKept (run step (presented placed) es) touch ↔
        LaunchForwards (run step (presented placed) es) touch :=
  ⟨always_congr_of_invariant presented_step (fun _ e h _ => endsAtRest_iff h e)
      (presented_didMove placed) (always_trivial step _ es),
    fun touch => launchKept_iff (presented_run placed es) touch⟩

/-- Dragged up and to the right, and let go. -/
def upwardsDrag : List Event :=
  let touch : Touch := ⟨⟨40, 30⟩, [.bird, .background]⟩
  [.touchesBegan (some ⟨⟨0, 0⟩, [.bird, .background]⟩), .touchesMoved (some touch),
    .touchesEnded (some touch)]

/-- A bird launched down and to the left is put back by the next frame. -/
theorem launch_to_lower_left_cancelled :
    ¬ ∀ (placed : SpriteNode) (es : List Event), Always step EndsAtRest (presented placed) es := by
  intro every
  have rests := every {} (upwardsDrag ++ [.update])
  revert rests
  decide +kernel

end AngryBird
