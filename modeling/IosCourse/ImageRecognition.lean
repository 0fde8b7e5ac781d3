import IosCourse.MainQueue
import Mathlib.Data.Int.Notation

/-!
# Image recognition

A picked picture is displayed and handed to the model in the background; the best
observation is put into the label by a block on the main queue. Until then the label
says that it is being found. Nothing ties a recognition to the picture that is on the
display when its result arrives.
-/

namespace ImageRecognition

open GuardedRuns MainQueue

universe u v w
variable {UIImage : Type u} {CIImage : Type v} {Confidence : Type w}

structure Observation (Confidence : Type w) where
  confidence : Confidence
  identifier : String
  deriving DecidableEq

/-- What the screen uses of the frameworks: the empty picture, the conversion of a picture
(nil for one that has no bitmap), whether the model loads, and `Int(c * 100 * 100)` of a
confidence. -/
structure Vision (UIImage : Type u) (CIImage : Type v) (Confidence : Type w) where
  empty : CIImage
  ciImage : UIImage → Option CIImage
  modelLoads : Bool
  scaled : Confidence → ℤ

structure ViewController (UIImage : Type u) (CIImage : Type v) where
  image : Option UIImage := none
  chosenImage : CIImage
  resultLabel : String := "Label"
  deriving DecidableEq

/-- The results of a request, if it has any. -/
abbrev Results (Confidence : Type w) := Option (List (Observation Confidence))

section Screen
variable (v : Vision UIImage CIImage Confidence)

/-- The request takes the picture that is chosen now. -/
def recognizeImage (s : ViewController UIImage CIImage) :
    ViewController UIImage CIImage × Option CIImage :=
  ({ s with resultLabel := "finding..." }, if v.modelLoads then some s.chosenImage else none)

/-- The picker has finished. `none` is a trap: the picture is unwrapped by force. -/
def didFinishPicking (originalImage : Option UIImage) (s : ViewController UIImage CIImage) :
    Option (ViewController UIImage CIImage × Option CIImage) :=
  let s := { s with image := originalImage }
  s.image.map fun image =>
    match v.ciImage image with
    | some ciImage => recognizeImage v { s with chosenImage := ciImage }
    | none => recognizeImage v s

/-- The observation that the completion handler puts on the main queue. -/
def topResult : Results Confidence → Option (Observation Confidence)
  | some (top :: _) => some top
  | _ => none

def resultText (topResult : Observation Confidence) : String :=
  toString ((v.scaled topResult.confidence).tdiv 100) ++ "% it's " ++ topResult.identifier

def program : Program (ViewController UIImage CIImage) (Option UIImage) CIImage
    (Results Confidence) (Observation Confidence) where
  tap s originalImage := didFinishPicking v originalImage s
  complete s _ results := some (s, topResult results)
  execute s topResult := { s with resultLabel := resultText v topResult }

/-- The app at its start. -/
def start : App (ViewController UIImage CIImage) CIImage (Results Confidence)
    (Observation Confidence) :=
  { screen := { chosenImage := v.empty } }

end Screen

/-- Nothing is under way. -/
def Idle (s : App (ViewController UIImage CIImage) CIImage (Results Confidence)
    (Observation Confidence)) : Prop := s.requests = [] ∧ s.blocks = []

/-- A picture is picked when nothing is under way, and it can be converted. -/
def OneAtATime (v : Vision UIImage CIImage Confidence)
    (s : App (ViewController UIImage CIImage) CIImage (Results Confidence)
      (Observation Confidence)) : Event (Option UIImage) (Results Confidence) → Prop
  | .tap originalImage => Idle s ∧ ∃ image, originalImage = some image ∧ (v.ciImage image).isSome
  | _ => True

/-- How far the recognition of the displayed picture has come. -/
inductive Phase (v : Vision UIImage CIImage Confidence)
    (s : App (ViewController UIImage CIImage) CIImage (Results Confidence)
      (Observation Confidence)) : Prop where
  | unpicked (image : s.screen.image = none) (requests : s.requests = []) (blocks : s.blocks = [])
  | unloaded (modelLoads : v.modelLoads = false) (requests : s.requests = [])
      (blocks : s.blocks = []) (label : s.screen.resultLabel = "finding...")
  | searching (modelLoads : v.modelLoads = true) (image : UIImage) (ciImage : CIImage)
      (displayed : s.screen.image = some image)
      (converted : v.ciImage image = some ciImage) (requests : s.requests = [ciImage])
      (blocks : s.blocks = []) (label : s.screen.resultLabel = "finding...")
  | found (modelLoads : v.modelLoads = true) (image : UIImage) (ciImage : CIImage)
      (results : Results Confidence) (top : Observation Confidence)
      (displayed : s.screen.image = some image)
      (converted : v.ciImage image = some ciImage) (requests : s.requests = [])
      (last : s.finished.getLast? = some (ciImage, results)) (best : topResult results = some top)
      (blocks : s.blocks = [top]) (label : s.screen.resultLabel = "finding...")
  | done (modelLoads : v.modelLoads = true) (image : UIImage) (ciImage : CIImage)
      (results : Results Confidence) (displayed : s.screen.image = some image)
      (converted : v.ciImage image = some ciImage) (requests : s.requests = [])
      (blocks : s.blocks = [])
      (last : s.finished.getLast? = some (ciImage, results))
      (label : s.screen.resultLabel = (topResult results).elim "finding..." (resultText v))

variable {v : Vision UIImage CIImage Confidence}
variable {s : App (ViewController UIImage CIImage) CIImage (Results Confidence)
  (Observation Confidence)}

theorem phase_start (v : Vision UIImage CIImage Confidence) : Phase v (start v) :=
  .unpicked rfl rfl rfl

theorem didFinishPicking_eq {image : UIImage} {ciImage : CIImage}
    (converted : v.ciImage image = some ciImage) (screen : ViewController UIImage CIImage) :
    didFinishPicking v (some image) screen =
      some (recognizeImage v { screen with image := some image, chosenImage := ciImage }) := by
  simp [didFinishPicking, converted]

theorem phase_tapped (idle : Idle s) {image : UIImage} {ciImage : CIImage}
    (converted : v.ciImage image = some ciImage) {screen : ViewController UIImage CIImage}
    {request : Option CIImage}
    (result : didFinishPicking v (some image) s.screen = some (screen, request)) :
    Phase v (s.tapped screen request) := by
  rw [didFinishPicking_eq converted, Option.some.injEq] at result
  obtain ⟨requests, blocks⟩ := idle
  cases loads : v.modelLoads with
  | true =>
    obtain ⟨rfl, rfl⟩ := Prod.mk.inj result
    exact .searching loads image ciImage rfl converted (by simp [App.tapped, requests, loads])
      blocks rfl
  | false =>
    obtain ⟨rfl, rfl⟩ := Prod.mk.inj result
    exact .unloaded loads (by simp [App.tapped, requests, loads]) blocks rfl

theorem phase_completed (h : Phase v s) {index : ℕ} {request : CIImage}
    (pending : s.requests[index]? = some request) (results : Results Confidence) :
    Phase v (s.completed index request results s.screen (topResult results)) := by
  cases h with
  | searching loads image ciImage displayed converted requests blocks label =>
    -- the only request is the one for the displayed picture
    rw [requests] at pending
    obtain ⟨rfl, rfl⟩ : index = 0 ∧ ciImage = request := by
      cases index with
      | zero => exact ⟨rfl, by simpa using pending⟩
      | succ index => simp at pending
    have last : (s.finished ++ [(ciImage, results)]).getLast? = some (ciImage, results) :=
      List.getLast?_concat
    have none_left : s.requests.eraseIdx 0 = [] := by simp [requests]
    cases best : topResult results with
    | none =>
      refine .done loads image ciImage results displayed converted none_left
        (by simp [App.completed, blocks]) last ?_
      rw [best]
      exact label
    | some top =>
      exact .found loads image ciImage results top displayed converted none_left last best
        (by simp [App.completed, blocks]) label
  | unpicked _ requests | unloaded _ requests | found _ _ _ _ _ _ _ requests
  | done _ _ _ _ _ _ requests => simp [requests] at pending

theorem phase_executed (h : Phase v s) {block : Observation Confidence}
    {rest : List (Observation Confidence)} (waiting : s.blocks = block :: rest) :
    Phase v (s.executed ((program v).execute s.screen block) block rest) := by
  cases h with
  | found loads image ciImage results top displayed converted requests last best blocks =>
    obtain ⟨rfl, rfl⟩ := List.cons.inj (waiting.symm.trans blocks)
    refine .done loads image ciImage results displayed converted requests rfl last ?_
    rw [best]
    rfl
  | unpicked _ _ blocks | unloaded _ _ blocks | searching _ _ _ _ _ _ blocks
  | done _ _ _ _ _ _ _ blocks => cases waiting.symm.trans blocks

theorem phase_moves {e : Event (Option UIImage) (Results Confidence)}
    {t : App (ViewController UIImage CIImage) CIImage (Results Confidence)
      (Observation Confidence)}
    (h : Phase v s) (ok : OneAtATime v s e) (moved : Moves (program v) s e t) : Phase v t := by
  cases moved with
  | tap result =>
    obtain ⟨idle, image, rfl, converts⟩ := ok
    obtain ⟨ciImage, converted⟩ := Option.isSome_iff_exists.mp converts
    exact phase_tapped idle converted result
  | complete pending result =>
    cases result
    exact phase_completed h pending _
  | block waiting => exact phase_executed h waiting

theorem safe_of_oneAtATime {e : Event (Option UIImage) (Results Confidence)}
    (ok : OneAtATime v s e) : Safe (program v) s e := by
  cases e with
  | tap originalImage =>
    obtain ⟨_, image, rfl, converts⟩ := ok
    obtain ⟨ciImage, converted⟩ := Option.isSome_iff_exists.mp converts
    simp [Safe, program, didFinishPicking_eq converted]
  | complete => exact fun _ _ => rfl
  | block => trivial

/-- If the pictures are picked one at a time, the label says that the displayed picture is
being found until nothing is under way, and then shows the best result for that picture.
If the model does not load nothing gets under way, and the label goes on saying so. -/
theorem label_shows_displayed (v : Vision UIImage CIImage Confidence)
    {es : List (Event (Option UIImage) (Results Confidence))}
    (oneAtATime : Always (step (program v)) (fun s e _ => OneAtATime v s e) (start v) es) :
    let s := run (step (program v)) (start v) es
    s.trapped = false ∧ ∀ image, s.screen.image = some image →
      (¬ Idle s → s.screen.resultLabel = "finding...") ∧
      (Idle s → v.modelLoads = true → ∃ ciImage results, v.ciImage image = some ciImage ∧
        s.finished.getLast? = some (ciImage, results) ∧
        s.screen.resultLabel = (topResult results).elim "finding..." (resultText v)) ∧
      (v.modelLoads = false → Idle s ∧ s.screen.resultLabel = "finding...") := by
  intro s
  obtain ⟨phase, running⟩ := invariant_of_safe (fun _ _ _ ok => safe_of_oneAtATime ok)
    (fun _ _ _ h ok moved => phase_moves h ok moved) (phase_start v) rfl oneAtATime
  refine ⟨running, fun image shown => ?_⟩
  cases phase with
  | unpicked none_shown => cases shown.symm.trans none_shown
  | unloaded modelLoads requests blocks label =>
    refine ⟨fun _ => label, fun _ loads => ?_, fun _ => ⟨⟨requests, blocks⟩, label⟩⟩
    cases modelLoads.symm.trans loads
  | searching loads image ciImage displayed converted requests blocks label =>
    refine ⟨fun _ => label, fun idle _ => ?_, fun fails => ?_⟩
    · cases requests.symm.trans idle.1
    · cases loads.symm.trans fails
  | found loads image ciImage results top displayed converted requests last best blocks label =>
    refine ⟨fun _ => label, fun idle _ => ?_, fun fails => ?_⟩
    · cases blocks.symm.trans idle.2
    · cases loads.symm.trans fails
  | done loads other ciImage results displayed converted requests blocks last label =>
    obtain rfl := Option.some.inj (shown.symm.trans displayed)
    refine ⟨fun busy => absurd ⟨requests, blocks⟩ busy,
      fun _ _ => ⟨ciImage, results, converted, last, label⟩, fun fails => ?_⟩
    cases loads.symm.trans fails

/-- Pictures are numbers here, and a confidence is a percentage. -/
def sample : Vision ℕ ℕ ℤ where
  empty := 0
  ciImage := some
  modelLoads := true
  scaled c := c * 100

/-- A second picture is picked when the first is recognised. -/
def twoPictures : List (Event (Option ℕ) (Results ℤ)) :=
  [.tap (some 1), .complete 0 (some [⟨90, "cat"⟩]), .block, .tap (some 2),
    .complete 0 (some [⟨80, "dog"⟩, ⟨15, "wolf"⟩]), .block]

theorem second_picture_recognized :
    (run (step (program sample)) (start sample) twoPictures).screen.resultLabel =
      "80% it's dog" := by
  have oneAtATime : Always (step (program sample)) (fun s e _ => OneAtATime sample s e)
      (start sample) twoPictures := by
    simp [twoPictures, OneAtATime, Idle, step, trapStep, perform, program, didFinishPicking,
      recognizeImage, sample, start, App.tapped, App.completed, App.executed, topResult]
  obtain ⟨_, shows⟩ := label_shows_displayed sample oneAtATime
  obtain ⟨ciImage, results, _, last, label⟩ := (shows 2 rfl).2.1 ⟨rfl, rfl⟩ rfl
  cases last
  exact label

/-- Of two pictures under way, the first may be recognised last and stay in the label. -/
example :
    let s := run (step (program sample)) (start sample)
      [.tap (some 1), .tap (some 2), .complete 1 (some [⟨80, "dog"⟩]),
        .complete 0 (some [⟨90, "cat"⟩]), .block, .block]
    s.screen = ⟨some 2, 2, "90% it's cat"⟩ ∧ s.requests = [] ∧ s.blocks = [] := by
  decide

end ImageRecognition
