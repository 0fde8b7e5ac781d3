import IosCourse.GuardedRuns
import Mathlib.Data.List.Infix

/-!
# The list of currencies

At its start the app wires view, presenter and interactor on the main thread. One of
these assignments starts the download, whose completion handler runs on another thread
and reaches the view through two of the references. Either may be nil at that time, and
then the result goes nowhere. Blocks on the main queue wait for the main thread.
-/

namespace CryptoViper

open GuardedRuns

universe u
variable {Data : Type u}

structure Crypto where
  currency : String
  price : String
  deriving DecidableEq

inductive NetworkError where
  | NetworkFailed | ParsingFailed
  deriving DecidableEq

/-- What the completion handler of the request receives. -/
structure Response (Data : Type u) where
  data : Option Data
  error : Option String

/-- The result of the download. The decoder throws where `decode` gives `none`. -/
def downloaded (decode : Data → Option (List Crypto)) (response : Response Data) :
    Except NetworkError (List Crypto) :=
  match response.data, response.error with
  | some data, none =>
    match decode data with
    | some cryptos => .ok cryptos
    | none => .error .ParsingFailed
  | _, _ => .error .NetworkFailed

/-- The two overloads of `update(with:)`. -/
inductive Update where
  | cryptos (cryptos : List Crypto)
  | error (text : String)
  deriving DecidableEq

/-- The view controller with its two subviews. `rows` is what the table view was told
when it last loaded its data. -/
structure CryptoViewController where
  cryptos : List Crypto := []
  tableHidden : Bool := true
  messageHidden : Bool := false
  messageText : String := "Downloading..."
  rows : ℕ := 0
  deriving DecidableEq

namespace CryptoViewController

def numberOfRowsInSection (v : CryptoViewController) : ℕ := v.cryptos.length

/-- The two texts of a cell; `none` is an index out of range. -/
def cellForRowAt (v : CryptoViewController) (row : ℕ) : Option (String × String) :=
  v.cryptos[row]?.map fun crypto => (crypto.currency, crypto.price)

/-- The cells of the table. -/
def cells (v : CryptoViewController) : List (Option (String × String)) :=
  (List.range v.rows).map v.cellForRowAt

/-- A table view without a data source has no rows. -/
def reloadData (dataSource : Bool) (v : CryptoViewController) : CryptoViewController :=
  { v with rows := if dataSource then v.numberOfRowsInSection else 0 }

/-- The block an update puts on the main queue. -/
def update (dataSource : Bool) (v : CryptoViewController) : Update → CryptoViewController
  | .cryptos cryptos =>
    { reloadData dataSource { v with cryptos := cryptos, messageHidden := true } with
      tableHidden := false }
  | .error text =>
    { v with cryptos := [], tableHidden := true, messageText := text, messageHidden := false }

end CryptoViewController

/-- The references that are assigned on the main thread. -/
inductive Reference where
  | viewPresenter | presenterView | presenterRouter | presenterInteractor | interactorPresenter
  | routerEntry | tableViewDataSource
  deriving DecidableEq

def startExecution : List Reference :=
  [.viewPresenter, .presenterView, .presenterRouter, .presenterInteractor, .interactorPresenter,
    .routerEntry]

/-- The window loads the view before the main thread takes a block from its queue. -/
def viewDidLoad : List Reference := [.tableViewDataSource]

def launch : List Reference := startExecution ++ viewDidLoad

inductive Task (Data : Type u) where
  | notStarted
  | running
  | completed (response : Response Data)

/-- What is left to assign, what is assigned, the request, the blocks on the main queue
and the view. `delivered` lists the updates the view received. -/
structure App (Data : Type u) where
  remaining : List Reference := launch
  assigned : List Reference := []
  task : Task Data := .notStarted
  mainQueue : List Update := []
  view : CryptoViewController := {}
  delivered : List Update := []

/-- One assignment. The observer of `presenter.interactor` starts the download. -/
def App.assign (s : App Data) (reference : Reference) : App Data :=
  { s with
    assigned := s.assigned ++ [reference]
    task := if reference = .presenterInteractor then .running else s.task }

/-- The next assignment or, when all are done, the next block. -/
def App.mainThread (s : App Data) : App Data :=
  match s.remaining with
  | reference :: rest => { s with remaining := rest }.assign reference
  | [] =>
    match s.mainQueue with
    | [] => s
    | block :: rest =>
      { s with
        mainQueue := rest
        view := s.view.update (decide (.tableViewDataSource ∈ s.assigned)) block }

/-- The update for a result. -/
def updateFor : Except NetworkError (List Crypto) → Update
  | .ok cryptos => .cryptos cryptos
  | .error _ => .error "Try again later..."

def App.interactorDidDownloadCrypto (s : App Data)
    (result : Except NetworkError (List Crypto)) : App Data :=
  if .presenterView ∈ s.assigned then
    { s with
      mainQueue := s.mainQueue ++ [updateFor result]
      delivered := s.delivered ++ [updateFor result] }
  else s

/-- The completion handler, on its own thread. -/
def App.complete (decode : Data → Option (List Crypto)) (s : App Data)
    (response : Response Data) : App Data :=
  match s.task with
  | .running =>
    let s := { s with task := .completed response }
    if .interactorPresenter ∈ s.assigned then
      s.interactorDidDownloadCrypto (downloaded decode response)
    else s
  | _ => s

inductive Event (Data : Type u) where
  | mainThread
  | complete (response : Response Data)

def step (decode : Data → Option (List Crypto)) (s : App Data) : Event Data → App Data
  | .mainThread => s.mainThread
  | .complete response => s.complete decode response

/-- Nothing is left to run on either thread. -/
def Finished (s : App Data) : Prop :=
  s.remaining = [] ∧ s.mainQueue = [] ∧ ∃ response, s.task = .completed response

/-- The decoded list in the table, or the text of the error. -/
def Shows (v : CryptoViewController) : Except NetworkError (List Crypto) → Prop
  | .ok cryptos => v.tableHidden = false ∧ v.cryptos = cryptos ∧
    v.cells = cryptos.map fun crypto => some (crypto.currency, crypto.price)
  | .error _ => v.messageHidden = false ∧ v.messageText = "Try again later..." ∧
    v.cryptos = [] ∧ v.cells = []

structure ResultShown (decode : Data → Option (List Crypto)) (s : App Data) : Prop where
  once : s.delivered.length = 1
  notDownloading : s.view.messageHidden = true ∨ s.view.messageText ≠ "Downloading..."
  oneVisible : s.view.tableHidden = !s.view.messageHidden
  content : ∀ response, s.task = .completed response → Shows s.view (downloaded decode response)

/-- The request is not completed before the interactor knows its presenter. -/
def AfterWiring (s : App Data) (e : Event Data) : Prop :=
  match e with
  | .mainThread => True
  | .complete _ =>
    match s.task with
    | .running => .interactorPresenter ∈ s.assigned
    | _ => True

instance (s : App Data) : (e : Event Data) → Decidable (AfterWiring s e)
  | .mainThread => .isTrue trivial
  | .complete _ =>
    match task : s.task with
    | .running => decidable_of_iff (.interactorPresenter ∈ s.assigned) (by simp [AfterWiring, task])
    | .notStarted => .isTrue (by simp [AfterWiring, task])
    | .completed _ => .isTrue (by simp [AfterWiring, task])

/-- A table that was loaded with the cryptos of its controller shows them all. -/
theorem cells_of_rows {v : CryptoViewController} (loaded : v.rows = v.cryptos.length) :
    v.cells = v.cryptos.map fun crypto => some (crypto.currency, crypto.price) := by
  apply List.ext_getElem
  · simp [CryptoViewController.cells, loaded]
  · intro row inCells inCryptos
    simp only [List.length_map] at inCryptos
    simp [CryptoViewController.cells, CryptoViewController.cellForRowAt, inCryptos]

theorem shows_update (result : Except NetworkError (List Crypto)) :
    Shows (CryptoViewController.update true {} (updateFor result)) result := by
  cases result with
  | ok cryptos => exact ⟨rfl, rfl, cells_of_rows rfl⟩
  | error error => exact ⟨rfl, rfl, rfl, rfl⟩

/-- Where the result of the request is. -/
inductive Phase (decode : Data → Option (List Crypto)) (s : App Data) : Prop where
  | awaited (task : s.task = .notStarted ∨ s.task = .running)
      (mainQueue : s.mainQueue = []) (view : s.view = {}) (delivered : s.delivered = [])
  | dropped (response : Response Data) (task : s.task = .completed response)
      (mainQueue : s.mainQueue = []) (view : s.view = {}) (delivered : s.delivered = [])
  | queued (response : Response Data) (task : s.task = .completed response)
      (mainQueue : s.mainQueue = [updateFor (downloaded decode response)]) (view : s.view = {})
      (delivered : s.delivered = [updateFor (downloaded decode response)])
  | shown (response : Response Data) (task : s.task = .completed response)
      (mainQueue : s.mainQueue = [])
      (view : s.view = CryptoViewController.update true {} (updateFor (downloaded decode response)))
      (delivered : s.delivered = [updateFor (downloaded decode response)])

/-- The invariant: references are assigned in their order, and the request is started
by its assignment. -/
structure Regular (decode : Data → Option (List Crypto)) (s : App Data) : Prop where
  order : s.assigned ++ s.remaining = launch
  started : s.task = .notStarted ↔ .presenterInteractor ∉ s.assigned
  phase : Phase decode s

/-- No reference is assigned twice. -/
theorem next_not_assigned {assigned rest : List Reference} {reference : Reference}
    (order : assigned ++ reference :: rest = launch) : reference ∉ assigned := by
  have distinct : (assigned ++ reference :: rest).Nodup := by
    rw [order]
    decide
  intro before
  exact (List.nodup_append.mp distinct).2.2 reference before reference List.mem_cons_self rfl

/-- The presenter knows its view before the request is started. -/
theorem presenterView_assigned {assigned rest : List Reference}
    (order : assigned ++ rest = launch) (started : .presenterInteractor ∈ assigned) :
    .presenterView ∈ assigned := by
  have early : ∀ l ∈ launch.inits, .presenterInteractor ∈ l → .presenterView ∈ l := by decide
  exact early assigned ((List.mem_inits _ _).mpr ⟨rest, order⟩) started

variable {decode : Data → Option (List Crypto)}

theorem regular_start (decode : Data → Option (List Crypto)) : Regular decode {} where
  order := rfl
  started := by simp
  phase := .awaited (.inl rfl) rfl rfl rfl

/-- Where the request is about to be started. -/
theorem notStarted_of_next {s : App Data} {rest : List Reference} (h : Regular decode s)
    (next : s.remaining = .presenterInteractor :: rest) : s.task = .notStarted := by
  have order := h.order
  rw [next] at order
  exact h.started.mpr (next_not_assigned order)

/-- Where the request runs, nothing has reached the main queue. -/
theorem awaited_of_running {s : App Data} (h : Regular decode s) (running : s.task = .running) :
    s.mainQueue = [] ∧ s.view = {} ∧ s.delivered = [] := by
  cases h.phase with
  | awaited _ mainQueue view delivered => exact ⟨mainQueue, view, delivered⟩
  | dropped _ task | queued _ task | shown _ task => cases running.symm.trans task

theorem regular_assign {s : App Data} {reference : Reference} {rest : List Reference}
    (h : Regular decode s) (next : s.remaining = reference :: rest) :
    Regular decode ({ s with remaining := rest }.assign reference) := by
  have order := h.order
  rw [next] at order
  by_cases starts : reference = .presenterInteractor
  · have waiting : s.task = .notStarted := notStarted_of_next h (starts ▸ next)
    refine ⟨by simpa [App.assign] using order, by simp [App.assign, starts], ?_⟩
    cases h.phase with
    | awaited _ mainQueue view delivered =>
      exact .awaited (.inr (if_pos starts)) mainQueue view delivered
    | dropped response task | queued response task | shown response task =>
      cases waiting.symm.trans task
  · have same : ({ s with remaining := rest }.assign reference).task = s.task := if_neg starts
    refine ⟨by simpa [App.assign] using order, ?_, ?_⟩
    · rw [same, h.started]
      simp [App.assign, Ne.symm starts]
    · cases h.phase with
      | awaited task mainQueue view delivered =>
        exact .awaited (by rwa [same]) mainQueue view delivered
      | dropped response task mainQueue view delivered =>
        exact .dropped response (same.trans task) mainQueue view delivered
      | queued response task mainQueue view delivered =>
        exact .queued response (same.trans task) mainQueue view delivered
      | shown response task mainQueue view delivered =>
        exact .shown response (same.trans task) mainQueue view delivered

theorem mainThread_assigns {s : App Data} {reference : Reference} {rest : List Reference}
    (next : s.remaining = reference :: rest) :
    s.mainThread = { s with remaining := rest }.assign reference := by
  simp [App.mainThread, next]

theorem mainThread_idle {s : App Data} (wired : s.remaining = []) (empty : s.mainQueue = []) :
    s.mainThread = s := by
  simp [App.mainThread, wired, empty]

theorem mainThread_block {s : App Data} {block : Update} {blocks : List Update}
    (wired : s.remaining = []) (waiting : s.mainQueue = block :: blocks) :
    s.mainThread = { s with
      mainQueue := blocks
      view := s.view.update (decide (.tableViewDataSource ∈ s.assigned)) block } := by
  simp [App.mainThread, wired, waiting]

theorem regular_mainThread {s : App Data} (h : Regular decode s) :
    Regular decode s.mainThread := by
  cases left : s.remaining with
  | cons reference rest =>
    rw [mainThread_assigns left]
    exact regular_assign h left
  | nil =>
    cases waiting : s.mainQueue with
    | nil =>
      rw [mainThread_idle left waiting]
      exact h
    | cons block blocks =>
      -- the queue is not empty, so the block carries the result
      cases h.phase with
      | awaited _ mainQueue | dropped _ _ mainQueue | shown _ _ mainQueue =>
        cases waiting.symm.trans mainQueue
      | queued response task mainQueue view delivered =>
        obtain ⟨rfl, rfl⟩ := List.cons.inj (waiting.symm.trans mainQueue)
        have all : s.assigned = launch := by simpa [left] using h.order
        have loaded : decide (Reference.tableViewDataSource ∈ s.assigned) = true := by
          rw [all]
          decide
        rw [mainThread_block left waiting, loaded, view]
        exact ⟨h.order, h.started, .shown response task rfl rfl delivered⟩

/-- What the completion handler does while the request runs. -/
theorem complete_running {s : App Data} (h : Regular decode s) (running : s.task = .running)
    (response : Response Data) :
    s.complete decode response = if .interactorPresenter ∈ s.assigned then
      { s with
        task := .completed response
        mainQueue := [updateFor (downloaded decode response)]
        delivered := [updateFor (downloaded decode response)] }
    else { s with task := .completed response } := by
  have request : .presenterInteractor ∈ s.assigned := by
    by_contra absent
    cases running.symm.trans (h.started.mpr absent)
  have view := presenterView_assigned h.order request
  obtain ⟨mainQueue, _, delivered⟩ := awaited_of_running h running
  simp [App.complete, running, App.interactorDidDownloadCrypto, view, mainQueue, delivered]

theorem complete_idle {s : App Data} (idle : s.task ≠ .running) (response : Response Data) :
    s.complete decode response = s := by
  unfold App.complete
  cases task : s.task with
  | running => exact absurd task idle
  | notStarted | completed => rfl

theorem regular_complete {s : App Data} (h : Regular decode s) (response : Response Data) :
    Regular decode (s.complete decode response) := by
  by_cases running : s.task = .running
  · have started : Task.completed response = .notStarted ↔ .presenterInteractor ∉ s.assigned := by
      rw [← h.started, running]
      simp
    obtain ⟨mainQueue, view, delivered⟩ := awaited_of_running h running
    rw [complete_running h running]
    by_cases heard : .interactorPresenter ∈ s.assigned
    · rw [if_pos heard]
      exact ⟨h.order, started, .queued response rfl rfl view rfl⟩
    · rw [if_neg heard]
      exact ⟨h.order, started, .dropped response rfl mainQueue view delivered⟩
  · rw [complete_idle running]
    exact h

theorem regular_step (s : App Data) (e : Event Data) (h : Regular decode s) :
    Regular decode (step decode s e) := by
  cases e with
  | mainThread => exact regular_mainThread h
  | complete response => exact regular_complete h response

/-- A completed request was heard of by the view. -/
def Heard (s : App Data) : Prop :=
  ∀ response, s.task = .completed response → s.delivered ≠ []

/-- The main thread completes no request and delivers nothing. -/
theorem heard_mainThread {s : App Data} (h : Regular decode s) :
    Heard s.mainThread ↔ Heard s := by
  cases left : s.remaining with
  | nil =>
    cases waiting : s.mainQueue with
    | nil => rw [mainThread_idle left waiting]
    | cons block blocks =>
      rw [mainThread_block left waiting]
      exact Iff.rfl
  | cons reference rest =>
    rw [mainThread_assigns left]
    by_cases starts : reference = .presenterInteractor
    · have waiting : s.task = .notStarted := notStarted_of_next h (starts ▸ left)
      simp [Heard, App.assign, starts, waiting]
    · simp [Heard, App.assign, starts]

theorem heard_step_iff (s : App Data) (e : Event Data) (h : Regular decode s) (heard : Heard s) :
    Heard (step decode s e) ↔ AfterWiring s e := by
  cases e with
  | mainThread => exact iff_of_true ((heard_mainThread h).mpr heard) trivial
  | complete response =>
    unfold step AfterWiring
    dsimp only
    by_cases running : s.task = .running
    · obtain ⟨_, _, delivered⟩ := awaited_of_running h running
      rw [complete_running h running]
      by_cases assigned : .interactorPresenter ∈ s.assigned <;>
        simp [Heard, running, assigned, delivered]
    · rw [complete_idle running]
      refine iff_of_true heard ?_
      cases task : s.task with
      | running => exact absurd task running
      | notStarted | completed => trivial

theorem lost_step (s : App Data) (e : Event Data) (h : Regular decode s) (lost : ¬ Heard s) :
    ¬ Heard (step decode s e) := by
  cases e with
  | mainThread => exact (heard_mainThread h).not.mpr lost
  | complete response =>
    have idle : s.task ≠ .running := by
      intro running
      exact lost fun _ task => by cases running.symm.trans task
    unfold step
    dsimp only
    rwa [complete_idle idle]

theorem resultShown_iff_heard {s : App Data} (h : Regular decode s) (finished : Finished s) :
    ResultShown decode s ↔ Heard s := by
  obtain ⟨_, noBlock, response, completed⟩ := finished
  cases h.phase with
  | awaited task =>
    rw [completed] at task
    simp at task
  | queued _ _ mainQueue => cases noBlock.symm.trans mainQueue
  | dropped _ _ _ _ delivered =>
    refine iff_of_false ?_ fun heard => heard response completed delivered
    intro result
    have once := result.once
    simp [delivered] at once
  | shown answer task _ view delivered =>
    refine iff_of_true ⟨by simp [delivered], ?_, ?_, ?_⟩ (fun _ _ => by simp [delivered])
    · rw [view]
      cases downloaded decode answer with
      | ok cryptos => exact .inl rfl
      | error error => exact .inr (by simp [updateFor, CryptoViewController.update])
    · rw [view]
      cases downloaded decode answer <;> rfl
    · intro response' task'
      cases task.symm.trans task'
      rw [view]
      exact shows_update _

/-- When all has run, the result is on the screen exactly if the request was not
completed before the interactor knew its presenter. -/
theorem result_shown_iff (decode : Data → Option (List Crypto)) (es : List (Event Data))
    (finished : Finished (run (step decode) {} es)) :
    ResultShown decode (run (step decode) {} es) ↔
      Always (step decode) (fun s e _ => AfterWiring s e) {} es := by
  have regular := invariant_free_run regular_step (regular_start decode) es
  rw [resultShown_iff_heard regular finished]
  exact run_iff_of_exact regular_step heard_step_iff lost_step (regular_start decode)
    (fun response task => by cases task) es

/-- A text that decodes, and an empty one, which does not. -/
def sampleDecode (text : String) : Option (List Crypto) :=
  if text = "[\x7b\"currency\":\"BTC\",\"price\":\"1\"\x7d]" then some [⟨"BTC", "1"⟩] else none

theorem wired_download_shown :
    ResultShown sampleDecode (run (step sampleDecode) {} [.mainThread, .mainThread, .mainThread,
      .mainThread, .mainThread,
      .complete ⟨some "[\x7b\"currency\":\"BTC\",\"price\":\"1\"\x7d]", none⟩,
      .mainThread, .mainThread, .mainThread]) :=
  (result_shown_iff _ _ ⟨rfl, rfl, _, rfl⟩).mpr (by decide)

/-- The request fails before the interactor knows its presenter. -/
theorem early_failure_dropped :
    ¬ ∀ (decode : String → Option (List Crypto)) (es : List (Event String)),
      Finished (run (step decode) {} es) → ResultShown decode (run (step decode) {} es) := by
  intro every
  have result := every sampleDecode [.mainThread, .mainThread, .mainThread, .mainThread,
    .complete ⟨none, some "offline"⟩, .mainThread, .mainThread, .mainThread] ⟨rfl, rfl, _, rfl⟩
  cases result.once

end CryptoViper
