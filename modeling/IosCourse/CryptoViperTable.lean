import IosCourse.CryptoViper

/-!
# The table of currencies and the screen behind a row

While references are assigned and the request is under way, the table view asks its data
source for rows and cells whenever it is laid out, and a touched row presents a detail
screen with the two texts of its currency. The labels of that screen are filled when its
subviews are laid out.
-/

namespace CryptoViper

open GuardedRuns

universe u
variable {Data : Type u}

structure DetailViewController where
  currency : String := ""
  price : String := ""
  currencyLabel : String := "Currency Label"
  priceLabel : String := "Price Label"
  deriving DecidableEq

def DetailViewController.viewDidLayoutSubviews (detail : DetailViewController) :
    DetailViewController :=
  { detail with currencyLabel := detail.currency, priceLabel := detail.price }

/-- The screen to present; `none` is an index out of range. -/
def CryptoViewController.didSelectRowAt (v : CryptoViewController) (row : ℕ) :
    Option DetailViewController :=
  v.cryptos[row]?.map fun crypto => { currency := crypto.currency, price := crypto.price }

/-- `presented` is the detail screen with the row that was touched. -/
structure Window (Data : Type u) where
  app : App Data := {}
  presented : Option (ℕ × DetailViewController) := none
  trapped : Bool := false

inductive WindowEvent (Data : Type u) where
  | app (event : Event Data)
  | numberOfRowsInSection
  | cellForRowAt (row : ℕ)
  | didSelectRowAt (row : ℕ)
  | viewDidLayoutSubviews
  | dismiss

namespace Window

/-- The table asks its data source, once it has one. -/
def reloadData (w : Window Data) : Window Data :=
  { w with app := { w.app with
      view := w.app.view.reloadData (decide (.tableViewDataSource ∈ w.app.assigned)) } }

/-- Cells are asked for below the row count, and rows are touched in a table that is
neither hidden nor covered. -/
def perform (decode : Data → Option (List Crypto)) (w : Window Data) :
    WindowEvent Data → Option (Window Data)
  | .app event => some { w with app := step decode w.app event }
  | .numberOfRowsInSection => some w.reloadData
  | .cellForRowAt row =>
    if row < w.app.view.rows then (w.app.view.cellForRowAt row).map fun _ => w else some w
  | .didSelectRowAt row =>
    if w.presented = none ∧ w.app.view.tableHidden = false ∧ row < w.app.view.rows then
      (w.app.view.didSelectRowAt row).map fun detail => { w with presented := some (row, detail) }
    else some w
  | .viewDidLayoutSubviews =>
    some { w with presented := w.presented.map fun (row, detail) =>
      (row, detail.viewDidLayoutSubviews) }
  | .dismiss => some { w with presented := none }

def step (decode : Data → Option (List Crypto)) : Window Data → WindowEvent Data → Window Data :=
  trapStep (perform decode) Window.trapped fun w => { w with trapped := true }

end Window

/-- The detail screen of a row belongs to that row of the downloaded list. -/
structure Details (decode : Data → Option (List Crypto)) (s : App Data) (row : ℕ)
    (detail : DetailViewController) (crypto : Crypto) : Prop where
  row : ∃ response cryptos, s.task = .completed response ∧
    downloaded decode response = .ok cryptos ∧ cryptos[row]? = some crypto
  currency : detail.currency = crypto.currency
  price : detail.price = crypto.price
  labels : (detail.currencyLabel = "Currency Label" ∧ detail.priceLabel = "Price Label") ∨
    (detail.currencyLabel = crypto.currency ∧ detail.priceLabel = crypto.price)

/-- The invariant. A block runs only after the last assignment. -/
structure RegularWindow (decode : Data → Option (List Crypto)) (w : Window Data) : Prop where
  running : w.trapped = false
  app : Regular decode w.app
  wired : w.app.view = {} ∨ w.app.remaining = []
  presented : ∀ row detail, w.presented = some (row, detail) →
    ∃ crypto, Details decode w.app row detail crypto

variable {decode : Data → Option (List Crypto)} {s : App Data} {w : Window Data}

theorem regularWindow_start (decode : Data → Option (List Crypto)) : RegularWindow decode {} :=
  ⟨rfl, regular_start decode, .inl rfl, fun _ _ none_presented => by cases none_presented⟩

/-- The view is as it was made, or it shows the result and has its data source. -/
theorem view_cases (h : Regular decode s) (wired : s.view = {} ∨ s.remaining = []) :
    s.view = {} ∨ ∃ response, s.task = .completed response ∧ .tableViewDataSource ∈ s.assigned ∧
      s.view = CryptoViewController.update true {} (updateFor (downloaded decode response)) := by
  cases h.phase with
  | awaited _ _ view | dropped _ _ _ view | queued _ _ _ view => exact .inl view
  | shown response task _ view =>
    refine wired.imp_right fun done => ⟨response, task, ?_, view⟩
    have all : s.assigned = launch := by simpa [done] using h.order
    rw [all]
    decide

/-- Counting again gives the count that the table has. -/
theorem reloadData_eq (h : RegularWindow decode w) : w.reloadData = w := by
  have same : w.app.view.reloadData (decide (.tableViewDataSource ∈ w.app.assigned)) =
      w.app.view := by
    rcases view_cases h.app h.wired with view | ⟨response, _, loaded, view⟩
    · rw [view]
      simp [CryptoViewController.reloadData, CryptoViewController.numberOfRowsInSection]
    · rw [view, decide_eq_true loaded]
      cases downloaded decode response <;> rfl
  rw [Window.reloadData, same]

/-- Behind every row of the table is the entry of the downloaded list. -/
theorem entry_of_row (h : RegularWindow decode w) {row : ℕ} (below : row < w.app.view.rows) :
    ∃ response cryptos crypto, w.app.task = .completed response ∧
      downloaded decode response = .ok cryptos ∧ cryptos[row]? = some crypto ∧
      w.app.view.cryptos[row]? = some crypto := by
  rcases view_cases h.app h.wired with view | ⟨response, task, _, view⟩
  · simp [view] at below
  · rw [view] at below ⊢
    cases result : downloaded decode response with
    | error error =>
      rw [result] at below
      simp [updateFor, CryptoViewController.update] at below
    | ok cryptos =>
      rw [result] at below
      have inside : row < cryptos.length := below
      have entry : cryptos[row]? = some cryptos[row] := List.getElem?_eq_getElem inside
      exact ⟨response, cryptos, cryptos[row], task, result, entry, entry⟩

theorem task_step (h : Regular decode s) {response : Response Data}
    (completed : s.task = .completed response) (e : Event Data) :
    (step decode s e).task = .completed response := by
  cases e with
  | complete other =>
    have idle : s.task ≠ .running := by simp [completed]
    exact (congrArg App.task (complete_idle idle other)).trans completed
  | mainThread =>
    cases left : s.remaining with
    | cons reference rest =>
      have later : reference ≠ .presenterInteractor := by
        rintro rfl
        cases completed.symm.trans (notStarted_of_next h left)
      rw [step, mainThread_assigns left]
      simpa [App.assign, later] using completed
    | nil =>
      cases waiting : s.mainQueue with
      | nil =>
        rw [step, mainThread_idle left waiting]
        exact completed
      | cons block blocks =>
        rw [step, mainThread_block left waiting]
        exact completed

theorem wired_step (h : Regular decode s) (wired : s.view = {} ∨ s.remaining = [])
    (e : Event Data) :
    (step decode s e).view = {} ∨ (step decode s e).remaining = [] := by
  cases e with
  | complete response =>
    by_cases running : s.task = .running
    · rw [step, complete_running h running]
      split <;> exact wired
    · rw [step, complete_idle running]
      exact wired
  | mainThread =>
    cases left : s.remaining with
    | cons reference rest =>
      rw [step, mainThread_assigns left]
      exact .inl (wired.resolve_right (by simp [left]))
    | nil =>
      cases waiting : s.mainQueue with
      | nil =>
        rw [step, mainThread_idle left waiting]
        exact wired
      | cons block blocks =>
        rw [step, mainThread_block left waiting]
        exact .inr left

theorem details_step (h : Regular decode s) {row : ℕ} {detail : DetailViewController}
    {crypto : Crypto} (details : Details decode s row detail crypto) (e : Event Data) :
    Details decode (step decode s e) row detail crypto := by
  obtain ⟨response, cryptos, completed, result, entry⟩ := details.row
  exact ⟨⟨response, cryptos, task_step h completed e, result, entry⟩, details.currency,
    details.price, details.labels⟩

theorem perform_regular (w : Window Data) (e : WindowEvent Data) (h : RegularWindow decode w) :
    ∃ t, w.perform decode e = some t ∧ RegularWindow decode t := by
  cases e with
  | app event =>
    refine ⟨_, rfl, h.running, regular_step _ event h.app, wired_step h.app h.wired event, ?_⟩
    intro row detail shown
    obtain ⟨crypto, details⟩ := h.presented row detail shown
    exact ⟨crypto, details_step h.app details event⟩
  | numberOfRowsInSection =>
    refine ⟨w.reloadData, rfl, ?_⟩
    rw [reloadData_eq h]
    exact h
  | cellForRowAt row =>
    by_cases below : row < w.app.view.rows
    · obtain ⟨_, _, crypto, _, _, _, entry⟩ := entry_of_row h below
      exact ⟨w, by simp [Window.perform, below, CryptoViewController.cellForRowAt, entry], h⟩
    · exact ⟨w, if_neg below, h⟩
  | didSelectRowAt row =>
    by_cases touched : w.presented = none ∧ w.app.view.tableHidden = false ∧ row < w.app.view.rows
    · obtain ⟨response, cryptos, crypto, completed, result, inList, entry⟩ :=
        entry_of_row h touched.2.2
      have selected : w.app.view.didSelectRowAt row =
          some { currency := crypto.currency, price := crypto.price } := by
        rw [CryptoViewController.didSelectRowAt, entry, Option.map_some]
      refine ⟨{ w with
        presented := some (row, { currency := crypto.currency, price := crypto.price }) }, ?_,
        h.running, h.app, h.wired, ?_⟩
      · rw [Window.perform, if_pos touched, selected, Option.map_some]
      rintro _ _ ⟨⟩
      exact ⟨crypto, ⟨response, cryptos, completed, result, inList⟩, rfl, rfl, .inl ⟨rfl, rfl⟩⟩
    · exact ⟨w, if_neg touched, h⟩
  | viewDidLayoutSubviews =>
    refine ⟨_, rfl, h.running, h.app, h.wired, ?_⟩
    intro row detail shown
    obtain ⟨⟨row, before⟩, covered, ⟨⟩⟩ := Option.map_eq_some_iff.mp shown
    obtain ⟨crypto, details⟩ := h.presented row before covered
    exact ⟨crypto, details.row, details.currency, details.price,
      .inr ⟨details.currency, details.price⟩⟩
  | dismiss =>
    exact ⟨_, rfl, h.running, h.app, h.wired, fun _ _ none_presented => by cases none_presented⟩

theorem regularWindow_step (w : Window Data) (e : WindowEvent Data) (h : RegularWindow decode w) :
    RegularWindow decode (w.step decode e) :=
  (trapStep_succeeds (fun _ h => h.running) perform_regular h e).2

/-- No order of assignments, completion, blocks, layouts and touches traps. A presented
screen belongs to the touched row of the list that the one request was answered with,
and its labels show that row's texts once they were laid out. -/
theorem presented_row_matches (decode : Data → Option (List Crypto))
    (es : List (WindowEvent Data)) :
    let w := run (Window.step decode) {} es
    w.trapped = false ∧ ∀ row detail, w.presented = some (row, detail) →
      ∃ response cryptos crypto, w.app.task = .completed response ∧
        downloaded decode response = .ok cryptos ∧ cryptos[row]? = some crypto ∧
        detail.viewDidLayoutSubviews = ⟨crypto.currency, crypto.price, crypto.currency,
          crypto.price⟩ ∧
        (detail.currencyLabel = "Currency Label" ∧ detail.priceLabel = "Price Label" ∨
          detail.viewDidLayoutSubviews = detail) := by
  intro w
  have h : RegularWindow decode w :=
    invariant_free_run regularWindow_step (regularWindow_start decode) es
  refine ⟨h.running, fun row detail shown => ?_⟩
  obtain ⟨crypto, details⟩ := h.presented row detail shown
  obtain ⟨response, cryptos, completed, result, entry⟩ := details.row
  obtain ⟨currency, price, currencyLabel, priceLabel⟩ := detail
  obtain ⟨rfl, rfl⟩ : currency = crypto.currency ∧ price = crypto.price :=
    ⟨details.currency, details.price⟩
  refine ⟨response, cryptos, crypto, completed, result, entry, rfl, details.labels.imp_right ?_⟩
  rintro ⟨rfl, rfl⟩
  rfl

end CryptoViper
