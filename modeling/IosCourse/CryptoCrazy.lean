import IosCourse.MainQueue
import Mathlib.Data.Nat.Notation

/-!
# CryptoCrazy

The screen is loaded on the main thread and starts a download. The completion handler
runs on another thread; it assigns the list of currencies there and puts a block on the
main queue that reloads the table. Between the two the table view may ask for its row
count or for cells at any time. A failed download reaches the handler only as nil, or
not at all, and nothing is shown then.
-/

namespace CryptoCrazy

open GuardedRuns MainQueue

universe u
variable {Data : Type u}

structure CryptoCurrency where
  currency : String
  price : String
  deriving DecidableEq

/-- What the completion handler of the request receives. -/
structure Response (Data : Type u) where
  data : Option Data
  error : Option String

/-- The argument that the completion is called with. `none` stands for no call: there
are no data, or the decoder throws. -/
def downloadCurrencies (decode : Data → Option (List CryptoCurrency)) (response : Response Data) :
    Option (Option (List CryptoCurrency)) :=
  match response.error with
  | some _ => some none
  | none => (response.data.bind decode).map some

structure CryptoViewModel where
  cryptoCurrency : CryptoCurrency
  deriving DecidableEq

namespace CryptoViewModel

def name (model : CryptoViewModel) : String := model.cryptoCurrency.currency

def price (model : CryptoViewModel) : String := model.cryptoCurrency.price

end CryptoViewModel

structure CryptoListViewModel where
  cryptoCurrencyList : List CryptoCurrency
  deriving DecidableEq

namespace CryptoListViewModel

def numberOfRowsInSection (model : CryptoListViewModel) : ℕ := model.cryptoCurrencyList.length

/-- `none` is an index out of range. -/
def cryptoAtIndex (index : ℕ) (model : CryptoListViewModel) : Option CryptoViewModel :=
  (model.cryptoCurrencyList[index]?).map CryptoViewModel.mk

end CryptoListViewModel

/-- Red, green and blue out of 255. -/
structure UIColor where
  red : ℕ
  green : ℕ
  blue : ℕ
  deriving DecidableEq

structure CryptoTableViewCell where
  CurrencyText : String
  PriceText : String
  backgroundColor : UIColor
  deriving DecidableEq

/-- `cryptoListViewModel` is unwrapped implicitly. `rows` is the row count that the
table view was last given. The view is loaded once. -/
structure ViewController where
  viewLoaded : Bool := false
  cryptoListViewModel : Option CryptoListViewModel := none
  colorArray : List UIColor := []
  rows : ℕ := 0
  deriving DecidableEq

def colors : List UIColor :=
  [⟨75, 55, 135⟩, ⟨15, 40, 105⟩, ⟨57, 150, 15⟩, ⟨90, 146, 184⟩, ⟨200, 156, 224⟩, ⟨130, 4, 40⟩]

namespace ViewController

def numberOfRowsInSection (screen : ViewController) : ℕ :=
  match screen.cryptoListViewModel with
  | none => 0
  | some model => model.numberOfRowsInSection

/-- `none` is a trap: no list, or an index out of range in one of the two arrays. -/
def cellForRowAt (row : ℕ) (screen : ViewController) : Option CryptoTableViewCell := do
  let model ← screen.cryptoListViewModel
  let cryptoViewModel ← model.cryptoAtIndex row
  let color ← screen.colorArray[row % 6]?
  return ⟨cryptoViewModel.name, cryptoViewModel.price, color⟩

def reloadData (screen : ViewController) : ViewController :=
  { screen with rows := screen.numberOfRowsInSection }

/-- The cells of the table. -/
def cells (screen : ViewController) : List (Option CryptoTableViewCell) :=
  (List.range screen.rows).map fun row => screen.cellForRowAt row

end ViewController

/-- What the main thread calls besides the blocks. -/
inductive Callback where
  | viewDidLoad
  | numberOfRowsInSection
  | cellForRowAt (row : ℕ)

namespace ViewController

/-- The colours are set and the download is started. -/
def viewDidLoad (screen : ViewController) : ViewController × Option Unit :=
  ({ screen with viewLoaded := true, colorArray := colors }, some ())

/-- The table asks for cells below its row count only. -/
def callback (screen : ViewController) : Callback → Option (ViewController × Option Unit)
  | .viewDidLoad => some (if screen.viewLoaded then (screen, none) else screen.viewDidLoad)
  | .numberOfRowsInSection => some (screen.reloadData, none)
  | .cellForRowAt row =>
    if row < screen.rows then (screen.cellForRowAt row).map fun _ => (screen, none)
    else some (screen, none)

/-- The completion handler, on its own thread. The block that it puts on the main queue
reloads the table. -/
def complete (decode : Data → Option (List CryptoCurrency)) (screen : ViewController)
    (response : Response Data) : ViewController × Option Unit :=
  match downloadCurrencies decode response with
  | some (some cryptos) => ({ screen with cryptoListViewModel := some ⟨cryptos⟩ }, some ())
  | _ => (screen, none)

end ViewController

def program (decode : Data → Option (List CryptoCurrency)) :
    Program ViewController Callback Unit (Response Data) Unit where
  tap := ViewController.callback
  complete screen _ response := some (screen.complete decode response)
  execute screen _ := screen.reloadData

/-- The list that a response is decoded to; there is none after a failure. -/
def decoded (decode : Data → Option (List CryptoCurrency)) (response : Response Data) :
    Option (List CryptoCurrency) := (downloadCurrencies decode response).join

/-- The cell of a currency, in one of six colours by turns. -/
def cellOf (row : ℕ) (crypto : CryptoCurrency) : CryptoTableViewCell :=
  ⟨crypto.currency, crypto.price, colors.get ⟨row % 6, Nat.mod_lt row (by decide)⟩⟩

/-- The screen once its view is loaded and before a list is assigned. -/
def loaded : ViewController := { viewLoaded := true, colorArray := colors }

/-- The list is assigned. The table was counted since, or before there was a list. -/
structure Assigned (screen : ViewController) (cryptos : List CryptoCurrency) : Prop where
  viewLoaded : screen.viewLoaded = true
  list : screen.cryptoListViewModel = some ⟨cryptos⟩
  coloured : screen.colorArray = colors
  counted : screen.rows = 0 ∨ screen.rows = cryptos.length

/-- How far the only download has come. -/
inductive Phase (decode : Data → Option (List CryptoCurrency))
    (s : App ViewController Unit (Response Data) Unit) : Prop where
  | unloaded (screen : s.screen = {}) (requests : s.requests = []) (finished : s.finished = [])
      (blocks : s.blocks = [])
  | running (screen : s.screen = loaded) (requests : s.requests = [()])
      (finished : s.finished = []) (blocks : s.blocks = [])
  | failed (response : Response Data) (screen : s.screen = loaded) (requests : s.requests = [])
      (finished : s.finished = [((), response)]) (none_decoded : decoded decode response = none)
      (blocks : s.blocks = [])
  | assigned (response : Response Data) (cryptos : List CryptoCurrency)
      (screen : Assigned s.screen cryptos) (requests : s.requests = [])
      (finished : s.finished = [((), response)])
      (decoded : decoded decode response = some cryptos)
      (reload : s.screen.rows = cryptos.length ∨ s.blocks ≠ [])

section Cells
variable {screen : ViewController} {cryptos : List CryptoCurrency}

theorem cellForRowAt_eq (h : Assigned screen cryptos) {row : ℕ} (below : row < cryptos.length) :
    screen.cellForRowAt row = some (cellOf row (cryptos.get ⟨row, below⟩)) := by
  have colour : colors[row % 6]? = some (colors.get ⟨row % 6, Nat.mod_lt row (by decide)⟩) :=
    List.getElem?_eq_getElem _
  simp [ViewController.cellForRowAt, h.list, h.coloured, CryptoListViewModel.cryptoAtIndex, below,
    colour, cellOf, CryptoViewModel.name, CryptoViewModel.price]

theorem cells_of_rows (h : Assigned screen cryptos) (counted : screen.rows = cryptos.length) :
    screen.cells = (cryptos.mapIdx cellOf).map some := by
  apply List.ext_getElem
  · simp [ViewController.cells, counted]
  · intro row inCells inList
    have below : row < cryptos.length := by simpa using inList
    simp [ViewController.cells, cellForRowAt_eq h below]

theorem cells_of_empty (empty : screen.rows = 0) : screen.cells = [] := by
  simp [ViewController.cells, empty]

theorem assigned_reloadData (h : Assigned screen cryptos) :
    Assigned screen.reloadData cryptos ∧ screen.reloadData.rows = cryptos.length := by
  have counted : screen.reloadData.rows = cryptos.length := by
    simp [ViewController.reloadData, ViewController.numberOfRowsInSection, h.list,
      CryptoListViewModel.numberOfRowsInSection]
  exact ⟨⟨h.viewLoaded, h.list, h.coloured, .inr counted⟩, counted⟩

/-- The table asks for cells of the list only. -/
theorem callback_cell (h : Assigned screen cryptos) (row : ℕ) :
    screen.callback (.cellForRowAt row) = some (screen, none) := by
  by_cases below : row < screen.rows
  · have counted := h.counted
    have inList : row < cryptos.length := by omega
    simp [ViewController.callback, below, cellForRowAt_eq h inList]
  · exact if_neg below

end Cells

variable {decode : Data → Option (List CryptoCurrency)}
variable {s : App ViewController Unit (Response Data) Unit}

/-- A callback may load the view or count the rows. -/
theorem phase_callback (h : Phase decode s) (callback : Callback) :
    ∃ screen request, s.screen.callback callback = some (screen, request) ∧
      Phase decode (s.tapped screen request) := by
  cases h with
  | unloaded screen requests finished blocks =>
    cases callback with
    | viewDidLoad =>
      refine ⟨loaded, some (), by rw [screen]; rfl, .running rfl ?_ finished blocks⟩
      simp [App.tapped, requests]
    | numberOfRowsInSection | cellForRowAt =>
      refine ⟨{}, none, by rw [screen]; rfl, .unloaded rfl ?_ finished blocks⟩
      simp [App.tapped, requests]
  | running screen requests finished blocks =>
    refine ⟨loaded, none, by rw [screen]; cases callback <;> rfl, .running rfl ?_ finished blocks⟩
    simp [App.tapped, requests]
  | failed response screen requests finished none_decoded blocks =>
    refine ⟨loaded, none, by rw [screen]; cases callback <;> rfl,
      .failed response rfl ?_ finished none_decoded blocks⟩
    simp [App.tapped, requests]
  | assigned response cryptos screen requests finished decoded reload =>
    have unchanged : s.requests ++ [] = [] := by simp [requests]
    cases callback with
    | viewDidLoad =>
      exact ⟨s.screen, none, by simp [ViewController.callback, screen.viewLoaded],
        .assigned response cryptos screen unchanged finished decoded reload⟩
    | numberOfRowsInSection =>
      obtain ⟨kept, counted⟩ := assigned_reloadData screen
      exact ⟨s.screen.reloadData, none, rfl,
        .assigned response cryptos kept unchanged finished decoded (.inl counted)⟩
    | cellForRowAt row =>
      exact ⟨s.screen, none, callback_cell screen row,
        .assigned response cryptos screen unchanged finished decoded reload⟩

theorem complete_of_none (screen : ViewController) {response : Response Data}
    (failed : decoded decode response = none) :
    screen.complete decode response = (screen, none) := by
  unfold decoded at failed
  unfold ViewController.complete
  split
  · rename_i cryptos result
    simp [result] at failed
  · rfl

theorem complete_of_some (screen : ViewController) {response : Response Data}
    {cryptos : List CryptoCurrency} (found : decoded decode response = some cryptos) :
    screen.complete decode response =
      ({ screen with cryptoListViewModel := some ⟨cryptos⟩ }, some ()) := by
  simp [ViewController.complete, Option.join_eq_some_iff.mp found]

/-- The only completion assigns the list while the table has no rows yet. -/
theorem phase_completed (h : Phase decode s) {index : ℕ} {request : Unit}
    (pending : s.requests[index]? = some request) (response : Response Data) :
    Phase decode (s.completed index request response (s.screen.complete decode response).1
      (s.screen.complete decode response).2) := by
  cases h with
  | running screen requests finished blocks =>
    have none_left : s.requests.eraseIdx index = [] := by
      obtain ⟨inside, _⟩ := List.getElem?_eq_some_iff.mp pending
      have first : index = 0 := by simpa [requests] using inside
      simp [requests, first]
    have only : s.finished ++ [((), response)] = [((), response)] := by simp [finished]
    rw [screen]
    cases result : decoded decode response with
    | none =>
      rw [complete_of_none loaded result]
      exact .failed response rfl none_left only result (by simp [App.completed, blocks])
    | some cryptos =>
      rw [complete_of_some loaded result]
      exact .assigned response cryptos ⟨rfl, rfl, rfl, .inl rfl⟩ none_left only result
        (.inr (by simp [App.completed]))
  | unloaded _ requests | failed _ _ requests | assigned _ _ _ requests =>
    simp [requests] at pending

theorem phase_executed (h : Phase decode s) {block : Unit} {rest : List Unit}
    (waiting : s.blocks = block :: rest) :
    Phase decode (s.executed s.screen.reloadData block rest) := by
  cases h with
  | assigned response cryptos screen requests finished decoded =>
    obtain ⟨kept, counted⟩ := assigned_reloadData screen
    exact .assigned response cryptos kept requests finished decoded (.inl counted)
  | unloaded _ _ _ blocks | running _ _ _ blocks | failed _ _ _ _ _ blocks =>
    cases waiting.symm.trans blocks

theorem phase_run (decode : Data → Option (List CryptoCurrency))
    (es : List (Event Callback (Response Data))) :
    Phase decode (run (step (program decode)) { screen := {} } es) ∧
      (run (step (program decode)) { screen := {} } es).trapped = false := by
  refine invariant_of_safe (fun s e h _ => ?_) (fun s e t h _ moved => ?_)
    (Phase.unloaded rfl rfl rfl rfl) rfl (always_trivial _ _ es)
  · cases e with
    | tap callback =>
      obtain ⟨screen, request, result, _⟩ := phase_callback h callback
      exact Option.isSome_iff_exists.mpr ⟨_, result⟩
    | complete => exact fun _ _ => rfl
    | block => trivial
  · cases moved with
    | @tap callback later request result =>
      obtain ⟨screen, started, same, kept⟩ := phase_callback h callback
      cases result.symm.trans same
      exact kept
    | @complete index response request screen block pending result =>
      have same : s.screen.complete decode response = (screen, block) := Option.some.inj result
      have kept := phase_completed h pending response
      rwa [same] at kept
    | block waiting => exact phase_executed h waiting

/-- The table is empty until a download was decoded and shows all of its list or nothing
after. When both threads are done, it shows the list, and nothing after any failure. -/
theorem table_shows_all_or_nothing (decode : Data → Option (List CryptoCurrency))
    (es : List (Event Callback (Response Data))) :
    let s := run (step (program decode)) { screen := {} } es
    s.trapped = false ∧
      (s.screen.cells = [] ∨ ∃ response cryptos, s.finished = [((), response)] ∧
        decoded decode response = some cryptos ∧
        s.screen.cells = (cryptos.mapIdx cellOf).map some) ∧
      ∀ response, s.finished = [((), response)] → s.blocks = [] →
        s.screen.cells = (((decoded decode response).getD []).mapIdx cellOf).map some := by
  intro s
  obtain ⟨phase, running⟩ := phase_run decode es
  refine ⟨running, ?_⟩
  cases phase with
  | unloaded screen requests finished =>
    refine ⟨.inl (cells_of_empty (by rw [screen])), fun response done => ?_⟩
    cases finished.symm.trans done
  | running screen requests finished =>
    refine ⟨.inl (cells_of_empty (by rw [screen]; rfl)), fun response done => ?_⟩
    cases finished.symm.trans done
  | failed response screen requests finished none_decoded =>
    have empty : s.screen.cells = [] := cells_of_empty (by rw [screen]; rfl)
    refine ⟨.inl empty, fun other done _ => ?_⟩
    cases finished.symm.trans done
    rw [none_decoded, empty]
    rfl
  | assigned response cryptos screen requests finished decoded reload =>
    constructor
    · rcases screen.counted with empty | counted
      · exact .inl (cells_of_empty empty)
      · exact .inr ⟨response, cryptos, finished, decoded, cells_of_rows screen counted⟩
    · intro other done none_waits
      cases finished.symm.trans done
      rw [decoded]
      exact cells_of_rows screen (reload.resolve_right (fun waits => waits none_waits))

end CryptoCrazy
