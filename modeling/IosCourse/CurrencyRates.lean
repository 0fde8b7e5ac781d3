import IosCourse.MainQueue
import Mathlib.Data.List.Basic
import Mathlib.Logic.Function.Basic

/-!
# Exchange rates

A tap requests the latest rates. The completion handler reports a transport error,
parses the data and hands the parsed object to the main queue, where the six labels
are updated one by one. The handler catches what the parser throws; the forced cast of
the parsed value to a dictionary it cannot catch.
-/

namespace CurrencyRates

universe u v w
variable {Data : Type u} {Number : Type v} {Double : Type w}

/-- What `JSONSerialization` makes of a text. Booleans are numbers, too. -/
inductive JSON (Number : Type v) where
  | null
  | number (n : Number)
  | string (text : String)
  | array (items : List (JSON Number))
  | object (fields : List (String × JSON Number))

/-- What the handler uses of Foundation: the parser (`none` if it throws), the cast of a
number to `Double`, and the text of a `Double`. -/
structure Foundation (Data : Type u) (Number : Type v) (Double : Type w) where
  jsonObject : Data → Option (JSON Number)
  asDouble : Number → Option Double
  description : Double → String

/-- The cast `as? Double`. -/
def Foundation.double (f : Foundation Data Number Double) : JSON Number → Option Double
  | .number n => f.asDouble n
  | _ => none

/-- The cast `as? Dictionary<String, Double>`: it fails if it fails for one value. -/
def Foundation.doubles (f : Foundation Data Number Double) :
    JSON Number → Option (List (String × Double))
  | .object fields => fields.mapM fun (key, value) => (f.double value).map fun d => (key, d)
  | _ => none

inductive Currency where
  | CAD | CHF | GBP | JPY | USD | TRY
  deriving DecidableEq

def Currency.code : Currency → String
  | CAD => "CAD"
  | CHF => "CHF"
  | GBP => "GBP"
  | JPY => "JPY"
  | USD => "USD"
  | TRY => "TRY"

/-- The currencies in the order in which the labels are updated. -/
def Currency.all : List Currency := [CAD, CHF, GBP, JPY, USD, TRY]

theorem Currency.mem_all (c : Currency) : c ∈ all := by cases c <;> decide

structure Alert where
  title : String
  message : String
  deriving DecidableEq

structure ViewController where
  labels : Currency → String := fun c => c.code ++ ":"
  alerts : List Alert := []

inductive Response (Data : Type u) where
  | error (localizedDescription : String)
  | noData
  | data (bytes : Data)

section Handler
variable (f : Foundation Data Number Double)

/-- The completion handler. It may hand a dictionary to the main queue; `none` is a
trap. -/
def completed (response : Response Data) (s : ViewController) :
    Option (ViewController × Option (List (String × JSON Number))) :=
  match response with
  | .error localizedDescription =>
    some ({ s with alerts := s.alerts ++ [⟨"Error", localizedDescription⟩] }, none)
  | .noData => some (s, none)
  | .data bytes =>
    match f.jsonObject bytes with
    | none => some (s, none)
    | some (.object jsonResponse) => some (s, some jsonResponse)
    | some _ => none

/-- The text of a label for its rate. -/
def Foundation.label (c : Currency) (rate : Double) : String :=
  c.code ++ ": " ++ f.description rate

/-- One of the six updates. -/
def showRate (rates : List (String × Double)) (labels : Currency → String) (c : Currency) :
    Currency → String :=
  match rates.lookup c.code with
  | none => labels
  | some rate => Function.update labels c (f.label c rate)

/-- The block on the main queue. -/
def mainBlock (jsonResponse : List (String × JSON Number)) (s : ViewController) :
    ViewController :=
  match (jsonResponse.lookup "rates").bind f.doubles with
  | none => s
  | some rates => { s with labels := Currency.all.foldl (showRate f rates) s.labels }

/-- The handler and, if there is one, its block on the main queue. -/
def handled (response : Response Data) (s : ViewController) : Option ViewController :=
  (completed f response s).map fun (s, block) =>
    block.elim s fun jsonResponse => mainBlock f jsonResponse s

/-- The rates in a response. -/
def Response.rates : Response Data → Option (List (String × Double))
  | .data bytes =>
    match f.jsonObject bytes with
    | some (.object jsonResponse) => (jsonResponse.lookup "rates").bind f.doubles
    | _ => none
  | _ => none

/-- Every label shows its rate. -/
def ShowsRates (rates : List (String × Double)) (labels : Currency → String) : Prop :=
  ∀ c, ∃ rate, rates.lookup c.code = some rate ∧ labels c = f.label c rate

/-- No trap, and the labels show all rates of the response or what they showed before. -/
def AllOrNothing (response : Response Data) (s : ViewController) : Prop :=
  ∃ t, handled f response s = some t ∧
    ((∃ rates, response.rates f = some rates ∧ ShowsRates f rates t.labels) ∨
      t.labels = s.labels)

/-- What the parser returns, if it does not throw, is a dictionary. -/
def TopLevelObject (response : Response Data) : Prop :=
  ∀ bytes, response = .data bytes → ∀ json, f.jsonObject bytes = some json →
    ∃ fields, json = .object fields

/-- A response that has rates has all six, or none that its label does not show
already. -/
def RatesComplete (response : Response Data) (s : ViewController) : Prop :=
  ∀ rates, response.rates f = some rates →
    (∀ c : Currency, (rates.lookup c.code).isSome) ∨
      ∀ c rate, rates.lookup c.code = some rate → s.labels c = f.label c rate

variable {f}

theorem showRate_apply (rates : List (String × Double)) (labels : Currency → String)
    (c d : Currency) :
    showRate f rates labels c d =
      if d = c then (rates.lookup d.code).elim (labels d) (f.label d) else labels d := by
  unfold showRate
  by_cases same : d = c
  · subst same
    cases rates.lookup d.code <;> simp
  · cases rates.lookup c.code <;> simp [same]

/-- A label is updated by its own rate only, whatever the order of the updates. -/
theorem foldl_showRate (rates : List (String × Double)) (cs : List Currency)
    (labels : Currency → String) (d : Currency) :
    cs.foldl (showRate f rates) labels d =
      if d ∈ cs then (rates.lookup d.code).elim (labels d) (f.label d) else labels d := by
  induction cs generalizing labels with
  | nil => simp
  | cons c cs ih =>
    rw [List.foldl_cons, ih, showRate_apply]
    by_cases same : d = c
    · subst same
      cases rates.lookup d.code <;> simp
    · simp [same]

theorem labels_shown (rates : List (String × Double)) (labels : Currency → String) :
    Currency.all.foldl (showRate f rates) labels =
      fun c => (rates.lookup c.code).elim (labels c) (f.label c) := by
  funext c
  rw [foldl_showRate, if_pos c.mem_all]

theorem showsRates_shown {rates : List (String × Double)} {labels : Currency → String} :
    ShowsRates f rates (fun c => (rates.lookup c.code).elim (labels c) (f.label c)) ↔
      ∀ c : Currency, (rates.lookup c.code).isSome := by
  refine forall_congr' fun c => ?_
  cases found : rates.lookup c.code <;> simp [found]

theorem shown_eq_iff {rates : List (String × Double)} {labels : Currency → String} :
    (fun c => (rates.lookup c.code).elim (labels c) (f.label c)) = labels ↔
      ∀ c rate, rates.lookup c.code = some rate → labels c = f.label c rate := by
  rw [funext_iff]
  refine forall_congr' fun c => ?_
  cases rates.lookup c.code with
  | none => simp
  | some rate => simp [eq_comm]

theorem topLevelObject_data {bytes : Data} :
    TopLevelObject f (.data bytes) ↔
      ∀ json, f.jsonObject bytes = some json → ∃ fields, json = .object fields := by
  simp [TopLevelObject]

/-- The forced cast. -/
theorem handled_other {bytes : Data} {json : JSON Number} (s : ViewController)
    (parsed : f.jsonObject bytes = some json) (other : ¬ ∃ fields, json = .object fields) :
    handled f (.data bytes) s = none := by
  rw [handled, completed, parsed]
  cases json with
  | object fields => exact absurd ⟨fields, rfl⟩ other
  | null | number | string | array => rfl

theorem handled_object {bytes : Data} {jsonResponse : List (String × JSON Number)}
    (s : ViewController) (parsed : f.jsonObject bytes = some (.object jsonResponse)) :
    handled f (.data bytes) s = some (mainBlock f jsonResponse s) := by
  rw [handled, completed, parsed]
  rfl

/-- Where the handler traps, and what the labels show where it does not. -/
theorem handled_cases (f : Foundation Data Number Double) (response : Response Data)
    (s : ViewController) :
    (¬ TopLevelObject f response ∧ handled f response s = none) ∨
      TopLevelObject f response ∧ ∃ t, handled f response s = some t ∧
        t.labels = (response.rates f).elim s.labels
          fun rates c => (rates.lookup c.code).elim (s.labels c) (f.label c) := by
  cases response with
  | error localizedDescription => exact .inr ⟨by simp [TopLevelObject], _, rfl, rfl⟩
  | noData => exact .inr ⟨by simp [TopLevelObject], _, rfl, rfl⟩
  | data bytes =>
    rw [topLevelObject_data]
    cases parsed : f.jsonObject bytes with
    | none =>
      refine .inr ⟨by simp, s, ?_, ?_⟩
      · simp [handled, completed, parsed]
      · simp [Response.rates, parsed]
    | some json =>
      by_cases object : ∃ fields, json = .object fields
      · obtain ⟨jsonResponse, rfl⟩ := object
        refine .inr ⟨by simp, _, handled_object s parsed, ?_⟩
        simp only [Response.rates, parsed, mainBlock]
        cases (jsonResponse.lookup "rates").bind f.doubles with
        | none => rfl
        | some rates => exact labels_shown rates s.labels
      · exact .inl ⟨by simpa using object, handled_other s parsed object⟩

/-- A response is applied completely or not at all exactly when it parses to a
dictionary, if it parses, and its rates, if it has rates, are complete. -/
theorem allOrNothing_iff (f : Foundation Data Number Double) (response : Response Data)
    (s : ViewController) :
    AllOrNothing f response s ↔ TopLevelObject f response ∧ RatesComplete f response s := by
  rcases handled_cases f response s with ⟨other, traps⟩ | ⟨object, t, finishes, labels⟩
  · simp [AllOrNothing, other, traps]
  · simp only [AllOrNothing, RatesComplete, finishes, object, true_and, Option.some.injEq,
      exists_eq_left', labels]
    cases response.rates f with
    | none => simp
    | some rates => simp [showsRates_shown, shown_eq_iff]

end Handler

section Requests
open GuardedRuns

/-- Every tap starts a request of its own, also while earlier ones are under way. -/
def GetRatesClicked (s : ViewController) : ViewController × Option Unit := (s, some ())

def program (f : Foundation Data Number Double) :
    MainQueue.Program ViewController Unit Unit (Response Data) (List (String × JSON Number)) where
  tap s _ := some (GetRatesClicked s)
  complete s _ response := completed f response s
  execute s jsonResponse := mainBlock f jsonResponse s

/-- The app at its start. -/
def start : MainQueue.App ViewController Unit (Response Data) (List (String × JSON Number)) :=
  { screen := {} }

variable (f : Foundation Data Number Double)

/-- The dictionary that a response hands to the main queue. -/
def Response.dictionary : Response Data → Option (List (String × JSON Number))
  | .data bytes =>
    match f.jsonObject bytes with
    | some (.object jsonResponse) => some jsonResponse
    | _ => none
  | _ => none

/-- The rates that a dictionary is cast to. -/
def ratesOf (jsonResponse : List (String × JSON Number)) : Option (List (String × Double)) :=
  (jsonResponse.lookup "rates").bind f.doubles

/-- The alert that a response leads to. -/
def Response.alert : Response Data → Option Alert
  | .error localizedDescription => some ⟨"Error", localizedDescription⟩
  | _ => none

/-- What a label shows after these rates were applied one after the other: the last rate
for its currency or, without any, its first text. -/
def latest (applied : List (List (String × Double))) (c : Currency) : String :=
  (applied.reverse.findSome? fun rates => rates.lookup c.code).elim (c.code ++ ":") (f.label c)

/-- The completion of a pending request gives a dictionary, if its data are parsed. -/
def GivesDictionary
    (s : MainQueue.App ViewController Unit (Response Data) (List (String × JSON Number))) :
    MainQueue.Event Unit (Response Data) → Prop
  | .complete index response => index < s.requests.length → TopLevelObject f response
  | _ => True

variable {f}

theorem rates_eq (response : Response Data) :
    response.rates f = (response.dictionary f).bind (ratesOf f) := by
  cases response with
  | error | noData => rfl
  | data bytes =>
    simp only [Response.rates, Response.dictionary]
    cases f.jsonObject bytes with
    | none => rfl
    | some json => cases json <;> rfl

/-- All that a completion handler does. -/
theorem completed_spec {response : Response Data} {s t : ViewController}
    {block : Option (List (String × JSON Number))}
    (result : completed f response s = some (t, block)) :
    t.labels = s.labels ∧ t.alerts = s.alerts ++ response.alert.toList ∧
      block = response.dictionary f := by
  cases response with
  | error localizedDescription =>
    cases result
    exact ⟨rfl, rfl, rfl⟩
  | noData =>
    cases result
    exact ⟨rfl, (List.append_nil _).symm, rfl⟩
  | data bytes =>
    simp only [completed] at result
    simp only [Response.dictionary, Response.alert, Option.toList_none, List.append_nil]
    cases parsed : f.jsonObject bytes with
    | none =>
      rw [parsed] at result
      cases result
      exact ⟨rfl, rfl, rfl⟩
    | some json =>
      rw [parsed] at result
      cases json with
      | object jsonResponse =>
        cases result
        exact ⟨rfl, rfl, rfl⟩
      | null | number | string | array => cases result

theorem completed_isSome_iff (response : Response Data) (s : ViewController) :
    (completed f response s).isSome ↔ TopLevelObject f response := by
  have same : (handled f response s).isSome = (completed f response s).isSome := by
    rw [handled, Option.isSome_map]
  rw [← same]
  rcases handled_cases f response s with ⟨other, traps⟩ | ⟨object, t, finishes, _⟩
  · simp [other, traps]
  · simp [object, finishes]

theorem labels_mainBlock (jsonResponse : List (String × JSON Number)) (s : ViewController) :
    (mainBlock f jsonResponse s).labels = (ratesOf f jsonResponse).elim s.labels
      fun rates c => (rates.lookup c.code).elim (s.labels c) (f.label c) := by
  unfold mainBlock ratesOf
  cases (jsonResponse.lookup "rates").bind f.doubles with
  | none => rfl
  | some rates => exact labels_shown rates s.labels

theorem alerts_mainBlock (jsonResponse : List (String × JSON Number)) (s : ViewController) :
    (mainBlock f jsonResponse s).alerts = s.alerts := by
  unfold mainBlock
  cases (jsonResponse.lookup "rates").bind f.doubles <;> rfl

theorem latest_concat (applied : List (List (String × Double))) (rates : List (String × Double))
    (c : Currency) :
    latest f (applied ++ [rates]) c =
      (rates.lookup c.code).elim (latest f applied c) (f.label c) := by
  simp only [latest, List.reverse_concat, List.findSome?_cons]
  cases rates.lookup c.code <;> rfl

/-- One more block, with or without rates. -/
theorem latest_mainBlock {ran : List (List (String × JSON Number))} {s : ViewController}
    (shown : ∀ c, s.labels c = latest f (ran.filterMap (ratesOf f)) c)
    (jsonResponse : List (String × JSON Number)) (c : Currency) :
    (mainBlock f jsonResponse s).labels c =
      latest f ((ran ++ [jsonResponse]).filterMap (ratesOf f)) c := by
  rw [labels_mainBlock, List.filterMap_append]
  cases given : ratesOf f jsonResponse with
  | none => simpa [given] using shown c
  | some rates =>
    have one : [jsonResponse].filterMap (ratesOf f) = [rates] := by simp [given]
    rw [one, latest_concat, ← shown c, Option.elim_some]

/-- The labels show the rates of the blocks that ran, and the alerts are the errors. -/
structure UpToDate (f : Foundation Data Number Double)
    (s : MainQueue.App ViewController Unit (Response Data) (List (String × JSON Number))) :
    Prop where
  labels : ∀ c, s.screen.labels c = latest f (s.ran.filterMap (ratesOf f)) c
  alerts : s.screen.alerts = s.finished.filterMap fun completion => completion.2.alert

theorem upToDate_run (f : Foundation Data Number Double)
    (es : List (MainQueue.Event Unit (Response Data))) :
    UpToDate f (run (MainQueue.step (program f)) start es) := by
  have begun : UpToDate f start := ⟨fun c => rfl, rfl⟩
  refine MainQueue.invariant_of_moves (fun s h => ⟨h.labels, h.alerts⟩) (fun s e t h moved => ?_)
    begun es
  cases moved with
  | tap result =>
    cases result
    exact ⟨h.labels, h.alerts⟩
  | @complete index response request screen block pending result =>
    obtain ⟨labels, alerts, _⟩ := completed_spec result
    refine ⟨fun c => (congrFun labels c).trans (h.labels c), ?_⟩
    have last : [(request, response)].filterMap (fun completion => completion.2.alert) =
        response.alert.toList := by
      cases alert : response.alert <;> simp [alert]
    simp only [MainQueue.App.completed, List.filterMap_append, last, alerts, h.alerts]
  | @block jsonResponse rest waiting =>
    exact ⟨latest_mainBlock h.labels jsonResponse, (alerts_mainBlock _ _).trans h.alerts⟩

/-- A run traps exactly where a response is parsed to something else than a dictionary. -/
theorem requests_trap_iff (f : Foundation Data Number Double)
    (es : List (MainQueue.Event Unit (Response Data))) :
    (run (MainQueue.step (program f)) start es).trapped = false ↔
      Always (MainQueue.step (program f)) (fun s e _ => GivesDictionary f s e) start es := by
  rw [MainQueue.running_iff rfl]
  refine always_congr _ (fun s e => ?_) start es
  cases e with
  | tap | block => exact iff_of_true (by simp [MainQueue.Safe, program]) trivial
  | complete index response =>
    have same : ∀ request, (program f).complete s.screen request response =
        completed f response s.screen := fun _ => rfl
    simp only [MainQueue.Safe, GivesDictionary, same, completed_isSome_iff]
    constructor
    · exact fun safe inside => safe () (List.getElem?_eq_getElem inside)
    · exact fun gives request pending => gives (List.getElem?_eq_some_iff.mp pending).1

/-- Every dictionary is applied once, in the order in which the requests complete, and
every error leads to an alert. In between each label shows the last rate applied to it
and, when no block waits, the last that any response had for it. All this ends with the
first response that is parsed to something else than a dictionary. -/
theorem rates_applied_in_order (f : Foundation Data Number Double)
    (es : List (MainQueue.Event Unit (Response Data))) :
    let s := run (MainQueue.step (program f)) start es
    s.requests.length + s.finished.length = s.started.length ∧
      s.ran ++ s.blocks = s.finished.filterMap (fun completion => completion.2.dictionary f) ∧
      s.screen.alerts = s.finished.filterMap (fun completion => completion.2.alert) ∧
      (∀ c, s.screen.labels c = latest f (s.ran.filterMap (ratesOf f)) c) ∧
      (s.blocks = [] → ∀ c, s.screen.labels c =
        latest f (s.finished.filterMap fun completion => completion.2.rates f) c) ∧
      (s.trapped = false ↔
        Always (MainQueue.step (program f)) (fun s e _ => GivesDictionary f s e) start es) := by
  intro s
  have once : (s.requests ++ s.finished.map Prod.fst).Perm s.started :=
    MainQueue.completesOnce_run (program f) {} es
  have shown : UpToDate f s := upToDate_run f es
  have order : MainQueue.InOrder (fun _ response => response.dictionary f) s := by
    refine MainQueue.inOrder_run (program f) (fun screen request response later block result => ?_)
      {} es
    exact (completed_spec (f := f) (s := screen) result).2.2
  refine ⟨by simpa using once.length_eq, order, shown.alerts, shown.labels, fun none_waits c => ?_,
    requests_trap_iff f es⟩
  rw [MainQueue.InOrder, none_waits, List.append_nil] at order
  rw [shown.labels c, order, List.filterMap_filterMap]
  simp only [rates_eq]

end Requests

/-- Two texts the server may send: an empty array, and a rate for one currency only.
Numbers are whole here, and a `Double` prints with its decimal. -/
def sample : Foundation String ℕ ℕ where
  jsonObject
    | "[]" => some (.array [])
    | "\x7b\"rates\":\x7b\"CAD\":2\x7d\x7d" =>
      some (.object [("rates", .object [("CAD", .number 2)])])
    | _ => none
  asDouble := some
  description n := toString n ++ ".0"

/-- One label shows its rate and the other five keep their texts. -/
theorem single_rate_applied :
    ¬ ∀ (response : Response String) (s : ViewController), AllOrNothing sample response s := by
  intro every
  obtain ⟨t, finishes, shown | kept⟩ :=
    every (.data "\x7b\"rates\":\x7b\"CAD\":2\x7d\x7d") {}
  · obtain ⟨rates, given, shows⟩ := shown
    obtain ⟨rate, found, _⟩ := shows .CHF
    have single : [("CAD", 2)] = rates := Option.some.inj given
    subst single
    have missing : List.lookup Currency.CHF.code [("CAD", 2)] = none := by decide
    cases missing.symm.trans found
  · have same := congrFun kept .CAD
    rw [← Option.some.inj finishes] at same
    revert same
    decide

example : (handled sample (.data "[]") {}).isNone := by decide

end CurrencyRates
