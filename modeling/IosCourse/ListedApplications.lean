import Mathlib.Logic.Function.Basic
import IosCourse.ContextJournal
import IosCourse.ListedContext

/-!
# Applications with a list and a screen for one record

Such an application lists the records of a context in two arrays. A row or an add button
leads to a second screen, which may insert a record and save; a row can be deleted. How
the two screens look and what they do besides is left open: an application is given by
the functions that its events call, and it conforms if these keep to what the events
rely on. Then no event traps, the arrays stay aligned with the context, the context
changes by insertions, deletions, saves and restarts alone, and every record is the one
that some second screen held when it was saved.
-/

namespace ListedApplications

open GuardedRuns ManagedContext ParallelArrays ListedContext ContextJournal

variable {App Table Screen Object Title : Type}

/-- What the table of a list shows, and one round of the loop that fills its arrays. -/
structure ListView (Table Object Title : Type) where
  title : Object → Option Title
  id : Object → Option ℕ
  titles : Table → List Title
  ids : Table → List ℕ
  rows : Table → ℕ
  observers : Table → ℕ
  clear : Table → Table
  append : Table → Object → Table

namespace ListView
variable (view : ListView Table Object Title)

def Shows (c : Context Object) (table : Table) : Prop :=
  ListedContext.Shows view.title view.id c (view.titles table) (view.ids table) (view.rows table)

structure SameRows (before after : Table) : Prop where
  titles : view.titles after = view.titles before
  ids : view.ids after = view.ids before
  rows : view.rows after = view.rows before
  observers : view.observers after = view.observers before

/-- Each round casts the title and the identifier on their own and reloads the table. -/
structure Fills : Prop where
  titles_clear : ∀ table, view.titles (view.clear table) = []
  ids_clear : ∀ table, view.ids (view.clear table) = []
  rows_clear : ∀ table, view.rows (view.clear table) = view.rows table
  observers_clear : ∀ table, view.observers (view.clear table) = view.observers table
  titles_append : ∀ table o,
    view.titles (view.append table o) = view.titles table ++ (view.title o).toList
  ids_append : ∀ table o, view.ids (view.append table o) = view.ids table ++ (view.id o).toList
  observers_append : ∀ table o, view.observers (view.append table o) = view.observers table
  reloads : ∀ table o,
    (view.titles (view.append table o)).length = (view.ids (view.append table o)).length →
      view.rows (view.append table o) = (view.titles (view.append table o)).length

variable {view}

theorem SameRows.shows {c : Context Object} {before after : Table}
    (same : view.SameRows before after) (h : view.Shows c before) : view.Shows c after := by
  rwa [Shows, same.titles, same.ids, same.rows]

namespace Fills
variable (fills : view.Fills)
include fills

theorem titles_foldl (results : List Object) (table : Table) :
    view.titles (results.foldl view.append table) =
      view.titles table ++ results.filterMap view.title := by
  induction results generalizing table with
  | nil => simp
  | cons o rest ih =>
    rw [List.foldl_cons, ih, fills.titles_append, List.append_assoc]
    cases title : view.title o <;> simp [title]

theorem ids_foldl (results : List Object) (table : Table) :
    view.ids (results.foldl view.append table) =
      view.ids table ++ results.filterMap view.id := by
  induction results generalizing table with
  | nil => simp
  | cons o rest ih =>
    rw [List.foldl_cons, ih, fills.ids_append, List.append_assoc]
    cases id : view.id o <;> simp [id]

theorem observers_foldl (results : List Object) (table : Table) :
    view.observers (results.foldl view.append table) = view.observers table := by
  induction results generalizing table with
  | nil => rfl
  | cons o rest ih => rw [List.foldl_cons, ih, fills.observers_append]

/-- The last round tells the table how many rows there are. -/
theorem rows_foldl {results : List Object} (nonempty : results ≠ []) {table : Table}
    (aligned : (view.titles (results.foldl view.append table)).length =
      (view.ids (results.foldl view.append table)).length) :
    view.rows (results.foldl view.append table) =
      (view.titles (results.foldl view.append table)).length := by
  rw [← List.dropLast_append_getLast nonempty, List.foldl_concat] at aligned ⊢
  exact fills.reloads _ _ aligned

variable {c : Context Object} {next : ℕ}

theorem shows_filled (titled : Titled view.title view.id next c) (nonempty : c.objects ≠ [])
    (order : FetchOrder Object) (table : Table) :
    view.Shows c ((c.fetch order fun _ => true).foldl view.append (view.clear table)) := by
  have listed := lists_fetch titled order
  have found : (c.fetch order fun _ => true) ≠ [] := by
    intro nothing
    have perm := c.fetch_all_perm order
    rw [nothing] at perm
    exact nonempty (List.nil_perm.mp perm)
  have titles := fills.titles_foldl (c.fetch order fun _ => true) (view.clear table)
  have ids := fills.ids_foldl (c.fetch order fun _ => true) (view.clear table)
  rw [fills.titles_clear, List.nil_append] at titles
  rw [fills.ids_clear, List.nil_append] at ids
  refine ⟨by rwa [titles, ids], fills.rows_foldl found ?_⟩
  rw [titles, ids]
  exact listed.length_eq

/-- A screen that is filled anew, or is left alone when a fetch finds nothing, shows the
context if it did so before in case there is nothing to find. -/
theorem shows_refreshed (titled : Titled view.title view.id next c) {order : FetchOrder Object}
    {before after : Table}
    (refreshed : after = (c.fetch order fun _ => true).foldl view.append (view.clear before) ∨
      (c.fetch order fun _ => true) = [] ∧ after = before)
    (empty : c.objects = [] → view.Shows c before) : view.Shows c after := by
  by_cases nothing : c.objects = []
  · have found : (c.fetch order fun _ => true) = [] := by
      have perm := c.fetch_all_perm order
      rw [nothing] at perm
      exact List.perm_nil.mp perm
    have shown := empty nothing
    rcases refreshed with rfl | ⟨_, rfl⟩
    · have rows : view.rows before = 0 := ListedContext.Shows.rows_eq_zero shown nothing
      rw [found, List.foldl_nil]
      refine ⟨?_, ?_⟩
      · rw [fills.titles_clear, fills.ids_clear, nothing]
        exact lists_nil
      · rw [fills.rows_clear, fills.titles_clear, rows, List.length_nil]
    · exact shown
  · rcases refreshed with rfl | ⟨found, _⟩
    · exact fills.shows_filled titled nothing order before
    · have perm := c.fetch_all_perm order
      rw [found] at perm
      exact absurd (List.nil_perm.mp perm) nothing

end Fills

end ListView

/-- The functions that the events of an application call, and the parts of its state. -/
structure Application (App Table Screen Object Title : Type) extends
    ListView Table Object Title where
  valid : Object → Bool
  context : App → Context Object
  nextUUID : App → ℕ
  list : App → Table
  details : App → Option Screen
  trapped : App → Bool
  update : App → Context Object → ℕ → Table → Option Screen → App
  loaded : Table
  getData : FetchOrder Object → Context Object → Table → Table
  appear : Table → Table
  cellForRowAt : ℕ → Table → Option Title
  didSelectRowAt : ℕ → Table → Option Table
  addButtonClicked : Table → Table
  removeRow : ℕ → Table → Option Table
  viewDidLoad : FetchOrder Object → Context Object → Table → Option Screen
  saving : Option Screen → Option Screen
  record : ℕ → Screen → Object

/-- `edit` stands for all that changes the second screen only. -/
inductive Event (Screen Object : Type) where
  | launch (order : FetchOrder Object)
  | viewDidLoad (order : FetchOrder Object)
  | viewWillAppear
  | cellForRowAt (row : ℕ)
  | didSelectRowAt (row : ℕ) (order : FetchOrder Object)
  | addButtonClicked (order : FetchOrder Object)
  | commitDelete (row : ℕ) (order : FetchOrder Object) (error : Bool)
  | edit (change : Screen → Screen)
  | save (error : Bool) (orders : ℕ → FetchOrder Object)
  | back

def Event.launches : Event Screen Object → Bool
  | .launch _ => true
  | _ => false

namespace Application
variable (app : Application App Table Screen Object Title)

def withList (s : App) (list : Table) : App :=
  app.update s (app.context s) (app.nextUUID s) list (app.details s)

def withDetails (s : App) (details : Option Screen) : App :=
  app.update s (app.context s) (app.nextUUID s) (app.list s) details

def withContext (s : App) (context : Context Object) : App :=
  app.update s context (app.nextUUID s) (app.list s) (app.details s)

def performSegue (order : FetchOrder Object) (list : Table) (s : App) : Option App := do
  let details ← app.viewDidLoad order (app.context s) list
  return app.update s (app.context s) (app.nextUUID s) list (some details)

/-- The notification reaches `getData` once for each registration. -/
def post (orders : ℕ → FetchOrder Object) (context : Context Object) (list : Table) : Table :=
  (List.range (app.observers list)).foldl (fun list n => app.getData (orders n) context list) list

variable [DecidableEq Object]

/-- The loop over the fetched objects, left at the first deletion. -/
def deleteLoop (row : ℕ) (error : Bool) (s : App) : List Object → Option App
  | [] => some s
  | result :: rest =>
    match app.id result with
    | none => deleteLoop row error s rest
    | some id => do
      let shown ← (app.ids (app.list s))[row]?
      if id = shown then
        let context := (app.context s).delete result
        let list ← app.removeRow row (app.list s)
        return app.update s (context.save app.valid error) (app.nextUUID s) list (app.details s)
      else deleteLoop row error s rest

def commitDelete (row : ℕ) (order : FetchOrder Object) (error : Bool) (s : App) :
    Option App := do
  let id ← (app.ids (app.list s))[row]?
  deleteLoop app row error s ((app.context s).fetch order fun o => app.id o = some id)

def save (error : Bool) (orders : ℕ → FetchOrder Object) (s : App) : App :=
  match app.saving (app.details s) with
  | none => s
  | some screen =>
    let context := ((app.context s).insert (app.record (app.nextUUID s) screen)).save
      app.valid error
    app.update s context (app.nextUUID s + 1) (app.post orders context (app.list s))
      (app.details s)

def perform (s : App) : Event Screen Object → Option App
  | .launch order =>
    let context := (app.context s).reset
    some (app.update s context (app.nextUUID s) (app.getData order context app.loaded) none)
  | .viewDidLoad order =>
    some (app.withList s (app.getData order (app.context s) (app.list s)))
  | .viewWillAppear => some (app.withList s (app.appear (app.list s)))
  | .cellForRowAt row =>
    if row < app.rows (app.list s) then (app.cellForRowAt row (app.list s)).map fun _ => s
    else some s
  | .didSelectRowAt row order =>
    if row < app.rows (app.list s) ∧ 0 < app.observers (app.list s) then do
      let list ← app.didSelectRowAt row (app.list s)
      app.performSegue order list s
    else some s
  | .addButtonClicked order =>
    if 0 < app.observers (app.list s) then
      app.performSegue order (app.addButtonClicked (app.list s)) s
    else some s
  | .commitDelete row order error =>
    if row < app.rows (app.list s) then app.commitDelete row order error s else some s
  | .edit change => some (app.withDetails s ((app.details s).map change))
  | .save error orders => some (app.save error orders s)
  | .back => some (app.withDetails s none)

/-- The record behind a row. -/
def recordAt (s : App) (row : ℕ) : Option Object :=
  ((app.ids (app.list s))[row]?).bind fun id =>
    (app.context s).objects.find? fun o => app.id o = some id

def operations (s : App) : Event Screen Object → List (Operation Object)
  | .launch _ => [.reset]
  | .commitDelete row _ error =>
    if row < app.rows (app.list s) then
      (app.recordAt s row).elim [] fun o => [.delete o, .save error]
    else []
  | .save error _ =>
    (app.saving (app.details s)).elim [] fun screen =>
      [.insert (app.record (app.nextUUID s) screen), .save error]
  | _ => []

/-- The screen from which the record with an identifier was entered. -/
def enteredStep (s : App) (e : Event Screen Object) (entered : ℕ → Option Screen) :
    ℕ → Option Screen :=
  match e with
  | .save _ _ => (app.saving (app.details s)).elim entered fun screen =>
    Function.update entered (app.nextUUID s) (some screen)
  | _ => entered

/-- Every record of the context and the store is that of the screen it was entered on. -/
def Genuine (s : App) (entered : ℕ → Option Screen) : Prop :=
  ∀ o ∈ (app.context s).all, ∃ n screen, entered n = some screen ∧ o = app.record n screen

end Application

/-- What the events rely on. All records are `good`, which includes a title. -/
structure Conforms (app : Application App Table Screen Object Title) (good : Object → Prop) :
    Prop where
  fills : app.Fills
  titled : ∀ o, good o → (app.title o).isSome
  context_update : ∀ s c n t d, app.context (app.update s c n t d) = c
  nextUUID_update : ∀ s c n t d, app.nextUUID (app.update s c n t d) = n
  list_update : ∀ s c n t d, app.list (app.update s c n t d) = t
  details_update : ∀ s c n t d, app.details (app.update s c n t d) = d
  trapped_update : ∀ s c n t d, app.trapped (app.update s c n t d) = app.trapped s
  loaded : app.titles app.loaded = [] ∧ app.ids app.loaded = [] ∧ app.rows app.loaded = 0
  refreshed : ∀ order c table,
    app.getData order c table =
        (c.fetch order fun _ => true).foldl app.append (app.clear table) ∨
      (c.fetch order fun _ => true) = [] ∧ app.getData order c table = table
  appear : ∀ table, app.titles (app.appear table) = app.titles table ∧
    app.ids (app.appear table) = app.ids table ∧ app.rows (app.appear table) = app.rows table ∧
      0 < app.observers (app.appear table)
  cells : ∀ row table, app.cellForRowAt row table = (app.titles table)[row]?
  selects : ∀ row table title id, (app.titles table)[row]? = some title →
    (app.ids table)[row]? = some id → ∃ selected, app.didSelectRowAt row table = some selected ∧
      app.SameRows table selected ∧
      ∀ order c, ∃ screen, app.viewDidLoad order c selected = some screen
  adds : ∀ table, app.SameRows table (app.addButtonClicked table) ∧
    ∀ order c, ∃ screen, app.viewDidLoad order c (app.addButtonClicked table) = some screen
  removes : ∀ row table, row < (app.titles table).length →
    (app.titles table).length = (app.ids table).length →
    ∃ removed, app.removeRow row table = some removed ∧
      app.titles removed = (app.titles table).eraseIdx row ∧
      app.ids removed = (app.ids table).eraseIdx row ∧
      app.rows removed = (app.titles removed).length ∧
      app.observers removed = app.observers table
  saving : ∀ details screen, app.saving details = some screen → details = some screen
  id_record : ∀ n screen, app.id (app.record n screen) = some n
  good_record : ∀ n screen, good (app.record n screen)

section Conforming
variable {app : Application App Table Screen Object Title} {good : Object → Prop}

/-- The process runs, all records are registered and listed, and the second screen was
opened from a list that had appeared. -/
structure Sound (app : Application App Table Screen Object Title) (good : Object → Prop)
    (s : App) : Prop where
  running : app.trapped s = false
  registered : (app.context s).Registered app.id good (app.nextUUID s)
  shows : app.Shows (app.context s) (app.list s)
  appeared : (app.details s).isSome → 0 < app.observers (app.list s)

section Lists
variable (conforms : Conforms app good)
include conforms

theorem titled_of_registered {c : Context Object} {next : ℕ}
    (h : c.Registered app.id good next) : Titled app.title app.id next c :=
  h.weaken conforms.titled

theorem shows_getData {c : Context Object} {next : ℕ} (h : c.Registered app.id good next)
    (order : FetchOrder Object) {table : Table} (empty : c.objects = [] → app.Shows c table) :
    app.Shows c (app.getData order c table) :=
  conforms.fills.shows_refreshed (titled_of_registered conforms h)
    (conforms.refreshed order c table) empty

theorem observers_getData (order : FetchOrder Object) (c : Context Object) (table : Table) :
    app.observers (app.getData order c table) = app.observers table := by
  rcases conforms.refreshed order c table with filled | ⟨_, same⟩
  · rw [filled, conforms.fills.observers_foldl, conforms.fills.observers_clear]
  · rw [same]

theorem shows_post {c : Context Object} {next : ℕ} (h : c.Registered app.id good next)
    (nonempty : c.objects ≠ []) (orders : ℕ → FetchOrder Object) {table : Table}
    (appeared : 0 < app.observers table) :
    app.Shows c (app.post orders c table) ∧
      app.observers (app.post orders c table) = app.observers table := by
  obtain ⟨n, before, kept, last⟩ := refresh_last
    (fun n table => app.getData (orders n) c table)
    (fun other => app.observers other = app.observers table)
    (fun n other same => (observers_getData conforms ..).trans same) appeared rfl
  rw [Application.post, last]
  exact ⟨shows_getData conforms h _ fun empty => absurd empty nonempty,
    (observers_getData conforms ..).trans kept⟩

/-- Rebuilding a state keeps it sound if what it is rebuilt from is. -/
theorem sound_update {s : App} (running : app.trapped s = false) {c : Context Object} {n : ℕ}
    {table : Table} {details : Option Screen} (registered : c.Registered app.id good n)
    (shows : app.Shows c table) (appeared : details.isSome → 0 < app.observers table) :
    Sound app good (app.update s c n table details) where
  running := by rwa [conforms.trapped_update]
  registered := by rwa [conforms.context_update, conforms.nextUUID_update]
  shows := by rwa [conforms.context_update, conforms.list_update]
  appeared := by rwa [conforms.details_update, conforms.list_update]

theorem sound_performSegue {s : App} (h : Sound app good s) {list : Table}
    (same : app.SameRows (app.list s) list) (appeared : 0 < app.observers (app.list s))
    {order : FetchOrder Object}
    (opens : ∃ screen, app.viewDidLoad order (app.context s) list = some screen) :
    ∃ t, app.performSegue order list s = some t ∧ Sound app good t := by
  obtain ⟨screen, opened⟩ := opens
  refine ⟨_, by rw [Application.performSegue, opened]; rfl, ?_⟩
  exact sound_update conforms h.running h.registered (same.shows h.shows)
    fun _ => same.observers ▸ appeared

theorem sound_save {s : App} (h : Sound app good s) (error : Bool)
    (orders : ℕ → FetchOrder Object) : Sound app good (app.save error orders s) := by
  unfold Application.save
  split
  · exact h
  · rename_i screen saving
    have opened : (app.details s).isSome := by
      rw [conforms.saving _ _ saving]
      rfl
    have registered := registered_insert h.registered (conforms.id_record (app.nextUUID s) screen)
      (conforms.good_record _ _) app.valid error
    obtain ⟨shows, observers⟩ :=
      shows_post conforms registered (by simp) orders (h.appeared opened)
    exact sound_update conforms h.running registered shows fun _ => observers ▸ h.appeared opened

end Lists

variable {s : App}

/-- The record found by an identifier is the one that has it. -/
theorem find_id {id : Object → Option ℕ} {c : Context Object} (distinct : c.Distinct id)
    {o : Object} (mem : o ∈ c.objects) {n : ℕ} (known : id o = some n) :
    c.objects.find? (fun p => id p = some n) = some o := by
  cases found : c.objects.find? fun p => id p = some n with
  | none =>
    have unknown := List.find?_eq_none.mp found o mem
    simp [known] at unknown
  | some p =>
    have same : id p = some n := by simpa using List.find?_some found
    rw [distinct.eq_of_key (Context.mem_all_of_mem_objects (List.mem_of_find?_eq_some found))
      (Context.mem_all_of_mem_objects mem) (same.trans known.symm)]

/-- The record behind a row is known by the identifier of the row. -/
theorem id_of_recordAt {row : ℕ} {o : Object} {n : ℕ} (found : app.recordAt s row = some o)
    (known : app.id o = some n) : (app.ids (app.list s))[row]? = some n := by
  obtain ⟨k, identified, behind⟩ := Option.bind_eq_some_iff.mp found
  have same : app.id o = some k := by simpa using List.find?_some behind
  rw [identified, ← same, known]

theorem recordAt_eq (h : Sound app good s) {row : ℕ} {o : Object}
    (mem : o ∈ (app.context s).objects) {n : ℕ}
    (identified : (app.ids (app.list s))[row]? = some n) (known : app.id o = some n) :
    app.recordAt s row = some o := by
  rw [Application.recordAt, identified, Option.bind_some]
  exact find_id h.registered.distinct mem known

/-- An insertion is made by the save button, from the screen that it is on. -/
theorem save_of_insert {e : Event Screen Object} {o : Object}
    (inserted : .insert o ∈ app.operations s e) : ∃ error orders screen,
      e = .save error orders ∧ app.saving (app.details s) = some screen ∧
        o = app.record (app.nextUUID s) screen := by
  cases e with
  | save error orders =>
    cases saving : app.saving (app.details s) with
    | none => simp [Application.operations, saving] at inserted
    | some screen =>
      obtain rfl : o = app.record (app.nextUUID s) screen := by
        simpa [Application.operations, saving] using inserted
      exact ⟨error, orders, screen, rfl, rfl, rfl⟩
  | commitDelete row order error =>
    simp only [Application.operations] at inserted
    split at inserted
    · cases found : app.recordAt s row <;> simp [found] at inserted
    · cases inserted
  | launch order => simp [Application.operations] at inserted
  | _ => cases inserted

/-- A deletion is made at the row of its record. -/
theorem commitDelete_of_delete {e : Event Screen Object} {o : Object}
    (deletes : .delete o ∈ app.operations s e) : ∃ row order error,
      e = .commitDelete row order error ∧ row < app.rows (app.list s) ∧
        app.recordAt s row = some o := by
  cases e with
  | commitDelete row order error =>
    simp only [Application.operations] at deletes
    split at deletes
    · rename_i asked
      cases found : app.recordAt s row with
      | none => simp [found] at deletes
      | some other =>
        obtain rfl : o = other := by simpa [found] using deletes
        exact ⟨row, order, error, rfl, asked, found⟩
    · cases deletes
  | save error orders =>
    cases saving : app.saving (app.details s) <;>
      simp [Application.operations, saving] at deletes
  | launch order => simp [Application.operations] at deletes
  | _ => cases deletes

/-- What holds of every screen that is saved holds of all screens that were. -/
theorem entered_enteredStep {holds : Screen → Prop} {entered : ℕ → Option Screen}
    (old : ∀ n, ∀ screen ∈ entered n, holds screen)
    (now : ∀ screen ∈ app.saving (app.details s), holds screen) (e : Event Screen Object) :
    ∀ n, ∀ screen ∈ app.enteredStep s e entered n, holds screen := by
  intro n screen known
  cases e with
  | save error orders =>
    rw [Application.enteredStep] at known
    cases saving : app.saving (app.details s) with
    | none =>
      rw [saving] at known
      exact old n screen known
    | some typed =>
      rw [saving, Option.elim_some] at known
      by_cases here : n = app.nextUUID s
      · rw [here, Function.update_self] at known
        exact now screen (saving.trans known)
      · rw [Function.update_of_ne here] at known
        exact old n screen known
  | _ => exact old n screen known

variable [DecidableEq Object]

/-- A deletion removes the row, deletes its record, and saves. -/
theorem commitDelete_eq (h : Sound app good s) {row : ℕ} (asked : row < app.rows (app.list s))
    {o : Object} (mem : o ∈ (app.context s).objects)
    (behind : app.id o = (app.ids (app.list s))[row]?) {list : Table}
    (removes : app.removeRow row (app.list s) = some list) (order : FetchOrder Object)
    (error : Bool) :
    app.commitDelete row order error s = some (app.update s
      (((app.context s).delete o).save app.valid error) (app.nextUUID s) list
      (app.details s)) := by
  obtain ⟨_, _, _, id, _, identified, _, _⟩ := ListedContext.Shows.record_of_row h.shows asked
  rw [identified] at behind
  have found : (app.context s).fetch order (fun p => app.id p = some id) = [o] := by
    rw [← behind]
    exact h.registered.distinct.fetch_eq mem order
  simp only [Application.commitDelete, identified, Option.bind_eq_bind, Option.bind_some, found,
    Application.deleteLoop, behind, removes, if_true]
  rfl

section Events
variable (conforms : Conforms app good)
include conforms

theorem removeRow_shows (h : Sound app good s) {row : ℕ} (asked : row < app.rows (app.list s))
    {o : Object} (mem : o ∈ (app.context s).objects)
    (behind : app.id o = (app.ids (app.list s))[row]?) (error : Bool) :
    ∃ list, app.removeRow row (app.list s) = some list ∧
      app.Shows (((app.context s).delete o).save app.valid error) list ∧
      app.observers list = app.observers (app.list s) := by
  have bound : row < (app.titles (app.list s)).length := by
    have counted := h.shows.counted
    omega
  obtain ⟨list, removes, titles, ids, rows, observers⟩ :=
    conforms.removes row (app.list s) bound h.shows.listed.length_eq
  have shows := ListedContext.Shows.delete h.shows
    (titled_of_registered conforms h.registered) asked mem behind app.valid error
  refine ⟨list, removes, ⟨?_, rows⟩, observers⟩
  rw [titles, ids]
  exact shows.listed

/-- A deletion removes exactly the record that its row shows. -/
theorem rowRemoved_of_commitDelete (h : Sound app good s) {row : ℕ}
    (asked : row < app.rows (app.list s)) {order : FetchOrder Object} {error : Bool} {t : App}
    (performed : app.perform s (.commitDelete row order error) = some t) :
    RowRemoved app.title app.id row (app.titles (app.list s)) (app.ids (app.list s))
      (app.context s).objects (app.titles (app.list t)) (app.ids (app.list t))
      (app.context t).objects := by
  obtain ⟨o, mem, behind⟩ := ListedContext.Shows.behind_row h.shows asked
  have bound : row < (app.titles (app.list s)).length := by
    have counted := h.shows.counted
    omega
  obtain ⟨list, removes, titles, ids, _⟩ :=
    conforms.removes row (app.list s) bound h.shows.listed.length_eq
  have deletes := (if_pos asked).symm.trans performed
  rw [commitDelete_eq h asked mem behind removes order error] at deletes
  obtain rfl := Option.some.inj deletes
  rw [conforms.list_update, conforms.context_update, titles, ids]
  exact ListedContext.Shows.rowRemoved h.shows asked mem behind
    (titled_of_registered conforms h.registered) app.valid error

/-- Every event is handled without a trap, and what is handled keeps the arrays aligned. -/
theorem perform_sound (h : Sound app good s) (e : Event Screen Object) :
    ∃ t, app.perform s e = some t ∧ Sound app good t := by
  cases e with
  | launch order =>
    have registered := h.registered.of_subperm
      (Context.all_reset_sublist (c := app.context s)).subperm
    have loaded : (app.context s).reset.objects = [] →
        app.Shows (app.context s).reset app.loaded := by
      intro empty
      obtain ⟨titles, ids, rows⟩ := conforms.loaded
      refine ⟨?_, by rw [rows, titles, List.length_nil]⟩
      rw [titles, ids, empty]
      exact lists_nil
    have shows := shows_getData conforms registered order loaded
    exact ⟨_, rfl, sound_update conforms h.running registered shows fun opened => by cases opened⟩
  | viewDidLoad order =>
    refine ⟨_, rfl, sound_update conforms h.running h.registered
      (shows_getData conforms h.registered order fun _ => h.shows) fun opened => ?_⟩
    rw [observers_getData conforms]
    exact h.appeared opened
  | viewWillAppear =>
    obtain ⟨titles, ids, rows, observers⟩ := conforms.appear (app.list s)
    refine ⟨_, rfl, sound_update conforms h.running h.registered ?_ fun _ => observers⟩
    rw [ListView.Shows, titles, ids, rows]
    exact h.shows
  | cellForRowAt row =>
    simp only [Application.perform]
    split
    · rename_i asked
      obtain ⟨_, _, title, _, found, _⟩ := ListedContext.Shows.record_of_row h.shows asked
      exact ⟨s, by rw [conforms.cells, found, Option.map_some], h⟩
    · exact ⟨s, rfl, h⟩
  | didSelectRowAt row order =>
    by_cases delivered : row < app.rows (app.list s) ∧ 0 < app.observers (app.list s)
    · obtain ⟨_, _, title, id, titled, identified, _, _⟩ :=
        ListedContext.Shows.record_of_row h.shows delivered.1
      obtain ⟨list, selected, same, opens⟩ := conforms.selects row _ title id titled identified
      obtain ⟨t, opened, sound⟩ :=
        sound_performSegue conforms h same delivered.2 (opens order (app.context s))
      refine ⟨t, ?_, sound⟩
      rw [Application.perform, if_pos delivered, selected]
      exact opened
    · exact ⟨s, if_neg delivered, h⟩
  | addButtonClicked order =>
    simp only [Application.perform]
    split
    · rename_i appeared
      obtain ⟨same, opens⟩ := conforms.adds (app.list s)
      exact sound_performSegue conforms h same appeared (opens order (app.context s))
    · exact ⟨s, rfl, h⟩
  | commitDelete row order error =>
    simp only [Application.perform]
    split
    · rename_i asked
      obtain ⟨o, mem, behind⟩ := ListedContext.Shows.behind_row h.shows asked
      obtain ⟨list, removes, shows, observers⟩ :=
        removeRow_shows conforms h asked mem behind error
      refine ⟨_, commitDelete_eq h asked mem behind removes order error, ?_⟩
      exact sound_update conforms h.running (registered_delete h.registered o app.valid error)
        shows fun opened => observers ▸ h.appeared opened
    · exact ⟨s, rfl, h⟩
  | edit change =>
    exact ⟨_, rfl, sound_update conforms h.running h.registered h.shows
      fun opened => h.appeared (by simpa using opened)⟩
  | save error orders => exact ⟨_, rfl, sound_save conforms h error orders⟩
  | back =>
    exact ⟨_, rfl, sound_update conforms h.running h.registered h.shows
      fun opened => by cases opened⟩

/-- Every event changes the context by its operations alone. -/
theorem context_perform (h : Sound app good s) {e : Event Screen Object} {t : App}
    (performed : app.perform s e = some t) : app.context t =
      run (ContextJournal.perform app.valid) (app.context s) (app.operations s e) := by
  have segue : ∀ {order list u}, app.performSegue order list s = some u →
      app.context u = app.context s := by
    intro order list u opened
    obtain ⟨details, _, same⟩ := Option.bind_eq_some_iff.mp opened
    cases same
    exact conforms.context_update ..
  cases e with
  | launch order =>
    cases performed
    exact conforms.context_update ..
  | viewDidLoad order | viewWillAppear | edit change | back =>
    cases performed
    exact conforms.context_update ..
  | cellForRowAt row =>
    simp only [Application.perform] at performed
    split at performed
    · obtain ⟨_, _, rfl⟩ := Option.map_eq_some_iff.mp performed
      rfl
    · cases performed
      rfl
  | didSelectRowAt row order =>
    simp only [Application.perform] at performed
    split at performed
    · obtain ⟨list, _, opened⟩ := Option.bind_eq_some_iff.mp performed
      exact segue opened
    · cases performed
      rfl
  | addButtonClicked order =>
    simp only [Application.perform] at performed
    split at performed
    · exact segue performed
    · cases performed
      rfl
  | commitDelete row order error =>
    simp only [Application.perform, Application.operations] at performed ⊢
    split at performed
    · rename_i asked
      obtain ⟨o, mem, _, n, _, identified, _, known⟩ :=
        ListedContext.Shows.record_of_row h.shows asked
      have behind : app.id o = (app.ids (app.list s))[row]? := known.trans identified.symm
      obtain ⟨list, removes, _, _⟩ := removeRow_shows conforms h asked mem behind error
      rw [commitDelete_eq h asked mem behind removes] at performed
      cases performed
      rw [if_pos asked, recordAt_eq h mem identified known, conforms.context_update]
      rfl
    · rename_i beyond
      cases performed
      rw [if_neg beyond]
      rfl
  | save error orders =>
    cases performed
    simp only [Application.save, Application.operations]
    cases app.saving (app.details s) with
    | none => rfl
    | some screen => exact conforms.context_update ..

/-- Every record that is or may come back is that of the screen it was entered on. -/
theorem genuine_perform (h : Sound app good s)
    {entered : ℕ → Option Screen} (genuine : app.Genuine s entered) {e : Event Screen Object}
    {t : App} (performed : app.perform s e = some t) :
    app.Genuine t (app.enteredStep s e entered) := by
  intro o mem
  rw [context_perform conforms h performed] at mem
  rcases mem_all_run mem with old | inserted
  · obtain ⟨n, screen, known, same⟩ := genuine o old
    refine ⟨n, screen, ?_, same⟩
    obtain ⟨m, bound, issued⟩ := h.registered.issued o old
    rw [same, conforms.id_record] at issued
    obtain rfl : n = m := Option.some.inj issued
    cases e with
    | save error orders =>
      rw [Application.enteredStep]
      cases app.saving (app.details s) with
      | none => exact known
      | some typed => exact (Function.update_of_ne (Nat.ne_of_lt bound) _ _).trans known
    | _ => exact known
  · obtain ⟨error, orders, screen, rfl, saving, same⟩ := save_of_insert inserted
    exact ⟨app.nextUUID s, screen, by simp [Application.enteredStep, saving], same⟩

end Events

end Conforming

end ListedApplications
