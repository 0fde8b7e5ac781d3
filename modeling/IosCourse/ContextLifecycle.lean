import IosCourse.ContextJournal

/-!
# Saving in the background

An application that keeps its records in a context saves it once more when it leaves the
screen, if it has changes, and ends its process when that save throws. A process that has
ended is launched again and starts from the store. What such an application loses and
keeps depends only on the operations that its events perform on the context.
-/

namespace ContextLifecycle

open GuardedRuns ManagedContext ContextJournal

universe u v w
variable {Object : Type u} {App : Type v} {Event : Type w}

def hasChanges (c : Context Object) : Bool := !c.inserted.isEmpty || !c.deleted.isEmpty

/-- `none` is the fatal error after a save that throws. -/
def saveContext (valid : Object → Bool) (error : Bool) (c : Context Object) :
    Option (Context Object) :=
  if hasChanges c then
    if c.saves valid error then some (c.save valid error) else none
  else some c

/-- What the lifecycle needs to know about an application. -/
structure Host (App : Type v) (Event : Type w) (Object : Type u) where
  perform : App → Event → Option App
  launches : Event → Bool
  context : App → Context Object
  setContext : App → Context Object → App
  trapped : App → Bool
  setTrapped : App → Bool → App

inductive LifeEvent (Event : Type w) where
  | foreground (event : Event)
  | enterBackground (error : Bool)

section Step
variable (host : Host App Event Object) (valid : Object → Bool)

def perform (s : App) : LifeEvent Event → Option App
  | .foreground event => host.perform s event
  | .enterBackground error => (saveContext valid error (host.context s)).map (host.setContext s)

def revives : LifeEvent Event → Bool
  | .foreground event => host.launches event
  | .enterBackground _ => false

/-- Nothing but a launch gets an ended process going again. -/
def step (s : App) (e : LifeEvent Event) : App :=
  if host.trapped s then
    if revives host e then
      (perform host valid (host.setTrapped s false) e).getD s
    else s
  else (perform host valid s e).getD (host.setTrapped s true)

end Step

variable {valid : Object → Bool} {error : Bool} {c d : Context Object}

theorem save_of_unchanged (unchanged : hasChanges c = false) : c.save valid error = c := by
  obtain ⟨committed, inserted, deleted⟩ := c
  simp only [hasChanges, Bool.or_eq_false_iff, Bool.not_eq_false', List.isEmpty_iff] at unchanged
  obtain ⟨rfl, rfl⟩ := unchanged
  unfold Context.save
  split <;> simp [Context.objects]

/-- Saving in the background is a save, or ends the process. -/
theorem saveContext_eq_some : saveContext valid error c = some d ↔
    d = c.save valid error ∧ (hasChanges c = true → c.saves valid error = true) := by
  unfold saveContext
  cases changed : hasChanges c with
  | false => simpa [save_of_unchanged changed] using eq_comm
  | true =>
    cases written : c.saves valid error with
    | false => simp
    | true => simpa using eq_comm

theorem committed_of_saveContext (saved : saveContext valid error c = some d) :
    d.committed = c.objects := by
  obtain ⟨rfl, saves⟩ := saveContext_eq_some.mp saved
  cases changed : hasChanges c with
  | false =>
    rw [save_of_unchanged changed]
    simp only [hasChanges, Bool.or_eq_false_iff, Bool.not_eq_false', List.isEmpty_iff] at changed
    rw [Context.objects, changed.1, List.append_nil]
  | true => simp [Context.save, saves changed]

/-- With a store that works, the save in the background succeeds exactly when all that the
context shows is valid. -/
theorem saves_iff_valid (stored : ∀ o ∈ c.store, valid o = true) :
    (hasChanges c = true → c.saves valid false = true) ↔ ∀ o ∈ c.objects, valid o = true := by
  have saves_iff : c.saves valid false = true ↔ ∀ o ∈ c.inserted, valid o = true := by
    simp [Context.saves]
  rw [saves_iff]
  constructor
  · intro saves o mem
    rcases List.mem_append.mp mem with old | new
    · exact stored o (List.mem_append_left _ old)
    · have changed : hasChanges c = true := by simp [hasChanges, List.ne_nil_of_mem new]
      exact saves changed o new
  · exact fun all _ o mem => all o (List.mem_append_right _ mem)

section Operations
variable {host : Host App Event Object} {operations : App → Event → List (Operation Object)}

/-- The operations of the process that is there, if any. -/
def lifeOperations (host : Host App Event Object)
    (operations : App → Event → List (Operation Object)) (s : App) :
    LifeEvent Event → List (Operation Object)
  | .foreground event =>
    if host.trapped s then
      if host.launches event then operations (host.setTrapped s false) event else []
    else operations s event
  | .enterBackground error => if host.trapped s then [] else [.save error]

theorem delete_of_lifeOperations {s : App} {e : LifeEvent Event} {o : Object}
    (deletes : .delete o ∈ lifeOperations host operations s e) :
    ∃ event, e = .foreground event ∧ (.delete o ∈ operations s event ∨
      host.launches event = true ∧ .delete o ∈ operations (host.setTrapped s false) event) := by
  cases e with
  | foreground event =>
    refine ⟨event, rfl, ?_⟩
    cases trapped : host.trapped s with
    | false => simpa [lifeOperations, trapped] using Or.inl deletes
    | true =>
      cases launch : host.launches event with
      | false => simp [lifeOperations, trapped, launch] at deletes
      | true => exact .inr ⟨rfl, by simpa [lifeOperations, trapped, launch] using deletes⟩
  | enterBackground error =>
    cases trapped : host.trapped s <;> simp [lifeOperations, trapped] at deletes

theorem running_of_enterBackground {s : App}
    (survives : host.trapped (step host valid s (.enterBackground error)) = false) :
    host.trapped s = false := by
  cases trapped : host.trapped s with
  | false => rfl
  | true =>
    have idle : step host valid s (.enterBackground error) = s := by simp [step, trapped, revives]
    rw [idle, trapped] at survives
    cases survives

end Operations

section Lawful
variable [DecidableEq Object]

/-- While `good` holds, an event is handled without a trap and touches the context by its
operations alone, and the context may be saved at any time. -/
structure Lawful (host : Host App Event Object) (valid : Object → Bool) (good : App → Prop)
    (operations : App → Event → List (Operation Object)) : Prop where
  running : ∀ s, good s → host.trapped s = false
  performs : ∀ s e, good s → ∃ t, host.perform s e = some t ∧ good t ∧
    host.context t = run (ContextJournal.perform valid) (host.context s) (operations s e)
  saved : ∀ s error, good s → good (host.setContext s ((host.context s).save valid error))
  context_setContext : ∀ s c, host.context (host.setContext s c) = c
  context_setTrapped : ∀ s b, host.context (host.setTrapped s b) = host.context s
  trapped_setTrapped : ∀ s b, host.trapped (host.setTrapped s b) = b
  revived : ∀ s, good s → host.setTrapped (host.setTrapped s true) false = s

/-- A process that runs, or the one that it was right before it ended. -/
inductive Reached (host : Host App Event Object) (good : App → Prop) (s : App) : Prop where
  | running (h : good s)
  | ended (before : App) (h : good before) (same : s = host.setTrapped before true)

variable {host : Host App Event Object} {good : App → Prop}
variable {operations : App → Event → List (Operation Object)}

/-- The step does not end the process. -/
def StaysAlive (host : Host App Event Object) (s : App) (_e : LifeEvent Event) (t : App) : Prop :=
  host.trapped s = false → host.trapped t = false

/-- When the application enters the background, all records that it shows are valid. -/
def ShowsValid (host : Host App Event Object) (valid : Object → Bool) (s : App) :
    LifeEvent Event → Prop
  | .foreground _ => True
  | .enterBackground _ =>
    host.trapped s = false → ∀ o ∈ (host.context s).objects, valid o = true

variable (lawful : Lawful host valid good operations)
include lawful

theorem enterBackground_spec {s : App} (h : good s) (error : Bool) :
    (saveContext valid error (host.context s) = none ∧
      step host valid s (.enterBackground error) = host.setTrapped s true) ∨
    (saveContext valid error (host.context s) = some ((host.context s).save valid error) ∧
      step host valid s (.enterBackground error) =
        host.setContext s ((host.context s).save valid error)) := by
  have running := lawful.running s h
  cases result : saveContext valid error (host.context s) with
  | none => exact .inl ⟨rfl, by simp [step, perform, running, result]⟩
  | some d =>
    obtain rfl := (saveContext_eq_some.mp result).1
    exact .inr ⟨rfl, by simp [step, perform, running, result]⟩

theorem trapped_enterBackground_iff {s : App} (h : good s) (error : Bool) :
    host.trapped (step host valid s (.enterBackground error)) = false ↔
      (hasChanges (host.context s) = true → (host.context s).saves valid error = true) := by
  rcases enterBackground_spec lawful h error with ⟨throws, ends⟩ | ⟨saves, stays⟩
  · rw [ends, lawful.trapped_setTrapped]
    refine iff_of_false (by simp) fun possible => ?_
    have result := saveContext_eq_some.mpr ⟨rfl, possible⟩
    rw [throws] at result
    cases result
  · rw [stays]
    exact iff_of_true (lawful.running _ (lawful.saved s error h)) (saveContext_eq_some.mp saves).2

theorem foreground_running {s : App} (h : good s) (event : Event) :
    good (step host valid s (.foreground event)) ∧
      host.context (step host valid s (.foreground event)) =
        run (ContextJournal.perform valid) (host.context s) (operations s event) := by
  obtain ⟨t, performed, kept, context⟩ := lawful.performs s event h
  have result : step host valid s (.foreground event) = t := by
    simp [step, perform, lawful.running s h, performed]
  rw [result]
  exact ⟨kept, context⟩

theorem reached_running {s : App} (h : good s) (e : LifeEvent Event) :
    Reached host good (step host valid s e) ∧ host.context (step host valid s e) =
      run (ContextJournal.perform valid) (host.context s) (lifeOperations host operations s e) := by
  have running := lawful.running s h
  cases e with
  | foreground event =>
    obtain ⟨kept, context⟩ := foreground_running lawful h event
    exact ⟨.running kept, by simp [lifeOperations, running, context]⟩
  | enterBackground error =>
    have operation : lifeOperations host operations s (.enterBackground error) =
        [.save error] := by simp [lifeOperations, running]
    rw [operation]
    rcases enterBackground_spec lawful h error with ⟨throws, ends⟩ | ⟨saves, stays⟩
    · -- A save that throws leaves the context as it is.
      have thrown : ¬ (host.context s).saves valid error = true := by
        intro written
        have result := saveContext_eq_some.mpr
          ⟨rfl, fun _ : hasChanges (host.context s) = true => written⟩
        rw [throws] at result
        cases result
      rw [ends]
      exact ⟨.ended s h rfl, by
        simp [lawful.context_setTrapped, ContextJournal.perform, Context.save, thrown]⟩
    · rw [stays]
      exact ⟨.running (lawful.saved s error h), lawful.context_setContext _ _⟩

/-- An ended process is launched again from the state that it ended in. -/
theorem reached_ended {before : App} (h : good before) (e : LifeEvent Event) :
    let s := host.setTrapped before true
    Reached host good (step host valid s e) ∧ host.context (step host valid s e) =
      run (ContextJournal.perform valid) (host.context s) (lifeOperations host operations s e) := by
  intro s
  have trapped : host.trapped s = true := lawful.trapped_setTrapped before true
  have back : host.setTrapped s false = before := lawful.revived before h
  have context : host.context s = host.context before := lawful.context_setTrapped before true
  by_cases launch : revives host e = true
  · cases e with
    | enterBackground error => cases launch
    | foreground event =>
      obtain ⟨t, performed, kept, later⟩ := lawful.performs before event h
      have launches : host.launches event = true := launch
      have result : step host valid s (.foreground event) = t := by
        simp [step, trapped, launch, back, perform, performed]
      rw [result]
      exact ⟨.running kept, by simp [lifeOperations, trapped, launches, back, context, later]⟩
  · have idle : step host valid s e = s := by simp [step, trapped, launch]
    have nothing : lifeOperations host operations s e = [] := by
      cases e with
      | enterBackground error => simp [lifeOperations, trapped]
      | foreground event =>
        have stays : host.launches event = false := by simpa [revives] using launch
        simp [lifeOperations, trapped, stays]
    rw [idle, nothing]
    exact ⟨.ended before h rfl, rfl⟩

theorem reached_step (s : App) (e : LifeEvent Event) (h : Reached host good s) :
    Reached host good (step host valid s e) ∧ host.context (step host valid s e) =
      run (ContextJournal.perform valid) (host.context s) (lifeOperations host operations s e) := by
  cases h with
  | running h => exact reached_running lawful h e
  | ended before h same =>
    subst same
    exact reached_ended lawful h e

theorem reached_run {s : App} (h : Reached host good s) (es : List (LifeEvent Event)) :
    Reached host good (run (step host valid) s es) :=
  invariant_free_run (fun s e reached => (reached_step lawful s e reached).1) h es

theorem good_of_reached {s : App} (h : Reached host good s) (running : host.trapped s = false) :
    good s := by
  cases h with
  | running h => exact h
  | ended before h same =>
    rw [same, lawful.trapped_setTrapped] at running
    cases running

/-- What the context shows when the application enters the background is stored, and lost
by nothing but its deletion: not by an end of the process, a launch or a save that throws. -/
theorem committed_after_background {s : App} (h : good s) {error : Bool} {o : Object}
    (shown : o ∈ (host.context s).objects)
    (survives : host.trapped (step host valid s (.enterBackground error)) = false)
    {later : List (LifeEvent Event)}
    (kept : Always (step host valid)
      (fun t e _ => Operation.delete o ∉ lifeOperations host operations t e)
      (step host valid s (.enterBackground error)) later) :
    o ∈ (host.context (run (step host valid) (step host valid s (.enterBackground error))
      later)).committed := by
  have stored : o ∈ (host.context (step host valid s (.enterBackground error))).committed := by
    rcases enterBackground_spec lawful h error with ⟨_, ends⟩ | ⟨saves, stays⟩
    · rw [ends, lawful.trapped_setTrapped] at survives
      cases survives
    · rw [stays, lawful.context_setContext, committed_of_saveContext saves]
      exact shown
  have begun := (reached_step lawful s (.enterBackground error) (.running h)).1
  have reached := @invariant_run _ _ (step host valid)
    (fun t => Reached host good t ∧ o ∈ (host.context t).committed)
    (fun t e => Operation.delete o ∉ lifeOperations host operations t e) (by
      rintro t e ⟨there, mem⟩ untouched
      obtain ⟨next, context⟩ := reached_step lawful t e there
      rw [context]
      exact ⟨next, mem_committed_run mem untouched⟩) _ _ ⟨begun, stored⟩ kept
  exact reached.2

/-- Of the records that the store holds at first, and ever after, all are valid. -/
theorem valid_store_step (s : App) (e : LifeEvent Event) (h : Reached host good s)
    (stored : ∀ o ∈ (host.context s).store, valid o = true) :
    ∀ o ∈ (host.context (step host valid s e)).store, valid o = true := by
  rw [(reached_step lawful s e h).2]
  exact @invariant_free_run _ _ (ContextJournal.perform valid)
    (fun c => ∀ o ∈ c.store, valid o = true) (fun c operation h => valid_store_perform h operation)
    _ stored _

theorem staysAlive_iff {s : App} (h : Reached host good s)
    (stored : ∀ o ∈ (host.context s).store, valid o = true) {e : LifeEvent Event}
    (works : e ≠ .enterBackground true) :
    StaysAlive host s e (step host valid s e) ↔ ShowsValid host valid s e := by
  cases e with
  | foreground event =>
    refine iff_of_true (fun running => ?_) trivial
    exact lawful.running _ (foreground_running lawful (good_of_reached lawful h running) event).1
  | enterBackground error =>
    obtain rfl : error = false := by
      cases error with
      | false => rfl
      | true => exact absurd rfl works
    refine forall_congr' fun running => ?_
    have alive := good_of_reached lawful h running
    rw [trapped_enterBackground_iff lawful alive, saves_iff_valid stored]

/-- With a store that works whenever the application enters the background, each step of a
run ends the process exactly where it is one into the background and a record that is
shown is not valid. -/
theorem always_staysAlive_iff {s : App} (h : Reached host good s)
    (stored : ∀ o ∈ (host.context s).store, valid o = true) (es : List (LifeEvent Event))
    (works : ∀ e ∈ es, e ≠ .enterBackground true) :
    Always (step host valid) (fun s e t => StaysAlive host s e t ↔ ShowsValid host valid s e)
      s es := by
  refine @always_of_invariant _ _ (step host valid)
    (fun s => Reached host good s ∧ ∀ o ∈ (host.context s).store, valid o = true)
    (fun _ e => e ≠ .enterBackground true) _ (fun s e inv _ => ?_) (fun s e inv ok => ?_) s es
    ⟨h, stored⟩ (always_of_mem _ works s)
  · exact ⟨(reached_step lawful s e inv.1).1, valid_store_step lawful s e inv.1 inv.2⟩
  · exact staysAlive_iff lawful inv.1 inv.2 ok

end Lawful

end ContextLifecycle
