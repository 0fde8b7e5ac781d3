import IosCourse.GuardedRuns
import IosCourse.ManagedContext

/-!
# What a context loses when its process ends

All that an application does to a context is a sequence of insertions, deletions,
saves and restarts. The persistent store is always what the context held right after
the last save that did not throw, so that is what a restart goes back to.
-/

namespace ContextJournal

open GuardedRuns ManagedContext

universe u v w
variable {Object : Type u} [DecidableEq Object] {valid : Object → Bool}

inductive Operation (Object : Type u) where
  | insert (o : Object)
  | delete (o : Object)
  | save (error : Bool)
  | reset

def perform (valid : Object → Bool) (c : Context Object) : Operation Object → Context Object
  | .insert o => c.insert o
  | .delete o => c.delete o
  | .save error => c.save valid error
  | .reset => c.reset

/-- The objects that the context held after the last save that did not throw. -/
def remember (valid : Object → Bool) (c : Context Object) (operation : Operation Object)
    (saved : List Object) : List Object :=
  match operation with
  | .save error => if c.saves valid error then c.objects else saved
  | _ => saved

theorem store_perform_perm {c : Context Object} {saved : List Object}
    (h : c.store.Perm saved) (operation : Operation Object) :
    (perform valid c operation).store.Perm (remember valid c operation saved) := by
  cases operation with
  | insert o => exact h
  | delete o => exact Context.store_delete_perm.trans h
  | save error =>
    by_cases written : c.saves valid error = true
    · simp [perform, remember, written, Context.store_save_of_saves written]
    · simpa [perform, remember, written, Context.store_save_of_throws written] using h
  | reset => simpa [perform, remember, Context.reset, Context.store] using h

/-- Nothing gets into a context or its store but by an insertion. -/
theorem mem_all_perform {c : Context Object} {operation : Operation Object} {o : Object}
    (mem : o ∈ (perform valid c operation).all) : o ∈ c.all ∨ operation = .insert o := by
  cases operation with
  | insert p =>
    rcases List.mem_cons.mp (Context.all_insert_perm.mem_iff.mp mem) with rfl | old
    · exact Or.inr rfl
    · exact Or.inl old
  | delete p => exact Or.inl (Context.all_delete_subperm.subset mem)
  | save error => exact Or.inl ((Context.all_save_sublist valid error).subset mem)
  | reset => exact Or.inl (Context.all_reset_sublist.subset mem)

theorem mem_all_run {c : Context Object} {operations : List (Operation Object)} {o : Object}
    (mem : o ∈ (run (perform valid) c operations).all) :
    o ∈ c.all ∨ .insert o ∈ operations := by
  induction operations generalizing c with
  | nil => exact Or.inl mem
  | cons operation rest ih =>
    rcases ih mem with before | later
    · rcases mem_all_perform before with old | rfl
      · exact Or.inl old
      · exact Or.inr List.mem_cons_self
    · exact Or.inr (List.mem_cons_of_mem _ later)

/-- A stored object that stays in the context is lost by nothing but its deletion. -/
theorem mem_committed_perform {c : Context Object} {operation : Operation Object} {o : Object}
    (mem : o ∈ c.committed) (kept : operation ≠ .delete o) :
    o ∈ (perform valid c operation).committed := by
  cases operation with
  | insert p => exact mem
  | delete p =>
    have other : o ≠ p := fun same => kept (same ▸ rfl)
    simp only [perform, Context.delete]
    split
    · exact mem
    · split
      · exact (List.mem_erase_of_ne other).mpr mem
      · exact mem
  | save error =>
    simp only [perform, Context.save]
    split
    · exact List.mem_append_left _ mem
    · exact mem
  | reset => exact List.mem_append_left _ mem

theorem mem_committed_run {c : Context Object} {operations : List (Operation Object)} {o : Object}
    (mem : o ∈ c.committed) (kept : .delete o ∉ operations) :
    o ∈ (run (perform valid) c operations).committed := by
  induction operations generalizing c with
  | nil => exact mem
  | cons operation rest ih =>
    have other : operation ≠ .delete o := fun same => kept (same ▸ List.mem_cons_self)
    exact ih (mem_committed_perform mem other) fun later => kept (List.mem_cons_of_mem _ later)

/-- Whatever has been stored was valid when it was saved. -/
theorem valid_store_perform {c : Context Object} (h : ∀ o ∈ c.store, valid o = true)
    (operation : Operation Object) : ∀ o ∈ (perform valid c operation).store, valid o = true := by
  cases operation with
  | insert p => exact h
  | delete p => exact fun o mem => h o (Context.store_delete_perm.mem_iff.mp mem)
  | save error =>
    by_cases written : c.saves valid error = true
    · rw [perform, Context.store_save_of_saves written]
      have inserted : ∀ o ∈ c.inserted, valid o = true := by
        simp only [Context.saves, Bool.and_eq_true, List.all_eq_true] at written
        exact written.2
      intro o mem
      rcases List.mem_append.mp mem with old | new
      · exact h o (List.mem_append_left _ old)
      · exact inserted o new
    · rwa [perform, Context.store_save_of_throws written]
  | reset => simpa [perform, Context.reset, Context.store] using h

/-- One step of an application that performs several operations. -/
def rememberAll (valid : Object → Bool) (c : Context Object)
    (operations : List (Operation Object)) (saved : List Object) : List Object :=
  (run (together (perform valid) (remember valid)) (c, saved) operations).2

theorem store_run_perm {c : Context Object} {saved : List Object} (h : c.store.Perm saved)
    (operations : List (Operation Object)) :
    (run (perform valid) c operations).store.Perm (rememberAll valid c operations saved) := by
  have kept := @invariant_free_run _ _ (together (perform valid) (remember valid))
    (fun p : Context Object × List Object => p.1.store.Perm p.2)
    (fun _ operation held => store_perform_perm held operation) (c, saved) h operations
  rwa [run_together_fst] at kept

section Applications
variable {App : Type v} {Event : Type w} {step : App → Event → App} {inv : App → Prop}
variable {context : App → Context Object} {operations : App → Event → List (Operation Object)}

/-- The companion of an application that does nothing to its context but operations. -/
def rememberStep (valid : Object → Bool) (context : App → Context Object)
    (operations : App → Event → List (Operation Object)) (s : App) (e : Event)
    (saved : List Object) : List Object :=
  rememberAll valid (context s) (operations s e) saved

/-- In every run of such an application the store holds what was saved last. -/
theorem store_perm_of_run (kept : ∀ s e, inv s → inv (step s e))
    (performs : ∀ s e, inv s →
      context (step s e) = run (perform valid) (context s) (operations s e))
    {s : App} (start : inv s) {saved : List Object} (h : (context s).store.Perm saved)
    (es : List Event) :
    (context (run step s es)).store.Perm
      (run (together step (rememberStep valid context operations)) (s, saved) es).2 := by
  have reached := @invariant_free_run _ _
    (together step (rememberStep valid context operations))
    (fun p : App × List Object => inv p.1 ∧ (context p.1).store.Perm p.2)
    (by
      rintro p e ⟨good, held⟩
      refine ⟨kept p.1 e good, ?_⟩
      rw [together_fst, together_snd, performs p.1 e good]
      exact store_run_perm held (operations p.1 e))
    (s, saved) ⟨start, h⟩ es
  rw [run_together_fst] at reached
  exact reached.2

end Applications

end ContextJournal
