import Mathlib.Data.List.Nodup
import Mathlib.Data.List.Perm.Subperm

/-!
# A context of managed objects

A context stands between an application and its persistent store. Insertions and
deletions are pending in the context until it is saved, and a fetch already sees
them. A save validates all pending insertions; when it throws, it writes nothing
and everything stays pending. A fetch without sort descriptors returns its
results in an arbitrary order, which may differ from one fetch to the next.
-/

namespace ManagedContext

universe u v
variable {Object : Type u} {Key : Type v}

/-- Stored objects that the context keeps, its pending insertions, and stored
objects whose deletion is pending. -/
structure Context (Object : Type u) where
  committed : List Object
  inserted : List Object
  deleted : List Object
  deriving DecidableEq

/-- The order in which a fetch returns what it has found. -/
structure FetchOrder (Object : Type u) where
  arrange : List Object → List Object
  perm : ∀ found, (arrange found).Perm found

def FetchOrder.unchanged : FetchOrder Object := ⟨id, fun _ => .refl _⟩

namespace Context

def empty : Context Object := ⟨[], [], []⟩

/-- What a fetch sees. -/
def objects (c : Context Object) : List Object := c.committed ++ c.inserted

/-- What the persistent store holds. -/
def store (c : Context Object) : List Object := c.committed ++ c.deleted

def all (c : Context Object) : List Object := c.objects ++ c.deleted

def fetch (order : FetchOrder Object) (predicate : Object → Bool) (c : Context Object) :
    List Object :=
  order.arrange (c.objects.filter predicate)

def insert (o : Object) (c : Context Object) : Context Object :=
  { c with inserted := c.inserted ++ [o] }

/-- The context of a new process. -/
def reset (c : Context Object) : Context Object := ⟨c.store, [], []⟩

/-- `error` stands for a failure that is not one of validation. -/
def saves (valid : Object → Bool) (error : Bool) (c : Context Object) : Bool :=
  !error && c.inserted.all valid

/-- A save that throws leaves the context as it is. -/
def save (valid : Object → Bool) (error : Bool) (c : Context Object) : Context Object :=
  if c.saves valid error then ⟨c.objects, [], []⟩ else c

section Delete
variable [DecidableEq Object]

/-- Deleting a pending insertion undoes it; any other deletion is pending. -/
def delete (o : Object) (c : Context Object) : Context Object :=
  if o ∈ c.inserted then { c with inserted := c.inserted.erase o }
  else if o ∈ c.committed then
    { c with committed := c.committed.erase o, deleted := c.deleted ++ [o] }
  else c

end Delete

variable {c : Context Object} {o : Object}

theorem mem_fetch {order : FetchOrder Object} {predicate : Object → Bool} :
    o ∈ c.fetch order predicate ↔ o ∈ c.objects ∧ predicate o = true := by
  rw [fetch, (order.perm _).mem_iff, List.mem_filter]

theorem fetch_all_perm (order : FetchOrder Object) :
    (c.fetch order fun _ => true).Perm c.objects := by
  simpa [fetch] using order.perm c.objects

theorem mem_all_of_mem_objects (h : o ∈ c.objects) : o ∈ c.all := List.mem_append_left _ h

theorem mem_all_of_mem_store (h : o ∈ c.store) : o ∈ c.all := by
  rcases List.mem_append.mp h with kept | going
  · exact List.mem_append_left _ (List.mem_append_left _ kept)
  · exact List.mem_append_right _ going

@[simp] theorem objects_insert : (c.insert o).objects = c.objects ++ [o] := by
  simp [objects, insert]

/-- A pending insertion does not reach the store by itself. -/
@[simp] theorem store_insert : (c.insert o).store = c.store := rfl

theorem all_insert_perm : (c.insert o).all.Perm (o :: c.all) := by
  rw [all, objects_insert, List.append_assoc]
  exact List.perm_middle

@[simp] theorem objects_save (valid : Object → Bool) (error : Bool) :
    (c.save valid error).objects = c.objects := by
  unfold save
  split
  · simp [objects]
  · rfl

theorem all_save_sublist (valid : Object → Bool) (error : Bool) :
    (c.save valid error).all.Sublist c.all := by
  have kept : (c.save valid error).deleted.Sublist c.deleted := by
    unfold save
    split
    · exact List.nil_sublist _
    · exact List.Sublist.refl _
  rw [all, objects_save]
  exact kept.append_left _

theorem store_save_of_saves {valid : Object → Bool} {error : Bool} (h : c.saves valid error) :
    (c.save valid error).store = c.objects := by
  simp [save, h, store]

theorem store_save_of_throws {valid : Object → Bool} {error : Bool}
    (h : ¬ c.saves valid error) : (c.save valid error).store = c.store := by
  simp [save, h]

@[simp] theorem objects_reset : c.reset.objects = c.store := List.append_nil _

theorem all_reset_sublist : c.reset.all.Sublist c.all := by
  rw [all, objects_reset, show c.reset.deleted = [] from rfl, List.append_nil]
  exact (List.sublist_append_left c.committed c.inserted).append_right c.deleted

section Delete
variable [DecidableEq Object]

/-- An object that is deleted is gone from the results of fetches at once. -/
theorem objects_delete_perm (h : o ∈ c.objects) : (o :: (c.delete o).objects).Perm c.objects := by
  unfold delete
  split
  · rename_i pending
    refine (@List.perm_middle _ o c.committed (c.inserted.erase o)).symm.trans ?_
    exact (List.perm_cons_erase pending).symm.append_left _
  · rename_i settled
    have kept : o ∈ c.committed := (List.mem_append.mp h).resolve_right settled
    rw [if_pos kept]
    exact (List.perm_cons_erase kept).symm.append_right _

/-- It stays in the store until the context is saved. -/
theorem store_delete_perm : (c.delete o).store.Perm c.store := by
  unfold delete
  split
  · rfl
  · split
    · rename_i kept
      have moved : (c.committed.erase o ++ (c.deleted ++ [o])).Perm
          (o :: c.committed.erase o ++ c.deleted) := by
        rw [← List.append_assoc]
        exact List.perm_append_singleton o _
      exact moved.trans ((List.perm_cons_erase kept).symm.append_right _)
    · rfl

theorem all_delete_subperm : (c.delete o).all.Subperm c.all := by
  unfold delete
  split
  · exact ((List.erase_sublist.append_left _).append_right _).subperm
  · split
    · rename_i kept
      have moved : (c.committed.erase o ++ c.inserted ++ (c.deleted ++ [o])).Perm
          (o :: c.committed.erase o ++ c.inserted ++ c.deleted) := by
        rw [← List.append_assoc]
        exact List.perm_append_singleton o _
      have restored := ((List.perm_cons_erase kept).symm.append_right c.inserted)
      exact (moved.trans (restored.append_right _)).subperm
    · exact List.Subperm.refl _

end Delete

section Keys
variable {key : Object → Key}

/-- No two objects of the context or of the store have the same key. -/
def Distinct (key : Object → Key) (c : Context Object) : Prop := (c.all.map key).Nodup

theorem Distinct.of_subperm {d : Context Object} (h : Distinct key c)
    (fewer : d.all.Subperm c.all) : Distinct key d := by
  obtain ⟨kept, same, sublist⟩ := fewer
  exact (same.map key).nodup_iff.mp (h.sublist (sublist.map key))

theorem Distinct.insert (h : Distinct key c) (fresh : key o ∉ c.all.map key) :
    Distinct key (c.insert o) :=
  (all_insert_perm.map key).nodup_iff.mpr (List.nodup_cons.mpr ⟨fresh, h⟩)

theorem Distinct.eq_of_key {p : Object} (h : Distinct key c) (ho : o ∈ c.all) (hp : p ∈ c.all)
    (same : key o = key p) : o = p :=
  List.inj_on_of_nodup_map h ho hp same

/-- The objects with the key of a given one are that object alone. -/
theorem Distinct.fetch_eq (h : Distinct key c) [DecidableEq Key] (ho : o ∈ c.objects)
    (order : FetchOrder Object) : c.fetch order (fun p => key p = key o) = [o] := by
  have single : ∀ p ∈ c.fetch order (fun p => key p = key o), p = o := by
    intro p mem
    obtain ⟨hp, same⟩ := mem_fetch.mp mem
    exact h.eq_of_key (mem_all_of_mem_objects hp) (mem_all_of_mem_objects ho) (by simpa using same)
  have found : o ∈ c.fetch order (fun p => key p = key o) := mem_fetch.mpr ⟨ho, by simp⟩
  have nodup : (c.fetch order (fun p => key p = key o)).Nodup := by
    have objects : c.objects.Nodup :=
      (List.Nodup.of_map key h).sublist (List.sublist_append_left ..)
    exact (order.perm _).nodup_iff.mpr (objects.filter _)
  have copies := List.eq_replicate_of_mem single
  rw [copies] at nodup found ⊢
  have atMostOne := List.nodup_replicate.mp nodup
  have atLeastOne := List.length_pos_of_mem found
  rw [List.length_replicate] at atLeastOne
  rw [show (c.fetch order fun p => key p = key o).length = 1 by omega]
  rfl

/-- A saved insertion reaches the store unless the save throws, whichever pending
insertion is to blame. -/
theorem mem_store_insert_save_iff {valid : Object → Bool} {error : Bool} (new : o ∉ c.all)
    (accepted : valid o) :
    o ∈ ((c.insert o).save valid error).store ↔ error = false ∧ c.inserted.all valid := by
  have saved : (c.insert o).saves valid error ↔ error = false ∧ c.inserted.all valid := by
    simp [saves, insert, accepted]
  rw [← saved]
  by_cases h : (c.insert o).saves valid error = true
  · rw [store_save_of_saves h, objects_insert]
    simp [h]
  · rw [store_save_of_throws h, store_insert]
    exact ⟨fun stored => absurd (mem_all_of_mem_store stored) new, fun throws => absurd throws h⟩

/-- The deletion of a stored object reaches the store unless the save throws. -/
theorem Distinct.deleted_iff [DecidableEq Object] (h : Distinct key c) (seen : o ∈ c.objects)
    (stored : o ∈ c.store) {valid : Object → Bool} {error : Bool} :
    (∀ p ∈ ((c.delete o).save valid error).store, key p ≠ key o) ↔
      error = false ∧ c.inserted.all valid := by
  have settled : o ∉ c.inserted := by
    intro pending
    have nodup := List.Nodup.of_map key h
    rw [all, objects, List.append_assoc] at nodup
    rcases List.mem_append.mp stored with kept | going
    · exact List.disjoint_of_nodup_append nodup kept (List.mem_append_left _ pending)
    · exact List.disjoint_of_nodup_append (List.nodup_append.mp nodup).2.1 pending going
  have same : (c.delete o).inserted = c.inserted := by
    unfold delete
    rw [if_neg settled]
    split <;> rfl
  have saved : (c.delete o).saves valid error ↔ error = false ∧ c.inserted.all valid := by
    simp [saves, same]
  rw [← saved]
  by_cases written : (c.delete o).saves valid error = true
  · rw [store_save_of_saves written]
    refine ⟨fun _ => written, ?_⟩
    intro _ p mem equal
    have perm := objects_delete_perm seen
    have nodup : c.objects.Nodup := (List.Nodup.of_map key h).sublist (List.sublist_append_left ..)
    have gone := (List.nodup_cons.mp (perm.nodup_iff.mpr nodup)).1
    have before := mem_all_of_mem_objects (perm.subset (List.mem_cons_of_mem o mem))
    rw [h.eq_of_key before (mem_all_of_mem_objects seen) equal] at mem
    exact gone mem
  · rw [store_save_of_throws written]
    refine ⟨fun absent => ?_, fun throws => absurd throws written⟩
    exact absurd rfl (absent o (store_delete_perm.mem_iff.mpr stored))

/-- Every object has an identifier below `next`, no two have the same one, and all
objects are `good`. -/
structure Registered (id : Object → Option ℕ) (good : Object → Prop) (next : ℕ)
    (c : Context Object) : Prop where
  distinct : c.Distinct id
  issued : ∀ o ∈ c.all, ∃ n < next, id o = some n
  sound : ∀ o ∈ c.all, good o

section Registered
variable {id : Object → Option ℕ} {good : Object → Prop} {next : ℕ}

theorem registered_empty : Registered id good next empty where
  distinct := List.nodup_nil
  issued := fun _ mem => absurd mem List.not_mem_nil
  sound := fun _ mem => absurd mem List.not_mem_nil

theorem Registered.of_subperm {d : Context Object} (h : Registered id good next c)
    (fewer : d.all.Subperm c.all) : Registered id good next d where
  distinct := h.distinct.of_subperm fewer
  issued := fun o mem => h.issued o (fewer.subset mem)
  sound := fun o mem => h.sound o (fewer.subset mem)

theorem Registered.weaken {fair : Object → Prop} (h : Registered id good next c)
    (weaker : ∀ o, good o → fair o) : Registered id fair next c :=
  ⟨h.distinct, h.issued, fun o mem => weaker o (h.sound o mem)⟩

theorem Registered.ids_nodup (h : Registered id good next c) : (c.objects.map id).Nodup :=
  h.distinct.sublist ((List.sublist_append_left ..).map id)

/-- The next identifier is not in use. -/
theorem Registered.fresh (h : Registered id good next c) (fresh : id o = some next) :
    id o ∉ c.all.map id := by
  intro used
  obtain ⟨p, mem, same⟩ := List.mem_map.mp used
  obtain ⟨n, bound, issued⟩ := h.issued p mem
  rw [same, fresh, Option.some.injEq] at issued
  omega

theorem Registered.insert (h : Registered id good next c) (fresh : id o = some next)
    (accepted : good o) : Registered id good (next + 1) (c.insert o) where
  distinct := h.distinct.insert (h.fresh fresh)
  issued := by
    intro p mem
    rcases List.mem_cons.mp (all_insert_perm.mem_iff.mp mem) with rfl | old
    · exact ⟨next, by omega, fresh⟩
    · obtain ⟨n, bound, issued⟩ := h.issued p old
      exact ⟨n, by omega, issued⟩
  sound := by
    intro p mem
    rcases List.mem_cons.mp (all_insert_perm.mem_iff.mp mem) with rfl | old
    · exact accepted
    · exact h.sound p old

end Registered

end Keys

end Context

end ManagedContext
