import IosCourse.ManagedContext
import IosCourse.ParallelArrays

/-!
# A context shown in two arrays

A list screen shows the objects of a context in two parallel arrays and tells its
table view how many rows there are. This is what fetching, deleting and saving
mean for such a screen when all objects have a title and an identifier.
-/

namespace ListedContext

open ManagedContext ParallelArrays

universe u v
variable {Object : Type u} {Title : Type v} {title : Object → Option Title}
variable {id : Object → Option ℕ} {next : ℕ} {c : Context Object}

/-- All objects have a title and an identifier of their own, below `next`. -/
abbrev Titled (title : Object → Option Title) (id : Object → Option ℕ) (next : ℕ)
    (c : Context Object) : Prop :=
  c.Registered id (fun o => (title o).isSome) next

/-- The arrays are aligned with the context, and the table knows their length. -/
structure Shows (title : Object → Option Title) (id : Object → Option ℕ) (c : Context Object)
    (titles : List Title) (ids : List ℕ) (rows : ℕ) : Prop where
  listed : Lists title id titles ids c.objects
  counted : rows = titles.length

theorem shows_empty : Shows title id Context.empty [] [] 0 := ⟨lists_nil, rfl⟩

/-- What two independent casts read off a fetch of everything. -/
theorem lists_fetch (h : Titled title id next c) (order : FetchOrder Object) :
    Lists title id ((c.fetch order fun _ => true).filterMap title)
      ((c.fetch order fun _ => true).filterMap id) c.objects := by
  refine lists_filterMap (Context.fetch_all_perm order) ?_ ?_
  · exact fun o mem => h.sound o (Context.mem_all_of_mem_objects mem)
  · intro o mem
    obtain ⟨n, _, issued⟩ := h.issued o (Context.mem_all_of_mem_objects mem)
    exact Option.isSome_iff_exists.mpr ⟨n, issued⟩

theorem Shows.counted_ids {titles : List Title} {ids : List ℕ} {rows : ℕ}
    (h : Shows title id c titles ids rows) : rows = ids.length :=
  h.counted.trans h.listed.length_eq

theorem Shows.rows_eq_zero {titles : List Title} {ids : List ℕ} {rows : ℕ}
    (h : Shows title id c titles ids rows) (empty : c.objects = []) : rows = 0 := by
  have length := h.listed.length_records
  rw [empty, ← h.counted] at length
  exact length

/-- What the two arrays and the context say about a row below the count. -/
theorem Shows.record_of_row {titles : List Title} {ids : List ℕ} {rows : ℕ}
    (h : Shows title id c titles ids rows) {row : ℕ} (asked : row < rows) :
    ∃ o ∈ c.objects, ∃ t k, titles[row]? = some t ∧ ids[row]? = some k ∧
      title o = some t ∧ id o = some k := by
  have ht : row < titles.length := by rwa [h.counted] at asked
  have hk : row < ids.length := by rwa [h.counted_ids] at asked
  have found := List.getElem?_eq_getElem hk
  obtain ⟨o, mem, same, named⟩ := h.listed.record_of_row found
  rw [List.getElem?_eq_getElem ht] at named
  exact ⟨o, mem, _, _, List.getElem?_eq_getElem ht, found, named, same⟩

/-- A row below the count has a record behind it, by its identifier. -/
theorem Shows.behind_row {titles : List Title} {ids : List ℕ} {rows : ℕ}
    (h : Shows title id c titles ids rows) {row : ℕ} (asked : row < rows) :
    ∃ o ∈ c.objects, id o = ids[row]? := by
  obtain ⟨o, mem, _, k, _, found, _, same⟩ := h.record_of_row asked
  exact ⟨o, mem, same.trans found.symm⟩

section Delete
variable [DecidableEq Object] {o : Object}

theorem registered_delete {good : Object → Prop} (h : c.Registered id good next) (o : Object)
    (valid : Object → Bool) (error : Bool) :
    ((c.delete o).save valid error).Registered id good next :=
  h.of_subperm ((Context.all_save_sublist ..).subperm.trans Context.all_delete_subperm)

/-- Deleting the record behind a row and removing the row, whether or not the
deletion can be saved. -/
theorem Shows.delete {titles : List Title} {ids : List ℕ} {rows : ℕ}
    (h : Shows title id c titles ids rows) (titled : Titled title id next c) {row : ℕ}
    (asked : row < rows) (mem : o ∈ c.objects) (behind : id o = ids[row]?)
    (valid : Object → Bool) (error : Bool) :
    Shows title id ((c.delete o).save valid error) (titles.eraseIdx row) (ids.eraseIdx row)
      (titles.eraseIdx row).length := by
  obtain ⟨_, _, _, k, _, found, _, _⟩ := h.record_of_row asked
  refine ⟨?_, rfl⟩
  rw [Context.objects_save]
  exact h.listed.eraseIdx titled.ids_nodup found mem (behind.trans found)
    (Context.objects_delete_perm mem)

theorem Shows.rowRemoved {titles : List Title} {ids : List ℕ} {rows : ℕ}
    (h : Shows title id c titles ids rows) {row : ℕ} (asked : row < rows) (mem : o ∈ c.objects)
    (behind : id o = ids[row]?) (titled : Titled title id next c) (valid : Object → Bool)
    (error : Bool) :
    RowRemoved title id row titles ids c.objects (titles.eraseIdx row) (ids.eraseIdx row)
      ((c.delete o).save valid error).objects := by
  obtain ⟨p, hp, t, k, ht, hk, named, same⟩ := h.record_of_row asked
  obtain rfl : p = o := titled.distinct.eq_of_key (Context.mem_all_of_mem_objects hp)
    (Context.mem_all_of_mem_objects mem) (by rw [same, behind, hk])
  refine ⟨rfl, rfl, p, behind, by rw [named, ht], ?_⟩
  rw [Context.objects_save]
  exact Context.objects_delete_perm mem

end Delete

theorem registered_insert {good : Object → Prop} (h : c.Registered id good next) {o : Object}
    (fresh : id o = some next) (accepted : good o) (valid : Object → Bool) (error : Bool) :
    ((c.insert o).save valid error).Registered id good (next + 1) :=
  (h.insert fresh accepted).of_subperm (Context.all_save_sublist ..).subperm

/-- Refreshing a screen several times amounts to the last time, if one refresh
does not depend on the others. -/
theorem refresh_last {Screen : Type*} (refresh : ℕ → Screen → Screen) (kept : Screen → Prop)
    (keeps : ∀ n screen, kept screen → kept (refresh n screen)) {times : ℕ} (some_time : 0 < times)
    {screen : Screen} (start : kept screen) :
    ∃ n before, kept before ∧
      (List.range times).foldl (fun screen n => refresh n screen) screen = refresh n before := by
  obtain ⟨n, rfl⟩ : ∃ n, times = n + 1 := ⟨times - 1, by omega⟩
  have before := List.foldlRecOn (List.range n) (fun screen n => refresh n screen) start
    fun screen h call _ => keeps call screen h
  refine ⟨n, _, before, ?_⟩
  rw [List.range_succ, List.foldl_concat]

end ListedContext
