import Mathlib.Data.List.InsertIdx
import Mathlib.Data.List.Nodup
import Mathlib.Data.List.Perm.Basic

/-!
# Two arrays that list the same records

A screen can keep the titles and the identifiers of its rows in two arrays of
their own. They are aligned with a collection of records if both are read off one
arrangement of these records, and they stay aligned if the same index is removed
from both and the record behind it from the collection.
-/

namespace ParallelArrays

universe u v w
variable {Record : Type u} {Title : Type v} {Id : Type w}
variable {title : Record → Option Title} {id : Record → Option Id}
variable {titles : List Title} {ids : List Id} {records : List Record}

/-- `remove(at:)` traps at an index out of range. -/
def removeAt (row : ℕ) (entries : List Title) : Option (List Title) :=
  if row < entries.length then some (entries.eraseIdx row) else none

/-- Row by row the arrays show the records, in the order of `shown`. -/
def Lists (title : Record → Option Title) (id : Record → Option Id) (titles : List Title)
    (ids : List Id) (records : List Record) : Prop :=
  ∃ shown : List Record, shown.Perm records ∧
    shown.map title = titles.map some ∧ shown.map id = ids.map some

/-- What alignment says row by row. -/
structure Aligned (title : Record → Option Title) (id : Record → Option Id)
    (titles : List Title) (ids : List Id) (records : List Record) : Prop where
  lengths : titles.length = ids.length
  rows : ∀ (i : ℕ) (t : Title) (k : Id), titles[i]? = some t → ids[i]? = some k →
    ∃ r ∈ records, id r = some k ∧ title r = some t
  once : (ids.map some).Perm (records.map id)
  distinct : ids.Nodup

/-- The row, and the record that it shows, are gone; the others are as before. -/
structure RowRemoved (title : Record → Option Title) (id : Record → Option Id) (row : ℕ)
    (titles : List Title) (ids : List Id) (records : List Record) (titles' : List Title)
    (ids' : List Id) (records' : List Record) : Prop where
  titleGone : titles' = titles.eraseIdx row
  idGone : ids' = ids.eraseIdx row
  record : ∃ r, id r = ids[row]? ∧ title r = titles[row]? ∧ (r :: records').Perm records

theorem map_eq_of_isSome {f : Record → Option Title} {found : List Record}
    (h : ∀ r ∈ found, (f r).isSome) : found.map f = (found.filterMap f).map some := by
  induction found with
  | nil => rfl
  | cons r rest ih =>
    rw [List.forall_mem_cons] at h
    obtain ⟨t, ht⟩ := Option.isSome_iff_exists.mp h.1
    simp [ht, ih h.2]

/-- Arrays filled in one pass are aligned if no cast fails. -/
theorem lists_filterMap {found : List Record} (perm : found.Perm records)
    (titled : ∀ r ∈ records, (title r).isSome) (identified : ∀ r ∈ records, (id r).isSome) :
    Lists title id (found.filterMap title) (found.filterMap id) records :=
  ⟨found, perm, map_eq_of_isSome fun r mem => titled r (perm.mem_iff.mp mem),
    map_eq_of_isSome fun r mem => identified r (perm.mem_iff.mp mem)⟩

theorem lists_nil : Lists title id [] [] [] := ⟨[], .refl _, rfl, rfl⟩

theorem getElem?_of_map {shown : List Record} {f : Record → Option Title} {ts : List Title}
    (same : shown.map f = ts.map some) {i : ℕ} {t : Title} (h : ts[i]? = some t) :
    ∃ r, shown[i]? = some r ∧ f r = some t := by
  have mapped : (shown.map f)[i]? = some (some t) := by rw [same, List.getElem?_map, h]; rfl
  rw [List.getElem?_map] at mapped
  exact Option.map_eq_some_iff.mp mapped

theorem getElem?_map_of {shown : List Record} {f : Record → Option Title} {ts : List Title}
    (same : shown.map f = ts.map some) {i : ℕ} {r : Record} (h : shown[i]? = some r) :
    f r = ts[i]? := by
  have mapped : (ts.map some)[i]? = some (f r) := by rw [← same, List.getElem?_map, h]; rfl
  rw [List.getElem?_map] at mapped
  obtain ⟨t, found, ht⟩ := Option.map_eq_some_iff.mp mapped
  rw [found, ht]

namespace Lists
variable (h : Lists title id titles ids records)
include h

theorem length_eq : titles.length = ids.length := by
  obtain ⟨shown, _, ht, hi⟩ := h
  have lt := congrArg List.length ht
  have li := congrArg List.length hi
  simp only [List.length_map] at lt li
  omega

theorem length_records : titles.length = records.length := by
  obtain ⟨shown, perm, ht, _⟩ := h
  have lt := congrArg List.length ht
  have lp := perm.length_eq
  simp only [List.length_map] at lt
  omega

theorem of_perm {others : List Record} (same : records.Perm others) :
    Lists title id titles ids others := by
  obtain ⟨shown, perm, ht, hi⟩ := h
  exact ⟨shown, perm.trans same, ht, hi⟩

theorem ids_perm : (ids.map some).Perm (records.map id) := by
  obtain ⟨shown, perm, _, hi⟩ := h
  rw [← hi]
  exact perm.map id

/-- The record behind a row. -/
theorem record_of_row {row : ℕ} {k : Id} (found : ids[row]? = some k) :
    ∃ r ∈ records, id r = some k ∧ title r = titles[row]? := by
  obtain ⟨shown, perm, ht, hi⟩ := h
  obtain ⟨r, hr, hk⟩ := getElem?_of_map hi found
  exact ⟨r, perm.mem_iff.mp (List.mem_of_getElem? hr), hk, getElem?_map_of ht hr⟩

/-- The row of a record. -/
theorem row_of_record {r : Record} (mem : r ∈ records) :
    ∃ row : ℕ, titles[row]? = title r ∧ ids[row]? = id r := by
  obtain ⟨shown, perm, ht, hi⟩ := h
  obtain ⟨row, found⟩ := List.mem_iff_getElem?.mp (perm.mem_iff.mpr mem)
  exact ⟨row, (getElem?_map_of ht found).symm, (getElem?_map_of hi found).symm⟩

theorem aligned (distinct : (records.map id).Nodup) : Aligned title id titles ids records where
  lengths := h.length_eq
  rows := by
    intro i t k ht hk
    obtain ⟨r, mem, same, named⟩ := h.record_of_row hk
    exact ⟨r, mem, same, by rw [named, ht]⟩
  once := h.ids_perm
  distinct := List.Nodup.of_map some (h.ids_perm.nodup_iff.mpr distinct)

/-- Removing a row from both arrays removes its record. -/
theorem eraseIdx (distinct : (records.map id).Nodup) {row : ℕ} {k : Id}
    (found : ids[row]? = some k) {r : Record} (mem : r ∈ records) (behind : id r = some k)
    {rest : List Record} (removed : (r :: rest).Perm records) :
    Lists title id (titles.eraseIdx row) (ids.eraseIdx row) rest := by
  obtain ⟨shown, perm, ht, hi⟩ := h
  obtain ⟨r', hr', hk⟩ := getElem?_of_map hi found
  obtain rfl : r' = r := List.inj_on_of_nodup_map distinct
    (perm.mem_iff.mp (List.mem_of_getElem? hr')) mem (hk.trans behind.symm)
  obtain ⟨bound, rfl⟩ := List.getElem?_eq_some_iff.mp hr'
  refine ⟨shown.eraseIdx row, ?_, ?_, ?_⟩
  · exact List.Perm.cons_inv
      (((List.getElem_cons_eraseIdx_perm bound).trans perm).trans removed.symm)
  · rw [← List.eraseIdx_map, ht, List.eraseIdx_map]
  · rw [← List.eraseIdx_map, hi, List.eraseIdx_map]

end Lists

end ParallelArrays
