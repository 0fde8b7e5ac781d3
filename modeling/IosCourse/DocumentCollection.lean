import Mathlib.Data.List.AList

/-!
# A collection of schemaless documents

A document maps field names to values; a collection maps numeric identifiers to
documents and never hands out an identifier that was in use before. Writing with
merge replaces only the fields it is given, and on an identifier that is absent
it creates a document with those fields alone.
-/

namespace DocumentCollection

universe u v
variable {Field : Type u} {Value : Type v}

abbrev Document (Field : Type u) (Value : Type v) := Field → Option Value

/-- The fields of `new` win; the others are kept. -/
def overlay (old new : Document Field Value) : Document Field Value :=
  fun k => (new k).or (old k)

theorem overlay_of_none {old new : Document Field Value} {k : Field} (h : new k = none) :
    overlay old new k = old k := by
  simp [overlay, h]

theorem overlay_of_some {old new : Document Field Value} {k : Field} {v : Value}
    (h : new k = some v) : overlay old new k = some v := by
  simp [overlay, h]

/-- `fresh` keeps generated identifiers apart from all identifiers used so far. -/
structure Collection (Field : Type u) (Value : Type v) where
  docs : AList fun _ : ℕ => Document Field Value
  nextId : ℕ
  fresh : ∀ id ∈ docs, id < nextId

namespace Collection
variable (c : Collection Field Value)

def empty : Collection Field Value := ⟨∅, 0, fun id h => (AList.notMem_empty id h).elim⟩

def get? (id : ℕ) : Option (Document Field Value) := c.docs.lookup id

/-- One field of one document; absent when the document or the field is. -/
def field (id : ℕ) (k : Field) : Option Value := (c.get? id).bind (· k)

def merge (id : ℕ) (fields : Document Field Value) : Collection Field Value where
  docs := c.docs.insert id (overlay ((c.get? id).getD fun _ => none) fields)
  nextId := max c.nextId (id + 1)
  fresh := by
    intro i hi
    rcases (AList.mem_insert _).mp hi with rfl | hi
    · omega
    · have := c.fresh i hi
      omega

def add (fields : Document Field Value) : Collection Field Value where
  docs := c.docs.insert c.nextId fields
  nextId := c.nextId + 1
  fresh := by
    intro i hi
    rcases (AList.mem_insert _).mp hi with rfl | hi
    · omega
    · have := c.fresh i hi
      omega

def delete (id : ℕ) : Collection Field Value where
  docs := c.docs.erase id
  nextId := c.nextId
  fresh := fun i hi => c.fresh i (AList.mem_erase.mp hi).2

/-- The documents that satisfy `p`, each with its identifier. -/
def query (p : Document Field Value → Bool) : List (ℕ × Document Field Value) :=
  (c.docs.entries.map fun row => (row.1, row.2)).filter fun row => p row.2

/-- All documents, without their identifiers. -/
def documents : List (Document Field Value) := c.docs.entries.map fun row => row.2

@[simp] theorem get?_empty (id : ℕ) :
    (empty : Collection Field Value).get? id = none := rfl

@[simp] theorem get?_merge (id : ℕ) (fields : Document Field Value) (i : ℕ) :
    (c.merge id fields).get? i =
      if i = id then some (overlay ((c.get? id).getD fun _ => none) fields)
      else c.get? i := by
  by_cases h : i = id
  · subst h
    simp [get?, merge]
  · simp [get?, merge, h, AList.lookup_insert_ne]

@[simp] theorem get?_add (fields : Document Field Value) (i : ℕ) :
    (c.add fields).get? i = if i = c.nextId then some fields else c.get? i := by
  by_cases h : i = c.nextId
  · subst h
    simp [get?, add]
  · simp [get?, add, h, AList.lookup_insert_ne]

@[simp] theorem get?_delete (id i : ℕ) :
    (c.delete id).get? i = if i = id then none else c.get? i := by
  by_cases h : i = id
  · subst h
    simp [get?, delete]
  · simp [get?, delete, h, AList.lookup_erase_ne]

@[simp] theorem nextId_merge (id : ℕ) (fields : Document Field Value) :
    (c.merge id fields).nextId = max c.nextId (id + 1) := rfl

@[simp] theorem nextId_add (fields : Document Field Value) :
    (c.add fields).nextId = c.nextId + 1 := rfl

@[simp] theorem nextId_delete (id : ℕ) : (c.delete id).nextId = c.nextId := rfl

variable {c}

theorem lt_nextId {id : ℕ} {d : Document Field Value} (h : c.get? id = some d) :
    id < c.nextId := by
  refine c.fresh id (AList.lookup_isSome.mp ?_)
  rw [show c.docs.lookup id = some d from h]
  rfl

theorem mem_query {p : Document Field Value → Bool} {id : ℕ} {d : Document Field Value} :
    (id, d) ∈ c.query p ↔ c.get? id = some d ∧ p d = true := by
  rw [query, List.mem_filter, List.mem_map, get?, ← Option.mem_def, AList.mem_lookup_iff]
  constructor
  · rintro ⟨⟨row, hrow, heq⟩, hp⟩
    cases heq
    exact ⟨hrow, hp⟩
  · rintro ⟨hrow, hp⟩
    exact ⟨⟨⟨id, d⟩, hrow, rfl⟩, hp⟩

theorem query_eq_nil {p : Document Field Value → Bool} :
    c.query p = [] ↔ ∀ id d, c.get? id = some d → p d = false := by
  constructor
  · intro h id d hd
    by_contra hp
    have mem : (id, d) ∈ c.query p := mem_query.mpr ⟨hd, by simpa using hp⟩
    rw [h] at mem
    cases mem
  · intro h
    rw [List.eq_nil_iff_forall_not_mem]
    rintro ⟨id, d⟩ mem
    obtain ⟨hd, hp⟩ := mem_query.mp mem
    rw [h id d hd] at hp
    cases hp

/-- A query lists every identifier at most once. -/
theorem query_ids_nodup (p : Document Field Value → Bool) :
    ((c.query p).map Prod.fst).Nodup := by
  refine List.Nodup.sublist (List.filter_sublist.map Prod.fst) ?_
  rw [List.map_map]
  exact c.docs.keys_nodup

theorem documents_add (fields : Document Field Value) :
    (c.add fields).documents = fields :: c.documents := by
  have absent : c.nextId ∉ c.docs := fun h => lt_irrefl _ (c.fresh _ h)
  rw [documents, add, AList.entries_insert_of_notMem absent]
  rfl

theorem mem_documents {d : Document Field Value} :
    d ∈ c.documents ↔ ∃ id, c.get? id = some d := by
  rw [documents, List.mem_map]
  constructor
  · rintro ⟨row, mem, rfl⟩
    exact ⟨row.1, AList.mem_lookup_iff.mpr mem⟩
  · rintro ⟨id, h⟩
    exact ⟨⟨id, d⟩, AList.mem_lookup_iff.mp h, rfl⟩

theorem query_map_snd (p : Document Field Value → Bool) :
    (c.query p).map Prod.snd = c.documents.filter p := by
  simp [query, documents, List.filter_map, Function.comp_def]

/-- A merge leaves every field that it does not mention as it was, everywhere. -/
theorem field_merge_of_none {fields : Document Field Value} {k : Field}
    (h : fields k = none) (id i : ℕ) : (c.merge id fields).field i k = c.field i k := by
  by_cases hi : i = id
  · subst hi
    cases hc : c.get? i <;> simp [field, hc, overlay_of_none h]
  · simp [field, hi]

theorem field_merge_self {fields : Document Field Value} {k : Field} {v : Value}
    (h : fields k = some v) (id : ℕ) : (c.merge id fields).field id k = some v := by
  simp [field, overlay_of_some h]

theorem field_merge_of_ne {fields : Document Field Value} {id i : ℕ} (h : i ≠ id)
    (k : Field) : (c.merge id fields).field i k = c.field i k := by
  simp [field, h]

theorem field_add (fields : Document Field Value) (i : ℕ) (k : Field) :
    (c.add fields).field i k = if i = c.nextId then fields k else c.field i k := by
  by_cases h : i = c.nextId <;> simp [field, h]

theorem field_delete (id i : ℕ) (k : Field) :
    (c.delete id).field i k = if i = id then none else c.field i k := by
  by_cases h : i = id <;> simp [field, h]

theorem get?_of_field {id : ℕ} {k : Field} {v : Value} (h : c.field id k = some v) :
    ∃ d, c.get? id = some d ∧ d k = some v := by
  simpa [field, Option.bind_eq_some_iff] using h

theorem field_eq {id : ℕ} {d : Document Field Value} (h : c.get? id = some d) (k : Field) :
    c.field id k = d k := by
  simp [field, h]

end Collection

end DocumentCollection
