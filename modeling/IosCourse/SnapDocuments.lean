import Mathlib.Algebra.Order.Group.Unbundled.Int
import IosCourse.DocumentCollection

/-!
# The documents of SnapchatClone

Two Firestore collections hold the application's data: `mySnaps`, with one
document for each owner's images, and `UserInfo`, which pairs the email of an
account with a user name. Fields are untyped in the store; each reader casts.
Instants are integers that count nanoseconds, the resolution of a Firestore
timestamp.
-/

namespace SnapDocuments

open DocumentCollection

/-- A stored value, up to the casts of this program. `strings` is an array whose
elements are all strings; every value that no cast accepts is `other`. -/
inductive Value where
  | string (s : String)
  | strings (xs : List String)
  | timestamp (t : ℤ)
  | other
  deriving DecidableEq

namespace Value

/-- The cast `as? String`. -/
def asString : Value → Option String
  | .string s => some s
  | _ => none

/-- The cast `as? [String]`. -/
def asStringArray : Value → Option (List String)
  | .strings xs => some xs
  | _ => none

/-- The cast `as? Timestamp`. -/
def asTimestamp : Value → Option ℤ
  | .timestamp t => some t
  | _ => none

theorem asStringArray_eq_some {v : Value} {xs : List String} :
    v.asStringArray = some xs ↔ v = .strings xs := by
  cases v <;> simp [asStringArray]

theorem asTimestamp_eq_some {v : Value} {t : ℤ} :
    v.asTimestamp = some t ↔ v = .timestamp t := by
  cases v <;> simp [asTimestamp]

end Value

abbrev Doc := Document String Value

abbrev Store := Collection String Value

section Casts
variable (d : Doc)

def snapOwner : Option String := (d "snapOwner").bind Value.asString

def imageURLArray : Option (List String) := (d "imageURLArray").bind Value.asStringArray

def date : Option ℤ := (d "date").bind Value.asTimestamp

variable {d}

theorem imageURLArray_eq_some {urls : List String} :
    imageURLArray d = some urls ↔ d "imageURLArray" = some (.strings urls) := by
  simp [imageURLArray, Option.bind_eq_some_iff, Value.asStringArray_eq_some]

theorem date_eq_some {t : ℤ} : date d = some t ↔ d "date" = some (.timestamp t) := by
  simp [date, Option.bind_eq_some_iff, Value.asTimestamp_eq_some]

end Casts

/-- The test of `whereField("snapOwner", isEqualTo: name)`. -/
def hasOwner (name : String) (d : Doc) : Bool := d "snapOwner" = some (.string name)

/-- The owner query of the upload screen. -/
def ownedBy (store : Store) (name : String) : List (ℕ × Doc) := store.query (hasOwner name)

def additionalDictionary (urls : List String) : Doc := fun k =>
  if k = "imageURLArray" then some (.strings urls) else none

/-- A new document. `stamp` is the server's clock when it resolves the sentinel
`FieldValue.serverTimestamp()`, that is when the write reaches it. -/
def snapDictionary (urls : List String) (owner : String) (stamp : ℤ) : Doc := fun k =>
  if k = "imageURLArray" then some (.strings urls)
  else if k = "snapOwner" then some (.string owner)
  else if k = "date" then some (.timestamp stamp)
  else none

/-- The entry of an account in `UserInfo`. -/
def userDictionary (email username : String) : Doc := fun k =>
  if k = "email" then some (.string email)
  else if k = "username" then some (.string username)
  else none

/-- The test of `whereField("email", isEqualTo: email)`. -/
def hasEmail (email : String) (d : Doc) : Bool := d "email" = some (.string email)

def username (d : Doc) : Option String := (d "username").bind Value.asString

@[simp] theorem hasEmail_userDictionary (email email' name : String) :
    hasEmail email (userDictionary email' name) = decide (email' = email) := by
  simp [hasEmail, userDictionary]

theorem mem_ownedBy {store : Store} {name : String} {id : ℕ} {d : Doc} :
    (id, d) ∈ ownedBy store name ↔
      store.get? id = some d ∧ d "snapOwner" = some (.string name) := by
  simp [ownedBy, Collection.mem_query, hasOwner]

theorem ownedBy_eq_nil {store : Store} {name : String} :
    ownedBy store name = [] ↔ ∀ id, store.field id "snapOwner" ≠ some (.string name) := by
  rw [ownedBy, Collection.query_eq_nil]
  constructor
  · intro h id hid
    obtain ⟨d, hd, howner⟩ := Collection.get?_of_field hid
    simpa [hasOwner, howner] using h id d hd
  · intro h id d hd
    have := h id
    rw [Collection.field_eq hd] at this
    simpa [hasOwner] using this

@[simp] theorem additionalDictionary_urls (urls : List String) :
    additionalDictionary urls "imageURLArray" = some (.strings urls) := rfl

theorem additionalDictionary_of_ne (urls : List String) {k : String}
    (h : k ≠ "imageURLArray") : additionalDictionary urls k = none := if_neg h

theorem field_merge_additional (snaps : Store) (id i : ℕ) (urls : List String) {k : String}
    (h : k ≠ "imageURLArray") :
    (snaps.merge id (additionalDictionary urls)).field i k = snaps.field i k :=
  Collection.field_merge_of_none (additionalDictionary_of_ne urls h) id i

@[simp] theorem snapDictionary_urls (urls : List String) (owner : String) (stamp : ℤ) :
    snapDictionary urls owner stamp "imageURLArray" = some (.strings urls) := rfl

@[simp] theorem snapDictionary_owner (urls : List String) (owner : String) (stamp : ℤ) :
    snapDictionary urls owner stamp "snapOwner" = some (.string owner) := rfl

@[simp] theorem snapDictionary_date (urls : List String) (owner : String) (stamp : ℤ) :
    snapDictionary urls owner stamp "date" = some (.timestamp stamp) := rfl

def hour : ℤ := 3600 * 1000000000

def day : ℤ := 24 * hour

/-- `Calendar.current.dateComponents([.hour], from: start, to: stop).hour`. -/
def hoursBetween (start stop : ℤ) : ℤ := (stop - start).tdiv hour

theorem hoursBetween_of_le {start stop : ℤ} (h : start ≤ stop) :
    hoursBetween start stop = (stop - start) / hour :=
  Int.tdiv_eq_ediv_of_nonneg (by omega)

theorem hoursBetween_of_ge {start stop : ℤ} (h : stop ≤ start) :
    hoursBetween start stop = -((start - stop) / hour) := by
  have flip : stop - start = -(start - stop) := by omega
  rw [hoursBetween, flip, Int.neg_tdiv, Int.tdiv_eq_ediv_of_nonneg (by omega)]

/-- The expiry test `difference >= 24` holds from exactly one day on. -/
theorem expired_iff {start stop : ℤ} :
    24 ≤ hoursBetween start stop ↔ start + day ≤ stop := by
  rcases le_total start stop with h | h
  · rw [hoursBetween_of_le h]
    simp only [day, hour]
    omega
  · rw [hoursBetween_of_ge h]
    simp only [day, hour]
    omega

theorem hoursBetween_nonneg_iff {start stop : ℤ} :
    0 ≤ hoursBetween start stop ↔ start - hour < stop := by
  rcases le_total start stop with h | h
  · rw [hoursBetween_of_le h]
    simp only [hour]
    omega
  · rw [hoursBetween_of_ge h]
    simp only [hour]
    omega

end SnapDocuments
