import IosCourse.SnapProvenance
import IosCourse.SnapExpiry

/-!
# The albums that the collection stands for

To its users SnapchatClone keeps one album for each name: an upload appends an
image to it, the first one starts it, and it disappears as a whole a day after it
was started. This is the abstract model; an upload is one atomic action in it. The
collection implements it by a query and a write that are apart in time, and it
stands for the albums exactly as long as every write that is applied is the one
that the upload would request if it made its query at that moment.
-/

namespace SnapAlbums

open DocumentCollection SnapDocuments SnapUpload SnapFeed SnapSystem SnapRaces
open SnapProvenance GuardedRuns

/-- The images of one owner, and the time of the first one. -/
structure Album where
  urls : List String
  date : ℤ
  nonempty : urls ≠ []

namespace Album

def first (url : String) (now : ℤ) : Album := ⟨[url], now, List.cons_ne_nil _ _⟩

def append (album : Album) (url : String) : Album :=
  ⟨album.urls ++ [url], album.date, List.append_ne_nil_of_right_ne_nil _ (List.cons_ne_nil _ _)⟩

end Album

abbrev Albums := String → Option Album

def noAlbums : Albums := fun _ => none

inductive Action where
  | upload (name url : String) (now : ℤ)
  | expire (name : String)

def Action.name : Action → String
  | .upload name _ _ => name
  | .expire name => name

def extended (albums : Albums) (name url : String) (now : ℤ) : Album :=
  (albums name).elim (Album.first url now) (Album.append · url)

def publish (albums : Albums) : Action → Albums
  | .upload name url now => Function.update albums name (some (extended albums name url now))
  | .expire name => Function.update albums name none

/-- An acknowledged write is an upload under the name of its flow, and a deletion
is the expiry of the album whose document it removes. -/
def performed (s : System) : Event → Option Action
  | .write n index true =>
    (nextWrite s n index).bind fun _ => (s.flows[n]?).bind fun f =>
      f.owner.map fun name => .upload name f.imageURL s.clock
  | .delete index none =>
    (s.deletes[index]?).bind fun message =>
      ((s.mySnaps.field message.2 "snapOwner").bind Value.asString).map .expire
  | _ => none

def follow (s : System) (e : Event) (albums : Albums) : Albums :=
  (performed s e).elim albums (publish albums)

def document (name : String) (album : Album) : Doc :=
  snapDictionary album.urls name album.date

/-- There is one document for each album, and nothing else. -/
structure Represents (snaps : Store) (albums : Albums) : Prop where
  sound : ∀ id d, snaps.get? id = some d →
    ∃ name album, albums name = some album ∧ d = document name album
  complete : ∀ name album, albums name = some album →
    ∃ id, snaps.get? id = some (document name album)
  one : OneDocumentPerOwner snaps

theorem represents_empty : Represents .empty noAlbums where
  sound id d present := by simp at present
  complete name album present := by cases present
  one i j name owner := by simp [Collection.field] at owner

section Representation
variable {snaps : Store} {albums : Albums}

theorem owner_of_document {id : ℕ} {name : String} {album : Album}
    (present : snaps.get? id = some (document name album)) :
    snaps.field id "snapOwner" = some (.string name) := Collection.field_eq present _

theorem document_of_owner (h : Represents snaps albums) {id : ℕ} {name : String}
    (owner : snaps.field id "snapOwner" = some (.string name)) :
    ∃ album, albums name = some album ∧ snaps.get? id = some (document name album) := by
  obtain ⟨d, present, named⟩ := Collection.get?_of_field owner
  obtain ⟨name', album, known, rfl⟩ := h.sound id d present
  cases named
  exact ⟨album, known, present⟩

theorem ownedBy_of_none (h : Represents snaps albums) {name : String}
    (absent : albums name = none) : ownedBy snaps name = [] := by
  rw [ownedBy_eq_nil]
  intro id owner
  obtain ⟨album, known, _⟩ := document_of_owner h owner
  cases absent.symm.trans known

/-- The owner query returns the document of the album and no other. -/
theorem ownedBy_of_document (h : Represents snaps albums) {name : String} {album : Album}
    {id : ℕ} (present : snaps.get? id = some (document name album)) :
    ownedBy snaps name = [(id, document name album)] := by
  have member : (id, document name album) ∈ ownedBy snaps name :=
    mem_ownedBy.mpr ⟨present, rfl⟩
  have all : ∀ row ∈ ownedBy snaps name, row = (id, document name album) := by
    rintro ⟨i, d⟩ mem
    obtain ⟨there, owner⟩ := mem_ownedBy.mp mem
    have same : i = id := h.one i id name (by rw [Collection.field_eq there, owner])
      (owner_of_document present)
    subst same
    rw [Option.some.inj (there.symm.trans present)]
  have once : (ownedBy snaps name).Nodup :=
    List.Nodup.of_map Prod.fst (Collection.query_ids_nodup _)
  exact List.perm_singleton.mp ((List.perm_ext_iff_of_nodup once (List.nodup_singleton _)).mpr
    fun row => ⟨fun mem => List.mem_singleton.mpr (all row mem),
      fun mem => List.mem_singleton.mp mem ▸ member⟩)

theorem overlay_document (name : String) (album : Album) (url : String) :
    overlay (document name album) (additionalDictionary (album.urls ++ [url])) =
      document name (album.append url) := by
  funext k
  by_cases urls : k = "imageURLArray"
  · subst urls
    rfl
  · rw [overlay_of_none (additionalDictionary_of_ne _ urls)]
    simp [document, snapDictionary, urls, Album.append]

/-- Only one document changes, and only the album of one name: whatever the document
was before, it was the document of that name, and the name had no other. -/
theorem represents_update (h : Represents snaps albums) {snaps' : Store} {name : String}
    {id : ℕ} {slot : Option Album}
    (there : snaps'.get? id = slot.map (document name))
    (others : ∀ i, i ≠ id → snaps'.get? i = snaps.get? i)
    (replaced : ∀ d, snaps.get? id = some d → d "snapOwner" = some (.string name))
    (only : ∀ i, snaps.field i "snapOwner" = some (.string name) → i = id) :
    Represents snaps' (Function.update albums name slot) := by
  have sound : ∀ i d, snaps'.get? i = some d → ∃ name' album,
      Function.update albums name slot name' = some album ∧ d = document name' album := by
    intro i d present
    by_cases same : i = id
    · subst same
      obtain ⟨album, known, rfl⟩ := Option.map_eq_some_iff.mp (there.symm.trans present)
      exact ⟨name, album, by simp [known], rfl⟩
    · rw [others i same] at present
      obtain ⟨name', album, known, rfl⟩ := h.sound i d present
      have apart : name' ≠ name := by
        rintro rfl
        exact same (only i (owner_of_document present))
      exact ⟨name', album, by simp [apart, known], rfl⟩
  have old : ∀ i name', name' ≠ name →
      snaps'.field i "snapOwner" = some (.string name') →
      snaps.field i "snapOwner" = some (.string name') := by
    intro i name' apart owner
    by_cases same : i = id
    · subst same
      obtain ⟨d, present, owned⟩ := Collection.get?_of_field owner
      obtain ⟨album, _, rfl⟩ := Option.map_eq_some_iff.mp (there.symm.trans present)
      cases owned
      exact absurd rfl apart
    · rwa [Collection.field, others i same] at owner
  have new : ∀ i, snaps'.field i "snapOwner" = some (.string name) → i = id := by
    intro i owner
    by_contra other
    rw [Collection.field, others i other] at owner
    exact other (only i owner)
  refine ⟨sound, ?_, ?_⟩
  · intro name' album known
    by_cases same : name' = name
    · subst same
      rw [Function.update_self] at known
      exact ⟨id, by rw [there, known, Option.map_some]⟩
    · rw [Function.update_of_ne same] at known
      obtain ⟨i, present⟩ := h.complete name' album known
      have other : i ≠ id := by
        rintro rfl
        cases replaced _ present
        exact same rfl
      exact ⟨i, by rw [others i other, present]⟩
  · intro i j name' hi hj
    by_cases same : name' = name
    · subst same
      rw [new i hi, new j hj]
    · exact h.one i j name' (old i name' same hi) (old j name' same hj)

theorem represents_add (h : Represents snaps albums) {name : String}
    (absent : albums name = none) (url : String) (now : ℤ) :
    Represents (snaps.add (snapDictionary [url] name now))
      (publish albums (.upload name url now)) := by
  have first : extended albums name url now = .first url now := by rw [extended, absent]; rfl
  have unowned := ownedBy_eq_nil.mp (ownedBy_of_none h absent)
  rw [publish, first]
  refine @represents_update _ _ h _ name snaps.nextId _ ?_ ?_ ?_ ?_
  · rw [Collection.get?_add, if_pos rfl]
    rfl
  · intro i other
    rw [Collection.get?_add, if_neg other]
  · intro d present
    exact absurd (Collection.lt_nextId present) (lt_irrefl _)
  · intro i owner
    exact absurd owner (unowned i)

theorem represents_merge (h : Represents snaps albums) {name : String} {album : Album}
    {id : ℕ} (known : albums name = some album)
    (present : snaps.get? id = some (document name album)) (url : String) (now : ℤ) :
    Represents (snaps.merge id (additionalDictionary (album.urls ++ [url])))
      (publish albums (.upload name url now)) := by
  have longer : extended albums name url now = album.append url := by rw [extended, known]; rfl
  rw [publish, longer]
  refine @represents_update _ _ h _ name id _ ?_ ?_ ?_ ?_
  · rw [Collection.get?_merge, if_pos rfl, present, Option.getD_some, overlay_document]
    rfl
  · intro i other
    rw [Collection.get?_merge, if_neg other]
  · rintro d there
    cases present.symm.trans there
    rfl
  · intro i owner
    exact h.one i id name owner (owner_of_document present)

theorem represents_expire (h : Represents snaps albums) {name : String} {album : Album}
    {id : ℕ} (present : snaps.get? id = some (document name album)) :
    Represents (snaps.delete id) (publish albums (.expire name)) := by
  refine @represents_update _ _ h _ name id none ?_ ?_ ?_ ?_
  · rw [Collection.get?_delete, if_pos rfl]
    rfl
  · intro i other
    rw [Collection.get?_delete, if_neg other]
  · rintro d there
    cases present.symm.trans there
    rfl
  · intro i owner
    exact h.one i id name owner (owner_of_document present)

theorem represents_congr (h : Represents snaps albums) {snaps' : Store}
    (same : ∀ i, snaps'.get? i = snaps.get? i) : Represents snaps' albums where
  sound i d present := h.sound i d (same i ▸ present)
  complete name album known := by
    obtain ⟨i, present⟩ := h.complete name album known
    exact ⟨i, (same i).trans present⟩
  one i j name hi hj := by
    rw [Collection.field, same] at hi hj
    exact h.one i j name hi hj

end Representation

/-- A write that is applied is one that its flow would request from a query made now. -/
def Current (s : System) : Event → Prop
  | .write n index true => ∀ f ∈ s.flows[n]?, ∀ name ∈ f.owner, ∀ w ∈ nextWrite s n index,
      w ∈ requestedWrites f.imageURL name (ownedBy s.mySnaps name)
  | _ => True

instance (s : System) : (e : Event) → Decidable (Current s e)
  | .write n index true => inferInstanceAs
      (Decidable (∀ f ∈ s.flows[n]?, ∀ name ∈ f.owner, ∀ w ∈ nextWrite s n index, _))
  | .write _ _ false | .advance _ | .storeUser _ _ | .tap _ _ | .query _ | .answer _
  | .emit _ | .callback _ _ | .listenerError _ _ | .delete _ _ => .isTrue trivial

theorem requestedWrites_of_none {snaps : Store} {albums : Albums} (h : Represents snaps albums)
    {name : String} (absent : albums name = none) (url : String) :
    requestedWrites url name (ownedBy snaps name) = [.addDocument [url] name] := by
  rw [ownedBy_of_none h absent]
  rfl

theorem requestedWrites_of_document {snaps : Store} {albums : Albums}
    (h : Represents snaps albums) {name : String} {album : Album} {id : ℕ}
    (present : snaps.get? id = some (document name album)) (url : String) :
    requestedWrites url name (ownedBy snaps name) = [.setData id (album.urls ++ [url])] := by
  rw [ownedBy_of_document h present]
  rfl

/-- A document that stands for an album after a merge had an owner before. -/
theorem owned_of_merge {snaps : Store} {albums' : Albums} {id : ℕ} {urls : List String}
    (after : Represents (snaps.merge id (additionalDictionary urls)) albums') :
    ∃ other, snaps.field id "snapOwner" = some (.string other) := by
  have merged : (snaps.merge id (additionalDictionary urls)).get? id = some
      (overlay ((snaps.get? id).getD fun _ => none) (additionalDictionary urls)) := by
    rw [Collection.get?_merge, if_pos rfl]
  obtain ⟨other, album, _, same⟩ := after.sound id _ merged
  have owner := congrFun same "snapOwner"
  rw [overlay_of_none (additionalDictionary_of_ne _ (by decide))] at owner
  cases there : snaps.get? id with
  | none =>
    rw [there] at owner
    cases owner
  | some d =>
    rw [there] at owner
    exact ⟨other, (Collection.field_eq there _).trans owner⟩

/-- An album grows by a merge only if the images are merged into its own document. -/
theorem merge_eq_append {snaps : Store} {albums : Albums} {name url : String} {album : Album}
    {id i : ℕ} {urls : List String} {now : ℤ} (slot : albums name = some album)
    (present : snaps.get? id = some (document name album))
    (after : Represents (snaps.merge i (additionalDictionary urls))
      (publish albums (.upload name url now))) : i = id ∧ urls = album.urls ++ [url] := by
  have owner : (snaps.merge i (additionalDictionary urls)).field id "snapOwner" =
      some (.string name) := by
    rw [field_merge_additional _ _ _ _ (by decide)]
    exact owner_of_document present
  obtain ⟨longer, extended', there⟩ := document_of_owner after owner
  obtain rfl : album.append url = longer := by
    simpa [publish, extended, slot] using extended'
  have images : (snaps.merge i (additionalDictionary urls)).field id "imageURLArray" =
      some (.strings (album.urls ++ [url])) := Collection.field_eq there _
  by_cases same : i = id
  · subst same
    rw [Collection.field_merge_self (additionalDictionary_urls urls)] at images
    cases images
    exact ⟨rfl, rfl⟩
  · -- the document of the name would have grown without being written
    rw [Collection.field_merge_of_ne (Ne.symm same), Collection.field_eq present] at images
    simp [document] at images

/-- A write has the effect of an upload exactly when the upload would request it now. -/
theorem represents_write_iff {initial : Store} {s : System} {albums : Albums}
    (h : Represents s.mySnaps albums) {name url : String} {w : Write}
    (known : KnownWrite initial s name url w) (now : ℤ) :
    Represents (w.apply now s.mySnaps) (publish albums (.upload name url now)) ↔
      w ∈ requestedWrites url name (ownedBy s.mySnaps name) := by
  cases slot : albums name with
  | none =>
    rw [requestedWrites_of_none h slot, List.mem_singleton]
    cases w with
    | addDocument urls owner =>
      obtain ⟨rfl, rfl⟩ := known
      exact iff_of_true (represents_add h slot url now) rfl
    | setData id urls =>
      refine iff_of_false (fun after => ?_) (by rintro ⟨⟩)
      obtain ⟨found, _⟩ := known
      obtain ⟨other, owned⟩ := owned_of_merge after
      obtain rfl := found.2 other owned
      obtain ⟨album, present, _⟩ := document_of_owner h owned
      cases slot.symm.trans present
  | some album =>
    obtain ⟨id, present⟩ := h.complete name album slot
    rw [requestedWrites_of_document h present, List.mem_singleton]
    cases w with
    | addDocument urls owner =>
      obtain ⟨rfl, rfl⟩ := known
      refine iff_of_false (fun after => ?_) (by rintro ⟨⟩)
      have absent := (oneDocument_add_iff h.one [url] owner now).mp after.one
      rw [ownedBy_of_document h present] at absent
      cases absent
    | setData i urls =>
      constructor
      · intro after
        obtain ⟨rfl, rfl⟩ := merge_eq_append slot present after
        rfl
      · intro same
        cases same
        exact represents_merge h slot present url now

section Runs
variable {initial : Store} {s : System} {e : Event}

/-- The flow behind an applied write, with all that the write and the action need. -/
theorem performed_of_applied (account : Accountable initial s) {w : Write}
    (applies : applied s e = some w) : ∃ n index f name, e = .write n index true ∧
      s.flows[n]? = some f ∧ f.owner = some name ∧ KnownWrite initial s name f.imageURL w ∧
      performed s e = some (.upload name f.imageURL s.clock) := by
  obtain ⟨n, index, f, pending, acknowledged, rfl, hf, stage, write⟩ := applied_cases applies
  have next : nextWrite s n index = some w := applies
  have now := account.flows n f hf
  rw [KnownFlow, stage] at now
  obtain ⟨name, owner, known⟩ := now
  exact ⟨n, index, f, name, rfl, hf, owner, known w (List.mem_of_getElem? write), by
    simp [performed, next, hf, owner]⟩

theorem performed_of_removed {id : ℕ} (removes : removed s e = some id) :
    performed s e =
      ((s.mySnaps.field id "snapOwner").bind Value.asString).map .expire := by
  cases e with
  | delete index error =>
    cases error with
    | some message => cases removes
    | none =>
      obtain ⟨⟨device, id'⟩, present, rfl⟩ := Option.map_eq_some_iff.mp removes
      simp [performed, present]
  | _ => cases removes

theorem performed_of_quiet (quiet : applied s e = none) (kept : removed s e = none) :
    performed s e = none := by
  cases e with
  | write n index ok =>
    cases ok with
    | false => rfl
    | true =>
      have next : nextWrite s n index = none := quiet
      simp [performed, next]
  | delete index error =>
    cases error with
    | some message => rfl
    | none =>
      have absent := Option.map_eq_none_iff.mp kept
      simp [performed, absent]
  | _ => rfl

theorem current_of_quiet (quiet : applied s e = none) : Current s e := by
  cases e with
  | write n index ok =>
    cases ok with
    | false => trivial
    | true =>
      intro f _ name _ w next
      cases quiet.symm.trans next
  | _ => trivial

theorem represents_removed {albums : Albums} (h : Represents s.mySnaps albums) {id : ℕ}
    (removes : removed s e = some id) :
    Represents (s.mySnaps.delete id) (follow s e albums) := by
  rw [follow, performed_of_removed removes]
  cases there : s.mySnaps.get? id with
  | none =>
    have unowned : s.mySnaps.field id "snapOwner" = none := by simp [Collection.field, there]
    rw [unowned]
    refine represents_congr h fun i => ?_
    by_cases same : i = id
    · rw [Collection.get?_delete, if_pos same, same, there]
    · rw [Collection.get?_delete, if_neg same]
  | some d =>
    obtain ⟨name, album, _, rfl⟩ := h.sound id d there
    rw [owner_of_document there]
    exact represents_expire h there

/-- A step has the effect of its action on the albums exactly when the write that it
applies, if any, is current. -/
theorem represents_step_iff (account : Accountable initial s) {albums : Albums}
    (h : Represents s.mySnaps albums) :
    Represents (step s e).mySnaps (follow s e albums) ↔ Current s e := by
  cases applies : applied s e with
  | some w =>
    obtain ⟨n, index, f, name, rfl, hf, owner, known, action⟩ :=
      performed_of_applied account applies
    have next : nextWrite s n index = some w := applies
    rw [mySnaps_of_applied applies, follow, action, Option.elim_some,
      represents_write_iff h known]
    simp [Current, hf, owner, next]
  | none =>
    refine iff_of_true ?_ (current_of_quiet applies)
    cases removes : removed s e with
    | some id =>
      rw [mySnaps_of_removed removes]
      exact represents_removed h removes
    | none =>
      rw [mySnaps_unchanged applies removes, follow, performed_of_quiet applies removes]
      exact h

end Runs

/-- From the empty collection on, the collection stands at every moment for the albums
that result from the acknowledged uploads and deletions, taken one at a time in the
order in which the server applied them, exactly when every applied write is current. -/
theorem uploads_atomic_iff (clock : ℤ) (users : ℕ → UserSingleton) (es : List Event) :
    Always (together step follow) (fun _ _ t => Represents t.1.mySnaps t.2)
        (start .empty clock users, noAlbums) es ↔
      Always step (fun s e _ => Current s e) (start .empty clock users) es := by
  rw [← always_together step follow (start .empty clock users, noAlbums) es]
  have exact : ∀ (p : System × Albums) (e : Event), Accountable .empty p.1 →
      Represents p.1.mySnaps p.2 →
      (Represents (together step follow p e).1.mySnaps (together step follow p e).2 ↔
        Current p.1 e) :=
    fun p e account h => represents_step_iff account h
  exact @always_iff_of_exact _ _ (together step follow) (fun p => Accountable .empty p.1)
    (fun p => Represents p.1.mySnaps p.2) _
    (fun p e account => accountable_step p.1 e account) exact
    (start .empty clock users, noAlbums) (accountable_start _ _ _) represents_empty es

/-- The flow has queried the documents of `name` and has a write left to settle. -/
def inProgress (name : String) (f : Flow) : Bool :=
  decide (f.queryName = some name) &&
    match f.stage with
    | .writing [] _ => false
    | _ => true

/-- The collection changes for a name only while no other upload for that name is in
progress, and a new document is built under the name that was queried. -/
def Undisturbed (s : System) : Event → Prop
  | .write n _ true => ∀ f ∈ s.flows[n]?, ∀ name ∈ f.owner, ∀ m < s.flows.length, m ≠ n →
      ∀ g ∈ s.flows[m]?, inProgress name g = false
  | .delete index none => ∀ message ∈ s.deletes[index]?,
      ∀ name ∈ (s.mySnaps.field message.2 "snapOwner").bind Value.asString,
        ∀ g ∈ s.flows, inProgress name g = false
  | .answer n => ∀ r ∈ reader s (.answer n),
      r.2.queryName = some (s.sharedUserInfo r.2.device).userName
  | _ => True

instance (s : System) : (e : Event) → Decidable (Undisturbed s e)
  | .write n _ true => inferInstanceAs (Decidable (∀ f ∈ s.flows[n]?, ∀ name ∈ f.owner,
      ∀ m < s.flows.length, m ≠ n → ∀ g ∈ s.flows[m]?, inProgress name g = false))
  | .delete index none => inferInstanceAs (Decidable (∀ message ∈ s.deletes[index]?,
      ∀ name ∈ (s.mySnaps.field message.2 "snapOwner").bind Value.asString,
        ∀ g ∈ s.flows, inProgress name g = false))
  | .answer n => inferInstanceAs (Decidable (∀ r ∈ reader s (.answer n), _ = _))
  | .write _ _ false | .advance _ | .storeUser _ _ | .tap _ _ | .query _
  | .emit _ | .callback _ _ | .listenerError _ _ | .delete _ (some _) => .isTrue trivial

/-- What the flow read is what its query would return now. -/
def FreshFlow (snaps : Store) (f : Flow) : Prop :=
  match f.stage with
  | .uploading => True
  | .answered documents => ∃ name, f.queryName = some name ∧ documents = ownedBy snaps name
  | .writing pending _ => ∃ name, f.queryName = some name ∧ f.owner = some name ∧
      pending.Sublist (requestedWrites f.imageURL name (ownedBy snaps name))

def FreshFlows (s : System) : Prop :=
  ∀ (m : ℕ) (f : Flow), s.flows[m]? = some f → FreshFlow s.mySnaps f

section Exclusion
variable {initial : Store} {s : System} {e : Event} {albums : Albums}

theorem follow_of_other {name : String} (other : ∀ a ∈ performed s e, a.name ≠ name) :
    follow s e albums name = albums name := by
  cases action : performed s e with
  | none => rw [follow, action, Option.elim_none]
  | some a =>
    have apart := (other a action).symm
    rw [follow, action, Option.elim_some]
    cases a with
    | upload name' url now => exact Function.update_of_ne apart _ _
    | expire name' => exact Function.update_of_ne apart _ _

/-- A new owner appears only through an upload under its name. -/
theorem owner_before (account : Accountable initial s) {name : String}
    (other : ∀ a ∈ performed s e, a.name ≠ name) {id : ℕ}
    (owner : (step s e).mySnaps.field id "snapOwner" = some (.string name)) :
    s.mySnaps.field id "snapOwner" = some (.string name) := by
  cases ownerStep s e with
  | kept creators issued owners => exact owners id name owner
  | added n index urls owner' event next creators store =>
    subst event
    obtain ⟨_, _, f, name', same, hf, fowner, known, action⟩ :=
      performed_of_applied account (show applied s (.write n index true) = _ from next)
    obtain ⟨rfl, rfl⟩ := known
    rw [store, Collection.field_add] at owner
    split at owner
    · cases owner
      exact absurd rfl (other _ action)
    · exact owner

theorem ownedBy_step (account : Accountable initial s) (h : Represents s.mySnaps albums)
    (after : Represents (step s e).mySnaps (follow s e albums)) {name : String}
    (other : ∀ a ∈ performed s e, a.name ≠ name) :
    ownedBy (step s e).mySnaps name = ownedBy s.mySnaps name := by
  have kept : follow s e albums name = albums name := follow_of_other other
  cases slot : albums name with
  | none => rw [ownedBy_of_none h slot, ownedBy_of_none after (kept.trans slot)]
  | some album =>
    obtain ⟨id, present⟩ := h.complete name album slot
    obtain ⟨id', present'⟩ := after.complete name album (kept.trans slot)
    obtain rfl : id' = id := h.one id' id name
      (owner_before account other (owner_of_document present')) (owner_of_document present)
    rw [ownedBy_of_document h present, ownedBy_of_document after present']

theorem current_of_fresh (fresh : FreshFlows s) : Current s e := by
  cases applies : applied s e with
  | none => exact current_of_quiet applies
  | some w =>
    obtain ⟨n, index, f, pending, acknowledged, rfl, hf, stage, write⟩ := applied_cases applies
    have next : nextWrite s n index = some w := applies
    have now := fresh n f hf
    rw [FreshFlow, stage] at now
    obtain ⟨name, _, owner, requests⟩ := now
    simpa [Current, hf, owner, next] using requests.subset (List.mem_of_getElem? write)

/-- No action concerns the name of a flow in progress, unless the flow performs it. -/
theorem performed_other (account : Accountable initial s) (undisturbed : Undisturbed s e)
    {m : ℕ} {f : Flow} (before : s.flows[m]? = some f) {name : String}
    (progress : inProgress name f = true)
    (unmoved : ∀ index, e = .write m index true → applied s e = none) :
    ∀ a ∈ performed s e, a.name ≠ name := by
  have bound := (List.getElem?_eq_some_iff.mp before).1
  rintro a action rfl
  cases applies : applied s e with
  | some w =>
    obtain ⟨n, index, g, name, rfl, hg, owner, _, upload⟩ := performed_of_applied account applies
    cases upload.symm.trans action
    have apart : m ≠ n := by
      rintro rfl
      cases (unmoved index rfl).symm.trans applies
    have quiet := undisturbed g hg name owner m bound apart f before
    cases progress.symm.trans quiet
  | none =>
    cases removes : removed s e with
    | none => cases (performed_of_quiet applies removes).symm.trans action
    | some id =>
      cases e with
      | delete index error =>
        cases error with
        | some message => cases removes
        | none =>
          obtain ⟨message, pending, there⟩ := Option.bind_eq_some_iff.mp action
          obtain ⟨name, owner, rfl⟩ := Option.map_eq_some_iff.mp there
          have quiet := undisturbed message pending name owner f (List.mem_of_getElem? before)
          cases progress.symm.trans quiet
      | _ => cases removes

theorem freshFlow_kept (account : Accountable initial s) (h : Represents s.mySnaps albums)
    (after : Represents (step s e).mySnaps (follow s e albums))
    (undisturbed : Undisturbed s e) {m : ℕ} {f : Flow} (before : s.flows[m]? = some f)
    (unmoved : ∀ index, e = .write m index true → applied s e = none)
    (fresh : FreshFlow s.mySnaps f) : FreshFlow (step s e).mySnaps f := by
  have kept : ∀ name, inProgress name f = true →
      ownedBy (step s e).mySnaps name = ownedBy s.mySnaps name := fun name progress =>
    ownedBy_step account h after (performed_other account undisturbed before progress unmoved)
  unfold FreshFlow at fresh ⊢
  split at fresh
  · trivial
  · rename_i documents stage
    obtain ⟨name, queried, read⟩ := fresh
    exact ⟨name, queried, read.trans (kept name (by simp [inProgress, queried, stage])).symm⟩
  · rename_i pending acknowledged stage
    obtain ⟨name, queried, owner, requests⟩ := fresh
    refine ⟨name, queried, owner, ?_⟩
    cases pending with
    | nil => exact List.nil_sublist _
    | cons w rest =>
      rw [kept name (by simp [inProgress, queried, stage])]
      exact requests

/-- A name has at most one document, so that an upload requests a single write. -/
theorem length_requestedWrites (h : Represents s.mySnaps albums) (url name : String) :
    (requestedWrites url name (ownedBy s.mySnaps name)).length = 1 := by
  cases slot : albums name with
  | none => rw [requestedWrites_of_none h slot, List.length_singleton]
  | some album =>
    obtain ⟨id, present⟩ := h.complete name album slot
    rw [requestedWrites_of_document h present, List.length_singleton]

/-- The callback of the query asks for the writes that it would ask for now, if it reads the
name of the query again. -/
theorem freshFlow_answered (undisturbed : Undisturbed s e) {m : ℕ} {f : Flow}
    (event : e = .answer m) (before : s.flows[m]? = some f) {documents : List (ℕ × Doc)}
    (stage : f.stage = .answered documents) (fresh : FreshFlow s.mySnaps f) :
    FreshFlow s.mySnaps { f with
      buildName := if documents.isEmpty then some (s.sharedUserInfo f.device).userName else none
      stage := .writing (requestedWrites f.imageURL (s.sharedUserInfo f.device).userName documents)
        false } := by
  rw [FreshFlow, stage] at fresh
  obtain ⟨name, queried, read⟩ := fresh
  subst event
  by_cases empty : documents = []
  · -- the second read of the singleton finds the name of the query
    subst empty
    have agrees : f.queryName = some (s.sharedUserInfo f.device).userName :=
      undisturbed _ (reader_answer before stage)
    obtain rfl : name = (s.sharedUserInfo f.device).userName :=
      Option.some.inj (queried.symm.trans agrees)
    refine ⟨_, queried, rfl, ?_⟩
    rw [← read]
  · refine ⟨name, queried, by simp [Flow.owner, queried, empty], ?_⟩
    rw [← read]
    simp [requestedWrites, empty]

/-- A write that is applied was the only one of its flow. -/
theorem none_left (h : Represents s.mySnaps albums) {url name : String} {pending : List Write}
    (requests : pending.Sublist (requestedWrites url name (ownedBy s.mySnaps name)))
    {index : ℕ} {w : Write} (write : pending[index]? = some w) : pending.eraseIdx index = [] := by
  have inside := (List.getElem?_eq_some_iff.mp write).1
  have most := requests.length_le
  rw [length_requestedWrites h] at most
  exact List.eq_nil_of_length_eq_zero (by rw [List.length_eraseIdx_of_lt inside]; omega)

theorem freshFlows_step (account : Accountable initial s) (h : Represents s.mySnaps albums)
    (fresh : FreshFlows s) (undisturbed : Undisturbed s e) : FreshFlows (step s e) := by
  have after := (represents_step_iff account h).mpr (current_of_fresh (e := e) fresh)
  intro m f' hf'
  cases flowStep hf' with
  | same before =>
    refine freshFlow_kept account h after undisturbed before ?_ (fresh m f' before)
    rintro index rfl
    exact unmoved_of_same before hf'
  | tapped device imageURL event index result =>
    subst result
    trivial
  | queried f before event stage result =>
    subst event result
    exact ⟨_, rfl, rfl⟩
  | answered f before event documents stage result =>
    have now := freshFlow_answered undisturbed event before stage (fresh m f before)
    subst event result
    exact now
  | settled f before index ok event pending acknowledged stage w write result =>
    have now := fresh m f before
    rw [FreshFlow, stage] at now
    obtain ⟨name, queried, owner, requests⟩ := now
    subst event result
    refine ⟨name, queried, owner, ?_⟩
    cases ok with
    | false =>
      rw [mySnaps_unchanged (e := .write m index false) rfl rfl]
      exact (List.eraseIdx_sublist _ _).trans requests
    | true =>
      rw [none_left h requests write]
      exact List.nil_sublist _

end Exclusion

/-- If uploads under one name exclude each other, in whatever order those under
different names run, the collection stands at every moment for the albums that result
from the acknowledged uploads and deletions one at a time. -/
theorem undisturbed_uploads_atomic (clock : ℤ) (users : ℕ → UserSingleton) (es : List Event)
    (guarded : Always step (fun s e _ => Undisturbed s e) (start .empty clock users) es) :
    Always (together step follow) (fun _ _ t => Represents t.1.mySnaps t.2)
      (start .empty clock users, noAlbums) es := by
  let inv : System × Albums → Prop := fun p =>
    Accountable .empty p.1 ∧ Represents p.1.mySnaps p.2 ∧ FreshFlows p.1
  have kept : ∀ p e, inv p → Undisturbed p.1 e → inv (together step follow p e) := by
    rintro p e ⟨account, h, fresh⟩ undisturbed
    exact ⟨accountable_step p.1 e account,
      (represents_step_iff account h).mpr (current_of_fresh fresh),
      freshFlows_step account h fresh undisturbed⟩
  have begins : inv (start .empty clock users, noAlbums) :=
    ⟨accountable_start _ _ _, represents_empty, fun m f hf => by simp [start] at hf⟩
  exact always_of_invariant kept (fun p e h undisturbed => (kept p e h undisturbed).2.1) begins
    ((always_together step follow (start .empty clock users, noAlbums) es).mpr guarded)

/-- Ada and Bob upload at the same time, and Ada uploads once more. -/
theorem two_users_upload_atomically :
    Always (together step follow) (fun _ _ t => Represents t.1.mySnaps t.2)
      (start .empty 0 fun device => ⟨"", if device = 0 then "ada" else "bob"⟩, noAlbums)
      [.tap 0 "a", .tap 1 "b", .query 0, .query 1, .answer 1, .answer 0, .write 0 0 true,
        .write 1 0 true, .tap 0 "c", .query 2, .answer 2, .write 2 0 true] :=
  undisturbed_uploads_atomic _ _ _ (by decide)

end SnapAlbums
