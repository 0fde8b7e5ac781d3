import IosCourse.SnapRaces

/-!
# Showing the feed of SnapchatClone

A table view asks its data source for cells and reports taps by row number, and
it knows the row count that it was given when its data was last reloaded. The
functions here return `none` where the source traps, at an index out of range or
at a forced unwrap of nil. Whether a string is a URL is for Foundation to say:
its parser is a parameter.
-/

namespace SnapDisplay

open DocumentCollection SnapDocuments SnapUpload SnapFeed SnapSystem SnapRaces GuardedRuns

variable {URL : Type} (parse : String → Option URL)

/-- What a cell shows. The image view accepts a URL that is nil. -/
structure FeedCell (URL : Type) where
  FeedUserNameLabel : String
  FeedImageView : Option URL
  deriving DecidableEq

def numberOfRowsInSection (feed : FeedVC) : ℕ := feed.snapArray.length

/-- Indexing `snapArray` and unwrapping `imageURLArray.last` can both trap. -/
def cellForRowAt (feed : FeedVC) (row : ℕ) : Option (FeedCell URL) := do
  let snap ← feed.snapArray[row]?
  let last ← snap.imageURLArray.getLast?
  return ⟨snap.username, parse last⟩

/-- The snap that a tap on a row hands over to `SnapVC`. -/
def didSelectRowAt (feed : FeedVC) (row : ℕ) : Option Snap := feed.snapArray[row]?

/-- The label keeps the text of the storyboard while it is `none`. -/
structure SnapVC (URL : Type) where
  selectedSnap : Option Snap
  TimeLabel : Option String
  inputArray : List URL
  deriving DecidableEq

/-- Every `KingfisherSource` of the loop is unwrapped. -/
def SnapVC.viewDidLoad (selectedSnap : Option Snap) : Option (SnapVC URL) :=
  match selectedSnap with
  | none => some ⟨none, none, []⟩
  | some snap => do
    let inputArray ← snap.imageURLArray.mapM parse
    return ⟨selectedSnap, some ("Time Left: " ++ toString snap.timeDifference), inputArray⟩

/-- The table can show the row, and the snap behind it can be opened. -/
def RowWorks (feed : FeedVC) (row : ℕ) : Prop :=
  (cellForRowAt parse feed row).isSome ∧
    ∃ snap, didSelectRowAt feed row = some snap ∧
      (SnapVC.viewDidLoad parse (some snap)).isSome

def Showable (urls : List String) : Prop := urls ≠ [] ∧ ∀ url ∈ urls, (parse url).isSome

def DocShowable (d : Doc) : Prop := ∀ urls, imageURLArray d = some urls → Showable parse urls

variable {parse}

theorem inputs_of_parses {urls : List String} (parses : ∀ url ∈ urls, (parse url).isSome) :
    ∃ inputs, urls.mapM parse = some inputs := by
  induction urls with
  | nil => exact ⟨[], rfl⟩
  | cons url rest ih =>
    rw [List.forall_mem_cons] at parses
    obtain ⟨first, hfirst⟩ := Option.isSome_iff_exists.mp parses.1
    obtain ⟨inputs, hinputs⟩ := ih parses.2
    exact ⟨first :: inputs, by simp [List.mapM_cons, hfirst, hinputs]⟩

/-- A row below the count works if the array behind it can be shown. -/
theorem rowWorks_of_showable {feed : FeedVC} (counted : feed.rows = numberOfRowsInSection feed)
    (showable : ∀ snap ∈ feed.snapArray, Showable parse snap.imageURLArray) {row : ℕ}
    (asked : row < feed.rows) : RowWorks parse feed row := by
  have bound : row < feed.snapArray.length := by rwa [counted] at asked
  obtain ⟨snap, found⟩ : ∃ snap, feed.snapArray[row]? = some snap :=
    ⟨_, List.getElem?_eq_getElem bound⟩
  obtain ⟨nonempty, parses⟩ := showable snap (List.mem_of_getElem? found)
  obtain ⟨inputs, hinputs⟩ := inputs_of_parses parses
  refine ⟨?_, snap, found, ?_⟩
  · simp [cellForRowAt, found, List.getLast?_eq_some_getLast nonempty]
  · simp [SnapVC.viewDidLoad, hinputs]

theorem showable_append {urls : List String} {url : String}
    (old : ∀ u ∈ urls, (parse u).isSome) (new : (parse url).isSome) :
    Showable parse (urls ++ [url]) := by
  refine ⟨by simp, ?_⟩
  intro u mem
  rcases List.mem_append.mp mem with mem | mem
  · exact old u mem
  · rwa [List.mem_singleton.mp mem]

theorem docShowable_overlay {old : Doc} {urls : List String} (h : Showable parse urls) :
    DocShowable parse (overlay old (additionalDictionary urls)) := by
  intro urls' found
  have stored : overlay old (additionalDictionary urls) "imageURLArray" =
      some (.strings urls) := overlay_of_some (additionalDictionary_urls urls)
  rw [imageURLArray_eq_some, stored] at found
  cases found
  exact h

theorem docShowable_snapDictionary {urls : List String} (owner : String) (stamp : ℤ)
    (h : Showable parse urls) : DocShowable parse (snapDictionary urls owner stamp) := by
  intro urls' found
  rw [imageURLArray_eq_some, snapDictionary_urls] at found
  cases found
  exact h

/-- The listener of this device is given a snapshot that is not empty. -/
def Rebuilds (device : ℕ) (s : System) : Event → Prop
  | .callback index _ =>
    ∃ documents, s.snapshots[index]? = some (device, documents) ∧ documents ≠ []
  | _ => False

/-- Only a callback with a nonempty snapshot touches the rows of a feed. -/
inductive FeedStep (s : System) (e : Event) (device : ℕ) : Prop where
  | kept (idle : ¬ Rebuilds device s e)
      (snapArray : ((step s e).feeds device).snapArray = (s.feeds device).snapArray)
      (rows : ((step s e).feeds device).rows = (s.feeds device).rows)
  | rebuilt (index : ℕ) (now : ℕ → ℤ) (event : e = .callback index now)
      (documents : List (ℕ × Doc)) (sent : s.snapshots[index]? = some (device, documents))
      (nonempty : documents ≠ [])
      (snapArray : ((step s e).feeds device).snapArray = documents.filterMap (liveSnap now))
      (rows : ((step s e).feeds device).rows = numberOfRowsInSection ((step s e).feeds device))

theorem feedStep (s : System) (e : Event) (device : ℕ) : FeedStep s e device := by
  cases e with
  | write flow index ok =>
    have feeds := (write_frame s flow index ok).feeds
    exact .kept id (by rw [feeds]) (by rw [feeds])
  | callback index now =>
    cases sent : s.snapshots[index]? with
    | none =>
      exact .kept (by simp [Rebuilds, sent]) (by simp [step, sent]) (by simp [step, sent])
    | some message =>
      obtain ⟨listener, documents⟩ := message
      by_cases here : device = listener
      · subst here
        by_cases empty : documents = []
        · subst empty
          exact .kept (by simp [Rebuilds, sent]) (by simp [step, sent]) (by simp [step, sent])
        · refine .rebuilt index now rfl documents sent empty ?_ ?_ <;>
            simp [step, sent, getSnaps_of_ne_nil empty, numberOfRowsInSection]
      · have idle : ¬ Rebuilds device s (.callback index now) := by
          rintro ⟨_, other, _⟩
          rw [sent] at other
          cases other
          exact here rfl
        exact .kept idle (by simp [step, sent, here]) (by simp [step, sent, here])
  | listenerError listener message =>
    by_cases here : device = listener
    · subst here
      refine .kept id ?_ ?_ <;> simp [step, getSnapsFromFirebase, FeedVC.makeAlert]
    · exact .kept id (by simp [step, here]) (by simp [step, here])
  | delete index error =>
    cases sent : s.deletes[index]? with
    | none => exact .kept id (by simp [step, sent]) (by simp [step, sent])
    | some request =>
      cases error with
      | none => exact .kept id (by simp [step, sent]) (by simp [step, sent])
      | some message =>
        by_cases here : device = request.1
        · subst here
          refine .kept id ?_ ?_ <;> simp [step, sent, FeedVC.makeAlert]
        · exact .kept id (by simp [step, sent, here]) (by simp [step, sent, here])
  | _ => exact .kept id rfl rfl

variable (parse)

/-- What a flow has queried or is about to write. -/
def FlowShowable (f : Flow) : Prop :=
  (parse f.imageURL).isSome ∧
    match f.stage with
    | .uploading => True
    | .answered documents => ∀ document ∈ documents, DocShowable parse document.2
    | .writing pending _ => ∀ w ∈ pending, Showable parse (urlsOf w)

structure ArraysShowable (s : System) : Prop where
  stored : ∀ id d, s.mySnaps.get? id = some d → DocShowable parse d
  flows : ∀ (n : ℕ) (f : Flow), s.flows[n]? = some f → FlowShowable parse f
  sent : ∀ message ∈ s.snapshots, ∀ document ∈ message.2, DocShowable parse document.2
  shown : ∀ device, ∀ snap ∈ (s.feeds device).snapArray, Showable parse snap.imageURLArray
  counted : ∀ device, (s.feeds device).rows = numberOfRowsInSection (s.feeds device)

/-- The download URL of a tap parses again. -/
def TapParses : Event → Prop
  | .tap _ imageURL => (parse imageURL).isSome
  | _ => True

variable {parse}

theorem arraysShowable_start (clock : ℤ) (users : ℕ → UserSingleton) :
    ArraysShowable parse (start .empty clock users) where
  stored := by intro id d found; cases found
  flows := by intro n f found; cases found
  sent := by intro message mem; cases mem
  shown := by intro device snap mem; cases mem
  counted := fun _ => rfl

/-- Both kinds of write store an array that can be shown, also a merge that
creates its document again. -/
theorem stored_step {s : System} (h : ArraysShowable parse s) (e : Event) :
    ∀ id d, (step s e).mySnaps.get? id = some d → DocShowable parse d := by
  intro id d found
  cases storeStep s e with
  | wrote w applies result =>
    obtain ⟨n, index, f, pending, acknowledged, _, hf, stage, write⟩ := applied_cases applies
    have flow := (h.flows n f hf).2
    rw [stage] at flow
    have showable := flow w (List.mem_of_getElem? write)
    rw [result] at found
    cases w with
    | setData target urls =>
      simp only [Write.apply, Collection.get?_merge] at found
      split at found
      · obtain rfl := Option.some.inj found
        exact docShowable_overlay showable
      · exact h.stored id d found
    | addDocument urls owner =>
      simp only [Write.apply, Collection.get?_add] at found
      split at found
      · obtain rfl := Option.some.inj found
        exact docShowable_snapDictionary owner s.clock showable
      · exact h.stored id d found
  | deleted target quiet removes result =>
    rw [result, Collection.get?_delete, Option.ite_none_left_eq_some] at found
    exact h.stored id d found.2
  | kept quiet result => exact h.stored id d (result ▸ found)

theorem flows_step {s : System} (h : ArraysShowable parse s) {e : Event}
    (parses : TapParses parse e) :
    ∀ (n : ℕ) (f : Flow), (step s e).flows[n]? = some f → FlowShowable parse f := by
  intro n f' hf'
  cases flowStep hf' with
  | same before => exact h.flows n f' before
  | tapped device imageURL event index result =>
    subst event result
    exact ⟨parses, trivial⟩
  | queried f before event stage result =>
    subst result
    refine ⟨(h.flows n f before).1, ?_⟩
    intro document mem
    exact h.stored document.1 document.2 (mem_ownedBy.mp mem).1
  | answered f before event documents stage result =>
    obtain ⟨image, found⟩ := h.flows n f before
    rw [stage] at found
    subst result
    refine ⟨image, ?_⟩
    intro w mem
    rcases mem_requestedWrites mem with ⟨id, d, urls, hd, hurls, rfl⟩ | ⟨_, rfl⟩
    · exact showable_append (found (id, d) hd urls hurls).2 image
    · exact ⟨List.cons_ne_nil _ _, by simpa [urlsOf] using image⟩
  | settled f before index ok event pending acknowledged stage w write result =>
    obtain ⟨image, waiting⟩ := h.flows n f before
    rw [stage] at waiting
    subst result
    exact ⟨image, fun w' mem => waiting w' (List.mem_of_mem_eraseIdx mem)⟩

theorem arraysShowable_step (s : System) (e : Event) (h : ArraysShowable parse s)
    (parses : TapParses parse e) : ArraysShowable parse (step s e) where
  stored := stored_step h e
  flows := flows_step h parses
  sent := by
    intro message mem document found
    rcases snapshots_step mem with old | ⟨_, new⟩
    · exact h.sent message old document found
    · rw [new] at found
      exact h.stored document.1 document.2 (mem_orderByDate.mp found).1
  shown := by
    intro device snap mem
    cases feedStep s e device with
    | kept _ snapArray rows => exact h.shown device snap (snapArray ▸ mem)
    | rebuilt _ now _ documents sent _ snapArray rows =>
      rw [snapArray] at mem
      obtain ⟨document, hd, live⟩ := List.mem_filterMap.mp mem
      have fields := (castFields_eq_some.mp (liveSnap_eq_some.mp live).1).2.1
      exact h.sent _ (List.mem_of_getElem? sent) document hd _ fields
  counted := by
    intro device
    cases feedStep s e device with
    | kept _ snapArray rows =>
      rw [rows, numberOfRowsInSection, snapArray]
      exact h.counted device
    | rebuilt _ _ _ _ _ _ _ rows => exact rows

/-- In every state of every run, each row that the table may ask for or report as
tapped works on every device. -/
theorem feed_never_traps (clock : ℤ) (users : ℕ → UserSingleton) (es : List Event)
    (parses : ∀ e ∈ es, TapParses parse e) (device row : ℕ)
    (asked : row < ((run step (start .empty clock users) es).feeds device).rows) :
    RowWorks parse ((run step (start .empty clock users) es).feeds device) row := by
  have reached : ArraysShowable parse (run step (start .empty clock users) es) :=
    invariant_run arraysShowable_step (arraysShowable_start clock users)
      (always_of_mem step parses _)
  exact rowWorks_of_showable (reached.counted device) (reached.shown device) asked

/-- An upload, and a callback that shows it: its cell and its images appear. -/
theorem feed_never_traps_after_upload :
    let parse : String → Option String := fun text => if text = "" then none else some text
    let s := run step (start .empty 0 (signedInAs "ada"))
      (wholeUpload 0 0 "a" ++ [.emit 1, .callback 0 fun _ => 0])
    RowWorks parse (s.feeds 1) 0 := by
  intro parse s
  refine feed_never_traps 0 (signedInAs "ada") _ ?_ 1 0 (by decide)
  simp [wholeUpload, TapParses, parse]

end SnapDisplay
