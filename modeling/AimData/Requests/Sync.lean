/-
  The sync of the buyers' requests from the marketplace.

  A sync reads pages from the cursor that was saved last, upserts their items and saves the
  cursor that it has reached.  Syncs interleave while they wait for pages, and may fail or be
  interrupted between any two of these.  The marketplace answers as it likes.  No page before a
  saved cursor is skipped, and a row is what the items of its request make of it
  (`request_sync`).
-/
import AimData.Approval.Tokens

namespace AimData

namespace RequestSync

/-! ## Rows and items -/

/-- An item of a page, a dictionary. -/
abbrev Item := List (String × Json)

structure CachedRequest where
  id : String
  marketplaceRequestId : String
  title : String
  description : String
  categories : String
  urgency : Option String
  status : String
  publishedAt : Option String
  expiresAt : Option String
  updatedAt : ℚ
  syncedAt : ℚ
  deriving DecidableEq

/-- What a text column stores of a value, if it takes it, and `_parse_dt`. -/
structure Columns where
  text : Json → Option String
  parseDt : Json → Option String

section

variable (columns : Columns)

/-- `item.get(key, default)`, as a column that is not null stores it. -/
def required (item : Item) (key default : String) : Option String :=
  match item.lookup key with
  | some value => columns.text value
  | none => some default

/-- `item.get(key)`, as a column that may be null stores it. -/
def nullable (item : Item) (key : String) : Option (Option String) :=
  match item.lookup key with
  | some .null | none => some none
  | some value => (columns.text value).map some

/-- `_parse_dt(item.get(key))` -/
def parsedDt (item : Item) (key : String) : Option String :=
  match item.lookup key with
  | some .null | none => none
  | some value => columns.parseDt value

def categoriesJson (item : Item) : String :=
  match item.lookup "categories" with
  | some (.arr categories) => String.ofList (Approval.jsonDumps (.arr categories))
  | _ => String.ofList (Approval.jsonDumps (.arr []))

/-- The row that is inserted for a request that has none, before its fields are set. -/
def newRow (mpId newId : String) (now : ℚ) : CachedRequest :=
  ⟨newId, mpId, "", "", "[]", none, "open", none, none, now, now⟩

/-- The row of a request after an item, if its columns take the values of the item. -/
def mergeItem (now : ℚ) (row : CachedRequest) (item : Item) : Option CachedRequest := do
  let title ← required columns item "title" row.title
  let description ← required columns item "description" row.description
  let urgency ← nullable columns item "urgency"
  let status ← required columns item "status" row.status
  pure { row with
    title := title
    description := description
    categories := categoriesJson item
    urgency := urgency
    status := status
    publishedAt := parsedDt columns item "published_at"
    expiresAt := parsedDt columns item "expires_at"
    updatedAt := now
    syncedAt := now }

def find (rows : List CachedRequest) (mpId : String) : Option CachedRequest :=
  rows.find? fun row => row.marketplaceRequestId = mpId

/-- An item with the id that is drawn for its row if it has none. -/
structure Draw where
  item : Item
  newId : String

/-- The rows, and the counts of new and updated ones. -/
structure Upserted where
  rows : List CachedRequest
  newCount : ℕ
  updatedCount : ℕ

/-- One turn of the loop of `upsert_cached_requests` -/
def upsertItem (now : ℚ) (u : Upserted) (draw : Draw) : Option Upserted := do
  let mpId ← required columns draw.item "id" ""
  let existing := find u.rows mpId
  let row ← mergeItem columns now (existing.getD (newRow mpId draw.newId now)) draw.item
  let rows := Table.upsert CachedRequest.marketplaceRequestId u.rows row
  pure (if existing.isSome then ⟨rows, u.newCount, u.updatedCount + 1⟩
    else ⟨rows, u.newCount + 1, u.updatedCount⟩)

/-- `upsert_cached_requests`, which writes all items or fails. -/
def upsertCachedRequests (now : ℚ) (rows : List CachedRequest) (draws : List Draw) :
    Option Upserted :=
  draws.foldlM (upsertItem columns now) ⟨rows, 0, 0⟩

end

/-! ## Syncs -/

structure Page where
  items : List Item
  nextCursor : Option String

/-- A cursor as a condition sees it. -/
def truthy (cursor : Option String) : Option String := cursor.filter (· ≠ "")

def maxPages : ℕ := 10

/-- The variables of `poll_requests`. -/
structure Poll where
  syncCursor : Option String
  cursor : Option String
  lastGoodCursor : Option String
  allItems : List Item
  pages : ℕ

def Poll.start (syncCursor : Option String) : Poll := ⟨syncCursor, syncCursor, syncCursor, [], 0⟩

/-- The variables after a page, and whether the loop goes on. -/
def Poll.page (x : Poll) (page : Page) : Poll × Bool :=
  let x := { x with allItems := x.allItems ++ page.items, pages := x.pages + 1 }
  match truthy page.nextCursor with
  | some next =>
    ({ x with lastGoodCursor := some next, cursor := some next },
      page.items ≠ [] ∧ x.pages < maxPages)
  | none => (x, false)

/-- Where a sync stands. -/
inductive Stage where
  | polling (x : Poll)
  | polled (items : List Item) (cursor : Option String)
  | upserted (cursor : Option String)

/-- The rows, the row of the sync state, and the syncs. -/
structure State where
  rows : List CachedRequest
  syncState : Option (Option String)
  syncs : ℕ → Option Stage

def State.start : State := ⟨[], none, fun _ => none⟩

def State.set (s : State) (task : ℕ) (stage : Option Stage) : State :=
  { s with syncs := Function.update s.syncs task stage }

/-- `get_sync_cursor` -/
def State.cursor (s : State) : Option String := s.syncState.join

inductive Event where
  | start
  | fetch (cursor : Option String) (page : Page)
  | upsert (now : ℚ) (draws : List Draw) (newCount updatedCount : ℕ)
  | save (cursor : Option String)
  | fail

/-- What a sync does between two awaits, or before it is interrupted. -/
inductive Step (columns : Columns) : State → Event → State → Prop
  | start {s : State} {task : ℕ} : s.syncs task = none →
    Step columns s .start (s.set task (some (.polling (.start s.cursor))))
  | fetch {s : State} {task : ℕ} {x : Poll} {page : Page} :
    s.syncs task = some (.polling x) → (x.page page).2 = true →
    Step columns s (.fetch (truthy x.cursor) page)
      (s.set task (some (.polling (x.page page).1)))
  | fetchLast {s : State} {task : ℕ} {x : Poll} {page : Page} :
    s.syncs task = some (.polling x) → (x.page page).2 = false →
    Step columns s (.fetch (truthy x.cursor) page)
      (s.set task (some (.polled (x.page page).1.allItems (x.page page).1.lastGoodCursor)))
  | upsert {s : State} {task : ℕ} {items : List Item} {cursor : Option String} {now : ℚ}
    {draws : List Draw} {u : Upserted} :
    s.syncs task = some (.polled items cursor) → draws.map Draw.item = items →
    upsertCachedRequests columns now s.rows draws = some u →
    Step columns s (.upsert now draws u.newCount u.updatedCount)
      ({ s with rows := u.rows }.set task (some (.upserted cursor)))
  | save {s : State} {task : ℕ} {cursor : Option String} :
    s.syncs task = some (.upserted cursor) →
    Step columns s (.save cursor) ({ s with syncState := some cursor }.set task none)
  /-- A page or a write fails, or the program ends. -/
  | fail {s : State} {task : ℕ} : Step columns s .fail (s.set task none)

/-! ## What the events say -/

/-- The items were written together. -/
def Stored (es : List Event) (items : List Item) : Prop :=
  ∃ now draws newCount updatedCount, Event.upsert now draws newCount updatedCount ∈ es ∧
    ∀ item ∈ items, item ∈ draws.map Draw.item

/-- The cursor was reached from another by pages whose items are all among some. -/
inductive Reached (es : List Event) (items : List Item) (start : Option String) :
    Option String → Prop
  | start : Reached es items start start
  | page {cursor : Option String} {page : Page} {next : String} :
    Reached es items start cursor → Event.fetch (truthy cursor) page ∈ es →
    (∀ item ∈ page.items, item ∈ items) → truthy page.nextCursor = some next →
    Reached es items start (some next)

/-- Every page from the first one to the cursor was read, and its items were written. -/
inductive Covered (es : List Event) : Option String → Prop
  | start : Covered es none
  | sync {items : List Item} {cursor cursor' : Option String} : Covered es cursor →
    Reached es items cursor cursor' → Stored es items → Covered es cursor'

/-- The items that were written, each with its time. -/
def Event.writes : Event → List (ℚ × Draw)
  | .upsert now draws _ _ => draws.map fun draw => (now, draw)
  | _ => []

def writes (es : List Event) : List (ℚ × Draw) := es.flatMap Event.writes

section
variable (columns : Columns) (mpId : String)

/-- What a write makes of the row of a request. -/
def applyWrite (row : Option CachedRequest) (write : ℚ × Draw) : Option CachedRequest :=
  if required columns write.2.item "id" "" = some mpId then
    mergeItem columns write.1 (row.getD (newRow mpId write.2.newId write.1)) write.2.item
  else row

/-- What the writes make of the row of a request. -/
def rowOf (writes : List (ℚ × Draw)) : Option CachedRequest :=
  writes.foldl (applyWrite columns mpId) none

end

/-! ## The rows -/

section
variable {columns : Columns} {rows : List CachedRequest} {row row' : CachedRequest} {now : ℚ}
  {mpId : String} {item : Item} {draw : Draw} {draws : List Draw} {u u' : Upserted}

theorem mergeItem_slot (h : mergeItem columns now row item = some row') :
    row'.marketplaceRequestId = row.marketplaceRequestId := by
  simp only [mergeItem, Option.bind_eq_bind, Option.bind_eq_some_iff] at h
  obtain ⟨_, -, _, -, _, -, _, -, h⟩ := h
  obtain rfl := Option.some.inj h
  rfl

theorem find_slot (h : find rows mpId = some row) : row.marketplaceRequestId = mpId := by
  simpa using List.find?_some h

theorem find_upsert :
    find (Table.upsert CachedRequest.marketplaceRequestId rows row) mpId =
      if row.marketplaceRequestId = mpId then some row else find rows mpId := by
  induction rows with
  | nil =>
    by_cases h : row.marketplaceRequestId = mpId
    · simp [Table.upsert, find, h]
    · simp [Table.upsert, find, h]
  | cons r rows ih =>
    rw [find] at ih
    rw [Table.upsert]
    split_ifs with hslot hid hid
    · simp [find, hid]
    · simp [find, hid, hslot]
    · have hne : r.marketplaceRequestId ≠ mpId := fun heq => hslot (heq.trans hid.symm)
      rw [find, List.find?_cons_of_neg (by simpa using hne), ih, if_pos hid]
    · rw [if_neg hid] at ih
      rw [find, find, List.find?_cons, List.find?_cons, ih]
      rfl

theorem length_upsert :
    (Table.upsert CachedRequest.marketplaceRequestId rows row).length =
      rows.length + if (find rows row.marketplaceRequestId).isSome then 0 else 1 := by
  induction rows with
  | nil => rfl
  | cons r rows ih =>
    rw [Table.upsert, find, List.find?_cons]
    by_cases hslot : r.marketplaceRequestId = row.marketplaceRequestId
    · simp [hslot]
    · rw [if_neg hslot, decide_eq_false hslot, List.length_cons, List.length_cons, ih, find]
      exact Nat.add_right_comm ..

/-- What an item that is written does. -/
structure Wrote (columns : Columns) (now : ℚ) (u : Upserted) (draw : Draw) (u' : Upserted) :
    Prop where
  rows : ∃ row, u'.rows = Table.upsert CachedRequest.marketplaceRequestId u.rows row
  find : ∀ mpId, find u'.rows mpId = applyWrite columns mpId (find u.rows mpId) (now, draw)
  counts : u'.newCount + u'.updatedCount = u.newCount + u.updatedCount + 1
  length : u'.rows.length + u.newCount = u.rows.length + u'.newCount

theorem wrote (h : upsertItem columns now u draw = some u') : Wrote columns now u draw u' := by
  simp only [upsertItem, Option.bind_eq_bind, Option.bind_eq_some_iff] at h
  obtain ⟨mpId, hid, row, hrow, h⟩ := h
  have hslot : row.marketplaceRequestId = mpId := by
    rw [mergeItem_slot hrow]
    cases hfind : RequestSync.find u.rows mpId with
    | none => rfl
    | some existing => exact find_slot hfind
  have hlength := @length_upsert u.rows row
  rw [hslot] at hlength
  have hrows : u'.rows = Table.upsert CachedRequest.marketplaceRequestId u.rows row := by
    obtain rfl := Option.some.inj h
    split_ifs
    · rfl
    · rfl
  refine ⟨⟨row, hrows⟩, fun mpId' => ?_, ?_, ?_⟩
  · rw [hrows, find_upsert, applyWrite, hid, hslot]
    by_cases heq : mpId = mpId'
    · subst heq
      rw [if_pos rfl, if_pos rfl, hrow]
    · rw [if_neg heq, if_neg fun h => heq (Option.some.inj h)]
  · obtain rfl := Option.some.inj h
    split_ifs
    · exact (Nat.add_assoc ..).symm
    · exact Nat.add_right_comm ..
  · rw [hrows, hlength]
    obtain rfl := Option.some.inj h
    split_ifs
    · rfl
    · exact (Nat.add_assoc ..).trans (congrArg _ (Nat.add_comm ..))

/-- What a whole batch does. -/
structure WroteAll (columns : Columns) (now : ℚ) (u : Upserted) (draws : List Draw)
    (u' : Upserted) : Prop where
  nodup : (u.rows.map CachedRequest.marketplaceRequestId).Nodup →
    (u'.rows.map CachedRequest.marketplaceRequestId).Nodup
  find : ∀ mpId, find u'.rows mpId =
    (draws.map fun draw => (now, draw)).foldl (applyWrite columns mpId) (find u.rows mpId)
  counts : u'.newCount + u'.updatedCount = u.newCount + u.updatedCount + draws.length
  length : u'.rows.length + u.newCount = u.rows.length + u'.newCount

theorem wroteAll (h : draws.foldlM (upsertItem columns now) u = some u') :
    WroteAll columns now u draws u' := by
  induction draws generalizing u with
  | nil =>
    obtain rfl := Option.some.inj h
    exact ⟨id, fun _ => rfl, rfl, rfl⟩
  | cons draw draws ih =>
    rw [List.foldlM_cons, Option.bind_eq_bind, Option.bind_eq_some_iff] at h
    obtain ⟨u₁, hfirst, hrest⟩ := h
    obtain ⟨⟨row, hrows⟩, hfind, hcounts, hlength⟩ := wrote hfirst
    have hall := ih hrest
    refine ⟨fun hnodup => hall.nodup (hrows ▸ Table.nodup_upsert hnodup), fun mpId => ?_, ?_, ?_⟩
    · rw [hall.find, hfind]
      rfl
    · rw [hall.counts, hcounts, List.length_cons]
      exact Nat.add_right_comm ..
    · have hlength' := hall.length
      omega

end

/-! ## Runs -/

/-- What has been read for a sync. -/
def Stage.Sound (es : List Event) : Stage → Prop
  | .polling x => Covered es x.syncCursor ∧ Reached es x.allItems x.syncCursor x.cursor ∧
      x.lastGoodCursor = x.cursor ∧ x.pages < maxPages
  | .polled items cursor => ∃ start, Covered es start ∧ Reached es items start cursor
  | .upserted cursor => Covered es cursor

structure Inv (columns : Columns) (es : List Event) (s : State) : Prop where
  covered : Covered es s.cursor
  syncs : ∀ task stage, s.syncs task = some stage → stage.Sound es
  nodup : (s.rows.map CachedRequest.marketplaceRequestId).Nodup
  rows : ∀ mpId, find s.rows mpId = rowOf columns mpId (writes es)

section
variable {columns : Columns} {es : List Event} {e : Event} {s s' : State} {items items' : List Item}
  {cursor cursor' : Option String} {stage : Stage}

theorem inv_start : Inv columns [] .start where
  covered := .start
  syncs := fun _ _ h => nomatch h
  nodup := List.nodup_nil
  rows := fun _ => rfl

theorem Reached.append (h : Reached es items cursor cursor') :
    Reached (es ++ [e]) items cursor cursor' := by
  induction h with
  | start => exact .start
  | page _ hfetch hitems hnext ih => exact .page ih (List.mem_append_left _ hfetch) hitems hnext

theorem Reached.mono (h : Reached es items cursor cursor') (hitems : ∀ i ∈ items, i ∈ items') :
    Reached es items' cursor cursor' := by
  induction h with
  | start => exact .start
  | page _ hfetch hpage hnext ih =>
    exact .page ih hfetch (fun item h => hitems item (hpage item h)) hnext

theorem Stored.append (h : Stored es items) : Stored (es ++ [e]) items := by
  obtain ⟨now, draws, newCount, updatedCount, hmem, hitems⟩ := h
  exact ⟨now, draws, newCount, updatedCount, List.mem_append_left _ hmem, hitems⟩

theorem Covered.append (h : Covered es cursor) : Covered (es ++ [e]) cursor := by
  induction h with
  | start => exact .start
  | sync _ hreached hstored ih => exact .sync ih hreached.append hstored.append

theorem Stage.Sound.append (h : stage.Sound es) : stage.Sound (es ++ [e]) := by
  cases stage with
  | polling x => exact ⟨h.1.append, h.2.1.append, h.2.2⟩
  | polled items cursor =>
    obtain ⟨start, hcovered, hreached⟩ := h
    exact ⟨start, hcovered.append, hreached.append⟩
  | upserted cursor => exact Covered.append h

/-- What a page does to the variables. -/
theorem page_spec {x : Poll} {page : Page} (h : Reached es x.allItems x.syncCursor x.cursor)
    (hgood : x.lastGoodCursor = x.cursor) :
    (x.page page).1.syncCursor = x.syncCursor ∧
      (x.page page).1.lastGoodCursor = (x.page page).1.cursor ∧
      Reached (es ++ [.fetch (truthy x.cursor) page]) (x.page page).1.allItems x.syncCursor
        (x.page page).1.cursor ∧
      ((x.page page).2 = true → (x.page page).1.pages < maxPages) := by
  have hmore : Reached (es ++ [.fetch (truthy x.cursor) page]) (x.allItems ++ page.items)
      x.syncCursor x.cursor := h.append.mono fun item => List.mem_append_left _
  rw [Poll.page]
  cases hnext : truthy page.nextCursor with
  | none => exact ⟨rfl, hgood, hmore, fun h => absurd h Bool.false_ne_true⟩
  | some next =>
    refine ⟨rfl, rfl, ?_, fun h => (of_decide_eq_true h).2⟩
    refine .page hmore (List.mem_append_right _ (List.mem_singleton.2 rfl)) ?_ hnext
    exact fun item => List.mem_append_right _

theorem set_cases {task i : ℕ} {new : Option Stage}
    (h : (s.set i new).syncs task = some stage) :
    new = some stage ∨ s.syncs task = some stage := by
  change Function.update s.syncs i new task = some stage at h
  by_cases heq : task = i
  · subst heq
    rw [Function.update_self] at h
    exact Or.inl h
  · rw [Function.update_of_ne heq] at h
    exact Or.inr h

theorem Inv.sound_step (h : Inv columns es s) (hstep : Step columns s e s') {task : ℕ}
    (hstage : s'.syncs task = some stage) : stage.Sound (es ++ [e]) := by
  have hold : ∀ {i}, s.syncs i = some stage → stage.Sound (es ++ [e]) := fun hi =>
    (h.syncs _ _ hi).append
  cases hstep with
  | start =>
    rcases set_cases hstage with hnew | hsame
    · obtain rfl := Option.some.inj hnew
      exact ⟨h.covered.append, .start, rfl, Nat.zero_lt_succ 9⟩
    · exact hold hsame
  | @fetch _ x page hpolling hmore =>
    rcases set_cases hstage with hnew | hsame
    · obtain rfl := Option.some.inj hnew
      obtain ⟨hcovered, hreached, hgood, -⟩ := h.syncs _ _ hpolling
      obtain ⟨hcursor, hgood', hreached', hpages⟩ := page_spec hreached hgood
      exact ⟨hcursor ▸ hcovered.append, hcursor.symm ▸ hreached', hgood', hpages hmore⟩
    · exact hold hsame
  | @fetchLast _ x page hpolling =>
    rcases set_cases hstage with hnew | hsame
    · obtain rfl := Option.some.inj hnew
      obtain ⟨hcovered, hreached, hgood, -⟩ := h.syncs _ _ hpolling
      obtain ⟨-, hgood', hreached', -⟩ := @page_spec es x page hreached hgood
      exact ⟨x.syncCursor, hcovered.append, hgood'.symm ▸ hreached'⟩
    · exact hold hsame
  | @upsert _ items cursor now draws u hpolled hitems =>
    rcases set_cases hstage with hnew | hsame
    · obtain rfl := Option.some.inj hnew
      obtain ⟨start, hcovered, hreached⟩ := h.syncs _ _ hpolled
      refine .sync hcovered.append hreached.append ?_
      exact ⟨now, draws, u.newCount, u.updatedCount,
        List.mem_append_right _ (List.mem_singleton.2 rfl), fun item hitem => hitems ▸ hitem⟩
    · exact hold hsame
  | save | fail =>
    rcases set_cases hstage with hnew | hsame
    · exact nomatch hnew
    · exact hold hsame

theorem writes_append : writes (es ++ [e]) = writes es ++ e.writes := by
  rw [writes, List.flatMap_append, List.flatMap_singleton, writes]

theorem rowOf_append {mpId : String} : rowOf columns mpId (writes (es ++ [e])) =
    e.writes.foldl (applyWrite columns mpId) (rowOf columns mpId (writes es)) := by
  rw [writes_append, rowOf, List.foldl_append, rowOf]

theorem Inv.step (h : Inv columns es s) (hstep : Step columns s e s') :
    Inv columns (es ++ [e]) s' where
  covered := by
    cases hstep with
    | save hupserted => exact Covered.append (h.syncs _ _ hupserted)
    | start | fetch | fetchLast | upsert | fail => exact h.covered.append
  syncs := fun _ _ hstage => h.sound_step hstep hstage
  nodup := by
    cases hstep with
    | upsert _ _ hrows => exact (wroteAll hrows).nodup h.nodup
    | start | fetch | fetchLast | save | fail => exact h.nodup
  rows := by
    intro mpId
    rw [rowOf_append, ← h.rows]
    cases hstep with
    | upsert _ _ hrows => exact (wroteAll hrows).find mpId
    | start | fetch | fetchLast | save | fail => rfl

theorem inv_run (h : Run (Step columns) .start es s) : Inv columns es s :=
  h.history inv_start fun _ hinv hstep => hinv.step hstep

/-- **However syncs interleave, fail and are interrupted, every page before the saved cursor was
    read and its items written; there is one row for each request, which is what the items of its
    request make of it, in the order in which they were written; and the counts of a sync are of
    the rows that it has inserted and of its other items.** -/
theorem request_sync (h : Run (Step columns) .start es s) :
    Covered es s.cursor ∧ (s.rows.map CachedRequest.marketplaceRequestId).Nodup ∧
      (∀ mpId, find s.rows mpId = rowOf columns mpId (writes es)) ∧
      ∀ now draws newCount updatedCount s',
        Step columns s (.upsert now draws newCount updatedCount) s' →
          newCount + updatedCount = draws.length ∧ s'.rows.length = s.rows.length + newCount := by
  have hinv := inv_run h
  refine ⟨hinv.covered, hinv.nodup, hinv.rows, ?_⟩
  intro now draws newCount updatedCount s' hstep
  cases hstep with
  | upsert _ _ hrows =>
    obtain ⟨-, -, hcounts, hlength⟩ := wroteAll hrows
    simp only [Nat.zero_add, Nat.add_zero] at hcounts hlength
    exact ⟨hcounts, hlength⟩

end

/-- Columns that take strings. -/
def stringColumns : Columns where
  text
    | .str s => some s
    | _ => none
  parseDt _ := none

def weatherItem : Item := [("id", .str "r1"), ("title", .str "Weather data")]

theorem set_self {s : State} {task : ℕ} {stage : Option Stage} :
    (s.set task stage).syncs task = stage := Function.update_self ..

/-- A sync of two pages. -/
theorem weather_run : ∃ es s, Run (Step stringColumns) .start es s ∧ s.cursor = some "c1" := by
  obtain ⟨u, hu⟩ : ∃ u, upsertCachedRequests stringColumns 7 [] [⟨weatherItem, "row"⟩] = some u :=
    ⟨_, rfl⟩
  have hpage : ((Poll.start none).page ⟨[weatherItem], some "c1"⟩).2 = true := by decide
  refine ⟨_, _, .cons (@Step.start _ .start 0 rfl) (.cons
    (@Step.fetch _ _ 0 _ ⟨[weatherItem], some "c1"⟩ set_self hpage) (.cons
    (@Step.fetchLast _ _ 0 _ ⟨[], none⟩ set_self rfl) (.cons
    (@Step.upsert _ _ 0 _ _ 7 [⟨weatherItem, "row"⟩] u set_self rfl hu) (.cons
    (@Step.save _ _ 0 (some "c1") set_self) .nil)))), rfl⟩

/-- The cursor that a sync has saved is covered. -/
theorem request_sync_weather : ∃ (es : List Event) (s : State), Covered es s.cursor ∧
    s.cursor = some "c1" ∧ ∀ mpId, find s.rows mpId = rowOf stringColumns mpId (writes es) := by
  obtain ⟨es, s, hrun, hcursor⟩ := weather_run
  obtain ⟨hcovered, -, hrows, -⟩ := request_sync hrun
  exact ⟨es, s, hcovered, hcursor, hrows⟩

end RequestSync

end AimData
