/-
  The search of a portal dataset.

  The rows that match are cut to the display columns, but a snippet of text is made of the
  candidate columns before that (`keywordSearch`).  What a response shows of two tables that
  agree on the display columns and on which rows match is settled by the candidates alone
  (`searchDataset_iff`).
-/
import AimData.Lib.Except
import AimData.Lib.Like
import AimData.Lib.PyText
import AimData.Portal.Config

namespace AimData

namespace Portal

/-! ## Tables -/

/-- A cell: null, a text, or a value of another type by its texts in SQL and in Python. -/
inductive Cell where
  | null
  | text (s : String)
  | other (type varchar str : String)
  deriving DecidableEq

/-- `CAST(cell AS VARCHAR)` -/
def Cell.varchar : Cell → Option String
  | null => none
  | text s => some s
  | other _ varchar _ => some varchar

/-- `str(cell)` -/
def Cell.str : Cell → String
  | null => "None"
  | text s => s
  | other _ _ str => str

/-- A Parquet file, whose columns have names of their own. -/
structure Table where
  columns : List String
  rows : List (List Cell)
  nodup : columns.Nodup
  lengths : ∀ row ∈ rows, row.length = columns.length

/-- The database: its `lower` maps each character, and it refuses some limits and offsets. -/
structure Engine where
  lowerChar : Char → Char
  refusal : ℤ → ℤ → Option Raised
  lower_percent : lowerChar '%' = '%'
  refuses_negative : ∀ limit offset, refusal limit offset = none → 0 ≤ limit ∧ 0 ≤ offset

/-! ## The search -/

abbrev RowData := List (String × Cell)

/-- A match, with its `score`, `row_data` and `text_content`. -/
structure Match where
  score : ℚ
  rowData : RowData
  textContent : String
  deriving DecidableEq

structure PortalSearchResult where
  datasetId : String
  datasetName : String
  totalCount : ℕ
  results : List Match
  query : String
  deriving DecidableEq

/-- What is stored of a dataset. -/
structure Record where
  originalFilename : String
  processed : Bool

section
variable (engine : Engine)

/-- `lower(CAST(col AS VARCHAR)) LIKE lower('%' || query || '%')` -/
def Engine.like (query : String) (cell : Cell) : Bool :=
  match cell.varchar with
  | none => false
  | some text => Like.like (('%' :: (query.toList ++ ['%'])).map engine.lowerChar)
      (text.toList.map engine.lowerChar)

/-- `row_data[col]` -/
def RowData.get? (rowData : RowData) (col : String) : Option Cell := rowData.lookup col

/-- The columns that are matched: the search columns of the table, or else all of its columns. -/
def candidateColumns (searchColumns columns : List String) : List String :=
  match searchColumns.filter (· ∈ columns) with
  | [] => columns
  | candidates => candidates

/-- Some candidate's cell matches. -/
def matchesRow (candidates : List String) (query : String) (rowData : RowData) : Bool :=
  candidates.any fun col => (rowData.get? col).any (engine.like query)

/-- `" ".join(str(row_data.get(col, "")) for col in candidate_columns)[:500]` -/
def textContent (candidates : List String) (rowData : RowData) : List Char :=
  ([' '].intercalate
    (candidates.map fun col => (((rowData.get? col).map Cell.str).getD "").toList)).take 500

/-- `PortalService._keyword_search`, of the table at the path -/
def keywordSearch (table : Table) (query : String) (searchColumns : List String)
    (limit offset : ℤ) : Except Raised (List Match) := do
  if PyText.strip query.toList = [] then return []
  else if table.columns = [] then return []
  else
    let candidates := candidateColumns searchColumns table.columns
    let rows := (table.rows.map table.columns.zip).filter (matchesRow engine candidates query)
    match engine.refusal limit offset with
    | some e => .error e
    | none => return ((rows.drop offset.toNat).take limit.toNat).map fun rowData =>
        ⟨1, rowData, String.ofList (textContent candidates rowData)⟩

/-- The row of a match cut to the display columns, where there are any. -/
def displayed (displayColumns : List String) (m : Match) : Match :=
  if displayColumns = [] then m
  else { m with rowData := m.rowData.filter fun p => p.1 ∈ displayColumns }

variable (config : PortalConfig) (getDataset : String → Option Record)

/-- `PortalService.search_dataset` -/
def searchDataset (table : Table) (datasetId query : String) (limit offset : ℤ) :
    Except Raised PortalSearchResult := do
  let unavailable := raise "ValueError" ("Dataset '" ++ datasetId ++ "' is not available on portal")
  match config.datasets datasetId with
  | none => unavailable
  | some dsConfig =>
    if dsConfig.portalVisible then
      let effectiveLimit := min limit dsConfig.maxResults
      match (getDataset datasetId).filter Record.processed with
      | none => raise "ValueError" ("Dataset '" ++ datasetId ++ "' is not processed")
      | some record => do
        let raw ← keywordSearch engine table query dsConfig.searchColumns effectiveLimit offset
        let results := raw.map (displayed dsConfig.displayColumns)
        return ⟨datasetId, record.originalFilename, results.length, results, query⟩
    else unavailable

end

/-! ## What two tables share -/

/-- The rows of a table, by column. -/
def Table.rowData (t : Table) : List RowData := t.rows.map t.columns.zip

/-- Tables of the same columns and as many rows, whose cells are the same in some columns. -/
structure Agree (displayColumns : List String) (t t' : Table) : Prop where
  columns : t.columns = t'.columns
  cells : List.Forall₂ (fun row row' : RowData => ∀ col ∈ displayColumns,
    row.get? col = row'.get? col) t.rowData t'.rowData

section
variable (engine : Engine)

/-- The same rows match in a search column. -/
def SameMatches (searchColumns : List String) (query : String) (t t' : Table) : Prop :=
  List.Forall₂ (fun row row' => matchesRow engine searchColumns query row =
    matchesRow engine searchColumns query row') t.rowData t'.rowData

/-- A search that reads no row: the dataset is not processed, the query is blank, or the limit
    and the offset are refused or leave none. -/
def ReadsNothing (getDataset : String → Option Record) (dsConfig : DatasetPortalConfig)
    (datasetId query : String) (limit offset : ℤ) : Prop :=
  (getDataset datasetId).filter Record.processed = none ∨ PyText.strip query.toList = [] ∨
    engine.refusal (min limit dsConfig.maxResults) offset ≠ none ∨
      min limit dsConfig.maxResults ≤ 0

/-- The columns that a response may show beside the display columns are display columns: the
    candidates that the snippet reaches, and every column where no search column is there. -/
def Confined (dsConfig : DatasetPortalConfig) (columns : List String) : Prop :=
  match dsConfig.searchColumns.filter (· ∈ columns) with
  | [] => ∀ col ∈ columns, col ∈ dsConfig.displayColumns
  | candidates => ∀ col ∈ candidates.take 500, col ∈ dsConfig.displayColumns

end

/-! ## Rows by column -/

theorem lookup_eq_none {columns : List String} {row : List Cell} {col : String}
    (h : col ∉ columns) : RowData.get? (columns.zip row) col = none := by
  rw [RowData.get?, List.lookup_eq_none_iff]
  rintro ⟨c, cell⟩ hp
  have hne : col ≠ c := by
    rintro rfl
    exact h (List.of_mem_zip hp).1
  simpa using hne

/-- The cell of a column in a row that is given by column. -/
theorem lookup_map {columns : List String} (f : String → Cell) {col : String} (h : col ∈ columns) :
    RowData.get? (columns.zip (columns.map f)) col = some (f col) := by
  rw [RowData.get?]
  induction columns with
  | nil => cases h
  | cons c columns ih =>
    rw [List.map_cons, List.zip_cons_cons, List.lookup_cons]
    by_cases hc : col = c
    · simp [hc]
    · simp only [beq_eq_false_iff_ne.2 hc]
      exact ih ((List.mem_cons.1 h).resolve_left hc)

/-- Rows of the same cells in some columns are cut to the same. -/
theorem filter_display {display columns : List String} (hnodup : columns.Nodup)
    {row row' : List Cell} (hrow : row.length = columns.length)
    (hrow' : row'.length = columns.length) (h : ∀ col ∈ display,
      RowData.get? (columns.zip row) col = RowData.get? (columns.zip row') col) :
    (columns.zip row).filter (fun p => p.1 ∈ display) =
      (columns.zip row').filter fun p => p.1 ∈ display := by
  induction columns generalizing row row' with
  | nil => simp
  | cons c columns ih =>
    cases row with
    | nil => simp at hrow
    | cons cell row =>
      cases row' with
      | nil => simp at hrow'
      | cons cell' row' =>
        obtain ⟨hc, hnodup⟩ := List.nodup_cons.1 hnodup
        have htail := ih hnodup (Nat.succ.inj hrow) (Nat.succ.inj hrow') fun col hcol => by
          by_cases heq : col = c
          · rw [heq, lookup_eq_none hc, lookup_eq_none hc]
          · have := h col hcol
            simpa only [RowData.get?, List.zip_cons_cons, List.lookup_cons,
              beq_eq_false_iff_ne.2 heq] using this
        simp only [List.zip_cons_cons, List.filter_cons, htail]
        by_cases hmem : c ∈ display
        · have := h c hmem
          simp only [RowData.get?, List.zip_cons_cons, List.lookup_cons_self,
            Option.some.injEq] at this
          rw [this]
        · simp [hmem]

/-! ## Snippets -/

theorem take_intercalate {sep : Char} {l l' : List (List Char)} {n : ℕ}
    (hlength : l.length = l'.length) (h : l.take n = l'.take n) :
    ([sep].intercalate l).take n = ([sep].intercalate l').take n := by
  induction n generalizing l l' with
  | zero => simp
  | succ n ih =>
    cases l with
    | nil =>
      obtain rfl := List.length_eq_zero_iff.1 hlength.symm
      rfl
    | cons a l =>
      cases l' with
      | nil => simp at hlength
      | cons a' l' =>
        obtain ⟨rfl, htail⟩ := List.cons.inj h
        have ih := ih (Nat.succ.inj hlength) htail
        cases l with
        | nil =>
          obtain rfl := List.length_eq_zero_iff.1 (Nat.succ.inj hlength).symm
          rfl
        | cons b l =>
          cases l' with
          | nil => simp at hlength
          | cons b' l' =>
            -- what is left after the first field and its separator is at most `n` characters
            have hle : n + 1 - a.length - 1 ≤ n := by omega
            have hrest := congrArg (List.take (n + 1 - a.length - 1)) ih
            rw [List.take_take, List.take_take, min_eq_left hle] at hrest
            rw [List.intercalate_cons_cons, List.intercalate_cons_cons, List.append_assoc,
              List.append_assoc, List.take_append, @List.take_append _ a, List.singleton_append,
              List.singleton_append]
            congr 1
            cases hk : n + 1 - a.length with
            | zero => rfl
            | succ k =>
              rw [hk, Nat.add_sub_cancel] at hrest
              rw [List.take_succ_cons, List.take_succ_cons, hrest]

/-- The character after as many empty fields. -/
theorem intercalate_getElem? {sep c : Char} {fields : List (List Char)} {text : List Char} {k : ℕ} :
    ([sep].intercalate (List.replicate k [] ++ (c :: text) :: fields))[k]? = some c := by
  induction k with
  | zero =>
    cases fields with
    | nil => simp
    | cons field fields => simp [List.intercalate_cons_cons]
  | succ k ih =>
    rw [List.replicate_succ, List.cons_append, List.intercalate_cons_of_ne_nil (by simp),
      List.nil_append, List.singleton_append, List.getElem?_cons_succ, ih]

/-! ## What a response is made of -/

section
variable {engine : Engine} {query : String}

/-- A column that is not there matches nothing. -/
theorem matchesRow_filter (searchColumns columns : List String) (row : List Cell) :
    matchesRow engine (searchColumns.filter (· ∈ columns)) query (columns.zip row) =
      matchesRow engine searchColumns query (columns.zip row) := by
  rw [Bool.eq_iff_iff]
  simp only [matchesRow, List.any_eq_true, List.mem_filter, decide_eq_true_iff]
  constructor
  · rintro ⟨col, ⟨hcol, -⟩, h⟩
    exact ⟨col, hcol, h⟩
  · rintro ⟨col, hcol, h⟩
    refine ⟨col, ⟨hcol, ?_⟩, h⟩
    by_contra hmem
    rw [lookup_eq_none hmem] at h
    cases h

/-- A match as the response has it. -/
def shownMatch (displayColumns candidates : List String) (rowData : RowData) : Match :=
  displayed displayColumns ⟨1, rowData, String.ofList (textContent candidates rowData)⟩

/-- The matches of a response. -/
def shownMatches (engine : Engine) (dsConfig : DatasetPortalConfig) (query : String)
    (limit offset : ℤ) (t : Table) : List Match :=
  (((t.rowData.filter (matchesRow engine (candidateColumns dsConfig.searchColumns t.columns)
    query)).drop offset.toNat).take limit.toNat).map
      (shownMatch dsConfig.displayColumns (candidateColumns dsConfig.searchColumns t.columns))

/-- Rows that match alike and are shown alike give the same matches. -/
theorem shown_congr {α β : Type} {match_ : α → Bool} {show_ : α → β} {l l' : List α}
    (h : List.Forall₂ (fun a a' => match_ a = match_ a' ∧ show_ a = show_ a') l l') (m n : ℕ) :
    (((l.filter match_).drop m).take n).map show_ =
      (((l'.filter match_).drop m).take n).map show_ := by
  have hfilter : (l.filter match_).map show_ = (l'.filter match_).map show_ := by
    induction h with
    | nil => rfl
    | cons ha _ ih =>
      rw [List.filter_cons, List.filter_cons, ← ha.1]
      split_ifs
      · rw [List.map_cons, List.map_cons, ih, ha.2]
      · exact ih
  rw [List.map_take, List.map_drop, hfilter, ← List.map_drop, ← List.map_take]

section
variable {config : PortalConfig} {getDataset : String → Option Record} {datasetId : String}
  {dsConfig : DatasetPortalConfig} {limit offset : ℤ}

/-- A search that neither stops early nor is refused gives the matches of the table. -/
theorem searchDataset_eq (hconfig : config.datasets datasetId = some dsConfig)
    (hvisible : dsConfig.portalVisible = true) {record : Record}
    (hrecord : (getDataset datasetId).filter Record.processed = some record)
    (hquery : PyText.strip query.toList ≠ [])
    (hrefusal : engine.refusal (min limit dsConfig.maxResults) offset = none) (t : Table)
    (hcolumns : t.columns ≠ []) :
    searchDataset engine config getDataset t datasetId query limit offset =
      .ok ⟨datasetId, record.originalFilename, (shownMatches engine dsConfig query
        (min limit dsConfig.maxResults) offset t).length, shownMatches engine dsConfig query
        (min limit dsConfig.maxResults) offset t, query⟩ := by
  rw [searchDataset]
  simp only [hconfig, hvisible, if_true, hrecord, keywordSearch, if_neg hquery, if_neg hcolumns,
    hrefusal, Except.pure_eq_ok, Except.ok_bind]
  rw [shownMatches, List.map_map]
  rfl

/-- A search that stops early or is refused reads no row. -/
theorem searchDataset_quiet (hconfig : config.datasets datasetId = some dsConfig)
    {t t' : Table} (hcolumns : t.columns = t'.columns)
    (h : ReadsNothing engine getDataset dsConfig datasetId query limit offset ∨ t.columns = []) :
    searchDataset engine config getDataset t datasetId query limit offset =
      searchDataset engine config getDataset t' datasetId query limit offset := by
  rw [searchDataset, searchDataset]
  simp only [hconfig]
  split_ifs
  · cases hrecord : (getDataset datasetId).filter Record.processed with
    | none => rfl
    | some record =>
      simp only
      congr 1
      rw [keywordSearch, keywordSearch, hcolumns]
      split_ifs with hquery hnil
      · rfl
      · rfl
      · cases hrefusal : engine.refusal (min limit dsConfig.maxResults) offset with
        | some e => rfl
        | none =>
          rcases h with (h | h | h | h) | h
          · rw [hrecord] at h
            cases h
          · exact absurd h hquery
          · exact absurd hrefusal h
          · have hzero : (min limit dsConfig.maxResults).toNat = 0 := Int.toNat_of_nonpos h
            simp only [hzero, List.take_zero]
          · exact absurd (hcolumns ▸ h) hnil
  · rfl

end

/-! ## What is confined is not shown -/

section
variable {dsConfig : DatasetPortalConfig} {t t' : Table}

theorem textContent_congr {candidates : List String} {row row' : RowData}
    (h : ∀ col ∈ candidates.take 500, row.get? col = row'.get? col) :
    textContent candidates row = textContent candidates row' := by
  refine take_intercalate (by simp) ?_
  rw [← List.map_take, ← List.map_take]
  exact List.map_congr_left fun col hcol => by rw [h col hcol]

/-- Rows of the same columns and of the same cells in the display columns are shown alike, if the
    snippet is made of display columns. -/
theorem shownMatch_congr {display candidates columns : List String} (hdisplay : display ≠ [])
    (hnodup : columns.Nodup) {row row' : List Cell} (hrow : row.length = columns.length)
    (hrow' : row'.length = columns.length) (h : ∀ col ∈ display,
      RowData.get? (columns.zip row) col = RowData.get? (columns.zip row') col)
    (htext : ∀ col ∈ candidates.take 500, col ∈ display) :
    shownMatch display candidates (columns.zip row) =
      shownMatch display candidates (columns.zip row') := by
  simp only [shownMatch, displayed, if_neg hdisplay, filter_display hnodup hrow hrow' h,
    textContent_congr fun col hcol => h col (htext col hcol)]

/-- Every candidate that the snippet reaches is a display column. -/
theorem Confined.snippet {columns : List String} (h : Confined dsConfig columns) :
    ∀ col ∈ (candidateColumns dsConfig.searchColumns columns).take 500,
      col ∈ dsConfig.displayColumns := by
  unfold Confined at h
  unfold candidateColumns
  split at h
  · exact fun col hcol => h col (List.mem_of_mem_take hcol)
  · exact h

/-- Whether a row matches is settled by what the tables share. -/
theorem Confined.matches (h : Confined dsConfig t.columns) {row row' : List Cell}
    (hcells : ∀ col ∈ dsConfig.displayColumns,
      RowData.get? (t.columns.zip row) col = RowData.get? (t.columns.zip row') col)
    (hmatch : matchesRow engine dsConfig.searchColumns query (t.columns.zip row) =
      matchesRow engine dsConfig.searchColumns query (t.columns.zip row')) :
    matchesRow engine (candidateColumns dsConfig.searchColumns t.columns) query
        (t.columns.zip row) =
      matchesRow engine (candidateColumns dsConfig.searchColumns t.columns) query
        (t.columns.zip row') := by
  unfold Confined at h
  unfold candidateColumns
  split at h
  · rw [Bool.eq_iff_iff, matchesRow, matchesRow, List.any_eq_true, List.any_eq_true]
    refine exists_congr fun col => and_congr_right fun hcol => ?_
    rw [hcells col (h col hcol)]
  · rw [matchesRow_filter, matchesRow_filter]
    exact hmatch

theorem Confined.shownMatches (h : Confined dsConfig t.columns)
    (hdisplay : dsConfig.displayColumns ≠ []) (hagree : Agree dsConfig.displayColumns t t')
    (hmatches : SameMatches engine dsConfig.searchColumns query t t') (limit offset : ℤ) :
    shownMatches engine dsConfig query limit offset t =
      shownMatches engine dsConfig query limit offset t' := by
  obtain ⟨hlength, hcells⟩ := List.forall₂_iff_zip.1 hagree.cells
  obtain ⟨-, hmatch⟩ := List.forall₂_iff_zip.1 hmatches
  unfold AimData.Portal.shownMatches
  rw [← hagree.columns]
  refine shown_congr (List.forall₂_iff_zip.2 ⟨hlength, fun {a b} hab => ?_⟩) _ _
  have hcells := hcells hab
  have hmatch := hmatch hab
  obtain ⟨ha, hb⟩ := List.of_mem_zip hab
  obtain ⟨row, hrow, rfl⟩ := List.mem_map.1 ha
  obtain ⟨row', hrow', rfl⟩ := List.mem_map.1 hb
  rw [← hagree.columns] at hcells hmatch ⊢
  exact ⟨h.matches hcells hmatch, shownMatch_congr hdisplay t.nodup (t.lengths row hrow)
    (hagree.columns ▸ t'.lengths row' hrow') hcells h.snippet⟩

end

/-! ## What is not confined is shown -/

/-- A table of equal rows. -/
def uniform (columns : List String) (hnodup : columns.Nodup) (n : ℕ) (f : String → Cell) :
    Table where
  columns := columns
  rows := List.replicate n (columns.map f)
  nodup := hnodup
  lengths row h := by rw [List.eq_of_mem_replicate h, List.length_map]

section
variable {columns : List String} {hnodup : columns.Nodup} {n : ℕ} {f f' : String → Cell}

theorem uniform_rowData : (uniform columns hnodup n f).rowData =
    List.replicate n (columns.zip (columns.map f)) := by
  simp [Table.rowData, uniform]

theorem uniform_related {R : RowData → RowData → Prop}
    (h : R (columns.zip (columns.map f)) (columns.zip (columns.map f'))) :
    List.Forall₂ R (uniform columns hnodup n f).rowData (uniform columns hnodup n f').rowData := by
  rw [uniform_rowData, uniform_rowData]
  induction n with
  | zero => exact .nil
  | succ n ih => exact .cons h ih

theorem uniform_agree {display : List String} (h : ∀ col ∈ display, f col = f' col) :
    Agree display (uniform columns hnodup n f) (uniform columns hnodup n f') := by
  refine ⟨rfl, uniform_related fun col hcol => ?_⟩
  by_cases hmem : col ∈ columns
  · rw [lookup_map f hmem, lookup_map f' hmem, h col hcol]
  · rw [lookup_eq_none hmem, lookup_eq_none hmem]

/-- The matches of a table of one row more than the offset. -/
theorem shownMatches_uniform (engine : Engine) (dsConfig : DatasetPortalConfig) (query : String)
    {limit offset : ℤ} (hlimit : 0 < limit) : shownMatches engine dsConfig query limit offset
      (uniform columns hnodup (offset.toNat + 1) f) =
    if matchesRow engine (candidateColumns dsConfig.searchColumns columns) query
        (columns.zip (columns.map f)) then
      [shownMatch dsConfig.displayColumns (candidateColumns dsConfig.searchColumns columns)
        (columns.zip (columns.map f))]
    else [] := by
  obtain ⟨k, hk⟩ : ∃ k, limit.toNat = k + 1 := ⟨limit.toNat - 1, by omega⟩
  have hcolumns : (uniform columns hnodup (offset.toNat + 1) f).columns = columns := rfl
  rw [shownMatches, uniform_rowData, hcolumns]
  split_ifs with hmatch
  · rw [List.filter_replicate_of_pos hmatch, List.drop_replicate, Nat.add_sub_cancel_left, hk]
    simp
  · rw [List.filter_replicate_of_neg hmatch, List.drop_nil, List.take_nil, List.map_nil]

end

/-- A text that contains the query matches. -/
theorem like_text {s before : String} (h : s = before ++ query) :
    engine.like query (.text s) = true := by
  have := Like.like_contains (before.toList.map engine.lowerChar)
    (query.toList.map engine.lowerChar) []
  simpa [h, Engine.like, Cell.varchar, engine.lower_percent] using this

/-- One column's cell among empty texts. -/
def marked (col : String) (text : String) (c : String) : Cell :=
  .text (if c = col then text else "")

/-- The snippet shows a column that it reaches. -/
theorem textContent_marked {candidates before after columns : List String} {col text : String}
    {c : Char} {cs : List Char} (hcandidates : candidates = before ++ col :: after)
    (hbefore : col ∉ before) (hlength : before.length < 500) (htext : text.toList = c :: cs)
    (hcol : col ∈ columns) (hsub : ∀ x ∈ before, x ∈ columns) :
    (textContent candidates (columns.zip (columns.map (marked col text))))[before.length]? =
      some c := by
  have hempty : before.map (fun x => ((((RowData.get? (columns.zip (columns.map
      (marked col text))) x).map Cell.str).getD "").toList)) = List.replicate before.length [] := by
    refine List.eq_replicate_iff.2 ⟨by simp, fun field hfield => ?_⟩
    obtain ⟨x, hx, rfl⟩ := List.mem_map.1 hfield
    have hne : x ≠ col := fun h => hbefore (h ▸ hx)
    simp [lookup_map _ (hsub x hx), marked, hne, Cell.str]
  rw [textContent, List.getElem?_take_of_lt hlength, hcandidates, List.map_append, hempty,
    List.map_cons, lookup_map _ hcol]
  simp only [marked, Option.map_some, Option.getD_some, Cell.str, if_true, htext]
  exact intercalate_getElem?

section
variable {dsConfig : DatasetPortalConfig} {columns : List String} (hnodup : columns.Nodup)
  {limit offset : ℤ} {f f' : String → Cell}

/-- The matches of two tables of equal rows, if those are the same, agree on whether and how the
    row is shown. -/
theorem shown_of_uniform (hlimit : 0 < limit) (h : shownMatches engine dsConfig query limit offset
    (uniform columns hnodup (offset.toNat + 1) f) = shownMatches engine dsConfig query limit offset
      (uniform columns hnodup (offset.toNat + 1) f'))
    (hmatch : matchesRow engine (candidateColumns dsConfig.searchColumns columns) query
      (columns.zip (columns.map f)) = true) :
    matchesRow engine (candidateColumns dsConfig.searchColumns columns) query
      (columns.zip (columns.map f')) = true ∧
    textContent (candidateColumns dsConfig.searchColumns columns) (columns.zip (columns.map f)) =
      textContent (candidateColumns dsConfig.searchColumns columns)
        (columns.zip (columns.map f')) := by
  rw [shownMatches_uniform engine dsConfig query hlimit,
    shownMatches_uniform engine dsConfig query hlimit, if_pos hmatch] at h
  split_ifs at h with hmatch'
  · refine ⟨hmatch', ?_⟩
    have htext := congrArg Match.textContent (List.cons.inj h).1
    simp only [shownMatch, displayed] at htext
    split_ifs at htext
    · exact String.ofList_injective htext
    · exact String.ofList_injective htext

/-- A cell that matches, of a search column in the table. -/
theorem matchesRow_of_cell {columns searchColumns : List String} {f : String → Cell} {col : String}
    (hsearch : col ∈ searchColumns) (hcol : col ∈ columns)
    (hlike : engine.like query (f col) = true) :
    matchesRow engine searchColumns query (columns.zip (columns.map f)) = true := by
  rw [matchesRow, List.any_eq_true]
  refine ⟨col, hsearch, ?_⟩
  rw [lookup_map f hcol]
  exact hlike

theorem candidateColumns_sub (searchColumns columns : List String) :
    ∀ col ∈ candidateColumns searchColumns columns, col ∈ columns := by
  unfold candidateColumns
  split
  · exact fun col hcol => hcol
  · intro col hcol
    exact of_decide_eq_true (List.mem_filter.1 hcol).2

include hnodup

/-- A candidate that the snippet reaches and that is no display column is shown. -/
theorem snippet_shown (hlimit : 0 < limit) {col : String}
    (hcol : col ∈ (candidateColumns dsConfig.searchColumns columns).take 500)
    (hdisplay : col ∉ dsConfig.displayColumns) (hsearch : col ∈ dsConfig.searchColumns) :
    ∃ t t' : Table, t.columns = columns ∧ Agree dsConfig.displayColumns t t' ∧
      SameMatches engine dsConfig.searchColumns query t t' ∧
      shownMatches engine dsConfig query limit offset t ≠
        shownMatches engine dsConfig query limit offset t' := by
  obtain ⟨before, after, hsplit, hbefore⟩ := List.eq_append_cons_of_mem hcol
  have hsub := candidateColumns_sub dsConfig.searchColumns columns
  have hmem := hsub col (List.mem_of_mem_take hcol)
  have hlength : before.length < 500 := by
    have := congrArg List.length hsplit
    rw [List.length_take, List.length_append, List.length_cons] at this
    omega
  have hcandidates : candidateColumns dsConfig.searchColumns columns = before ++ col ::
      (after ++ (candidateColumns dsConfig.searchColumns columns).drop 500) := by
    conv_lhs => rw [← List.take_append_drop 500 (candidateColumns dsConfig.searchColumns columns),
      hsplit]
    simp
  have hsubBefore : ∀ x ∈ before, x ∈ columns := fun x hx =>
    hsub x (by rw [hcandidates]; exact List.mem_append_left _ hx)
  have hlike : ∀ start : String, engine.like query (marked col (start ++ query) col) = true := by
    intro start
    rw [marked, if_pos rfl]
    exact like_text rfl
  refine ⟨uniform columns hnodup (offset.toNat + 1) (marked col ("a" ++ query)),
    uniform columns hnodup (offset.toNat + 1) (marked col ("b" ++ query)), rfl,
    uniform_agree fun c hc => ?_, uniform_related ?_, fun h => ?_⟩
  · have hne : c ≠ col := fun heq => hdisplay (heq ▸ hc)
    rw [marked, marked, if_neg hne, if_neg hne]
  · rw [matchesRow_of_cell hsearch hmem (hlike "a"), matchesRow_of_cell hsearch hmem (hlike "b")]
  · obtain ⟨-, htext⟩ := shown_of_uniform hnodup hlimit h
      (matchesRow_of_cell (List.mem_of_mem_take hcol) hmem (hlike "a"))
    have hta : ("a" ++ query).toList = 'a' :: query.toList := by simp
    have htb : ("b" ++ query).toList = 'b' :: query.toList := by simp
    have ha := textContent_marked hcandidates hbefore hlength hta hmem hsubBefore
    have hb := textContent_marked hcandidates hbefore hlength htb hmem hsubBefore
    rw [htext, hb] at ha
    cases ha

/-- Without a search column in the table every column decides which rows are shown. -/
theorem fallback_shown (hlimit : 0 < limit) {col : String}
    (hnone : dsConfig.searchColumns.filter (· ∈ columns) = []) (hcol : col ∈ columns)
    (hdisplay : col ∉ dsConfig.displayColumns) :
    ∃ t t' : Table, t.columns = columns ∧ Agree dsConfig.displayColumns t t' ∧
      SameMatches engine dsConfig.searchColumns query t t' ∧
      shownMatches engine dsConfig query limit offset t ≠
        shownMatches engine dsConfig query limit offset t' := by
  have hcandidates : candidateColumns dsConfig.searchColumns columns = columns := by
    rw [candidateColumns, hnone]
  have hsearch : ∀ row : List Cell,
      matchesRow engine dsConfig.searchColumns query (columns.zip row) = false := by
    intro row
    rw [← matchesRow_filter dsConfig.searchColumns columns, hnone]
    rfl
  refine ⟨uniform columns hnodup (offset.toNat + 1) fun c => if c = col then .text query else .null,
    uniform columns hnodup (offset.toNat + 1) fun _ => .null, rfl,
    uniform_agree fun c hc => ?_, uniform_related ?_, fun h => ?_⟩
  · have hne : c ≠ col := fun heq => hdisplay (heq ▸ hc)
    rw [if_neg hne]
  · rw [hsearch, hsearch]
  · have hlike : engine.like query (if col = col then Cell.text query else .null) = true := by
      rw [if_pos rfl]
      exact like_text (show query = "" ++ query by simp)
    have hcandidate : col ∈ candidateColumns dsConfig.searchColumns columns := by
      rw [hcandidates]
      exact hcol
    obtain ⟨hmatch, -⟩ := shown_of_uniform hnodup hlimit h
      (matchesRow_of_cell hcandidate hcol hlike)
    obtain ⟨c, hc, hmatch⟩ := List.any_eq_true.1 hmatch
    rw [hcandidates] at hc
    rw [lookup_map _ hc] at hmatch
    cases hmatch

end

/-- **A response shows nothing but the display columns and which rows match iff the search reads
    no row or its candidates are display columns, as far as the snippet reaches.** -/
theorem searchDataset_iff (engine : Engine) (config : PortalConfig)
    (getDataset : String → Option Record) {datasetId : String} {dsConfig : DatasetPortalConfig}
    (hconfig : config.datasets datasetId = some dsConfig)
    (hvisible : dsConfig.portalVisible = true) (hdisplay : dsConfig.displayColumns ≠ [])
    {columns : List String} (hnodup : columns.Nodup) (query : String) (limit offset : ℤ) :
    (∀ t t' : Table, t.columns = columns → Agree dsConfig.displayColumns t t' →
      SameMatches engine dsConfig.searchColumns query t t' →
      searchDataset engine config getDataset t datasetId query limit offset =
        searchDataset engine config getDataset t' datasetId query limit offset) ↔
    ReadsNothing engine getDataset dsConfig datasetId query limit offset ∨
      Confined dsConfig columns := by
  -- a search that reads rows responds with its matches
  have hread : ¬ ReadsNothing engine getDataset dsConfig datasetId query limit offset →
      0 < min limit dsConfig.maxResults ∧ ∀ t t' : Table, t.columns = columns → columns ≠ [] →
        Agree dsConfig.displayColumns t t' →
        (searchDataset engine config getDataset t datasetId query limit offset =
          searchDataset engine config getDataset t' datasetId query limit offset ↔
        shownMatches engine dsConfig query (min limit dsConfig.maxResults) offset t =
          shownMatches engine dsConfig query (min limit dsConfig.maxResults) offset t') := by
    intro hquiet
    rw [ReadsNothing, not_or, not_or, not_or, not_not, not_le] at hquiet
    obtain ⟨hrecord, hquery, hrefusal, hlimit⟩ := hquiet
    obtain ⟨record, hrecord⟩ := Option.ne_none_iff_exists'.1 hrecord
    refine ⟨hlimit, fun t t' ht hne hagree => ?_⟩
    rw [searchDataset_eq hconfig hvisible hrecord hquery hrefusal t (ht ▸ hne),
      searchDataset_eq hconfig hvisible hrecord hquery hrefusal t' (hagree.columns ▸ ht ▸ hne)]
    constructor
    · exact fun h => congrArg PortalSearchResult.results (Except.ok.inj h)
    · exact fun h => by rw [h]
  constructor
  · intro h
    by_contra hleak
    rw [not_or] at hleak
    obtain ⟨hquiet, hconfined⟩ := hleak
    obtain ⟨hlimit, hread⟩ := hread hquiet
    unfold Confined at hconfined
    split at hconfined
    · rename_i hnone
      push Not at hconfined
      obtain ⟨col, hcol, hout⟩ := hconfined
      obtain ⟨t, t', ht, hagree, hmatches, hne⟩ := fallback_shown hnodup hlimit hnone hcol hout
      exact hne ((hread t t' ht (List.ne_nil_of_mem hcol) hagree).1 (h t t' ht hagree hmatches))
    · rename_i candidates hcandidates
      push Not at hconfined
      obtain ⟨col, hcol, hout⟩ := hconfined
      have hsame : candidateColumns dsConfig.searchColumns columns =
          dsConfig.searchColumns.filter (· ∈ columns) := by
        unfold candidateColumns
        split
        · contradiction
        · rfl
      have hmem := List.mem_filter.1 (List.mem_of_mem_take hcol)
      obtain ⟨t, t', ht, hagree, hmatches, hne⟩ :=
        snippet_shown hnodup hlimit (hsame ▸ hcol) hout hmem.1
      exact hne ((hread t t' ht (List.ne_nil_of_mem (of_decide_eq_true hmem.2)) hagree).1
        (h t t' ht hagree hmatches))
  · rintro h t t' ht hagree hmatches
    by_cases hquiet : ReadsNothing engine getDataset dsConfig datasetId query limit offset
    · exact searchDataset_quiet hconfig hagree.columns (.inl hquiet)
    · by_cases hne : columns = []
      · exact searchDataset_quiet hconfig hagree.columns (.inr (ht.trans hne))
      · have hconfined : Confined dsConfig t.columns := ht ▸ h.resolve_left hquiet
        exact ((hread hquiet).2 t t' ht hne hagree).2
          (hconfined.shownMatches hdisplay hagree hmatches _ _)

end

/-! ## A column that is searched and not displayed -/

/-- A database of ASCII letters, which refuses negative limits and offsets. -/
def asciiEngine : Engine where
  lowerChar := Char.toLower
  refusal limit offset :=
    if limit < 0 ∨ offset < 0 then some ⟨"BinderException", "LIMIT and OFFSET cannot be negative"⟩
    else none
  lower_percent := by decide
  refuses_negative limit offset h := by
    split_ifs at h with hneg
    rw [not_or, not_lt, not_lt] at hneg
    exact hneg

/-- A portal of one dataset, with a display column and the columns that are searched. -/
def contacts (searchColumns : List String) : PortalConfig where
  datasets id :=
    if id = "d1" then some ⟨true, searchColumns, ["name"], 100⟩ else none

def contactsRecord (_ : String) : Option Record := some ⟨"contacts.csv", true⟩

/-- A row of contacts. -/
def contact (phone : String) : Table where
  columns := ["name", "phone"]
  rows := [[.text "Ada", .text phone]]
  nodup := by decide
  lengths row h := by
    rw [List.mem_singleton.1 h]
    rfl

/-- A dataset whose only search column is displayed shows nothing else. -/
theorem searchDataset_iff_name : Confined ⟨true, ["name"], ["name"], 100⟩ ["name", "phone"] ∧
    ∀ t t' : Table, t.columns = ["name", "phone"] →
    Agree ["name"] t t' → SameMatches asciiEngine ["name"] "ada" t t' →
    searchDataset asciiEngine (contacts ["name"]) contactsRecord t "d1" "ada" 20 0 =
      searchDataset asciiEngine (contacts ["name"]) contactsRecord t' "d1" "ada" 20 0 := by
  have hconfined : Confined ⟨true, ["name"], ["name"], 100⟩ ["name", "phone"] := by
    simp [Confined]
  exact ⟨hconfined, (searchDataset_iff asciiEngine (contacts ["name"]) contactsRecord rfl rfl
    (by simp) (by decide) "ada" 20 0).2 (.inr hconfined)⟩

/-- The snippet shows the phone number that was searched. -/
theorem phone_shown :
    Agree ["name"] (contact "555-1") (contact "555-2") ∧
    SameMatches asciiEngine ["phone"] "555" (contact "555-1") (contact "555-2") ∧
    searchDataset asciiEngine (contacts ["phone"]) contactsRecord (contact "555-1") "d1" "555"
        20 0 ≠
      searchDataset asciiEngine (contacts ["phone"]) contactsRecord (contact "555-2") "d1" "555"
        20 0 := by
  refine ⟨⟨rfl, ?_⟩, ?_, ?_⟩
  · simp [Table.rowData, contact, RowData.get?]
  · refine .cons ?_ .nil
    decide
  · intro h
    exact absurd (congrArg (Except.map fun r => r.results.map fun m => m.textContent.toList) h)
      (by decide)

end Portal

end AimData
