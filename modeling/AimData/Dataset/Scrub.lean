/-
  The scan of a dataset for personal data, and its scrubbing.

  The scrub walks the whole table, but only in the columns where the scan of a sample has
  found an entity, in a text of fewer than 10,000 characters.  The table it writes is the
  table with every found cell anonymized exactly when those columns cover the found cells
  (`scrubDataset_iff`).
-/
import AimData.Lib.Except

namespace AimData

namespace Pii

/-! ## Tables -/

/-- A cell: a null, a text, or a value of another type. -/
inductive Cell (α : Type) where
  | null
  | text (s : String)
  | other (value : α)
  deriving DecidableEq

/-- A Parquet file, whose columns have names of their own. -/
structure Table (α : Type) where
  columns : List String
  rows : List (List (Cell α))
  nodup : columns.Nodup
  lengths : ∀ row ∈ rows, row.length = columns.length

/-- A path with the last component's parts, `parent / (stem + suffix)`. -/
structure Path where
  parent : String
  stem : String
  suffix : String
  deriving DecidableEq

/-- The rows that `USING SAMPLE n` draws of a table. -/
structure Draw (α : Type) where
  rows : Table α → ℕ → List (List (Cell α))
  subset : ∀ t n, rows t n ⊆ t.rows
  length : ∀ t n, n ≤ t.rows.length → (rows t n).length = n

/-! ## The libraries -/

structure RecognizerResult where
  entityType : String
  start : ℕ
  stop : ℕ
  score : ℚ
  deriving DecidableEq

structure OperatorConfig where
  operatorName : String
  params : List (String × String)
  deriving DecidableEq

/-- The analyzer and the anonymizer, the texts of values that are not texts, and `round(x, 3)`. -/
structure Engine (α : Type) where
  str : α → String
  analyze : String → List String → ℚ → List RecognizerResult
  anonymize : String → List RecognizerResult → List (String × OperatorConfig) → String
  round3 : ℚ → ℚ

variable {α : Type}

/-- `str(value)`, of a value that is not null -/
def Cell.str? (engine : Engine α) : Cell α → Option String
  | null => none
  | text s => some s
  | other value => some (engine.str value)

def defaultEntities : List String :=
  ["PERSON", "EMAIL_ADDRESS", "PHONE_NUMBER", "US_SSN", "CREDIT_CARD", "US_PASSPORT",
    "US_DRIVER_LICENSE", "IP_ADDRESS", "IBAN_CODE", "US_BANK_NUMBER", "LOCATION", "DATE_TIME",
    "NRP", "MEDICAL_LICENSE", "URL"]

def defaultScoreThreshold : ℚ := 1 / 2

/-- `entities or DEFAULT_ENTITIES` -/
def orDefault (entities : List String) : List String :=
  if entities = [] then defaultEntities else entities

/-- `PIIService.scan_text` -/
def scanText (engine : Engine α) (text : String) (entities : List String)
    (scoreThreshold : ℚ) : List RecognizerResult :=
  if text = "" then [] else engine.analyze text (orDefault entities) scoreThreshold

/-! ## What is found in a column -/

inductive RiskLevel where
  | none | low | medium | high
  deriving DecidableEq

structure SampleMatch where
  entityType : String
  confidence : ℚ
  maskedValue : String
  deriving DecidableEq

structure PIIResult where
  columnName : String
  piiDetected : Bool
  entityTypes : List (String × ℕ)
  maxConfidence : ℚ
  sampleMatches : List SampleMatch
  deriving DecidableEq

def PIIResult.new (columnName : String) : PIIResult := ⟨columnName, false, [], 0, []⟩

/-- `counts[e] = counts.get(e, 0) + 1` -/
def increment (e : String) : List (String × ℕ) → List (String × ℕ)
  | [] => [(e, 1)]
  | (k, n) :: counts => if k = e then (k, n + 1) :: counts else (k, n) :: increment e counts

/-- `PIIResult._mask_value` -/
def maskValue (value : List Char) : List Char :=
  if value.length ≤ 4 then "****".toList
  else value.take 2 ++ List.replicate (value.length - 4) '*' ++ value.drop (value.length - 2)

/-- `PIIResult.add_match` -/
def PIIResult.addMatch (engine : Engine α) (text : List Char) (r : PIIResult)
    (found : RecognizerResult) : PIIResult :=
  { r with
    piiDetected := true
    entityTypes := increment found.entityType r.entityTypes
    maxConfidence := max r.maxConfidence found.score
    sampleMatches :=
      if r.sampleMatches.length < 3 then
        r.sampleMatches ++ [⟨found.entityType, engine.round3 found.score,
          String.ofList (maskValue ((text.take found.stop).drop found.start))⟩]
      else r.sampleMatches }

def highRiskTypes : List String :=
  ["US_SSN", "CREDIT_CARD", "US_PASSPORT", "US_DRIVER_LICENSE", "US_BANK_NUMBER"]

def mediumRiskTypes : List String :=
  ["PERSON", "EMAIL_ADDRESS", "PHONE_NUMBER", "IBAN_CODE", "LOCATION"]

/-- `PIIResult._calculate_risk_level` -/
def PIIResult.riskLevel (r : PIIResult) : RiskLevel :=
  if r.piiDetected = false then .none
  else if r.entityTypes.any (·.1 ∈ highRiskTypes) ∧ 7 / 10 ≤ r.maxConfidence then .high
  else if r.entityTypes.any (·.1 ∈ mediumRiskTypes) ∧ 6 / 10 ≤ r.maxConfidence then .medium
  else .low

/-- An entry of `column_results`. -/
structure ColumnResult where
  column : String
  piiDetected : Bool
  piiTypes : List String
  entityCounts : List (String × ℕ)
  maxConfidence : ℚ
  sampleMatches : List SampleMatch
  riskLevel : RiskLevel
  deriving DecidableEq

def PIIResult.toDict (engine : Engine α) (r : PIIResult) : ColumnResult where
  column := r.columnName
  piiDetected := r.piiDetected
  piiTypes := r.entityTypes.map Prod.fst
  entityCounts := r.entityTypes
  maxConfidence := engine.round3 r.maxConfidence
  sampleMatches := r.sampleMatches
  riskLevel := r.riskLevel

/-! ## The scan -/

structure ScanResult where
  totalRows : ℕ
  rowsSampled : ℕ
  totalColumns : ℕ
  columnsWithPii : ℕ
  columnsClean : ℕ
  overallRisk : RiskLevel
  privacyScore : ℤ
  columnResults : List ColumnResult
  cleanColumns : List String
  entitiesChecked : List String
  deriving DecidableEq

/-- The loop that settles `overall_risk`, left at the first high risk. -/
def overallRisk : RiskLevel → List RiskLevel → RiskLevel
  | overall, [] => overall
  | _, .high :: _ => .high
  | overall, .medium :: risks => overallRisk (if overall = .high then overall else .medium) risks
  | overall, .low :: risks => overallRisk (if overall = .none then .low else overall) risks
  | overall, .none :: risks => overallRisk overall risks

def RiskLevel.deduction : RiskLevel → ℤ
  | none => 0
  | low => 1
  | medium => 2
  | high => 3

/-- `PIIService._calculate_privacy_score`, whose scores are whole -/
def privacyScore (findings : List ColumnResult) (overall : RiskLevel) : ℤ :=
  if findings = [] ∨ overall = .none then 10
  else max 0 (findings.foldl (fun score f => score - f.riskLevel.deduction) 10)

section
variable (engine : Engine α) (entities : List String) (scoreThreshold : ℚ)

/-- The cell of a column, scanned if its text has 1 to 9,999 characters. -/
def scanCell (results : List PIIResult) (p : String × Cell α) : List PIIResult :=
  match p.2.str? engine with
  | none => results
  | some text =>
    if 0 < text.length ∧ text.length < 10000 then
      results.map fun r =>
        if r.columnName = p.1 then
          (scanText engine text entities scoreThreshold).foldl
            (PIIResult.addMatch engine text.toList) r
        else r
    else results

def scanRow (columns : List String) (results : List PIIResult) (row : List (Cell α)) :
    List PIIResult :=
  (columns.zip row).foldl (scanCell engine entities scoreThreshold) results

/-- `PIIService.scan_dataset`, of the Parquet file with the table -/
def scanDataset (draw : Draw α) (t : Table α) (sampleSize : ℕ) : ScanResult :=
  let entities := orDefault entities
  let sampleRows := draw.rows t (min sampleSize t.rows.length)
  let columnResults :=
    sampleRows.foldl (scanRow engine entities scoreThreshold t.columns)
      (t.columns.map PIIResult.new)
  let columnsWithPii := (columnResults.filter PIIResult.piiDetected).map (PIIResult.toDict engine)
  let columnsClean := (columnResults.filter (!·.piiDetected)).map PIIResult.columnName
  let overall := overallRisk .none (columnResults.map PIIResult.riskLevel)
  { totalRows := t.rows.length
    rowsSampled := sampleRows.length
    totalColumns := t.columns.length
    columnsWithPii := columnsWithPii.length
    columnsClean := columnsClean.length
    overallRisk := overall
    privacyScore := privacyScore columnsWithPii overall
    columnResults := columnsWithPii
    cleanColumns := columnsClean
    entitiesChecked := entities }

end

/-! ## The scrub -/

/-- The anonymization operator of a strategy. -/
def operatorOf : String → Except Raised OperatorConfig
  | "mask" => .ok ⟨"replace", [("new_value", "***")]⟩
  | "redact" => .ok ⟨"redact", []⟩
  | "hash" => .ok ⟨"hash", [("hash_type", "sha256")]⟩
  | strategy => raise "ValueError" ("Invalid strategy: " ++ strategy)

structure ScrubResult (α : Type) where
  scrubbedFilepath : Path
  strategyUsed : String
  beforeScan : ScanResult
  afterScan : ScanResult
  piiRemovedCount : ℕ

section
variable (engine : Engine α) (operator : OperatorConfig)

/-- `anonymizer.anonymize(…)`, of a text and what is found in it -/
def anonymized (text : String) (found : List RecognizerResult) : String :=
  engine.anonymize text found ((found.map (·.entityType)).eraseDups.map fun e => (e, operator))

/-- The text that replaces a cell, where there is one. -/
def scrubbed? (columnResults : List ColumnResult) (colName : String) (cell : Cell α) :
    Option String :=
  match cell.str? engine with
  | none => none
  | some text =>
    match columnResults.find? (·.column = colName) with
    | none => none
    | some _ =>
      match scanText engine text [] defaultScoreThreshold with
      | [] => none
      | found => some (anonymized engine operator text found)

def scrubCell (columnResults : List ColumnResult) (colName : String) (cell : Cell α) : Cell α :=
  match scrubbed? engine operator columnResults colName cell with
  | none => cell
  | some text => .text text

/-- The table with its rows scrubbed. -/
def Table.scrub (columnResults : List ColumnResult) (t : Table α) : Table α where
  columns := t.columns
  rows := t.rows.map (List.zipWith (scrubCell engine operator columnResults) t.columns)
  nodup := t.nodup
  lengths := by
    intro row hrow
    obtain ⟨r, hr, rfl⟩ := List.mem_map.1 hrow
    simp [t.lengths r hr]

/-- How many cells are replaced. -/
def removedCount (columnResults : List ColumnResult) (t : Table α) : ℕ :=
  (t.rows.map fun row => (t.columns.zip row).countP fun p =>
    (scrubbed? engine operator columnResults p.1 p.2).isSome).sum

end

/-- `PIIService.scrub_dataset`: what it returns and the table that it writes.  The two draws
    are those of the scans before and after. -/
def scrubDataset (engine : Engine α) (before after : Draw α) (t : Table α) (filepath : Path)
    (strategy : String) (sampleSize : ℕ) : Except Raised (ScrubResult α × Table α) := do
  let beforeScan := scanDataset engine [] defaultScoreThreshold before t sampleSize
  let operator ← operatorOf strategy
  let scrubbed := t.scrub engine operator beforeScan.columnResults
  let afterScan := scanDataset engine [] defaultScoreThreshold after scrubbed sampleSize
  return (⟨{ filepath with stem := filepath.stem ++ "_scrubbed" }, strategy, beforeScan, afterScan,
    removedCount engine operator beforeScan.columnResults t⟩, scrubbed)

/-! ## What the scan finds -/

variable {engine : Engine α}

/-- The scan reads the cell's text and finds an entity in it. -/
def Seen (engine : Engine α) (entities : List String) (scoreThreshold : ℚ) (cell : Cell α) : Prop :=
  ∃ text, cell.str? engine = some text ∧ 0 < text.length ∧ text.length < 10000 ∧
    scanText engine text entities scoreThreshold ≠ []

/-- Some of the rows has a cell in the column in which the scan finds an entity. -/
def Flagged (engine : Engine α) (entities : List String) (scoreThreshold : ℚ)
    (columns : List String) (rows : List (List (Cell α))) (col : String) : Prop :=
  ∃ row ∈ rows, ∃ p ∈ columns.zip row, p.1 = col ∧ Seen engine entities scoreThreshold p.2

/-- Something is recorded of the column. -/
def Detected (results : List PIIResult) (col : String) : Prop :=
  ∃ r ∈ results, r.columnName = col ∧ r.piiDetected = true

section
variable {entities : List String} {scoreThreshold : ℚ}

theorem addMatches_columnName (text : List Char) (found : List RecognizerResult) (r : PIIResult) :
    (found.foldl (PIIResult.addMatch engine text) r).columnName = r.columnName := by
  induction found generalizing r with
  | nil => rfl
  | cons m found ih => rw [List.foldl_cons, ih]; rfl

theorem addMatches_detected (text : List Char) (found : List RecognizerResult) (r : PIIResult) :
    (found.foldl (PIIResult.addMatch engine text) r).piiDetected = true ↔
      r.piiDetected = true ∨ found ≠ [] := by
  induction found generalizing r with
  | nil => simp
  | cons m found ih => rw [List.foldl_cons, ih]; simp [PIIResult.addMatch]

theorem scanCell_columnNames (results : List PIIResult) (p : String × Cell α) :
    (scanCell engine entities scoreThreshold results p).map PIIResult.columnName =
      results.map PIIResult.columnName := by
  unfold scanCell
  split
  · rfl
  · split_ifs
    · rw [List.map_map]
      refine List.map_congr_left fun r _ => ?_
      simp only [Function.comp_apply]
      split_ifs
      · exact addMatches_columnName _ _ r
      · rfl
    · rfl

/-- What one cell adds to what is recorded. -/
theorem scanCell_detected (results : List PIIResult) (p : String × Cell α) (col : String) :
    Detected (scanCell engine entities scoreThreshold results p) col ↔ Detected results col ∨
      (p.1 = col ∧ Seen engine entities scoreThreshold p.2 ∧
        col ∈ results.map PIIResult.columnName) := by
  unfold scanCell
  split
  · rename_i hnone
    simp [Seen, hnone]
  · rename_i text htext
    split_ifs with hlen
    · have hseen : Seen engine entities scoreThreshold p.2 ↔
          scanText engine text entities scoreThreshold ≠ [] := by simp [Seen, htext, hlen]
      rw [hseen]
      constructor
      · rintro ⟨r', hr', hcol, hdet⟩
        obtain ⟨r, hr, rfl⟩ := List.mem_map.1 hr'
        split_ifs at hcol hdet with hname
        · rw [addMatches_columnName] at hcol
          rcases (addMatches_detected _ _ r).1 hdet with h | h
          · exact .inl ⟨r, hr, hcol, h⟩
          · exact .inr ⟨hname.symm.trans hcol, h, List.mem_map.2 ⟨r, hr, hcol⟩⟩
        · exact .inl ⟨r, hr, hcol, hdet⟩
      · rintro (⟨r, hr, hcol, hdet⟩ | ⟨hp, hfound, hcol⟩)
        · refine ⟨_, List.mem_map.2 ⟨r, hr, rfl⟩, ?_⟩
          split_ifs with hname
          · exact ⟨(addMatches_columnName _ _ r).trans hcol,
              (addMatches_detected _ _ r).2 (.inl hdet)⟩
          · exact ⟨hcol, hdet⟩
        · obtain ⟨r, hr, hname⟩ := List.mem_map.1 hcol
          refine ⟨_, List.mem_map.2 ⟨r, hr, rfl⟩, ?_⟩
          rw [if_pos (hname.trans hp.symm)]
          exact ⟨(addMatches_columnName _ _ r).trans hname,
            (addMatches_detected _ _ r).2 (.inr hfound)⟩
    · have hseen : ¬ Seen engine entities scoreThreshold p.2 := by
        rintro ⟨text', htext', hpos, hlt, -⟩
        cases htext.symm.trans htext'
        exact hlen ⟨hpos, hlt⟩
      simp [hseen]

theorem scanCells_columnNames (pairs : List (String × Cell α)) (results : List PIIResult) :
    (pairs.foldl (scanCell engine entities scoreThreshold) results).map PIIResult.columnName =
      results.map PIIResult.columnName := by
  induction pairs generalizing results with
  | nil => rfl
  | cons p pairs ih => rw [List.foldl_cons, ih, scanCell_columnNames]

theorem scanCells_detected (pairs : List (String × Cell α)) (results : List PIIResult)
    (col : String) :
    Detected (pairs.foldl (scanCell engine entities scoreThreshold) results) col ↔
      Detected results col ∨ ((∃ p ∈ pairs, p.1 = col ∧ Seen engine entities scoreThreshold p.2) ∧
        col ∈ results.map PIIResult.columnName) := by
  induction pairs generalizing results with
  | nil => simp
  | cons p pairs ih =>
    rw [List.foldl_cons, ih, scanCell_detected, scanCell_columnNames]
    simp only [List.mem_cons, exists_eq_or_imp]
    tauto

variable (engine entities scoreThreshold) in
/-- The scan of the rows records something of the flagged columns, and of no other one. -/
theorem scanRows_detected (columns : List String) (rows : List (List (Cell α)))
    (results : List PIIResult) (col : String) :
    Detected (rows.foldl (scanRow engine entities scoreThreshold columns) results) col ↔
      Detected results col ∨ (Flagged engine entities scoreThreshold columns rows col ∧
        col ∈ results.map PIIResult.columnName) := by
  induction rows generalizing results with
  | nil => simp [Flagged]
  | cons row rows ih =>
    rw [List.foldl_cons, ih, scanRow, scanCells_detected, scanCells_columnNames]
    simp only [Flagged, List.mem_cons, exists_eq_or_imp]
    rw [or_assoc, ← or_and_right]

theorem not_detected_new (columns : List String) (col : String) :
    ¬ Detected (columns.map PIIResult.new) col := by
  rintro ⟨r, hr, -, hdet⟩
  obtain ⟨c, -, rfl⟩ := List.mem_map.1 hr
  cases hdet

variable (engine entities scoreThreshold) in
/-- **The columns of the scan's result are those that its sample flags.** -/
theorem scanDataset_columns (draw : Draw α) (t : Table α) (sampleSize : ℕ) (col : String) :
    (∃ r ∈ (scanDataset engine entities scoreThreshold draw t sampleSize).columnResults,
      r.column = col) ↔
    Flagged engine (orDefault entities) scoreThreshold t.columns
      (draw.rows t (min sampleSize t.rows.length)) col := by
  have hrun := scanRows_detected engine (orDefault entities) scoreThreshold
    t.columns (draw.rows t (min sampleSize t.rows.length))
    (t.columns.map PIIResult.new) col
  have hmem : Flagged engine (orDefault entities) scoreThreshold t.columns
      (draw.rows t (min sampleSize t.rows.length)) col →
      col ∈ (t.columns.map PIIResult.new).map PIIResult.columnName := by
    rintro ⟨row, -, p, hp, rfl, -⟩
    rw [List.map_map]
    exact List.mem_map.2 ⟨p.1, (List.of_mem_zip hp).1, rfl⟩
  simp only [not_detected_new, false_or] at hrun
  rw [and_iff_left_of_imp hmem] at hrun
  rw [← hrun]
  simp only [scanDataset, Detected, List.mem_map, List.mem_filter]
  constructor
  · rintro ⟨_, ⟨r, ⟨hr, hdet⟩, rfl⟩, rfl⟩
    exact ⟨r, hr, rfl, hdet⟩
  · rintro ⟨r, hr, rfl, hdet⟩
    exact ⟨_, ⟨r, ⟨hr, hdet⟩, rfl⟩, rfl⟩

end

/-! ## What the scrub writes -/

/-- The cell as it should be written: its text anonymized if an entity is found in it. -/
def Cell.anonymize (engine : Engine α) (operator : OperatorConfig) (cell : Cell α) : Cell α :=
  match cell.str? engine with
  | none => cell
  | some s =>
    match scanText engine s [] defaultScoreThreshold with
    | [] => cell
    | found => .text (anonymized engine operator s found)

/-- The table written is the table with every cell as it should be. -/
structure Scrubs (engine : Engine α) (operator : OperatorConfig) (t out : Table α) : Prop where
  columns : out.columns = t.columns
  rows : out.rows = t.rows.map (List.map (Cell.anonymize engine operator))

/-- A cell is anonymized in the columns of the scan's result and left as it is elsewhere. -/
theorem scrubCell_eq (operator : OperatorConfig) (columnResults : List ColumnResult)
    (colName : String) (cell : Cell α) :
    scrubCell engine operator columnResults colName cell =
      if ∃ r ∈ columnResults, r.column = colName then cell.anonymize engine operator else cell := by
  unfold scrubCell scrubbed? Cell.anonymize
  cases cell.str? engine with
  | none => simp
  | some text =>
    cases hfind : columnResults.find? (·.column = colName) with
    | none =>
      have hnone : ¬ ∃ r ∈ columnResults, r.column = colName := by
        rintro ⟨r, hr, hcol⟩
        simpa [hcol] using List.find?_eq_none.1 hfind r hr
      simp [hnone]
    | some r =>
      have hsome : ∃ r ∈ columnResults, r.column = colName :=
        ⟨r, List.mem_of_find?_eq_some hfind, by simpa using List.find?_some hfind⟩
      rw [if_pos hsome]
      cases hscan : scanText engine text [] defaultScoreThreshold with
      | nil => simp only [hscan]
      | cons m found => simp only [hscan]

theorem zipWith_eq_map_iff {β γ δ : Type} {f : β → γ → δ} {g : γ → δ} {bs : List β} {cs : List γ}
    (h : cs.length = bs.length) :
    List.zipWith f bs cs = cs.map g ↔ ∀ p ∈ bs.zip cs, f p.1 p.2 = g p.2 := by
  have hmap : cs.map g = (bs.zip cs).map fun p => g p.2 := by
    conv_lhs => rw [← List.map_snd_zip h.le, List.map_map]
    rfl
  rw [hmap, ← List.map_uncurry_zip_eq_zipWith, List.map_inj_left]
  rfl

variable (engine) in
/-- **The scrub writes every cell as it should be iff the cells that should change lie in the
    columns flagged by the drawn rows.** -/
theorem scrubDataset_iff (before after : Draw α) (t : Table α) (filepath : Path)
    (sampleSize : ℕ) {strategy : String} {operator : OperatorConfig}
    (h : operatorOf strategy = .ok operator) :
    ∃ r out, scrubDataset engine before after t filepath strategy sampleSize = .ok (r, out) ∧
      (Scrubs engine operator t out ↔
        ∀ row ∈ t.rows, ∀ p ∈ t.columns.zip row, p.2.anonymize engine operator ≠ p.2 →
          Flagged engine defaultEntities defaultScoreThreshold t.columns
            (before.rows t (min sampleSize t.rows.length)) p.1) := by
  refine ⟨_, _, by simp only [scrubDataset, h, Except.ok_bind, Except.pure_eq_ok]; rfl, ?_⟩
  have hflagged := scanDataset_columns engine [] defaultScoreThreshold
    before t sampleSize
  constructor
  · rintro ⟨-, hrows⟩ row hrow p hp hchange
    have hcells := (zipWith_eq_map_iff (t.lengths row hrow)).1
      (List.map_inj_left.1 hrows row hrow) p hp
    rw [scrubCell_eq] at hcells
    split_ifs at hcells with hcol
    · exact (hflagged p.1).1 hcol
    · exact absurd hcells.symm hchange
  · intro hcover
    refine ⟨rfl, List.map_congr_left fun row hrow => ?_⟩
    refine (zipWith_eq_map_iff (t.lengths row hrow)).2 fun p hp => ?_
    rw [scrubCell_eq]
    split_ifs with hcol
    · rfl
    · by_contra hne
      exact hcol ((hflagged p.1).2 (hcover row hrow p hp fun heq => hne heq.symm))

/-- An analyzer that knows one e-mail address. -/
def exampleEngine : Engine Unit where
  str _ := "()"
  analyze text _ _ := if text = "a@b.c" then [⟨"EMAIL_ADDRESS", 0, 5, 1⟩] else []
  anonymize _ _ _ := "***"
  round3 := id

def exampleTable : Table Unit where
  columns := ["email"]
  rows := [[.text "-"], [.text "a@b.c"]]
  nodup := by decide
  lengths := by decide

/-- The first rows. -/
def exampleDraw : Draw Unit where
  rows t n := t.rows.take n
  subset t n := List.take_subset n t.rows
  length t n h := by simpa using h

def examplePath : Path := ⟨"/data/processed", "orders", ".parquet"⟩

def maskOperator : OperatorConfig := ⟨"replace", [("new_value", "***")]⟩

theorem scrubDataset_iff_mask :
    ∃ r out, scrubDataset exampleEngine exampleDraw exampleDraw exampleTable examplePath "mask" 2 =
      .ok (r, out) ∧ Scrubs exampleEngine maskOperator exampleTable out := by
  obtain ⟨r, out, hok, hiff⟩ := scrubDataset_iff exampleEngine exampleDraw exampleDraw
    exampleTable examplePath 2 (show operatorOf "mask" = .ok maskOperator from rfl)
  refine ⟨r, out, hok, hiff.2 fun row hrow p hp _ => ?_⟩
  refine ⟨[.text "a@b.c"], by decide, ("email", .text "a@b.c"), by decide, ?_, "a@b.c", by decide⟩
  exact (List.mem_singleton.1 (List.of_mem_zip hp).1).symm

/-- The drawn row has no address, so the address of the other row is written as it is. -/
theorem undrawn_kept :
    ∃ r out, scrubDataset exampleEngine exampleDraw exampleDraw exampleTable examplePath "mask" 1 =
      .ok (r, out) ∧ .text "a@b.c" ∈ out.rows.flatten ∧
      ¬ Scrubs exampleEngine maskOperator exampleTable out := by
  refine ⟨_, _, rfl, by decide, ?_⟩
  rintro ⟨-, hrows⟩
  exact absurd hrows (by decide)

end Pii

end AimData
