/-
  When a query result is extracted.

  An extraction that holds its result has recorded every batch under the columns' schema
  (`records_of_extracts`), which says what every batch must show; a result that is so is
  extracted, whatever its number of batches (`streamToParquet_iff`).
-/
import AimData.Dataset.Extract

namespace AimData

namespace Extract

/-! ## When an extraction succeeds -/

section
variable {lib : Python} {arrow : Arrow} {r : Result}

theorem Result.length_row {row : Row} (h : row ∈ r.rows) : row.length = r.colNames.length := by
  rw [Result.colNames, List.length_map, (r.typed row h).length_eq]

/-- A value in a row has the type of its column. -/
theorem Result.typed_get {row : Row} (h : row ∈ r.rows) {i : ℕ} {c : Column} {v : Value}
    (hc : r.columns[i]? = some c) (hv : row[i]? = some (some v)) : v.HasType c.type := by
  obtain ⟨hi, rfl⟩ := List.getElem?_eq_some_iff.1 hc
  obtain ⟨hi', hv⟩ := List.getElem?_eq_some_iff.1 hv
  have := (List.forall₂_iff_get.1 (r.typed row h)).2 i hi hi'
  exact this v (by simpa using hv)

/-- A value under a name is a value of a column of that name. -/
theorem Result.typed_columnData {rows : List Row} (hrows : ∀ row ∈ rows, row ∈ r.rows)
    {name : String} {v : Value} (h : some v ∈ columnData r.colNames rows name) :
    ∃ c ∈ r.columns, c.name = name ∧ v.HasType c.type := by
  obtain ⟨row, hrow, i, hname, hv⟩ := mem_columnData.1 h
  rw [Result.colNames, List.getElem?_map] at hname
  obtain ⟨c, hc, rfl⟩ := Option.map_eq_some_iff.1 hname
  exact ⟨c, List.mem_of_getElem? hc, rfl, r.typed_get (hrows row hrow) hc hv⟩

theorem sample_mem {values : List Cell} {v : Value} (h : values.findSome? id = some v) :
    some v ∈ values := by
  obtain ⟨cell, hcell, hv⟩ := List.exists_of_findSome?_eq_some h
  exact hv ▸ hcell

/-- The schema that a file takes from the types of the columns. -/
def Result.schema (r : Result) : List Field := r.columns.filterMap Column.field

theorem PyType.arrow_eq_none {type : PyType} : type.arrow = none ↔ type = .bytes := by
  cases type <;> simp [PyType.arrow]

theorem Column.field_eq_none {c : Column} : c.field = none ↔ c.type = .bytes := by
  rw [Column.field, Option.map_eq_none_iff, PyType.arrow_eq_none]

theorem Result.filterMap_kept : r.kept.filterMap (fun p => p.1.field) = r.schema := by
  have hfst : r.columns.zipIdx.map Prod.fst = r.columns := List.zipIdx_map_fst 0 r.columns
  rw [Result.kept, List.filterMap_filter, Result.schema]
  conv_rhs => rw [← hfst, List.filterMap_map]
  refine List.filterMap_congr fun p _ => ?_
  by_cases hp : p.1.type = .bytes
  · simp [hp, Column.field_eq_none.2 hp]
  · simp [hp]

/-- A file that holds a result has the schema of its columns. -/
theorem Holds.schema {file : Table} (h : Holds lib r file) : file.schema = r.schema := by
  rw [← Result.filterMap_kept]
  obtain ⟨-, h⟩ := h
  generalize r.kept = kept at h ⊢
  induction h with
  | nil => rfl
  | cons hp _ ih =>
    rw [List.filterMap_cons, ← hp.1, Table.schema, List.map_cons]
    exact congrArg _ ih

/-- The fields that a batch infers are those of the columns, if its schema is theirs. -/
theorem inferred_of_schema {rows : List Row} (h : inferredSchema r.colNames rows = r.schema) :
    ∀ c ∈ r.columns, inferred c.name (columnData r.colNames rows c.name) = c.field :=
  field_of_schema (g := fun name => inferred name (columnData r.colNames rows name))
    (fun _ _ => inferred_name) h

/-- After a batch of the columns' schema no batch is left out. -/
theorem recordBatch_ne_none {first rows : List Row} (hne : r.schema ≠ [])
    (hfirst : inferredSchema r.colNames first = r.schema) (hrows : ∀ row ∈ rows, row ∈ r.rows) :
    recordBatch lib arrow r.colNames rows ≠ .ok none := by
  intro hnone
  obtain ⟨f, hf⟩ := List.exists_mem_of_ne_nil _ hne
  obtain ⟨c, hc, hfield⟩ := List.mem_filterMap.1 hf
  have hskip : inferred c.name (columnData r.colNames rows c.name) = none := by
    refine Option.eq_none_iff_forall_ne_some.2 fun f' hf' => ?_
    have : f' ∈ inferredSchema r.colNames rows :=
      List.mem_filterMap.2 ⟨c.name, List.mem_map_of_mem hc, hf'⟩
    rw [recordBatch_none hnone] at this
    cases this
  -- the sample is of a binary column of the same name, which the first batch shows not to be
  unfold inferred at hskip
  split at hskip
  · cases hskip
  · rename_i sample hsample
    obtain ⟨c', hc', hname, htype⟩ := r.typed_columnData hrows (sample_mem hsample)
    rw [Option.map_eq_none_iff, htype.1, PyType.arrow_eq_none] at hskip
    have h := inferred_of_schema hfirst c hc
    rw [← hname, inferred_of_schema hfirst c' hc', Column.field_eq_none.2 hskip, hfield] at h
    cases h

/-- An extraction that holds a result with rows records every batch under the columns' schema. -/
theorem records_of_extracts (hrows : r.rows ≠ []) (h : Extracts lib arrow r none) :
    r.schema ≠ [] ∧ ∃ tables, List.Forall₂ (Records lib arrow r.colNames r.schema)
      (fetches batchSize r.rows.length r.rows) tables ∧
      (tables.map Table.rowCount).sum = r.rows.length := by
  obtain ⟨hok, file, hfile, hholds⟩ := h
  have hpos : 0 < r.rows.length := List.length_pos_iff.2 hrows
  have hmem : ∀ rows ∈ fetches batchSize r.rows.length r.rows, ∀ row ∈ rows, row ∈ r.rows :=
    fun rows => mem_of_fetches
  rw [streamToParquet] at hok hfile
  cases hfetches : fetches batchSize r.rows.length r.rows with
  | nil =>
    have := fetches_flatten (le_refl r.rows.length)
    rw [hfetches] at this
    exact absurd this.symm hrows
  | cons first batches =>
    rw [hfetches] at hok hfile hmem
    rw [extractBatches] at hok hfile
    cases hfirst : recordBatch lib arrow r.colNames first with
    | error e => simp [hfirst] at hok
    | ok batch =>
      cases batch with
      | none =>
        simp only [hfirst, if_true, Option.none_or, Option.getD_none, Option.some.injEq] at hfile
        have := hholds.1
        rw [← hfile] at this
        simp [emptyTable, Table.rowCount] at this
        omega
      | some batch =>
        simp only [hfirst, writeBatch] at hok hfile
        obtain ⟨hne, hbatch, -, -⟩ := recordBatch_some hfirst
        obtain ⟨file', hfile', hschema⟩ : ∃ file', (extractBatches lib arrow r.colNames (some batch)
            (0 + first.length) batches).1 = some file' ∧ file'.schema = batch.schema :=
          extractBatches_schema batches batch (0 + first.length)
        generalize hrun : extractBatches lib arrow r.colNames (some batch) (0 + first.length)
          batches = out at hok hfile hfile'
        obtain ⟨writer, total, failure⟩ := out
        obtain rfl : writer = some file' := hfile'
        cases failure with
        | some e => cases hok
        | none =>
          obtain rfl : file' = file := by
            simp only at hfile
            split_ifs at hfile
            · simpa using hfile
            · simpa using hfile
          rw [hholds.schema] at hschema
          rw [← hschema] at hbatch
          have hnil : r.schema ≠ [] := by
            rw [hschema]
            simpa [Table.schema] using hne
          obtain ⟨tables, htables, hwriter⟩ := extractBatches_written (fun rows hr =>
            recordBatch_ne_none hnil hbatch.symm (hmem rows (List.mem_cons_of_mem _ hr))) hrun
          have hsame : ∀ t ∈ tables, t.schema = batch.schema := by
            intro t ht
            obtain ⟨rows, -, hrecords⟩ := forall₂_mem_right htables ht
            exact hrecords.2
          rw [← hschema] at htables
          refine ⟨hnil, batch :: tables, .cons ⟨hfirst, hschema.symm⟩ htables, ?_⟩
          rw [List.map_cons, List.sum_cons, ← (Table.rowCount_foldl hne hsame).2,
            ← Option.some.inj hwriter, hholds.1]

/-- What the record batches say about the columns of a result. -/
theorem records_mem {rows : List Row} {batch : Table}
    (h : Records lib arrow r.colNames r.schema rows batch) :
    (∀ c ∈ r.columns, inferred c.name (columnData r.colNames rows c.name) = c.field) ∧
    ∀ c ∈ r.columns, c.type ≠ .bytes →
      batch.rowCount = (columnData r.colNames rows c.name).length := by
  obtain ⟨hbatch, hschema⟩ := h
  obtain ⟨-, hinferred, hlength, -⟩ := recordBatch_some hbatch
  refine ⟨inferred_of_schema (hinferred.symm.trans hschema), fun c hc htype => ?_⟩
  obtain ⟨f, hf⟩ := Option.ne_none_iff_exists'.1 (mt Column.field_eq_none.1 htype)
  have hmem : f ∈ batch.schema := hschema ▸ List.mem_filterMap.2 ⟨c, hc, hf⟩
  obtain ⟨column, hcolumn, rfl⟩ := List.mem_map.1 hmem
  obtain ⟨hcount, hdata⟩ := hlength column hcolumn
  have hname : column.1.name = c.name := by
    obtain ⟨type, -, h⟩ := Option.map_eq_some_iff.1 hf
    rw [← h]
  rw [← hcount, hdata, hname]

/-- A kept column shares its name with no other. -/
theorem count_of_records (hrows : r.rows ≠ []) {batches : List (List Row)} {tables : List Table}
    (hflat : batches.flatten = r.rows)
    (htables : List.Forall₂ (Records lib arrow r.colNames r.schema) batches tables)
    (hsum : (tables.map Table.rowCount).sum = r.rows.length) {c : Column}
    (hc : c ∈ r.columns) (htype : c.type ≠ .bytes) : r.colNames.count c.name = 1 := by
  have hrow : ∀ row ∈ batches.flatten, row.length = r.colNames.length := fun row h =>
    r.length_row (hflat ▸ h)
  have hcounts : (tables.map Table.rowCount).sum =
      r.colNames.count c.name * (batches.map List.length).sum := by
    clear hsum hflat
    induction htables with
    | nil => rfl
    | cons hbatch _ ih =>
      rw [List.flatten_cons] at hrow
      rw [List.map_cons, List.sum_cons, ih fun row h => hrow row (List.mem_append_right _ h),
        (records_mem hbatch).2 c hc htype, length_columnData fun row h =>
          hrow row (List.mem_append_left _ h), List.map_cons, List.sum_cons]
      ring
  rw [hsum, ← List.length_flatten, hflat] at hcounts
  have hpos : 0 < r.rows.length := List.length_pos_iff.2 hrows
  exact Nat.eq_of_mul_eq_mul_right hpos (by rw [one_mul]; exact hcounts.symm)

theorem Result.mem_kept {p : Column × ℕ} :
    p ∈ r.kept ↔ r.columns[p.2]? = some p.1 ∧ p.1.type ≠ .bytes := by
  rw [Result.kept, List.mem_filter, List.mem_zipIdx_iff_getElem?, decide_eq_true_iff]

theorem Result.colNames_get {i : ℕ} {c : Column} (h : r.columns[i]? = some c) :
    r.colNames[i]? = some c.name := by
  rw [Result.colNames, List.getElem?_map, h]
  rfl

/-- A kept column whose name comes once is alone under it. -/
theorem Result.alone_of_count {p : Column × ℕ} (hp : p ∈ r.kept)
    (hcount : r.colNames.count p.1.name = 1) (j : ℕ) (hj : r.colNames[j]? = some p.1.name) :
    j = p.2 :=
  count_le_one_iff.1 hcount.le j p.2 hj (Result.colNames_get (Result.mem_kept.1 hp).1)

/-- A batch that is recorded converts the cells of a kept column. -/
theorem converts_of_records {rows : List Row} {batch : Table} {p : Column × ℕ} (hp : p ∈ r.kept)
    (hrows : ∀ row ∈ rows, row ∈ r.rows) (hcount : r.colNames.count p.1.name = 1)
    (h : Records lib arrow r.colNames r.schema rows batch) :
    ∀ cell ∈ cellsAt rows p.2, ∃ held, convertCell lib p.1.type cell = .ok held := by
  obtain ⟨hget, hne⟩ := Result.mem_kept.1 hp
  have hdata := columnData_alone (fun row hr => r.length_row (hrows row hr))
    (Result.colNames_get hget) (r.alone_of_count hp hcount)
  intro cell hcell
  cases cell with
  | none => exact ⟨none, rfl⟩
  | some v =>
    obtain ⟨column, hcolumn⟩ := (recordBatch_some h.1).2.2.2 p.1.name
      (List.mem_map_of_mem (List.mem_of_getElem? hget))
    rw [hdata, toArrowColumn] at hcolumn
    cases hsample : (cellsAt rows p.2).findSome? id with
    | none =>
      have := List.findSome?_eq_none_iff.1 hsample _ hcell
      cases this
    | some sample =>
      have htype : sample.type = p.1.type := by
        obtain ⟨row, hrow, hv⟩ := List.mem_map.1 (sample_mem hsample)
        exact (r.typed_get (hrows row hrow) hget (Option.join_eq_some_iff.1 hv)).1
      simp only [hsample, htype] at hcolumn
      cases harrow : p.1.type.arrow with
      | none => exact absurd (PyType.arrow_eq_none.1 harrow) hne
      | some type =>
        simp only [harrow] at hcolumn
        obtain ⟨converted, hconverted, -⟩ := Except.bind_eq_ok.1 hcolumn
        exact List.mapM_ok_iff.1 ⟨converted, hconverted⟩ _ hcell

theorem extractable_of_extracts (hrows : r.rows ≠ []) (h : Extracts lib arrow r none) :
    Extractable lib r := by
  obtain ⟨hnil, tables, htables, hsum⟩ := records_of_extracts hrows h
  have hflat := fetches_flatten (le_refl r.rows.length)
  have hcount : ∀ p ∈ r.kept, r.colNames.count p.1.name = 1 := fun p hp =>
    count_of_records hrows hflat htables hsum (List.mem_of_getElem? (Result.mem_kept.1 hp).1)
      (Result.mem_kept.1 hp).2
  refine ⟨fun hkept => ?_, fun p hp q hq hname => ?_, fun rows hmem c hc => ?_,
    fun p hp cell hcell => ?_⟩
  · rw [← Result.filterMap_kept, hkept] at hnil
    exact hnil rfl
  · have hq' := List.mem_zipIdx_iff_getElem?.1 hq
    have hindex : q.2 = p.2 := r.alone_of_count hp (hcount p hp) q.2
      (hname ▸ Result.colNames_get hq')
    rw [hindex, (Result.mem_kept.1 hp).1, Option.some.injEq] at hq'
    exact Prod.ext hq'.symm hindex
  · obtain ⟨batch, -, hbatch⟩ := forall₂_mem_right (List.Forall₂.flip htables) hmem
    have hfield := (records_mem hbatch).1 c hc
    unfold inferred at hfield
    split at hfield
    · obtain ⟨type, harrow, htype⟩ := Option.map_eq_some_iff.1 hfield.symm
      rw [harrow, ← (Field.mk.inj htype).2]
      exact .inl rfl
    · rename_i sample hsample
      exact .inr ⟨sample, sample_mem hsample⟩
  · obtain ⟨row, hrow, rfl⟩ := List.mem_map.1 hcell
    rw [← hflat] at hrow
    obtain ⟨rows, hrows', hrow⟩ := List.mem_flatten.1 hrow
    obtain ⟨batch, -, hbatch⟩ := forall₂_mem_right (List.Forall₂.flip htables) hrows'
    exact converts_of_records hp (mem_of_fetches hrows') (hcount p hp) hbatch _
      (List.mem_map_of_mem hrow)

/-! ## The file of an extractable result -/

variable (lib r) in
/-- What a file holds of a cell that converts. -/
def heldCell (type : PyType) (cell : Cell) : Cell :=
  match convertCell lib type cell with
  | .ok held => held
  | .error _ => none

theorem convertCell_held {type : PyType} {cell : Cell}
    (h : ∃ held, convertCell lib type cell = .ok held) :
    convertCell lib type cell = .ok (heldCell lib type cell) := by
  obtain ⟨held, h⟩ := h
  rw [heldCell, h]

variable (lib r) in
/-- The columns of some rows of a result, as a file holds them. -/
def tableOf (rows : List Row) : Table :=
  r.kept.filterMap fun p => p.1.field.map fun f =>
    (f, (cellsAt rows p.2).map (heldCell lib p.1.type))

theorem tableOf_append (rows rows' : List Row) :
    tableOf lib r (rows ++ rows') = (tableOf lib r rows).append (tableOf lib r rows') := by
  rw [tableOf, tableOf, tableOf]
  induction r.kept with
  | nil => rfl
  | cons p kept ih =>
    cases h : p.1.field with
    | none =>
      simp only [List.filterMap_cons, h, Option.map_none]
      exact ih
    | some f =>
      simp only [List.filterMap_cons, h, Option.map_some, ih]
      simp [Table.append, cellsAt]

theorem schema_tableOf (rows : List Row) : (tableOf lib r rows).schema = r.schema := by
  rw [← Result.filterMap_kept, tableOf, Table.schema, List.map_filterMap]
  refine List.filterMap_congr fun p _ => ?_
  cases p.1.field <;> rfl

theorem length_tableOf {rows : List Row} {c : Field × List Cell} (hc : c ∈ tableOf lib r rows) :
    c.2.length = rows.length := by
  obtain ⟨p, -, hp⟩ := List.mem_filterMap.1 hc
  obtain ⟨f, -, rfl⟩ := Option.map_eq_some_iff.1 hp
  simp [cellsAt]

theorem tableOf_ne_nil (hkept : r.kept ≠ []) (rows : List Row) : tableOf lib r rows ≠ [] := by
  obtain ⟨p, hp⟩ := List.exists_mem_of_ne_nil _ hkept
  obtain ⟨f, hf⟩ := Option.ne_none_iff_exists'.1
    (mt Column.field_eq_none.1 (Result.mem_kept.1 hp).2)
  have hmem : (f, (cellsAt rows p.2).map (heldCell lib p.1.type)) ∈ tableOf lib r rows :=
    List.mem_filterMap.2 ⟨p, hp, by rw [hf]; rfl⟩
  exact List.ne_nil_of_mem hmem

theorem rowCount_tableOf (hkept : r.kept ≠ []) (rows : List Row) :
    (tableOf lib r rows).rowCount = rows.length := by
  cases htable : tableOf lib r rows with
  | nil => exact absurd htable (tableOf_ne_nil hkept rows)
  | cons c table => exact length_tableOf (htable ▸ List.mem_cons_self)

/-- What a value of a type is converted to fits the column. -/
theorem fits_of_convert {type : PyType} {t : ArrowType} {v held : Value} (hv : v.HasType type)
    (ht : type.arrow = some t) (h : convert lib type v = .ok held) : t.Fits held := by
  obtain ⟨rfl, hint⟩ := hv
  cases v with
  | bytes content => cases ht
  | int i =>
    obtain rfl := Option.some.inj ht
    obtain rfl := Except.ok.inj h
    exact hint i rfl
  | decimal repr =>
    obtain rfl := Option.some.inj ht
    obtain ⟨x, -, h⟩ := Except.bind_eq_ok.1 h
    obtain rfl := Except.ok.inj h
    exact trivial
  | structured repr =>
    obtain rfl := Option.some.inj ht
    obtain ⟨x, -, h⟩ := Except.bind_eq_ok.1 h
    obtain rfl := Except.ok.inj h
    exact trivial
  | datetime micros offset =>
    obtain rfl := Option.some.inj ht
    cases offset with
    | none =>
      obtain rfl := Except.ok.inj h
      exact trivial
    | some offset =>
      simp only [Value.type, convert, toUtc] at h
      split_ifs at h
      · obtain rfl := Except.ok.inj h
        exact trivial
      · cases h
  | _ =>
    obtain rfl := Option.some.inj ht
    obtain rfl := Except.ok.inj h
    exact trivial

theorem mapM_held {type : PyType} {cells : List Cell}
    (h : ∀ cell ∈ cells, ∃ held, convertCell lib type cell = .ok held) :
    cells.mapM (convertCell lib type) = .ok (cells.map (heldCell lib type)) :=
  List.mapM_ok_map fun cell hcell => convertCell_held (h cell hcell)

section
variable (h : Extractable lib r) {rows : List Row}
  (hmem : rows ∈ fetches batchSize r.rows.length r.rows)

include h hmem

/-- A kept column of a batch is held as it converts. -/
theorem Extractable.kept_column {p : Column × ℕ} (hp : p ∈ r.kept) :
    toArrowColumn lib arrow p.1.name (columnData r.colNames rows p.1.name) =
      .ok (p.1.field.map fun f => (f, (cellsAt rows p.2).map (heldCell lib p.1.type))) := by
  obtain ⟨hget, hne⟩ := Result.mem_kept.1 hp
  have hrows := mem_of_fetches hmem
  have halone : ∀ j, r.colNames[j]? = some p.1.name → j = p.2 := by
    intro j hj
    rw [Result.colNames, List.getElem?_map] at hj
    obtain ⟨c, hc, hname⟩ := Option.map_eq_some_iff.1 hj
    have := h.alone p hp (c, j) (List.mem_zipIdx_iff_getElem?.2 hc) hname
    rw [← this]
  have hdata := columnData_alone (fun row hr => r.length_row (hrows row hr))
    (Result.colNames_get hget) halone
  have hshown := h.shown rows hmem p.1 (List.mem_of_getElem? hget)
  have hconverts : ∀ cell ∈ cellsAt rows p.2, ∃ held, convertCell lib p.1.type cell = .ok held := by
    intro cell hcell
    obtain ⟨row, hrow, rfl⟩ := List.mem_map.1 hcell
    exact h.converts p hp _ (List.mem_map_of_mem (hrows row hrow))
  have htyped : ∀ v, some v ∈ cellsAt rows p.2 → v.HasType p.1.type := by
    intro v hv
    obtain ⟨row, hrow, hv⟩ := List.mem_map.1 hv
    exact r.typed_get (hrows row hrow) hget (Option.join_eq_some_iff.1 hv)
  rw [hdata] at hshown ⊢
  rw [toArrowColumn, Column.field]
  cases hsample : (cellsAt rows p.2).findSome? id with
  | none =>
    have hnull : ∀ cell ∈ cellsAt rows p.2, cell = none := fun cell hcell =>
      List.findSome?_eq_none_iff.1 hsample cell hcell
    rcases hshown with harrow | ⟨v, hv⟩
    · have hheld : (cellsAt rows p.2).map (heldCell lib p.1.type) = cellsAt rows p.2 := by
        refine (List.map_congr_left fun cell hcell => ?_).trans (List.map_id _)
        rw [hnull cell hcell]
        rfl
      rw [harrow, hheld, arrow.array_of_fits _ _ fun v hv => by cases hnull _ hv]
      rfl
    · cases hnull _ hv
  | some sample =>
    have htype := (htyped sample (sample_mem hsample)).1
    simp only [htype]
    cases harrow : p.1.type.arrow with
    | none => exact absurd (PyType.arrow_eq_none.1 harrow) hne
    | some type =>
      have hfits : ∀ v, some v ∈ (cellsAt rows p.2).map (heldCell lib p.1.type) → type.Fits v := by
        intro v hv
        obtain ⟨cell, hcell, hheld⟩ := List.mem_map.1 hv
        have hconvert := convertCell_held (hconverts cell hcell)
        rw [hheld] at hconvert
        cases cell with
        | none => cases hconvert
        | some u =>
          obtain ⟨w, hw, hwv⟩ := Except.bind_eq_ok.1 hconvert
          obtain rfl : w = v := Option.some.inj (Except.ok.inj hwv)
          exact fits_of_convert (htyped u hcell) harrow hw
      simp only [mapM_held hconverts, Except.ok_bind, arrow.array_of_fits _ _ hfits]
      rfl

/-- A binary column is left out of a batch. -/
theorem Extractable.binary_column {c : Column} (hc : c ∈ r.columns) (htype : c.type = .bytes) :
    toArrowColumn lib arrow c.name (columnData r.colNames rows c.name) = .ok none := by
  obtain ⟨v, hv⟩ := (h.shown rows hmem c hc).resolve_left (by rw [htype]; simp [PyType.arrow])
  rw [toArrowColumn]
  cases hsample : (columnData r.colNames rows c.name).findSome? id with
  | none => cases List.findSome?_eq_none_iff.1 hsample _ hv
  | some sample =>
    obtain ⟨c', hc', hname, hsample⟩ := r.typed_columnData (mem_of_fetches hmem)
      (sample_mem hsample)
    have hbytes : c'.type = .bytes := by
      by_contra hne
      obtain ⟨i, hi⟩ := List.mem_iff_getElem?.1 hc
      obtain ⟨j, hj⟩ := List.mem_iff_getElem?.1 hc'
      have := h.alone (c', j) (Result.mem_kept.2 ⟨hj, hne⟩) (c, i)
        (List.mem_zipIdx_iff_getElem?.2 hi) hname.symm
      rw [Prod.mk.injEq] at this
      exact hne (this.1 ▸ htype)
    simp [hsample.1, hbytes, PyType.arrow]

/-- Every batch is recorded, under the schema of the columns. -/
theorem Extractable.records : Records lib arrow r.colNames r.schema rows (tableOf lib r rows) := by
  have hkept := h.kept
  refine ⟨?_, schema_tableOf rows⟩
  have hcolumns : r.colNames.mapM (fun name => toArrowColumn lib arrow name
      (columnData r.colNames rows name)) = .ok (r.columns.zipIdx.map fun p =>
        p.1.field.map fun f => (f, (cellsAt rows p.2).map (heldCell lib p.1.type))) := by
    have hnames : r.colNames = r.columns.zipIdx.map fun p => p.1.name := by
      conv_lhs => rw [Result.colNames, ← List.zipIdx_map_fst 0 r.columns, List.map_map]
      rfl
    conv_lhs => rw [hnames, List.mapM_map]
    refine List.mapM_ok_map fun p hp => ?_
    have hget := List.mem_zipIdx_iff_getElem?.1 hp
    rw [Function.comp_apply, ← hnames]
    by_cases htype : p.1.type = .bytes
    · rw [h.binary_column hmem (List.mem_of_getElem? hget) htype, Column.field_eq_none.2 htype]
      rfl
    · exact h.kept_column hmem (Result.mem_kept.2 ⟨hget, htype⟩)
  have hbatch : (r.columns.zipIdx.map fun p => p.1.field.map fun f =>
      (f, (cellsAt rows p.2).map (heldCell lib p.1.type))).reduceOption = tableOf lib r rows := by
    rw [List.reduceOption, List.filterMap_map, tableOf, Result.kept, List.filterMap_filter]
    refine List.filterMap_congr fun p _ => ?_
    by_cases htype : p.1.type = .bytes
    · simp [htype, Column.field_eq_none.2 htype]
    · simp [htype]
  rw [recordBatch, hcolumns, Except.ok_bind]
  simp only [hbatch, if_neg (tableOf_ne_nil hkept rows), rowCount_tableOf hkept]
  rw [if_pos fun c hc => length_tableOf hc]
  rfl

end

/-- A file of the columns of a result holds it. -/
theorem Extractable.holds (h : Extractable lib r) : Holds lib r (tableOf lib r r.rows) := by
  refine ⟨rowCount_tableOf h.kept _, ?_⟩
  have hconverts := h.converts
  have hfield : ∀ p ∈ r.kept, p.1.type ≠ .bytes := fun p hp => (Result.mem_kept.1 hp).2
  rw [tableOf]
  generalize r.kept = kept at hconverts hfield
  induction kept with
  | nil => exact .nil
  | cons p kept ih =>
    obtain ⟨f, hf⟩ := Option.ne_none_iff_exists'.1
      (mt Column.field_eq_none.1 (hfield p List.mem_cons_self))
    simp only [List.filterMap_cons, hf, Option.map_some]
    refine .cons ⟨hf.symm, ?_⟩ (ih (fun q hq => hconverts q (List.mem_cons_of_mem _ hq))
      fun q hq => hfield q (List.mem_cons_of_mem _ hq))
    rw [List.forall₂_map_right_iff, List.forall₂_same]
    exact fun cell hcell => convertCell_held (hconverts p List.mem_cons_self cell hcell)

theorem extracts_of_extractable (hrows : r.rows ≠ []) (h : Extractable lib r)
    (earlier : Option Table) : Extracts lib arrow r earlier := by
  have hflat := fetches_flatten (le_refl r.rows.length)
  have hrecords : ∀ rows ∈ fetches batchSize r.rows.length r.rows,
      Records lib arrow r.colNames r.schema rows (tableOf lib r rows) := fun rows => h.records
  rw [Extracts, streamToParquet]
  cases hfetches : fetches batchSize r.rows.length r.rows with
  | nil =>
    rw [hfetches] at hflat
    exact absurd hflat.symm hrows
  | cons first batches =>
    rw [hfetches] at hrecords hflat
    have hfirst : first ≠ [] := fetches_ne_nil (hfetches ▸ List.mem_cons_self)
    have hpos : 0 < first.length := List.length_pos_iff.2 hfirst
    have htables : List.Forall₂ (Records lib arrow r.colNames (tableOf lib r first).schema) batches
        (batches.map (tableOf lib r)) := by
      rw [schema_tableOf, List.forall₂_map_right_iff, List.forall₂_same]
      exact fun rows hr => hrecords rows (List.mem_cons_of_mem _ hr)
    have hfold : ∀ (l : List (List Row)) (rows : List Row),
        (l.map (tableOf lib r)).foldl Table.append (tableOf lib r rows) =
          tableOf lib r (rows ++ l.flatten) := by
      intro l
      induction l with
      | nil => intro rows; simp
      | cons rows' l ih =>
        intro rows
        rw [List.map_cons, List.foldl_cons, ← tableOf_append, ih, List.flatten_cons,
          List.append_assoc]
    have hloop : extractBatches lib arrow r.colNames none 0 (first :: batches) =
        (some (tableOf lib r r.rows), 0 + first.length + (batches.map List.length).sum, none) := by
      rw [extractBatches, (hrecords first List.mem_cons_self).1]
      simp only
      rw [writeBatch]
      simp only
      rw [extractBatches_of_records htables, hfold, ← List.flatten_cons, hflat]
    rw [hloop]
    simp only [Option.some_or]
    rw [if_neg (by omega)]
    exact ⟨rfl, _, rfl, h.holds⟩

/-- **A result with rows is extracted, whatever file lay at the path, iff it is extractable; a
    result without rows leaves the file that lay there.** -/
theorem streamToParquet_iff (lib : Python) (arrow : Arrow) (r : Result) :
    (r.rows ≠ [] → ((∀ earlier, Extracts lib arrow r earlier) ↔ Extractable lib r)) ∧
    (r.rows = [] → ∀ earlier,
      (∀ file ∈ (streamToParquet lib arrow r.colNames r.rows earlier).2, file.rowCount = 0) ↔
        ∀ file ∈ earlier, file.rowCount = 0) := by
  refine ⟨fun hrows => ⟨fun h => extractable_of_extracts hrows (h none),
    extracts_of_extractable hrows⟩, fun hrows earlier => ?_⟩
  rw [hrows]
  cases earlier with
  | none => simp [streamToParquet, fetches, extractBatches, emptyTable, Table.rowCount]
  | some file => simp [streamToParquet, fetches, extractBatches]

end

/-! ## A late number -/

instance (t : ArrowType) (v : Value) : Decidable (t.Fits v) := by
  unfold ArrowType.Fits
  split <;> infer_instance

/-- An array that holds what fits and refuses the rest. -/
def strictArrow : Arrow where
  array type cells :=
    if ∀ cell ∈ cells, ∀ v ∈ cell, type.Fits v then .ok cells
    else raise "ArrowInvalid" "Could not convert value"
  array_of_fits type cells h := if_pos fun cell hcell v hv => h v (Option.mem_def.1 hv ▸ hcell)
  length_array type cells stored h := by
    split_ifs at h
    · rw [← Except.ok.inj h]
    · cases h

/-- The conversions of texts; no float is read and nothing is dumped. -/
def plainPython : Python where
  float _ := raise "ValueError" "could not convert to float"
  str v :=
    match v with
    | .time s | .uuid s | .text s => s
    | _ => ""
  dumps _ := raise "TypeError" "not JSON serializable"

/-- A column of integers, null in its first ten thousand rows. -/
def lateNumber : Result where
  columns := [⟨"n", .int⟩]
  rows := List.replicate batchSize [none] ++ [[some (.int 1)]]
  typed row h := by
    rcases List.mem_append.1 h with h | h
    · rw [List.eq_of_mem_replicate h]
      simp
    · rw [List.mem_singleton.1 h]
      simp [Value.HasType, Value.type]

theorem first_mem_fetches {rows rest : List Row} {n : ℕ} (h : rows.length = batchSize) :
    rows ∈ fetches batchSize (n + 1) (rows ++ rest) := by
  cases rows with
  | nil => cases h
  | cons row rows =>
    have htake : ((row :: rows) ++ rest).take batchSize = row :: rows := List.take_left' h
    rw [List.cons_append, fetches, ← List.cons_append, htake]
    exact List.mem_cons_self

/-- The first batch shows no integer, and no result clears the rows of an earlier file. -/
theorem lateNumber_not_extracted :
    (¬ ∀ earlier, Extracts plainPython strictArrow lateNumber earlier) ∧
    ∃ earlier : Table, earlier.rowCount = 1 ∧
      (streamToParquet plainPython strictArrow ["n"] [] (some earlier)).2 = some earlier := by
  refine ⟨fun h => ?_, [(⟨"n", .int64⟩, [some (.int 1)])], rfl, rfl⟩
  have hshown := (extractable_of_extracts (List.append_ne_nil_of_right_ne_nil _ (by simp))
    (h none)).shown
  have hlength : lateNumber.rows.length = batchSize + 1 := by
    show (List.replicate batchSize [none] ++ [[some (Value.int 1)]]).length = _
    rw [List.length_append, List.length_replicate]
    rfl
  have hfirst : List.replicate batchSize [none] ∈
      fetches batchSize lateNumber.rows.length lateNumber.rows := by
    rw [hlength]
    exact first_mem_fetches List.length_replicate
  rcases hshown _ hfirst ⟨"n", .int⟩ (by simp [lateNumber]) with h | ⟨v, hv⟩
  · simp [PyType.arrow] at h
  · obtain ⟨row, hrow, i, -, hv⟩ := mem_columnData.1 hv
    rw [List.eq_of_mem_replicate hrow] at hv
    exact absurd hv (by cases i <;> simp)

end Extract

end AimData
