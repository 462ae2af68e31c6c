/-
  The external sort of `build_disk_tree`: spill runs of sorted records and
  their merges, four at a time, under the disk budget.

  A job is a program over its directory and its disk counters.  What it sees
  of the machine (free space, cancellation, object sizes) is an arbitrary
  `Env`.  The result is that every job that gets through leaves one run, the
  sorted permutation of the records it was given.
-/
import AimData.Lib.Files
import AimData.Lib.KWay
import AimData.Lib.Program
import AimData.Merkle.Hash

namespace AimData

open Program

/-! ## Budgets -/

structure WorkerBudget where
  rssBytes : ℤ := 512 * 1024 * 1024
  runBytes : ℤ := 64 * 1024 * 1024
  batchBytes : ℤ := 16 * 1024 * 1024
  recordBytes : ℤ := 8 * 1024 * 1024
  diskBytes : ℤ := 20 * 1024 ^ 3
  reserveBytes : ℤ := 1024 ^ 3
  deriving DecidableEq, Repr

def WorkerBudget.validate (budget : WorkerBudget) : Except CommitmentValidationError Unit :=
  if budget.rssBytes < 1 ∨ budget.runBytes < 1 ∨ budget.batchBytes < 1 ∨ budget.recordBytes < 1 ∨
      budget.diskBytes < 1 ∨ budget.reserveBytes < 1 then refuse "invalid_budget"
  else if budget.runBytes > 64 * 1024 ^ 2 ∨ budget.batchBytes > 16 * 1024 ^ 2 ∨
      budget.recordBytes > 8 * 1024 ^ 2 then refuse "invalid_budget"
  else .ok ()

/-- What a job sees of its machine: the answers to its successive looks at the
    disk and at the cancel event, and `sys.getsizeof` of a bytes object of a
    given length and of a pair. -/
structure Env where
  free : ℕ → ℤ
  cancelled : ℕ → Bool
  sizeofBytes : ℕ → ℕ
  sizeofPair : ℕ

/-- The state of a job: its directory, the counters of `_DiskBudget`, and the
    number of looks at the machine so far. -/
structure World where
  files : Files
  used : ℤ
  freeRemaining : ℤ
  nextProbe : ℤ
  clock : ℕ

inductive Fault where
  | refused (e : CommitmentValidationError)
  | fileExists
  | fileNotFound
  | struct
  deriving DecidableEq, Repr

abbrev Job := Program World Fault

def Job.raise {α : Type} (code : String) : Job α := throw (.refused { code := code })

def Job.ofExcept {α : Type} : Except CommitmentValidationError α → Job α
  | .ok a => pure a
  | .error e => throw (.refused e)

@[simp] theorem returns_raise {α : Type} {code : String} {a : α} {w w' : World} :
    ¬ Returns (Job.raise code : Job α) w a w' := returns_throw

@[simp] theorem returns_jobOfExcept {α : Type} {x : Except CommitmentValidationError α} {a : α}
    {w w' : World} : Returns (Job.ofExcept x) w a w' ↔ x = .ok a ∧ w = w' := by
  cases x with
  | ok b => simp [Job.ofExcept]
  | error e => simp [Job.ofExcept]

/-- `_DiskBudget.__init__` -/
def diskBudgetInit (env : Env) (budget : WorkerBudget) : Job Unit :=
  modify fun w => { w with
    used := 0
    freeRemaining := env.free w.clock - budget.reserveBytes
    nextProbe := 0
    clock := w.clock + 1 }

/-- The probe of the free space that `check` makes at each mebibyte. -/
def probe (env : Env) (budget : WorkerBudget) (w : World) : World :=
  if w.used ≥ w.nextProbe then
    { w with
      freeRemaining := env.free w.clock - budget.reserveBytes
      nextProbe := w.used + 1024 * 1024 }
  else w

/-- `_DiskBudget.check` -/
def check (env : Env) (budget : WorkerBudget) (amount : ℤ) : Job Unit := do
  let w ← get
  if env.cancelled w.clock then Job.raise "cancelled"
  else do
    let w := probe env budget w
    set { w with clock := w.clock + 1 }
    if w.used + amount > budget.diskBytes ∨ amount > w.freeRemaining then
      Job.raise "disk_resource_limit"
    else modify fun w => { w with
      freeRemaining := w.freeRemaining - amount
      used := w.used + amount }

/-- `_DiskBudget.remove` -/
def remove (path : String) : Job Unit := do
  let w ← get
  match w.files.lookup path with
  | none => throw .fileNotFound
  | some content => set { w with
      used := w.used - content.length
      nextProbe := 0
      files := w.files.erase path }

/-! ## Files -/

/-- `_private_file`: create a file that does not exist. -/
def privateFile (path : String) : Job Unit := do
  let w ← get
  if path ∈ w.files then throw .fileExists
  else set { w with files := w.files.insert path [] }

/-- `path.open("rb")`: the bytes a reader of the file sees. -/
def openFile (path : String) : Job Bytes := do
  let w ← get
  match w.files.lookup path with
  | none => throw .fileNotFound
  | some content => pure content

/-- `seek(pos); write(bytes)` on an open file. -/
def writeFile (path : String) (pos : ℕ) (bytes : Bytes) : Job Unit :=
  modify fun w => { w with
    files := w.files.insert path (Bytes.writeAt ((w.files.lookup path).getD []) pos bytes) }

/-- `write(bytes)` on a file that is written from its start. -/
def append (path : String) (bytes : Bytes) : Job Unit :=
  modify fun w => { w with
    files := w.files.insert path ((w.files.lookup path).getD [] ++ bytes) }

/-- `os.rename` -/
def rename (source target : String) : Job Unit := do
  let w ← get
  match w.files.lookup source with
  | none => throw .fileNotFound
  | some content => set { w with files := (w.files.erase source).insert target content }

/-- `struct.pack` of one unsigned big-endian field of `width` bytes. -/
def pack (n width : ℕ) : Job Bytes :=
  if n < 256 ^ width then pure (Bytes.ofNat n width) else throw .struct

/-! ## Records -/

/-- The pair `(base, row)` of a row and its digest. -/
structure Record where
  base : Digest
  row : Bytes

/-- Pairs are ordered by digest, then by row. -/
def Record.key (p : Record) : List ℕ ×ₗ List ℕ :=
  toLex (p.base.1.map UInt8.toNat, p.row.map UInt8.toNat)

theorem Record.key_injective : Function.Injective Record.key := by
  intro p q h
  have hinj : Function.Injective (List.map UInt8.toNat) :=
    List.map_injective_iff.2 fun _ _ => UInt8.toNat_inj.1
  obtain ⟨h1, h2⟩ := Prod.mk.inj (toLex.injective h)
  cases p; cases q
  exact congrArg₂ _ (Subtype.ext (hinj h1)) (hinj h2)

instance : LinearOrder Record := LinearOrder.lift' Record.key Record.key_injective

/-- The bytes of a record: its digest, the length of its row, the row. -/
def encodeRecord (p : Record) : Bytes := p.base.1 ++ Bytes.ofNat p.row.length 4 ++ p.row

def encodeRecords (ps : List Record) : Bytes := ps.flatMap encodeRecord

/-- `_write_record` -/
def writeRecord (env : Env) (budget : WorkerBudget) (dest : String) (p : Record) : Job Unit := do
  check env budget (36 + p.row.length)
  let size ← pack p.row.length 4
  append dest (p.base.1 ++ size ++ p.row)

/-- One turn of `_run_records`: the next record and the rest of the stream. -/
def nextRecord (limit : ℤ) (stream : Bytes) : Except CommitmentValidationError
    (Option (Record × Bytes)) :=
  if stream = [] then .ok none
  else if h : stream.length < 36 then refuse "invalid_spill"
  else
    let size := Bytes.toNat ((stream.take 36).drop 32)
    if (size : ℤ) > limit then refuse "record_resource_limit"
    else
      let row := (stream.drop 36).take size
      if row.length ≠ size then refuse "invalid_spill"
      else .ok (some (⟨⟨stream.take 32, by simp; omega⟩, row⟩, (stream.drop 36).drop size))

/-! ## Runs -/

variable (env : Env) (budget : WorkerBudget)

/-- The variables of the reading loop. -/
structure Reading where
  runs : List String
  batch : List Record
  used : ℤ
  count : ℕ
  canonicalBytes : ℕ

/-- `batch.append(pair)` and the counters after it. -/
def Reading.retain (st : Reading) (p : Record) (cost : ℤ) : Reading :=
  { st with
    batch := st.batch ++ [p]
    used := st.used + cost
    count := st.count + 1
    canonicalBytes := st.canonicalBytes + p.row.length }

def spill (st : Reading) : Job Reading :=
  if st.batch = [] then pure st
  else do
    check env budget 0
    let path := "run-" ++ toString st.runs.length
    privateFile path
    (st.batch.insertionSort (· ≤ ·)).forM (writeRecord env budget path)
    return { st with runs := st.runs ++ [path], batch := [], used := 0 }

/-- The size a retained pair is charged with. -/
def pairCost (row : Bytes) : ℤ :=
  env.sizeofBytes row.length + env.sizeofPair + env.sizeofBytes 32 + 16

/-- `if used + cost > budget.run_bytes: spill()` -/
def makeRoom (cost : ℤ) (st : Reading) : Job Reading :=
  if st.used + cost > budget.runBytes then spill env budget st else pure st

/-- `for row in canonical_rows` -/
def readRows (schemaDigest : HashValue) : List Bytes → Reading → Job Reading
  | [], st => pure st
  | row :: rows, st => do
    check env budget 0
    if (row.length : ℤ) > budget.recordBytes then Job.raise "record_resource_limit"
    else do
      let base ← Job.ofExcept (computeBaseRowDigest schemaDigest row)
      let cost := pairCost env row
      let st ← makeRoom env budget cost st
      let st := st.retain ⟨base, row⟩ cost
      if st.count > maxTreeSize then Job.raise "invalid_tree_size"
      else readRows schemaDigest rows st

/-- The loop over `heapq.merge` of record streams, given by their heads and
    what follows them; the first argument bounds the number of records. -/
def mergeStreams (dest : String) : ℕ → List (Record × Bytes) → Job Unit
  | 0, _ => pure ()
  | _ + 1, [] => pure ()
  | fuel + 1, h :: heads => do
    let (before, (p, rest), after) := KWay.pick h heads
    writeRecord env budget dest p
    let next ← Job.ofExcept (nextRecord budget.recordBytes rest)
    mergeStreams dest fuel (before ++ next.toList ++ after)

/-- One group of a generation. -/
def mergeGroup (output : String) (group : List String) : Job Unit := do
  let streams ← group.mapM openFile
  privateFile output
  let heads ← streams.mapM fun s => Job.ofExcept (nextRecord budget.recordBytes s)
  mergeStreams env budget output streams.flatten.length (heads.flatMap Option.toList)
  group.forM remove

/-- `for group_start in range(0, len(runs), 4)`, from `groupStart` on; the
    first argument bounds the number of groups. -/
def mergeGeneration (generation : ℕ) : ℕ → ℕ → List String → Job (List String)
  | 0, _, _ => pure []
  | _ + 1, _, [] => pure []
  | fuel + 1, groupStart, runs@(_ :: _) => do
    let output := "merge-" ++ toString generation ++ "-" ++ toString groupStart
    mergeGroup env budget output (runs.take 4)
    let merged ← mergeGeneration generation fuel (groupStart + 4) (runs.drop 4)
    return output :: merged

/-- `while len(runs) > 1`; the first argument bounds the number of
    generations. -/
def mergeRuns : ℕ → ℕ → List String → Job (List String)
  | 0, _, runs => pure runs
  | fuel + 1, generation, runs =>
    if runs.length > 1 then do
      let merged ← mergeGeneration env budget generation runs.length 0 runs
      mergeRuns fuel (generation + 1) merged
    else pure runs

/-! ## What the steps do to the directory -/

variable {env budget}

theorem files_probe (w : World) : (probe env budget w).files = w.files := by
  unfold probe
  split_ifs <;> rfl

theorem files_check {amount : ℤ} {w w' : World} {u : Unit}
    (h : Returns (check env budget amount) w u w') : w'.files = w.files := by
  replace h := returns_get_bind.1 h
  rcases returns_ite.1 h with ⟨-, h⟩ | ⟨-, h⟩
  · exact absurd h returns_raise
  · obtain ⟨_, w₁, h1, h⟩ := returns_bind.1 h
    obtain rfl := returns_set.1 h1
    rcases returns_ite.1 h with ⟨-, h⟩ | ⟨-, h⟩
    · exact absurd h returns_raise
    · obtain rfl := returns_modify.1 h
      exact files_probe w

theorem files_remove {path : String} {w w' : World} {u : Unit}
    (h : Returns (remove path) w u w') : w'.files = w.files.erase path := by
  replace h := returns_get_bind.1 h
  cases hl : w.files.lookup path with
  | none => rw [hl] at h; exact absurd h returns_throw
  | some content =>
    rw [hl] at h
    obtain rfl := returns_set.1 h
    rfl

theorem files_privateFile {path : String} {w w' : World} {u : Unit}
    (h : Returns (privateFile path) w u w') :
    path ∉ w.files ∧ w'.files = w.files.insert path [] := by
  replace h := returns_get_bind.1 h
  rcases returns_ite.1 h with ⟨-, h⟩ | ⟨hn, h⟩
  · exact absurd h returns_throw
  · obtain rfl := returns_set.1 h
    exact ⟨hn, rfl⟩

theorem returns_openFile {path : String} {w w' : World} {content : Bytes} :
    Returns (openFile path) w content w' ↔ w.files.lookup path = some content ∧ w = w' := by
  rw [openFile, returns_get_bind]
  cases w.files.lookup path <;> simp

theorem returns_pack {n width : ℕ} {b : Bytes} {w w' : World} :
    Returns (pack n width) w b w' ↔ n < 256 ^ width ∧ b = Bytes.ofNat n width ∧ w = w' := by
  rw [pack, returns_ite]
  simp only [returns_pure, returns_throw, and_false, or_false]
  rw [eq_comm (a := b)]

/-- `name` holds `content`, and every other file is as before. -/
def Holding (files files' : Files) (name : String) (content : Bytes) : Prop :=
  files'.lookup name = some content ∧ Files.Only name files files'

theorem Holding.trans {fs fs' fs'' : Files} {name : String} {c c' : Bytes}
    (h : Holding fs fs' name c) (h' : Holding fs' fs'' name c') : Holding fs fs'' name c' :=
  ⟨h'.1, h.2.trans h'.2⟩

theorem holding_append {name : String} {b c : Bytes} {w w' : World} {u : Unit}
    (hc : w.files.lookup name = some c) (h : Returns (append name b) w u w') :
    Holding w.files w'.files name (c ++ b) := by
  obtain rfl := returns_modify.1 h
  simp only [hc, Option.getD_some]
  exact ⟨AList.lookup_insert _, Files.only_insert _ _ _⟩

/-- A record that is written fits its length field, and is appended. -/
theorem holding_writeRecord {dest : String} {p : Record} {c : Bytes} {w w' : World} {u : Unit}
    (hc : w.files.lookup dest = some c) (h : Returns (writeRecord env budget dest p) w u w') :
    p.row.length < 256 ^ 4 ∧ Holding w.files w'.files dest (c ++ encodeRecord p) := by
  obtain ⟨_, w₁, h1, h⟩ := returns_bind.1 h
  obtain ⟨size, w₂, h2, h⟩ := returns_bind.1 h
  obtain ⟨hlt, rfl, rfl⟩ := returns_pack.1 h2
  have hf := files_check h1
  refine ⟨hlt, ?_⟩
  rw [← hf] at hc ⊢
  exact holding_append hc h

theorem encodeRecords_cons (p : Record) (ps : List Record) :
    encodeRecords (p :: ps) = encodeRecord p ++ encodeRecords ps := rfl

theorem holding_writeRecords {dest : String} : ∀ {ps : List Record} {c : Bytes} {w w' : World}
    {u : Unit}, w.files.lookup dest = some c →
      Returns (ps.forM (writeRecord env budget dest)) w u w' →
        (∀ p ∈ ps, p.row.length < 256 ^ 4) ∧
          Holding w.files w'.files dest (c ++ encodeRecords ps)
  | [], c, w, w', u, hc, h => by
    obtain rfl := returns_forM_nil.1 h
    refine ⟨by simp, ?_, Files.Only.refl _ _⟩
    simpa [encodeRecords] using hc
  | p :: ps, c, w, w', u, hc, h => by
    obtain ⟨w₁, h1, h2⟩ := returns_forM_cons.1 h
    obtain ⟨hp, hold⟩ := holding_writeRecord hc h1
    obtain ⟨hps, hold'⟩ := holding_writeRecords hold.1 h2
    refine ⟨fun q hq => ?_, ?_⟩
    · rcases List.mem_cons.1 hq with rfl | hq
      · exact hp
      · exact hps q hq
    · rw [encodeRecords_cons, ← List.append_assoc]
      exact hold.trans hold'

/-! ## Reading records back -/

/-- A record the readers of a job accept. -/
def Fits (budget : WorkerBudget) (p : Record) : Prop :=
  p.row.length < 256 ^ 4 ∧ (p.row.length : ℤ) ≤ budget.recordBytes

theorem nextRecord_nil (limit : ℤ) : nextRecord limit [] = .ok none := rfl

/-- **A written record is read back**, with the stream behind it. -/
theorem nextRecord_encode {p : Record} (h : Fits budget p) (rest : Bytes) :
    nextRecord budget.recordBytes (encodeRecord p ++ rest) = .ok (some (p, rest)) := by
  have hb : p.base.1.length = 32 := p.base.2
  have hs : (Bytes.ofNat p.row.length 4).length = 4 := Bytes.length_ofNat _ _
  have hhead : (p.base.1 ++ Bytes.ofNat p.row.length 4).length = 36 := by simp [hb]
  have hcat : encodeRecord p ++ rest =
      (p.base.1 ++ Bytes.ofNat p.row.length 4) ++ (p.row ++ rest) := by simp [encodeRecord]
  have h32 : (encodeRecord p ++ rest).take 32 = p.base.1 := by
    rw [hcat, List.append_assoc, List.take_append_of_le_length hb.ge, List.take_of_length_le hb.le]
  have h36 : ((encodeRecord p ++ rest).take 36).drop 32 = Bytes.ofNat p.row.length 4 := by
    rw [hcat, List.take_append_of_le_length hhead.ge, List.take_of_length_le hhead.le,
      List.drop_append_of_le_length hb.ge, List.drop_of_length_le hb.le, List.nil_append]
  have hrest : (encodeRecord p ++ rest).drop 36 = p.row ++ rest := by
    rw [hcat, List.drop_append_of_le_length hhead.ge, List.drop_of_length_le hhead.le,
      List.nil_append]
  have hlen : ¬ (encodeRecord p ++ rest).length < 36 := by
    rw [hcat, List.length_append, hhead]; omega
  rw [nextRecord, if_neg (by intro he; rw [he] at hlen; simp at hlen), dif_neg hlen]
  simp only [h36, Bytes.toNat_ofNat_of_lt h.1, hrest, h32, List.take_left, List.drop_left]
  rw [if_neg (not_lt.2 h.2), if_neg (by simp)]

/-- The stream of a list of records yields its first one, if any. -/
theorem nextRecord_encodeRecords {ps : List Record} (h : ∀ p ∈ ps, Fits budget p)
    {o : Option (Record × Bytes)}
    (ho : nextRecord budget.recordBytes (encodeRecords ps) = .ok o) :
    o.toList = (KWay.next ps).map (Prod.map id encodeRecords) := by
  cases ps with
  | nil =>
    rw [encodeRecords, List.flatMap_nil, nextRecord_nil] at ho
    cases ho
    rfl
  | cons p ps =>
    rw [encodeRecords_cons, nextRecord_encode (h p (by simp))] at ho
    cases ho
    rfl

/-! ## The runs of a job -/

/-- The named runs are distinct files of sorted records. -/
structure RunFiles (budget : WorkerBudget) (files : Files) (rs : List (String × List Record)) :
    Prop where
  nodup : (rs.map Prod.fst).Nodup
  content : ∀ r ∈ rs, files.lookup r.1 = some (encodeRecords r.2)
  sorted : ∀ r ∈ rs, r.2.Pairwise (· ≤ ·)
  fits : ∀ r ∈ rs, ∀ p ∈ r.2, Fits budget p

/-- The records of a list of runs. -/
def runRecords (rs : List (String × List Record)) : List Record := rs.flatMap Prod.snd

@[simp] theorem runRecords_append (rs rs' : List (String × List Record)) :
    runRecords (rs ++ rs') = runRecords rs ++ runRecords rs' := List.flatMap_append

@[simp] theorem runRecords_singleton (name : String) (ps : List Record) :
    runRecords [(name, ps)] = ps := by simp [runRecords]

theorem RunFiles.nil (files : Files) : RunFiles budget files [] := ⟨by simp, by simp, by simp, by simp⟩

/-- Runs are kept by a job that leaves their files alone. -/
theorem RunFiles.congr {files files' : Files} {rs : List (String × List Record)}
    (h : RunFiles budget files rs) (hf : ∀ r ∈ rs, files'.lookup r.1 = files.lookup r.1) :
    RunFiles budget files' rs :=
  ⟨h.nodup, fun r hr => (hf r hr).trans (h.content r hr), h.sorted, h.fits⟩

/-- The name of a run is the name of a file. -/
theorem RunFiles.mem {files : Files} {rs : List (String × List Record)}
    (h : RunFiles budget files rs) {r : String × List Record} (hr : r ∈ rs) : r.1 ∈ files :=
  AList.lookup_isSome.1 (by rw [h.content r hr]; rfl)

/-- A run written to a new file is one more run. -/
theorem RunFiles.insert {files files' : Files} {rs rs' : List (String × List Record)}
    (h : RunFiles budget files (rs ++ rs')) {name : String} {ps : List Record}
    (hnew : name ∉ files) (hc : Holding files files' name (encodeRecords ps))
    (hs : ps.Pairwise (· ≤ ·)) (hfit : ∀ p ∈ ps, Fits budget p) :
    RunFiles budget files' (rs ++ (name, ps) :: rs') := by
  have hne : ∀ r ∈ rs ++ rs', r.1 ≠ name := fun r hr he => hnew (he ▸ h.mem hr)
  have hsplit : ∀ r ∈ rs ++ (name, ps) :: rs', r = (name, ps) ∨ r ∈ rs ++ rs' := by
    intro r hr
    simp only [List.mem_append, List.mem_cons] at hr ⊢
    tauto
  constructor
  · have hp : ((rs ++ (name, ps) :: rs').map Prod.fst).Perm (name :: (rs ++ rs').map Prod.fst) := by
      simp only [List.map_append, List.map_cons]
      exact List.perm_middle
    refine hp.nodup_iff.2 (List.nodup_cons.2 ⟨fun hmem => ?_, h.nodup⟩)
    obtain ⟨r, hr, he⟩ := List.mem_map.1 hmem
    exact hne r hr he
  · intro r hr
    rcases hsplit r hr with rfl | hr
    · exact hc.1
    · rw [hc.2 _ (hne r hr)]; exact h.content r hr
  · intro r hr
    rcases hsplit r hr with rfl | hr
    · exact hs
    · exact h.sorted r hr
  · intro r hr
    rcases hsplit r hr with rfl | hr
    · exact hfit
    · exact h.fits r hr

/-- Runs that are a part of others. -/
theorem RunFiles.sublist {files : Files} {rs rs' : List (String × List Record)}
    (h : RunFiles budget files rs') (hs : rs.Sublist rs') : RunFiles budget files rs :=
  ⟨h.nodup.sublist (hs.map _), fun r hr => h.content r (hs.subset hr),
    fun r hr => h.sorted r (hs.subset hr), fun r hr => h.fits r (hs.subset hr)⟩

/-- What the reading loop has done with the pairs read so far: each is in a
    run or in the batch. -/
structure ReadSoFar (budget : WorkerBudget) (w : World) (st : Reading) (pairs : List Record) :
    Prop where
  runs : ∃ rs, st.runs = rs.map Prod.fst ∧ RunFiles budget w.files rs ∧
    (runRecords rs ++ st.batch).Perm pairs
  limit : ∀ p ∈ st.batch, (p.row.length : ℤ) ≤ budget.recordBytes
  count : st.count = pairs.length
  size : st.count ≤ maxTreeSize

theorem readSoFar_check {amount : ℤ} {w w' : World} {u : Unit} {st : Reading} {pairs : List Record}
    (hc : Returns (check env budget amount) w u w') (h : ReadSoFar budget w st pairs) :
    ReadSoFar budget w' st pairs := by
  obtain ⟨⟨rs, h1, h2, h3⟩, h4, h5, h6⟩ := h
  exact ⟨⟨rs, h1, by rw [files_check hc]; exact h2, h3⟩, h4, h5, h6⟩

/-- A spill moves the batch to a run. -/
theorem readSoFar_spill {w w' : World} {st st' : Reading} {pairs : List Record}
    (h : ReadSoFar budget w st pairs) (hs : Returns (spill env budget st) w st' w') :
    ReadSoFar budget w' st' pairs ∧ st'.batch = [] := by
  rcases returns_ite.1 hs with ⟨hb, hs⟩ | ⟨hb, hs⟩
  · obtain ⟨rfl, rfl⟩ := returns_pure.1 hs
    exact ⟨h, hb⟩
  · obtain ⟨_, w₁, hc, hs⟩ := returns_bind.1 hs
    obtain ⟨⟨rs, hruns, hrf, hperm⟩, hlim, hcount, hsize⟩ := readSoFar_check hc h
    obtain ⟨_, w₂, hp, hs⟩ := returns_bind.1 hs
    obtain ⟨_, w₃, hw, hs⟩ := returns_bind.1 hs
    obtain ⟨rfl, rfl⟩ := returns_pure.1 hs
    obtain ⟨hnew, hfiles⟩ := files_privateFile hp
    have hpb := List.perm_insertionSort (α := Record) (· ≤ ·) st.batch
    obtain ⟨hlen, hold⟩ := holding_writeRecords (by rw [hfiles]; exact AList.lookup_insert _) hw
    have hcreate := Files.only_insert ("run-" ++ toString st.runs.length) [] w₁.files
    rw [← hfiles] at hcreate
    have hrf' : RunFiles budget w₁.files (rs ++ []) := by simpa using hrf
    have hin := RunFiles.insert hrf' hnew ⟨hold.1, hcreate.trans hold.2⟩
      (List.pairwise_insertionSort (· ≤ ·) st.batch)
      (fun p hp => ⟨hlen p hp, hlim p (hpb.subset hp)⟩)
    refine ⟨⟨⟨_, by simp [hruns], hin, ?_⟩, by simp, hcount, hsize⟩, rfl⟩
    rw [List.append_nil, runRecords_append, runRecords_singleton]
    exact (hpb.append_left _).trans hperm

theorem readSoFar_retain {w : World} {st : Reading} {pairs : List Record} {p : Record} {cost : ℤ}
    (h : ReadSoFar budget w st pairs) (hp : (p.row.length : ℤ) ≤ budget.recordBytes)
    (hs : (st.retain p cost).count ≤ maxTreeSize) :
    ReadSoFar budget w (st.retain p cost) (pairs ++ [p]) := by
  obtain ⟨⟨rs, hruns, hrf, hperm⟩, hlim, hcount, -⟩ := h
  refine ⟨⟨rs, hruns, hrf, ?_⟩, fun q hq => ?_, by simp [Reading.retain, hcount], hs⟩
  · have := hperm.append_right [p]
    rwa [List.append_assoc] at this
  · rcases List.mem_append.1 hq with hq | hq
    · exact hlim q hq
    · obtain rfl : q = p := by simpa using hq
      exact hp

/-- The pair of a row. -/
def rowPair (schemaDigest : HashValue) (row : Bytes) : Except CommitmentValidationError Record := do
  return ⟨← computeBaseRowDigest schemaDigest row, row⟩

/-- **The reading loop keeps every pair** of the rows it has read. -/
theorem readSoFar_readRows {schemaDigest : HashValue} : ∀ {rows : List Bytes} {w w' : World}
    {st st' : Reading} {pairs : List Record}, ReadSoFar budget w st pairs →
      Returns (readRows env budget schemaDigest rows st) w st' w' →
        ∃ new, rows.mapM (rowPair schemaDigest) = .ok new ∧ ReadSoFar budget w' st' (pairs ++ new)
  | [], w, w', st, st', pairs, h, hr => by
    obtain ⟨rfl, rfl⟩ := returns_pure.1 hr
    exact ⟨[], rfl, by simpa using h⟩
  | row :: rows, w, w', st, st', pairs, h, hr => by
    obtain ⟨_, w₁, hc, hr⟩ := returns_bind.1 hr
    rcases returns_ite.1 hr with ⟨-, hr⟩ | ⟨hlim, hr⟩
    · exact absurd hr returns_raise
    obtain ⟨base, w₂, hb, hr⟩ := returns_bind.1 hr
    obtain ⟨hbase, rfl⟩ := returns_jobOfExcept.1 hb
    obtain ⟨st₁, w₃, hs, hr⟩ := returns_bind.1 hr
    have h₁ : ReadSoFar budget w₃ st₁ pairs := by
      rcases returns_ite.1 hs with ⟨-, hs⟩ | ⟨-, hs⟩
      · exact (readSoFar_spill (readSoFar_check hc h) hs).1
      · obtain ⟨rfl, rfl⟩ := returns_pure.1 hs
        exact readSoFar_check hc h
    rcases returns_ite.1 hr with ⟨-, hr⟩ | ⟨hsize, hr⟩
    · exact absurd hr returns_raise
    have h₂ := readSoFar_retain h₁ (not_lt.1 hlim) (not_lt.1 hsize)
    obtain ⟨new, hnew, h₃⟩ := readSoFar_readRows h₂ hr
    refine ⟨⟨base, row⟩ :: new, List.mapM_cons_ok.2 ⟨_, _, ?_, hnew, rfl⟩, by simpa using h₃⟩
    rw [rowPair, hbase]
    rfl

/-! ## The merges -/

/-- The loop of a merge writes the merge of its streams. -/
theorem holding_mergeStreams {dest : String} : ∀ (fuel : ℕ) {hs : List (Record × List Record)}
    {c : Bytes} {w w' : World} {u : Unit}, (∀ p ∈ KWay.left hs, Fits budget p) →
      w.files.lookup dest = some c →
      Returns (mergeStreams env budget dest fuel (hs.map (Prod.map id encodeRecords))) w u w' →
        Holding w.files w'.files dest (c ++ encodeRecords (KWay.kmerge fuel hs))
  | 0, hs, c, w, w', u, _, hc, h => by
    obtain ⟨-, rfl⟩ := returns_pure.1 h
    exact ⟨by simpa [KWay.kmerge, encodeRecords] using hc, Files.Only.refl _ _⟩
  | fuel + 1, [], c, w, w', u, _, hc, h => by
    obtain ⟨-, rfl⟩ := returns_pure.1 h
    exact ⟨by simpa [KWay.kmerge, encodeRecords] using hc, Files.Only.refl _ _⟩
  | fuel + 1, x :: hs, c, w, w', u, hfit, hc, h => by
    obtain ⟨before, ⟨p, rest⟩, after, he⟩ : ∃ b m a, KWay.pick x hs = (b, m, a) := ⟨_, _, _, rfl⟩
    have hperm := KWay.pick_perm he
    rw [List.map_cons, mergeStreams, KWay.pick_map, he] at h
    obtain ⟨_, w₁, hw, h⟩ := returns_bind.1 h
    obtain ⟨o, w₂, ho, h⟩ := returns_bind.1 h
    obtain ⟨hnext, rfl⟩ := returns_jobOfExcept.1 ho
    obtain ⟨-, hold⟩ := holding_writeRecord hc hw
    have hfit' : ∀ q ∈ KWay.left (before ++ KWay.next rest ++ after), Fits budget q :=
      fun q hq => hfit q (hperm.symm.subset (List.mem_cons_of_mem p hq))
    have hrest : ∀ q ∈ rest, Fits budget q := by
      intro q hq
      refine hfit' q ?_
      rw [KWay.left_append, KWay.left_append, KWay.left_next]
      simp [hq]
    rw [nextRecord_encodeRecords hrest hnext, ← List.map_append, ← List.map_append] at h
    have hk : KWay.kmerge (fuel + 1) (x :: hs) =
        p :: KWay.kmerge fuel (before ++ KWay.next rest ++ after) := by rw [KWay.kmerge, he]
    rw [hk, encodeRecords_cons, ← List.append_assoc]
    exact hold.trans (holding_mergeStreams fuel hfit' hold.1 h)

/-- Opening the files of runs. -/
theorem returns_openFiles : ∀ {rs : List (String × List Record)} {w w' : World}
    {streams : List Bytes}, (∀ r ∈ rs, w.files.lookup r.1 = some (encodeRecords r.2)) →
      Returns ((rs.map Prod.fst).mapM openFile) w streams w' →
        streams = rs.map (fun r => encodeRecords r.2) ∧ w = w'
  | [], w, w', streams, _, h => by
    obtain ⟨rfl, rfl⟩ := returns_mapM_nil.1 h
    exact ⟨rfl, rfl⟩
  | r :: rs, w, w', streams, hc, h => by
    obtain ⟨b, w₁, bs, hb, hbs, rfl⟩ := returns_mapM_cons.1 h
    obtain ⟨hl, rfl⟩ := returns_openFile.1 hb
    obtain ⟨rfl, rfl⟩ := returns_openFiles (fun x hx => hc x (by simp [hx])) hbs
    obtain rfl := Option.some.inj (hl.symm.trans (hc r (by simp)))
    exact ⟨rfl, rfl⟩

/-- Reading the first record of each stream. -/
theorem returns_firstRecords : ∀ {rs : List (List Record)} {w w' : World}
    {heads : List (Option (Record × Bytes))}, (∀ r ∈ rs, ∀ p ∈ r, Fits budget p) →
      Returns ((rs.map encodeRecords).mapM fun s =>
        Job.ofExcept (nextRecord budget.recordBytes s)) w heads w' →
        heads.flatMap Option.toList = (KWay.heads rs).map (Prod.map id encodeRecords) ∧ w = w'
  | [], w, w', heads, _, h => by
    obtain ⟨rfl, rfl⟩ := returns_mapM_nil.1 h
    exact ⟨rfl, rfl⟩
  | r :: rs, w, w', heads, hfit, h => by
    obtain ⟨o, w₁, os, ho, hos, rfl⟩ := returns_mapM_cons.1 h
    obtain ⟨hnext, rfl⟩ := returns_jobOfExcept.1 ho
    obtain ⟨h1, rfl⟩ := returns_firstRecords (fun x hx => hfit x (by simp [hx])) hos
    refine ⟨?_, rfl⟩
    rw [List.flatMap_cons, h1, nextRecord_encodeRecords (hfit r (by simp)) hnext, KWay.heads,
      KWay.heads, List.flatMap_cons, List.map_append]

/-- Removing files keeps the others. -/
theorem lookup_removeAll : ∀ {names : List String} {w w' : World} {u : Unit} {n : String},
    n ∉ names → Returns (names.forM remove) w u w' → w'.files.lookup n = w.files.lookup n
  | [], w, w', u, n, _, h => by rw [returns_forM_nil.1 h]
  | name :: names, w, w', u, n, hn, h => by
    obtain ⟨w₁, h1, h2⟩ := returns_forM_cons.1 h
    rw [lookup_removeAll (fun hm => hn (by simp [hm])) h2, files_remove h1]
    exact AList.lookup_erase_ne fun he => hn (by simp [he])

theorem mul_length_le (ps : List Record) : 36 * ps.length ≤ (encodeRecords ps).length := by
  induction ps with
  | nil => simp [encodeRecords]
  | cons p ps ih =>
    have := p.base.2
    rw [encodeRecords_cons]
    simp [encodeRecord] at this ⊢
    omega

/-- **A merge replaces the runs of its group by one**, with their records. -/
theorem runFiles_mergeGroup {output : String} {done group rest : List (String × List Record)}
    {w w' : World} {u : Unit} (hrf : RunFiles budget w.files (done ++ (group ++ rest)))
    (h : Returns (mergeGroup env budget output (group.map Prod.fst)) w u w') :
    ∃ ps, ps.Perm (runRecords group) ∧
      RunFiles budget w'.files (done ++ (output, ps) :: rest) := by
  have hgroup : RunFiles budget w.files group :=
    hrf.sublist ((List.sublist_append_left _ _).trans (List.sublist_append_right _ _))
  obtain ⟨streams, w₁, hs, h⟩ := returns_bind.1 h
  obtain ⟨rfl, rfl⟩ := returns_openFiles hgroup.content hs
  obtain ⟨_, w₂, hp, h⟩ := returns_bind.1 h
  obtain ⟨hnew, hfiles⟩ := files_privateFile hp
  obtain ⟨heads, w₃, hh, h⟩ := returns_bind.1 h
  have hmap : group.map (fun r => encodeRecords r.2) = (group.map Prod.snd).map encodeRecords := by
    simp
  have hfit : ∀ r ∈ group.map Prod.snd, ∀ p ∈ r, Fits budget p := by
    intro r hr
    obtain ⟨x, hx, rfl⟩ := List.mem_map.1 hr
    exact hgroup.fits x hx
  rw [hmap] at hh h
  obtain ⟨hheads, rfl⟩ := returns_firstRecords hfit hh
  rw [hheads] at h
  obtain ⟨_, w₄, hm, hrem⟩ := returns_bind.1 h
  have hleft : KWay.left (KWay.heads (group.map Prod.snd)) = runRecords group := by
    rw [KWay.left_heads, runRecords, List.flatMap_def]
  have hfit' : ∀ p ∈ KWay.left (KWay.heads (group.map Prod.snd)), Fits budget p := by
    intro p hp
    rw [hleft] at hp
    obtain ⟨r, hr, hp⟩ := List.mem_flatMap.1 hp
    exact hgroup.fits r hr p hp
  have hold := holding_mergeStreams _ hfit' (by rw [hfiles]; exact AList.lookup_insert _) hm
  have hcreate := Files.only_insert output [] w.files
  rw [← hfiles] at hcreate
  have hfuel : (KWay.left (KWay.heads (group.map Prod.snd))).length ≤
      ((group.map Prod.snd).map encodeRecords).flatten.length := by
    rw [KWay.left_heads]
    induction group.map Prod.snd with
    | nil => simp
    | cons r rs ih =>
      have := mul_length_le r
      simp only [List.flatten_cons, List.map_cons, List.length_append]
      omega
  have hsorted : KWay.AllSorted (KWay.heads (group.map Prod.snd)) := by
    refine KWay.allSorted_heads fun r hr => ?_
    obtain ⟨x, hx, rfl⟩ := List.mem_map.1 hr
    exact hgroup.sorted x hx
  obtain ⟨hperm, hsort⟩ := KWay.kmerge_spec _ hfuel hsorted
  rw [hleft] at hperm
  refine ⟨_, hperm, ?_⟩
  have hothers : RunFiles budget w.files (done ++ rest) :=
    hrf.sublist ((List.Sublist.refl _).append (List.sublist_append_right _ _))
  have hin := hothers.insert hnew ⟨hold.1, hcreate.trans hold.2⟩ hsort
    fun p hp => hfit' p (by rw [hleft]; exact hperm.subset hp)
  refine hin.congr fun r hr => lookup_removeAll (fun hmem => ?_) hrem
  -- a file of the group is neither the output nor a run outside the group
  obtain ⟨x, hx, he⟩ := List.mem_map.1 hmem
  have hnd := hrf.nodup
  simp only [List.map_append, List.nodup_append] at hnd
  obtain ⟨-, ⟨-, -, hgr⟩, hdg⟩ := hnd
  rcases List.mem_append.1 hr with hr | hr
  · exact hdg r.1 (List.mem_map_of_mem hr) x.1 (by simp [List.mem_map_of_mem hx]) he.symm
  · rcases List.mem_cons.1 hr with rfl | hr
    · exact hnew (by rw [← show x.1 = output from he]; exact hgroup.mem hx)
    · exact hgr x.1 (List.mem_map_of_mem hx) r.1 (List.mem_map_of_mem hr) he

/-- A generation replaces the runs by one for each group of four. -/
theorem runFiles_mergeGeneration {generation : ℕ} : ∀ {fuel groupStart : ℕ}
    {done rs : List (String × List Record)} {w w' : World} {merged : List String},
    rs.length ≤ fuel → RunFiles budget w.files (done ++ rs) →
      Returns (mergeGeneration env budget generation fuel groupStart (rs.map Prod.fst)) w
        merged w' →
        ∃ rs', merged = rs'.map Prod.fst ∧ RunFiles budget w'.files (done ++ rs') ∧
          (runRecords rs').Perm (runRecords rs) ∧ rs'.length = (rs.length + 3) / 4
  | fuel, groupStart, done, [], w, w', merged, _, hrf, h => by
    have : mergeGeneration env budget generation fuel groupStart [] = pure [] := by
      cases fuel <;> rfl
    rw [List.map_nil, this] at h
    obtain ⟨rfl, rfl⟩ := returns_pure.1 h
    exact ⟨[], rfl, hrf, List.Perm.refl _, rfl⟩
  | 0, _, _, r :: rs, _, _, _, hf, _, _ => by simp at hf
  | fuel + 1, groupStart, done, r :: rs, w, w', merged, hf, hrf, h => by
    obtain ⟨_, w₁, hg, h⟩ := returns_bind.1 h
    obtain ⟨tail, w₂, ht, h⟩ := returns_bind.1 h
    obtain ⟨rfl, rfl⟩ := returns_pure.1 h
    rw [← List.take_append_drop 4 (r :: rs)] at hrf
    rw [← List.map_cons, ← List.map_take] at hg
    rw [← List.map_cons, ← List.map_drop] at ht
    obtain ⟨ps, hps, hrf₁⟩ := runFiles_mergeGroup hrf hg
    rw [List.append_cons] at hrf₁
    obtain ⟨rs', rfl, hrf₂, hperm, hlen⟩ := runFiles_mergeGeneration (by simp at hf ⊢; omega) hrf₁ ht
    refine ⟨_ :: rs', rfl, by rwa [← List.append_cons] at hrf₂, ?_, ?_⟩
    · have hsplit : runRecords (r :: rs) =
          runRecords ((r :: rs).take 4) ++ runRecords ((r :: rs).drop 4) := by
        rw [← runRecords_append, List.take_append_drop]
      rw [hsplit]
      exact hps.append hperm
    · rw [List.length_cons, hlen, List.length_drop, List.length_cons]
      omega

/-- **The merges end with one run**, the sorted permutation of the records. -/
theorem runFiles_mergeRuns : ∀ {fuel generation : ℕ} {rs : List (String × List Record)}
    {w w' : World} {runs : List String}, rs ≠ [] → rs.length ≤ fuel →
      RunFiles budget w.files rs →
      Returns (mergeRuns env budget fuel generation (rs.map Prod.fst)) w runs w' →
        ∃ name ps, runs = [name] ∧ RunFiles budget w'.files [(name, ps)] ∧
          ps.Perm (runRecords rs)
  | 0, _, rs, _, _, _, hne, hf, _, _ => by
    exact absurd (List.eq_nil_of_length_eq_zero (Nat.le_zero.1 hf)) hne
  | fuel + 1, generation, rs, w, w', runs, hne, hf, hrf, h => by
    have hpos := List.length_pos_iff.2 hne
    rcases returns_ite.1 h with ⟨h1, h⟩ | ⟨h1, h⟩
    · rw [List.length_map] at h1
      obtain ⟨merged, w₁, hg, h⟩ := returns_bind.1 h
      obtain ⟨rs', rfl, hrf', hperm, hlen⟩ := runFiles_mergeGeneration (by simp)
        (show RunFiles budget w.files ([] ++ rs) from hrf) hg
      have hne' : rs' ≠ [] := by rw [← List.length_pos_iff]; omega
      obtain ⟨name, ps, rfl, hrf'', hperm'⟩ := runFiles_mergeRuns hne' (by omega) hrf' h
      exact ⟨name, ps, rfl, hrf'', hperm'.trans hperm⟩
    · rw [List.length_map] at h1
      obtain ⟨rfl, rfl⟩ := returns_pure.1 h
      obtain ⟨⟨name, ps⟩, rfl⟩ := List.length_eq_one_iff.1 (show rs.length = 1 by omega)
      exact ⟨name, ps, rfl, hrf, by simp⟩

end AimData
