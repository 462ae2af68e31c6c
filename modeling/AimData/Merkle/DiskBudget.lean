/-
  The disk budget of `build_disk_tree`, from moment to moment.

  `Watched.buildDiskTree` is the job with its moments recorded: it notes whether a record is
  charged and not yet written, and how much is reserved for the node file.  At every moment the
  counter is the size of the files and the reserved bytes (`disk_budget_accounts`).
-/
import AimData.Lib.Traced
import AimData.Merkle.DiskTree

namespace AimData

open Program

/-! ## Sizes -/

/-- The bytes of the files of a directory. -/
def fileBytes (files : Files) : ℕ := (files.entries.map fun e => e.2.length).sum

/-- The size of a file, `0` if there is none. -/
def fileSize (files : Files) (name : String) : ℕ := ((files.lookup name).getD []).length

/-- The bytes of the run, merge, leaf and index files: of every file but the node file. -/
def storedBytes (files : Files) : ℕ := fileBytes (files.erase "nodes")

theorem sum_kerase (name : String) (l : List (Sigma fun _ : String => Bytes)) :
    ((l.kerase name).map fun e => e.2.length).sum + ((l.dlookup name).getD []).length =
      (l.map fun e => e.2.length).sum := by
  induction l with
  | nil => rfl
  | cons e l ih =>
    obtain ⟨n, b⟩ := e
    by_cases h : name = n
    · subst h
      simp
      omega
    · rw [List.kerase_cons_ne h, List.dlookup_cons_ne _ _ h]
      simp only [List.map_cons, List.sum_cons]
      omega

theorem fileBytes_erase (files : Files) (name : String) :
    fileBytes (files.erase name) + fileSize files name = fileBytes files :=
  sum_kerase name files.entries

theorem fileBytes_insert (files : Files) (name : String) (b : Bytes) :
    fileBytes (files.insert name b) + fileSize files name = fileBytes files + b.length := by
  have herase : (files.erase name).entries = files.entries.kerase name := rfl
  rw [← fileBytes_erase files name]
  simp [fileBytes, AList.entries_insert, herase]
  omega

theorem storedBytes_add (files : Files) :
    storedBytes files + fileSize files "nodes" = fileBytes files := fileBytes_erase files "nodes"

theorem storedBytes_insert (files : Files) {name : String} (h : name ≠ "nodes") (b : Bytes) :
    storedBytes (files.insert name b) + fileSize files name = storedBytes files + b.length := by
  have h₁ := storedBytes_add files
  have h₂ := storedBytes_add (files.insert name b)
  have h₃ := fileBytes_insert files name b
  have hn : fileSize (files.insert name b) "nodes" = fileSize files "nodes" := by
    rw [fileSize, AList.lookup_insert_ne h.symm, fileSize]
  omega

theorem storedBytes_insert_nodes (files : Files) (b : Bytes) :
    storedBytes (files.insert "nodes" b) = storedBytes files := by
  have h₁ := storedBytes_add files
  have h₂ := storedBytes_add (files.insert "nodes" b)
  have h₃ := fileBytes_insert files "nodes" b
  have hn : fileSize (files.insert "nodes" b) "nodes" = b.length := by
    rw [fileSize, AList.lookup_insert, Option.getD_some]
  omega

theorem storedBytes_erase (files : Files) {name : String} (h : name ≠ "nodes") :
    storedBytes (files.erase name) + fileSize files name = storedBytes files := by
  have h₁ := storedBytes_add files
  have h₂ := storedBytes_add (files.erase name)
  have h₃ := fileBytes_erase files name
  have hn : fileSize (files.erase name) "nodes" = fileSize files "nodes" := by
    rw [fileSize, AList.lookup_erase_ne h.symm, fileSize]
  omega

namespace Watched

/-! ## The job with its moments -/

/-- Whether the write of a record is in progress, and the bytes reserved for the node file. -/
structure Note where
  writing : Bool
  reserved : ℤ
  deriving DecidableEq

abbrev WatchedJob := Program (Traced World Note) Fault

def Note.begin (n : Note) : Note := { n with writing := true }

def Note.finish (n : Note) : Note := { n with writing := false }

def Note.reserve (amount : ℤ) (n : Note) : Note := { n with reserved := n.reserved + amount }

variable (env : Env) (budget : WorkerBudget)

/-- `_write_record`, in progress from its charge on. -/
def writeRecord (dest : String) (p : Record) : WatchedJob Unit := do
  step Note.begin (check env budget (36 + p.row.length))
  let size ← step id (pack p.row.length 4)
  step Note.finish (append dest (p.base.1 ++ size ++ p.row))

def spill (st : Reading) : WatchedJob Reading :=
  if st.batch = [] then pure st
  else do
    step id (check env budget 0)
    let path := "run-" ++ toString st.runs.length
    step id (privateFile path)
    (st.batch.insertionSort (· ≤ ·)).forM (writeRecord env budget path)
    return { st with runs := st.runs ++ [path], batch := [], used := 0 }

def makeRoom (cost : ℤ) (st : Reading) : WatchedJob Reading :=
  if st.used + cost > budget.runBytes then spill env budget st else pure st

def readRows (schemaDigest : HashValue) : List Bytes → Reading → WatchedJob Reading
  | [], st => pure st
  | row :: rows, st => do
    step id (check env budget 0)
    if (row.length : ℤ) > budget.recordBytes then step id (Job.raise "record_resource_limit")
    else do
      let base ← step id (Job.ofExcept (computeBaseRowDigest schemaDigest row))
      let cost := pairCost env row
      let st ← makeRoom env budget cost st
      let st := st.retain ⟨base, row⟩ cost
      if st.count > maxTreeSize then step id (Job.raise "invalid_tree_size")
      else readRows schemaDigest rows st

def mergeStreams (dest : String) : ℕ → List (Record × Bytes) → WatchedJob Unit
  | 0, _ => pure ()
  | _ + 1, [] => pure ()
  | fuel + 1, h :: heads => do
    let (before, (p, rest), after) := KWay.pick h heads
    writeRecord env budget dest p
    let next ← step id (Job.ofExcept (nextRecord budget.recordBytes rest))
    mergeStreams dest fuel (before ++ next.toList ++ after)

def mergeGroup (output : String) (group : List String) : WatchedJob Unit := do
  let streams ← group.mapM fun path => step id (openFile path)
  step id (privateFile output)
  let heads ← streams.mapM fun s => step id (Job.ofExcept (nextRecord budget.recordBytes s))
  mergeStreams env budget output streams.flatten.length (heads.flatMap Option.toList)
  group.forM fun path => step id (remove path)

def mergeGeneration (generation : ℕ) : ℕ → ℕ → List String → WatchedJob (List String)
  | 0, _, _ => pure []
  | _ + 1, _, [] => pure []
  | fuel + 1, groupStart, runs@(_ :: _) => do
    let output := "merge-" ++ toString generation ++ "-" ++ toString groupStart
    mergeGroup env budget output (runs.take 4)
    let merged ← mergeGeneration generation fuel (groupStart + 4) (runs.drop 4)
    return output :: merged

def mergeRuns : ℕ → ℕ → List String → WatchedJob (List String)
  | 0, _, runs => pure runs
  | fuel + 1, generation, runs =>
    if runs.length > 1 then do
      let merged ← mergeGeneration env budget generation runs.length 0 runs
      mergeRuns fuel (generation + 1) merged
    else pure runs

/-- The loop over the sorted records, whose leaf and entry are charged at once. -/
def writeLeaves : ℕ → Bytes → Option Record → ℕ → ℕ → WatchedJob Unit
  | 0, _, _, _, _ => pure ()
  | fuel + 1, ordered, last, ordinal, offset => do
    match ← step id (Job.ofExcept (nextRecord budget.recordBytes ordered)) with
    | none => pure ()
    | some (pair, rest) =>
      let ordinal := if some pair = last then ordinal + 1 else 0
      step Note.begin (check env budget (32 + 56))
      let leaf ← step id (Job.ofExcept (computeLeafHash (.ofDigest pair.base) ordinal))
      step id (append "leaves" leaf.1)
      let entry ← step id (packEntry offset pair.row.length ordinal pair.base)
      step Note.finish (append "index" entry)
      writeLeaves fuel rest (some pair) ordinal (offset + (36 + pair.row.length))

def buildNodes (leaves : Bytes) : ℕ → ℕ → ℕ → ℕ → WatchedJob Bytes
  | 0, _, _, _ => pure []
  | fuel + 1, start, size, position => do
    step id (check env budget 0)
    let result ←
      if size = 1 then pure (Bytes.readAt leaves (start * 32) 32)
      else do
        let split := largestPowerOfTwoLessThan size
        let left ← buildNodes leaves fuel start split (position + 1)
        let right ← buildNodes leaves fuel (start + split) (size - split) (position + 2 * split)
        let node ← step id (Job.ofExcept (computeNodeHash (.bytes left) (.bytes right)))
        pure node.1
    step id (writeFile "nodes" (position * 32) result)
    return result

def buildTree (run : String) (st : Reading) (schemaDigest : HashValue) : WatchedJob DiskTree := do
  let ordered ← step id (openFile run)
  step id (privateFile "leaves")
  step id (privateFile "index")
  writeLeaves env budget ordered.length ordered none 0 0
  step id (rename run "rows")
  let leaves ← step id (openFile "leaves")
  step id (privateFile "nodes")
  step (Note.reserve ((2 * st.count - 1) * 32)) (check env budget ((2 * st.count - 1) * 32))
  let root ← buildNodes env budget leaves st.count 0 st.count 0
  step id (remove "leaves")
  return ⟨st.count, root, schemaDigest, st.canonicalBytes⟩

/-- `build_disk_tree`, whose moments begin with those of its `_DiskBudget`. -/
def buildDiskTree (givenBudget : Option WorkerBudget) (canonicalRows : List Bytes)
    (schemaDigest : HashValue) : WatchedJob DiskTree := do
  let budget := givenBudget.getD {}
  unrecorded (Job.ofExcept budget.validate)
  step id (diskBudgetInit env budget)
  let st ← readRows env budget schemaDigest canonicalRows ⟨[], [], 0, 0, 0⟩
  let st ← spill env budget st
  if st.count = 0 then step id (Job.raise "invalid_tree_size")
  else do
    match ← mergeRuns env budget st.runs.length 0 st.runs with
    | [] => step id (throw .fileNotFound)
    | run :: _ => buildTree env budget run st schemaDigest

/-! ## The job is the same -/

theorem shadows_writeRecord (dest : String) (p : Record) :
    Shadows (writeRecord env budget dest p) (AimData.writeRecord env budget dest p) :=
  (shadows_step _ _).bind fun _ => (shadows_step _ _).bind fun _ => shadows_step _ _

theorem shadows_spill (st : Reading) :
    Shadows (spill env budget st) (AimData.spill env budget st) :=
  shadows_ite (fun _ => shadows_pure _) fun _ =>
    (shadows_step _ _).bind fun _ => (shadows_step _ _).bind fun _ =>
      (shadows_forM (shadows_writeRecord env budget _) _).bind fun _ => shadows_pure _

theorem shadows_makeRoom (cost : ℤ) (st : Reading) :
    Shadows (makeRoom env budget cost st) (AimData.makeRoom env budget cost st) :=
  shadows_ite (fun _ => shadows_spill env budget st) fun _ => shadows_pure _

theorem shadows_readRows (schemaDigest : HashValue) (rows : List Bytes) (st : Reading) :
    Shadows (readRows env budget schemaDigest rows st)
      (AimData.readRows env budget schemaDigest rows st) := by
  induction rows generalizing st with
  | nil => exact shadows_pure _
  | cons row rows ih =>
    refine (shadows_step _ _).bind fun _ => shadows_ite (fun _ => shadows_step _ _) fun _ => ?_
    refine (shadows_step _ _).bind fun base => (shadows_makeRoom env budget _ st).bind fun st => ?_
    exact shadows_ite (fun _ => shadows_step _ _) fun _ => ih _

theorem shadows_mergeStreams (dest : String) (fuel : ℕ) (heads : List (Record × Bytes)) :
    Shadows (mergeStreams env budget dest fuel heads)
      (AimData.mergeStreams env budget dest fuel heads) := by
  induction fuel generalizing heads with
  | zero => exact shadows_pure _
  | succ fuel ih =>
    cases heads with
    | nil => exact shadows_pure _
    | cons h heads =>
      exact (shadows_writeRecord env budget _ _).bind fun _ => (shadows_step _ _).bind fun _ => ih _

theorem shadows_mergeGroup (output : String) (group : List String) :
    Shadows (mergeGroup env budget output group) (AimData.mergeGroup env budget output group) :=
  (shadows_mapM (fun _ => shadows_step _ _) _).bind fun _ => (shadows_step _ _).bind fun _ =>
    (shadows_mapM (fun _ => shadows_step _ _) _).bind fun _ =>
      (shadows_mergeStreams env budget _ _ _).bind fun _ =>
        shadows_forM (fun _ => shadows_step _ _) _

theorem shadows_mergeGeneration (generation fuel groupStart : ℕ) (runs : List String) :
    Shadows (mergeGeneration env budget generation fuel groupStart runs)
      (AimData.mergeGeneration env budget generation fuel groupStart runs) := by
  induction fuel generalizing groupStart runs with
  | zero => exact shadows_pure _
  | succ fuel ih =>
    cases runs with
    | nil => exact shadows_pure _
    | cons run runs =>
      exact (shadows_mergeGroup env budget _ _).bind fun _ => (ih _ _).bind fun _ => shadows_pure _

theorem shadows_mergeRuns (fuel generation : ℕ) (runs : List String) :
    Shadows (mergeRuns env budget fuel generation runs)
      (AimData.mergeRuns env budget fuel generation runs) := by
  induction fuel generalizing generation runs with
  | zero => exact shadows_pure _
  | succ fuel ih =>
    exact shadows_ite (fun _ => (shadows_mergeGeneration env budget _ _ _ _).bind fun _ => ih _ _)
      fun _ => shadows_pure _

theorem shadows_writeLeaves (fuel : ℕ) (ordered : Bytes) (last : Option Record)
    (ordinal offset : ℕ) :
    Shadows (writeLeaves env budget fuel ordered last ordinal offset)
      (AimData.writeLeaves env budget fuel ordered last ordinal offset) := by
  induction fuel generalizing ordered last ordinal offset with
  | zero => exact shadows_pure _
  | succ fuel ih =>
    refine (shadows_step _ _).bind fun o => ?_
    cases o with
    | none => exact shadows_pure _
    | some next =>
      refine (shadows_step _ _).bind fun _ => (shadows_step _ _).bind fun _ => ?_
      refine (shadows_step _ _).bind fun _ => (shadows_step _ _).bind fun _ => ?_
      exact (shadows_step _ _).bind fun _ => ih _ _ _ _

theorem shadows_buildNodes (leaves : Bytes) (fuel start size position : ℕ) :
    Shadows (buildNodes env budget leaves fuel start size position)
      (AimData.buildNodes env budget leaves fuel start size position) := by
  induction fuel generalizing start size position with
  | zero => exact shadows_pure _
  | succ fuel ih =>
    refine (shadows_step _ _).bind fun _ => shadows_ite (fun _ => ?_) fun _ => ?_
    · exact (shadows_pure _).bind fun _ => (shadows_step _ _).bind fun _ => shadows_pure _
    · refine (ih _ _ _).bind fun _ => (ih _ _ _).bind fun _ => (shadows_step _ _).bind fun _ => ?_
      exact (shadows_pure _).bind fun _ => (shadows_step _ _).bind fun _ => shadows_pure _

theorem shadows_buildTree (run : String) (st : Reading) (schemaDigest : HashValue) :
    Shadows (buildTree env budget run st schemaDigest)
      (AimData.buildTree env budget run st schemaDigest) := by
  refine (shadows_step _ _).bind fun _ => (shadows_step _ _).bind fun _ => ?_
  refine (shadows_step _ _).bind fun _ => ?_
  refine (shadows_writeLeaves env budget _ _ _ _ _).bind fun _ => ?_
  refine (shadows_step _ _).bind fun _ => (shadows_step _ _).bind fun _ => ?_
  refine (shadows_step _ _).bind fun _ => (shadows_step _ _).bind fun _ => ?_
  exact (shadows_buildNodes env budget _ _ _ _ _).bind fun _ => (shadows_step _ _).bind fun _ =>
    shadows_pure _

/-- **The watched job is the job.** -/
theorem shadows_buildDiskTree (givenBudget : Option WorkerBudget) (rows : List Bytes)
    (schemaDigest : HashValue) :
    Shadows (buildDiskTree env givenBudget rows schemaDigest)
      (AimData.buildDiskTree env givenBudget rows schemaDigest) := by
  refine (shadows_unrecorded _).bind fun _ => (shadows_step _ _).bind fun _ => ?_
  refine (shadows_readRows env _ _ _ _).bind fun _ => (shadows_spill env _ _).bind fun st => ?_
  refine shadows_ite (fun _ => shadows_step _ _) fun _ => ?_
  refine (shadows_mergeRuns env _ _ _ _).bind fun runs => ?_
  cases runs with
  | nil => exact shadows_step _ _
  | cons run runs => exact shadows_buildTree env _ run st schemaDigest

/-! ## The books -/

/-- The counter is what is stored and reserved, with what is charged and not yet written. -/
structure Books (budget : WorkerBudget) (fresh : Prop) (reserved pending : ℤ) (w : World) :
    Prop where
  used : w.used = storedBytes w.files + reserved + pending
  limit : w.used ≤ budget.diskBytes
  nodes : fileSize w.files "nodes" ≤ reserved
  rows : fresh → "rows" ∉ w.files

variable {env budget} {fresh : Prop} {reserved pending : ℤ}

theorem Books.stale {w : World} (h : Books budget fresh reserved pending w) :
    Books budget False reserved pending w := ⟨h.used, h.limit, h.nodes, False.elim⟩

/-- The books are about the files and the counter. -/
theorem Books.congr {w w' : World} (h : Books budget fresh reserved pending w)
    (hf : w'.files = w.files) (hu : w'.used = w.used) : Books budget fresh reserved pending w' :=
  ⟨by rw [hu, hf]; exact h.used, hu ▸ h.limit, by rw [hf]; exact h.nodes, by rw [hf]; exact h.rows⟩

theorem used_probe (w : World) : (probe env budget w).used = w.used := by
  unfold probe
  split_ifs <;> rfl

variable (env budget fresh reserved pending) in
/-- A charge is refused, or it is pending and below the limit. -/
theorem books_check (amount : ℤ) :
    Triple (Books budget fresh reserved pending) (check env budget amount)
      (fun _ => Books budget fresh reserved (pending + amount))
      (Books budget False reserved pending) := by
  refine triple_get_bind fun w hw => triple_ite (fun _ => triple_throw ?_) fun _ => ?_
  · rintro w rfl
    exact hw.stale
  have hprobe : Books budget fresh reserved pending
      { probe env budget w with clock := (probe env budget w).clock + 1 } :=
    hw.congr (files_probe w) (used_probe w)
  refine (triple_set (Q := fun _ s => s = _) fun _ _ => rfl).bind fun _ => ?_
  refine triple_ite (fun _ => triple_throw ?_) fun hok => triple_modify ?_
  · rintro w rfl
    exact hprobe.stale
  · rintro w rfl
    refine ⟨?_, ?_, hprobe.nodes, hprobe.rows⟩
    · have := hprobe.used
      simp only at this ⊢
      omega
    · exact not_lt.1 fun h => hok (.inl h)

theorem books_privateFile {path : String} (hrows : path ≠ "rows") :
    Triple (Books budget fresh reserved pending) (privateFile path)
      (fun _ => Books budget fresh reserved pending) (Books budget False reserved pending) := by
  refine triple_get_bind fun w hw => triple_ite (fun _ => triple_throw ?_) fun hnew => triple_set ?_
  · rintro w rfl
    exact hw.stale
  · rintro w rfl
    have hsize : fileSize w.files path = 0 := by
      rw [fileSize, AList.lookup_eq_none.2 hnew]; rfl
    refine ⟨?_, hw.limit, ?_, fun h => ?_⟩
    · by_cases hn : path = "nodes"
      · subst hn
        rw [storedBytes_insert_nodes]
        exact hw.used
      · have := storedBytes_insert w.files hn []
        rw [hsize] at this
        simp only [List.length_nil, add_zero] at this
        rw [this]
        exact hw.used
    · by_cases hn : path = "nodes"
      · subst hn
        have hnodes := hw.nodes
        rw [hsize] at hnodes
        rw [fileSize, AList.lookup_insert]
        exact hnodes
      · rw [fileSize, AList.lookup_insert_ne (Ne.symm hn)]
        exact hw.nodes
    · simpa [hrows.symm] using hw.rows h

variable (budget fresh reserved pending) in
/-- What is appended is no longer pending. -/
theorem books_append {path : String} (bytes : Bytes) (hnodes : path ≠ "nodes")
    (hrows : path ≠ "rows") :
    Triple (Books budget fresh reserved pending) (append path bytes)
      (fun _ => Books budget fresh reserved (pending - bytes.length))
      (Books budget False reserved pending) := by
  refine triple_modify fun w hw => ⟨?_, hw.limit, ?_, fun h => ?_⟩
  · have h₁ := storedBytes_insert w.files hnodes ((w.files.lookup path).getD [] ++ bytes)
    have h₂ := hw.used
    simp only [List.length_append, fileSize] at h₁ ⊢
    omega
  · rw [fileSize, AList.lookup_insert_ne hnodes.symm]
    exact hw.nodes
  · simpa [hrows.symm] using hw.rows h

theorem books_remove {path : String} (hnodes : path ≠ "nodes") :
    Triple (Books budget fresh reserved pending) (remove path)
      (fun _ => Books budget fresh reserved pending) (Books budget False reserved pending) := by
  refine triple_get_bind fun w hw => ?_
  cases hl : w.files.lookup path with
  | none => exact triple_throw (by rintro _ rfl; exact hw.stale)
  | some content =>
    refine triple_set ?_
    rintro w rfl
    have h₁ := storedBytes_erase w.files hnodes
    have h₂ := hw.used
    have h₃ := hw.limit
    rw [fileSize, hl, Option.getD_some] at h₁
    refine ⟨?_, ?_, ?_, fun h hm => hw.rows h ?_⟩
    · simp only
      omega
    · simp only
      omega
    · rw [fileSize, AList.lookup_erase_ne hnodes.symm]
      exact hw.nodes
    · exact (AList.mem_erase.1 hm).2

/-- The sorted run takes the name of the rows. -/
theorem books_rename {source : String} (hnodes : source ≠ "nodes") :
    Triple (Books budget True reserved pending) (rename source "rows")
      (fun _ => Books budget False reserved pending) (Books budget False reserved pending) := by
  refine triple_get_bind fun w hw => ?_
  cases hl : w.files.lookup source with
  | none => exact triple_throw (by rintro _ rfl; exact hw.stale)
  | some content =>
    refine triple_set ?_
    rintro w rfl
    have hsource : source ≠ "rows" := by
      rintro rfl
      exact hw.rows trivial (AList.lookup_isSome.1 (by rw [hl]; rfl))
    have hrows : fileSize (w.files.erase source) "rows" = 0 := by
      rw [fileSize, AList.lookup_erase_ne hsource.symm, AList.lookup_eq_none.2 (hw.rows trivial)]
      rfl
    have h₁ := storedBytes_erase w.files hnodes
    have h₂ := storedBytes_insert (w.files.erase source) (show "rows" ≠ "nodes" by decide) content
    rw [fileSize, hl, Option.getD_some] at h₁
    rw [hrows] at h₂
    refine ⟨?_, hw.limit, ?_, False.elim⟩
    · have := hw.used
      simp only at this ⊢
      omega
    · rw [fileSize, AList.lookup_insert_ne (by decide), AList.lookup_erase_ne hnodes.symm]
      exact hw.nodes

/-- The node file is written in its reserved bytes. -/
theorem books_writeNode {pos : ℕ} {bytes : Bytes} (hreserved : pos + bytes.length ≤ reserved) :
    Triple (Books budget False reserved pending) (writeFile "nodes" pos bytes)
      (fun _ => Books budget False reserved pending) (Books budget False reserved pending) := by
  refine triple_modify fun w hw => ⟨?_, hw.limit, ?_, False.elim⟩
  · rw [storedBytes_insert_nodes]
    exact hw.used
  · have hnodes := hw.nodes
    rw [fileSize] at hnodes
    rw [fileSize, AList.lookup_insert, Option.getD_some, Bytes.length_writeAt]
    omega

/-! ## The moments -/

/-- What the counter is at a moment of a job over `count` rows. -/
structure Accounted (budget : WorkerBudget) (count : ℕ) (w : World) (n : Note) : Prop where
  limit : w.used ≤ budget.diskBytes
  used : n.writing = false → w.used = storedBytes w.files + n.reserved
  reserved : n.reserved = 0 ∨ n.reserved = (2 * count - 1) * 32
  nodes : fileSize w.files "nodes" ≤ n.reserved

/-- The job stands at the note with its books in order, and so it stood at every moment. -/
def At (budget : WorkerBudget) (count : ℕ) (n : Note) (fresh : Prop) (pending : ℤ) :
    Traced World Note → Prop :=
  Now (Accounted budget count) fun w m => m = n ∧ Books budget fresh n.reserved pending w

abbrev Safe (budget : WorkerBudget) (count : ℕ) : Traced World Note → Prop :=
  Always (Accounted budget count)

variable {count : ℕ}

/-- A note that a job over `count` rows takes, with what may be pending at it. -/
structure Fit (count : ℕ) (n : Note) (pending : ℤ) : Prop where
  pending : n.writing = false → pending = 0
  reserved : n.reserved = 0 ∨ n.reserved = (2 * count - 1) * 32

theorem Books.accounted {n : Note} {w : World} (hn : Fit count n pending)
    (h : Books budget fresh n.reserved pending w) : Accounted budget count w n := by
  refine ⟨h.limit, fun hw => ?_, hn.reserved, h.nodes⟩
  rw [h.used, hn.pending hw, add_zero]

/-- **A step that keeps the books**, from one note to the next. -/
theorem at_step {α : Type} {f : Note → Note} {n n' : Note} {fresh' : Prop} {p p' : ℤ}
    {x : Job α} {φ : α → Prop} (hf : f n = n') (hn : Fit count n p) (hn' : Fit count n' p')
    (h : Triple (Books budget fresh n.reserved p) x
      (fun a w => Books budget fresh' n'.reserved p' w ∧ φ a) (Books budget False n.reserved p)) :
    Triple (At budget count n fresh p) (step f x)
      (fun a t => At budget count n' fresh' p' t ∧ φ a) (Safe budget count) := by
  have hstep : Triple (At budget count n fresh p) (step f x)
      (fun a => Now (Accounted budget count) fun w m =>
        (m = n' ∧ Books budget fresh' n'.reserved p' w) ∧ φ a) (Safe budget count) := by
    refine triple_step fun m => ?_
    by_cases hm : m = n
    · subst hm
      rw [hf]
      exact h.imp (fun _ hw => hw.2) (fun _ w hw => ⟨⟨⟨rfl, hw.1⟩, hw.2⟩, hw.1.accounted hn'⟩)
        fun w hw => hw.accounted hn
    · exact triple_of_absurd fun w hw => hm hw.1
  exact hstep.imp (fun _ ht => ht) (fun _ _ ht => ⟨⟨ht.1.1, ht.2⟩, ht.1.2⟩) fun _ ht => ht

/-- A step whose value does not matter. -/
theorem at_move {α : Type} {f : Note → Note} {n n' : Note} {fresh' : Prop} {p p' : ℤ} {x : Job α}
    (hf : f n = n') (hn : Fit count n p) (hn' : Fit count n' p')
    (h : Triple (Books budget fresh n.reserved p) x (fun _ => Books budget fresh' n'.reserved p')
      (Books budget False n.reserved p)) :
    Triple (At budget count n fresh p) (step f x) (fun _ => At budget count n' fresh' p')
      (Safe budget count) :=
  (at_step (φ := fun _ => True) hf hn hn'
    (h.imp (fun _ hw => hw) (fun _ _ hw => ⟨hw, trivial⟩) fun _ hw => hw)).imp
    (fun _ ht => ht) (fun _ _ ht => ht.1) fun _ ht => ht

theorem fit_quiet {r : ℤ} (hr : r = 0 ∨ r = (2 * count - 1) * 32) : Fit count ⟨false, r⟩ 0 :=
  ⟨fun _ => rfl, hr⟩

theorem fit_writing (p : ℤ) : Fit count ⟨true, 0⟩ p := ⟨by simp, .inl rfl⟩

/-- A step that only reads. -/
theorem at_read {α : Type} {n : Note} {p : ℤ} {x : Job α} {φ : α → Prop} (hn : Fit count n p)
    (hx : Keeps Eq x) (hφ : ∀ a w, Returns x w a w → φ a) :
    Triple (At budget count n fresh p) (step id x)
      (fun a t => At budget count n fresh p t ∧ φ a) (Safe budget count) :=
  at_step rfl hn hn (hx.triple hφ fun _ hw => hw.stale)

theorem keeps_jobOfExcept {α : Type} (x : Except CommitmentValidationError α) :
    Keeps Eq (Job.ofExcept x) := by
  cases x with
  | ok a => exact keeps_pure (fun _ => rfl) a
  | error e => exact keeps_throw (fun _ => rfl) _

theorem keeps_openFile (path : String) : Keeps Eq (openFile path) := by
  refine keeps_get_bind fun w => ?_
  cases w.files.lookup path <;> rfl

theorem keeps_pack (n width : ℕ) : Keeps Eq (pack n width) :=
  keeps_ite (fun _ => keeps_pure (fun _ => rfl) _) fun _ => keeps_throw (fun _ => rfl) _

theorem keeps_packEntry (offset length ordinal : ℕ) (base : Digest) :
    Keeps Eq (packEntry offset length ordinal base) := by
  have htrans : ∀ w w' w'' : World, w = w' → w' = w'' → w = w'' := fun _ _ _ => Eq.trans
  exact keeps_bind htrans (keeps_pack _ _) fun _ => keeps_bind htrans (keeps_pack _ _) fun _ =>
    keeps_bind htrans (keeps_pack _ _) fun _ => keeps_pure (fun _ => rfl) _

/-- **The write of a record** charges what it appends. -/
theorem at_writeRecord {dest : String} (hnodes : dest ≠ "nodes") (hrows : dest ≠ "rows")
    (p : Record) :
    Triple (At budget count ⟨false, 0⟩ fresh 0) (writeRecord env budget dest p)
      (fun _ => At budget count ⟨false, 0⟩ fresh 0) (Safe budget count) := by
  refine (at_move (f := Note.begin) rfl (fit_quiet (.inl rfl)) (fit_writing _)
    (books_check env budget fresh 0 0 (36 + p.row.length))).bind fun _ => ?_
  refine (at_read (fit_writing _) (keeps_pack p.row.length 4) (φ := fun b => b.length = 4)
    fun b w hb => ?_).bind fun size => Triple.of_pure fun hsize => ?_
  · obtain ⟨-, rfl, -⟩ := returns_pack.1 hb
    simp
  have happend := books_append budget fresh 0 (0 + (36 + p.row.length)) (p.base.1 ++ size ++ p.row)
    hnodes hrows
  have hlen : (0 + (36 + p.row.length) - (p.base.1 ++ size ++ p.row).length : ℤ) = 0 := by
    have := p.base.2
    simp [this, hsize]
    ring
  rw [hlen] at happend
  exact at_move (f := Note.finish) rfl (fit_writing _) (fit_quiet (.inl rfl)) happend

/-- A look at the cancel event and at the disk. -/
theorem at_check {r : ℤ} (hr : r = 0 ∨ r = (2 * count - 1) * 32) :
    Triple (At budget count ⟨false, r⟩ fresh 0) (step id (check env budget 0))
      (fun _ => At budget count ⟨false, r⟩ fresh 0) (Safe budget count) := by
  have h := books_check env budget fresh r 0 0
  rw [add_zero] at h
  exact at_move rfl (fit_quiet hr) (fit_quiet hr) h

/-- A step that fails and changes nothing. -/
theorem at_fail {α : Type} {n : Note} {p : ℤ} {x : Job α} {Q : α → Traced World Note → Prop}
    (hn : Fit count n p) (hx : ∀ w, ∃ e, exec x w = (.error e, w)) :
    Triple (At budget count n fresh p) (step id x) Q (Safe budget count) := by
  have hstep : Triple (At budget count n fresh p) (step id x)
      (fun _ => Now (Accounted budget count) fun _ _ => False) (Safe budget count) := by
    refine triple_step fun m w hw => ?_
    obtain ⟨e, he⟩ := hx w
    rw [he]
    obtain ⟨rfl, hw⟩ := hw
    exact hw.accounted hn
  exact hstep.imp (fun _ ht => ht) (fun _ _ ht => ht.1.elim) fun _ ht => ht

/-! ## The sort -/

/-- A name of a run or of a merge. -/
def Scratch (name : String) : Prop := name ≠ "nodes" ∧ name ≠ "rows"

theorem scratch_run (s : String) : Scratch ("run-" ++ s) := by
  constructor <;> intro h <;> simpa using congrArg String.toList h

theorem scratch_merge (s t : String) : Scratch ("merge-" ++ s ++ "-" ++ t) := by
  constructor <;> intro h <;> simpa using congrArg String.toList h

theorem at_spill {st : Reading} (hruns : ∀ n ∈ st.runs, Scratch n) :
    Triple (At budget count ⟨false, 0⟩ True 0) (spill env budget st)
      (fun st' t => At budget count ⟨false, 0⟩ True 0 t ∧
        (∀ n ∈ st'.runs, Scratch n) ∧ st'.count = st.count) (Safe budget count) := by
  have hpath := scratch_run (toString st.runs.length)
  refine triple_ite (fun _ => triple_pure fun _ ht => ⟨ht, hruns, rfl⟩) fun _ => ?_
  refine (at_check (.inl rfl)).bind fun _ => ?_
  refine (at_move rfl (fit_quiet (.inl rfl)) (fit_quiet (.inl rfl))
    (books_privateFile hpath.2)).bind fun _ => ?_
  refine (triple_forM (at_writeRecord hpath.1 hpath.2) _).bind fun _ => triple_pure fun _ ht => ?_
  refine ⟨ht, fun n hn => ?_, rfl⟩
  rcases List.mem_append.1 hn with hn | hn
  · exact hruns n hn
  · rw [List.mem_singleton.1 hn]
    exact hpath

theorem at_makeRoom {st : Reading} (cost : ℤ) (hruns : ∀ n ∈ st.runs, Scratch n) :
    Triple (At budget count ⟨false, 0⟩ True 0) (makeRoom env budget cost st)
      (fun st' t => At budget count ⟨false, 0⟩ True 0 t ∧
        (∀ n ∈ st'.runs, Scratch n) ∧ st'.count = st.count) (Safe budget count) :=
  triple_ite (fun _ => at_spill hruns) fun _ => triple_pure fun _ ht => ⟨ht, hruns, rfl⟩

/-- The reading loop keeps the books, and counts its rows. -/
theorem at_readRows (schemaDigest : HashValue) (rows : List Bytes) :
    ∀ st : Reading, (∀ n ∈ st.runs, Scratch n) →
      Triple (At budget count ⟨false, 0⟩ True 0) (readRows env budget schemaDigest rows st)
        (fun st' t => At budget count ⟨false, 0⟩ True 0 t ∧
          (∀ n ∈ st'.runs, Scratch n) ∧ st'.count = st.count + rows.length)
        (Safe budget count) := by
  induction rows with
  | nil => exact fun _ hruns => triple_pure fun _ ht => ⟨ht, hruns, rfl⟩
  | cons row rows ih =>
    intro st hruns
    refine (at_check (.inl rfl)).bind fun _ => ?_
    refine triple_ite (fun _ => at_fail (fit_quiet (.inl rfl)) fun w => ⟨_, rfl⟩) fun _ => ?_
    refine (at_read (fit_quiet (.inl rfl)) (keeps_jobOfExcept _) (φ := fun _ => True)
      fun _ _ _ => trivial).bind fun base => Triple.of_pure fun _ => ?_
    refine (at_makeRoom (pairCost env row) hruns).bind fun st₁ => Triple.of_pure ?_
    rintro ⟨hruns₁, hcount⟩
    refine triple_ite (fun _ => at_fail (fit_quiet (.inl rfl)) fun w => ⟨_, rfl⟩) fun _ => ?_
    refine (ih (st₁.retain ⟨base, row⟩ (pairCost env row)) hruns₁).imp (fun _ ht => ht)
      (fun st₂ t ht => ⟨ht.1, ht.2.1, ?_⟩) fun _ ht => ht
    rw [ht.2.2, List.length_cons]
    simp only [Reading.retain, hcount]
    omega

theorem at_mergeStreams {dest : String} (hdest : Scratch dest) (fuel : ℕ) :
    ∀ heads : List (Record × Bytes),
      Triple (At budget count ⟨false, 0⟩ True 0) (mergeStreams env budget dest fuel heads)
        (fun _ => At budget count ⟨false, 0⟩ True 0) (Safe budget count) := by
  induction fuel with
  | zero => exact fun _ => triple_pure fun _ ht => ht
  | succ fuel ih =>
    intro heads
    cases heads with
    | nil => exact triple_pure fun _ ht => ht
    | cons h heads =>
      refine (at_writeRecord hdest.1 hdest.2 _).bind fun _ => ?_
      exact (at_read (fit_quiet (.inl rfl)) (keeps_jobOfExcept _) (φ := fun _ => True)
        fun _ _ _ => trivial).bind fun _ => Triple.of_pure fun _ => ih _

/-- Reading from each element of a list. -/
theorem at_readAll {α β : Type} {x : α → Job β} (hx : ∀ a, Keeps Eq (x a)) (l : List α) :
    Triple (At budget count ⟨false, 0⟩ True 0) (l.mapM fun a => step id (x a))
      (fun _ => At budget count ⟨false, 0⟩ True 0) (Safe budget count) :=
  triple_mapM (fun a => (at_read (fit_quiet (.inl rfl)) (hx a) (φ := fun _ => True)
    fun _ _ _ => trivial).imp (fun _ ht => ht) (fun _ _ ht => ht.1) fun _ ht => ht) l

/-- A merge charges its output, and gives back the runs it removes. -/
theorem at_mergeGroup {output : String} {group : List String} (houtput : Scratch output)
    (hgroup : ∀ n ∈ group, Scratch n) :
    Triple (At budget count ⟨false, 0⟩ True 0) (mergeGroup env budget output group)
      (fun _ => At budget count ⟨false, 0⟩ True 0) (Safe budget count) := by
  have hquiet : Fit count ⟨false, 0⟩ 0 := fit_quiet (.inl rfl)
  refine (at_readAll keeps_openFile group).bind fun streams => ?_
  refine (at_move rfl hquiet hquiet (books_privateFile houtput.2)).bind fun _ => ?_
  refine (at_readAll (fun _ => keeps_jobOfExcept _) streams).bind fun heads => ?_
  refine (at_mergeStreams houtput _ _).bind fun _ => triple_forM_mem fun path hpath => ?_
  exact at_move rfl hquiet hquiet (books_remove (hgroup path hpath).1)

theorem at_mergeGeneration (generation fuel : ℕ) : ∀ (groupStart : ℕ) {runs : List String},
    (∀ n ∈ runs, Scratch n) →
      Triple (At budget count ⟨false, 0⟩ True 0)
        (mergeGeneration env budget generation fuel groupStart runs)
        (fun merged t => At budget count ⟨false, 0⟩ True 0 t ∧ ∀ n ∈ merged, Scratch n)
        (Safe budget count) := by
  induction fuel with
  | zero => exact fun _ _ _ => triple_pure fun _ ht => ⟨ht, by simp⟩
  | succ fuel ih =>
    intro groupStart runs hruns
    cases runs with
    | nil => exact triple_pure fun _ ht => ⟨ht, by simp⟩
    | cons run runs =>
      have houtput := scratch_merge (toString generation) (toString groupStart)
      refine (at_mergeGroup houtput fun n hn => hruns n (List.mem_of_mem_take hn)).bind fun _ => ?_
      refine (ih (groupStart + 4) fun n hn => hruns n (List.mem_of_mem_drop hn)).bind fun merged =>
        Triple.of_pure fun hmerged => triple_pure fun _ ht => ⟨ht, fun n hn => ?_⟩
      rcases List.mem_cons.1 hn with rfl | hn
      · exact houtput
      · exact hmerged n hn

theorem at_mergeRuns (fuel : ℕ) : ∀ (generation : ℕ) {runs : List String},
    (∀ n ∈ runs, Scratch n) →
      Triple (At budget count ⟨false, 0⟩ True 0) (mergeRuns env budget fuel generation runs)
        (fun merged t => At budget count ⟨false, 0⟩ True 0 t ∧ ∀ n ∈ merged, Scratch n)
        (Safe budget count) := by
  induction fuel with
  | zero => exact fun _ _ hruns => triple_pure fun _ ht => ⟨ht, hruns⟩
  | succ fuel ih =>
    intro generation runs hruns
    refine triple_ite (fun _ => ?_) fun _ => triple_pure fun _ ht => ⟨ht, hruns⟩
    exact (at_mergeGeneration generation runs.length 0 hruns).bind fun merged =>
      Triple.of_pure fun hmerged => ih (generation + 1) hmerged

/-! ## The tree -/

/-- A leaf and its entry are charged together. -/
theorem at_writeLeaves (fuel : ℕ) : ∀ (ordered : Bytes) (last : Option Record)
    (ordinal offset : ℕ),
    Triple (At budget count ⟨false, 0⟩ True 0)
      (writeLeaves env budget fuel ordered last ordinal offset)
      (fun _ => At budget count ⟨false, 0⟩ True 0) (Safe budget count) := by
  induction fuel with
  | zero => exact fun _ _ _ _ => triple_pure fun _ ht => ht
  | succ fuel ih =>
    intro ordered last ordinal offset
    refine (at_read (fit_quiet (.inl rfl)) (keeps_jobOfExcept _) (φ := fun _ => True)
      fun _ _ _ => trivial).bind fun o => Triple.of_pure fun _ => ?_
    cases o with
    | none => exact triple_pure fun _ ht => ht
    | some next =>
      obtain ⟨pair, rest⟩ := next
      refine (at_move (f := Note.begin) rfl (fit_quiet (.inl rfl)) (fit_writing _)
        (books_check env budget True 0 0 (32 + 56))).bind fun _ => ?_
      refine (at_read (fit_writing _) (keeps_jobOfExcept _) (φ := fun _ => True)
        fun _ _ _ => trivial).bind fun leaf => Triple.of_pure fun _ => ?_
      have hleaf := books_append budget True 0 (0 + (32 + 56)) leaf.1 (show "leaves" ≠ "nodes" by
        decide) (show "leaves" ≠ "rows" by decide)
      refine (at_move rfl (fit_writing _) (fit_writing _) hleaf).bind fun _ => ?_
      refine (at_read (fit_writing _) (keeps_packEntry _ _ _ _) (φ := fun b => b.length = 56)
        fun b w hb => ?_).bind fun entry => Triple.of_pure fun hentry => ?_
      · obtain ⟨-, -, -, rfl⟩ := returns_packEntry hb
        simp [pair.base.2]
      have hindex := books_append budget True 0 (0 + (32 + 56) - leaf.1.length) entry
        (show "index" ≠ "nodes" by decide) (show "index" ≠ "rows" by decide)
      have hlen : (0 + (32 + 56) - leaf.1.length - entry.length : ℤ) = 0 := by
        have := leaf.2
        omega
      rw [hlen] at hindex
      exact (at_move (f := Note.finish) rfl (fit_writing _) (fit_quiet (.inl rfl)) hindex).bind
        fun _ => ih _ _ _ _

theorem at_writeNode {r : ℤ} (hr : r = (2 * count - 1) * 32) {position : ℕ} {result : Bytes}
    (hposition : position + 1 ≤ 2 * count - 1) (hresult : result.length ≤ 32) :
    Triple (At budget count ⟨false, r⟩ False 0)
      (step id (writeFile "nodes" (position * 32) result) >>= fun _ => pure result)
      (fun b t => At budget count ⟨false, r⟩ False 0 t ∧ b.length ≤ 32) (Safe budget count) := by
  have hquiet : Fit count ⟨false, r⟩ 0 := fit_quiet (.inr hr)
  have hreserved : ((position * 32 : ℕ) + result.length : ℤ) ≤ r := by omega
  exact (at_move rfl hquiet hquiet (books_writeNode hreserved)).bind fun _ =>
    triple_pure fun _ ht => ⟨ht, hresult⟩

/-- The nodes of a subtree are written in the bytes that are reserved for them. -/
theorem at_buildNodes {r : ℤ} (hr : r = (2 * count - 1) * 32) (leaves : Bytes) (fuel : ℕ) :
    ∀ {start size position : ℕ}, 1 ≤ size → position + (2 * size - 1) ≤ 2 * count - 1 →
      Triple (At budget count ⟨false, r⟩ False 0)
        (buildNodes env budget leaves fuel start size position)
        (fun b t => At budget count ⟨false, r⟩ False 0 t ∧ b.length ≤ 32) (Safe budget count) := by
  have hquiet : Fit count ⟨false, r⟩ 0 := fit_quiet (.inr hr)
  induction fuel with
  | zero => exact fun _ _ => triple_pure fun _ ht => ⟨ht, by simp⟩
  | succ fuel ih =>
    intro start size position hsize hposition
    refine (at_check (.inr hr)).bind fun _ => triple_ite (fun _ => ?_) fun hne => ?_
    · exact at_writeNode hr (by omega) (by simp [Bytes.readAt])
    · have hn : 2 ≤ size := by omega
      have hlt := Merkle.split_lt hn
      have hpos := Merkle.split_pos size
      rw [largestPowerOfTwoLessThan_eq hn]
      refine (ih hpos (by omega)).bind fun left => Triple.of_pure fun _ => ?_
      refine (ih (by omega) (by omega)).bind fun right => Triple.of_pure fun _ => ?_
      exact (at_read hquiet (keeps_jobOfExcept _) (φ := fun _ => True) fun _ _ _ => trivial).bind
        fun node => Triple.of_pure fun _ => at_writeNode hr (by omega) node.2.le

theorem at_buildTree {run : String} {st : Reading} (schemaDigest : HashValue)
    (hrun : Scratch run) (hcount : st.count = count) (hpos : 1 ≤ count) :
    Triple (At budget count ⟨false, 0⟩ True 0) (buildTree env budget run st schemaDigest)
      (fun _ => At budget count ⟨false, (2 * count - 1) * 32⟩ False 0) (Safe budget count) := by
  have hquiet : Fit count ⟨false, 0⟩ 0 := fit_quiet (.inl rfl)
  have hlast : Fit count ⟨false, (2 * count - 1) * 32⟩ 0 := fit_quiet (.inr rfl)
  refine (at_read hquiet (keeps_openFile _) (φ := fun _ => True) fun _ _ _ => trivial).bind
    fun ordered => Triple.of_pure fun _ => ?_
  refine (at_move rfl hquiet hquiet (books_privateFile (by decide))).bind fun _ => ?_
  refine (at_move rfl hquiet hquiet (books_privateFile (by decide))).bind fun _ => ?_
  refine (at_writeLeaves _ _ _ _ _).bind fun _ => ?_
  refine (at_move rfl hquiet hquiet (books_rename hrun.1)).bind fun _ => ?_
  refine (at_read hquiet (keeps_openFile _) (φ := fun _ => True) fun _ _ _ => trivial).bind
    fun leaves => Triple.of_pure fun _ => ?_
  refine (at_move rfl hquiet hquiet (books_privateFile (by decide))).bind fun _ => ?_
  -- the charge for the node file is what is reserved
  have hreserve : Triple (Books budget False 0 0) (check env budget ((2 * count - 1) * 32))
      (fun _ => Books budget False ((2 * count - 1) * 32) 0) (Books budget False 0 0) := by
    refine (books_check env budget False 0 0 _).imp (fun _ hw => hw) (fun _ w hw => ?_)
      fun _ hw => hw
    refine ⟨?_, hw.limit, ?_, False.elim⟩
    · rw [hw.used]
      ring
    · have := hw.nodes
      omega
  rw [hcount]
  refine (at_move (f := Note.reserve ((2 * count - 1) * 32)) (by simp [Note.reserve]) hquiet hlast
    hreserve).bind fun _ => (at_buildNodes rfl leaves count hpos (by omega)).bind fun root =>
      Triple.of_pure fun _ => ?_
  exact (at_move rfl hlast hlast (books_remove (by decide))).bind fun _ =>
    triple_pure fun _ ht => ht

theorem validate_diskBytes {budget : WorkerBudget} (h : budget.validate = .ok ()) :
    1 ≤ budget.diskBytes := by
  unfold WorkerBudget.validate at h
  split_ifs at h
  · cases h
  · cases h
  · omega

/-- A job in a fresh directory keeps its books, and ends with the node file reserved. -/
theorem at_buildDiskTree (env : Env) (givenBudget : Option WorkerBudget) (rows : List Bytes)
    (schemaDigest : HashValue) :
    Triple (Now (Accounted (givenBudget.getD {}) rows.length) fun w n => n = ⟨false, 0⟩ ∧ w.files = ∅)
      (buildDiskTree env givenBudget rows schemaDigest)
      (fun _ => At (givenBudget.getD {}) rows.length ⟨false, (2 * rows.length - 1) * 32⟩ False 0)
      (Safe (givenBudget.getD {}) rows.length) := by
  obtain ⟨budget, hbudget⟩ : ∃ budget, budget = givenBudget.getD {} := ⟨_, rfl⟩
  simp only [buildDiskTree, ← hbudget]
  have hvalid : Triple (Now (Accounted budget rows.length) fun w n => n = ⟨false, 0⟩ ∧ w.files = ∅)
      (unrecorded (Job.ofExcept budget.validate))
      (fun _ => Now (Accounted budget rows.length) fun w n =>
        (n = ⟨false, 0⟩ ∧ w.files = ∅) ∧ 1 ≤ budget.diskBytes) (Safe budget rows.length) := by
    refine triple_unrecorded fun n => ((keeps_jobOfExcept _).triple (φ := fun _ =>
      1 ≤ budget.diskBytes) (fun _ w h => ?_) fun _ _ => trivial)
    exact validate_diskBytes (returns_jobOfExcept.1 h).1
  refine hvalid.bind fun _ => ?_
  have hinit : Triple (Now (Accounted budget rows.length) fun w n =>
        (n = ⟨false, 0⟩ ∧ w.files = ∅) ∧ 1 ≤ budget.diskBytes) (step id (diskBudgetInit env budget))
      (fun _ => At budget rows.length ⟨false, 0⟩ True 0) (Safe budget rows.length) := by
    refine triple_step fun n => triple_modify ?_
    rintro w ⟨⟨rfl, hfiles⟩, hdisk⟩
    have hbooks : Books budget True 0 0 { w with
        used := 0
        freeRemaining := env.free w.clock - budget.reserveBytes
        nextProbe := 0
        clock := w.clock + 1 } := by
      refine ⟨?_, ?_, ?_, fun _ => ?_⟩
      · simp only [hfiles]; rfl
      · simp only; omega
      · simp only [hfiles]; rfl
      · simp only [hfiles]; exact AList.notMem_empty _
    exact ⟨⟨rfl, hbooks⟩, hbooks.accounted (fit_quiet (.inl rfl))⟩
  refine hinit.bind fun _ => ?_
  refine (at_readRows schemaDigest rows _ (by simp)).bind fun st₁ => Triple.of_pure ?_
  rintro ⟨hruns₁, hcount₁⟩
  refine (at_spill hruns₁).bind fun st => Triple.of_pure ?_
  rintro ⟨hruns, hcount⟩
  rw [hcount₁, Nat.zero_add] at hcount
  refine triple_ite (fun _ => at_fail (fit_quiet (.inl rfl)) fun w => ⟨_, rfl⟩) fun hpos => ?_
  refine (at_mergeRuns st.runs.length 0 hruns).bind fun merged => Triple.of_pure fun hmerged => ?_
  cases merged with
  | nil => exact at_fail (fit_quiet (.inl rfl)) fun w => ⟨_, rfl⟩
  | cons run merged => exact at_buildTree schemaDigest (hmerged run (by simp)) hcount (by omega)

/-! ## The job -/

/-- The node file of a returned tree has its full size. -/
theorem fileSize_nodes {givenBudget : Option WorkerBudget} {rows : List Bytes}
    {schemaDigest : HashValue} {tree : DiskTree} {w w' : World}
    (h : Returns (AimData.buildDiskTree env givenBudget rows schemaDigest) w tree w') :
    tree.count = rows.length ∧ (2 * rows.length - 1) * 32 ≤ fileSize w'.files "nodes" := by
  obtain ⟨ps, ls, -, hlen, -, hrep⟩ := represents_buildDiskTree h
  obtain ⟨content, hcontent, hlayout⟩ := hrep.nodes
  have hls : ls.length = rows.length := by
    rw [List.mapM_ok_length hrep.leaves, KWay.numbered, KWay.length_numberedFrom, hlen]
  have hpos := List.length_pos_iff.2 hrep.nonempty
  have hpre := Merkle.length_preorder nodeHash ls hrep.nonempty
  refine ⟨hrep.count.trans hls, ?_⟩
  -- the last slot of the layout is complete
  have hlast := hlayout (2 * ls.length - 2) (by omega)
  have h32 : (Bytes.slot 32 content (0 + (2 * ls.length - 2))).length = 32 := by
    rw [hlast]
    exact (Merkle.preorder nodeHash ls)[2 * ls.length - 2].2
  simp only [Bytes.slot, Bytes.readAt, List.length_take, List.length_drop] at h32
  rw [fileSize, hcontent, Option.getD_some]
  omega

end Watched

end AimData
