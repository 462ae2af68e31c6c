/-
  Scans of a seller's bucket: the objects that a scan lists, the rows that it keeps of
  them, and the version that is published from those rows.

  A scan keeps rows of its first objects only, and the table has one row an object,
  which belongs to the scan that saw the object last.  A version counts the rows of its
  scan as they are when it is published, so it is of the objects of the scan just when
  all of them were kept and none was seen again.
-/
import AimData.Lib.PyText
import AimData.Lib.Run
import AimData.Lib.Table
import AimData.Preview.Publication
import AimData.Signing.Preimage

namespace AimData

namespace S3

/-! ## What is stored -/

structure Connection where
  ownerId : String
  bucket : String
  region : String
  roleArn : Option String
  keyPrefix : Option String
  status : String
  deriving DecidableEq

/-- An object as a listing of the broker names it, with the time that is read off it. -/
structure Item where
  key : String
  size : ℤ
  etag : String
  lastModified : String
  deriving DecidableEq

/-- A row of `s3_object_metadata` -/
structure ObjectRow where
  connectionId : String
  scanJobId : String
  item : Item
  contentType : String
  deriving DecidableEq

/-- The table has one row for an object of a connection. -/
def ObjectRow.slot (row : ObjectRow) : String × String := (row.connectionId, row.item.key)

/-- `sampled_stats` -/
structure SampledStats where
  objectCount : ℕ
  totalSizeBytes : ℤ
  typeHistogram : List (String × ℕ)
  approximate : Bool
  sampleCoverage : String
  sampledObjectCount : ℕ
  targetPrefix : String
  targetScope : String
  deriving DecidableEq

inductive ScanStatus where
  | running
  | completed
  | failed
  deriving DecidableEq

structure ScanJob where
  connectionId : String
  status : ScanStatus
  objectsEnumerated : ℕ
  sampledStats : Option SampledStats
  deriving DecidableEq

/-! ## One scan -/

def sampleMaxObjects : ℕ := 1000

/-- `type_histogram[content_type] = type_histogram.get(content_type, 0) + 1` -/
def countType : List (String × ℕ) → String → List (String × ℕ)
  | [], contentType => [(contentType, 1)]
  | (t, n) :: rest, contentType =>
    if t = contentType then (t, n + 1) :: rest else (t, n) :: countType rest contentType

/-- What a scan has counted. -/
structure Counts where
  enumerated : ℕ
  totalSizeBytes : ℤ
  typeHistogram : List (String × ℕ)
  sampledObjectCount : ℕ
  deriving DecidableEq

/-- The rows of the table, and all writes of rows, the latest first. -/
structure Rows where
  table : List ObjectRow
  writes : List ObjectRow
  deriving DecidableEq

def Rows.write (rows : Rows) (row : ObjectRow) : Rows :=
  ⟨Table.upsert ObjectRow.slot rows.table row, row :: rows.writes⟩

section

variable (contentTypeForKey : String → String)

/-- What a scan does with an object of a page. -/
def scanItem (connectionId scanJobId : String) (state : Counts × Rows) (item : Item) :
    Counts × Rows :=
  let (counts, rows) := state
  let contentType := contentTypeForKey item.key
  let sampled := counts.sampledObjectCount < sampleMaxObjects
  ({ enumerated := counts.enumerated + 1
     totalSizeBytes := counts.totalSizeBytes + item.size
     typeHistogram := countType counts.typeHistogram contentType
     sampledObjectCount := if sampled then counts.sampledObjectCount + 1
       else counts.sampledObjectCount },
   if sampled then rows.write ⟨connectionId, scanJobId, item, contentType⟩ else rows)

def scanItems (connectionId scanJobId : String) (state : Counts × Rows) (items : List Item) :
    Counts × Rows :=
  items.foldl (scanItem contentTypeForKey connectionId scanJobId) state

end

/-- `(target_prefix or "").strip().strip("/")` -/
def normalizedTarget (targetPrefix : Option String) : String :=
  String.ofList (PyText.rstrip (· = '/') (PyText.lstrip (· = '/')
    (PyText.strip (targetPrefix.getD "").toList)))

/-- `_sampled_stats` -/
def sampledStats (counts : Counts) (approximate : Bool) (targetPrefix : Option String) :
    SampledStats where
  objectCount := counts.enumerated
  totalSizeBytes := counts.totalSizeBytes
  typeHistogram := counts.typeHistogram.insertionSort fun a b => a.1 ≤ b.1
  approximate := approximate
  sampleCoverage := if approximate then "partial" else "full"
  sampledObjectCount := counts.sampledObjectCount
  targetPrefix := normalizedTarget targetPrefix
  targetScope := if normalizedTarget targetPrefix = "" then "bucket_root" else "prefix"

/-! ## Versions -/

/-- `re.sub(r"/+", "/", s)` -/
def collapseSlashes : List Char → List Char
  | [] => []
  | c :: cs => if c = '/' ∧ cs.head? = some '/' then collapseSlashes cs
    else c :: collapseSlashes cs

def isControlOrWhitespace (c : Char) : Bool := c.toNat ≤ 32 ∨ c.toNat = 127 ∨ PyText.isSpace c

def validVersionLabel (label : String) : Bool :=
  1 ≤ label.length ∧ label.length ≤ 64 ∧
    label.toList.all fun c => c.isAlphanum ∨ c = '.' ∨ c = '_' ∨ c = '-'

/-- `if not p: raise e` -/
def check {ε : Type} (p : Prop) [Decidable p] (e : ε) : Except ε Unit :=
  if p then .ok () else .error e

/-- A lookup that raises where it finds nothing. -/
def found {α ε : Type} (o : Option α) (e : ε) : Except ε α :=
  match o with
  | some a => .ok a
  | none => .error e

@[simp] theorem check_ok {ε : Type} {p : Prop} [Decidable p] {e : ε} {u : Unit} :
    check p e = .ok u ↔ p := by
  by_cases h : p
  · simp [check, h]
  · simp [check, h]

theorem check_error {ε : Type} {p : Prop} [Decidable p] {e e' : ε} :
    check p e = .error e' ↔ ¬ p ∧ e = e' := by
  by_cases h : p
  · simp [check, h]
  · simp [check, h]

@[simp] theorem found_ok {α ε : Type} {o : Option α} {e : ε} {a : α} :
    found o e = .ok a ↔ o = some a := by
  cases o with
  | none => simp [found]
  | some b => simp [found]

/-- The parent prefix of `build_version_prefix`, in its canonical form. -/
def canonicalParent (parentPrefix : String) : List Char :=
  PyText.rstrip (· = '/') (PyText.lstrip (· = '/') (collapseSlashes parentPrefix.toList))

/-- `build_version_prefix` -/
def buildVersionPrefix (parentPrefix versionLabel : String) : Except String (List Char) := do
  check (parentPrefix.toList.all fun c => ¬ isControlOrWhitespace c)
    "parent prefix contains whitespace or control characters"
  check (canonicalParent parentPrefix ≠ []) "parent prefix must not be empty or root"
  check (validVersionLabel versionLabel)
    "version_label must match ^[A-Za-z0-9._-]\x7b1,64\x7d$"
  check (versionLabel ≠ "." ∧ versionLabel ≠ "..") "version_label must not be . or .."
  return canonicalParent parentPrefix ++ '/' :: (versionLabel.toList ++ ['/'])

def Item.manifestJson (item : Item) : Json :=
  .obj [("etag", .str item.etag), ("key", .str item.key),
    ("last_modified", .str item.lastModified), ("size", .int item.size)]

/-- `_manifest_hash_for_scan_rows` -/
def manifestHashForScanRows (items : List Item) : String :=
  hex (sha256 (Utf8.encode
    (sortedJson (.obj [("objects", .arr (items.map Item.manifestJson))])).dumps)).1

/-- `VersionPublishEmit` of an S3 scan -/
structure VersionPublishEmit where
  versionLabel : String
  objectCount : ℕ
  totalSizeBytes : ℤ
  manifestHash : String
  deriving DecidableEq

/-- The version of a list of objects. -/
def versionOf (versionLabel : String) (items : List Item) : VersionPublishEmit where
  versionLabel := versionLabel
  objectCount := items.length
  totalSizeBytes := (items.map Item.size).sum
  manifestHash := manifestHashForScanRows items

/-! ## Runs -/

/-- The provenance that the metadata of a dataset states. -/
structure DatasetSource where
  sourceType : Option String
  sourceConnectionId : Option String
  sourceObjectKey : Option String
  deriving DecidableEq

/-- A scan under way: what it has counted, and whether its listing goes on. -/
structure Scan where
  targetPrefix : Option String
  counts : Counts
  more : Bool
  deriving DecidableEq

/-- The tables, the scans under way, the connection ids drawn so far, and all the objects
    that each scan has listed. -/
structure World where
  connections : String → Option Connection
  jobs : String → Option ScanJob
  rows : Rows
  datasets : String → Option DatasetSource
  scans : String → Option Scan
  drawn : List String
  listing : String → List Item

namespace World

def start : World :=
  ⟨fun _ => none, fun _ => none, ⟨[], []⟩, fun _ => none, fun _ => none, [], fun _ => []⟩

variable (w : World)

def putConnection (connectionId : String) (connection : Connection) : World :=
  { w with connections := Function.update w.connections connectionId (some connection) }

def putScan (scanJobId : String) (job : ScanJob) (scan : Option Scan) : World :=
  { w with
    jobs := Function.update w.jobs scanJobId (some job)
    scans := Function.update w.scans scanJobId scan }

/-- The objects of a page, counted and kept by a scan. -/
def list (scanJobId : String) (items : List Item) (rows : Rows) : World :=
  { w with
    rows := rows
    listing := Function.update w.listing scanJobId (w.listing scanJobId ++ items) }

/-- `session.delete(connection)`, with its scans and their rows. -/
def deleteConnection (connectionId : String) : World :=
  let kept := fun (job : Option ScanJob) => job.all (·.connectionId ≠ connectionId)
  { w with
    connections := Function.update w.connections connectionId none
    jobs := fun j => if kept (w.jobs j) then w.jobs j else none
    scans := fun j => if kept (w.jobs j) then w.scans j else none
    listing := fun j => if kept (w.jobs j) then w.listing j else []
    rows := ⟨w.rows.table.filter fun row => row.slot.1 ≠ connectionId,
      w.rows.writes.filter fun row => row.slot.1 ≠ connectionId⟩ }

end World

inductive Event where
  | createConnection (connectionId : String) (connection : Connection)
  | setRoleArn (connectionId roleArn : String)
  | verify (connectionId : String) (verified : Bool)
  | deleteConnection (connectionId : String)
  | dataset (datasetId : String) (source : Option DatasetSource)
  | createScan (scanJobId connectionId : String) (scanPrefix : Option String)
  | page (scanJobId : String) (items : List Item) (more : Bool)
  | complete (scanJobId : String)
  | fail (scanJobId : String) (items : List Item)

section

variable (contentTypeForKey : String → String)

inductive WorldStep : World → Event → World → Prop
  | createConnection {w : World} {connectionId : String} {connection : Connection} :
    connectionId ∉ w.drawn →
    WorldStep w (.createConnection connectionId connection)
      { w.putConnection connectionId { connection with status := "onboarding" } with
        drawn := connectionId :: w.drawn }
  | setRoleArn {w : World} {connectionId roleArn : String} {connection : Connection} :
    w.connections connectionId = some connection →
    WorldStep w (.setRoleArn connectionId roleArn) (w.putConnection connectionId
      { connection with roleArn := some roleArn, status := "configured" })
  | verify {w : World} {connectionId : String} {connection : Connection} {verified : Bool} :
    w.connections connectionId = some connection →
    WorldStep w (.verify connectionId verified) (w.putConnection connectionId
      { connection with status := if verified then "verified" else "error" })
  | deleteConnection {w : World} {connectionId : String} {connection : Connection} :
    w.connections connectionId = some connection →
    WorldStep w (.deleteConnection connectionId) (w.deleteConnection connectionId)
  | dataset {w : World} {datasetId : String} {source : Option DatasetSource} :
    WorldStep w (.dataset datasetId source)
      { w with datasets := Function.update w.datasets datasetId source }
  | createScan {w : World} {scanJobId connectionId : String} {scanPrefix : Option String}
    {connection : Connection} :
    w.jobs scanJobId = none → w.connections connectionId = some connection →
    WorldStep w (.createScan scanJobId connectionId scanPrefix)
      (w.putScan scanJobId ⟨connectionId, .running, 0, none⟩
        (some ⟨if scanPrefix = none then connection.keyPrefix else scanPrefix,
          ⟨0, 0, [], 0⟩, true⟩))
  | page {w : World} {scanJobId : String} {items : List Item} {more : Bool} {job : ScanJob}
    {scan : Scan} {counts : Counts} {rows : Rows} :
    w.jobs scanJobId = some job → w.scans scanJobId = some scan → scan.more = true →
    scanItems contentTypeForKey job.connectionId scanJobId (scan.counts, w.rows) items =
      (counts, rows) →
    WorldStep w (.page scanJobId items more)
      ((w.list scanJobId items rows).putScan scanJobId
        { job with
          objectsEnumerated := counts.enumerated
          sampledStats := some (sampledStats counts false scan.targetPrefix) }
        (some { scan with counts := counts, more := more }))
  | complete {w : World} {scanJobId : String} {job : ScanJob} {scan : Scan} :
    w.jobs scanJobId = some job → w.scans scanJobId = some scan → scan.more = false →
    WorldStep w (.complete scanJobId)
      (w.putScan scanJobId { job with status := .completed } none)
  | fail {w : World} {scanJobId : String} {items : List Item} {job : ScanJob} {scan : Scan}
    {counts : Counts} {rows : Rows} :
    -- an error in the middle of a page keeps the rows of its first objects
    w.jobs scanJobId = some job → w.scans scanJobId = some scan →
    scanItems contentTypeForKey job.connectionId scanJobId (scan.counts, w.rows) items =
      (counts, rows) →
    WorldStep w (.fail scanJobId items)
      ((w.list scanJobId items rows).putScan scanJobId { job with status := .failed } none)

end

/-- The rows of a scan, in the order of their keys. -/
def World.scanRows (w : World) (scanJobId : String) : List ObjectRow :=
  (w.rows.table.filter fun row => row.scanJobId = scanJobId).insertionSort
    fun a b => a.item.key ≤ b.item.key

/-- `_version_emit_from_scan` -/
def versionEmitFromScan (w : World) (connectionId scanJobId versionLabel userId : String) :
    Except (ℕ × String) VersionPublishEmit := do
  let connection ← found (w.connections connectionId) (404, "S3 connection not found")
  check (connection.ownerId = userId) (403, "S3 connection is not owned by this user")
  let versionPrefix ← (buildVersionPrefix (connection.keyPrefix.getD "") versionLabel).mapError
    fun e => (400, "invalid version prefix: " ++ e)
  let job ← found (w.jobs scanJobId) (404, "S3 version scan job not found")
  check (job.connectionId = connectionId) (404, "S3 version scan job not found")
  check (job.status = .completed) (409, "S3 version scan must complete before publish")
  let rows := w.scanRows scanJobId
  check (rows ≠ []) (409, "S3 version scan found no objects under the version prefix")
  check (∀ row ∈ rows, versionPrefix <+: row.item.key.toList)
    (409, "S3 version scan does not match the requested version prefix")
  let version := versionOf versionLabel (rows.map ObjectRow.item)
  check (0 ≤ version.totalSizeBytes) (500, "total_size_bytes")
  return version

/-! ## What a scan keeps -/

section

variable {contentTypeForKey : String → String} {connectionId scanJobId : String}

/-- **A page**: the scan keeps its objects while it may, and the table stays that of the
    last writes. -/
theorem scanItems_spec {counts counts' : Counts} {rows rows' : Rows} {items : List Item}
    (h : scanItems contentTypeForKey connectionId scanJobId (counts, rows) items =
      (counts', rows')) (hle : counts.sampledObjectCount ≤ sampleMaxObjects) :
    counts'.sampledObjectCount =
        min (counts.sampledObjectCount + items.length) sampleMaxObjects ∧
      rows'.writes = ((items.take (sampleMaxObjects - counts.sampledObjectCount)).map
        fun item => ⟨connectionId, scanJobId, item, contentTypeForKey item.key⟩).reverse ++
          rows.writes ∧
      (Table.HoldsLast ObjectRow.slot rows.table rows.writes →
        Table.HoldsLast ObjectRow.slot rows'.table rows'.writes) := by
  induction items generalizing counts rows with
  | nil =>
    cases h
    refine ⟨(min_eq_left hle).symm, ?_, id⟩
    simp
  | cons item items ih =>
    rw [scanItems, List.foldl_cons] at h
    by_cases hlt : counts.sampledObjectCount < sampleMaxObjects
    · have hstate : scanItem contentTypeForKey connectionId scanJobId (counts, rows) item =
          (⟨counts.enumerated + 1, counts.totalSizeBytes + item.size,
            countType counts.typeHistogram (contentTypeForKey item.key),
            counts.sampledObjectCount + 1⟩,
            rows.write ⟨connectionId, scanJobId, item, contentTypeForKey item.key⟩) := by
        simp [scanItem, hlt]
      rw [hstate] at h
      obtain ⟨hcount, hwrites, htable⟩ := ih h hlt
      have hroom : sampleMaxObjects - counts.sampledObjectCount =
          (sampleMaxObjects - (counts.sampledObjectCount + 1)) + 1 := by omega
      refine ⟨?_, ?_, fun hrows => htable (hrows.write _)⟩
      · rw [hcount, List.length_cons]
        simp only
        omega
      · rw [hwrites, hroom, List.take_succ_cons, List.map_cons, List.reverse_cons,
          List.append_assoc]
        rfl
    · have hfull : sampleMaxObjects - counts.sampledObjectCount = 0 := by omega
      have hstate : scanItem contentTypeForKey connectionId scanJobId (counts, rows) item =
          (⟨counts.enumerated + 1, counts.totalSizeBytes + item.size,
            countType counts.typeHistogram (contentTypeForKey item.key),
            counts.sampledObjectCount⟩, rows) := by
        simp [scanItem, hlt]
      rw [hstate] at h
      obtain ⟨hcount, hwrites, htable⟩ := ih h hle
      refine ⟨?_, ?_, htable⟩
      · rw [hcount, List.length_cons]
        simp only
        omega
      · rw [hwrites]
        simp only [hfull, List.take_zero]

end

/-- What the rows and their writes say of the scans. -/
structure RowsInv (w : World) : Prop where
  table : Table.HoldsLast ObjectRow.slot w.rows.table w.rows.writes
  kept : ∀ j, ((w.rows.writes.filter fun row => row.scanJobId = j).map ObjectRow.item).reverse =
    (w.listing j).take sampleMaxObjects
  jobs : ∀ row ∈ w.rows.writes, ∃ job, w.jobs row.scanJobId = some job ∧
    job.connectionId = row.connectionId
  fresh : ∀ j, w.jobs j = none → w.listing j = []

/-- What the scans have counted. -/
structure CountsInv (w : World) : Prop where
  sampled : ∀ j scan, w.scans j = some scan →
    scan.counts.sampledObjectCount = min (w.listing j).length sampleMaxObjects
  full : ∀ j job stats, w.jobs j = some job → job.sampledStats = some stats →
    stats.sampleCoverage = "full"

namespace World

variable {w : World} {i j : String} {job job' : ScanJob} {o : Option Scan}

theorem putScan_jobs : (w.putScan j job o).jobs i = some job' ↔
    (i = j ∧ job = job') ∨ (i ≠ j ∧ w.jobs i = some job') := by
  by_cases h : i = j
  · simp [putScan, h]
  · simp [putScan, h]

theorem putScan_scans {scan : Scan} : (w.putScan j job o).scans i = some scan ↔
    (i = j ∧ o = some scan) ∨ (i ≠ j ∧ w.scans i = some scan) := by
  by_cases h : i = j
  · simp [putScan, h]
  · simp [putScan, h]

end World

theorem rowsInv_putScan {w : World} {j : String} {job : ScanJob} {o : Option Scan}
    (h : RowsInv w)
    (hsame : ∀ job', w.jobs j = some job' → job.connectionId = job'.connectionId) :
    RowsInv (w.putScan j job o) := by
  refine ⟨h.table, h.kept, ?_, ?_⟩
  · intro row hrow
    obtain ⟨job', hjob', hconnection⟩ := h.jobs row hrow
    by_cases hj : row.scanJobId = j
    · refine ⟨job, World.putScan_jobs.2 (Or.inl ⟨hj, rfl⟩), ?_⟩
      rw [← hconnection]
      exact hsame job' (hj ▸ hjob')
    · exact ⟨job', World.putScan_jobs.2 (Or.inr ⟨hj, hjob'⟩), hconnection⟩
  · intro i hi
    refine h.fresh i ?_
    by_contra hne
    obtain ⟨job', hjob'⟩ := Option.ne_none_iff_exists'.1 hne
    by_cases hij : i = j
    · rw [World.putScan_jobs.2 (Or.inl ⟨hij, rfl⟩)] at hi
      cases hi
    · rw [World.putScan_jobs.2 (Or.inr ⟨hij, hjob'⟩)] at hi
      cases hi

theorem countsInv_putScan {w v : World} {j : String} {job : ScanJob} {o : Option Scan}
    (h : CountsInv w) (hjobs : v.jobs = w.jobs) (hscans : v.scans = w.scans)
    (hlisting : ∀ i, i ≠ j → v.listing i = w.listing i)
    (hfull : ∀ stats, job.sampledStats = some stats → stats.sampleCoverage = "full")
    (ho : ∀ scan, o = some scan →
      scan.counts.sampledObjectCount = min (v.listing j).length sampleMaxObjects) :
    CountsInv (v.putScan j job o) := by
  constructor
  · intro i scan hscan
    rcases World.putScan_scans.1 hscan with ⟨rfl, hthis⟩ | ⟨hne, hother⟩
    · exact ho scan hthis
    · show _ = min (v.listing i).length sampleMaxObjects
      rw [hlisting i hne]
      rw [hscans] at hother
      exact h.sampled i scan hother
  · intro i job' stats hjob' hstats
    rcases World.putScan_jobs.1 hjob' with ⟨-, rfl⟩ | ⟨-, hother⟩
    · exact hfull stats hstats
    · rw [hjobs] at hother
      exact h.full i job' stats hother hstats

/-- The objects of a page are listed, and kept as far as the scan keeps any. -/
theorem rowsInv_list {contentTypeForKey : String → String} {w : World} {j : String}
    {job : ScanJob} {scan : Scan} {items : List Item} {counts : Counts} {rows : Rows}
    (h : RowsInv w) (hc : CountsInv w) (hjob : w.jobs j = some job)
    (hscan : w.scans j = some scan)
    (hitems : scanItems contentTypeForKey job.connectionId j (scan.counts, w.rows) items =
      (counts, rows)) :
    RowsInv (w.list j items rows) ∧
      counts.sampledObjectCount = min ((w.list j items rows).listing j).length sampleMaxObjects := by
  have hsampled := hc.sampled j scan hscan
  obtain ⟨hcount, hwrites, htable⟩ := scanItems_spec hitems (hsampled ▸ min_le_right _ _)
  have hlisting : (w.list j items rows).listing j = w.listing j ++ items := by
    simp [World.list]
  refine ⟨⟨htable h.table, ?_, ?_, ?_⟩, ?_⟩
  · intro i
    show ((rows.writes.filter fun row => row.scanJobId = i).map ObjectRow.item).reverse = _
    rw [hwrites, List.filter_append, List.map_append, List.reverse_append, h.kept i,
      List.filter_reverse, List.map_reverse, List.reverse_reverse, List.filter_map, List.map_map]
    by_cases hij : i = j
    · have hroom : sampleMaxObjects - scan.counts.sampledObjectCount =
          sampleMaxObjects - (w.listing j).length := by omega
      rw [hij, hlisting, List.take_append, hroom]
      simp [Function.comp_def]
    · have hother : (w.list j items rows).listing i = w.listing i := by
        simp [World.list, hij]
      rw [hother]
      simp [Function.comp_def, Ne.symm hij]
  · intro row hrow
    have hrow' : row ∈ rows.writes := hrow
    rw [hwrites, List.mem_append, List.mem_reverse, List.mem_map] at hrow'
    rcases hrow' with ⟨item, -, rfl⟩ | hrow'
    · exact ⟨job, hjob, rfl⟩
    · exact h.jobs row hrow'
  · intro i hi
    have hij : i ≠ j := by
      rintro rfl
      have hnone : w.jobs i = none := hi
      rw [hjob] at hnone
      cases hnone
    have hother : (w.list j items rows).listing i = w.listing i := by
      simp [World.list, hij]
    rw [hother]
    exact h.fresh i hi
  · rw [hlisting, hcount, hsampled, List.length_append]
    omega

/-! ### Deletion -/

section

variable {w : World} {c j : String}

theorem delete_jobs {job : ScanJob} : (w.deleteConnection c).jobs j = some job ↔
    w.jobs j = some job ∧ job.connectionId ≠ c := by
  show (if _ then w.jobs j else none) = some job ↔ _
  cases h : w.jobs j with
  | none => simp
  | some job' =>
    by_cases hc : job'.connectionId = c
    · simp only [Option.all_some, hc, ne_eq, not_true_eq_false, decide_false]
      simp only [Bool.false_eq_true, if_false, Option.some.injEq]
      constructor
      · intro h
        cases h
      · rintro ⟨rfl, hne⟩
        exact absurd hc hne
    · simp only [Option.all_some, hc, ne_eq, not_false_eq_true, decide_true, if_true,
        Option.some.injEq]
      constructor
      · rintro rfl
        exact ⟨rfl, hc⟩
      · exact And.left

/-- A scan that stays, or one that is gone. -/
theorem delete_cases (w : World) (c j : String) :
    ((∀ job, w.jobs j = some job → job.connectionId ≠ c) ∧
      (w.deleteConnection c).jobs j = w.jobs j ∧ (w.deleteConnection c).scans j = w.scans j ∧
      (w.deleteConnection c).listing j = w.listing j) ∨
    (∃ job, w.jobs j = some job ∧ job.connectionId = c ∧
      (w.deleteConnection c).scans j = none ∧ (w.deleteConnection c).listing j = []) := by
  cases h : w.jobs j with
  | none =>
    left
    refine ⟨fun job hjob => (by cases hjob), ?_, ?_, ?_⟩ <;> simp [World.deleteConnection, h]
  | some job =>
    by_cases hc : job.connectionId = c
    · right
      refine ⟨job, rfl, hc, ?_, ?_⟩ <;> simp [World.deleteConnection, h, hc]
    · left
      refine ⟨?_, ?_, ?_, ?_⟩
      · rintro job' ⟨⟩
        exact hc
      all_goals simp [World.deleteConnection, h, hc]

theorem rowsInv_delete (h : RowsInv w) (c : String) : RowsInv (w.deleteConnection c) := by
  refine ⟨h.table.filter fun k => k.1 ≠ c, ?_, ?_, ?_⟩
  · intro j
    show (((w.rows.writes.filter fun row => row.slot.1 ≠ c).filter
      fun row => row.scanJobId = j).map ObjectRow.item).reverse = _
    rw [List.filter_filter]
    rcases delete_cases w c j with ⟨hkept, -, -, hlisting⟩ | ⟨job, hjob, hc, -, hlisting⟩
    · rw [hlisting, ← h.kept j]
      congr 2
      refine List.filter_congr ?_
      intro row hrow
      by_cases hj : row.scanJobId = j
      · obtain ⟨job, hjob, hconnection⟩ := h.jobs row hrow
        have hne : row.connectionId ≠ c := hconnection ▸ hkept job (hj ▸ hjob)
        simp [hj, ObjectRow.slot, hne]
      · simp [hj]
    · rw [hlisting, List.filter_eq_nil_iff.2]
      · rfl
      · intro row hrow
        by_cases hj : row.scanJobId = j
        · obtain ⟨job', hjob', hconnection⟩ := h.jobs row hrow
          rw [hj, hjob] at hjob'
          cases hjob'
          have heq : row.slot.1 = c := hconnection.symm.trans hc
          simp [heq]
        · simp [hj]
  · intro row hrow
    obtain ⟨hmem, hne⟩ := List.mem_filter.1 hrow
    obtain ⟨job, hjob, hconnection⟩ := h.jobs row hmem
    refine ⟨job, delete_jobs.2 ⟨hjob, ?_⟩, hconnection⟩
    rw [hconnection]
    exact of_decide_eq_true hne
  · intro j hj
    rcases delete_cases w c j with ⟨-, hjobs, -, hlisting⟩ | ⟨-, -, -, -, hlisting⟩
    · rw [hlisting]
      exact h.fresh j (hjobs ▸ hj)
    · exact hlisting

theorem countsInv_delete (h : CountsInv w) (c : String) : CountsInv (w.deleteConnection c) := by
  constructor
  · intro j scan hscan
    rcases delete_cases w c j with ⟨-, -, hscans, hlisting⟩ | ⟨-, -, -, hscans, -⟩
    · rw [hlisting]
      exact h.sampled j scan (hscans ▸ hscan)
    · rw [hscans] at hscan
      cases hscan
  · intro j job stats hjob hstats
    exact h.full j job stats (delete_jobs.1 hjob).1 hstats

end

/-! ### Every step -/

def ScanInv (w : World) : Prop := RowsInv w ∧ CountsInv w

theorem scanInv_start : ScanInv World.start :=
  ⟨⟨.empty, fun _ => rfl, fun _ h => (by cases h), fun _ _ => rfl⟩,
    ⟨fun _ _ h => (by cases h), fun _ _ _ h => (by cases h)⟩⟩

theorem scanInv_step {contentTypeForKey : String → String} {w w' : World} {e : Event}
    (hw : ScanInv w) (h : WorldStep contentTypeForKey w e w') : ScanInv w' := by
  obtain ⟨hrows, hcounts⟩ := hw
  cases h with
  | createConnection =>
    exact ⟨⟨hrows.table, hrows.kept, hrows.jobs, hrows.fresh⟩, ⟨hcounts.sampled, hcounts.full⟩⟩
  | setRoleArn =>
    exact ⟨⟨hrows.table, hrows.kept, hrows.jobs, hrows.fresh⟩, ⟨hcounts.sampled, hcounts.full⟩⟩
  | verify =>
    exact ⟨⟨hrows.table, hrows.kept, hrows.jobs, hrows.fresh⟩, ⟨hcounts.sampled, hcounts.full⟩⟩
  | dataset =>
    exact ⟨⟨hrows.table, hrows.kept, hrows.jobs, hrows.fresh⟩, ⟨hcounts.sampled, hcounts.full⟩⟩
  | deleteConnection => exact ⟨rowsInv_delete hrows _, countsInv_delete hcounts _⟩
  | createScan hnone =>
    refine ⟨rowsInv_putScan hrows fun job' hjob' => ?_,
      countsInv_putScan hcounts rfl rfl (fun _ _ => rfl) (fun _ h => by cases h) ?_⟩
    · rw [hnone] at hjob'
      cases hjob'
    · rintro scan ⟨⟩
      rw [hrows.fresh _ hnone]
      rfl
  | page hjob hscan _ hitems =>
    obtain ⟨hlist, hcount⟩ := rowsInv_list hrows hcounts hjob hscan hitems
    refine ⟨rowsInv_putScan hlist fun job' hjob' => ?_,
      countsInv_putScan hcounts rfl rfl (fun i hi => Function.update_of_ne hi ..) ?_ ?_⟩
    · cases hjob.symm.trans hjob'
      rfl
    · rintro stats ⟨⟩
      rfl
    · rintro scan' ⟨⟩
      exact hcount
  | complete hjob hscan =>
    refine ⟨rowsInv_putScan hrows fun job' hjob' => ?_,
      countsInv_putScan hcounts rfl rfl (fun _ _ => rfl)
        (fun stats hstats => hcounts.full _ _ stats hjob hstats) (fun _ h => by cases h)⟩
    cases hjob.symm.trans hjob'
    rfl
  | fail hjob hscan hitems =>
    obtain ⟨hlist, -⟩ := rowsInv_list hrows hcounts hjob hscan hitems
    refine ⟨rowsInv_putScan hlist fun job' hjob' => ?_,
      countsInv_putScan hcounts rfl rfl (fun i hi => Function.update_of_ne hi ..)
        (fun stats hstats => hcounts.full _ _ stats hjob hstats) (fun _ h => by cases h)⟩
    cases hjob.symm.trans hjob'
    rfl

/-! ## What a version counts -/

/-- Objects that are those of a listing, each once, in the order of their keys. -/
structure EachOnce (listing objects : List Item) : Prop where
  mem : ∀ o ∈ objects, o ∈ listing
  nodup : (objects.map Item.key).Nodup
  all : ∀ x ∈ listing, ∃ o ∈ objects, o.key = x.key
  sorted : objects.Pairwise fun a b => a.key ≤ b.key

/-- The object count, the total size and the manifest hash of a version are those of the
    objects that a scan listed. -/
def OfListing (version : VersionPublishEmit) (listing : List Item) : Prop :=
  ∃ objects, EachOnce listing objects ∧ version = versionOf version.versionLabel objects

/-- All objects that a scan has listed are among those that it keeps. -/
def ListsFew (listing : List Item) : Prop :=
  ∀ x ∈ listing, ∃ y ∈ listing.take sampleMaxObjects, y.key = x.key

/-- No scan of the connection has seen an object of the scan again. -/
def SeenLast (w : World) (connectionId scanJobId : String) : Prop :=
  ∀ x ∈ (w.listing scanJobId).take sampleMaxObjects,
    ∃ row, Table.last ObjectRow.slot w.rows.writes (connectionId, x.key) = some row ∧
      row.scanJobId = scanJobId

/-- The scan has written a row of the object. -/
def Recorded (w : World) (scanJobId : String) (x : Item) : Prop :=
  ∃ row ∈ w.rows.writes, row.scanJobId = scanJobId ∧ row.item.key = x.key

section

variable {w : World} {j : String} {job : ScanJob}

/-- The rows that a scan has written are of the objects that it keeps. -/
theorem RowsInv.mem_kept (h : RowsInv w) {x : Item} :
    x ∈ (w.listing j).take sampleMaxObjects ↔
      ∃ row ∈ w.rows.writes, row.scanJobId = j ∧ row.item = x := by
  rw [← h.kept j, List.mem_reverse, List.mem_map]
  simp only [List.mem_filter, decide_eq_true_eq, and_assoc]

/-- The rows of a scan are its last writes that are the last of their object. -/
theorem RowsInv.mem_scanRows (h : RowsInv w) (hjob : w.jobs j = some job) {row : ObjectRow} :
    row ∈ w.scanRows j ↔ row.scanJobId = j ∧ row.connectionId = job.connectionId ∧
      Table.last ObjectRow.slot w.rows.writes (job.connectionId, row.item.key) = some row := by
  rw [World.scanRows, List.mem_insertionSort, List.mem_filter, h.table.mem_iff,
    decide_eq_true_eq]
  constructor
  · rintro ⟨hlast, hj⟩
    obtain ⟨job', hjob', hconnection⟩ := h.jobs row (Table.last_mem hlast)
    rw [hj, hjob] at hjob'
    cases hjob'
    refine ⟨hj, hconnection.symm, ?_⟩
    rw [hconnection]
    exact hlast
  · rintro ⟨hj, hconnection, hlast⟩
    rw [← hconnection] at hlast
    exact ⟨hlast, hj⟩

theorem RowsInv.scanRows_keys (h : RowsInv w) (hjob : w.jobs j = some job) :
    ((w.scanRows j).map fun row => row.item.key).Nodup := by
  have hperm : (w.scanRows j).Perm (w.rows.table.filter fun row => row.scanJobId = j) :=
    List.perm_insertionSort ..
  have hnodup : (w.scanRows j).Nodup :=
    hperm.nodup_iff.2 ((h.table.nodup.of_map).filter _)
  refine hnodup.map_on ?_
  intro row hrow row' hrow' hkey
  obtain ⟨-, -, hlast⟩ := (h.mem_scanRows hjob).1 hrow
  obtain ⟨-, -, hlast'⟩ := (h.mem_scanRows hjob).1 hrow'
  rw [hkey, hlast'] at hlast
  exact (Option.some.inj hlast).symm

theorem scanRows_sorted (w : World) (j : String) :
    ((w.scanRows j).map ObjectRow.item).Pairwise fun a b => a.key ≤ b.key := by
  rw [List.pairwise_map]
  have htotal : Std.Total fun a b : ObjectRow => a.item.key ≤ b.item.key :=
    ⟨fun a b => String.le_total a.item.key b.item.key⟩
  have htrans : IsTrans ObjectRow fun a b => a.item.key ≤ b.item.key :=
    ⟨fun _ _ _ => String.le_trans⟩
  exact List.pairwise_insertionSort _ _

/-- **The rows of a scan** are its objects, each once, just when it keeps all of them and
    they have not been seen again. -/
theorem eachOnce_iff (h : RowsInv w) (hjob : w.jobs j = some job) :
    EachOnce (w.listing j) ((w.scanRows j).map ObjectRow.item) ↔
      ListsFew (w.listing j) ∧ SeenLast w job.connectionId j := by
  constructor
  · intro heach
    have hlast : ∀ x ∈ w.listing j, ∃ row ∈ w.scanRows j, row.item.key = x.key := by
      intro x hx
      obtain ⟨o, ho, hkey⟩ := heach.all x hx
      obtain ⟨row, hrow, rfl⟩ := List.mem_map.1 ho
      exact ⟨row, hrow, hkey⟩
    constructor
    · intro x hx
      obtain ⟨row, hrow, hkey⟩ := hlast x hx
      obtain ⟨hj, -, hwrite⟩ := (h.mem_scanRows hjob).1 hrow
      exact ⟨row.item, h.mem_kept.2 ⟨row, Table.last_mem hwrite, hj, rfl⟩, hkey⟩
    · intro x hx
      obtain ⟨row, hrow, hkey⟩ := hlast x (List.mem_of_mem_take hx)
      obtain ⟨hj, -, hwrite⟩ := (h.mem_scanRows hjob).1 hrow
      rw [hkey] at hwrite
      exact ⟨row, hwrite, hj⟩
  · rintro ⟨hfew, hseen⟩
    refine ⟨?_, ?_, ?_, scanRows_sorted w j⟩
    · intro o ho
      obtain ⟨row, hrow, rfl⟩ := List.mem_map.1 ho
      obtain ⟨hj, -, hwrite⟩ := (h.mem_scanRows hjob).1 hrow
      exact List.mem_of_mem_take (h.mem_kept.2 ⟨row, Table.last_mem hwrite, hj, rfl⟩)
    · rw [List.map_map]
      exact h.scanRows_keys hjob
    · intro x hx
      obtain ⟨y, hy, hkey⟩ := hfew x hx
      obtain ⟨row, hwrite, hj⟩ := hseen y hy
      have hslot : row.slot = (job.connectionId, y.key) := Table.last_slot hwrite
      have hconnection : row.connectionId = job.connectionId := congrArg Prod.fst hslot
      have hrowkey : row.item.key = y.key := congrArg Prod.snd hslot
      refine ⟨row.item, List.mem_map_of_mem ?_, hrowkey.trans hkey⟩
      rw [h.mem_scanRows hjob]
      refine ⟨hj, hconnection, ?_⟩
      rw [hrowkey]
      exact hwrite

/-- The number of objects already tells whether a version is of a listing. -/
theorem ofListing_iff (h : RowsInv w) (hjob : w.jobs j = some job) (label : String) :
    OfListing (versionOf label ((w.scanRows j).map ObjectRow.item)) (w.listing j) ↔
      EachOnce (w.listing j) ((w.scanRows j).map ObjectRow.item) := by
  constructor
  · rintro ⟨objects, heach, hversion⟩
    have hlength : ((w.scanRows j).map ObjectRow.item).length = objects.length :=
      congrArg VersionPublishEmit.objectCount hversion
    have hrows : ∀ o ∈ (w.scanRows j).map ObjectRow.item, o ∈ w.listing j := by
      intro o ho
      obtain ⟨row, hrow, rfl⟩ := List.mem_map.1 ho
      obtain ⟨hj, -, hwrite⟩ := (h.mem_scanRows hjob).1 hrow
      exact List.mem_of_mem_take (h.mem_kept.2 ⟨row, Table.last_mem hwrite, hj, rfl⟩)
    have hnodup : (((w.scanRows j).map ObjectRow.item).map Item.key).Nodup := by
      rw [List.map_map]
      exact h.scanRows_keys hjob
    have hsub : ((w.scanRows j).map ObjectRow.item).map Item.key ⊆ objects.map Item.key := by
      intro k hk
      obtain ⟨o, ho, rfl⟩ := List.mem_map.1 hk
      obtain ⟨o', ho', hkey⟩ := heach.all o (hrows o ho)
      exact List.mem_map.2 ⟨o', ho', hkey⟩
    have hperm : (((w.scanRows j).map ObjectRow.item).map Item.key).Perm
        (objects.map Item.key) := by
      refine (hnodup.subperm hsub).perm_of_length_le ?_
      rw [List.length_map, List.length_map, hlength]
    refine ⟨hrows, hnodup, ?_, scanRows_sorted w j⟩
    intro x hx
    obtain ⟨o, ho, hkey⟩ := heach.all x hx
    obtain ⟨o', ho', hkey'⟩ :=
      List.mem_map.1 (hperm.mem_iff.2 (List.mem_map_of_mem (f := Item.key) ho))
    exact ⟨o', ho', hkey'.trans hkey⟩
  · intro heach
    exact ⟨_, heach, rfl⟩

theorem recorded_iff (h : RowsInv w) :
    (∀ x ∈ w.listing j, Recorded w j x) ↔ ListsFew (w.listing j) := by
  constructor
  · intro hall x hx
    obtain ⟨row, hrow, hj, hkey⟩ := hall x hx
    exact ⟨row.item, h.mem_kept.2 ⟨row, hrow, hj, rfl⟩, hkey⟩
  · intro hfew x hx
    obtain ⟨y, hy, hkey⟩ := hfew x hx
    obtain ⟨row, hrow, hj, rfl⟩ := h.mem_kept.1 hy
    exact ⟨row, hrow, hj, hkey⟩

end

/-- When a version is made from a scan, and of what. -/
theorem versionEmitFromScan_ok {w : World} {connectionId scanJobId versionLabel userId : String}
    {version : VersionPublishEmit} :
    versionEmitFromScan w connectionId scanJobId versionLabel userId = .ok version ↔
      ∃ connection, w.connections connectionId = some connection ∧
        connection.ownerId = userId ∧
      ∃ versionPrefix,
        buildVersionPrefix (connection.keyPrefix.getD "") versionLabel = .ok versionPrefix ∧
      ∃ job, w.jobs scanJobId = some job ∧ job.connectionId = connectionId ∧
        job.status = .completed ∧ w.scanRows scanJobId ≠ [] ∧
        (∀ row ∈ w.scanRows scanJobId, versionPrefix <+: row.item.key.toList) ∧
        0 ≤ (versionOf versionLabel ((w.scanRows scanJobId).map ObjectRow.item)).totalSizeBytes ∧
        versionOf versionLabel ((w.scanRows scanJobId).map ObjectRow.item) = version := by
  simp only [versionEmitFromScan, Except.bind_eq_ok, found_ok, check_ok, Except.mapError_ok,
    Except.pure_eq_ok, Except.ok.injEq, exists_and_left, exists_const]

/-- **A version of a scan**: its object count, total size and manifest hash are those of
    the objects that the scan listed, each once, just when the scan keeps all that it
    lists and no scan has seen one of them again; and the statistics of a scan, which
    always state full coverage, are right just when it keeps all. -/
theorem version_of_scan_iff {contentTypeForKey : String → String} {es : List Event} {w : World}
    (h : Run (WorldStep contentTypeForKey) .start es w) (scanJobId : String) :
    (∀ connectionId versionLabel userId version,
      versionEmitFromScan w connectionId scanJobId versionLabel userId = .ok version →
        (OfListing version (w.listing scanJobId) ↔
          ListsFew (w.listing scanJobId) ∧ SeenLast w connectionId scanJobId)) ∧
    ∀ job stats, w.jobs scanJobId = some job → job.sampledStats = some stats →
      ((stats.sampleCoverage = "full" → ∀ x ∈ w.listing scanJobId, Recorded w scanJobId x) ↔
        ListsFew (w.listing scanJobId)) := by
  have hinv : ScanInv w := h.invariant scanInv_step scanInv_start
  obtain ⟨hrows, hcounts⟩ := hinv
  constructor
  · intro connectionId versionLabel userId version hversion
    obtain ⟨-, -, -, -, -, job, hjob, rfl, -, -, -, -, rfl⟩ := versionEmitFromScan_ok.1 hversion
    rw [ofListing_iff hrows hjob, eachOnce_iff hrows hjob]
  · intro job stats hjob hstats
    rw [← recorded_iff hrows]
    constructor
    · intro hfull
      exact hfull (hcounts.full scanJobId job stats hjob hstats)
    · intro hall _
      exact hall

/-! ### An object that is seen again -/

def bucketConnection : Connection :=
  ⟨"user", "bucket", "region", none, some "data", "onboarding"⟩

def firstItem : Item := ⟨"data/v1/a", 1, "", ""⟩

def secondItem : Item := ⟨"data/v1/b", 1, "", ""⟩

def binaryType : String → String := fun _ => "application/octet-stream"

def rowOf (scanJobId : String) (item : Item) : ObjectRow :=
  ⟨"c", scanJobId, item, binaryType item.key⟩

/-- A scan lists two objects. -/
theorem scanned : ∃ w, Run (WorldStep binaryType) .start
      [.createConnection "c" bucketConnection, .createScan "s1" "c" (some "data/v1/"),
        .page "s1" [firstItem, secondItem] false, .complete "s1"] w ∧
    w.connections "c" = some bucketConnection ∧
    (∃ stats, w.jobs "s1" = some ⟨"c", .completed, 2, some stats⟩) ∧
    w.jobs "s2" = none ∧
    w.rows = ⟨[rowOf "s1" firstItem, rowOf "s1" secondItem],
      [rowOf "s1" secondItem, rowOf "s1" firstItem]⟩ ∧
    w.listing "s1" = [firstItem, secondItem] ∧ w.drawn = ["c"] := by
  refine ⟨_, .cons (.createConnection List.not_mem_nil) <|
    .cons (.createScan rfl rfl) <| .cons (.page rfl rfl rfl rfl) <|
    .cons (.complete rfl rfl rfl) .nil, ?_, ?_, ?_, ?_, ?_, ?_⟩
  · rfl
  · exact ⟨_, rfl⟩
  · rfl
  · rfl
  · rfl
  · rfl

theorem versionPrefix_v1 : buildVersionPrefix "data" "v1" = .ok "data/v1/".toList := by
  decide +kernel

/-- A version of rows of the first scan. -/
theorem scanned_version {w : World} {connection : Connection} {job : ScanJob}
    {rows : List ObjectRow} (hconnection : w.connections "c" = some connection)
    (howner : connection.ownerId = "user") (hkey : connection.keyPrefix = some "data")
    (hjob : w.jobs "s1" = some job)
    (hsame : job.connectionId = "c") (hstatus : job.status = .completed)
    (hrows : w.scanRows "s1" = rows) (hne : rows ≠ [])
    (hkeys : ∀ row ∈ rows, "data/v1/".toList <+: row.item.key.toList)
    (hsize : 0 ≤ (rows.map fun row => row.item.size).sum) :
    versionEmitFromScan w "c" "s1" "v1" "user" =
      .ok (versionOf "v1" (rows.map ObjectRow.item)) := by
  rw [versionEmitFromScan_ok]
  have hversion : buildVersionPrefix (connection.keyPrefix.getD "") "v1" =
      .ok "data/v1/".toList := by
    rw [hkey]
    exact versionPrefix_v1
  refine ⟨connection, hconnection, howner, _, hversion, job, hjob, hsame, hstatus, ?_⟩
  rw [hrows]
  refine ⟨hne, hkeys, ?_, rfl⟩
  rw [versionOf, List.map_map]
  exact hsize

/-- Both objects are of the version. -/
theorem version_of_scan_iff_two : ∃ w version,
    versionEmitFromScan w "c" "s1" "v1" "user" = .ok version ∧ version.objectCount = 2 ∧
      OfListing version (w.listing "s1") := by
  obtain ⟨w, hrun, hconnection, ⟨stats, hjob⟩, -, hrows, hlisting, -⟩ := scanned
  have hscan : w.scanRows "s1" = [rowOf "s1" firstItem, rowOf "s1" secondItem] := by
    rw [World.scanRows, hrows]
    decide +kernel
  have hversion := scanned_version hconnection rfl rfl hjob rfl rfl hscan (by decide) (by decide)
    (by decide)
  refine ⟨w, _, hversion, rfl, ?_⟩
  rw [(version_of_scan_iff hrun "s1").1 _ _ _ _ hversion, ListsFew, SeenLast, hlisting, hrows]
  decide +kernel

/-- Another scan of the connection lists one of the objects again, before the version is
    published. -/
theorem rescan_takes_objects : ∃ es w version, Run (WorldStep binaryType) .start es w ∧
    versionEmitFromScan w "c" "s1" "v1" "user" = .ok version ∧
      ¬ OfListing version (w.listing "s1") := by
  obtain ⟨w, hrun, hconnection, ⟨stats, hjob⟩, hfree, hrows, hlisting, -⟩ := scanned
  have hitems : scanItems binaryType "c" "s2" (⟨0, 0, [], 0⟩, w.rows) [firstItem] =
      (⟨1, 1, [("application/octet-stream", 1)], 1⟩,
        ⟨[rowOf "s2" firstItem, rowOf "s1" secondItem],
          [rowOf "s2" firstItem, rowOf "s1" secondItem, rowOf "s1" firstItem]⟩) := by
    rw [hrows]
    decide +kernel
  obtain ⟨v, hrescan, hconnection', hjob', hrows', hlisting'⟩ :
      ∃ v, Run (WorldStep binaryType) w
          [.createScan "s2" "c" none, .page "s2" [firstItem] false] v ∧
        v.connections = w.connections ∧ v.jobs "s1" = w.jobs "s1" ∧
        v.rows = ⟨[rowOf "s2" firstItem, rowOf "s1" secondItem],
          [rowOf "s2" firstItem, rowOf "s1" secondItem, rowOf "s1" firstItem]⟩ ∧
        v.listing "s1" = w.listing "s1" :=
    ⟨_, .cons (.createScan hfree hconnection) <| .cons (.page rfl rfl rfl hitems) .nil,
      rfl, rfl, rfl, rfl⟩
  have hinv : ScanInv v := (hrun.append hrescan).invariant scanInv_step scanInv_start
  have hscan : v.scanRows "s1" = [rowOf "s1" secondItem] := by
    rw [World.scanRows, hrows']
    decide +kernel
  rw [← hjob'] at hjob
  have hversion := scanned_version (hconnection'.symm ▸ hconnection) rfl rfl hjob rfl rfl hscan
    (by decide) (by decide) (by decide)
  refine ⟨_, v, _, hrun.append hrescan, hversion, ?_⟩
  rw [← hscan, ofListing_iff hinv.1 hjob, eachOnce_iff hinv.1 hjob]
  rintro ⟨-, hseen⟩
  rw [SeenLast, hlisting', hlisting, hrows'] at hseen
  obtain ⟨row, hlast, hj⟩ := hseen firstItem (by decide)
  have hother : Table.last ObjectRow.slot [rowOf "s2" firstItem, rowOf "s1" secondItem,
      rowOf "s1" firstItem] ("c", firstItem.key) = some (rowOf "s2" firstItem) := by
    decide +kernel
  cases hlast.symm.trans hother
  exact absurd hj (by decide)

end S3

end AimData
