/-
  The probe before a quote and the scan that is paid for.

  Both walk the same members and read the same bytes, the probe for their schema
  (`memberUnsupported`), the scan for their values.  They classify a member alike
  (`scanMember_kind`), but of an artifact in the object store the probe reads nothing.
-/
import AimData.Directory.Scan

namespace AimData

namespace Verification

open Directory (Artifact Tree dataMembers readDirectoryMember directoryPreRead Unsupported
  scanMember scanContent scanDirectory skipReason counter)
open Eolymp (Reader ScanResult SignedSpec validateArtifactSchema probeObjectCount scanBytes)

/-! ## The probe -/

/-- An artifact, with what reading it gives: a directory version, a local file by its name, or
    an object by its key and its recorded size. -/
inductive Resolved where
  | directory (artifact : Artifact) (tree : Tree)
  | file (name : String) (content : Except Raised Bytes)
  | s3 (objectKey : String) (sizeBytes : ℕ) (content : Except Raised Bytes)

/-- What a quote is asked for. -/
structure ProbeView where
  objectsDiscovered : ℕ
  fixedReasonSkips : List (String × ℕ)
  sizeClass : String
  estimatedMaxInputTokens : ℕ
  deriving DecidableEq

def sizeClass (sizeBytes : ℕ) : String :=
  if sizeBytes < 10000000 then "small" else if sizeBytes < 100000000 then "medium" else "large"

/-- `max(1, ceil((1024 + columns * 640) / 3))` -/
def estimatedTokens (columns : ℕ) : ℕ := max 1 ((1024 + columns * 640 + 2) / 3)

/-- `ValueError` and those of its subclasses that reading an artifact raises. -/
def valueErrors : List String :=
  ["ValueError", "UnsupportedConnectorShape", "IncompleteCoverageError", "BudgetIncompatibleError",
    "ArrowInvalid", "UnicodeDecodeError"]

/-- `RuntimeError` and those of its subclasses that reading an artifact raises. -/
def runtimeErrors : List String :=
  ["RuntimeError", "ScanRefusedError", "NotImplementedError", "RecursionError"]

/-- Exceptions of some types become a refusal. -/
def refusing {α : Type} (types : List String) (message : String) (x : Except Raised α) :
    Except Raised α :=
  x.mapError fun e => if e.type ∈ types then ⟨"DataVerificationLocalError", message⟩ else e

section
variable (reader : Reader) (scanMaxMemberBytes : ℕ)

/-- The probe of a member finds it unsupported. -/
def memberUnsupported (tree : Tree) (m : Publish.Member) : Except Raised Bool :=
  if Unsupported scanMaxMemberBytes m then .ok true
  else do
    let payload ← readDirectoryMember scanMaxMemberBytes tree true m
    if reader.isZipfile payload then return true
    else
      match validateArtifactSchema reader m.relativePath payload with
      | .ok () => return false
      | .error e => if e.type = "UnsupportedConnectorShape" then return true else .error e

/-- The counts of the skips, which have the one reason. -/
def unsupportedSkips (n : ℕ) : List (String × ℕ) :=
  if n = 0 then [] else [("unsupported_type", n)]

/-- `_probe`: the objects, the skips and the size that it finds. -/
def probeArtifact : Resolved → Except Raised (ℕ × List (String × ℕ) × ℕ)
  | .directory artifact tree =>
    refusing (Eolymp.osErrors ++ valueErrors ++ runtimeErrors)
      "registered directory source is unavailable" do
      let objectsDiscovered ← directoryPreRead scanMaxMemberBytes tree artifact
      let unsupported ← (dataMembers artifact.members).mapM
        (memberUnsupported reader scanMaxMemberBytes tree)
      return (objectsDiscovered, unsupportedSkips (unsupported.count true),
        artifact.totalDataBytes)
  | .file name content =>
    refusing Eolymp.osErrors "registered listing source is unavailable"
      (refusing valueErrors "registered listing source is not fully supported" do
        let payload ← content
        let objectsDiscovered ← probeObjectCount reader name payload
        validateArtifactSchema reader name payload
        return (objectsDiscovered, [], payload.length))
  | .s3 _ sizeBytes _ => .ok (1, [], sizeBytes)

/-- `_probe`, of a dataset with so many columns. -/
def probe (columns : ℕ) (artifact : Resolved) : Except Raised ProbeView := do
  let (objectsDiscovered, fixedReasonSkips, sizeBytes) ←
    probeArtifact reader scanMaxMemberBytes artifact
  S3.check (1 ≤ objectsDiscovered) ⟨"ValidationError", "objects_discovered"⟩
  return ⟨objectsDiscovered, fixedReasonSkips, sizeClass sizeBytes, estimatedTokens columns⟩

/-! ## The scan -/

/-- The facts of `scan`, with the content digest. -/
def scanFacts (commitmentKey sourceHandleId : Bytes) (spec : SignedSpec) :
    Resolved → Except Raised (ScanResult × String)
  | .directory artifact tree =>
    scanDirectory reader scanMaxMemberBytes tree commitmentKey spec tree artifact
  | .file name content | .s3 name _ content => do
    let payload ← content.mapError fun e =>
      if e.type ∈ Eolymp.osErrors ++ ["S3BrokerError", "ArtifactResolutionError"] then
        ⟨"ScanRefusedError", "registered artifact could not be read"⟩
      else e
    let result ← (scanBytes reader commitmentKey sourceHandleId spec name payload).mapError fun e =>
      if e.type ∈ ["UnsupportedConnectorShape", "IncompleteCoverageError",
          "BudgetIncompatibleError"] then ⟨"ScanRefusedError", e.message⟩
      else e
    return (result, AimData.hex (sha256 payload).1)

/-- The number of objects in an artifact: an archive has as many as it has names that are not
    directories. -/
def objectCount (payload : Bytes) : ℕ :=
  if reader.isZipfile payload then
    match reader.infolist payload with
    | .ok entries => (entries.filter fun name => name.toList.getLast? ≠ some '/').length
    | .error _ => 0
  else 1

end

/-! ## Objects are counted alike -/

section
variable {reader : Reader} {scanMaxMemberBytes : ℕ}

theorem archiveNames_length {payload : Bytes} {names : List String}
    (hzip : reader.isZipfile payload = true)
    (h : Eolymp.archiveNames reader payload = .ok names) :
    names.length = objectCount reader payload := by
  rw [Eolymp.archiveNames] at h
  obtain ⟨entries, hentries, h⟩ := Except.bind_eq_ok.1 h
  obtain ⟨⟨⟩, -, h⟩ := Except.bind_eq_ok.1 h
  obtain ⟨⟨⟩, -, h⟩ := Except.bind_eq_ok.1 h
  cases h
  rw [objectCount, hzip, if_pos rfl, hentries]

theorem probeObjectCount_eq {name : String} {payload : Bytes} {n : ℕ}
    (h : probeObjectCount reader name payload = .ok n) : n = objectCount reader payload := by
  rw [probeObjectCount] at h
  split_ifs at h with hzip
  · obtain ⟨names, hnames, h⟩ := Except.bind_eq_ok.1 (Except.mapError_ok.1 h)
    cases h
    exact archiveNames_length hzip hnames
  · obtain ⟨⟨⟩, -, h⟩ := Except.bind_eq_ok.1 h
    cases h
    rw [objectCount, if_neg hzip]

theorem objects_length {name : String} {payload : Bytes} {sources : List (String × Bytes)}
    (h : Eolymp.objects reader name payload = .ok sources) :
    sources.length = objectCount reader payload := by
  rw [Eolymp.objects] at h
  split_ifs at h with hzip
  · obtain ⟨names, hnames, h⟩ := Except.bind_eq_ok.1 (Except.mapError_ok.1 h)
    rw [List.mapM_ok_length h, List.length_insertionSort, archiveNames_length hzip hnames]
  · obtain ⟨⟨⟩, -, h⟩ := Except.bind_eq_ok.1 h
    cases h
    rw [objectCount, if_neg hzip]
    rfl

/-- A scan of an artifact discovers its objects and skips none. -/
theorem scanBytes_coverage {commitmentKey binding : Bytes} {spec : SignedSpec} {name : String}
    {payload : Bytes} {result : ScanResult}
    (h : scanBytes reader commitmentKey binding spec name payload = .ok result) :
    result.coverage.objectsDiscovered = objectCount reader payload ∧
      result.coverage.objectsSkippedByReason = [] := by
  rw [scanBytes] at h
  obtain ⟨sources, hsources, h⟩ := Except.bind_eq_ok.1 h
  obtain ⟨facts, -, h⟩ := Except.bind_eq_ok.1 h
  rw [Eolymp.withinBudget] at h
  obtain ⟨bytes, -, h⟩ := Except.bind_eq_ok.1 h
  obtain ⟨⟨⟩, -, h⟩ := Except.bind_eq_ok.1 h
  cases h
  exact ⟨objects_length hsources, rfl⟩

/-! ## Members are classified alike -/

theorem skipReason_data {e : Raised} (h : e.type ∈ "BudgetIncompatibleError" :: Eolymp.dataErrors) :
    ∃ e', skipReason e = .error e' := by
  obtain ⟨type, message⟩ := e
  simp only [Eolymp.dataErrors, List.mem_cons, List.not_mem_nil, or_false] at h
  rcases h with rfl | rfl | rfl | rfl
  all_goals exact ⟨_, rfl⟩

/-- Of a member that the probe finds unsupported a scan says so, and any other it scans. -/
theorem scanMember_kind {tree : Tree} {commitmentKey root : Bytes} {spec : SignedSpec}
    {m : Publish.Member} {unsupported : Bool} {outcome : Directory.Outcome}
    (hprobe : memberUnsupported reader scanMaxMemberBytes tree m = .ok unsupported)
    (hscan : scanMember reader scanMaxMemberBytes tree commitmentKey spec root m = .ok outcome) :
    outcome.skipped?.map Eolymp.Skipped.reason =
      if unsupported then some "unsupported_type" else none := by
  rw [memberUnsupported] at hprobe
  rw [scanMember] at hscan
  split_ifs at hprobe with hunsupported
  · rw [if_pos hunsupported] at hscan
    cases hprobe
    cases hscan
    rfl
  rw [if_neg hunsupported] at hscan
  obtain ⟨payload, hpayload, hprobe⟩ := Except.bind_eq_ok.1 hprobe
  rw [scanContent, hpayload, Except.ok_bind] at hscan
  by_cases hzip : reader.isZipfile payload = true
  · rw [if_pos hzip] at hprobe
    cases hprobe
    rw [S3.check_error.2 ⟨by rw [hzip]; simp, rfl⟩] at hscan
    cases hscan
    rfl
  rw [if_neg hzip] at hprobe
  have hplain : reader.isZipfile payload = false := by simpa using hzip
  rw [(S3.check_ok (u := ())).2 hplain, Except.ok_bind] at hscan
  cases hschema : validateArtifactSchema reader m.relativePath payload with
  | ok u =>
    rw [hschema] at hprobe
    cases hprobe
    cases hbytes : scanBytes reader commitmentKey (Directory.sourceBinding root) spec
        m.relativePath payload with
    | ok result =>
      rw [hbytes, Except.ok_bind] at hscan
      cases hfacts : Directory.memberFacts (Directory.memberObjectId commitmentKey root m)
          result with
      | ok outcome' =>
        rw [hfacts] at hscan
        cases hscan
        rw [Directory.memberFacts_scanned hfacts]
        rfl
      | error e =>
        obtain ⟨e', he'⟩ : ∃ e', skipReason e = .error e' := by
          rw [Directory.memberFacts_error hfacts]
          exact ⟨_, rfl⟩
        rw [hfacts] at hscan
        simp only [he'] at hscan
        cases hscan
    | error e =>
      obtain ⟨e', he'⟩ := skipReason_data (Eolymp.scanBytes_of_valid hschema hbytes)
      rw [hbytes, Except.error_bind] at hscan
      simp only [he'] at hscan
      cases hscan
  | error e =>
    obtain ⟨htype, e', hbytes, htype'⟩ := @Eolymp.scanBytes_of_invalid reader commitmentKey
      (Directory.sourceBinding root) spec _ _ _ hplain hschema
    rw [hschema] at hprobe
    simp only [htype, if_pos] at hprobe
    cases hprobe
    rw [hbytes, Except.error_bind] at hscan
    rcases htype' with htype' | htype'
    · simp only [skipReason, htype', if_pos] at hscan
      cases hscan
      rfl
    · have hfail : ∃ e'', skipReason e' = .error e'' :=
        skipReason_data (by simp [htype', Eolymp.dataErrors])
      obtain ⟨e'', hfail⟩ := hfail
      simp only [hfail] at hscan
      cases hscan

/-- The reasons of a scan are as many as the members that the probe finds unsupported. -/
theorem reasons_eq {tree : Tree} {commitmentKey root : Bytes} {spec : SignedSpec}
    {members : List Publish.Member} {flags : List Bool} {outcomes : List Directory.Outcome}
    (hprobe : members.mapM (memberUnsupported reader scanMaxMemberBytes tree) = .ok flags)
    (hscan : members.mapM (scanMember reader scanMaxMemberBytes tree commitmentKey spec root) =
      .ok outcomes) :
    (outcomes.filterMap Directory.Outcome.skipped?).map Eolymp.Skipped.reason =
      List.replicate (flags.count true) "unsupported_type" := by
  induction members generalizing flags outcomes with
  | nil =>
    cases hprobe
    cases hscan
    rfl
  | cons m members ih =>
    obtain ⟨unsupported, flags, hm, hflags, rfl⟩ := List.mapM_cons_ok.1 hprobe
    obtain ⟨outcome, rest, hm', hrest, rfl⟩ := List.mapM_cons_ok.1 hscan
    have hkind := scanMember_kind hm hm'
    rw [List.filterMap_cons]
    cases unsupported with
    | true =>
      obtain ⟨skipped, hskipped, hreason⟩ := Option.map_eq_some_iff.1 hkind
      rw [hskipped, List.map_cons, ih hflags hrest, hreason, List.count_cons_self,
        List.replicate_succ]
    | false =>
      rw [Option.map_eq_none_iff.1 hkind, ih hflags hrest]
      simp

theorem counter_replicate (n : ℕ) :
    counter (List.replicate n "unsupported_type") = unsupportedSkips n := by
  cases n with
  | zero => rfl
  | succ n =>
    rw [counter, List.replicate_succ, List.eraseDups_cons,
      List.filter_eq_nil_iff.2 fun a ha => by simp [List.eq_of_mem_replicate ha]]
    simp [unsupportedSkips]

theorem probe_ok {columns : ℕ} {artifact : Resolved} {view : ProbeView}
    (h : probe reader scanMaxMemberBytes columns artifact = .ok view) : ∃ sizeBytes,
    probeArtifact reader scanMaxMemberBytes artifact =
      .ok (view.objectsDiscovered, view.fixedReasonSkips, sizeBytes) := by
  rw [probe] at h
  obtain ⟨⟨objectsDiscovered, skips, sizeBytes⟩, hprobe, h⟩ := Except.bind_eq_ok.1 h
  obtain ⟨⟨⟩, -, h⟩ := Except.bind_eq_ok.1 h
  cases h
  exact ⟨sizeBytes, hprobe⟩

/-- A quote and a scan count the same objects and the same skips. -/
def Agree (view : ProbeView) (result : ScanResult) : Prop :=
  view.objectsDiscovered = result.coverage.objectsDiscovered ∧
    view.fixedReasonSkips = result.coverage.objectsSkippedByReason

/-- **A probe and a scan that both succeed agree iff an object in the store is one table**: the
    probe of such an object reads nothing, and counts one. -/
theorem probe_agrees_iff {columns : ℕ} {commitmentKey sourceHandleId : Bytes} {spec : SignedSpec}
    {artifact : Resolved} {view : ProbeView} {result : ScanResult} {digest : String}
    (hprobe : probe reader scanMaxMemberBytes columns artifact = .ok view)
    (hscan : scanFacts reader scanMaxMemberBytes commitmentKey sourceHandleId spec artifact =
      .ok (result, digest)) :
    Agree view result ↔ ∀ objectKey sizeBytes payload,
      artifact = .s3 objectKey sizeBytes (.ok payload) → objectCount reader payload = 1 := by
  obtain ⟨sizeBytes, hprobe⟩ := probe_ok hprobe
  cases artifact with
  | directory artifact tree =>
    refine iff_of_true ?_ fun _ _ _ h => by cases h
    obtain ⟨observed, hobserved, hprobe⟩ := Except.bind_eq_ok.1 (Except.mapError_ok.1 hprobe)
    obtain ⟨flags, hflags, hprobe⟩ := Except.bind_eq_ok.1 hprobe
    obtain ⟨observed', outcomes, hobserved', houtcomes, rfl, -⟩ :=
      Directory.scanDirectory_ok.1 hscan
    cases hobserved.symm.trans hobserved'
    have hreasons := reasons_eq hflags houtcomes
    have hsorted : ((outcomes.filterMap Directory.Outcome.skipped?).insertionSort
        fun a b => a.objectId ≤ b.objectId).map Eolymp.Skipped.reason =
        List.replicate (flags.count true) "unsupported_type" := by
      have hperm := (List.perm_insertionSort
        (fun a b : Eolymp.Skipped => a.objectId ≤ b.objectId)
        (outcomes.filterMap Directory.Outcome.skipped?)).map Eolymp.Skipped.reason
      rw [hreasons] at hperm
      exact List.perm_replicate.1 hperm
    simp only [Except.pure_eq_ok, Except.ok.injEq, Prod.mk.injEq] at hprobe
    constructor
    · exact hprobe.1.symm
    · rw [← hprobe.2.1, Directory.directoryResult]
      simp only [hsorted, counter_replicate]
  | file name content =>
    refine iff_of_true ?_ fun _ _ _ h => by cases h
    obtain ⟨payload, hpayload, hprobe⟩ :=
      Except.bind_eq_ok.1 (Except.mapError_ok.1 (Except.mapError_ok.1 hprobe))
    obtain ⟨n, hn, hprobe⟩ := Except.bind_eq_ok.1 hprobe
    obtain ⟨⟨⟩, -, hprobe⟩ := Except.bind_eq_ok.1 hprobe
    obtain ⟨payload', hpayload', hscan⟩ := Except.bind_eq_ok.1 hscan
    cases hpayload.symm.trans (Except.mapError_ok.1 hpayload')
    obtain ⟨scanned, hscanned, hscan⟩ := Except.bind_eq_ok.1 hscan
    cases hscan
    obtain ⟨hcount, hskips⟩ := scanBytes_coverage (Except.mapError_ok.1 hscanned)
    simp only [Except.pure_eq_ok, Except.ok.injEq, Prod.mk.injEq] at hprobe
    rw [Agree, hcount, hskips, ← hprobe.1, ← hprobe.2.1, probeObjectCount_eq hn]
    exact ⟨rfl, rfl⟩
  | s3 objectKey sizeBytes content =>
    obtain ⟨payload, hpayload, hscan⟩ := Except.bind_eq_ok.1 hscan
    obtain ⟨scanned, hscanned, hscan⟩ := Except.bind_eq_ok.1 hscan
    cases hscan
    cases Except.mapError_ok.1 hpayload
    obtain ⟨hcount, hskips⟩ := scanBytes_coverage (Except.mapError_ok.1 hscanned)
    simp only [probeArtifact, Except.ok.injEq, Prod.mk.injEq] at hprobe
    rw [Agree, hcount, hskips, ← hprobe.1, ← hprobe.2.1]
    constructor
    · rintro ⟨hone, -⟩ _ _ _ h
      cases h
      exact hone.symm
    · intro h
      exact ⟨(h objectKey _ payload rfl).symm, rfl⟩

theorem scanFacts_s3 {commitmentKey sourceHandleId : Bytes} {spec : SignedSpec} {name : String}
    {sizeBytes : ℕ} {payload : Bytes} {result : ScanResult}
    (h : scanBytes reader commitmentKey sourceHandleId spec name payload = .ok result) :
    scanFacts reader scanMaxMemberBytes commitmentKey sourceHandleId spec
      (.s3 name sizeBytes (.ok payload)) = .ok (result, AimData.hex (sha256 payload).1) := by
  rw [scanFacts, Except.mapError, Except.ok_bind, h]
  rfl

/-- An archive of two tables. -/
def twoTables : Reader where
  lower := id
  isZipfile _ := true
  infolist _ := .ok ["a.csv", "b.csv"]
  read _ _ := .ok []
  table _ _ := some ⟨0, [], fun _ h => absurd h List.not_mem_nil⟩
  estimate _ := 0
  double _ := 0

/-- A stored archive. -/
def storedArchive : Resolved := .s3 "data.zip" 6 (.ok [])

/-- What a scan says of a table without columns. -/
def emptyFact (identity : String) : Eolymp.Fact :=
  ⟨Eolymp.objectCommitment [] [] identity, [], [], [], [], [], [], 0⟩

def twoTablesResult : ScanResult :=
  Eolymp.scanResult ⟨⟨3, Eolymp.ScanSpec.least, [], [], []⟩, 0, false⟩ 2
    [emptyFact "a.csv", emptyFact "b.csv"]

def twoTablesSpec : SignedSpec :=
  ⟨⟨3, Eolymp.ScanSpec.least, [], [], []⟩,
    (Utf8.encode (sortedJson twoTablesResult.json).dumps).length, false⟩

theorem scan_storedArchive :
    scanFacts twoTables 1 [] [] twoTablesSpec storedArchive =
      .ok (twoTablesResult, AimData.hex (sha256 []).1) := by
  have hobjects : Eolymp.objects twoTables "data.zip" [] = .ok [("a.csv", []), ("b.csv", [])] := rfl
  have hscan : ∀ identity, (Eolymp.suffix twoTables identity).isSome →
      identity ≠ Eolymp.registeredRoot →
      Eolymp.scanObject twoTables [] [] twoTablesSpec "data.zip" (identity, []) =
        .ok (emptyFact identity) := by
    intro identity hsuffix hidentity
    obtain ⟨format, hformat⟩ := Option.isSome_iff_exists.1 hsuffix
    rw [Eolymp.scanObject, Eolymp.readTable, Eolymp.objectName, if_pos hidentity, hformat]
    rfl
  have hresult : ∀ spec spec' : SignedSpec, spec.previewRequested = spec'.previewRequested →
      Eolymp.scanResult spec 2 [emptyFact "a.csv", emptyFact "b.csv"] =
        Eolymp.scanResult spec' 2 [emptyFact "a.csv", emptyFact "b.csv"] := by
    intro spec spec' h
    rw [Eolymp.scanResult, Eolymp.scanResult, h]
  have hbytes : scanBytes twoTables [] [] twoTablesSpec "data.zip" [] = .ok twoTablesResult := by
    have hfacts : [("a.csv", ([] : Bytes)), ("b.csv", [])].mapM
        (Eolymp.scanObject twoTables [] [] twoTablesSpec "data.zip") =
          .ok [emptyFact "a.csv", emptyFact "b.csv"] :=
      List.mapM_cons_ok.2 ⟨_, _, hscan "a.csv" rfl (by decide),
        List.mapM_cons_ok.2 ⟨_, _, hscan "b.csv" rfl (by decide), rfl, rfl⟩, rfl⟩
    rw [scanBytes, hobjects, Except.ok_bind, hfacts, Except.ok_bind,
      show [("a.csv", ([] : Bytes)), ("b.csv", [])].length = 2 from rfl,
      hresult twoTablesSpec ⟨⟨3, le_rfl, [], [], []⟩, 0, false⟩ rfl]
    exact Eolymp.withinBudget_ownLength twoTablesResult
  exact scanFacts_s3 hbytes

/-- The quote is for one object, and the scan of the same archive reports two. -/
theorem stored_archive_counted_once : ∃ view result digest,
    probe twoTables 1 1 storedArchive = .ok view ∧
    scanFacts twoTables 1 [] [] twoTablesSpec storedArchive = .ok (result, digest) ∧
    view.objectsDiscovered = 1 ∧ result.coverage.objectsDiscovered = 2 :=
  ⟨_, _, _, rfl, scan_storedArchive, rfl, rfl⟩

theorem probe_agrees_iff_stored : ∃ view, probe twoTables 1 1 storedArchive = .ok view ∧
    (Agree view twoTablesResult ↔ ∀ objectKey sizeBytes payload,
      storedArchive = .s3 objectKey sizeBytes (.ok payload) → objectCount twoTables payload = 1) :=
  ⟨_, rfl, probe_agrees_iff rfl scan_storedArchive⟩

/-! ## What the probe accepts -/

/-- The names and bytes of what the probe counts as supported. -/
def supportedObjects (reader : Reader) (scanMaxMemberBytes : ℕ) : Resolved → List (String × Bytes)
  | .directory artifact tree => (dataMembers artifact.members).filterMap fun m =>
    match memberUnsupported reader scanMaxMemberBytes tree m,
        readDirectoryMember scanMaxMemberBytes tree true m with
    | .ok false, .ok payload => some (m.relativePath, payload)
    | _, _ => none
  | .file name content | .s3 name _ content =>
    match content with
    | .ok payload => [(name, payload)]
    | .error _ => []

/-- The probe accepts an artifact.  It validates no schema of an object in the store, which
    has to be valid as well. -/
structure Accepts (reader : Reader) (scanMaxMemberBytes columns : ℕ) (artifact : Resolved) :
    Prop where
  probed : ∃ view, probe reader scanMaxMemberBytes columns artifact = .ok view
  stored : ∀ objectKey sizeBytes payload, artifact = .s3 objectKey sizeBytes (.ok payload) →
    validateArtifactSchema reader objectKey payload = .ok ()

theorem memberUnsupported_false {tree : Tree} {m : Publish.Member} {payload : Bytes}
    (h : memberUnsupported reader scanMaxMemberBytes tree m = .ok false)
    (hread : readDirectoryMember scanMaxMemberBytes tree true m = .ok payload) :
    validateArtifactSchema reader m.relativePath payload = .ok () := by
  rw [memberUnsupported] at h
  split_ifs at h with hunsupported
  · cases h
  rw [hread, Except.ok_bind] at h
  split_ifs at h with hzip
  · cases h
  · split at h
    · next hschema => exact hschema
    · split_ifs at h
      cases h

/-- What the probe counts as supported has a valid schema. -/
theorem Accepts.valid {columns : ℕ} {artifact : Resolved}
    (h : Accepts reader scanMaxMemberBytes columns artifact) :
    ∀ object ∈ supportedObjects reader scanMaxMemberBytes artifact,
      validateArtifactSchema reader object.1 object.2 = .ok () := by
  intro object hobject
  cases artifact with
  | directory artifact tree =>
    obtain ⟨m, -, hm⟩ := List.mem_filterMap.1 hobject
    split at hm
    · next hsupported hread =>
      cases hm
      exact memberUnsupported_false hsupported hread
    · cases hm
  | file name content =>
    obtain ⟨view, hview⟩ := h.probed
    obtain ⟨sizeBytes, hprobe⟩ := probe_ok hview
    obtain ⟨payload, hpayload, hprobe⟩ :=
      Except.bind_eq_ok.1 (Except.mapError_ok.1 (Except.mapError_ok.1 hprobe))
    obtain ⟨n, -, hprobe⟩ := Except.bind_eq_ok.1 hprobe
    obtain ⟨⟨⟩, hschema, -⟩ := Except.bind_eq_ok.1 hprobe
    cases hpayload
    cases List.mem_singleton.1 hobject
    exact hschema
  | s3 objectKey sizeBytes content =>
    cases content with
    | ok payload =>
      cases List.mem_singleton.1 hobject
      exact h.stored objectKey sizeBytes payload rfl
    | error e => cases hobject

/-- **What the probe accepts a scan completes iff its values have canonical bytes.** -/
theorem accepted_completes_iff {columns : ℕ} {commitmentKey sourceBinding : Bytes}
    {spec : SignedSpec} {artifact : Resolved}
    (h : Accepts reader scanMaxMemberBytes columns artifact) :
    (∀ object ∈ supportedObjects reader scanMaxMemberBytes artifact,
      Eolymp.Completes reader commitmentKey sourceBinding spec object.1 object.2) ↔
    ∀ object ∈ supportedObjects reader scanMaxMemberBytes artifact,
      Eolymp.Scannable reader object.1 object.2 :=
  forall₂_congr fun object hobject => Eolymp.completes_iff (h.valid object hobject)

end

/-- A table of one infinite float. -/
def infiniteFloats : Reader where
  lower := id
  isZipfile _ := false
  infolist _ := raise "BadZipFile" "File is not a zip file"
  read _ _ := raise "BadZipFile" "File is not a zip file"
  table _ _ := some ⟨1, [⟨"x", .floating, 0, true, some [some (.value (.float "inf"))]⟩], by simp⟩
  estimate _ := 0
  double _ := 0

def infiniteFile : Resolved := .file "a.csv" (.ok (Utf8.encode "x\ninf\n".toList))

theorem accepts_infiniteFile : Accepts infiniteFloats 100 1 infiniteFile :=
  ⟨⟨_, rfl⟩, fun _ _ _ h => by cases h⟩

theorem infinite_not_scannable {name : String} {payload : Bytes}
    (hsuffix : (Eolymp.suffix infiniteFloats name).isSome) :
    ¬ Eolymp.Scannable infiniteFloats name payload := by
  intro h
  obtain ⟨format, hformat⟩ := Option.isSome_iff_exists.1 hsuffix
  have hobjects : Eolymp.objects infiniteFloats name payload =
      .ok [(Eolymp.registeredRoot, payload)] := by
    rw [Eolymp.objects, Eolymp.supportedArtifact, (S3.check_ok (u := ())).2 hsuffix]
    rfl
  have htable : Eolymp.readTable infiniteFloats
      (Eolymp.objectName name Eolymp.registeredRoot) payload =
      .ok ⟨1, [⟨"x", .floating, 0, true, some [some (.value (.float "inf"))]⟩], by simp⟩ := by
    rw [Eolymp.readTable, Eolymp.objectName, if_neg (by simp), hformat]
    rfl
  obtain ⟨-, values, hvalues, hcanonical⟩ := h _ hobjects _ (List.mem_singleton.2 rfl) _ htable _
    (List.mem_singleton.2 rfl)
  cases hvalues
  have hfloat : Json.floatText "inf" = true := hcanonical _ (List.mem_singleton.2 rfl)
  exact absurd hfloat (by decide)

/-- A table of an infinite float is accepted, and no scan of it completes. -/
theorem infinite_float_raises : Accepts infiniteFloats 100 1 infiniteFile ∧
    ¬ ∀ object ∈ supportedObjects infiniteFloats 100 infiniteFile,
      Eolymp.Completes infiniteFloats [] [] ⟨⟨3, le_rfl, [], [], []⟩, 1000, false⟩ object.1
        object.2 := by
  refine ⟨accepts_infiniteFile, fun h => ?_⟩
  have hcompletes := h ("a.csv", Utf8.encode "x\ninf\n".toList) (List.mem_singleton.2 rfl)
  have hvalid := accepts_infiniteFile.valid ("a.csv", Utf8.encode "x\ninf\n".toList)
    (List.mem_singleton.2 rfl)
  exact infinite_not_scannable rfl ((Eolymp.completes_iff hvalid).1 hcompletes)

theorem accepted_completes_iff_infinite :
    (∀ object ∈ supportedObjects infiniteFloats 100 infiniteFile,
      Eolymp.Completes infiniteFloats [] [] ⟨⟨3, le_rfl, [], [], []⟩, 1000, false⟩ object.1
        object.2) ↔
    ∀ object ∈ supportedObjects infiniteFloats 100 infiniteFile,
      Eolymp.Scannable infiniteFloats object.1 object.2 :=
  accepted_completes_iff accepts_infiniteFile

end Verification

end AimData
