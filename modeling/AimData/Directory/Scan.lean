/-
  The scan of a directory, member by member.

  A member is read twice, first to see that no file is stale and then for its facts, and
  ends as scanned or as skipped for one reason (`scanMember`).  The lists of the result are
  sorted, so that its bytes are those of any order of the members.
-/
import AimData.Directory.Content
import AimData.Eolymp.ScanBytes

namespace AimData

namespace Directory

open Eolymp (Fact PreviewRow Reader ScanResult SignedSpec Skipped)

/-! ## Reading members -/

/-- A file that is opened below the root: what `fstat` says of it, what each `read` gives,
    and whether afterwards the file and the root are those they were. -/
structure OpenFile where
  regular : Bool
  size : ℕ
  chunks : List (Except Raised Bytes)
  unchanged : Bool

/-- A directory during a pass over its members. -/
structure Tree where
  rootStable : Bool
  openMember : String → Except Raised OpenFile

/-- A directory version as `resolve_source_artifact` builds it of a retained manifest; `root` is
    its path, in bytes. -/
structure Artifact where
  root : Bytes
  members : List Publish.Member
  dataMemberCount : ℕ
  totalDataBytes : ℕ
  paths_nodup : (members.map Publish.Member.relativePath).Nodup

def staleManifest : Raised := ⟨"ScanRefusedError", "stale directory manifest"⟩

def countMismatch : Raised := ⟨"ScanRefusedError", "directory member count mismatch"⟩

/-- The reads of a file, which may not give more bytes than a limit. -/
def readChunks (limit : ℕ) : Bytes → List (Except Raised Bytes) → Except Raised Bytes
  | payload, [] => .ok payload
  | payload, chunk :: chunks => do
    let payload := payload ++ (← chunk)
    S3.check (payload.length ≤ limit) staleManifest
    readChunks limit payload chunks

section
variable (scanMaxMemberBytes : ℕ) (tree : Tree)

/-- `_read_directory_member`; the bytes are used only where they are buffered. -/
def readDirectoryMember (buffer : Bool) (m : Publish.Member) : Except Raised Bytes := do
  S3.check (tree.rootStable = true) staleManifest
  let file ← tree.openMember m.relativePath
  S3.check (file.regular = true ∧ file.size = m.sizeBytes) staleManifest
  let payload ← readChunks (if buffer then min m.sizeBytes scanMaxMemberBytes else m.sizeBytes)
    [] file.chunks
  S3.check (file.unchanged = true ∧ payload.length = m.sizeBytes ∧
    AimData.hex (sha256 payload).1 = m.sha256) staleManifest
  return payload

/-- The members of a role `data`, in the order of a list. -/
def dataMembers (members : List Publish.Member) : List Publish.Member :=
  members.filter fun m => m.role = "data"

/-- `_directory_pre_read` -/
def directoryPreRead (artifact : Artifact) : Except Raised ℕ := do
  let members := dataMembers (artifact.members.insertionSort fun a b => a.index ≤ b.index)
  let _ ← (members.mapM (readDirectoryMember scanMaxMemberBytes tree false)).mapError fun e =>
    if e.type ∈ Eolymp.osErrors then staleManifest else e
  S3.check (members.length = artifact.dataMemberCount) countMismatch
  return members.length

end

/-! ## Scanning members -/

/-- What comes of a member. -/
inductive Outcome where
  | scanned (fact : Fact) (preview : List PreviewRow)
  | skipped (member : Skipped)
  deriving DecidableEq

def Outcome.fact? : Outcome → Option Fact
  | scanned fact _ => some fact
  | skipped _ => none

def Outcome.skipped? : Outcome → Option Skipped
  | scanned _ _ => none
  | skipped member => some member

def Outcome.preview : Outcome → List PreviewRow
  | scanned _ preview => preview
  | skipped _ => []

/-- The reason for which a member is skipped after an exception, of those that are caught. -/
def skipReason (e : Raised) : Except Raised String :=
  if e.type = "UnsupportedConnectorShape" then .ok "unsupported_type"
  else if e.type = "PermissionError" then .ok "permission_denied"
  else if e.type = "TimeoutError" then .ok "timeout"
  else if e.type ∈ Eolymp.osErrors ++ ["IncompleteCoverageError", "BudgetIncompatibleError"] then
    raise "ScanRefusedError" "directory member scan failed"
  else .error e

/-- `Counter`: the values in the order in which they come first, with how often they come. -/
def counter (l : List String) : List (String × ℕ) :=
  l.eraseDups.map fun value => (value, l.count value)

/-- `b"local_directory_object\0" + os.fsencode(os.path.realpath(artifact.root_path))` -/
def sourceBinding (root : Bytes) : Bytes := Utf8.encode "local_directory_object\x00".toList ++ root

def memberIdentity (m : Publish.Member) : String :=
  "member\x00" ++ m.relativePath ++ "\x00" ++ m.sha256

section
variable (reader : Reader) (scanMaxMemberBytes : ℕ) (tree : Tree) (commitmentKey : Bytes)
  (spec : SignedSpec)

/-- The identifier of a member that is transmitted. -/
def memberObjectId (root : Bytes) (m : Publish.Member) : String :=
  Eolymp.objectCommitment commitmentKey (sourceBinding root) (memberIdentity m)

/-- A member is not read for its facts. -/
def Unsupported (m : Publish.Member) : Prop :=
  m.detectedType = "unsupported" ∨ scanMaxMemberBytes < m.sizeBytes

instance (m : Publish.Member) : Decidable (Unsupported scanMaxMemberBytes m) :=
  inferInstanceAs (Decidable (_ ∨ _))

/-- The facts of a result of one object, under the identifier of a member. -/
def memberFacts (objectId : String) (result : ScanResult) : Except Raised Outcome :=
  match result.objects with
  | [fact] =>
    if result.coverage.objectsDiscovered = 1 then
      .ok (.scanned { fact with objectId := objectId }
        ((result.schemaPreview.getD []).map fun row => { row with objectId := objectId }))
    else raise "ScanRefusedError" "directory connector shape is invalid"
  | _ => raise "ScanRefusedError" "directory connector shape is invalid"

/-- A member that is read and is a single table. -/
def scanContent (root : Bytes) (m : Publish.Member) : Except Raised Outcome := do
  let payload ← readDirectoryMember scanMaxMemberBytes tree true m
  S3.check (reader.isZipfile payload = false) ⟨"UnsupportedConnectorShape", "container member"⟩
  let result ← Eolymp.scanBytes reader commitmentKey (sourceBinding root) spec m.relativePath
    payload
  memberFacts (memberObjectId commitmentKey root m) result

/-- A round of the loop of `_scan_directory`. -/
def scanMember (root : Bytes) (m : Publish.Member) : Except Raised Outcome :=
  let objectId := memberObjectId commitmentKey root m
  if Unsupported scanMaxMemberBytes m then .ok (.skipped ⟨objectId, "unsupported_type"⟩)
  else
    match scanContent reader scanMaxMemberBytes tree commitmentKey spec root m with
    | .ok outcome => .ok outcome
    | .error e => do return .skipped ⟨objectId, ← skipReason e⟩

/-- The result of the loop. -/
def directoryResult (observed : ℕ) (outcomes : List Outcome) : ScanResult :=
  let objects := (outcomes.filterMap Outcome.fact?).insertionSort fun a b => a.objectId ≤ b.objectId
  let skipped := (outcomes.filterMap Outcome.skipped?).insertionSort fun a b =>
    a.objectId ≤ b.objectId
  let preview := (outcomes.flatMap Outcome.preview).insertionSort fun a b => a.objectId ≤ b.objectId
  { coverage := ⟨observed, objects.length, counter (skipped.map Skipped.reason), skipped⟩
    objects := objects
    schemaPreview := if spec.previewRequested then some preview else none }

/-- `_scan_directory`; `preTree` is the directory during the first pass. -/
def scanDirectory (preTree : Tree) (artifact : Artifact) : Except Raised (ScanResult × String) := do
  let observed ← directoryPreRead scanMaxMemberBytes preTree artifact
  let outcomes ← (dataMembers artifact.members).mapM
    (scanMember reader scanMaxMemberBytes tree commitmentKey spec artifact.root)
  let result := directoryResult spec observed outcomes
  S3.check (result.objects.length + result.coverage.skipped.length = observed) countMismatch
  let result ← Eolymp.withinBudget spec
    ⟨"ScanRefusedError", "complete artifact exceeds the signed inference budget"⟩ result
  return (result, ← directoryContentSha256 artifact.members)

end

/-! ## Counts of reasons -/

theorem nodup_eraseDups {α : Type} [DecidableEq α] : ∀ l : List α, l.eraseDups.Nodup
  | [] => List.nodup_nil
  | a :: l => by
    rw [List.eraseDups_cons, List.nodup_cons]
    exact ⟨by simp [List.mem_eraseDups], nodup_eraseDups _⟩
termination_by l => l.length
decreasing_by exact Nat.lt_succ_of_le (List.length_filter_le _ _)

/-- Every skipped member is counted for its reason. -/
theorem counter_sum (l : List String) : ((counter l).map Prod.snd).sum = l.length := by
  have hperm : l.eraseDups.Perm l.dedup := by
    rw [List.perm_ext_iff_of_nodup (nodup_eraseDups l) l.nodup_dedup]
    simp
  rw [counter, List.map_map, ← List.sum_map_count_dedup_eq_length]
  exact (hperm.map _).sum_eq

/-! ## Members are accounted for -/

/-- Values of different keys are sorted to one list. -/
theorem insertionSort_eq_of_perm {α : Type} {key : α → String} {l l' : List α} (h : l'.Perm l)
    (hkeys : (l.map key).Nodup) :
    l'.insertionSort (fun a b => key a ≤ key b) = l.insertionSort fun a b => key a ≤ key b := by
  have hperm : (l'.insertionSort fun a b => key a ≤ key b).Perm
      (l.insertionSort fun a b => key a ≤ key b) :=
    ((List.perm_insertionSort _ _).trans h).trans (List.perm_insertionSort _ _).symm
  refine hperm.eq_of_pairwise ?_ (List.pairwise_insertionSort _ _) (List.pairwise_insertionSort _ _)
  intro a b ha hb hle hle'
  exact List.inj_on_of_nodup_map hkeys (h.subset ((List.perm_insertionSort _ _).subset ha))
    ((List.perm_insertionSort _ _).subset hb) (String.le_antisymm hle hle')

/-- An outcome is of an identifier: its fact, its rows and its reason are. -/
structure Outcome.Of (objectId : String) (outcome : Outcome) : Prop where
  fact : ∀ fact ∈ outcome.fact?, fact.objectId = objectId
  skipped : ∀ member ∈ outcome.skipped?, member.objectId = objectId
  preview : outcome.preview.map PreviewRow.objectId = [objectId] ∨ outcome.preview = []

section
variable {reader : Reader} {scanMaxMemberBytes : ℕ} {tree preTree : Tree} {commitmentKey : Bytes}
  {spec : SignedSpec}

/-- A result of the connector has a row for each object, if it has rows. -/
theorem schemaPreview_length {binding : Bytes} {name : String} {payload : Bytes}
    {result : ScanResult}
    (h : Eolymp.scanBytes reader commitmentKey binding spec name payload = .ok result) :
    ∀ rows ∈ result.schemaPreview, rows.length = result.objects.length := by
  rw [Eolymp.scanBytes] at h
  obtain ⟨sources, -, h⟩ := Except.bind_eq_ok.1 h
  obtain ⟨facts, -, h⟩ := Except.bind_eq_ok.1 h
  rw [Eolymp.withinBudget] at h
  obtain ⟨bytes, -, h⟩ := Except.bind_eq_ok.1 h
  obtain ⟨⟨⟩, -, h⟩ := Except.bind_eq_ok.1 h
  cases h
  intro rows hrows
  rw [Eolymp.scanResult] at hrows ⊢
  split_ifs at hrows with hpreview
  · cases hrows
    simp
  · cases hrows

theorem memberFacts_of {objectId : String} {result : ScanResult} {outcome : Outcome}
    (hrows : ∀ rows ∈ result.schemaPreview, rows.length = result.objects.length)
    (h : memberFacts objectId result = .ok outcome) : outcome.Of objectId := by
  rw [memberFacts] at h
  split at h
  · next fact hobjects =>
    split_ifs at h with hdiscovered
    · cases h
      refine ⟨fun _ hfact => by cases hfact; rfl, fun _ hskipped => (by cases hskipped), ?_⟩
      cases hpreview : result.schemaPreview with
      | none => exact Or.inr rfl
      | some rows =>
        have hlength := hrows rows hpreview
        rw [hobjects] at hlength
        obtain ⟨row, rfl⟩ := List.length_eq_one_iff.1 hlength
        exact Or.inl rfl
    · cases h
  · cases h

theorem memberFacts_scanned {objectId : String} {result : ScanResult} {outcome : Outcome}
    (h : memberFacts objectId result = .ok outcome) : outcome.skipped? = none := by
  rw [memberFacts] at h
  split at h
  · split_ifs at h with hdiscovered
    · cases h
      rfl
    · cases h
  · cases h

theorem memberFacts_error {objectId : String} {result : ScanResult} {e : Raised}
    (h : memberFacts objectId result = .error e) :
    e = ⟨"ScanRefusedError", "directory connector shape is invalid"⟩ := by
  rw [memberFacts] at h
  split at h
  · split_ifs at h with hdiscovered
    · cases h
      rfl
  · cases h
    rfl

/-- **A member is scanned or skipped under its identifier.** -/
theorem scanMember_of {root : Bytes} {m : Publish.Member} {outcome : Outcome}
    (h : scanMember reader scanMaxMemberBytes tree commitmentKey spec root m = .ok outcome) :
    outcome.Of (memberObjectId commitmentKey root m) := by
  have hskipped : ∀ reason, (Outcome.skipped ⟨memberObjectId commitmentKey root m, reason⟩).Of
      (memberObjectId commitmentKey root m) := fun reason =>
    ⟨fun _ hfact => (by cases hfact), fun _ hmember => by cases hmember; rfl, Or.inr rfl⟩
  rw [scanMember] at h
  split_ifs at h with hunsupported
  · cases h
    exact hskipped _
  · split at h
    · next hcontent =>
      cases h
      rw [scanContent] at hcontent
      obtain ⟨payload, -, hcontent⟩ := Except.bind_eq_ok.1 hcontent
      obtain ⟨⟨⟩, -, hcontent⟩ := Except.bind_eq_ok.1 hcontent
      obtain ⟨result, hresult, hcontent⟩ := Except.bind_eq_ok.1 hcontent
      exact memberFacts_of (schemaPreview_length hresult) hcontent
    · obtain ⟨reason, -, h⟩ := Except.bind_eq_ok.1 h
      cases h
      exact hskipped reason

/-- The facts and the reasons of a run are those of the members, each once. -/
theorem outcomes_accounted {root : Bytes} {members : List Publish.Member} {outcomes : List Outcome}
    (h : members.mapM (scanMember reader scanMaxMemberBytes tree commitmentKey spec root) =
      .ok outcomes) :
    ((outcomes.filterMap Outcome.fact?).map Fact.objectId ++
      (outcomes.filterMap Outcome.skipped?).map Skipped.objectId).Perm
      (members.map (memberObjectId commitmentKey root)) := by
  induction members generalizing outcomes with
  | nil =>
    cases h
    exact List.Perm.refl _
  | cons m members ih =>
    obtain ⟨outcome, rest, hm, hrest, rfl⟩ := List.mapM_cons_ok.1 h
    have hof := scanMember_of hm
    cases outcome with
    | scanned fact preview =>
      have hfact : fact.objectId = _ := hof.fact fact rfl
      simp only [List.filterMap_cons, Outcome.fact?, Outcome.skipped?, List.map_cons, hfact,
        List.cons_append]
      exact (ih hrest).cons _
    | skipped member =>
      have hmember : member.objectId = _ := hof.skipped member rfl
      simp only [List.filterMap_cons, Outcome.fact?, Outcome.skipped?, List.map_cons, hmember]
      exact List.perm_middle.trans ((ih hrest).cons _)

/-- A run has at most a row for each member. -/
theorem outcomes_preview {root : Bytes} {members : List Publish.Member} {outcomes : List Outcome}
    (h : members.mapM (scanMember reader scanMaxMemberBytes tree commitmentKey spec root) =
      .ok outcomes) :
    List.Sublist ((outcomes.flatMap Outcome.preview).map PreviewRow.objectId)
      (members.map (memberObjectId commitmentKey root)) := by
  induction members generalizing outcomes with
  | nil =>
    cases h
    exact List.Sublist.refl _
  | cons m members ih =>
    obtain ⟨outcome, rest, hm, hrest, rfl⟩ := List.mapM_cons_ok.1 h
    rw [List.flatMap_cons, List.map_append, List.map_cons]
    rcases (scanMember_of hm).preview with hrow | hnone
    · rw [hrow]
      exact (ih hrest).cons_cons _
    · rw [hnone]
      exact (ih hrest).cons _

/-- **Every data member is accounted for once**: under its identifier it is among the objects
    or, with a reason that is counted, among those skipped. -/
structure Accounts (commitmentKey : Bytes) (artifact : Artifact) (result : ScanResult) : Prop where
  once : (result.objects.map Fact.objectId ++ result.coverage.skipped.map Skipped.objectId).Perm
    ((dataMembers artifact.members).map (memberObjectId commitmentKey artifact.root))
  discovered : result.coverage.objectsDiscovered =
    result.coverage.objectsScanned + result.coverage.skipped.length
  scanned : result.coverage.objectsScanned = result.objects.length
  reasons : (result.coverage.objectsSkippedByReason.map Prod.snd).sum =
    result.coverage.skipped.length

/-! ## Orders of members -/

/-- The members in another order. -/
def Artifact.reorder (artifact : Artifact) (members : List Publish.Member)
    (h : members.Perm artifact.members) : Artifact :=
  { artifact with
    members := members
    paths_nodup := (h.map _).nodup_iff.2 artifact.paths_nodup }

/-- Two data members have one identifier: their keyed digests collide. -/
def Collision (commitmentKey : Bytes) (artifact : Artifact) : Prop :=
  ∃ m ∈ dataMembers artifact.members, ∃ m' ∈ dataMembers artifact.members, m ≠ m' ∧
    memberObjectId commitmentKey artifact.root m = memberObjectId commitmentKey artifact.root m'

theorem objectIds_nodup {artifact : Artifact} (h : ¬ Collision commitmentKey artifact) :
    ((dataMembers artifact.members).map (memberObjectId commitmentKey artifact.root)).Nodup := by
  have hmembers : (dataMembers artifact.members).Nodup :=
    (List.Nodup.of_map _ artifact.paths_nodup).filter _
  refine hmembers.map_on fun m hm m' hm' hid => ?_
  by_contra hne
  exact h ⟨m, hm, m', hm', hne, hid⟩

theorem directoryPreRead_perm {artifact : Artifact} {members : List Publish.Member}
    (h : members.Perm artifact.members) {observed : ℕ}
    (hread : directoryPreRead scanMaxMemberBytes preTree artifact = .ok observed) :
    directoryPreRead scanMaxMemberBytes preTree (artifact.reorder members h) = .ok observed := by
  have hsorted : (dataMembers (artifact.members.insertionSort fun a b => a.index ≤ b.index)).Perm
      (dataMembers (members.insertionSort fun a b => a.index ≤ b.index)) :=
    (((List.perm_insertionSort _ _).trans h.symm).trans (List.perm_insertionSort _ _).symm).filter _
  rw [directoryPreRead] at hread ⊢
  obtain ⟨payloads, hpayloads, hread⟩ := Except.bind_eq_ok.1 hread
  obtain ⟨⟨⟩, hcount, hread⟩ := Except.bind_eq_ok.1 hread
  cases hread
  have hmapM : (dataMembers (artifact.members.insertionSort fun a b => a.index ≤ b.index)).mapM
      (readDirectoryMember scanMaxMemberBytes preTree false) = .ok payloads :=
    Except.mapError_ok.1 hpayloads
  obtain ⟨payloads', hpayloads', -⟩ := List.mapM_perm hsorted hmapM
  rw [Artifact.reorder]
  simp only
  rw [hpayloads', ← hsorted.length_eq]
  simp only [Except.mapError, Except.ok_bind, hcount]
  rfl

/-- Without a collision, a run of any order has the same result. -/
theorem directoryResult_perm {observed : ℕ} {outcomes outcomes' : List Outcome} {ids : List String}
    (hids : ids.Nodup) (hperm : outcomes'.Perm outcomes)
    (haccounted : ((outcomes.filterMap Outcome.fact?).map Fact.objectId ++
      (outcomes.filterMap Outcome.skipped?).map Skipped.objectId).Perm ids)
    (hpreview : List.Sublist ((outcomes.flatMap Outcome.preview).map PreviewRow.objectId) ids) :
    directoryResult spec observed outcomes' = directoryResult spec observed outcomes := by
  have hnodup := haccounted.nodup_iff.2 hids
  rw [List.nodup_append] at hnodup
  rw [directoryResult, directoryResult,
    insertionSort_eq_of_perm (hperm.filterMap _) hnodup.1,
    insertionSort_eq_of_perm (hperm.filterMap _) hnodup.2.1,
    insertionSort_eq_of_perm (hperm.flatMap_right _) (hpreview.nodup hids)]

theorem scanDirectory_ok {artifact : Artifact} {result : ScanResult} {digest : String} :
    scanDirectory reader scanMaxMemberBytes tree commitmentKey spec preTree artifact =
        .ok (result, digest) ↔
      ∃ observed outcomes, directoryPreRead scanMaxMemberBytes preTree artifact = .ok observed ∧
        (dataMembers artifact.members).mapM
          (scanMember reader scanMaxMemberBytes tree commitmentKey spec artifact.root) =
            .ok outcomes ∧
        result = directoryResult spec observed outcomes ∧
        result.objects.length + result.coverage.skipped.length = observed ∧
        Eolymp.withinBudget spec
          ⟨"ScanRefusedError", "complete artifact exceeds the signed inference budget"⟩ result =
            .ok result ∧
        directoryContentSha256 artifact.members = .ok digest := by
  rw [scanDirectory]
  constructor
  · intro h
    obtain ⟨observed, hobserved, h⟩ := Except.bind_eq_ok.1 h
    obtain ⟨outcomes, houtcomes, h⟩ := Except.bind_eq_ok.1 h
    obtain ⟨⟨⟩, hcount, h⟩ := Except.bind_eq_ok.1 h
    obtain ⟨within, hwithin, h⟩ := Except.bind_eq_ok.1 h
    obtain ⟨content, hcontent, h⟩ := Except.bind_eq_ok.1 h
    cases h
    have hsame : result = directoryResult spec observed outcomes := by
      rw [Eolymp.withinBudget] at hwithin
      obtain ⟨bytes, -, hwithin⟩ := Except.bind_eq_ok.1 hwithin
      obtain ⟨⟨⟩, -, hwithin⟩ := Except.bind_eq_ok.1 hwithin
      exact (Except.ok.inj hwithin).symm
    subst hsame
    exact ⟨observed, outcomes, hobserved, houtcomes, rfl, S3.check_ok.1 hcount, hwithin, hcontent⟩
  · rintro ⟨observed, outcomes, hobserved, houtcomes, rfl, hcount, hwithin, hcontent⟩
    rw [hobserved, Except.ok_bind, houtcomes, Except.ok_bind]
    simp only [(S3.check_ok (u := ())).2 hcount, Except.ok_bind, hwithin, hcontent]
    rfl

/-- **A scan of a directory accounts for every data member once, in whatever order.**  The
    members in any order have the same content digest, and the scan succeeds with the same
    bytes and digest, unless two of the members have one identifier. -/
theorem scanDirectory_accounts {artifact : Artifact} {result : ScanResult} {digest : String}
    (h : scanDirectory reader scanMaxMemberBytes tree commitmentKey spec preTree artifact =
      .ok (result, digest)) :
    Accounts commitmentKey artifact result ∧
      ∀ (members : List Publish.Member) (hperm : members.Perm artifact.members),
        directoryContentSha256 members = .ok digest ∧
        (Collision commitmentKey artifact ∨ ∃ result',
          scanDirectory reader scanMaxMemberBytes tree commitmentKey spec preTree
            (artifact.reorder members hperm) = .ok (result', digest) ∧
          actionJsonBytes result'.json = actionJsonBytes result.json) := by
  obtain ⟨observed, outcomes, hobserved, houtcomes, rfl, hcount, hwithin, hcontent⟩ :=
    scanDirectory_ok.1 h
  have haccounted := outcomes_accounted houtcomes
  refine ⟨⟨?_, hcount.symm, rfl, ?_⟩, fun members hperm => ?_⟩
  · have hsort : ∀ {α : Type} (l : List α) (key : α → String),
        ((l.insertionSort fun a b => key a ≤ key b).map key).Perm (l.map key) := fun l key =>
      (List.perm_insertionSort _ l).map key
    exact ((hsort _ Fact.objectId).append (hsort _ Skipped.objectId)).trans haccounted
  · rw [directoryResult]
    simp only
    rw [counter_sum, List.length_map]
  · have hdigest : directoryContentSha256 members = .ok digest := by
      rw [← hcontent, directoryContentSha256, directoryContentSha256, contentPreimage,
        contentPreimage, contentMembers_perm hperm artifact.paths_nodup]
    refine ⟨hdigest, ?_⟩
    by_cases hcollision : Collision commitmentKey artifact
    · exact Or.inl hcollision
    · right
      have hdata : (dataMembers artifact.members).Perm (dataMembers members) :=
        (hperm.filter _).symm
      obtain ⟨outcomes', houtcomes', hsame⟩ := List.mapM_perm hdata houtcomes
      have hresult : directoryResult spec observed outcomes' =
          directoryResult spec observed outcomes :=
        directoryResult_perm (objectIds_nodup hcollision) hsame haccounted
          (outcomes_preview houtcomes)
      exact ⟨directoryResult spec observed outcomes,
        scanDirectory_ok.2 ⟨observed, outcomes', directoryPreRead_perm hperm hobserved, houtcomes',
          hresult.symm, hcount, hwithin, hdigest⟩, rfl⟩

end

/-- A data member whose file is empty and of no supported type. -/
def emptyRow (index : ℕ) (path : String) : Publish.Member :=
  ⟨index, path, 0, AimData.hex (sha256 []).1, "unsupported", "data", false⟩

def emptyRows : Artifact where
  root := [47]
  members := [emptyRow 0 "b.bin", emptyRow 1 "a.bin"]
  dataMemberCount := 2
  totalDataBytes := 0
  paths_nodup := by decide

/-- A directory of empty files. -/
def emptyTree : Tree := ⟨true, fun _ => .ok ⟨true, 0, [], true⟩⟩

/-- Arrow that reads no table. -/
def noTables : Reader where
  lower := id
  isZipfile _ := false
  infolist _ := raise "BadZipFile" "File is not a zip file"
  read _ _ := raise "BadZipFile" "File is not a zip file"
  table _ _ := none
  estimate _ := 0
  double _ := 0

def emptyRowsOutcomes : List Outcome :=
  emptyRows.members.map fun m => .skipped ⟨memberObjectId [] [47] m, "unsupported_type"⟩

def emptyRowsResult : ScanResult :=
  directoryResult ⟨⟨3, Eolymp.ScanSpec.least, [], [], []⟩, 0, false⟩ 2 emptyRowsOutcomes

/-- A budget of exactly the bytes of the result. -/
def emptyRowsSpec : SignedSpec :=
  ⟨⟨3, Eolymp.ScanSpec.least, [], [], []⟩,
    (Utf8.encode (sortedJson emptyRowsResult.json).dumps).length, false⟩

theorem read_emptyRow (buffer : Bool) (index : ℕ) (path : String) :
    readDirectoryMember 1 emptyTree buffer (emptyRow index path) = .ok [] := by
  simp [readDirectoryMember, emptyTree, emptyRow, readChunks, S3.check]

theorem content_emptyRows : ∃ digest, directoryContentSha256 emptyRows.members = .ok digest := by
  have hmember : ∀ index, ∀ path ∈ ["b.bin", "a.bin"],
      ∃ b, memberBytes (emptyRow index path) = .ok b := by
    intro index path hpath
    have hlength : (Utf8.encode path.toList).length = 5 := by
      revert path
      decide
    simp [memberBytes, emptyRow, toBytes, digestBytes, InstallKey.fromHex_hex, hlength]
  have hparts : ∃ parts, (contentMembers emptyRows.members).mapM memberBytes = .ok parts := by
    refine List.mapM_ok_iff.2 fun m hm => ?_
    have hm := (List.mem_filter.1 ((List.perm_insertionSort _ _).subset hm)).1
    rw [emptyRows, List.mem_pair] at hm
    rcases hm with rfl | rfl
    · exact hmember 0 "b.bin" (by simp)
    · exact hmember 1 "a.bin" (by simp)
  obtain ⟨parts, hparts⟩ := hparts
  rw [directoryContentSha256, contentPreimage, hparts]
  exact ⟨_, rfl⟩

theorem preRead_emptyRows : directoryPreRead 1 emptyTree emptyRows = .ok 2 := by
  have hmembers : dataMembers (emptyRows.members.insertionSort fun a b => a.index ≤ b.index) =
      [emptyRow 0 "b.bin", emptyRow 1 "a.bin"] := rfl
  rw [directoryPreRead, hmembers]
  simp [read_emptyRow, Except.mapError, S3.check, emptyRows]

theorem outcomes_emptyRows (spec : SignedSpec) : (dataMembers emptyRows.members).mapM
    (scanMember noTables 1 emptyTree [] spec [47]) = .ok emptyRowsOutcomes := by
  have hmember : ∀ index path, scanMember noTables 1 emptyTree [] spec [47] (emptyRow index path) =
      .ok (.skipped ⟨memberObjectId [] [47] (emptyRow index path), "unsupported_type"⟩) := by
    intro index path
    have hunsupported : Unsupported 1 (emptyRow index path) := Or.inl rfl
    rw [scanMember, if_pos hunsupported]
  rw [show dataMembers emptyRows.members = [emptyRow 0 "b.bin", emptyRow 1 "a.bin"] from rfl]
  simp only [List.mapM_cons, List.mapM_nil, hmember]
  rfl

theorem scanDirectory_emptyRows : ∃ digest,
    scanDirectory noTables 1 emptyTree [] emptyRowsSpec emptyTree emptyRows =
      .ok (emptyRowsResult, digest) := by
  obtain ⟨digest, hdigest⟩ := content_emptyRows
  have hcount : emptyRowsResult.objects.length + emptyRowsResult.coverage.skipped.length = 2 := by
    simp only [emptyRowsResult, directoryResult, List.length_insertionSort]
    rfl
  have hpreview : ∀ spec spec' : SignedSpec, spec.previewRequested = spec'.previewRequested →
      directoryResult spec 2 emptyRowsOutcomes = directoryResult spec' 2 emptyRowsOutcomes := by
    intro spec spec' h
    rw [directoryResult, directoryResult, h]
  exact ⟨digest, scanDirectory_ok.2 ⟨2, emptyRowsOutcomes, preRead_emptyRows,
    outcomes_emptyRows emptyRowsSpec, hpreview _ _ rfl, hcount,
    Eolymp.withinBudget_ownLength emptyRowsResult, hdigest⟩⟩

theorem scanDirectory_accounts_two : ∃ digest,
    scanDirectory noTables 1 emptyTree [] emptyRowsSpec emptyTree emptyRows =
      .ok (emptyRowsResult, digest) ∧
    Accounts [] emptyRows emptyRowsResult ∧
    ∀ (members : List Publish.Member) (hperm : members.Perm emptyRows.members),
      directoryContentSha256 members = .ok digest ∧
      (Collision [] emptyRows ∨ ∃ result',
        scanDirectory noTables 1 emptyTree [] emptyRowsSpec emptyTree
          (emptyRows.reorder members hperm) = .ok (result', digest) ∧
        actionJsonBytes result'.json = actionJsonBytes emptyRowsResult.json) := by
  obtain ⟨digest, h⟩ := scanDirectory_emptyRows
  exact ⟨digest, h, scanDirectory_accounts h⟩

end Directory

end AimData
