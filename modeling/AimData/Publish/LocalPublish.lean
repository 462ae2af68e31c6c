/-
  Local publishes of a directory dataset: the progress record of the dataset, the
  manifests frozen for its versions, and the publish calls that work on them.

  A step is one transaction on the record, or one answered call to the
  marketplace.  The record says which version and manifest it counts for, but a
  checkpoint only says how far it has come, so that it counts for whatever version
  the record is of by then.
-/
import AimData.Lib.Run
import AimData.Preview.Publication
import AimData.Signing.Preimage

namespace AimData

namespace Publish

/-! ## Manifests -/

/-- A row of a manifest. -/
structure Member where
  index : ℕ
  relativePath : String
  sizeBytes : ℕ
  sha256 : String
  detectedType : String
  role : String
  isSample : Bool
  deriving DecidableEq

def Member.json (m : Member) : Json :=
  .obj [("index", .int m.index), ("relative_path", .str m.relativePath),
    ("size_bytes", .int m.sizeBytes), ("sha256", .str m.sha256),
    ("detected_type", .str m.detectedType), ("role", .str m.role), ("is_sample", .bool m.isSample)]

/-- `manifest_hash` of `build_manifest`, for rows that it accepts. -/
def manifestHash (members : List Member) : String :=
  hex (sha256 (Utf8.encode (sortedJson (.arr (members.map Member.json))).dumps)).1

def dataMemberCount (members : List Member) : ℕ := members.countP fun m => m.role = "data"

def sampleMemberCount (members : List Member) : ℕ := members.countP Member.isSample

structure Settings where
  publishMemberChunk : ℕ
  sampleMaxFiles : ℕ
  sampleMaxFileBytes : ℕ
  sampleMaxTotalBytes : ℕ
  one_le_chunk : 1 ≤ publishMemberChunk

/-- The receiver takes at most 1000 members in a request. -/
def Settings.chunkSize (settings : Settings) : ℕ := min settings.publishMemberChunk 1000

/-- `validate_sample_members` -/
def validateSampleMembers (settings : Settings) (members : List Member) :
    Except String (List Member) :=
  let samples := members.filter Member.isSample
  if samples.any fun m => m.role ≠ "data" then .error "is_sample requires data"
  else if samples.any fun m => m.sizeBytes > settings.sampleMaxFileBytes then
    .error "SAMPLE_MAX_FILE_BYTES"
  else if samples.length > settings.sampleMaxFiles then .error "SAMPLE_MAX_FILES"
  else if (samples.map Member.sizeBytes).sum > settings.sampleMaxTotalBytes then
    .error "SAMPLE_MAX_TOTAL_BYTES"
  else .ok samples

/-! ## What is stored -/

def pendingMembers : String := "pending_members"

/-- The statuses at which the uploads stop. -/
def stopStatuses : List String := ["active", "quarantined", "superseded"]

/-- `metadata["local_publish"]` -/
structure Progress where
  versionId : String
  manifestHash : String
  versionLabel : String
  status : String
  offset : ℕ
  acceptedSampleIndices : List ℕ
  deriving DecidableEq

/-- A row of `published_manifests` -/
structure PublishedManifest where
  rootPath : String
  members : List Member
  registrationToPublishedIndex : List (String × ℕ)
  deriving DecidableEq

/-- A member as the directory registers it. -/
structure DirectoryMember where
  index : ℕ
  missing : Bool
  member : Member
  deriving DecidableEq

/-- What a call works with. -/
structure Local where
  rootPath : String
  members : List Member
  offset : ℕ
  acceptedSampleIndices : List ℕ
  registrationToPublishedIndex : List (String × ℕ)
  retainedVersionId : Option String
  versionLabel : String
  deriving DecidableEq

def Local.manifestHash (l : Local) : String := Publish.manifestHash l.members

/-- The pending publish of the record, with the manifest frozen for it. -/
def resumable (progress : Option Progress)
    (retained : String × String → Option PublishedManifest) :
    Option (Progress × PublishedManifest) := do
  let p ← progress
  let r ← retained (p.versionId, p.manifestHash)
  if p.status = pendingMembers then some (p, r) else none

/-- The current directory, in the order of its registration. -/
def freshLocal (rootPath : String) (versionLabel : Option String)
    (directory : List DirectoryMember) : Except String Local :=
  if directory.any DirectoryMember.missing then
    .error "missing dataset member; re-register before publish"
  else
    let members := directory.zipIdx.map fun (row, position) =>
      { row.member with index := position }
    .ok {
      rootPath := rootPath
      members := members
      offset := 0
      acceptedSampleIndices := []
      registrationToPublishedIndex := directory.zipIdx.map fun (row, position) =>
        (toString row.index, position)
      retainedVersionId := none
      versionLabel := versionLabel.getD
        ("manifest-" ++ String.ofList ((Publish.manifestHash members).toList.take 32)) }

/-- The frozen manifest of a pending publish, and how far that has come. -/
def retainedLocal (p : Progress) (r : PublishedManifest) : Local where
  rootPath := r.rootPath
  members := r.members
  offset := p.offset
  acceptedSampleIndices := p.acceptedSampleIndices
  registrationToPublishedIndex := r.registrationToPublishedIndex
  retainedVersionId := some p.versionId
  versionLabel := p.versionLabel

def Local.check (settings : Settings) (l : Local) : Except String Unit := do
  if (dataMemberCount l.members : ℤ) - sampleMemberCount l.members < 1 then
    throw "paid_set_required: data_member_count - sample_member_count must be >= 1"
  let _ ← validateSampleMembers settings l.members

/-- `_local_publish_snapshot` of a directory dataset -/
def localPublishSnapshot (settings : Settings) (progress : Option Progress)
    (retained : String × String → Option PublishedManifest) (rootPath : String)
    (versionLabel : Option String) (directory : List DirectoryMember) : Except String Local := do
  let l ← match resumable progress retained with
    | some (p, r) => .ok (retainedLocal p r)
    | none => freshLocal rootPath versionLabel directory
  l.check settings
  return l

/-! ## Calls -/

/-- Where `publish_via_signed_proxy` stands: a status that an answer leaves out is
    `none`; `last` is that of the last upload. -/
inductive PublishPc where
  | publishing (attempt : ℕ)
  | recording (versionId : String) (status : Option String) (listingId : String)
  | chunks (versionId : String) (offset : ℕ) (last : Option String)
  | chunkCheckpoint (versionId : String) (offset : ℕ) (answer : Option String)
  | samples (versionId : String) (remaining : List Member) (last : Option String)
  | sampleCheckpoint (versionId : String) (index : ℕ) (remaining : List Member)
    (answer : Option String)
  | finishing (versionId : String) (status : Option String)
  deriving DecidableEq

structure PublishCall where
  snapshot : Local
  pc : PublishPc
  deriving DecidableEq

/-- A chunk that the marketplace has acknowledged for a version: `start ≤ p < stop` of
    the members of a manifest. -/
structure ChunkAck where
  versionId : String
  members : List Member
  start : ℕ
  stop : ℕ
  deriving DecidableEq

structure SampleAck where
  versionId : String
  members : List Member
  index : ℕ
  deriving DecidableEq

/-- The record of the dataset, the frozen manifests, the calls under way, and what the
    marketplace has acknowledged: chunks, samples, and versions of which it has answered
    that they no longer wait for members. -/
structure World where
  progress : Option Progress
  listingId : Option String
  retained : String × String → Option PublishedManifest
  calls : ℕ → Option PublishCall
  chunkAcks : List ChunkAck
  sampleAcks : List SampleAck
  settled : List (String × List Member)

namespace World

def start : World := ⟨none, none, fun _ => none, fun _ => none, [], [], []⟩

variable (w : World)

def put (i : ℕ) (o : Option PublishCall) : World :=
  { w with calls := Function.update w.calls i o }

/-- An answer about a version, with a status or without. -/
def answered (versionId : String) (members : List Member) (status : Option String) : World :=
  { w with
    settled := if ∃ s ∈ status, s ≠ pendingMembers then (versionId, members) :: w.settled
      else w.settled }

/-- `_record_local_publish`; `none` for `published_manifest_conflict`. -/
def recordLocalPublish (l : Local) (listingId versionId status : String) : Option World :=
  let key := (versionId, l.manifestHash)
  if ∃ r ∈ w.retained key, r.rootPath ≠ l.rootPath ∨ r.members ≠ l.members then none
  else some { w with
    retained := if w.retained key = none then
        Function.update w.retained key
          (some ⟨l.rootPath, l.members, l.registrationToPublishedIndex⟩)
      else w.retained
    progress := some ⟨versionId, l.manifestHash, l.versionLabel, status, l.offset,
      l.acceptedSampleIndices⟩
    listingId := some listingId }

/-- `_local_progress` -/
def localProgress (offset : ℕ) (status : String) (sampleIndex : Option ℕ) : Option World :=
  w.progress.map fun p => { w with
    progress := some { p with
      offset := offset
      status := status
      acceptedSampleIndices := match sampleIndex with
        | none => p.acceptedSampleIndices
        | some index => (index :: p.acceptedSampleIndices).dedup.insertionSort (· ≤ ·) } }

end World

theorem World.put_calls {w : World} {i j : ℕ} {o : Option PublishCall} {call : PublishCall} :
    (w.put i o).calls j = some call ↔
      (j = i ∧ o = some call) ∨ (j ≠ i ∧ w.calls j = some call) := by
  by_cases h : j = i
  · simp [World.put, h]
  · simp [World.put, h]

/-- What a call goes on with once it knows its version. -/
def Local.forVersion (l : Local) (versionId : String) : Local :=
  if l.retainedVersionId = some versionId then l
  else { l with offset := 0, acceptedSampleIndices := [] }

/-- After the publish answer: uploads only while the version waits for members. -/
def afterRecord (l : Local) (versionId : String) (status : Option String) : PublishPc :=
  if status = some pendingMembers then .chunks versionId l.offset none
  else .finishing versionId status

/-- After an upload: on to the samples while the version waits for members. -/
def afterChunks (l : Local) (versionId : String) (last : Option String) : PublishPc :=
  if last.getD pendingMembers = pendingMembers then
    .samples versionId (l.members.filter Member.isSample) none
  else .finishing versionId last

def stops (answer : Option String) : Bool := answer.any (· ∈ stopStatuses)

inductive Event where
  | begin (i : ℕ)
  | step (i : ℕ)
  | fail (i : ℕ)
  deriving DecidableEq

section

variable (settings : Settings)

/-- A step of a call: the world after it, and the call if it goes on. -/
inductive CallStep : World → PublishCall → World → Option PublishCall → Prop
  | unassigned {w : World} {l : Local} {attempt : ℕ} :
    attempt < 2 → CallStep w ⟨l, .publishing attempt⟩ w (some ⟨l, .publishing (attempt + 1)⟩)
  | answered {w : World} {l : Local} {attempt : ℕ} {versionId listingId : String}
    {status : Option String} :
    CallStep w ⟨l, .publishing attempt⟩ (w.answered versionId l.members status)
      (some ⟨l, .recording versionId status listingId⟩)
  | record {w w' : World} {l : Local} {versionId listingId : String} {status : Option String} :
    w.recordLocalPublish (l.forVersion versionId) listingId versionId
      (status.getD pendingMembers) = some w' →
    CallStep w ⟨l, .recording versionId status listingId⟩ w'
      (some ⟨l.forVersion versionId, afterRecord (l.forVersion versionId) versionId status⟩)
  | conflict {w : World} {l : Local} {versionId listingId : String} {status : Option String} :
    w.recordLocalPublish (l.forVersion versionId) listingId versionId
      (status.getD pendingMembers) = none →
    CallStep w ⟨l, .recording versionId status listingId⟩ w none
  | chunk {w : World} {l : Local} {versionId : String} {offset : ℕ} {last answer : Option String} :
    offset < l.members.length →
    CallStep w ⟨l, .chunks versionId offset last⟩
      { w.answered versionId l.members answer with
        chunkAcks := ⟨versionId, l.members, offset,
          offset + ((l.members.drop offset).take settings.chunkSize).length⟩ :: w.chunkAcks }
      (some ⟨l, .chunkCheckpoint versionId offset answer⟩)
  | chunksDone {w : World} {l : Local} {versionId : String} {offset : ℕ} {last : Option String} :
    l.members.length ≤ offset →
    CallStep w ⟨l, .chunks versionId offset last⟩ w (some ⟨l, afterChunks l versionId last⟩)
  | chunkCheckpoint {w w' : World} {l : Local} {versionId : String} {offset : ℕ}
    {answer : Option String} :
    w.localProgress (offset + ((l.members.drop offset).take settings.chunkSize).length)
      (answer.getD pendingMembers) none = some w' →
    CallStep w ⟨l, .chunkCheckpoint versionId offset answer⟩ w'
      (some ⟨l, if stops answer then .finishing versionId answer
        else .chunks versionId (offset + settings.chunkSize) answer⟩)
  | skip {w : World} {l : Local} {versionId : String} {m : Member} {remaining : List Member}
    {last : Option String} :
    m.index ∈ l.acceptedSampleIndices →
    CallStep w ⟨l, .samples versionId (m :: remaining) last⟩ w
      (some ⟨l, .samples versionId remaining last⟩)
  | sample {w : World} {l : Local} {versionId : String} {m : Member} {remaining : List Member}
    {last answer : Option String} :
    m.index ∉ l.acceptedSampleIndices →
    CallStep w ⟨l, .samples versionId (m :: remaining) last⟩
      { w.answered versionId l.members answer with
        sampleAcks := ⟨versionId, l.members, m.index⟩ :: w.sampleAcks }
      (some ⟨l, .sampleCheckpoint versionId m.index remaining answer⟩)
  | sampleCheckpoint {w w' : World} {l : Local} {versionId : String} {index : ℕ}
    {remaining : List Member} {answer : Option String} :
    w.localProgress l.members.length (answer.getD pendingMembers) (some index) = some w' →
    CallStep w ⟨l, .sampleCheckpoint versionId index remaining answer⟩ w'
      (some ⟨l, if stops answer then .finishing versionId answer
        else .samples versionId remaining answer⟩)
  | samplesDone {w : World} {l : Local} {versionId : String} {last : Option String} :
    CallStep w ⟨l, .samples versionId [] last⟩ w
      (some ⟨l, .finishing versionId (some (last.getD pendingMembers))⟩)
  | finish {w w' : World} {l : Local} {versionId : String} {status : Option String} :
    w.localProgress l.members.length (status.getD pendingMembers) none = some w' →
    CallStep w ⟨l, .finishing versionId status⟩ w' none

inductive WorldStep : World → Event → World → Prop
  | begin {w : World} {i : ℕ} {rootPath : String} {versionLabel : Option String}
    {directory : List DirectoryMember} {l : Local} :
    w.calls i = none →
    localPublishSnapshot settings w.progress w.retained rootPath versionLabel directory = .ok l →
    WorldStep w (.begin i) (w.put i (some ⟨l, .publishing 0⟩))
  | step {w w' : World} {i : ℕ} {c : PublishCall} {o : Option PublishCall} :
    w.calls i = some c → CallStep settings w c w' o → WorldStep w (.step i) (w'.put i o)
  | fail {w : World} {i : ℕ} {c : PublishCall} :
    -- a crash, or an error of the marketplace, of a file or of the database
    w.calls i = some c → WorldStep w (.fail i) (w.put i none)

end

/-! ## What an offset stands for -/

namespace World

variable (w : World)

/-- The member is acknowledged: a chunk with it was accepted for the version, or the
    marketplace answered that the version does not wait for members. -/
def Acked (versionId : String) (members : List Member) (position : ℕ) : Prop :=
  (∃ a ∈ w.chunkAcks, a.versionId = versionId ∧ a.members = members ∧
    a.start ≤ position ∧ position < a.stop) ∨ (versionId, members) ∈ w.settled

/-- All members below an offset are. -/
def Covered (versionId : String) (members : List Member) (offset : ℕ) : Prop :=
  ∀ position < offset, w.Acked versionId members position

def SamplesCovered (versionId : String) (members : List Member) (indices : List ℕ) : Prop :=
  ∀ index ∈ indices, ⟨versionId, members, index⟩ ∈ w.sampleAcks

/-- A status that says more than that the version waits is an answer of the marketplace. -/
def Answered (versionId : String) (members : List Member) (status : Option String) : Prop :=
  ∀ s, status = some s → s ≠ pendingMembers → (versionId, members) ∈ w.settled

/-- The members are those frozen for the version. -/
def Frozen (versionId hash : String) (members : List Member) : Prop :=
  ∃ r, w.retained (versionId, hash) = some r ∧ r.members = members

end World

/-- **What a record of progress may say**: it counts members of the manifest frozen for
    its version, and only those that are acknowledged for that version. -/
def ProgressOk (w : World) (p : Progress) : Prop :=
  ∃ members, w.Frozen p.versionId p.manifestHash members ∧
    w.Covered p.versionId members p.offset ∧
    w.SamplesCovered p.versionId members p.acceptedSampleIndices

/-- What a call may count on for a version. -/
structure LocalOk (w : World) (l : Local) (versionId : String) : Prop where
  members : w.Covered versionId l.members l.offset
  samples : w.SamplesCovered versionId l.members l.acceptedSampleIndices

section

variable (settings : Settings)

/-- What a call knows where it stands. -/
def PcOk (w : World) (l : Local) : PublishPc → Prop
  | .publishing _ => True
  | .recording versionId status _ => w.Answered versionId l.members status
  | .chunks versionId offset last =>
    w.Covered versionId l.members (min offset l.members.length) ∧
      w.Answered versionId l.members last
  | .chunkCheckpoint versionId offset answer =>
    offset ≤ l.members.length ∧
      w.Covered versionId l.members (min (offset + settings.chunkSize) l.members.length) ∧
      w.Answered versionId l.members answer
  | .samples versionId _ last =>
    w.Covered versionId l.members l.members.length ∧ w.Answered versionId l.members last
  | .sampleCheckpoint versionId index _ answer =>
    w.Covered versionId l.members l.members.length ∧ w.Answered versionId l.members answer ∧
      (⟨versionId, l.members, index⟩ : SampleAck) ∈ w.sampleAcks
  | .finishing versionId _ => w.Covered versionId l.members l.members.length

/-- The version that a call has recorded. -/
def PublishPc.recorded : PublishPc → Option String
  | .publishing _ | .recording .. => none
  | .chunks versionId .. | .chunkCheckpoint versionId .. | .samples versionId ..
  | .sampleCheckpoint versionId .. | .finishing versionId _ => some versionId

structure CallOk (w : World) (c : PublishCall) : Prop where
  retained : ∀ versionId, c.snapshot.retainedVersionId = some versionId →
    LocalOk w c.snapshot versionId
  frozen : ∀ versionId, c.pc.recorded = some versionId →
    w.Frozen versionId c.snapshot.manifestHash c.snapshot.members
  pc : PcOk settings w c.snapshot c.pc

/-- What the marketplace has acknowledged is of manifests frozen for the version. -/
structure AcksOk (w : World) : Prop where
  chunks : ∀ a ∈ w.chunkAcks, w.Frozen a.versionId (manifestHash a.members) a.members
  samples : ∀ a ∈ w.sampleAcks, w.Frozen a.versionId (manifestHash a.members) a.members

structure PublishInv (w : World) : Prop where
  progress : ∀ p, w.progress = some p → ProgressOk w p
  acks : AcksOk w
  calls : ∀ i c, w.calls i = some c → CallOk settings w c

end

/-! ## What is acknowledged stays so -/

structure Grows (w w' : World) : Prop where
  chunkAcks : ∀ a ∈ w.chunkAcks, a ∈ w'.chunkAcks
  sampleAcks : ∀ a ∈ w.sampleAcks, a ∈ w'.sampleAcks
  settled : ∀ v ∈ w.settled, v ∈ w'.settled
  retained : ∀ key r, w.retained key = some r → w'.retained key = some r

namespace Grows

variable {w w' : World}

protected theorem refl (w : World) : Grows w w :=
  ⟨fun _ h => h, fun _ h => h, fun _ h => h, fun _ _ h => h⟩

theorem covered (h : Grows w w') {versionId : String} {members : List Member} {offset : ℕ}
    (hc : w.Covered versionId members offset) : w'.Covered versionId members offset := by
  intro position hlt
  rcases hc position hlt with ⟨a, ha, hrest⟩ | hsettled
  · exact Or.inl ⟨a, h.chunkAcks a ha, hrest⟩
  · exact Or.inr (h.settled _ hsettled)

theorem samplesCovered (h : Grows w w') {versionId : String} {members : List Member}
    {indices : List ℕ} (hc : w.SamplesCovered versionId members indices) :
    w'.SamplesCovered versionId members indices :=
  fun index hindex => h.sampleAcks _ (hc index hindex)

theorem answered (h : Grows w w') {versionId : String} {members : List Member}
    {status : Option String} (ha : w.Answered versionId members status) :
    w'.Answered versionId members status :=
  fun s hs hne => h.settled _ (ha s hs hne)

theorem frozen (h : Grows w w') {versionId hash : String} {members : List Member}
    (hf : w.Frozen versionId hash members) : w'.Frozen versionId hash members := by
  obtain ⟨r, hr, hmembers⟩ := hf
  exact ⟨r, h.retained _ r hr, hmembers⟩

theorem progressOk (h : Grows w w') {p : Progress} (hp : ProgressOk w p) : ProgressOk w' p := by
  obtain ⟨members, hfrozen, hcovered, hsamples⟩ := hp
  exact ⟨members, h.frozen hfrozen, h.covered hcovered, h.samplesCovered hsamples⟩

theorem localOk (h : Grows w w') {l : Local} {versionId : String} (hl : LocalOk w l versionId) :
    LocalOk w' l versionId :=
  ⟨h.covered hl.members, h.samplesCovered hl.samples⟩

theorem pcOk (h : Grows w w') {settings : Settings} {l : Local} {pc : PublishPc}
    (hpc : PcOk settings w l pc) : PcOk settings w' l pc := by
  cases pc with
  | publishing => trivial
  | recording => exact h.answered hpc
  | chunks => exact ⟨h.covered hpc.1, h.answered hpc.2⟩
  | chunkCheckpoint => exact ⟨hpc.1, h.covered hpc.2.1, h.answered hpc.2.2⟩
  | samples => exact ⟨h.covered hpc.1, h.answered hpc.2⟩
  | sampleCheckpoint => exact ⟨h.covered hpc.1, h.answered hpc.2.1, h.sampleAcks _ hpc.2.2⟩
  | finishing => exact h.covered hpc

theorem callOk (h : Grows w w') {settings : Settings} {c : PublishCall}
    (hc : CallOk settings w c) : CallOk settings w' c :=
  ⟨fun v hv => h.localOk (hc.retained v hv), fun v hv => h.frozen (hc.frozen v hv),
    h.pcOk hc.pc⟩

/-- The acknowledgements stay of frozen manifests when none is added. -/
theorem acksOk (h : Grows w w') (hchunks : w'.chunkAcks = w.chunkAcks)
    (hsamples : w'.sampleAcks = w.sampleAcks) (ha : AcksOk w) : AcksOk w' := by
  constructor
  · intro a hmem
    exact h.frozen (ha.chunks a (hchunks ▸ hmem))
  · intro a hmem
    exact h.frozen (ha.samples a (hsamples ▸ hmem))

end Grows

/-! ## One step -/

theorem grows_answered (w : World) (versionId : String) (members : List Member)
    (status : Option String) : Grows w (w.answered versionId members status) := by
  refine ⟨fun _ h => h, fun _ h => h, ?_, fun _ _ h => h⟩
  intro v hv
  rw [World.answered]
  simp only
  split_ifs
  · exact List.mem_cons_of_mem _ hv
  · exact hv

theorem answered_answered (w : World) (versionId : String) (members : List Member)
    (status : Option String) :
    (w.answered versionId members status).Answered versionId members status := by
  intro s hs hne
  rw [World.answered]
  simp only
  rw [if_pos ⟨s, hs, hne⟩]
  exact List.mem_cons_self

theorem covered_settled {w : World} {versionId : String} {members : List Member} (offset : ℕ)
    (h : (versionId, members) ∈ w.settled) : w.Covered versionId members offset :=
  fun _ _ => Or.inr h

/-- A chunk extends what is covered. -/
theorem covered_chunk {w : World} {versionId : String} {members : List Member}
    {start stop : ℕ} (h : w.Covered versionId members start)
    (hack : ⟨versionId, members, start, stop⟩ ∈ w.chunkAcks) :
    w.Covered versionId members stop := by
  intro position hlt
  by_cases hstart : position < start
  · exact h position hstart
  · exact Or.inl ⟨_, hack, rfl, rfl, not_lt.1 hstart, hlt⟩

theorem chunk_stop (size : ℕ) (members : List Member) {offset : ℕ}
    (h : offset ≤ members.length) :
    offset + ((members.drop offset).take size).length = min (offset + size) members.length := by
  rw [List.length_take, List.length_drop]
  omega

theorem forVersion_ok {w : World} {l : Local} (versionId : String)
    (h : ∀ v, l.retainedVersionId = some v → LocalOk w l v) :
    LocalOk w (l.forVersion versionId) versionId ∧
      ∀ v, (l.forVersion versionId).retainedVersionId = some v →
        LocalOk w (l.forVersion versionId) v := by
  by_cases hv : l.retainedVersionId = some versionId
  · rw [Local.forVersion, if_pos hv]
    exact ⟨h versionId hv, h⟩
  · have hfresh : ∀ v, LocalOk w { l with offset := 0, acceptedSampleIndices := [] } v :=
      fun v => ⟨fun _ hlt => absurd hlt (Nat.not_lt_zero _), fun _ h => absurd h List.not_mem_nil⟩
    rw [Local.forVersion, if_neg hv]
    exact ⟨hfresh versionId, fun v _ => hfresh v⟩

@[simp] theorem forVersion_members (l : Local) (versionId : String) :
    (l.forVersion versionId).members = l.members := by
  rw [Local.forVersion]
  split_ifs <;> rfl

/-- The version that the next transaction of a call counts for. -/
def PublishPc.counting : PublishPc → Option String
  | .chunkCheckpoint versionId _ _ | .sampleCheckpoint versionId _ _ _
  | .finishing versionId _ => some versionId
  | _ => none

/-- A checkpoint finds the record still of the version and manifest of its call, and
    the marketplace's publish answer says what status the version has. -/
structure CountsForOwn (w : World) (c : PublishCall) : Prop where
  record : ∀ versionId, c.pc.counting = some versionId → ∀ p, w.progress = some p →
    p.versionId = versionId ∧ p.manifestHash = c.snapshot.manifestHash
  status : ∀ versionId status listingId, c.pc = .recording versionId status listingId →
    status ≠ none

/-- A checkpoint changes only how far the record is, and what it has of samples. -/
theorem localProgress_some {w w' : World} {offset : ℕ} {status : String}
    {sampleIndex : Option ℕ} (h : w.localProgress offset status sampleIndex = some w') :
    ∃ p p', w.progress = some p ∧ w' = { w with progress := some p' } ∧
      p'.versionId = p.versionId ∧ p'.manifestHash = p.manifestHash ∧ p'.offset = offset ∧
      ∀ index ∈ p'.acceptedSampleIndices, index ∈ p.acceptedSampleIndices ∨
        sampleIndex = some index := by
  rw [World.localProgress] at h
  cases hp : w.progress with
  | none =>
    rw [hp] at h
    cases h
  | some p =>
    rw [hp] at h
    cases h
    refine ⟨p, _, rfl, rfl, rfl, rfl, rfl, ?_⟩
    intro index hindex
    cases sampleIndex with
    | none => exact Or.inl hindex
    | some index' =>
      rw [List.mem_insertionSort, List.mem_dedup] at hindex
      rcases List.mem_cons.1 hindex with rfl | hindex
      · exact Or.inr rfl
      · exact Or.inl hindex

/-- What a step may change: the calls aside, all that is known stays known. -/
structure Keeps (w w' : World) : Prop where
  grows : Grows w w'
  calls : w'.calls = w.calls
  progress : ∀ p, w'.progress = some p → ProgressOk w' p
  acks : AcksOk w'

/-- **A checkpoint** that finds its own record. -/
theorem localProgress_ok {w w' : World} {l : Local} {versionId status : String} {offset : ℕ}
    {sampleIndex : Option ℕ} (h : w.localProgress offset status sampleIndex = some w')
    (hprogress : ∀ p, w.progress = some p → ProgressOk w p) (hacks : AcksOk w)
    (hown : ∀ p, w.progress = some p → p.versionId = versionId ∧ p.manifestHash = l.manifestHash)
    (hfrozen : w.Frozen versionId l.manifestHash l.members)
    (hcovered : w.Covered versionId l.members offset)
    (hsample : ∀ index, sampleIndex = some index →
      ⟨versionId, l.members, index⟩ ∈ w.sampleAcks) : Keeps w w' := by
  obtain ⟨p, p', hp, rfl, hversion, hhash, hoffset, hsamples⟩ := localProgress_some h
  obtain ⟨hpv, hph⟩ := hown p hp
  obtain ⟨r, hr, hmembers⟩ := hfrozen
  obtain ⟨members, ⟨r', hr', hmembers'⟩, -, hold⟩ := hprogress p hp
  rw [hpv, hph, hr] at hr'
  cases hr'
  have hgrows : Grows w { w with progress := some p' } :=
    ⟨fun _ h => h, fun _ h => h, fun _ h => h, fun _ _ h => h⟩
  refine ⟨hgrows, rfl, ?_, hgrows.acksOk rfl rfl hacks⟩
  rintro q ⟨⟩
  rw [ProgressOk, hversion, hhash, hpv, hph, hoffset]
  refine ⟨l.members, ⟨r, hr, hmembers⟩, hcovered, ?_⟩
  intro index hindex
  rcases hsamples index hindex with hindex | hindex
  · rw [hpv, ← hmembers', hmembers] at hold
    exact hold index hindex
  · exact hsample index hindex

/-- **The record of a publish**, with the manifest frozen for it. -/
theorem recordLocalPublish_ok {w w' : World} {l : Local} {listingId versionId status : String}
    (h : w.recordLocalPublish l listingId versionId status = some w') (hacks : AcksOk w)
    (hl : LocalOk w l versionId) :
    Keeps w w' ∧ w'.Frozen versionId l.manifestHash l.members := by
  unfold World.recordLocalPublish at h
  by_cases hconflict : ∃ r ∈ w.retained (versionId, l.manifestHash),
      r.rootPath ≠ l.rootPath ∨ r.members ≠ l.members
  · rw [if_pos hconflict] at h
    cases h
  rw [if_neg hconflict] at h
  have hgrows : Grows w w' ∧ w'.Frozen versionId l.manifestHash l.members := by
    cases h
    by_cases hnew : w.retained (versionId, l.manifestHash) = none
    · simp only [if_pos hnew]
      refine ⟨⟨fun _ h => h, fun _ h => h, fun _ h => h, ?_⟩, _, Function.update_self .., rfl⟩
      intro key r hr
      by_cases hkey : key = (versionId, l.manifestHash)
      · rw [hkey, hnew] at hr
        cases hr
      · exact (Function.update_of_ne hkey ..).trans hr
    · simp only [if_neg hnew]
      obtain ⟨r, hr⟩ := Option.ne_none_iff_exists'.1 hnew
      have hmembers : r.members = l.members := by
        by_contra hne
        exact hconflict ⟨r, hr, Or.inr hne⟩
      exact ⟨⟨fun _ h => h, fun _ h => h, fun _ h => h, fun _ _ h => h⟩, r, hr, hmembers⟩
  obtain ⟨hgrows, hfrozen⟩ := hgrows
  cases h
  refine ⟨⟨hgrows, rfl, ?_, hgrows.acksOk rfl rfl hacks⟩, hfrozen⟩
  rintro p ⟨⟩
  exact ⟨l.members, hfrozen, hgrows.covered hl.members, hgrows.samplesCovered hl.samples⟩

theorem stops_ne_pending {answer : Option String} (h : stops answer = true) :
    ∃ s, answer = some s ∧ s ≠ pendingMembers := by
  cases answer with
  | none => cases h
  | some s =>
    refine ⟨s, rfl, ?_⟩
    rintro rfl
    exact absurd h (by decide)

section

variable {settings : Settings}

/-- A step that leaves the world as it is. -/
theorem Keeps.same {w : World} (hw : PublishInv settings w) : Keeps w w :=
  ⟨.refl w, rfl, hw.progress, hw.acks⟩

/-- A step that answers a call. -/
theorem Keeps.answered {w : World} (hw : PublishInv settings w) (versionId : String)
    (members : List Member) (status : Option String) :
    Keeps w (w.answered versionId members status) := by
  have hgrows := grows_answered w versionId members status
  exact ⟨hgrows, rfl, fun p hp => hgrows.progressOk (hw.progress p hp),
    hgrows.acksOk rfl rfl hw.acks⟩

/-- **A step of a call** keeps what the record, the manifests and the call say true. -/
theorem CallStep.ok {w w' : World} {c : PublishCall} {o : Option PublishCall}
    (h : CallStep settings w c w' o) (hw : PublishInv settings w) (hc : CallOk settings w c)
    (hown : CountsForOwn w c) : Keeps w w' ∧ ∀ c', o = some c' → CallOk settings w' c' := by
  obtain ⟨hretained, hfrozen, hpc⟩ := hc
  cases h with
  | unassigned =>
    refine ⟨.same hw, ?_⟩
    rintro c' ⟨⟩
    exact ⟨hretained, hfrozen, trivial⟩
  | @answered l attempt versionId listingId status =>
    have hkeeps := Keeps.answered hw versionId l.members status
    refine ⟨hkeeps, ?_⟩
    rintro c' ⟨⟩
    exact ⟨fun v hv => hkeeps.grows.localOk (hretained v hv), fun v hv => (by cases hv),
      answered_answered w versionId l.members status⟩
  | @record w' l versionId listingId status hrecord =>
    obtain ⟨hl, hretained'⟩ := forVersion_ok versionId hretained
    obtain ⟨hkeeps, hnow⟩ := recordLocalPublish_ok hrecord hw.acks hl
    refine ⟨hkeeps, ?_⟩
    rintro c' ⟨⟩
    refine ⟨fun v hv => hkeeps.grows.localOk (hretained' v hv), ?_, ?_⟩
    · intro v hv
      have hv' : v = versionId := by
        rw [afterRecord] at hv
        split_ifs at hv
        all_goals exact (Option.some.inj hv).symm
      rw [hv']
      exact hnow
    · show PcOk settings w' (l.forVersion versionId)
        (afterRecord (l.forVersion versionId) versionId status)
      rw [afterRecord]
      by_cases hpending : status = some pendingMembers
      · rw [if_pos hpending]
        refine ⟨?_, fun s hs => by cases hs⟩
        intro position hlt
        exact hkeeps.grows.covered hl.members position (hlt.trans_le (min_le_left _ _))
      · rw [if_neg hpending]
        obtain ⟨s, hs⟩ := Option.ne_none_iff_exists'.1 (hown.status versionId status listingId rfl)
        have hanswered : w.Answered versionId l.members status := hpc
        have hsettled := hanswered s hs fun hs' => hpending (hs' ▸ hs)
        show w'.Covered versionId (l.forVersion versionId).members _
        rw [forVersion_members]
        exact covered_settled _ (hkeeps.grows.settled _ hsettled)
  | conflict =>
    refine ⟨.same hw, ?_⟩
    rintro c' ⟨⟩
  | @chunk l versionId offset last answer hlt =>
    have hkeeps := Keeps.answered hw versionId l.members answer
    have hnow : w.Frozen versionId l.manifestHash l.members := hfrozen versionId rfl
    have hgrows : Grows w { w.answered versionId l.members answer with
        chunkAcks := ⟨versionId, l.members, offset,
          offset + ((l.members.drop offset).take settings.chunkSize).length⟩ :: w.chunkAcks } :=
      ⟨fun _ h => List.mem_cons_of_mem _ h, hkeeps.grows.sampleAcks, hkeeps.grows.settled,
        hkeeps.grows.retained⟩
    refine ⟨⟨hgrows, rfl, fun p hp => hgrows.progressOk (hw.progress p hp), ?_,
      hkeeps.acks.samples⟩, ?_⟩
    · intro a ha
      rcases List.mem_cons.1 ha with rfl | ha
      · exact hgrows.frozen hnow
      · exact hgrows.frozen (hw.acks.chunks a ha)
    · rintro c' ⟨⟩
      refine ⟨fun v hv => hgrows.localOk (hretained v hv),
        fun v hv => hgrows.frozen (hfrozen v hv), hlt.le, ?_,
        answered_answered w versionId l.members answer⟩
      have hcovered : w.Covered versionId l.members (min offset l.members.length) := hpc.1
      rw [min_eq_left hlt.le] at hcovered
      rw [← chunk_stop settings.chunkSize l.members hlt.le]
      exact covered_chunk (hgrows.covered hcovered) List.mem_cons_self
  | @chunksDone l versionId offset last hle =>
    have hcovered : w.Covered versionId l.members (min offset l.members.length) := hpc.1
    rw [min_eq_right hle] at hcovered
    refine ⟨.same hw, ?_⟩
    rintro c' ⟨⟩
    refine ⟨hretained, ?_, ?_⟩
    · intro v hv
      refine hfrozen v ?_
      rw [afterChunks] at hv
      split_ifs at hv
      all_goals exact hv
    · show PcOk settings w l (afterChunks l versionId last)
      rw [afterChunks]
      split_ifs
      · exact ⟨hcovered, fun s hs => by cases hs⟩
      · exact hcovered
  | @chunkCheckpoint w' l versionId offset answer hcheckpoint =>
    obtain ⟨hle, hcovered, hanswered⟩ : offset ≤ l.members.length ∧
      w.Covered versionId l.members (min (offset + settings.chunkSize) l.members.length) ∧
      w.Answered versionId l.members answer := hpc
    rw [chunk_stop settings.chunkSize l.members hle] at hcheckpoint
    have hkeeps := localProgress_ok hcheckpoint hw.progress hw.acks (hown.record versionId rfl)
      (hfrozen versionId rfl) hcovered (fun index h => by cases h)
    refine ⟨hkeeps, ?_⟩
    rintro c' ⟨⟩
    refine ⟨fun v hv => hkeeps.grows.localOk (hretained v hv), ?_, ?_⟩
    · intro v hv
      refine hkeeps.grows.frozen (hfrozen v ?_)
      dsimp only at hv
      split_ifs at hv
      all_goals exact hv
    · show PcOk settings w' l _
      by_cases hstop : stops answer = true
      · obtain ⟨s, hs, hne⟩ := stops_ne_pending hstop
        rw [if_pos hstop]
        exact covered_settled _ (hkeeps.grows.settled _ (hanswered s hs hne))
      · rw [if_neg hstop]
        exact ⟨hkeeps.grows.covered hcovered, hkeeps.grows.answered hanswered⟩
  | skip =>
    refine ⟨.same hw, ?_⟩
    rintro c' ⟨⟩
    exact ⟨hretained, hfrozen, hpc⟩
  | @sample l versionId m remaining last answer hnew =>
    have hkeeps := Keeps.answered hw versionId l.members answer
    have hnow : w.Frozen versionId l.manifestHash l.members := hfrozen versionId rfl
    have hgrows : Grows w { w.answered versionId l.members answer with
        sampleAcks := ⟨versionId, l.members, m.index⟩ :: w.sampleAcks } :=
      ⟨hkeeps.grows.chunkAcks, fun _ h => List.mem_cons_of_mem _ h, hkeeps.grows.settled,
        hkeeps.grows.retained⟩
    refine ⟨⟨hgrows, rfl, fun p hp => hgrows.progressOk (hw.progress p hp),
      hkeeps.acks.chunks, ?_⟩, ?_⟩
    · intro a ha
      rcases List.mem_cons.1 ha with rfl | ha
      · exact hgrows.frozen hnow
      · exact hgrows.frozen (hw.acks.samples a ha)
    · rintro c' ⟨⟩
      exact ⟨fun v hv => hgrows.localOk (hretained v hv),
        fun v hv => hgrows.frozen (hfrozen v hv), hgrows.covered hpc.1,
        answered_answered w versionId l.members answer, List.mem_cons_self⟩
  | @sampleCheckpoint w' l versionId index remaining answer hcheckpoint =>
    obtain ⟨hcovered, hanswered, hack⟩ : w.Covered versionId l.members l.members.length ∧
      w.Answered versionId l.members answer ∧
      (⟨versionId, l.members, index⟩ : SampleAck) ∈ w.sampleAcks := hpc
    have hkeeps := localProgress_ok hcheckpoint hw.progress hw.acks (hown.record versionId rfl)
      (hfrozen versionId rfl) hcovered (by rintro i ⟨⟩; exact hack)
    refine ⟨hkeeps, ?_⟩
    rintro c' ⟨⟩
    refine ⟨fun v hv => hkeeps.grows.localOk (hretained v hv), ?_, ?_⟩
    · intro v hv
      refine hkeeps.grows.frozen (hfrozen v ?_)
      dsimp only at hv
      split_ifs at hv
      all_goals exact hv
    · show PcOk settings w' l _
      split_ifs
      · exact hkeeps.grows.covered hcovered
      · exact ⟨hkeeps.grows.covered hcovered, hkeeps.grows.answered hanswered⟩
  | samplesDone =>
    refine ⟨.same hw, ?_⟩
    rintro c' ⟨⟩
    exact ⟨hretained, hfrozen, hpc.1⟩
  | @finish w' l versionId status hcheckpoint =>
    have hkeeps := localProgress_ok hcheckpoint hw.progress hw.acks (hown.record versionId rfl)
      (hfrozen versionId rfl) hpc (fun i h => by cases h)
    refine ⟨hkeeps, ?_⟩
    rintro c' ⟨⟩

end

/-! ## Runs -/

/-- What a call begins with: the directory as it is, or the pending publish of the
    record under its frozen manifest. -/
theorem localPublishSnapshot_ok {settings : Settings} {progress : Option Progress}
    {retained : String × String → Option PublishedManifest} {rootPath : String}
    {versionLabel : Option String} {directory : List DirectoryMember} {l : Local}
    (h : localPublishSnapshot settings progress retained rootPath versionLabel directory =
      .ok l) :
    (∃ p r, resumable progress retained = some (p, r) ∧ l = retainedLocal p r) ∨
      (resumable progress retained = none ∧ l.retainedVersionId = none) := by
  rw [localPublishSnapshot] at h
  rcases hres : resumable progress retained with _ | ⟨p, r⟩
  · right
    refine ⟨rfl, ?_⟩
    rw [hres] at h
    obtain ⟨l', hl', h⟩ := Except.bind_eq_ok.1 h
    obtain ⟨-, -, h⟩ := Except.bind_eq_ok.1 h
    cases h
    rw [freshLocal] at hl'
    split_ifs at hl'
    cases hl'
    rfl
  · left
    rw [hres] at h
    obtain ⟨l', hl', h⟩ := Except.bind_eq_ok.1 h
    obtain ⟨-, -, h⟩ := Except.bind_eq_ok.1 h
    cases h
    cases hl'
    exact ⟨p, r, rfl, rfl⟩

theorem resumable_some {progress : Option Progress}
    {retained : String × String → Option PublishedManifest} {p : Progress}
    {r : PublishedManifest} (h : resumable progress retained = some (p, r)) :
    progress = some p ∧ retained (p.versionId, p.manifestHash) = some r ∧
      p.status = pendingMembers := by
  rw [resumable] at h
  obtain ⟨p', hp, h⟩ := Option.bind_eq_some_iff.1 h
  obtain ⟨r', hr, h⟩ := Option.bind_eq_some_iff.1 h
  split_ifs at h with hs
  cases h
  exact ⟨hp, hr, hs⟩

section

variable {settings : Settings} {w w' : World}

/-- A call under way is put into the world. -/
theorem publishInv_put (hw : PublishInv settings w) {i : ℕ} {o : Option PublishCall}
    (ho : ∀ c, o = some c → CallOk settings w c) : PublishInv settings (w.put i o) := by
  have hgrows : Grows w (w.put i o) :=
    ⟨fun _ h => h, fun _ h => h, fun _ h => h, fun _ _ h => h⟩
  refine ⟨fun p hp => hgrows.progressOk (hw.progress p hp), hgrows.acksOk rfl rfl hw.acks, ?_⟩
  intro j c hj
  rcases World.put_calls.1 hj with ⟨-, hc⟩ | ⟨-, hc⟩
  · exact hgrows.callOk (ho c hc)
  · exact hgrows.callOk (hw.calls j c hc)

theorem retainedLocal_ok {p : Progress} {r : PublishedManifest} (hp : ProgressOk w p)
    (hr : w.retained (p.versionId, p.manifestHash) = some r) :
    LocalOk w (retainedLocal p r) p.versionId := by
  obtain ⟨members, ⟨r', hr', rfl⟩, hcovered, hsamples⟩ := hp
  rw [hr] at hr'
  cases hr'
  exact ⟨hcovered, hsamples⟩

variable (settings) in
/-- A step in which a checkpoint counts for its own version. -/
def OwnStep (w : World) (e : Event) (w' : World) : Prop :=
  WorldStep settings w e w' ∧ ∀ i c, e = .step i → w.calls i = some c → CountsForOwn w c

theorem publishInv_step {e : Event} (hw : PublishInv settings w) (h : OwnStep settings w e w') :
    PublishInv settings w' := by
  obtain ⟨hstep, hown⟩ := h
  cases hstep with
  | begin hfree hl =>
    refine publishInv_put hw ?_
    rintro c ⟨⟩
    refine ⟨?_, fun v hv => (by cases hv), trivial⟩
    intro v hv
    rcases localPublishSnapshot_ok hl with ⟨p, r, hres, rfl⟩ | ⟨-, hnone⟩
    · obtain ⟨hp, hr, -⟩ := resumable_some hres
      cases hv
      exact retainedLocal_ok (hw.progress p hp) hr
    · rw [hnone] at hv
      cases hv
  | @step w' i c o hc hcall =>
    obtain ⟨hkeeps, ho⟩ := hcall.ok hw (hw.calls i c hc) (hown i c rfl hc)
    refine publishInv_put ⟨hkeeps.progress, hkeeps.acks, ?_⟩ ho
    intro j d hj
    rw [hkeeps.calls] at hj
    exact hkeeps.grows.callOk (hw.calls j d hj)
  | fail => exact publishInv_put hw (fun c h => by cases h)

theorem publishInv_start (settings : Settings) : PublishInv settings World.start :=
  ⟨fun p h => (by cases h), ⟨fun a h => (by cases h), fun a h => (by cases h)⟩,
    fun i c h => (by cases h)⟩

/-- A call goes on with the members and the directory that it began with. -/
theorem CallStep.snapshot {c c' : PublishCall} (h : CallStep settings w c w' (some c')) :
    c'.snapshot.members = c.snapshot.members ∧ c'.snapshot.rootPath = c.snapshot.rootPath := by
  cases h
  case record =>
    rw [Local.forVersion]
    split_ifs
    · exact ⟨rfl, rfl⟩
    · exact ⟨rfl, rfl⟩
  all_goals exact ⟨rfl, rfl⟩

/-- While the record waits for members, a new call takes up the manifest frozen for it. -/
def RetryFrozen (settings : Settings) (w : World) : Prop :=
  ∀ p, w.progress = some p → p.status = pendingMembers →
    ∃ r, w.retained (p.versionId, p.manifestHash) = some r ∧
      ∀ i w', WorldStep settings w (.begin i) w' →
        w'.calls i = some ⟨retainedLocal p r, .publishing 0⟩

theorem retryFrozen_of_inv (hw : PublishInv settings w) : RetryFrozen settings w := by
  intro p hp hstatus
  obtain ⟨members, ⟨r, hr, -⟩, -⟩ := hw.progress p hp
  refine ⟨r, hr, ?_⟩
  intro i w' hstep
  cases hstep with
  | begin hfree hl =>
    have hres : resumable w.progress w.retained = some (p, r) := by
      rw [resumable, hp]
      simp [hr, hstatus]
    rcases localPublishSnapshot_ok hl with ⟨p', r', hres', rfl⟩ | ⟨hnone, -⟩
    · rw [hres] at hres'
      cases hres'
      exact World.put_calls.2 (Or.inl ⟨rfl, rfl⟩)
    · rw [hres] at hnone
      cases hnone

variable (settings) in
/-- **What the stored progress stands for**: the members below its offset and its samples
    are acknowledged for its version under the manifest frozen for that; a retry takes up
    that manifest; and a call sends what it began with. -/
structure CountsOwnVersion (w : World) : Prop where
  progress : ∀ p, w.progress = some p → ProgressOk w p
  acks : AcksOk w
  retry : RetryFrozen settings w
  goesOn : ∀ i c w' c', w.calls i = some c → CallStep settings w c w' (some c') →
    c'.snapshot.members = c.snapshot.members ∧ c'.snapshot.rootPath = c.snapshot.rootPath

end

/-! ### A checkpoint of another version -/

def chunkOfOne : Settings := ⟨1, 1, 100, 100, le_rfl⟩

def twoMembers : List Member :=
  [⟨0, "a.csv", 1, "", "csv", "data", false⟩, ⟨1, "b.csv", 1, "", "csv", "data", false⟩]

def twoMemberDirectory : List DirectoryMember :=
  twoMembers.map fun m => ⟨m.index, false, m⟩

def twoMemberLocal : Local :=
  ⟨"/data", twoMembers, 0, [], [("0", 0), ("1", 1)], none, "v"⟩

def twoMemberManifest : PublishedManifest :=
  ⟨twoMemberLocal.rootPath, twoMembers, twoMemberLocal.registrationToPublishedIndex⟩

theorem twoMemberLocal_check : twoMemberLocal.check chunkOfOne = .ok () := by
  decide +kernel

theorem twoMemberSnapshot : localPublishSnapshot chunkOfOne none (fun _ => none) "/data"
    (some "v") twoMemberDirectory = .ok twoMemberLocal := by
  have hfresh : freshLocal "/data" (some "v") twoMemberDirectory = .ok twoMemberLocal := by
    rfl
  rw [localPublishSnapshot]
  simp only [show resumable none (fun _ => none) = none from rfl, hfresh, Except.ok_bind,
    twoMemberLocal_check, Except.pure_eq_ok]

theorem recordLocalPublish_new {w : World} {l : Local} {versionId : String}
    (h : w.retained (versionId, l.manifestHash) = none) (listingId status : String) :
    w.recordLocalPublish l listingId versionId status = some { w with
      retained := Function.update w.retained (versionId, l.manifestHash)
        (some ⟨l.rootPath, l.members, l.registrationToPublishedIndex⟩)
      progress := some ⟨versionId, l.manifestHash, l.versionLabel, status, l.offset,
        l.acceptedSampleIndices⟩
      listingId := some listingId } := by
  simp [World.recordLocalPublish, h]

theorem OwnStep.of_call {settings : Settings} {w w' : World} {i : ℕ} {c : PublishCall}
    {o : Option PublishCall} (hc : w.calls i = some c) (hstep : CallStep settings w c w' o)
    (hown : CountsForOwn w c) : OwnStep settings w (.step i) (w'.put i o) := by
  refine ⟨.step hc hstep, ?_⟩
  rintro j d ⟨⟩ hd
  rw [hc] at hd
  cases hd
  exact hown

/-- The first chunk of a new version is acknowledged. -/
theorem firstChunk : ∃ w, Run (OwnStep chunkOfOne) .start
      [.begin 0, .step 0, .step 0, .step 0] w ∧
    w.calls = Function.update (fun _ => none) 0
      (some ⟨twoMemberLocal, .chunkCheckpoint "V1" 0 (some pendingMembers)⟩) ∧
    w.progress = some ⟨"V1", twoMemberLocal.manifestHash, "v", pendingMembers, 0, []⟩ ∧
    w.retained = Function.update (fun _ => none) ("V1", twoMemberLocal.manifestHash)
      (some twoMemberManifest) ∧
    w.chunkAcks = [⟨"V1", twoMembers, 0, 1⟩] ∧ w.settled = [] := by
  refine ⟨_, .cons ⟨.begin rfl twoMemberSnapshot, fun _ _ h => by cases h⟩ <|
    .cons (.of_call rfl (@CallStep.answered _ _ _ _ "V1" "L" (some pendingMembers))
      ⟨fun _ h => (by cases h), fun _ _ _ h => (by cases h)⟩) <|
    .cons (.of_call rfl (.record (recordLocalPublish_new (by exact rfl) "L" _))
      ⟨fun _ h => (by cases h), fun _ _ _ h => (by cases h; simp)⟩) <|
    .cons (.of_call rfl (@CallStep.chunk _ _ _ _ _ _ (some pendingMembers) (by decide))
      ⟨fun _ h => (by cases h), fun _ _ _ h => (by cases h)⟩) .nil,
    ?_, ?_, ?_, ?_, ?_⟩
  · funext i
    by_cases hi : i = 0
    · subst hi
      rfl
    · simp [World.put, hi, World.start, World.answered]
  · rfl
  · rfl
  · rfl
  · rfl

end Publish

end AimData
