/-
  The operations that load a dataset record and save it later, and what a save changes.

  A save writes the whole row from the copy of its call, however old that is, and
  inserts the row where there is none.  It changes only what its call has set when
  nobody has changed the rest of the row since it was loaded, and the row is there.
-/
import AimData.Dataset.Record
import AimData.Lib.Run
import AimData.Lib.Table

namespace AimData

namespace Dataset

structure Settings where
  uploadDirName : String
  multiFileDatasetsEnabled : Bool

/-! ## What the operations set -/

def commitmentMetadataKey : String := "published_dataset_commitment"

def reattestationMetadataKey : String := "dataset_reattestation"

/-- `state.update(changes)` of a dictionary -/
def updateFields (fields changes : List (String × Json)) : List (String × Json) :=
  changes.foldl (Table.upsert Prod.fst) fields

/-- `dict(existing) if isinstance(existing, dict) else {}` -/
def asFields : Option Json → List (String × Json)
  | some (.obj fields) => fields
  | _ => []

/-- What is stored of a published commitment. -/
structure PublishedCommitment where
  commitmentId : String
  listingId : String
  sellerDatasetVersion : String
  schemaDigest : String
  datasetMerkleRoot : String
  leafCount : ℕ
  sampleHash : Json
  rightsBasisDigest : String
  parsing : Json
  schemaDescriptors : Json
  signedAt : String

def PublishedCommitment.json (c : PublishedCommitment) : Json :=
  .obj [("commitment_id", .str c.commitmentId), ("listing_id", .str c.listingId),
    ("seller_dataset_version", .str c.sellerDatasetVersion),
    ("schema_digest", .str c.schemaDigest), ("dataset_merkle_root", .str c.datasetMerkleRoot),
    ("leaf_count", .int c.leafCount), ("sample_hash", c.sampleHash),
    ("rights_basis_digest", .str c.rightsBasisDigest), ("parsing", c.parsing),
    ("schema_descriptors", c.schemaDescriptors)]

/-- The request of a disclosure decision. -/
structure DisclosureBody where
  sourcePublishOperationId : Json
  approvedFieldsHash : String
  sampleDecision : String
  aiTrainingNotificationText : Json
  license : Json
  replay : Json

namespace Record

variable (record : Record)

def setKey (key : String) (value : Json) : Record :=
  { record with metadata := Function.update record.metadata key (some value) }

def persistReattestationState (changes : List (String × Json)) : Record :=
  record.setKey reattestationMetadataKey
    (.obj (updateFields (asFields (record.metadata reattestationMetadataKey)) changes))

def persistPublishedCommitment (c : PublishedCommitment) : Record :=
  let record' := record.setKey commitmentMetadataKey c.json
  match (asFields (record.metadata commitmentMetadataKey)).lookup "commitment_id" with
  | some (.str commitmentId) => if commitmentId = c.commitmentId then record' else fresh record'
  | _ => fresh record'
where
  fresh (record : Record) : Record :=
    record.setKey reattestationMetadataKey (.obj [("status", .str "complete"),
      ("last_confirmed_at", .str c.signedAt), ("last_attempt_at", .str c.signedAt),
      ("last_error", .null), ("retryable", .bool false), ("progress", .null)])

/-- `_persist_disclosure_decision`, after the publish progress is read again -/
def persistDisclosureDecision (status listingId now : String) (body : DisclosureBody)
    (disclosureVersion lastError : Json) : Record :=
  let createdAt := ((asFields (record.metadata "disclosure_decision")).lookup "created_at").filter
    fun value => truthy (some value)
  let decision := [("status", .str status),
    ("source_publish_operation_id", body.sourcePublishOperationId),
    ("listing_id", .str listingId), ("disclosure_version", disclosureVersion),
    ("approved_fields_hash", .str body.approvedFieldsHash),
    ("sample_decision", .str body.sampleDecision), ("approved_sample_hash", .null),
    ("approved_sample_row_count", .int 0), ("approved_sample_columns", .arr []),
    ("ai_training_notification_text", body.aiTrainingNotificationText),
    ("license", body.license), ("created_at", createdAt.getD (.str now)),
    ("updated_at", .str now), ("last_error", lastError)]
  { record.setKey "disclosure_decision" (.obj (decision ++
      if status = "snapshot_pending" then [("approved_payload_replay", body.replay)] else []))
    with listingId := some listingId }

end Record

/-- What an operation does to its copy in front of a save, and the parts that it sets. -/
inductive Edit (record : Record) : Record → List Part → Prop
  | reattestation (changes : List (String × Json)) :
    Edit record (record.persistReattestationState changes) [.metadata reattestationMetadataKey]
  | commitment (c : PublishedCommitment) :
    Edit record (record.persistPublishedCommitment c)
      [.metadata commitmentMetadataKey, .metadata reattestationMetadataKey]
  | disclosure (status listingId now : String) (body : DisclosureBody)
    (disclosureVersion lastError : Json) :
    Edit record
      (record.persistDisclosureDecision status listingId now body disclosureVersion lastError)
      [.metadata "disclosure_decision", .listingId]
  | publish (listingId : String) :
    Edit record { record with listingId := some listingId } [.listingId]
  | process {record' : Record} {parts : List Part} :
    -- extraction, batches and privacy scans, each with the parts that it sets
    record'.id = record.id →
    (∀ now size row, AgreeOff parts (record'.overwrite now size row)
      (record.overwrite now size row)) → Edit record record' parts

/-- The operations that read and write a row in one transaction. -/
inductive Transaction where
  | recordLocalPublish (progress : Json) (listingId : String)
  | localProgress (offset : ℕ) (status : String) (acceptedSampleIndices : Option (List ℕ))
  | setStatus (status : DatasetStatus) (now : String)
  | saveProfile (profile : Json) (listing : Option Json) (now : String)

namespace Transaction

def setMetadata (row : Row) (key : String) (value : Json) : Row :=
  { row with metadata := Function.update row.metadata key (some value) }

def isRunning (profile : Json) : Bool :=
  match (asFields (some profile)).lookup "status" with
  | some (.str status) => status = "running"
  | _ => false

/-- The row after the transaction, where it does not fail. -/
def apply (row : Row) : Transaction → Option Row
  | .recordLocalPublish progress listingId =>
    some { setMetadata row "local_publish" progress with listingId := some listingId }
  | .localProgress offset status acceptedSampleIndices =>
    if truthy (row.metadata "local_publish") then
      some (setMetadata row "local_publish" (.obj (updateFields
        (asFields (row.metadata "local_publish"))
        ([("offset", .int offset), ("status", .str status)] ++
          (acceptedSampleIndices.map fun indices =>
            ("accepted_sample_indices", Json.arr (indices.map fun n => .int n))).toList))))
    else none
  | .setStatus status now => some { row with status := status.value, updatedAt := now }
  | .saveProfile profile listing now =>
    let row' := setMetadata row "directory_profile" profile
    let row'' := match listing with
      | some listing => setMetadata row' "listing_metadata" listing
      | none => row'
    some { row'' with
      status := if isRunning profile then "extracting" else "preview_ready"
      updatedAt := now }

def sets : Transaction → List Part
  | .recordLocalPublish .. => [.metadata "local_publish", .listingId]
  | .localProgress .. => [.metadata "local_publish"]
  | .setStatus .. => [.status, .updatedAt]
  | .saveProfile .. =>
    [.metadata "directory_profile", .metadata "listing_metadata", .status, .updatedAt]

end Transaction

/-! ## Runs -/

/-- An operation under way: its copy; the row that it has read, with the profile that
    was made of that; and what it has set. -/
structure Call where
  copy : Record
  base : Row
  profile : Option Json
  sets : List Part

structure World where
  rows : String → Option Row
  calls : ℕ → Option Call
  deleted : List String

namespace World

def start (rows : String → Option Row) : World := ⟨rows, fun _ => none, []⟩

variable (w : World)

def putRow (id : String) (row : Row) : World :=
  { w with rows := Function.update w.rows id (some row) }

def putCall (i : ℕ) (call : Option Call) : World :=
  { w with calls := Function.update w.calls i call }

/-- `_save_record` -/
def saveRecord (record : Record) (now : String) (size : Option ℕ) : World :=
  w.putRow record.id (match w.rows record.id with
    | some row => record.overwrite now size row
    | none => record.recordToDb now size)

end World

def notStarted : Json :=
  .obj [("status", .str "not_started"), ("reason", .str "Profiling has not started"),
    ("members", .obj [])]

/-- What `profile_on_read` may make of the stored profile: a run that is overdue becomes a
    timeout. -/
inductive ProfileOnRead : Option Json → Json → Prop
  | absent : ProfileOnRead none notStarted
  | kept {profile : Json} : ProfileOnRead (some profile) profile
  | stale {profile profile' : Json} : Transaction.isRunning profile = true →
    isTimeout profile' = true → ProfileOnRead (some profile) profile'

/-- The profile that a load of the row reads. -/
def ReadsProfile (settings : Settings) (row : Row) (profile : Option Json) : Prop :=
  if settings.multiFileDatasetsEnabled ∧ row.fileType = "directory" then
    ∃ p, profile = some p ∧ ProfileOnRead (row.metadata "directory_profile") p
  else profile = none

/-- The publish progress of the row goes into the copy, where there is any. -/
def Call.merge (call : Call) (row : Row) : Call :=
  match row.metadata "local_publish" with
  | some progress =>
    if truthy (some progress) then
      { call with
        copy := call.copy.setKey "local_publish" progress
        base := Transaction.setMetadata call.base "local_publish" progress }
    else call
  | none => call

inductive Event where
  | create (i : ℕ) (id : String)
  | begin (i : ℕ)
  | merge (i : ℕ)
  | save (i : ℕ)
  | finish (i : ℕ)
  | update (id : String) (transaction : Transaction)
  | delete (id : String)

inductive WorldStep (settings : Settings) : World → Event → World → Prop
  | create {w : World} {i : ℕ} {record : Record} {now : String} {size : Option ℕ} :
    w.rows record.id = none → record.id ∉ w.deleted → w.calls i = none →
    WorldStep settings w (.create i record.id)
      ((w.saveRecord record now size).putCall i
        (some ⟨record, record.recordToDb now size, none, savedAlways⟩))
  | begin {w : World} {i : ℕ} {id : String} {row : Row} {profile : Option Json} :
    w.rows id = some row → w.calls i = none → ReadsProfile settings row profile →
    WorldStep settings w (.begin i) (w.putCall i
      (some ⟨dbToRecord settings.uploadDirName profile id row, row, profile, savedAlways⟩))
  | merge {w : World} {i : ℕ} {call : Call} {row : Row} :
    settings.multiFileDatasetsEnabled = true → w.calls i = some call →
    w.rows call.copy.id = some row →
    WorldStep settings w (.merge i) (w.putCall i (some (call.merge row)))
  | save {w : World} {i : ℕ} {call : Call} {record : Record} {parts : List Part} {now : String}
    {size : Option ℕ} :
    w.calls i = some call → Edit call.copy record parts →
    WorldStep settings w (.save i) ((w.saveRecord record now size).putCall i
      (some { call with copy := record, sets := call.sets ++ parts }))
  | finish {w : World} {i : ℕ} {call : Call} :
    w.calls i = some call → WorldStep settings w (.finish i) (w.putCall i none)
  | update {w : World} {id : String} {row row' : Row} {t : Transaction} :
    w.rows id = some row → t.apply row = some row' →
    WorldStep settings w (.update id t) (w.putRow id row')
  | delete {w : World} {id : String} {row : Row} :
    w.rows id = some row →
    WorldStep settings w (.delete id)
      { w with rows := Function.update w.rows id none, deleted := id :: w.deleted }

/-! ## What a step changes -/

/-- What a step sets: for a save, all that its call has set. -/
def Event.sets (w' : World) : Event → List Part
  | .save i => (w'.calls i).elim [] Call.sets
  | .update _ t => t.sets
  | _ => []

def Event.creates (id : String) : Event → Prop
  | .create _ id' => id' = id
  | _ => False

/-- **A step changes only what it sets**: no row comes to be but by creation, and a row
    keeps all parts but those. -/
structure Framed (w : World) (e : Event) (w' : World) : Prop where
  gone : ∀ id, w.rows id = none → ¬ e.creates id → w'.rows id = none
  frame : ∀ id row row', w.rows id = some row → w'.rows id = some row' →
    AgreeOff (e.sets w') row row'

/-- At a save the row is still there, it is a row as the service writes it that the call
    has read, and nobody has changed it since but for parts that the call sets. -/
def Undisturbed (settings : Settings) (w : World) (e : Event) (w' : World) : Prop :=
  ∀ i call, e = .save i → w'.calls i = some call →
    Settled settings.uploadDirName call.profile call.base ∧
      ∃ row, w.rows call.copy.id = some row ∧ AgreeOff call.sets row call.base

def CleanStep (settings : Settings) (w : World) (e : Event) (w' : World) : Prop :=
  WorldStep settings w e w' ∧ Undisturbed settings w e w'

/-! ## Edits -/

theorem setKey_agree (record : Record) (key : String) (value : Json) (now : String)
    (size : Option ℕ) (row : Row) :
    AgreeOff [.metadata key] ((record.setKey key value).overwrite now size row)
      (record.overwrite now size row) := by
  intro p hp
  cases p with
  | metadata key' =>
    have hne : key' ≠ key := by
      rintro rfl
      exact hp List.mem_cons_self
    show (record.setKey key value).storedMetadata key' = record.storedMetadata key'
    simp only [Record.storedMetadata, Record.setKey, Function.update_of_ne hne]
  | _ => rfl

theorem setListing_agree (record : Record) (listingId : String) (now : String)
    (size : Option ℕ) (row : Row) :
    AgreeOff [.listingId] ({ record with listingId := some listingId }.overwrite now size row)
      (record.overwrite now size row) := by
  intro p hp
  cases p with
  | listingId => exact absurd List.mem_cons_self hp
  | _ => rfl

/-- **An edit** changes what a save writes at its parts only, and not whose copy it is. -/
theorem Edit.agree {record record' : Record} {parts : List Part} (h : Edit record record' parts) :
    record'.id = record.id ∧ ∀ now size row,
      AgreeOff parts (record'.overwrite now size row) (record.overwrite now size row) := by
  cases h with
  | reattestation changes => exact ⟨rfl, setKey_agree record _ _⟩
  | commitment c =>
    have hfirst : ∀ now size row, AgreeOff [.metadata commitmentMetadataKey]
        ((record.setKey commitmentMetadataKey c.json).overwrite now size row)
        (record.overwrite now size row) := setKey_agree record _ _
    have hfresh : ∀ now size row,
        AgreeOff [.metadata commitmentMetadataKey, .metadata reattestationMetadataKey]
          ((Record.persistPublishedCommitment.fresh c
            (record.setKey commitmentMetadataKey c.json)).overwrite now size row)
          (record.overwrite now size row) := fun now size row =>
      ((setKey_agree _ _ _ now size row).mono (by simp)).trans
        ((hfirst now size row).mono (by simp))
    rw [Record.persistPublishedCommitment]
    split
    · split_ifs
      · exact ⟨rfl, fun now size row => (hfirst now size row).mono (by simp)⟩
      · exact ⟨rfl, hfresh⟩
    · exact ⟨rfl, hfresh⟩
  | disclosure status listingId now body disclosureVersion lastError =>
    refine ⟨rfl, fun now' size row => ?_⟩
    exact ((setListing_agree _ listingId now' size row).mono (by simp)).trans
      ((setKey_agree record _ _ now' size row).mono (by simp))
  | publish listingId => exact ⟨rfl, setListing_agree record listingId⟩
  | process hid hagree => exact ⟨hid, hagree⟩

theorem setMetadata_agree (row : Row) (key : String) (value : Json) :
    AgreeOff [.metadata key] row (Transaction.setMetadata row key value) := by
  intro p hp
  cases p with
  | metadata key' =>
    have hne : key' ≠ key := by
      rintro rfl
      exact hp List.mem_cons_self
    exact (Function.update_of_ne hne ..).symm
  | _ => rfl

/-- **A transaction** changes its parts only. -/
theorem Transaction.agree {t : Transaction} {row row' : Row} (h : t.apply row = some row') :
    AgreeOff t.sets row row' := by
  have hstatus : ∀ (row : Row) status now, AgreeOff [.status, .updatedAt] row
      { row with status := status, updatedAt := now } := by
    intro row status now p hp
    cases p with
    | status => exact absurd List.mem_cons_self hp
    | updatedAt => exact absurd (List.mem_cons_of_mem _ List.mem_cons_self) hp
    | _ => rfl
  cases t with
  | recordLocalPublish progress listingId =>
    cases h
    refine ((setMetadata_agree row "local_publish" progress).mono (by simp [sets])).trans ?_
    intro p hp
    cases p with
    | listingId => exact absurd (by simp [sets]) hp
    | _ => rfl
  | localProgress offset status accepted =>
    rw [apply] at h
    split_ifs at h
    cases h
    exact setMetadata_agree row _ _
  | setStatus status now =>
    cases h
    exact hstatus row _ now
  | saveProfile profile listing now =>
    cases h
    refine AgreeOff.trans ?_ ((hstatus _ _ now).mono (by simp [sets]))
    cases listing with
    | none => exact (setMetadata_agree row _ _).mono (by simp [sets])
    | some listing =>
      exact ((setMetadata_agree row _ _).mono (by simp [sets])).trans
        ((setMetadata_agree _ _ _).mono (by simp [sets]))

/-! ## Calls -/

/-- What a call knows of its copy: a save of it would keep the row that the call has read,
    but for what it has set. -/
structure CallOk (settings : Settings) (call : Call) : Prop where
  always : ∀ p ∈ savedAlways, p ∈ call.sets
  reads : Settled settings.uploadDirName call.profile call.base → ∀ now size,
    AgreeOff call.sets (call.copy.overwrite now size call.base) call.base

theorem callOk_begin (settings : Settings) (profile : Option Json) (id : String) (row : Row) :
    CallOk settings ⟨dbToRecord settings.uploadDirName profile id row, row, profile,
      savedAlways⟩ :=
  ⟨fun _ h => h, fun h now size => overwrite_dbToRecord h id now size⟩

theorem callOk_create (settings : Settings) (record : Record) (now : String)
    (size : Option ℕ) :
    CallOk settings ⟨record, record.recordToDb now size, none, savedAlways⟩ := by
  refine ⟨fun _ h => h, ?_⟩
  intro _ now' size' p hp
  cases p with
  | fileSizeBytes => exact absurd (by simp [savedAlways]) hp
  | updatedAt => exact absurd (by simp [savedAlways]) hp
  | _ => rfl

theorem settled_of_merge {uploadDirName : String} {profile : Option Json} {row : Row}
    {progress : Json}
    (h : Settled uploadDirName profile (Transaction.setMetadata row "local_publish" progress)) :
    Settled uploadDirName profile row := by
  have hother : ∀ key, key ≠ "local_publish" →
      (Transaction.setMetadata row "local_publish" progress).metadata key = row.metadata key :=
    fun key hne => Function.update_of_ne hne ..
  refine ⟨h.status, h.storage, h.processed, h.preview, ?_, ?_, ?_⟩
  · rw [← hother "document_content" (by decide)]
    exact h.document
  · rw [← hother "error" (by decide)]
    exact h.error
  · rw [← hother "directory_profile" (by decide)]
    exact h.profile

theorem callOk_merge {settings : Settings} {call : Call} (h : CallOk settings call) (row : Row) :
    CallOk settings (call.merge row) := by
  rw [Call.merge]
  split
  · rename_i progress hprogress
    split_ifs
    · refine ⟨h.always, ?_⟩
      intro hsettled now size p hp
      have hold := h.reads (settled_of_merge hsettled) now size p hp
      by_cases hpart : p = .metadata "local_publish"
      · subst hpart
        simp [Row.part, Record.overwrite, Record.storedMetadata, Record.setKey,
          Transaction.setMetadata]
      · have hne : p ∉ [Part.metadata "local_publish"] := by simpa using hpart
        have hsize : p ≠ .fileSizeBytes := by
          rintro rfl
          exact hp (h.always _ (by simp [savedAlways]))
        have hbase := setMetadata_agree call.base "local_publish" progress p hne
        calc ((call.copy.setKey "local_publish" progress).overwrite now size
              (Transaction.setMetadata call.base "local_publish" progress)).part p
            = (call.copy.overwrite now size
              (Transaction.setMetadata call.base "local_publish" progress)).part p :=
              setKey_agree call.copy _ _ now size _ p hne
          _ = (call.copy.overwrite now size call.base).part p :=
              overwrite_congr call.copy now size hsize hbase.symm
          _ = call.base.part p := hold
          _ = (Transaction.setMetadata call.base "local_publish" progress).part p := hbase
    · exact h
  · exact h

theorem callOk_edit {settings : Settings} {call : Call} {record : Record} {parts : List Part}
    (h : CallOk settings call) (hedit : Edit call.copy record parts) :
    CallOk settings { call with copy := record, sets := call.sets ++ parts } := by
  refine ⟨fun p hp => List.mem_append_left _ (h.always p hp), ?_⟩
  intro hsettled now size
  have hedit' := (hedit.agree).2 now size call.base
  exact (hedit'.mono fun p hp => List.mem_append_right _ hp).trans
    ((h.reads hsettled now size).mono fun p hp => List.mem_append_left _ hp)

/-- **A save** over a row that is as the call has read it, but for what it has set. -/
theorem CallOk.save {settings : Settings} {call : Call} (h : CallOk settings call)
    (hsettled : Settled settings.uploadDirName call.profile call.base) {row : Row}
    (hrow : AgreeOff call.sets row call.base) (now : String) (size : Option ℕ) :
    AgreeOff call.sets row (call.copy.overwrite now size row) := by
  intro p hp
  have hsize : p ≠ .fileSizeBytes := by
    rintro rfl
    exact hp (h.always _ (by simp [savedAlways]))
  calc row.part p = call.base.part p := hrow p hp
    _ = (call.copy.overwrite now size call.base).part p := (h.reads hsettled now size p hp).symm
    _ = (call.copy.overwrite now size row).part p :=
      overwrite_congr call.copy now size hsize (hrow p hp).symm

/-! ## Every step -/

structure SaveInv (settings : Settings) (w : World) : Prop where
  calls : ∀ i call, w.calls i = some call → CallOk settings call
  deleted : ∀ id ∈ w.deleted, w.rows id = none

namespace World

variable {w : World}

theorem putCall_calls {i j : ℕ} {o : Option Call} {call : Call} :
    (w.putCall i o).calls j = some call ↔
      (j = i ∧ o = some call) ∨ (j ≠ i ∧ w.calls j = some call) := by
  by_cases h : j = i
  · simp [putCall, h]
  · simp [putCall, h]

theorem putRow_rows {id id' : String} {row row' : Row} :
    (w.putRow id row).rows id' = some row' ↔
      (id' = id ∧ row = row') ∨ (id' ≠ id ∧ w.rows id' = some row') := by
  by_cases h : id' = id
  · simp [putRow, h]
  · simp [putRow, h]

theorem putRow_none {id id' : String} {row : Row} :
    (w.putRow id row).rows id' = none ↔ id' ≠ id ∧ w.rows id' = none := by
  by_cases h : id' = id
  · simp [putRow, h]
  · simp [putRow, h]

end World

variable {settings : Settings} {w w' : World} {e : Event}

/-- A row that is put in the place of one changes no other row. -/
theorem framed_putRow {id : String} {row row' : Row} {o : Option Call} {i : ℕ}
    (hrow : w.rows id = some row)
    (hagree : AgreeOff (e.sets ((w.putRow id row').putCall i o)) row row') :
    Framed w e ((w.putRow id row').putCall i o) := by
  constructor
  · intro id' hnone _
    refine World.putRow_none.2 ⟨?_, hnone⟩
    rintro rfl
    rw [hrow] at hnone
    cases hnone
  · intro id' t t' ht ht'
    rcases World.putRow_rows.1 ht' with ⟨rfl, rfl⟩ | ⟨-, ht'⟩
    · rw [hrow] at ht
      cases ht
      exact hagree
    · rw [ht] at ht'
      cases ht'
      exact .refl _ _

theorem framed_same (hrows : w'.rows = w.rows) : Framed w e w' := by
  constructor
  · intro id hnone _
    rw [hrows]
    exact hnone
  · intro id row row' hrow hrow'
    rw [hrows, hrow] at hrow'
    cases hrow'
    exact .refl _ _

theorem cleanStep_framed (hw : SaveInv settings w) (h : CleanStep settings w e w') :
    SaveInv settings w' ∧ WorldStep settings w e w' ∧ Framed w e w' := by
  obtain ⟨hstep, hclean⟩ := h
  suffices hboth : SaveInv settings w' ∧ Framed w e w' from ⟨hboth.1, hstep, hboth.2⟩
  have hput : ∀ {v : World} {i o}, (∀ call, o = some call → CallOk settings call) →
      v.calls = w.calls → (∀ id ∈ v.deleted, v.rows id = none) →
      SaveInv settings (v.putCall i o) := by
    intro v i o ho hcalls hdeleted
    refine ⟨?_, hdeleted⟩
    intro j call hj
    rcases World.putCall_calls.1 hj with ⟨-, hcall⟩ | ⟨-, hcall⟩
    · exact ho call hcall
    · exact hw.calls j call (hcalls ▸ hcall)
  cases hstep with
  | @create i record now size hnone hfresh _ =>
    have hrow : w.saveRecord record now size =
        w.putRow record.id (record.recordToDb now size) := by
      rw [World.saveRecord, hnone]
    rw [hrow]
    refine ⟨hput ?_ rfl ?_, ?_, ?_⟩
    · rintro call ⟨⟩
      exact callOk_create settings record now size
    · intro id hid
      refine World.putRow_none.2 ⟨?_, hw.deleted id hid⟩
      rintro rfl
      exact hfresh hid
    · intro id hid hne
      exact World.putRow_none.2 ⟨fun h => hne h.symm, hid⟩
    · intro id t t' ht ht'
      rcases World.putRow_rows.1 ht' with ⟨rfl, -⟩ | ⟨-, ht'⟩
      · rw [hnone] at ht
        cases ht
      · rw [ht] at ht'
        cases ht'
        exact .refl _ _
  | begin =>
    refine ⟨hput ?_ rfl hw.deleted, framed_same rfl⟩
    rintro call ⟨⟩
    exact callOk_begin settings _ _ _
  | merge _ hcall _ =>
    refine ⟨hput ?_ rfl hw.deleted, framed_same rfl⟩
    rintro call' ⟨⟩
    exact callOk_merge (hw.calls _ _ hcall) _
  | @save i call record parts now size hcall hedit =>
    have hid : record.id = call.copy.id := hedit.agree.1
    have hok := callOk_edit (hw.calls i call hcall) hedit
    obtain ⟨hsettled, row, hrow, hagree⟩ :=
      hclean i _ rfl (World.putCall_calls.2 (Or.inl ⟨rfl, rfl⟩))
    have hrow' : w.rows record.id = some row := hrow
    have hsave : w.saveRecord record now size =
        w.putRow record.id (record.overwrite now size row) := by
      rw [World.saveRecord, hrow']
    rw [hsave]
    refine ⟨hput ?_ rfl ?_, framed_putRow hrow' ?_⟩
    · rintro call' ⟨⟩
      exact hok
    · intro id hdel
      refine World.putRow_none.2 ⟨?_, hw.deleted id hdel⟩
      rintro rfl
      rw [hw.deleted _ hdel] at hrow'
      cases hrow'
    · have hsets : Event.sets ((w.putRow record.id (record.overwrite now size row)).putCall i
          (some { call with copy := record, sets := call.sets ++ parts })) (.save i) =
          call.sets ++ parts := by
        simp [Event.sets, World.putCall]
      rw [hsets]
      exact hok.save hsettled hagree now size
  | finish =>
    exact ⟨hput (fun _ h => by cases h) rfl hw.deleted, framed_same rfl⟩
  | @update id row row' t hrow ht =>
    refine ⟨⟨hw.calls, ?_⟩, ?_⟩
    · intro id' hdel
      refine World.putRow_none.2 ⟨?_, hw.deleted id' hdel⟩
      rintro rfl
      rw [hw.deleted _ hdel] at hrow
      cases hrow
    · constructor
      · intro id' hnone _
        refine World.putRow_none.2 ⟨?_, hnone⟩
        rintro rfl
        rw [hrow] at hnone
        cases hnone
      · intro id' s s' hs hs'
        rcases World.putRow_rows.1 hs' with ⟨rfl, rfl⟩ | ⟨-, hs'⟩
        · rw [hrow] at hs
          cases hs
          exact Transaction.agree ht
        · rw [hs] at hs'
          cases hs'
          exact .refl _ _
  | @delete id row hrow =>
    have hnone : ∀ id', w.rows id' = none → Function.update w.rows id none id' = none := by
      intro id' h
      by_cases hid : id' = id
      · simp [hid]
      · simpa [hid] using h
    refine ⟨⟨hw.calls, ?_⟩, fun id' h _ => hnone id' h, ?_⟩
    · intro id' hdel
      rcases List.mem_cons.1 hdel with rfl | hdel
      · exact Function.update_self ..
      · exact hnone id' (hw.deleted id' hdel)
    · intro id' s s' hs hs'
      by_cases hid : id' = id
      · simp [hid] at hs'
      · simp only [Function.update_of_ne hid] at hs'
        rw [hs] at hs'
        cases hs'
        exact .refl _ _

theorem saveInv_start (settings : Settings) (rows : String → Option Row) :
    SaveInv settings (.start rows) :=
  ⟨fun _ _ h => (by cases h), fun _ h => (by cases h)⟩

/-- **Saves are framed** in a run in which they find the row there and changed only where
    their own call sets it: every step changes only what it sets, and what is deleted is
    not created again. -/
theorem saves_framed {rows : String → Option Row} {es : List Event}
    (h : Run (CleanStep settings) (.start rows) es w) :
    Run (fun w e w' => WorldStep settings w e w' ∧ Framed w e w') (.start rows) es w ∧
      ∀ id ∈ w.deleted, w.rows id = none := by
  have hinv : SaveInv settings w :=
    h.invariant (fun hw hstep => (cleanStep_framed hw hstep).1) (saveInv_start settings rows)
  exact ⟨h.mono cleanStep_framed (saveInv_start settings rows), hinv.deleted⟩

/-! ### A save of an old copy -/

def uploadSettings : Settings := ⟨"uploads", false⟩

def csvRow : Row where
  originalFilename := "f.csv"
  storageFilename := "x_f.csv"
  fileType := "csv"
  fileSizeBytes := 1
  status := "preview_ready"
  processedPath := none
  metadata := fun _ => none
  createdAt := ""
  updatedAt := ""
  batchId := none
  relativePath := none
  previewText := none
  previewMetadata := none
  confirmedAt := none
  confirmedBy := none
  listingId := none
  rootPath := none

def oneRow : String → Option Row := Function.update (fun _ => none) "x" (some csvRow)

theorem settled_csvRow : Settled "uploads" none csvRow where
  status := by decide
  storage := by decide +kernel
  processed := fun _ h => by cases h
  preview := fun h => by cases h
  document := fun h => by cases h
  error := fun h => by cases h
  profile := fun _ h => by cases h

def loadedCall : Call :=
  ⟨dbToRecord "uploads" none "x" csvRow, csvRow, none, savedAlways⟩

def attestedRecord : Record := loadedCall.copy.persistReattestationState []

def attestedCall : Call :=
  ⟨attestedRecord, csvRow, none, savedAlways ++ [.metadata reattestationMetadataKey]⟩

theorem attest {w : World} (h : w.calls 0 = some loadedCall) :
    WorldStep uploadSettings w (.save 0)
      ((w.saveRecord attestedRecord "" none).putCall 0 (some attestedCall)) :=
  .save h (.reattestation [])

/-- A re-attestation loads the record. -/
theorem loaded : ∃ w, Run (CleanStep uploadSettings) (.start oneRow) [.begin 0] w ∧
    w.rows "x" = some csvRow ∧ w.calls 0 = some loadedCall :=
  ⟨_, .cons ⟨@WorldStep.begin _ _ 0 "x" csvRow none rfl rfl
    (by simp [ReadsProfile, uploadSettings]), fun _ _ h => by cases h⟩ .nil, rfl, rfl⟩

theorem attested_row {w : World} {row : Row} (h : w.rows "x" = some row) :
    ((w.saveRecord attestedRecord "" none).putCall 0 (some attestedCall)).rows "x" =
      some (attestedRecord.overwrite "" none row) := by
  have h' : w.rows attestedRecord.id = some row := h
  have hsave : w.saveRecord attestedRecord "" none =
      w.putRow "x" (attestedRecord.overwrite "" none row) := by
    rw [World.saveRecord, h']
    rfl
  rw [hsave]
  show (w.putRow "x" (attestedRecord.overwrite "" none row)).rows "x" = _
  exact World.putRow_rows.2 (Or.inl ⟨rfl, rfl⟩)

/-- It saves its state while nobody else is at work. -/
theorem saves_framed_reattestation : ∃ w row, w.rows "x" = some row ∧
    (row.metadata reattestationMetadataKey).isSome ∧
    Run (fun w e w' => WorldStep uploadSettings w e w' ∧ Framed w e w') (.start oneRow)
      [.begin 0, .save 0] w := by
  obtain ⟨w, hrun, hrow, hcall⟩ := loaded
  have hclean : Undisturbed uploadSettings w (.save 0)
      ((w.saveRecord attestedRecord "" none).putCall 0 (some attestedCall)) := by
    rintro i call ⟨⟩ hcall'
    rcases World.putCall_calls.1 hcall' with ⟨-, ⟨⟩⟩ | ⟨hne, -⟩
    · exact ⟨settled_csvRow, csvRow, hrow, .refl _ _⟩
    · exact absurd rfl hne
  exact ⟨_, _, attested_row hrow, rfl,
    (saves_framed (hrun.append (.cons ⟨attest hcall, hclean⟩ .nil))).1⟩

def publishedRow : Row :=
  { Transaction.setMetadata csvRow "local_publish" (.obj []) with listingId := some "listing" }

/-- A publish is recorded after the load, and the save takes its progress out again. -/
theorem reattestation_drops_publish : ∃ es w e w',
    Run (WorldStep uploadSettings) (.start oneRow) es w ∧ WorldStep uploadSettings w e w' ∧
      ¬ Framed w e w' := by
  obtain ⟨w, hrun, hrow, hcall⟩ := loaded
  have hload : Run (WorldStep uploadSettings) (.start oneRow) [.begin 0] w :=
    hrun.mono (fun _ h => ⟨trivial, h.1⟩) trivial
  have hpublish : Run (WorldStep uploadSettings) w
      [.update "x" (.recordLocalPublish (.obj []) "listing")] (w.putRow "x" publishedRow) :=
    .cons (.update hrow rfl) .nil
  have hrow' : (w.putRow "x" publishedRow).rows "x" = some publishedRow :=
    World.putRow_rows.2 (Or.inl ⟨rfl, rfl⟩)
  refine ⟨_, _, _, _, hload.append hpublish, attest hcall, ?_⟩
  intro hframed
  have hsets : Event.sets ((((w.putRow "x" publishedRow).saveRecord attestedRecord "" none).putCall
      0 (some attestedCall))) (.save 0) = attestedCall.sets := by
    simp [Event.sets, World.putCall]
  have hkept := hframed.frame "x" _ _ hrow' (attested_row hrow')
  rw [hsets] at hkept
  have hprogress : some (Json.obj []) = none := hkept (.metadata "local_publish") (by decide)
  cases hprogress

end Dataset

end AimData
