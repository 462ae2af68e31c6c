/-
  A preview build job in the hands of its seller: `candidate`, `submit` and
  `withdraw`, over the saved job, the journal and ai.market.

  An action is a program over the world that it finds; every transaction of the
  databases may fail, and what ai.market and the keystore answer is part of the
  call.  The trace keeps what was allocated, frozen and sent.
-/
import AimData.Lib.Program
import AimData.Preview.Request

namespace AimData

namespace PreviewBuild

open Contract Lifecycle

/-! ## The job -/

/-- `job["state"]` -/
inductive JobState where
  | building
  | ready
  | selected
  | scanned
  | packaged
  | hosted
  | signedCandidate
  | submitted
  | cancelled
  | withdrawn
  | retired
  | failed
  | expired
  deriving DecidableEq, Repr

/-- `job["publication"]` -/
structure Publication where
  disclosureVersion : String
  sampleHash : String

/-- `job["candidate"]` -/
structure Candidate where
  kind : String
  requestDigest : String
  keyFingerprint : String
  sampleHash : Json
  disclosureVersion : Json

structure Job where
  owner : String
  state : JobState
  sourceVersion : String
  disclosureVersion : String
  displayColumns : List Json
  descriptors : List Json
  commitmentId : String
  commitment : List (String × Json)
  rights : Option (List (String × Json))
  scan : List (String × Json)
  publication : Option Publication
  origin : Option String
  receipts : List Json
  proofs : Option (List (List (String × Json)))
  proofIds : List Json
  priorBinding : Option (List (String × Json))
  candidate : Option Candidate
  journalKey : Option Key
  publicationJournalKey : Option Key
  policyCompatibility : Option String

/-- The worker of a job: none, one that runs, or one that was told to stop. -/
inductive Worker where
  | none
  | running
  | cancelled
  deriving DecidableEq, Repr

/-- The actions of `submit` at ai.market. -/
inductive Action where
  | approve
  | withdraw
  deriving DecidableEq, Repr

/-- What leaves the install, and what the journal freezes, for a withdrawal with
    the key of its publication. -/
inductive Event where
  | allocated (binding : Json)
  | frozen (publicationKey : Option Key) (key : Key) (raw : Bytes)
  | sent (action : Action) (request : Json)

/-- The saved job, the journal, the worker, what was done, and how the next
    transactions fail. -/
structure World where
  job : Job
  journal : Journal
  live : Worker
  trace : List Event
  faults : List (Option Raised)

abbrev Build := Program World Raised

/-- `raise BuildError(code)` -/
def refuseBuild {α : Type} (code : String) : Except Raised α := raise "BuildError" code

def lift {α : Type} (x : Except Raised α) : Build α := ExceptT.mk (pure x)

def world : Build World := MonadState.get

/-- How the next transaction fails, if it does. -/
def nextFault : Build (Option Raised) := do
  let w ← world
  set { w with faults := w.faults.tail }
  return w.faults.head?.join

/-- `db` -/
def database : Build Unit := do
  match ← nextFault with
  | some e => throw e
  | none => return ()

def save (job : Job) : Build Unit := do
  database
  modify fun w => { w with job := job }

/-- A transaction of the journal. -/
def onJournal {α : Type} (op : Option Raised → Journal → Except Raised α × Journal) : Build α := do
  let fault ← nextFault
  let w ← world
  set { w with journal := (op fault w.journal).2 }
  lift (op fault w.journal).1

/-- `live["cancel"].set()`, if there is a worker. -/
def stop : Build Unit :=
  modify fun w => { w with live := if w.live = .none then .none else .cancelled }

def record (e : Event) : Build Unit := modify fun w => { w with trace := w.trace ++ [e] }

/-! ## Loading -/

/-- What a load finds: who owns the dataset, and whether the review was left alone. -/
structure LoadCall where
  owned : Except Raised Unit
  idle : Bool

/-- The scan of a job of the first policy. -/
def Job.legacyScan (job : Job) : Bool :=
  get job.scan "scan_policy" = .str "aim-preview-policy-v1" &&
  get job.scan "scan_policy_version" = .str "1.0.0" &&
  job.policyCompatibility ≠ some "legacy_v1_completion"

def Job.compatible (job : Job) : Job :=
  if job.legacyScan then { job with policyCompatibility := some "legacy_v1_completion" } else job

def reviewStates : List JobState := [.building, .ready, .selected, .scanned]

/-- The upgrade of a job of the first policy. -/
def upgrade (job : Job) : Build Job :=
  if job.legacyScan then do
    save job.compatible
    return job.compatible
  else return job

def expire (job : Job) : Build Job := do
  save { job with state := .expired }
  return { job with state := .expired }

/-- An interaction with a job whose review expires. -/
def interact (c : LoadCall) (live : Worker) (job : Job) : Build Job :=
  if live = .running then
    if c.idle then do
      let job ← expire job
      stop
      return job
    else return job
  else if job.state ∈ reviewStates then expire job
  else return job

def load (c : LoadCall) : Build Job := do
  database
  let w ← world
  let job ← upgrade w.job
  lift c.owned
  interact c w.live job

/-- The states in which `release_on_exit` stops the worker. -/
def releasedStates : List JobState :=
  [.packaged, .hosted, .signedCandidate, .submitted, .cancelled, .withdrawn, .retired, .failed,
    .expired]

def release : Build Unit := do
  let w ← world
  if w.live = .none then return ()
  else do
    database
    if w.job.state ∈ releasedStates then modify fun w => { w with live := .none }

/-- `with self.release_on_exit(job_id)` -/
def releaseOnExit {α : Type} (x : Build α) : Build α := Program.andFinally x release

/-- `status`, of which only the load matters here. -/
def status (c : LoadCall) : Build Unit := do
  let _ ← load c

def inactiveStates : List JobState := [.cancelled, .failed, .retired, .withdrawn]

/-- `check_source`; `version` is what the dataset and its file give. -/
def checkSource (version : Except Raised String) (job : Job) : Build Unit := do
  if job.state = .expired then lift (refuseBuild "review_expired")
  else if job.state ∈ inactiveStates then lift (refuseBuild "job_inactive")
  else do
    if (← lift version) ≠ job.sourceVersion then do
      save { job with state := .failed }
      stop
      lift (refuseBuild "source_changed")

/-! ## ai.market -/

/-- `transport_error` -/
def transportError {α : Type} : Except Raised α → Except Raised α
  | .error e => .error (if e.type = "PreviewTransportError" then ⟨"BuildError", e.message⟩ else e)
  | .ok a => .ok a

/-- `allocate`: `response` is what `_request` returns. -/
def allocate (binding : Json) (response : Except Raised (List (String × Json))) :
    Build (List (String × Json)) := do
  record (.allocated binding)
  let result ← lift (transportError response)
  match result.lookup "binding" with
  | some (.obj b) => return b
  | _ => lift (refuseBuild "marketplace_response_invalid")

/-- The call of `submit` of the transport. -/
def send (action : Action) (request : Json) (response : Except Raised Unit) : Build Unit := do
  record (.sent action request)
  lift (transportError response)

/-! ## Freezing -/

/-- `request["binding"]` -/
def bindingOf (request : Json) : List (String × Json) := asObj (get (asObj request) "binding")

/-- `request["binding"]["decision"]` -/
def decisionOf (request : Json) : Json := get (bindingOf request) "decision"

section
variable (nfc : String → String) (validateUrl : String → Bool)

/-- `_candidate`'s entry of the job. -/
def candidateOf (request : Json) : Except Raised Candidate := do
  let b := bindingOf request
  return { kind := "marketplace_candidate"
           requestDigest := ← requestDigest nfc validateUrl request
           keyFingerprint := String.ofList ((getStr b "signer_reference").toList.drop 37)
           sampleHash := get b "sample_hash"
           disclosureVersion := get b "disclosure_version" }

/-- `self.journal.freeze`, and the bytes that it keeps. -/
def journalFreeze (publicationKey : Option Key) (key : Key) (request : Json) : Build Unit := do
  let frozen ← onJournal fun fault => Lifecycle.freeze nfc validateUrl fault key request
  record (.frozen publicationKey key frozen.1)

def freeze (job : Job) (candidate : LocalCandidate) (request : Json) : Build Job := do
  let key ← onJournal fun fault => Lifecycle.start nfc fault candidate
  [State.selected, .scanned, .hosted, .readyToSign].forM fun state =>
    onJournal fun fault => Lifecycle.transition fault key (some state)
  journalFreeze nfc validateUrl job.publicationJournalKey key request
  let entry ← lift (candidateOf nfc validateUrl request)
  let job := { job with state := .signedCandidate, journalKey := some key, candidate := some entry }
  save job
  return job

/-- `json.loads(self.journal.read(key)["request"])` -/
def readRequest (key : Key) : Build Json := do
  let row ← onJournal fun fault => Lifecycle.read fault key
  match row.request with
  | some raw => lift (loadJson raw)
  | none => lift (raise "TypeError" "request")

/-- The row of a frozen request becomes `submitted`. -/
def markSubmitted (key : Key) : Build Unit := do
  let row ← onJournal fun fault => Lifecycle.read fault key
  if row.state = .signedCandidate then
    onJournal fun fault => Lifecycle.transition fault key (some .submitted)

/-- `tuple(job["journal_key"])` -/
def journalKeyOf (job : Job) : Except Raised Key :=
  match job.journalKey with
  | some key => .ok key
  | none => raise "KeyError" "journal_key"

/-! ## `candidate` -/

/-- The seller's consent. -/
structure Consent where
  metadataAccuracyConfirmed : Bool
  publicPreviewPermission : Bool
  restrictedContentConfirmed : Bool
  rightsBasis : String

/-- A call of `candidate`, and what it finds and is answered. -/
structure CandidateCall where
  load : LoadCall
  version : Except Raised String
  consent : Consent
  /-- `record.listing_id` -/
  listingId : Except Raised (Option String)
  summary : Except Raised (List (String × Json))
  signer : Except Raised Signer
  now : String
  summaryApprovalId : String
  contentRevision : String
  requestId : String
  download : Except Raised Bytes
  allocate : Except Raised (List (String × Json))
  again : LoadCall

/-- `dict(a=…, **b)`: a key given twice raises. -/
def keywords (l : List (String × Json)) : Except Raised Json :=
  if (l.map Prod.fst).Nodup then .ok (.obj l)
  else raise "TypeError" "got multiple values for keyword argument"

/-- A digest of the signing service. -/
def digestOr (digest : Option String) : Except Raised Json :=
  match digest with
  | some d => .ok (.str d)
  | none => raise "CommitmentValidationError" "invalid_attestation"

/-- `job["proofs"]`, recovered from the package of an earlier version. -/
def proofsOf (job : Job) (download : Except Raised Bytes) :
    Except Raised (List (List (String × Json))) :=
  match job.proofs with
  | some proofs => .ok proofs
  | none => do
    let envelope ← loadJson (← download)
    match ← atKey (asObj envelope) "entries" with
    | .arr entries => entries.mapM fun entry =>
        positionKeys.mapM fun key => do return (key, ← atKey (asObj entry) key)
    | _ => raise "TypeError" "entries"

/-- What the seller reviewed: the commitment, its proofs, and the binding. -/
structure Proposal where
  commitment : Json
  proofs : List Json
  binding : Json

def p1 (c : CandidateCall) (listingId : String) (summary : List (String × Json)) :
    Except Raised (List (String × Json)) := do
  return [("summary_id", ← atKey summary "summary_id"),
    ("summary_approval_id", .str c.summaryApprovalId),
    ("summary_hash", ← atKey summary "summary_hash"),
    ("render_hash", ← atKey summary "render_hash"),
    ("aggregate_hash", .str (String.ofList (List.replicate 64 '0'))),
    ("content_revision", .str c.contentRevision),
    ("source_revision", ← atKey summary "source_revision"),
    ("listing_id", .str listingId), ("listing_version_id", .null)]

/-- `prior[key] if prior else None` -/
def priorKey (job : Job) (key : String) : Except Raised Json :=
  match job.priorBinding with
  | some prior => atKey prior key
  | none => .ok .null

/-- The commitment before its attestation digest and its proofs. -/
def commitmentFields (job : Job) (c : CandidateCall) (listingId reference : String) :
    Except Raised (List (String × Json)) := do
  return [("commitment_id", .str job.commitmentId), ("listing_id", .str listingId),
    ("seller_dataset_version", .str job.sourceVersion),
    ("previous_commitment_id", ← priorKey job "commitment_id"),
    ("schema_digest", ← atKey job.commitment "schema_digest"),
    ("dataset_merkle_root", ← atKey job.commitment "dataset_merkle_root"),
    ("leaf_count", ← atKey job.commitment "leaf_count"),
    ("aim_data_signer_reference", .str reference), ("seller_signature", dummySignature),
    ("signed_at", .str c.now)]

/-- The attestation whose digest the commitment carries. -/
def attestation (fields rights : List (String × Json)) (sampleHash : String) :
    Except Raised (List (String × Json)) := do
  return (["listing_id", "seller_dataset_version", "schema_digest", "dataset_merkle_root",
      "leaf_count", "signed_at"].map fun key => (key, get fields key)) ++
    [("sample_hash", .str sampleHash),
      ("rights_basis_digest", ← atKey rights "rights_basis_digest"),
      ("public_preview_permission", .bool true), ("metadata_accuracy_confirmed", .bool true)]

/-- A proof before it is signed. -/
def proofRecord (job : Job) (origin reference : String) (proof : List (String × Json))
    (proofId : Json) : Except Raised Json :=
  keywords ([("proof_id", proofId)] ++ proof ++
    [("preview_package_url", .str origin), ("package_media_type", .str mediaType),
      ("package_profile", .str packageProfile), ("package_byte_ceiling", .int 1048576)] ++
    job.scan ++
    [("signer_reference", .str reference), ("signature_algorithm", .str "ed25519"),
      ("signature", dummySignature)])

/-- `binding` -/
def proposedBinding (job : Job) (c : CandidateCall) (p1 rights : List (String × Json))
    (sampleHash reference : String) (commitment : Json) (proofs : List Json) :
    Except Raised Json := do
  let supersedes ← priorKey job "disclosure_version"
  keywords ([("profile", .str "aim-preview-disclosure-v1"), ("decision", .str "approve")] ++ p1 ++
    [("disclosure_version", .str job.disclosureVersion), ("seller_id", .str job.owner),
      ("selected_fields", .arr job.displayColumns), ("preview_type", .str "table"),
      ("content_type", .str "tabular"), ("sample_decision", .str "approved"),
      ("sample_hash", .str sampleHash), ("commitment_id", .str job.commitmentId),
      ("schema_digest", get (asObj commitment) "schema_digest"),
      ("seller_dataset_version", .str job.sourceVersion),
      ("schema_descriptors", .arr job.descriptors), ("proof_ids", .arr job.proofIds),
      ("sampled_leaf_list_digest", ← atKey job.scan "sampled_leaf_list_digest"),
      ("scan_attestation_digest",
        ← digestOr (scanAttestationDigest validateUrl (proofs.map asObj)))] ++
    rights ++
    [("approved_by", .str job.owner), ("approved_at", .str c.now),
      ("last_attested_by_seller_at", .str c.now), ("update_cadence_days", .null),
      ("approval_expires_at", .null), ("supersedes", supersedes),
      ("request_id", .str c.requestId), ("expected_current_disclosure_id", supersedes),
      ("signer_reference", .str reference), ("signature_algorithm", .str "ed25519"),
      ("signature_profile", .str "aim-preview-disclosure-signature-v1")])

/-- What `candidate` builds before it asks ai.market. -/
def proposal (job : Job) (c : CandidateCall) (listingId : String) (signer : Signer)
    (summary rights : List (String × Json)) (publication : Publication) (origin : String)
    (proofs : List (List (String × Json))) : Except Raised Proposal := do
  let reference ← signer.reference
  let p1 ← p1 c listingId summary
  let fields ← commitmentFields job c listingId reference
  let digest ← digestOr
    (sellerAttestationDigest (← attestation fields rights publication.sampleHash))
  let records ← (proofs.zip job.proofIds).mapM fun p => proofRecord job origin reference p.1 p.2
  let unsigned (proofs : List Json) : Json :=
    .obj (fields ++ [("seller_attestation_digest", digest), ("proofs", .arr proofs)])
  let signed ← records.mapM (signProof validateUrl signer (unsigned records))
  let commitment ← signCommitment validateUrl signer (unsigned signed)
  let binding ← proposedBinding validateUrl job c p1 rights publication.sampleHash reference
    commitment signed
  return ⟨commitment, signed, binding⟩

/-- The checks of `candidate` before it asks ai.market for the summary. -/
def checkConsent (job : Job) (consent : Consent) : Except Raised (List (String × Json)) :=
  if ¬ (consent.metadataAccuracyConfirmed ∧ consent.publicPreviewPermission ∧
      consent.restrictedContentConfirmed) then refuseBuild "approval_required"
  else match job.rights with
    | none => refuseBuild "confirmation_changed"
    | some rights =>
      if get rights "rights_basis_code" ≠ .str consent.rightsBasis then
        refuseBuild "confirmation_changed"
      else if job.state ∉ [JobState.hosted, .signedCandidate] ∨ job.receipts = [] then
        refuseBuild "origin_check_required"
      else .ok rights

/-- `if not record.listing_id: raise` -/
def listed (listingId : Except Raised (Option String)) : Except Raised String := do
  match ← listingId with
  | some id => if id = "" then refuseBuild "listing_not_published" else return id
  | none => refuseBuild "listing_not_published"

/-- A field that a hosted job has. -/
def present {α : Type} (field : Option α) : Except Raised α :=
  match field with
  | some a => .ok a
  | none => raise "TypeError" "'NoneType' object is not subscriptable"

def candidate (c : CandidateCall) : Build Unit := releaseOnExit do
  let job ← load c.load
  checkSource c.version job
  let rights ← lift (checkConsent job c.consent)
  let listingId ← lift (listed c.listingId)
  if job.candidate.isSome then status c.again
  else do
    let summary ← lift (transportError c.summary)
    let signer ← lift c.signer
    let publication ← lift (present job.publication)
    let origin ← lift (present job.origin)
    let proofs ← lift (proofsOf job c.download)
    let proposal ← lift
      (proposal validateUrl job c listingId signer summary rights publication origin proofs)
    let proposed ← lift (LocalCandidate.validate nfc proposal.binding)
    let allocated ← allocate (.obj (← lift (proposed.binding nfc))) c.allocate
    let candidate ← lift (LocalCandidate.validate nfc (.obj allocated))
    let p1 ← lift (p1Of allocated)
    let request ← lift (constructRequest nfc validateUrl candidate proposal.commitment
      proposal.proofs signer p1)
    let job ← freeze nfc validateUrl { job with proofs := some proofs } candidate request
    save job
    status c.again

/-! ## `submit` -/

structure SubmitCall where
  load : LoadCall
  version : Except Raised String
  owned : Except Raised Unit
  response : Except Raised Unit
  /-- `persist_published_commitment` -/
  persisted : Except Raised Unit
  liveState : Except Raised Unit
  again : LoadCall

/-- The commitment of an approved request is persisted. -/
def persist (c : SubmitCall) (frozen : Json) : Build Unit :=
  if get (asObj frozen) "commitment" ≠ .null then lift (transportError c.persisted)
  else return ()

def submit (c : SubmitCall) : Build Unit := releaseOnExit do
  let job ← load c.load
  checkSource c.version job
  if job.candidate.isNone then lift (refuseBuild "signed_candidate_required")
  else do
    lift c.owned
    let key ← lift (journalKeyOf job)
    let frozen ← readRequest key
    send .approve frozen c.response
    persist c frozen
    lift (transportError c.liveState)
    markSubmitted key
    save { job with state := .submitted }
    status c.again

/-! ## `withdraw` -/

structure WithdrawCall where
  load : LoadCall
  disclosureVersion : String
  requestId : String
  approvedAt : String
  allocate : Except Raised (List (String × Json))
  signer : Except Raised Signer
  response : Except Raised Unit
  urlPath : Except Raised String
  storePath : Except Raised String
  storeRetire : Except Raised Unit
  receiptReader : Except Raised Json
  again : LoadCall

/-- The request of a withdrawal of the publication under `publicationKey`. -/
def withdrawalRequest (c : WithdrawCall) (job : Job) (publicationKey : Key) :
    Build (Job × Json) := do
  let old ← readRequest publicationKey
  if decisionOf old = .str "withdraw" then return (job, old)
  else do
    let proposed ← lift (withdrawalCandidate nfc (.obj (bindingOf old)) c.disclosureVersion
      c.requestId c.approvedAt)
    let allocated ← allocate (.obj (← lift (proposed.binding nfc))) c.allocate
    let candidate ← lift (LocalCandidate.validate nfc (.obj allocated))
    let p1 ← lift (p1Of allocated)
    let signer ← lift c.signer
    let request ← lift (constructRequest nfc validateUrl candidate .null [] signer p1)
    let job ← freeze nfc validateUrl job candidate request
    return (job, request)

/-- `withdraw` at ai.market, for a job with a candidate. -/
def withdrawPublished (c : WithdrawCall) (job : Job) (publicationKey : Key) : Build Job := do
  let (job, request) ← withdrawalRequest nfc validateUrl c
    { job with publicationJournalKey := some publicationKey } publicationKey
  send .withdraw request c.response
  markSubmitted (← lift (journalKeyOf job))
  return job

/-- `publication_journal_key` -/
def publicationKeyOf (job : Job) : Except Raised (Option Key) :=
  if job.candidate.isNone then .ok none
  else match job.publicationJournalKey with
    | some key => .ok (some key)
    | none => do return some (← journalKeyOf job)

/-- `receipts` at the end of `withdraw`. -/
def retirementReceipts (c : WithdrawCall) (job : Job) (publicationKey : Option Key)
    (publication : Publication) : Build Json :=
  match publicationKey, job.origin with
  | some key, some url => do
    let faultRead ← nextFault
    let faultPending ← nextFault
    onJournal fun fault => Lifecycle.retire validateUrl faultRead faultPending fault key
      ⟨publication.sampleHash, url, "https://ai.market", c.urlPath, c.storePath, c.storeRetire,
        c.receiptReader⟩
  | none, some _ => lift (c.storeRetire *> c.receiptReader)
  | _, none => lift (c.storeRetire *> .ok (.arr []))

/-- `withdraw` at ai.market, unless the job was withdrawn. -/
def withdrawnJob (c : WithdrawCall) (job : Job) (publicationKey : Option Key) : Build Job :=
  match publicationKey with
  | some key =>
    if job.state ∈ [JobState.withdrawn, .retired] then return job
    else withdrawPublished nfc validateUrl c job key
  | none => return job

/-- The receipts of a retired publication are saved. -/
def saveRetired (job : Job) (receipts : Json) : Build Unit :=
  match receipts with
  | .arr (receipt :: rest) => save { job with state := .retired, receipts := receipt :: rest }
  | _ => return ()

/-- The end of `withdraw`, once nothing of it is left to do at ai.market. -/
def retireJob (c : WithdrawCall) (job : Job) (publicationKey : Option Key)
    (publication : Publication) : Build Unit := do
  let job := { job with state := .withdrawn, receipts := [] }
  save job
  stop
  let receipts ← retirementReceipts validateUrl c job publicationKey publication
  saveRetired job receipts
  status c.again

/-- `if not pub: raise` -/
def packaged (job : Job) : Except Raised Publication :=
  match job.publication with
  | some publication => .ok publication
  | none => refuseBuild "package_required"

def withdraw (c : WithdrawCall) : Build Unit := releaseOnExit do
  let job ← load c.load
  let publication ← lift (packaged job)
  let publicationKey ← lift (publicationKeyOf job)
  let job ← withdrawnJob nfc validateUrl c job publicationKey
  retireJob validateUrl c job publicationKey publication

end

end PreviewBuild

end AimData
