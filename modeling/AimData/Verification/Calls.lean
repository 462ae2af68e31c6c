/-
  The local side of a verification run: one row of `data_verification_runs`, and
  the calls that work on it.

  A step of a call is one transaction on the row, one remote call, or the moment
  of the control plane that an answer reflects; between two steps a call may
  stall for any time or crash.  A row that a call has read is carried in its
  program counter, and is as old as that reading.
-/
import AimData.Lib.PyText
import AimData.Lib.Run

namespace AimData

namespace Verification

/-! ## The row -/

inductive PaymentState where
  | created
  | quoted
  | authorizing
  | authorized
  | scanningLocal
  | narratingCloud
  | capturePending
  | captureReconciling
  | captured
  | published
  | declined
  | withdrawn
  | superseded
  | authFailed
  | cancelledVoided
  | failedVoided
  | captureFailed
  deriving DecidableEq, Repr

/-- `CANCEL_STATES` -/
def cancelStates : List PaymentState :=
  [.authorizing, .authorized, .scanningLocal, .narratingCloud, .capturePending,
    .captureReconciling]

/-- A `PaymentLifecycleStatus`; `document` is the rest of it. -/
structure Status where
  state : PaymentState
  publicationAllowed : Bool
  withdrawnAt : Option ℚ
  document : String
  deriving DecidableEq

/-- What of a stored quote goes into a request. -/
structure Quote where
  quoteId : String
  depthClass : String
  authorizationUsd : String
  deriving DecidableEq

inductive NarrativeState where
  | grounded
  | withheldGroundingFailed
  deriving DecidableEq

/-- A `ReportIngestResponse` -/
structure Ingest where
  narrativeState : Option NarrativeState
  narrative : Option String
  listingClaimComparison : Option String
  deriving DecidableEq

/-- A row of `data_verification_runs` -/
structure VerificationRun where
  listingId : String
  sourceHandleId : String
  idempotencyKey : String
  ownerAuthorizationId : String
  state : PaymentState
  verificationId : Option String
  acceptedAt : Option ℚ
  previewRequested : Bool
  publicationTermsAck : Bool
  corpusAck : Bool
  d6 : String
  probe : String
  quote : Option Quote
  paymentStatus : Option Status
  reportIngest : Option Ingest
  report : Option String
  d8 : Option String
  startClaimed : Bool
  scanClaimed : Bool
  leaseOwner : Option String
  leaseExpires : Option ℚ
  withdrawRequestedAt : Option ℚ
  withdrawnAt : Option ℚ
  deriving DecidableEq

/-- The row as `prepare_quote` inserts it. -/
def inserted (listingId sourceHandleId idempotencyKey ownerAuthorizationId d6 probe : String)
    (previewRequested : Bool) (quote : Quote) : VerificationRun where
  listingId := listingId
  sourceHandleId := sourceHandleId
  idempotencyKey := idempotencyKey
  ownerAuthorizationId := ownerAuthorizationId
  state := .quoted
  verificationId := none
  acceptedAt := none
  previewRequested := previewRequested
  publicationTermsAck := false
  corpusAck := false
  d6 := d6
  probe := probe
  quote := some quote
  paymentStatus := none
  reportIngest := none
  report := none
  d8 := none
  startClaimed := false
  scanClaimed := false
  leaseOwner := none
  leaseExpires := none
  withdrawRequestedAt := none
  withdrawnAt := none

/-- A `ScanSpecIssueRequest` -/
structure Issue where
  listingId : String
  sourceHandleId : String
  ownerAuthorizationId : String
  quoteId : String
  idempotencyKey : String
  acceptedAt : ℚ
  connectorType : String
  connectorVersion : String
  depthClass : String
  previewRequested : Bool
  wireManifestVersion : String
  corpusDisclosureVersion : String
  paymentDisclosureVersion : String
  authorizationUsd : String
  deriving DecidableEq

/-- The request that `_start_with_lease` builds from the row it has read. -/
def issueOf (run : VerificationRun) : Option Issue := do
  let quote ← run.quote
  let acceptedAt ← run.acceptedAt
  return {
    listingId := run.listingId
    sourceHandleId := run.sourceHandleId
    ownerAuthorizationId := run.ownerAuthorizationId
    quoteId := quote.quoteId
    idempotencyKey := run.idempotencyKey
    acceptedAt := acceptedAt
    connectorType := "eolymp"
    connectorVersion := "eolymp-v1"
    depthClass := quote.depthClass
    previewRequested := run.previewRequested
    wireManifestVersion := "data-verification-wire-v1"
    corpusDisclosureVersion := "s1396-disclosure-v1"
    paymentDisclosureVersion := "payment-disclosure-v1"
    authorizationUsd := quote.authorizationUsd }

/-! ## What is written -/

namespace VerificationRun

variable (row : VerificationRun)

/-- The refresh of a quoted run by `prepare_quote`. -/
def requoted (d6 probe : String) (previewRequested : Bool) (quote : Quote) : VerificationRun :=
  { row with
    acceptedAt := none
    previewRequested := previewRequested
    publicationTermsAck := false
    corpusAck := false
    d6 := d6
    probe := probe
    quote := some quote }

/-- The acknowledgements of `start`; its request has both. -/
def acknowledged (acceptedAt : ℚ) : VerificationRun :=
  { row with acceptedAt := some acceptedAt, publicationTermsAck := true, corpusAck := true }

/-- The state and the document of a status. -/
def withStatus (status : Status) : VerificationRun :=
  { row with state := status.state, paymentStatus := some status }

/-- `if withdrawn_at is not None: changes["withdrawn_at_utc"] = withdrawn_at` -/
def withWithdrawal (withdrawnAt : Option ℚ) : VerificationRun :=
  { row with withdrawnAt := withdrawnAt <|> row.withdrawnAt }

/-- The changes of `_sync_status`, with `run` as the caller had read it. -/
def synced (run : VerificationRun) (status : Status) : VerificationRun :=
  if status.state = .withdrawn then
    (row.withStatus status).withWithdrawal
      (status.withdrawnAt <|> run.withdrawnAt <|> run.withdrawRequestedAt)
  else row.withStatus status

def startLeaseSeconds : ℚ := 30

def leased (owner : String) (now : ℚ) : VerificationRun :=
  { row with leaseOwner := some owner, leaseExpires := some (now + startLeaseSeconds) }

/-- The condition of `_try_claim_start_lease` -/
def claimable (owner : String) (now : ℚ) : Prop :=
  row.reportIngest = none ∧
    (row.leaseOwner = none ∨ row.leaseExpires = none ∨ row.leaseExpires.any (· ≤ now) = true ∨
      row.leaseOwner = some owner)

def leaseIsLive (now : ℚ) : Bool :=
  row.leaseOwner.isSome && row.leaseExpires.any (now < ·)

def released : VerificationRun := { row with leaseOwner := none, leaseExpires := none }

end VerificationRun

/-! ## The calls -/

/-- What a `start` call writes after it has asserted its lease.  A status comes with
    the moment of the control plane that it reflects. -/
inductive Task where
  | saveVerification (verificationId : String)
  | saveStatus (run : VerificationRun) (final : Bool) (moment : ℕ) (status : Status)
  | saveReport (report : String) (d8 : Option String)
  | saveIngest (ingest : Ingest)

def Task.write : Task → VerificationRun → VerificationRun
  | .saveVerification verificationId, row => { row with verificationId := some verificationId }
  | .saveStatus run _ _ status, row => row.synced run status
  | .saveReport report d8, row => { row with report := some report, d8 := d8 }
  | .saveIngest ingest, row => { row with reportIngest := some ingest }

/-- Where `start` and `_start_with_lease` stand. -/
inductive StartPc where
  | readiness (run : VerificationRun)
  | acknowledging
  | polling
  | claiming
  | claimed
  | holding (run : VerificationRun)
  | claimingStart (issue : Issue)
  | issuing (issue : Issue)
  | issued
  | asserting (task : Task)
  | saving (task : Task)
  | saved (task : Task)
  | syncing (run : VerificationRun) (final : Bool)
  | claimingScan
  | scanning
  | submitting (report : String)
  | submitted
  | exiting

/-- A `start` call: its owner id, until when the lease runs that it last claimed or
    renewed, whether the heartbeat has found the lease lost, and whether the scan was
    claimed in the row that it read. -/
structure StartCall where
  owner : String
  leaseUntil : Option ℚ
  lost : Bool
  recoverScan : Bool
  pc : StartPc

/-- `prepare_quote`, for a run that it has read as quoted. -/
inductive PrepareCall where
  | quoting (d6 : String) (previewRequested : Bool)
  | saving (d6 : String) (previewRequested : Bool) (probe : String) (quote : Quote)

/-- `_sync_status` without a lease. -/
inductive SyncCall where
  | asking (run : VerificationRun)
  | saving (run : VerificationRun) (moment : ℕ) (status : Status)

inductive Action where
  | cancel
  | publish
  | decline
  | withdraw
  deriving DecidableEq

/-- Where `lifecycle_command` stands. -/
inductive CommandCall where
  | recording
  | recorded
  | commanding (run : VerificationRun) (action : Action)
  | saving (run : VerificationRun) (action : Action) (moment : ℕ) (status : Status)
    (serverDate : Option ℚ)

inductive Call where
  | prepare (c : PrepareCall)
  | start (c : StartCall)
  | sync (c : SyncCall)
  | command (c : CommandCall)

/-- The changes of `lifecycle_command`. -/
def commanded (row run : VerificationRun) (action : Action) (status : Status)
    (serverDate : Option ℚ) : VerificationRun :=
  if action = .withdraw then
    (row.withStatus status).withWithdrawal
      (status.withdrawnAt <|> serverDate <|> run.withdrawRequestedAt)
  else row.withStatus status

/-- A text that is there and not blank. -/
def hasText (s : Option String) : Bool := s.any fun s => PyText.strip s.toList ≠ []

/-- The interpretation is there for review, or is withheld with a notice. -/
def publishable (ingest : Ingest) : Bool :=
  (ingest.narrativeState = some .grounded && hasText ingest.narrative &&
    hasText ingest.listingClaimComparison) ||
    ingest.narrativeState = some .withheldGroundingFailed

/-- The checks of `lifecycle_command` on the row that it has read. -/
def commandAllowed (run : VerificationRun) (action : Action) : Bool :=
  run.verificationId.isSome && run.paymentStatus.any fun status =>
    match action with
    | .cancel => status.state ∈ cancelStates
    | .publish => status.state = .captured && status.publicationAllowed &&
        run.reportIngest.any publishable
    | .decline => status.state = .captured
    | .withdraw => status.state = .published

/-- The row, the calls under way, the clock, the owner ids drawn so far, the states
    that the control plane has been in, the issue requests and the reports sent to it,
    and the moment of the status that the row has. -/
structure World where
  row : VerificationRun
  calls : ℕ → Option Call
  clock : ℚ
  owners : List String
  history : List Status
  issues : List Issue
  reports : List String
  stored : Option ℕ

namespace World

def start (row : VerificationRun) (clock : ℚ) : World :=
  ⟨row, fun _ => none, clock, [], [], [], [], none⟩

variable (w : World)

def save (row : VerificationRun) : World := { w with row := row }

def put (i : ℕ) (o : Option Call) : World := { w with calls := Function.update w.calls i o }

/-- A status of the given moment is written. -/
def store (moment : ℕ) (row : VerificationRun) : World :=
  { w with row := row, stored := some moment }

/-- The control plane has been in this state since its last moment. -/
def Answers (moment : ℕ) (status : Status) : Prop :=
  moment + 1 = w.history.length ∧ w.history[moment]? = some status

end World

theorem World.put_calls {w : World} {i j : ℕ} {o : Option Call} {call : Call} :
    (w.put i o).calls j = some call ↔
      (j = i ∧ o = some call) ∨ (j ≠ i ∧ w.calls j = some call) := by
  by_cases h : j = i
  · simp [World.put, h]
  · simp [World.put, h]

/-- The moment of the status that a task writes. -/
def Task.moment : Task → Option ℕ
  | .saveStatus _ _ moment _ => some moment
  | _ => none

/-- The transaction of a task. -/
def World.perform (w : World) (task : Task) : World :=
  { w with row := task.write w.row, stored := task.moment <|> w.stored }

/-! ## The steps of a call -/

/-- `prepare_quote`, after it has read the run. -/
inductive PrepareStep : World → PrepareCall → World → Option Call → Prop
  | quoted {w : World} {d6 probe : String} {preview : Bool} {quote : Quote} :
    PrepareStep w (.quoting d6 preview) w (some (.prepare (.saving d6 preview probe quote)))
  | save {w : World} {d6 probe : String} {preview : Bool} {quote : Quote} :
    PrepareStep w (.saving d6 preview probe quote)
      (w.save (w.row.requoted d6 probe preview quote)) none

/-- `_sync_status` as `refresh` calls it. -/
inductive SyncStep : World → SyncCall → World → Option Call → Prop
  | answer {w : World} {run : VerificationRun} {moment : ℕ} {status : Status} :
    w.Answers moment status → SyncStep w (.asking run) w (some (.sync (.saving run moment status)))
  | save {w : World} {run : VerificationRun} {moment : ℕ} {status : Status} :
    SyncStep w (.saving run moment status) (w.store moment (w.row.synced run status)) none

/-- `lifecycle_command`, after its checks. -/
inductive CommandStep : World → CommandCall → World → Option Call → Prop
  | record {w : World} {now : ℚ} :
    now ≤ w.clock → CommandStep w .recording (w.save { w.row with withdrawRequestedAt := some now })
      (some (.command .recorded))
  | read {w : World} :
    CommandStep w .recorded w (some (.command (.commanding w.row .withdraw)))
  | answer {w : World} {run : VerificationRun} {action : Action} {moment : ℕ} {status : Status}
    {serverDate : Option ℚ} :
    w.Answers moment status → CommandStep w (.commanding run action) w
      (some (.command (.saving run action moment status serverDate)))
  | save {w : World} {run : VerificationRun} {action : Action} {moment : ℕ} {status : Status}
    {serverDate : Option ℚ} :
    CommandStep w (.saving run action moment status serverDate)
      (w.store moment (commanded w.row run action status serverDate)) none

/-- Where `_start_with_lease` goes with the row after its first status. -/
def StartCall.afterStatus (c : StartCall) (run : VerificationRun) : StartPc :=
  if run.state ≠ .authorized then .exiting
  else if c.recoverScan then .scanning else .claimingScan

/-- The call has entered `_heartbeat_start_lease`. -/
def StartPc.inLease : StartPc → Bool
  | .readiness _ | .acknowledging | .polling | .claiming | .claimed | .exiting => false
  | _ => true

def StartCall.goto (c : StartCall) (pc : StartPc) : Option Call := some (.start { c with pc := pc })

/-- The call has claimed or renewed the lease at a time. -/
def StartCall.renewed (c : StartCall) (now : ℚ) (pc : StartPc) : Option Call :=
  some (.start { c with leaseUntil := some (now + VerificationRun.startLeaseSeconds), pc := pc })

/-- `start`, after it has read the run and its quote.  A clock that a transaction
    uses was read at some moment before it. -/
inductive StartStep : World → StartCall → World → Option Call → Prop
  | unready {w : World} {c : StartCall} {run : VerificationRun} :
    c.pc = .readiness run → run.verificationId = none → run.startClaimed = false →
    StartStep w c w none
  | ready {w : World} {c : StartCall} {run : VerificationRun} :
    c.pc = .readiness run →
    StartStep w c w (c.goto (if run.publicationTermsAck ∧ run.corpusAck then .polling
      else .acknowledging))
  | acknowledge {w : World} {c : StartCall} {now : ℚ} :
    c.pc = .acknowledging → now ≤ w.clock →
    StartStep w c (w.save (w.row.acknowledged now)) (c.goto .polling)
  | finished {w : World} {c : StartCall} {now : ℚ} :
    c.pc = .polling → now ≤ w.clock → w.row.reportIngest.isSome → w.row.leaseIsLive now = false →
    StartStep w c w (if w.row.verificationId = none then none else some (.sync (.asking w.row)))
  | poll {w : World} {c : StartCall} {now : ℚ} :
    c.pc = .polling → now ≤ w.clock → w.row.reportIngest = none ∨ w.row.leaseIsLive now →
    StartStep w c w (c.goto .claiming)
  | claim {w : World} {c : StartCall} {now : ℚ} :
    c.pc = .claiming → now ≤ w.clock → w.row.claimable c.owner now →
    StartStep w c (w.save (w.row.leased c.owner now)) (c.renewed now .claimed)
  | busy {w : World} {c : StartCall} {now : ℚ} :
    c.pc = .claiming → now ≤ w.clock → ¬ w.row.claimable c.owner now →
    StartStep w c w (c.goto .polling)
  | hold {w : World} {c : StartCall} :
    c.pc = .claimed → StartStep w c w (c.goto (.holding w.row))
  | ingested {w : World} {c : StartCall} {run : VerificationRun} :
    c.pc = .holding run → run.reportIngest.isSome → StartStep w c w (c.goto .exiting)
  | resume {w : World} {c : StartCall} {run : VerificationRun} {report : String} :
    c.pc = .holding run → run.reportIngest = none → run.report = some report →
    StartStep w c w (c.goto (.submitting report))
  | unaccepted {w : World} {c : StartCall} {run : VerificationRun} :
    c.pc = .holding run → run.reportIngest = none → run.report = none → issueOf run = none →
    StartStep w c w (c.goto .exiting)
  | issue {w : World} {c : StartCall} {run : VerificationRun} {issue : Issue} :
    c.pc = .holding run → run.reportIngest = none → run.report = none →
    issueOf run = some issue →
    StartStep w c w ({ c with recoverScan := run.scanClaimed }.goto
      (if run.startClaimed then .issuing issue else .claimingStart issue))
  | claimStart {w : World} {c : StartCall} {issue : Issue} :
    c.pc = .claimingStart issue → w.row.startClaimed = false →
    StartStep w c (w.save { w.row with startClaimed := true }) (c.goto (.issuing issue))
  | startLost {w : World} {c : StartCall} {issue : Issue} :
    c.pc = .claimingStart issue → w.row.startClaimed = true → StartStep w c w (c.goto .exiting)
  | send {w : World} {c : StartCall} {issue : Issue} :
    c.pc = .issuing issue →
    StartStep w c { w with issues := w.issues ++ [issue] } (c.goto .issued)
  | issued {w : World} {c : StartCall} {verificationId : String} :
    c.pc = .issued → StartStep w c w (c.goto (.asserting (.saveVerification verificationId)))
  | assert {w : World} {c : StartCall} {task : Task} {now : ℚ} :
    c.pc = .asserting task → now ≤ w.clock → c.lost = false → w.row.leaseOwner = some c.owner →
    StartStep w c (w.save (w.row.leased c.owner now)) (c.renewed now (.saving task))
  | assertLost {w : World} {c : StartCall} {task : Task} :
    c.pc = .asserting task → c.lost = true ∨ w.row.leaseOwner ≠ some c.owner →
    StartStep w c w (c.goto .exiting)
  | save {w : World} {c : StartCall} {task : Task} :
    c.pc = .saving task → StartStep w c (w.perform task) (c.goto (.saved task))
  | ask {w : World} {c : StartCall} {verificationId : String} :
    c.pc = .saved (.saveVerification verificationId) → w.row.verificationId ≠ none →
    StartStep w c w (c.goto (.syncing w.row false))
  | unasked {w : World} {c : StartCall} {verificationId : String} :
    c.pc = .saved (.saveVerification verificationId) → w.row.verificationId = none →
    StartStep w c w (c.goto (c.afterStatus w.row))
  | answer {w : World} {c : StartCall} {run : VerificationRun} {final : Bool} {moment : ℕ}
    {status : Status} :
    c.pc = .syncing run final → w.Answers moment status →
    StartStep w c w (c.goto (.asserting (.saveStatus run final moment status)))
  | synced {w : World} {c : StartCall} {run : VerificationRun} {moment : ℕ} {status : Status} :
    c.pc = .saved (.saveStatus run false moment status) →
    StartStep w c w (c.goto (c.afterStatus w.row))
  | done {w : World} {c : StartCall} {run : VerificationRun} {moment : ℕ} {status : Status} :
    c.pc = .saved (.saveStatus run true moment status) → StartStep w c w (c.goto .exiting)
  | claimScan {w : World} {c : StartCall} :
    c.pc = .claimingScan → w.row.scanClaimed = false →
    StartStep w c (w.save { w.row with scanClaimed := true }) (c.goto .scanning)
  | scanLost {w : World} {c : StartCall} :
    c.pc = .claimingScan → w.row.scanClaimed = true → StartStep w c w (c.goto .exiting)
  | scanned {w : World} {c : StartCall} {report : String} {d8 : Option String} :
    c.pc = .scanning → StartStep w c w (c.goto (.asserting (.saveReport report d8)))
  | reported {w : World} {c : StartCall} {saved report : String} {d8 : Option String} :
    c.pc = .saved (.saveReport saved d8) → w.row.report = some report →
    StartStep w c w (c.goto (.submitting report))
  | unreported {w : World} {c : StartCall} {saved : String} {d8 : Option String} :
    c.pc = .saved (.saveReport saved d8) → w.row.report = none →
    StartStep w c w (c.goto .exiting)
  | submit {w : World} {c : StartCall} {report : String} :
    c.pc = .submitting report →
    StartStep w c { w with reports := w.reports ++ [report] } (c.goto .submitted)
  | submitted {w : World} {c : StartCall} {ingest : Ingest} :
    c.pc = .submitted → StartStep w c w (c.goto (.asserting (.saveIngest ingest)))
  | askFinal {w : World} {c : StartCall} {ingest : Ingest} :
    c.pc = .saved (.saveIngest ingest) →
    StartStep w c w (c.goto (if w.row.verificationId = none then .exiting
      else .syncing w.row true))
  | release {w : World} {c : StartCall} :
    c.pc = .exiting →
    StartStep w c (if w.row.leaseOwner = some c.owner then w.save w.row.released else w) none

/-! ## The steps of the world -/

inductive Event where
  | begin (i : ℕ)
  | step (i : ℕ)
  | raise (i : ℕ)
  | heartbeat (i : ℕ)
  | crash (i : ℕ)
  | tick
  | server
  deriving DecidableEq

/-- The first reading of a call, and the checks on it. -/
inductive Begins (w : World) : Call → Prop
  | prepare {d6 : String} {preview : Bool} :
    w.row.state = .quoted → ¬ (w.row.d6 = d6 ∧ w.row.previewRequested = preview) →
    Begins w (.prepare (.quoting d6 preview))
  | start {owner : String} :
    w.row.quote.isSome → owner ∉ w.owners →
    Begins w (.start ⟨owner, none, false, false, .readiness w.row⟩)
  | sync : w.row.verificationId.isSome → Begins w (.sync (.asking w.row))
  | command {action : Action} :
    commandAllowed w.row action = true →
    Begins w (.command (if action = .withdraw ∧ w.row.withdrawRequestedAt = none then .recording
      else .commanding w.row action))

/-- The owner id that a call has drawn. -/
def Call.owners : Call → List String
  | .start c => [c.owner]
  | _ => []

inductive WorldStep : World → Event → World → Prop
  | begin {w : World} {i : ℕ} {call : Call} :
    w.calls i = none → Begins w call →
    WorldStep w (.begin i) ({ w with owners := call.owners ++ w.owners }.put i (some call))
  | prepare {w w' : World} {i : ℕ} {c : PrepareCall} {o : Option Call} :
    w.calls i = some (.prepare c) → PrepareStep w c w' o → WorldStep w (.step i) (w'.put i o)
  | start {w w' : World} {i : ℕ} {c : StartCall} {o : Option Call} :
    w.calls i = some (.start c) → StartStep w c w' o → WorldStep w (.step i) (w'.put i o)
  | sync {w w' : World} {i : ℕ} {c : SyncCall} {o : Option Call} :
    w.calls i = some (.sync c) → SyncStep w c w' o → WorldStep w (.step i) (w'.put i o)
  | command {w w' : World} {i : ℕ} {c : CommandCall} {o : Option Call} :
    w.calls i = some (.command c) → CommandStep w c w' o → WorldStep w (.step i) (w'.put i o)
  | raise {w : World} {i : ℕ} {c : StartCall} :
    -- a remote call or a check of its answer fails, or the call is cancelled
    w.calls i = some (.start c) → c.pc.inLease = true →
    WorldStep w (.raise i) (w.put i (c.goto .exiting))
  | heartbeat {w : World} {i : ℕ} {c : StartCall} {now : ℚ} :
    w.calls i = some (.start c) → c.pc.inLease = true → c.lost = false → now ≤ w.clock →
    w.row.leaseOwner = some c.owner →
    WorldStep w (.heartbeat i) ((w.save (w.row.leased c.owner now)).put i (c.renewed now c.pc))
  | heartbeatLost {w : World} {i : ℕ} {c : StartCall} :
    w.calls i = some (.start c) → c.pc.inLease = true → c.lost = false →
    w.row.leaseOwner ≠ some c.owner →
    WorldStep w (.heartbeat i) (w.put i (some (.start { c with lost := true })))
  | crash {w : World} {i : ℕ} {call : Call} :
    w.calls i = some call → WorldStep w (.crash i) (w.put i none)
  | tick {w : World} {clock : ℚ} : w.clock ≤ clock → WorldStep w .tick { w with clock := clock }
  | server {w : World} {status : Status} :
    WorldStep w .server { w with history := w.history ++ [status] }

theorem World.put_put (w : World) (i : ℕ) (o o' : Option Call) : (w.put i o).put i o' = w.put i o' := by
  simp only [World.put, Function.update_idem]

/-- The steps of a call do not look at the other calls. -/
theorem StartStep.put {w w' : World} {c : StartCall} {o : Option Call} (h : StartStep w c w' o)
    (i : ℕ) (x : Option Call) : StartStep (w.put i x) c (w'.put i x) o := by
  cases h with
  | unready hpc h₁ h₂ => exact .unready hpc h₁ h₂
  | ready hpc => exact .ready hpc
  | acknowledge hpc h₁ => exact .acknowledge hpc h₁
  | finished hpc h₁ h₂ h₃ => exact .finished hpc h₁ h₂ h₃
  | poll hpc h₁ h₂ => exact .poll hpc h₁ h₂
  | claim hpc h₁ h₂ => exact .claim hpc h₁ h₂
  | busy hpc h₁ h₂ => exact .busy hpc h₁ h₂
  | hold hpc => exact .hold hpc
  | ingested hpc h₁ => exact .ingested hpc h₁
  | resume hpc h₁ h₂ => exact .resume hpc h₁ h₂
  | unaccepted hpc h₁ h₂ h₃ => exact .unaccepted hpc h₁ h₂ h₃
  | issue hpc h₁ h₂ h₃ => exact .issue hpc h₁ h₂ h₃
  | claimStart hpc h₁ => exact .claimStart hpc h₁
  | startLost hpc h₁ => exact .startLost hpc h₁
  | send hpc => exact .send hpc
  | issued hpc => exact .issued hpc
  | assert hpc h₁ h₂ h₃ => exact .assert hpc h₁ h₂ h₃
  | assertLost hpc h₁ => exact .assertLost hpc h₁
  | save hpc => exact .save hpc
  | ask hpc h₁ => exact .ask hpc h₁
  | unasked hpc h₁ => exact .unasked hpc h₁
  | answer hpc h₁ => exact .answer hpc h₁
  | synced hpc => exact .synced hpc
  | done hpc => exact .done hpc
  | claimScan hpc h₁ => exact .claimScan hpc h₁
  | scanLost hpc h₁ => exact .scanLost hpc h₁
  | scanned hpc => exact .scanned hpc
  | reported hpc h₁ => exact .reported hpc h₁
  | unreported hpc h₁ => exact .unreported hpc h₁
  | submit hpc => exact .submit hpc
  | submitted hpc => exact .submitted hpc
  | askFinal hpc => exact .askFinal hpc
  | release hpc =>
    rw [apply_ite (World.put · i x)]
    exact .release hpc

/-- A step of a call, as one of the world. -/
theorem StartStep.world {w w' : World} {c : StartCall} {o : Option Call} (h : StartStep w c w' o)
    (i : ℕ) : WorldStep (w.put i (some (.start c))) (.step i) (w'.put i o) := by
  have hstep := WorldStep.start (World.put_calls.2 (Or.inl ⟨rfl, rfl⟩)) (h.put i (some (.start c)))
  rw [World.put_put] at hstep
  exact hstep

end Verification

end AimData
