/-
  The seller-local preview lifecycle: `PreviewJournal` with its transactions,
  and the candidates that withdraw and refresh a publication.

  Every transaction may fail, and then leaves the journal as it was; reopening
  the database leaves it as it is.
-/
import AimData.Preview.Signing

namespace AimData

namespace Lifecycle

open Contract

/-! ## States -/

inductive State where
  | building
  | selected
  | scanned
  | hosted
  | readyToSign
  | signedCandidate
  | submissionUnknown
  | submitted
  | withdrawalPending
  | retirementPending
  | invalidated
  | retired
  deriving DecidableEq, Repr

/-- `TRANSITIONS` -/
def transitions : State → List State
  | .building => [.selected, .invalidated]
  | .selected => [.scanned, .invalidated]
  | .scanned => [.hosted, .invalidated]
  | .hosted => [.readyToSign, .retirementPending, .invalidated]
  | .readyToSign => [.signedCandidate, .invalidated, .retirementPending]
  | .signedCandidate =>
    [.submitted, .submissionUnknown, .withdrawalPending, .invalidated, .retirementPending]
  | .submissionUnknown => [.submitted, .withdrawalPending, .retirementPending]
  | .submitted => [.withdrawalPending, .retirementPending, .invalidated]
  | .withdrawalPending => [.submissionUnknown, .retirementPending]
  | .retirementPending => [.retired]
  | .invalidated => [.retirementPending]
  | .retired => []

/-- `raise LifecycleError(code)` -/
def refuse {α : Type} (code : String) : Except Raised α := raise "LifecycleError" code

/-! ## The journal -/

structure Key where
  seller : String
  listing : String
  requestId : String
  deriving DecidableEq, Repr

/-- A row of `candidates`. -/
structure Row where
  kind : String
  state : State
  candidate : Bytes
  request : Option Bytes := none
  digest : Option String := none
  receipts : Option Bytes := none
  retirementOrigin : Option String := none

/-- A row of `transitions`. -/
structure Logged where
  key : Key
  oldState : State
  newState : State

/-- The database: `candidates` by their primary key, and `transitions` in order. -/
structure Journal where
  candidates : Key → Option Row
  transitions : List Logged

def Journal.empty : Journal := ⟨fun _ => none, []⟩

/-- `UPDATE` or `INSERT` of a row. -/
def Journal.put (j : Journal) (key : Key) (row : Row) : Journal :=
  { j with candidates := Function.update j.candidates key (some row) }

/-- `_db`: what a transaction does is committed, unless it or the database raises. -/
def transaction {α : Type} (fault : Option Raised) (body : Journal → Except Raised (α × Journal))
    (j : Journal) : Except Raised α × Journal :=
  match body j, fault with
  | .ok (a, j'), none => (.ok a, j')
  | .ok _, some e => (.error e, j)
  | .error e, _ => (.error e, j)

/-! ## Its operations -/

/-- `b[key]`, a text. -/
def textAt (b : List (String × Json)) (key : String) : Except Raised String :=
  match b.lookup key with
  | some (.str s) => .ok s
  | some _ => raise "TypeError" key
  | none => raise "KeyError" key

/-- `(b["seller_id"], b["listing_id"], b["request_id"])` -/
def keyOf (b : List (String × Json)) : Except Raised Key := do
  return ⟨← textAt b "seller_id", ← textAt b "listing_id", ← textAt b "request_id"⟩

section
variable (nfc : String → String) (validateUrl : String → Bool)

/-- The transaction of `start`. -/
def insertCandidate (key : Key) (candidate : LocalCandidate) (j : Journal) :
    Except Raised (Key × Journal) :=
  match j.candidates key with
  | some old =>
    if old.candidate ≠ candidate.bindingBytes then refuse "request_id_conflict" else .ok (key, j)
  | none =>
    .ok (key, j.put key { kind := candidate.kind
                          state := .building
                          candidate := candidate.bindingBytes })

def start (fault : Option Raised) (candidate : LocalCandidate) (j : Journal) :
    Except Raised Key × Journal :=
  match candidate.binding nfc >>= keyOf with
  | .ok key => transaction fault (insertCandidate key candidate) j
  | .error e => (.error e, j)

/-- `_transition`; `none` is a name that no state has. -/
def transitionRow (key : Key) (new : Option State) (j : Journal) : Except Raised (Unit × Journal) :=
  match j.candidates key, new with
  | some row, some new =>
    if new ∉ transitions row.state then refuse "invalid_transition"
    else if new = .signedCandidate ∧ row.request = none then refuse "request_missing"
    else .ok ((), { j.put key { row with state := new } with
      transitions := j.transitions ++ [⟨key, row.state, new⟩] })
  | _, _ => refuse "invalid_transition"

def transition (fault : Option Raised) (key : Key) (state : Option State) (j : Journal) :
    Except Raised Unit × Journal :=
  if state ∈ [some .signedCandidate, some .retired] then (refuse "evidence_required", j)
  else transaction fault (transitionRow key state) j

/-- The transaction of `freeze`. -/
def freezeRow (key : Key) (binding : Json) (raw : Bytes) (digest : String) (j : Journal) :
    Except Raised ((Bytes × String) × Journal) :=
  match j.candidates key with
  | none => refuse "candidate_changed"
  | some old => do
    let candidate ← LocalCandidate.validate nfc binding
    if old.candidate ≠ candidate.bindingBytes then refuse "candidate_changed"
    else match old.request with
      | some request =>
        if request ≠ raw ∨ old.digest ≠ some digest then refuse "request_id_conflict"
        else return ((request, digest), j)
      | none => do
        let (_, j') ← transitionRow key (some .signedCandidate)
          (j.put key { old with request := some raw, digest := some digest })
        return ((raw, digest), j')

def freeze (fault : Option Raised) (key : Key) (request : Json) (j : Journal) :
    Except Raised (Bytes × String) × Journal :=
  let checked : Except Raised (Bytes × String) := do
    let raw ← requestBytes nfc validateUrl request
    let digest ← requestDigest nfc validateUrl request
    if key ≠ (← keyOf (asObj (get (asObj request) "binding"))) then
      refuse "request_identity_mismatch"
    else return (raw, digest)
  match checked with
  | .ok (raw, digest) =>
    transaction fault (freezeRow nfc key (get (asObj request) "binding") raw digest) j
  | .error e => (.error e, j)

def read (fault : Option Raised) (key : Key) (j : Journal) : Except Raised Row × Journal :=
  transaction fault (fun j => match j.candidates key with
    | some row => .ok (row, j)
    | none => refuse "candidate_missing") j

/-! ### Retirement -/

def headerKeys : List String :=
  ["content-type", "cache-control", "access-control-allow-origin", "access-control-allow-methods",
    "access-control-allow-headers", "access-control-allow-credentials"]

def receiptKeys : List String :=
  ["url", "method", "status", "captured_at", "headers", "no_set_cookie"]

/-- `set(d) == set(keys)` -/
def sameKeys (d : List (String × Json)) (keys : List String) : Bool :=
  d.all (·.1 ∈ keys) && keys.all (· ∈ d.map Prod.fst)

/-- `canonical_json_bytes` among the errors of the lifecycle. -/
def journalBytes (value : Json) : Except Raised Bytes := signingJsonBytes value

/-- `capture_receipt` of the headers of a receipt, `retired=True`. -/
def captureReceipt (url method : String) (status capturedAt : Json)
    (headers : List (String × Json)) : Except Raised Json :=
  match status, capturedAt with
  | .int status, .str capturedAt => do
    if ¬ validateUrl url then raise "OriginError" "invalid_url"
    else if 300 ≤ status ∧ status ≤ 399 then raise "OriginError" "redirect"
    else if method = "GET" ∧ status ≠ 404 ∧ status ≠ 410 then raise "OriginError" "http_status"
    else match canonicalRfc3339Utc capturedAt with
      | none => raise "CommitmentValidationError" "invalid_timestamp"
      | some capturedAt => do
        let receipt := Json.obj [("url", .str url), ("method", .str method),
          ("status", .int status), ("captured_at", .str capturedAt),
          ("headers", .obj (headerKeys.map fun k => (k, get headers k))),
          ("no_set_cookie", .bool true)]
        if (← journalBytes receipt).length > 8192 then raise "OriginError" "receipt_limit"
        else return receipt
  | .int _, _ => raise "CommitmentValidationError" "invalid_timestamp"
  | _, _ => raise "OriginError" "invalid_response"

/-- The check of one receipt. -/
def checkReceipt (url method : String) : Json → Except Raised Json
  | .obj receipt =>
    let headers := getObj receipt "headers"
    if ¬ sameKeys receipt receiptKeys ∨ get receipt "url" ≠ .str url ∨
        get receipt "method" ≠ .str method ∨ get receipt "no_set_cookie" ≠ .bool true ∨
        ¬ sameKeys headers headerKeys then
      refuse "invalid_retirement_receipt"
    else if headers.any (fun h => match h.2 with
        | .null | .str _ => false
        | _ => true) then
      refuse "invalid_retirement_receipt"
    else do
      let result ← captureReceipt validateUrl url method (get receipt "status")
        (get receipt "captured_at") headers
      if ¬ sameValue result (.obj receipt) then refuse "invalid_retirement_receipt"
      else return result
  | _ => refuse "invalid_retirement_receipt"

def validateRetirementReceipts (receipts : Json) (url : String) : Except Raised Json :=
  match receipts with
  | .arr [first, second] => do
    return .arr [← checkReceipt validateUrl url "GET" first,
      ← checkReceipt validateUrl url "OPTIONS" second]
  | _ => refuse "retirement_evidence_missing"

/-- A call of `retire`, and what its collaborators answer: the path of the URL, the
    path of the publication, its retirement, and the receipts. -/
structure Retirement where
  sampleHash : String
  url : String
  origin : String
  urlPath : Except Raised String
  storePath : Except Raised String
  storeRetire : Except Raised Unit
  receiptReader : Except Raised Json

/-- The checks of `retire` against the candidate. -/
def checkRetirement (r : Retirement) (candidate : Bytes) : Except Raised Unit := do
  let b ← loadJson candidate
  if (← r.urlPath) ≠ (← r.storePath) then refuse "retirement_url_mismatch"
  else if get (asObj b) "decision" ≠ .str "approve" ∨
      get (asObj b) "sample_hash" ≠ .str r.sampleHash then
    refuse "retirement_sample_mismatch"
  else return ()

/-- The last transaction of `retire`. -/
def retireRow (key : Key) (receipts : Json) (origin : String) (j : Journal) :
    Except Raised (Json × Journal) := do
  let bytes ← journalBytes receipts
  match j.candidates key with
  | none => refuse "invalid_transition"
  | some row => do
    let (_, j') ← transitionRow key (some .retired)
      (j.put key { row with receipts := some bytes, retirementOrigin := some origin })
    return (receipts, j')

/-- `retire` of a row that waits for its retirement. -/
def finishRetirement (fault : Option Raised) (key : Key) (r : Retirement) (j : Journal) :
    Except Raised Json × Journal :=
  match r.storeRetire *> r.receiptReader >>= fun receipts =>
      validateRetirementReceipts validateUrl receipts r.url with
  | .ok receipts => transaction fault (retireRow key receipts r.origin) j
  | .error e => (.error e, j)

def retire (faultRead faultPending fault : Option Raised) (key : Key) (r : Retirement)
    (j : Journal) : Except Raised Json × Journal :=
  match (read faultRead key j).1 with
  | .error e => (.error e, j)
  | .ok row =>
    match checkRetirement r row.candidate with
    | .error e => (.error e, j)
    | .ok _ =>
      if row.state = .retired then
        if row.retirementOrigin ≠ some r.origin then (refuse "invalid_retirement_receipt", j)
        else (loadJson (row.receipts.getD []) >>= fun receipts =>
          validateRetirementReceipts validateUrl receipts r.url, j)
      else if row.state ≠ .retirementPending then
        match transition faultPending key (some .retirementPending) j with
        | (.ok _, j') => finishRetirement validateUrl fault key r j'
        | (.error e, j') => (.error e, j')
      else finishRetirement validateUrl fault key r j

/-! ## Calls -/

/-- A call of the journal, with the failures of its transactions. -/
inductive Call where
  | start (fault : Option Raised) (candidate : LocalCandidate)
  | transition (fault : Option Raised) (key : Key) (state : Option State)
  | freeze (fault : Option Raised) (key : Key) (request : Json)
  | read (fault : Option Raised) (key : Key)
  | retire (faultRead faultPending fault : Option Raised) (key : Key) (r : Retirement)
  | reopen

def outcome {α : Type} (r : Except Raised α × Journal) : Except Raised Unit × Journal :=
  (r.1.map fun _ => (), r.2)

def Call.run (j : Journal) : Call → Except Raised Unit × Journal
  | .start fault candidate => outcome (Lifecycle.start nfc fault candidate j)
  | .transition fault key state => outcome (Lifecycle.transition fault key state j)
  | .freeze fault key request => outcome (Lifecycle.freeze nfc validateUrl fault key request j)
  | .read fault key => outcome (Lifecycle.read fault key j)
  | .retire faultRead faultPending fault key r =>
    outcome (Lifecycle.retire validateUrl faultRead faultPending fault key r j)
  | .reopen => (.ok (), j)

/-- A sequence of calls, whatever each of them answers. -/
def runCalls (j : Journal) : List Call → Journal
  | [] => j
  | c :: calls => runCalls (c.run nfc validateUrl j).2 calls

end

end Lifecycle

end AimData
