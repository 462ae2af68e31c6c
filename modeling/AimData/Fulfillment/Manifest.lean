/-
  The manifest sender: `load_plan`, `result_of`, the inbox of a transfer, and
  `ManifestSender.run` as steps between its awaits.

  Replies and disconnections arrive at any time, every await may time out, and
  the clock is arbitrary.  `phase` and `wire` are history: what the run has done
  since the latest metadata request, and what it has put on the channel.
-/
import AimData.Fulfillment.Legacy
import AimData.TrustChannel.Protocol

namespace AimData

namespace Fulfillment

open TrustChannel (Dict get)

/-! ## Plans -/

/-- A row of a retained manifest. -/
structure ManifestRow where
  index : ℕ
  sizeBytes : ℕ
  sha256 : String
  role : String

structure Member where
  index : ℕ
  size : ℕ
  sha256 : String
  startChunk : ℕ
  startByte : ℕ
  chunks : ℕ

structure Settings where
  transferMaxMemberBytes : ℕ
  datasetMaxBytes : ℕ
  transferCompleteRetryBudget : ℚ

/-- The loop of `load_plan` over the rows: the members, and the offsets it ends with. -/
def planRows (maxMemberBytes : ℕ) :
    List ManifestRow → ℕ → ℕ → Except Raised (List Member × ℕ × ℕ)
  | [], chunkOffset, byteOffset => .ok ([], chunkOffset, byteOffset)
  | row :: rows, chunkOffset, byteOffset =>
    if row.role ≠ "data" then planRows maxMemberBytes rows chunkOffset byteOffset
    else if row.sizeBytes > maxMemberBytes then
      raise "ValueError" s!"TRANSFER_MAX_MEMBER_BYTES: {maxMemberBytes}"
    else do
      let count := max 1 ((row.sizeBytes + chunkSize - 1) / chunkSize)
      let (plan, totals) ←
        planRows maxMemberBytes rows (chunkOffset + count) (byteOffset + row.sizeBytes)
      return (⟨row.index, row.sizeBytes, row.sha256, chunkOffset, byteOffset, count⟩ :: plan, totals)

/-- What a delivery sends: the plan, and the ids of its order. -/
structure Delivery where
  name : String
  orderId : String
  listingId : String
  manifestHash : String
  plan : List Member
  totalChunks : ℕ
  totalBytes : ℕ

/-- `load_plan` of the rows that are retained. -/
def loadPlan (settings : Settings) (name orderId listingId manifestHash : String)
    (rows : List ManifestRow) : Except Raised Delivery := do
  let (plan, chunkOffset, byteOffset) ← planRows settings.transferMaxMemberBytes rows 0 0
  if plan = [] ∨ byteOffset > settings.datasetMaxBytes then
    raise "ValueError" s!"DATASET_MAX_BYTES: {settings.datasetMaxBytes}; empty or oversized data set"
  else return ⟨name, orderId, listingId, manifestHash, plan, chunkOffset, byteOffset⟩

/-- A chunk to be read. -/
structure Position where
  memberIndex : ℕ
  chunkIndex : ℕ
  byteOffset : ℕ
  length : ℕ
  deriving DecidableEq

/-- The chunks of a member. -/
def Member.positions (m : Member) : List Position :=
  (List.range m.chunks).map fun localIndex =>
    ⟨m.index, m.startChunk + localIndex, m.startByte + localIndex * chunkSize,
      min chunkSize (m.size - localIndex * chunkSize)⟩

/-- The chunks that `chunks` yields: those of the members that are not verified. -/
def Delivery.positions (d : Delivery) (verified : List ℤ) : List Position :=
  (d.plan.filter fun m => (m.index : ℤ) ∉ verified).flatMap Member.positions

/-- A `vai.fulfillment.chunk` message of a manifest. -/
structure ManifestChunk where
  position : Position
  transferId : String
  chunkSha256 : String
  payload : String
  deriving DecidableEq

def Position.message (p : Position) (transferId : String) (raw : Bytes) : ManifestChunk :=
  ⟨p, transferId, hex (sha256 raw).1, Base64.encode raw⟩

/-- The `metadata` and `complete` requests. -/
inductive Stage where
  | metadata
  | chunk
  | complete
  deriving DecidableEq

/-! ## Replies -/

/-- The truth value of a JSON value. -/
def truthy : Json → Bool
  | .null => false
  | .bool b => b
  | .int i => i ≠ 0
  | .float text =>
    (text.toList.takeWhile fun c => c ≠ 'e' ∧ c ≠ 'E').any fun c => c.isDigit ∧ c ≠ '0'
  | .str s => s ≠ ""
  | .arr l => l ≠ []
  | .obj l => l ≠ []

/-- `raise Refusal(code)` -/
def refusal {α : Type} (code : Json) : Except Raised α :=
  match code with
  | .str s => raise "Refusal" s
  | _ => raise "Refusal" "delivery_rejected"

/-- `a or b` -/
def orElse (a b : Json) : Json := if truthy a then a else b

def resultOf (message : Dict) : Except Raised Dict :=
  match (message.lookup "data").getD (.obj message) with
  | .obj data =>
    let error := orElse (get data "error") (get message "error")
    if truthy error = true ∨ get message "success" = .bool false ∨
        get data "success" = .bool false then
      refusal (orElse error (.str "delivery_rejected"))
    else if (message.lookup "data").isSome ∧ get message "success" ≠ .bool true then
      refusal (.str "malformed_response")
    else .ok data
  | _ => refusal (orElse (get message "error") (.str "malformed_response"))

def ackAction : Json := .str "vai.fulfillment.ack"

def hasGrant (data : Dict) : Bool :=
  match get data "success", get data "token_id" with
  | .bool true, .str token => token ≠ ""
  | _, _ => false

/-! ## The inbox -/

inductive Item where
  | message (message : Dict)
  | disconnected

structure Inbox where
  transferId : String
  pending : List String
  queue : List Item

def Inbox.clear (inbox : Inbox) : Inbox := { inbox with pending := [], queue := [] }

/-- `set.discard` of a request id. -/
def discard (pending : List String) (requestId : Json) : List String :=
  match requestId with
  | .str id => pending.filter (· ≠ id)
  | _ => pending

/-- `data if isinstance(data, dict) else message` -/
def actionOf (message : Dict) : Dict :=
  match get message "data" with
  | .obj data => data
  | _ => message

/-- `FulfillmentInbox.dispatch` of a message whose request id is no list and no dict. -/
def Inbox.dispatch (inbox : Inbox) (message : Dict) : Inbox × Bool :=
  let action := actionOf message
  if ∃ id ∈ inbox.pending, get message "request_id" = .str id then
    ({ inbox with pending := discard inbox.pending (get message "request_id")
                  queue := inbox.queue ++ [.message message] }, true)
  else if get action "action" ≠ ackAction ∨ get action "transfer_id" ≠ .str inbox.transferId then
    (inbox, false)
  else ({ inbox with queue := inbox.queue ++ [.message message] }, true)

/-! ## The sender -/

/-- An attempt to send a window: the messages sent with their request ids, those
    still to send, and the replies consumed so far. -/
structure Window where
  requireAck : Bool
  again : Bool
  expected : ℕ
  sent : List (ManifestChunk × String)
  todo : List (ManifestChunk × Option String)
  pending : List String
  ackNeeded : Bool
  draining : Bool
  replies : List Dict

/-- The locals of `stream`. -/
structure Streaming where
  rest : List Position
  window : List ManifestChunk
  origin : Option ℕ

/-- A window that has ended. -/
structure Ended where
  messages : List (ManifestChunk × String)
  expected : ℕ
  transferId : String
  replies : List Dict

/-- What the run has done since the latest metadata reply, which came after
    `start` messages on the channel. -/
structure Phase where
  start : ℕ
  verified : List ℤ
  ended : List Ended

inductive ManifestPc where
  | top (needMetadata : Bool)
  | request (stage : Stage)
  | reply (stage : Stage)
  | stream (stream : Streaming)
  | window (window : Window) (stream : Streaming)
  | pausing (needMetadata : Bool)
  | returned (data : Dict)
  | raised (e : Raised)

/-- What is put on the channel. -/
inductive Wire where
  | request (stage : Stage) (transferId requestId : String)
  | chunk (chunk : ManifestChunk) (requestId : String)

structure Sender where
  transferId : String
  retryDeadline : Option ℚ
  completionStarted : Bool
  sent : ℕ
  highwater : ℤ
  inbox : Inbox
  pc : ManifestPc
  phase : Option Phase
  wire : List Wire

def Sender.start (transferId : String) : Sender where
  transferId := transferId
  retryDeadline := none
  completionStarted := false
  sent := 0
  highwater := -1
  inbox := ⟨transferId, [], []⟩
  pc := .top true
  phase := none
  wire := []

/-! ### The retry budget, and the handlers of `run` -/

def budgetExhausted : Raised := ⟨"TimeoutError", "TRANSFER_COMPLETE_RETRY_BUDGET_S exhausted"⟩

def connectionError : Raised := ⟨"ConnectionError", "Trust Channel disconnected"⟩

/-- `remaining` raises. -/
def Sender.overBudget (s : Sender) (now : ℚ) : Bool := s.retryDeadline.any (· - now ≤ 0)

def Sender.startBudget (s : Sender) (settings : Settings) (now : ℚ) : Sender :=
  { s with retryDeadline := s.retryDeadline.getD (now + settings.transferCompleteRetryBudget) }

/-- `pause`, up to the end of its first `remaining`. -/
def Sender.pause (s : Sender) (settings : Settings) (now : ℚ) (needMetadata : Bool) : Sender :=
  let s := s.startBudget settings now
  { s with pc := if s.overBudget now then .raised budgetExhausted else .pausing needMetadata }

def retryCodes : List String := ["listener_busy", "out_of_window", "member_reset", "finalizing"]

/-- The `except` clauses of `run`. -/
def Sender.handle (s : Sender) (settings : Settings) (now : ℚ) (stage : Stage) (e : Raised) :
    Sender :=
  if e.type = "Refusal" then
    if e.message ∉ retryCodes then { s with pc := .raised e }
    else
      let needMetadata := ¬ (stage = .complete ∧ e.message = "finalizing")
      if e.message ∈ ["listener_busy", "finalizing"] then
        (s.startBudget settings now).pause settings now needMetadata
      else { s.startBudget settings now with pc := .top needMetadata }
  else if e.type = "TimeoutError" then
    if stage = .chunk then { s with pc := .raised e }
    else
      let s := s.startBudget settings now
      if s.overBudget now then { s with pc := .raised budgetExhausted }
      else if stage = .complete then s.pause settings now false
      else { s with pc := .top true }
  else if e.type = "ConnectionError" then s.pause settings now true
  else { s with pc := .raised e }

/-! ### Exchanges -/

/-- The stage of an exchange. -/
def stageOf (needMetadata : Bool) : Stage := if needMetadata then .metadata else .complete

/-- The head of `exchange`. -/
def Sender.beginExchange (s : Sender) (settings : Settings) (now : ℚ) (stage : Stage) : Sender :=
  let s := { s with
    inbox := s.inbox.clear
    phase := if stage = Stage.metadata then none else s.phase }
  if s.overBudget now then s.handle settings now stage budgetExhausted
  else { s with pc := .request stage }

/-- `[i for i in indices]` as integers, none other. -/
def intsOf (l : List Json) : Option (List ℤ) :=
  l.mapM fun v => match v with
    | .int i => some i
    | _ => none

/-- The checks of a metadata reply: the transfer's id and the verified members. -/
def metadataOf (d : Delivery) (data : Dict) : Except Raised (String × List ℤ) :=
  match get data "transfer_id", get data "verified_member_indices" with
  | .str transferId, .arr l =>
    match intsOf l with
    | some indices =>
      if transferId = "" ∨ (∃ i ∈ indices, i ∉ d.plan.map fun m => (m.index : ℤ)) ∨
          ¬ indices.Nodup then
        refusal (.str "invalid_metadata_response")
      else .ok (transferId, indices)
    | none => refusal (.str "invalid_metadata_response")
  | _, _ => refusal (.str "invalid_metadata_response")

/-- What `run` does with the reply of an exchange. -/
def Sender.replied (s : Sender) (d : Delivery) (stage : Stage) (message : Dict) :
    Except Raised Sender := do
  let data ← resultOf message
  if hasGrant data then return { s with pc := .returned data }
  else if stage = .metadata then do
    let (transferId, verified) ← metadataOf d data
    return { s with
      transferId := transferId
      inbox := { s.inbox with transferId := transferId }
      phase := some ⟨s.wire.length, verified, []⟩
      pc := .stream ⟨d.positions verified, [], none⟩ }
  else refusal (.str "completion_not_confirmed")

/-! ### Windows -/

/-- The start of an attempt: everything is still to send. -/
def attempt (requireAck again : Bool) (expected : ℕ)
    (todo : List (ManifestChunk × Option String)) : Window where
  requireAck := requireAck
  again := again
  expected := expected
  sent := []
  todo := todo
  pending := []
  ackNeeded := requireAck
  draining := false
  replies := []

/-- The head of the loop of `window`. -/
def Sender.beginAttempt (s : Sender) (settings : Settings) (now : ℚ) (w : Window) (st : Streaming) :
    Sender :=
  let s := { s with inbox := s.inbox.clear }
  if s.overBudget now then s.handle settings now .chunk budgetExhausted
  else { s with pc := .window w st }

/-- `messages[-1]["chunk_index"]` -/
def lastIndex (messages : List ManifestChunk) : ℕ :=
  (messages.getLast?.map fun c => c.position.chunkIndex).getD 0

/-- `await self.window(inbox, window, require_ack)`, with `window = []` after it. -/
def Sender.beginWindow (s : Sender) (settings : Settings) (now : ℚ) (st : Streaming)
    (requireAck : Bool) : Sender :=
  s.beginAttempt settings now
    (attempt requireAck false (lastIndex st.window) (st.window.map fun c => (c, none)))
    { st with window := [] }

/-- The window is due after a chunk. -/
def boundary (d : Delivery) (origin index : ℕ) : Bool :=
  ((index : ℤ) - origin) % windowSize = windowSize - 1 ∨ (index : ℤ) = d.totalChunks - 1

/-- The body of the loop of `stream`. -/
def Sender.pulled (s : Sender) (settings : Settings) (d : Delivery) (now : ℚ) (st : Streaming)
    (p : Position) (rest : List Position) (raw : Bytes) : Sender :=
  let origin := st.origin.getD p.chunkIndex
  let st := { st with rest := rest
                      window := st.window ++ [p.message s.transferId raw]
                      origin := some origin }
  let due := boundary d origin p.chunkIndex
  if due ∨ st.window.length = windowSize then s.beginWindow settings now st due
  else { s with pc := .stream st }

/-- The end of the loop of `stream`, and what follows it in `run`. -/
def Sender.exhausted (s : Sender) (settings : Settings) (now : ℚ) (st : Streaming) : Sender :=
  if st.window ≠ [] then s.beginWindow settings now st false
  else
    let s := { s with
      retryDeadline := if s.completionStarted then s.retryDeadline else none
      completionStarted := true }
    { s.startBudget settings now with pc := .top false }

/-- `consume` -/
def consume (d : Delivery) (transferId : String) (w : Window) (reply : Dict) :
    Except Raised Window := do
  let data ← resultOf reply
  let w := { w with
    pending := discard w.pending (get reply "request_id")
    replies := w.replies ++ [reply] }
  if get data "action" = ackAction then
    if get data "transfer_id" ≠ .str transferId then refusal (.str "wrong_ack_transfer")
    else match get data "acked_through_index" with
      | .int ackedIndex =>
        if ackedIndex < 0 ∨ ackedIndex ≥ d.totalChunks then refusal (.str "invalid_ack")
        else if ackedIndex < w.expected then return w
        else
          let status := match get data "status" with
            | .str s => s
            | _ => ""
          match validateAck ⟨status, ackedIndex⟩ w.expected transferId with
          | .ok _ => return { w with pending := [], ackNeeded := false }
          | .error _ => refusal (.str "invalid_ack")
      | _ => refusal (.str "invalid_ack")
  else if get data "success" ≠ .bool true then refusal (.str "invalid_chunk_response")
  else return w

/-- An exception inside an attempt: a timeout leads to one more. -/
def Sender.windowRaised (s : Sender) (settings : Settings) (now : ℚ) (w : Window) (st : Streaming)
    (e : Raised) : Sender :=
  if e.type = "TimeoutError" then
    if w.again then
      s.handle settings now .chunk ⟨"TimeoutError", "No ACK after manifest window retry"⟩
    else s.beginAttempt settings now
      (attempt w.requireAck true w.expected (w.sent.map (fun p => (p.1, some p.2)) ++ w.todo)) st
  else s.handle settings now .chunk e

/-- The end of an attempt. -/
def Sender.windowEnded (s : Sender) (w : Window) (st : Streaming) : Sender :=
  { s with
    sent := s.sent + w.sent.length
    highwater := max s.highwater w.expected
    retryDeadline := if (w.expected : ℤ) > s.highwater ∧ s.completionStarted = false then none
      else s.retryDeadline
    phase := s.phase.map fun p =>
      { p with ended := p.ended ++ [⟨w.sent, w.expected, s.transferId, w.replies⟩] }
    pc := .stream st }

/-! ## Steps -/

/-- The request ids on the channel. -/
def Wire.requestId : Wire → String
  | .request _ _ id => id
  | .chunk _ id => id

/-- `uuid4()` -/
def Sender.fresh (s : Sender) (id : String) : Prop := id ∉ s.wire.map Wire.requestId

/-- What happens in a step. -/
inductive SenderEvent where
  | arrive (message : Dict)
  | disconnect
  | begin (now : ℚ)
  | request (stage : Stage) (requestId : String)
  | requestRaised (stage : Stage) (requestId : String) (e : Raised) (now : ℚ)
  | receive (stage : Stage) (item : Item) (now : ℚ)
  | replyTimeout (now : ℚ)
  | pull (raw : Bytes) (now : ℚ)
  | pullRaised (e : Raised) (now : ℚ)
  | exhausted (now : ℚ)
  | chunk (requestId : String)
  | chunkRaised (requestId : String) (e : Raised) (now : ℚ)
  | windowReceive (item : Item) (now : ℚ)
  | drained
  | windowTimeout (now : ℚ)
  | windowEnded
  | wake (now : ℚ)

/-- What `receive` gives or raises. -/
def Item.result : Item → Except Raised Dict
  | .message m => .ok m
  | .disconnected => .error connectionError

/-- The next state of a computation, or what the handlers of `run` make of its exception. -/
def Sender.orHandle (r : Except Raised Sender) (handler : Raised → Sender) : Sender :=
  match r with
  | .ok s => s
  | .error e => handler e

/-- `queue.get` -/
def Sender.dequeued (s : Sender) (queue : List Item) : Sender :=
  { s with inbox := { s.inbox with queue := queue } }

/-- The end of `exchange`, and what follows it in `run`. -/
def Sender.received (s : Sender) (settings : Settings) (d : Delivery) (now : ℚ) (stage : Stage)
    (item : Item) : Sender :=
  Sender.orHandle (item.result >>= s.replied d stage) (s.handle settings now stage)

/-- `consume` of what `receive` gives. -/
def Sender.windowReceived (s : Sender) (settings : Settings) (d : Delivery) (now : ℚ) (w : Window)
    (st : Streaming) (item : Item) : Sender :=
  Sender.orHandle
    ((item.result >>= consume d s.transferId w).map fun w => { s with pc := .window w st })
    (s.windowRaised settings now w st)

/-- A message is put on the channel with its request id. -/
def Sender.puts (s : Sender) (message : Wire) : Sender :=
  { s with inbox := { s.inbox with pending := message.requestId :: s.inbox.pending }
           wire := s.wire ++ [message] }

/-- A message of a window goes under a new request id, or under the one it has. -/
def Sender.numbered (s : Sender) (known : Option String) (id : String) : Prop :=
  match known with
  | none => s.fresh id
  | some i => id = i

/-- **One step of `run`**, up to its next await. -/
inductive SenderStep (settings : Settings) (d : Delivery) : Sender → SenderEvent → Sender → Prop
  | arrive {s : Sender} {message : Dict} :
    SenderStep settings d s (.arrive message) { s with inbox := (s.inbox.dispatch message).1 }
  | disconnect {s : Sender} :
    SenderStep settings d s .disconnect
      { s with inbox := { s.inbox with queue := s.inbox.queue ++ [.disconnected] } }
  | begin {s : Sender} {now : ℚ} {needMetadata : Bool} : s.pc = .top needMetadata →
    SenderStep settings d s (.begin now) (s.beginExchange settings now (stageOf needMetadata))
  | request {s : Sender} {stage : Stage} {id : String} : s.pc = .request stage → s.fresh id →
    SenderStep settings d s (.request stage id)
      { s.puts (.request stage s.transferId id) with pc := .reply stage }
  -- the message may have left before the exception
  | requestRaised {s : Sender} {stage : Stage} {id : String} {e : Raised} {now : ℚ} :
    s.pc = .request stage → s.fresh id → e.type ∈ ["TimeoutError", "ConnectionError"] →
    SenderStep settings d s (.requestRaised stage id e now)
      ((s.puts (.request stage s.transferId id)).handle settings now stage e)
  | receive {s : Sender} {stage : Stage} {item : Item} {queue : List Item} {now : ℚ} :
    s.pc = .reply stage → s.inbox.queue = item :: queue →
    SenderStep settings d s (.receive stage item now)
      ((s.dequeued queue).received settings d now stage item)
  | replyTimeout {s : Sender} {stage : Stage} {now : ℚ} :
    s.pc = .reply stage ∨ s.pc = .request stage →
    SenderStep settings d s (.replyTimeout now)
      (s.handle settings now stage ⟨"TimeoutError", ""⟩)
  | pull {s : Sender} {st : Streaming} {p : Position} {rest : List Position} {raw : Bytes}
      {now : ℚ} :
    s.pc = .stream st → st.rest = p :: rest → raw.length = p.length →
    SenderStep settings d s (.pull raw now) (s.pulled settings d now st p rest raw)
  | pullRaised {s : Sender} {st : Streaming} {e : Raised} {now : ℚ} : s.pc = .stream st →
    SenderStep settings d s (.pullRaised e now) (s.handle settings now .chunk e)
  | exhausted {s : Sender} {st : Streaming} {now : ℚ} : s.pc = .stream st → st.rest = [] →
    SenderStep settings d s (.exhausted now) (s.exhausted settings now st)
  | chunk {s : Sender} {w : Window} {st : Streaming} {c : ManifestChunk} {known : Option String}
      {todo : List (ManifestChunk × Option String)} {id : String} :
    s.pc = .window w st → w.todo = (c, known) :: todo → (w.draining = true → s.inbox.queue = []) →
    s.numbered known id →
    SenderStep settings d s (.chunk id)
      { s.puts (.chunk c id) with
        pc := .window { w with
          sent := w.sent ++ [(c, id)]
          todo := todo
          pending := id :: w.pending
          draining := true } st }
  | chunkRaised {s : Sender} {w : Window} {st : Streaming} {c : ManifestChunk} {known : Option String}
      {todo : List (ManifestChunk × Option String)} {id : String} {e : Raised} {now : ℚ} :
    s.pc = .window w st → w.todo = (c, known) :: todo → (w.draining = true → s.inbox.queue = []) →
    s.numbered known id → e.type ∈ ["TimeoutError", "ConnectionError"] →
    SenderStep settings d s (.chunkRaised id e now)
      ((s.puts (.chunk c id)).windowRaised settings now { w with todo := (c, some id) :: todo } st e)
  | windowReceive {s : Sender} {w : Window} {st : Streaming} {item : Item} {queue : List Item}
      {now : ℚ} :
    s.pc = .window w st → s.inbox.queue = item :: queue →
    (w.draining = true ∨ (w.todo = [] ∧ (w.pending ≠ [] ∨ w.ackNeeded = true))) →
    SenderStep settings d s (.windowReceive item now)
      ((s.dequeued queue).windowReceived settings d now w st item)
  | drained {s : Sender} {w : Window} {st : Streaming} : s.pc = .window w st → w.todo = [] →
    w.draining = true → s.inbox.queue = [] →
    SenderStep settings d s .drained { s with pc := .window { w with draining := false } st }
  | windowTimeout {s : Sender} {w : Window} {st : Streaming} {now : ℚ} : s.pc = .window w st →
    SenderStep settings d s (.windowTimeout now)
      (s.windowRaised settings now w st ⟨"TimeoutError", ""⟩)
  | windowEnded {s : Sender} {w : Window} {st : Streaming} : s.pc = .window w st → w.todo = [] →
    w.draining = false → w.pending = [] → w.ackNeeded = false →
    SenderStep settings d s .windowEnded (s.windowEnded w st)
  | wake {s : Sender} {needMetadata : Bool} {now : ℚ} : s.pc = .pausing needMetadata →
    SenderStep settings d s (.wake now)
      { s with pc := if s.overBudget now then .raised budgetExhausted else .top needMetadata }

/-- `deliver_manifest` after `run`: what is logged of the delivery, if the
    exception is one that it catches. -/
def Sender.logged (s : Sender) : Option String :=
  match s.pc with
  | .returned _ => some "completed"
  | .raised e =>
    if e.type ∈ ["Refusal", "TimeoutError", "ConnectionError", "OSError", "ValueError"] then
      some "failed"
    else none
  | _ => none

end Fulfillment

end AimData
