/-
  The gate for the tools of the assistant: which tools run.

  A message of the user is answered by an executor, to which the model gives tool calls.  A call
  is checked (`route`), and then its tool runs at once, or waits for the approval of the user
  under a token.  Messages, confirmations and the runs of tools interleave at their awaits.  A tool
  that changes something runs only after its own call was approved, and once (`tool_gate`).
-/
import AimData.Approval.Tokens
import AimData.Dataset.Record
import AimData.Lib.Since

namespace AimData

namespace ToolGate

open Approval (MutationTool mutationTools)

/-! ## Tools -/

def readOnlyTools : List String :=
  ["list_datasets", "get_dataset_detail", "preview_rows", "run_sql_query", "get_system_status",
    "get_dataset_statistics", "connectivity_status", "get_notifications", "get_tunnel_status",
    "generate_diagnostic_bundle", "connectivity_test", "connectivity_generate_setup"]

def autoApproveTools : List String :=
  ["log_feedback", "submit_feedback", "create_notification", "prepare_support_bundle",
    "create_artifact", "create_artifact_from_query", "update_listing_title",
    "update_listing_description", "set_listing_category", "regenerate_listing_metadata"]

def mutationNames : List String := mutationTools.map MutationTool.name

def allClassifiedTools : List String := readOnlyTools ++ autoApproveTools ++ mutationNames

def toolCapabilities : List (String × List String) :=
  [("list_datasets", ["data:read"]), ("get_dataset_detail", ["data:read"]),
    ("preview_rows", ["data:read"]), ("run_sql_query", ["data:read"]),
    ("get_system_status", ["system:read"]), ("get_dataset_statistics", ["data:read"]),
    ("connectivity_status", ["connectivity:read"]), ("get_notifications", ["system:read"]),
    ("get_tunnel_status", ["connectivity:read"]), ("generate_diagnostic_bundle", ["system:read"]),
    ("connectivity_test", ["connectivity:read"]),
    ("connectivity_generate_setup", ["connectivity:read"]), ("log_feedback", ["feedback:write"]),
    ("submit_feedback", ["feedback:write"]), ("create_notification", ["system:write"]),
    ("prepare_support_bundle", ["system:read"]), ("create_artifact", ["data:read"]),
    ("create_artifact_from_query", ["data:read"]), ("update_listing_title", ["data:write"]),
    ("update_listing_description", ["data:write"]), ("set_listing_category", ["data:write"]),
    ("regenerate_listing_metadata", ["data:write"]), ("delete_dataset", ["data:delete"]),
    ("connectivity_enable", ["connectivity:write"]),
    ("connectivity_disable", ["connectivity:write"]),
    ("connectivity_create_token", ["connectivity:write"]),
    ("connectivity_revoke_token", ["connectivity:write"]),
    ("start_public_tunnel", ["connectivity:write"]),
    ("stop_public_tunnel", ["connectivity:write"])]

def allCapabilities : List String := toolCapabilities.flatMap Prod.snd

/-- `get_user_capabilities`: every capability, of any user. -/
def getUserCapabilities (_userId : String) : List String := allCapabilities

/-- `check_capabilities`: the error, or `none`. -/
def checkCapabilities (userId toolName : String) : Option String :=
  match toolCapabilities.lookup toolName with
  | none => some ("Tool '" ++ toolName ++ "' has no capability mapping — denied by default")
  | some required =>
    let missing := required.filter fun cap => cap ∉ getUserCapabilities userId
    if missing ≠ [] then
      some ("Missing capabilities: \x7b'" ++ String.intercalate "', '" missing ++ "'\x7d")
    else none

/-! ## The checks of a call -/

/-- A dictionary. -/
abbrev Fields := List (String × Json)

/-- What the checks ask of the other services, and how a value is written in a text. -/
structure Services where
  ownsDataset : Json → Bool
  ownsListing : Json → Bool
  originalFilename : Json → Option String
  str : Json → String

structure ToolResult where
  frontendData : Json
  llmSummary : String

def listingTools : List String :=
  ["update_listing_title", "update_listing_description", "set_listing_category",
    "regenerate_listing_metadata"]

/-- `_authorize` -/
def authorize (services : Services) (toolName : String) (toolInput : Fields) :
    Except String Unit :=
  if toolName ∈ listingTools then
    match toolInput.lookup "listing_id" with
    | none => .error "listing_id is required"
    | some listingId =>
      if ¬ Dataset.truthy (some listingId) then .error "listing_id is required"
      else if ¬ services.ownsListing listingId then
        .error ("Listing '" ++ services.str listingId ++ "' not found or not owned by user")
      else .ok ()
  else
    match toolInput.lookup "dataset_id" with
    | none => .ok ()
    | some datasetId =>
      if Dataset.truthy (some datasetId) ∧ ¬ services.ownsDataset datasetId then
        .error ("Dataset '" ++ services.str datasetId ++ "' not found or not owned by user")
      else .ok ()

/-- The description in `_get_resource_details` -/
def resourceDescription (services : Services) (toolName : String) (toolInput : Fields) : String :=
  if toolName = "delete_dataset" then
    let datasetId := (toolInput.lookup "dataset_id").getD (.str "unknown")
    let filename := (services.originalFilename datasetId).getD (services.str datasetId)
    "Delete dataset '" ++ filename ++ "' and all processed data"
  else "Execute " ++ toolName

def maxToolCallsPerMessage : ℕ := 5

/-- Where `execute` sends a call. -/
inductive Route where
  | refused (result : ToolResult)
  | approval
  | run

/-- The result of a refusal. -/
def ToolResult.error (error llmSummary : String) : ToolResult :=
  ⟨.obj [("error", .str error)], llmSummary⟩

/-- `execute` up to its route, with the count that it has just raised. -/
def route (services : Services) (userId : String) (callCount : ℕ) (toolName : String)
    (toolInput : Fields) : Route :=
  if maxToolCallsPerMessage < callCount then
    .refused (.error "Tool call limit reached (5 per message)"
      ("Tool call limit reached (5 per message). " ++
        "Ask the user to send another message to continue."))
  else
    match checkCapabilities userId toolName with
    | some capError => .refused (.error capError ("Authorization failed: " ++ capError))
    | none =>
      if toolName ∉ allClassifiedTools then
        .refused (.error ("Tool '" ++ toolName ++ "' is not classified — denied")
          ("Tool '" ++ toolName ++ "' is not classified and was denied."))
      else
        match authorize services toolName toolInput with
        | .error authErr =>
          .refused (.error ("Not authorized: " ++ authErr) ("Authorization failed: " ++ authErr))
        | .ok () => if toolName ∈ mutationNames then .approval else .run

/-- What a call has passed that is not refused. -/
structure Passed (services : Services) (userId : String) (callCount : ℕ) (toolName : String)
    (toolInput : Fields) : Prop where
  count : callCount ≤ maxToolCallsPerMessage
  capable : checkCapabilities userId toolName = none
  classified : toolName ∈ allClassifiedTools
  authorized : authorize services toolName toolInput = .ok ()

section
variable {services : Services} {userId toolName : String} {callCount : ℕ} {toolInput : Fields}

theorem passed (h : ∀ result, route services userId callCount toolName toolInput ≠
    .refused result) : Passed services userId callCount toolName toolInput := by
  rw [route] at h
  by_cases hcount : maxToolCallsPerMessage < callCount
  · rw [if_pos hcount] at h
    exact absurd rfl (h _)
  rw [if_neg hcount] at h
  cases hcapable : checkCapabilities userId toolName with
  | some capError =>
    rw [hcapable] at h
    exact absurd rfl (h _)
  | none =>
    rw [hcapable] at h
    by_cases hclassified : toolName ∈ allClassifiedTools
    · dsimp only at h
      rw [if_neg (not_not.2 hclassified)] at h
      cases hauthorized : authorize services toolName toolInput with
      | error authErr =>
        rw [hauthorized] at h
        exact absurd rfl (h _)
      | ok => exact ⟨not_lt.1 hcount, hcapable, hclassified, hauthorized⟩
    · dsimp only at h
      rw [if_pos hclassified] at h
      exact absurd rfl (h _)

theorem Passed.route (h : Passed services userId callCount toolName toolInput) :
    route services userId callCount toolName toolInput =
      if toolName ∈ mutationNames then .approval else .run := by
  rw [ToolGate.route, if_neg (not_lt.2 h.count), h.capable]
  dsimp only
  rw [if_neg (not_not.2 h.classified), h.authorized]

theorem route_approval (h : route services userId callCount toolName toolInput = .approval) :
    Passed services userId callCount toolName toolInput ∧ toolName ∈ mutationNames := by
  have hpassed := passed fun result hrefused => nomatch h.symm.trans hrefused
  rw [hpassed.route] at h
  split_ifs at h with hmutation
  exact ⟨hpassed, hmutation⟩

theorem route_run (h : route services userId callCount toolName toolInput = .run) :
    Passed services userId callCount toolName toolInput ∧ toolName ∉ mutationNames := by
  have hpassed := passed fun result hrefused => nomatch h.symm.trans hrefused
  rw [hpassed.route] at h
  split_ifs at h with hmutation
  exact ⟨hpassed, hmutation⟩

end

/-! ## Executors and confirmations -/

/-- Where the executor of a message stands. -/
inductive Stage where
  | idle
  /-- a call has passed the checks, and its tool has not run yet -/
  | ready (toolName : String) (toolInput : Fields)

structure Executor where
  userId : String
  sessionId : String
  callCount : ℕ
  stage : Stage

/-- A call that was approved, on the way to its tool. -/
structure Execution where
  tokenId : String
  toolName : String
  toolInput : Json
  deriving DecidableEq

/-- The service of the approvals, the executors of the messages, and the approved calls. -/
structure State where
  approvals : Approval.System
  executors : ℕ → Option Executor
  approved : List Execution

def State.start (clock : ℚ) : State := ⟨.start clock, fun _ => none, []⟩

def State.set (s : State) (task : ℕ) (x : Executor) : State :=
  { s with executors := Function.update s.executors task (some x) }

inductive Event where
  | message (task : ℕ) (userId sessionId : String)
  | refuse (task : ℕ) (toolName : String) (toolInput : Fields) (result : ToolResult)
  | pass (task : ℕ) (toolName : String) (toolInput : Fields)
  | request (task : ℕ) (toolName : String) (toolInput : Fields) (request : Approval.Request)
    (token : Approval.ApprovalToken)
  | confirm (tokenId userId sessionId : String) (now : ℚ) (result : Approval.ApprovalResult)
  | dispatch (task : ℕ) (toolName : String) (toolInput : Fields)
  | dispatchApproved (tokenId toolName : String) (toolInput : Json)
  | abandon

/-- What a task does between two awaits. -/
inductive Step : State → Event → State → Prop
  | message {s : State} {task : ℕ} {userId sessionId : String} : s.executors task = none →
    Step s (.message task userId sessionId) (s.set task ⟨userId, sessionId, 0, .idle⟩)
  | refuse {s : State} {task : ℕ} {x : Executor} {services : Services} {toolName : String}
    {toolInput : Fields} {result : ToolResult} : s.executors task = some x → x.stage = .idle →
    route services x.userId (x.callCount + 1) toolName toolInput = .refused result →
    Step s (.refuse task toolName toolInput result)
      (s.set task { x with callCount := x.callCount + 1 })
  | pass {s : State} {task : ℕ} {x : Executor} {services : Services} {toolName : String}
    {toolInput : Fields} : s.executors task = some x → x.stage = .idle →
    route services x.userId (x.callCount + 1) toolName toolInput = .run →
    Step s (.pass task toolName toolInput)
      (s.set task { x with callCount := x.callCount + 1, stage := .ready toolName toolInput })
  /-- `_request_approval` -/
  | request {s : State} {task : ℕ} {x : Executor} {services : Services} {toolName : String}
    {toolInput : Fields} {request : Approval.Request} {token : Approval.ApprovalToken}
    {approvals : Approval.System} : s.executors task = some x → x.stage = .idle →
    route services x.userId (x.callCount + 1) toolName toolInput = .approval →
    request = ⟨x.userId, x.sessionId, toolName, .obj toolInput,
      resourceDescription services toolName toolInput⟩ →
    Approval.Step s.approvals (.create request token) approvals →
    Step s (.request task toolName toolInput request token)
      ({ s with approvals := approvals }.set task { x with callCount := x.callCount + 1 })
  /-- A `CONFIRM_ACTION` of the user, which is carried out if its approval succeeds. -/
  | confirm {s : State} {tokenId userId sessionId : String} {now : ℚ}
    {result : Approval.ApprovalResult} {approvals : Approval.System} :
    Approval.Step s.approvals (.validate tokenId userId sessionId now result) approvals →
    result.success = true →
    Step s (.confirm tokenId userId sessionId now result)
      { s with
        approvals := approvals
        approved := ⟨tokenId, result.toolName, result.toolInput⟩ :: s.approved }
  /-- The approval fails; or the socket has had no message yet, and knows no user. -/
  | confirmFailed {s : State} {tokenId userId sessionId : String} {now : ℚ}
    {result : Approval.ApprovalResult} {approvals : Approval.System} :
    Approval.Step s.approvals (.validate tokenId userId sessionId now result) approvals →
    Step s (.confirm tokenId userId sessionId now result) { s with approvals := approvals }
  | dispatch {s : State} {task : ℕ} {x : Executor} {toolName : String} {toolInput : Fields} :
    s.executors task = some x → x.stage = .ready toolName toolInput →
    Step s (.dispatch task toolName toolInput) (s.set task { x with stage := .idle })
  | dispatchApproved {s : State} {x : Execution} : x ∈ s.approved →
    Step s (.dispatchApproved x.tokenId x.toolName x.toolInput)
      { s with approved := s.approved.erase x }
  /-- The message is stopped, or its socket is lost, before a tool runs. -/
  | abandon {s : State} {task : ℕ} {x : Executor} : s.executors task = some x →
    Step s .abandon (s.set task { x with stage := .idle })
  | abandonApproved {s : State} {x : Execution} : x ∈ s.approved →
    Step s .abandon { s with approved := s.approved.erase x }

/-! ## What the events say -/

namespace Event

/-- The calls of the approval service. -/
def approvals : Event → List Approval.Event
  | request _ _ _ asked token => [.create asked token]
  | confirm tokenId userId sessionId now result =>
    [.validate tokenId userId sessionId now result]
  | _ => []

/-- A call to the executor of the task. -/
def calls (task : ℕ) : Event → Bool
  | refuse i _ _ _ | pass i _ _ | request i _ _ _ _ => i = task
  | _ => false

def dispatches (task : ℕ) : Event → Bool
  | dispatch i _ _ => i = task
  | _ => false

def requests (task : ℕ) : Event → Bool
  | request i _ _ _ _ => i = task
  | _ => false

def dispatchesApproved (tokenId : String) : Event → Bool
  | dispatchApproved id _ _ => id = tokenId
  | _ => false

end Event

def approvalEvents (es : List Event) : List Approval.Event := es.flatMap Event.approvals

/-- The calls, the tools run and the requests for an approval of a message. -/
def calls (es : List Event) (task : ℕ) : ℕ := es.countP (Event.calls task)

def dispatches (es : List Event) (task : ℕ) : ℕ := es.countP (Event.dispatches task)

def requests (es : List Event) (task : ℕ) : ℕ := es.countP (Event.requests task)

/-- The call passes the checks after the events, and is one of the first five of its message. -/
def Checked (es : List Event) (task : ℕ) (userId sessionId toolName : String)
    (toolInput : Fields) : Prop :=
  .message task userId sessionId ∈ es ∧
    ∃ services, Passed services userId (calls es task + 1) toolName toolInput

/-- The tool is one that runs at once, its call has passed the checks, and no tool of the
    message has run since. -/
def Cleared (es : List Event) (task : ℕ) (toolName : String) (toolInput : Fields) : Prop :=
  toolName ∉ mutationNames ∧ Since (fun es e => e = .pass task toolName toolInput ∧
      ∃ userId sessionId, Checked es task userId sessionId toolName toolInput)
    (fun e => e.dispatches task = false) es

/-- A call with the tool and the input of the request has passed the checks, for the user and the
    session of the request, and has asked for an approval under the token. -/
def Requested (es : List Event) (request : Approval.Request) (token : Approval.ApprovalToken) :
    Prop :=
  request.toolName ∈ mutationNames ∧ Once (fun es e => ∃ task fields,
    e = .request task request.toolName fields request token ∧ request.toolInput = .obj fields ∧
    Checked es task request.userId request.sessionId request.toolName fields) es

/-- The tool is one that waits for an approval, and was asked for under the token; the user of the
    message has then confirmed it in the session of the message and in time; and the token has
    run no tool before. -/
def Confirmed (es : List Event) (tokenId toolName : String) (toolInput : Json) : Prop :=
  (∀ e ∈ es, e.dispatchesApproved tokenId = false) ∧ Once (fun es e => ∃ request token now result,
    e = .confirm tokenId request.userId request.sessionId now result ∧ result.success = true ∧
    token.id = tokenId ∧ now ≤ token.expiresAt ∧ request.toolName = toolName ∧
    request.toolInput = toolInput ∧ Requested es request token) es

/-! ## Runs -/

/-- What an executor still owes to a call that has passed. -/
def Stage.due : Stage → ℕ
  | .idle => 0
  | .ready _ _ => 1

/-- The executor of a message is what its events have made it. -/
structure Follows (es : List Event) (task : ℕ) (x : Executor) : Prop where
  opened : .message task x.userId x.sessionId ∈ es
  count : x.callCount = calls es task
  spent : dispatches es task + requests es task + x.stage.due ≤ calls es task
  bounded : dispatches es task + requests es task + x.stage.due ≤ maxToolCallsPerMessage
  cleared : ∀ toolName toolInput, x.stage = .ready toolName toolInput →
    Cleared es task toolName toolInput

structure Inv (es : List Event) (s : State) : Prop where
  approvals : Approval.Inv (approvalEvents es) s.approvals
  executors : ∀ task x, s.executors task = some x → Follows es task x
  unopened : ∀ task, s.executors task = none → calls es task = 0 ∧
    dispatches es task = 0 ∧ requests es task = 0
  requested : ∀ task toolName toolInput request token,
    .request task toolName toolInput request token ∈ es → Requested es request token
  approved : ∀ x ∈ s.approved, Confirmed es x.tokenId x.toolName x.toolInput
  nodup : (s.approved.map Execution.tokenId).Nodup
  dispatched : ∀ tokenId, (∃ e ∈ es, e.dispatchesApproved tokenId = true) →
    ¬ Approval.Open (approvalEvents es) tokenId

/-- The event is of another message. -/
structure Event.Foreign (e : Event) (task : ℕ) : Prop where
  calls : e.calls task = false
  dispatches : e.dispatches task = false
  requests : e.requests task = false

section
variable {es es₁ es₂ : List Event} {e : Event} {s s' : State} {task : ℕ}
  {userId sessionId toolName tokenId : String} {toolInput : Fields}

theorem inv_start {clock : ℚ} : Inv [] (.start clock) where
  approvals := Approval.inv_start
  executors := fun _ _ h => nomatch h
  unopened := fun _ _ => ⟨rfl, rfl, rfl⟩
  requested := fun _ _ _ _ _ h => absurd h List.not_mem_nil
  approved := fun _ h => absurd h List.not_mem_nil
  nodup := List.nodup_nil
  dispatched := fun _ ⟨_, h, _⟩ => absurd h List.not_mem_nil

theorem calls_append : calls (es ++ [e]) task = calls es task + if e.calls task then 1 else 0 := by
  rw [calls, calls, List.countP_append, List.countP_singleton]

theorem dispatches_append :
    dispatches (es ++ [e]) task = dispatches es task + if e.dispatches task then 1 else 0 := by
  rw [dispatches, dispatches, List.countP_append, List.countP_singleton]

theorem requests_append :
    requests (es ++ [e]) task = requests es task + if e.requests task then 1 else 0 := by
  rw [requests, requests, List.countP_append, List.countP_singleton]

/-- How a step moves the executor of a message. -/
inductive Moved (s : State) (e : Event) (task : ℕ) (s' : State) : Prop
  | same : e.Foreign task → s'.executors task = s.executors task → Moved s e task s'
  | opened {userId sessionId : String} : e = .message task userId sessionId →
    s.executors task = none → s'.executors task = some ⟨userId, sessionId, 0, .idle⟩ →
    Moved s e task s'
  | refused {x : Executor} {toolName : String} {toolInput : Fields} {result : ToolResult} :
    e = .refuse task toolName toolInput result → s.executors task = some x → x.stage = .idle →
    s'.executors task = some { x with callCount := x.callCount + 1 } → Moved s e task s'
  | passed {x : Executor} {services : Services} {toolName : String} {toolInput : Fields} :
    e = .pass task toolName toolInput → s.executors task = some x → x.stage = .idle →
    route services x.userId (x.callCount + 1) toolName toolInput = .run →
    s'.executors task =
      some { x with callCount := x.callCount + 1, stage := .ready toolName toolInput } →
    Moved s e task s'
  | requested {x : Executor} {services : Services} {toolName : String} {toolInput : Fields}
    {request : Approval.Request} {token : Approval.ApprovalToken} :
    e = .request task toolName toolInput request token → s.executors task = some x →
    x.stage = .idle → route services x.userId (x.callCount + 1) toolName toolInput = .approval →
    s'.executors task = some { x with callCount := x.callCount + 1 } → Moved s e task s'
  | dispatched {x : Executor} {toolName : String} {toolInput : Fields} :
    e = .dispatch task toolName toolInput → s.executors task = some x →
    x.stage = .ready toolName toolInput →
    s'.executors task = some { x with stage := .idle } → Moved s e task s'
  | abandoned {x : Executor} : e = .abandon → s.executors task = some x →
    s'.executors task = some { x with stage := .idle } → Moved s e task s'

theorem set_self {x : Executor} : (s.set task x).executors task = some x := Function.update_self ..

theorem set_of_ne {i : ℕ} {x : Executor} (h : task ≠ i) :
    (s.set i x).executors task = s.executors task := Function.update_of_ne h ..

theorem moved (hstep : Step s e s') (task : ℕ) : Moved s e task s' := by
  cases hstep with
  | @message i _ _ hnone =>
    by_cases h : task = i
    · subst h
      exact .opened rfl hnone set_self
    · exact .same ⟨rfl, rfl, rfl⟩ (set_of_ne h)
  | @refuse i _ _ _ _ _ hx hidle =>
    by_cases h : task = i
    · subst h
      exact .refused rfl hx hidle set_self
    · exact .same ⟨decide_eq_false (Ne.symm h), rfl, rfl⟩ (set_of_ne h)
  | @pass i _ _ _ _ hx hidle hroute =>
    by_cases h : task = i
    · subst h
      exact .passed rfl hx hidle hroute set_self
    · exact .same ⟨decide_eq_false (Ne.symm h), rfl, rfl⟩ (set_of_ne h)
  | @request i _ _ _ _ _ _ _ hx hidle hroute =>
    by_cases h : task = i
    · subst h
      exact .requested rfl hx hidle hroute (set_self (s := { s with approvals := _ }))
    · exact .same ⟨decide_eq_false (Ne.symm h), rfl, decide_eq_false (Ne.symm h)⟩
        (set_of_ne (s := { s with approvals := _ }) h)
  | confirm | confirmFailed | dispatchApproved | abandonApproved =>
    exact .same ⟨rfl, rfl, rfl⟩ rfl
  | @dispatch i _ _ _ hx hready =>
    by_cases h : task = i
    · subst h
      exact .dispatched rfl hx hready set_self
    · exact .same ⟨rfl, decide_eq_false (Ne.symm h), rfl⟩ (set_of_ne h)
  | @abandon i _ hx =>
    by_cases h : task = i
    · subst h
      exact .abandoned rfl hx set_self
    · exact .same ⟨rfl, rfl, rfl⟩ (set_of_ne h)

theorem Confirmed.append {toolInput : Json} (h : Confirmed es tokenId toolName toolInput)
    (he : e.dispatchesApproved tokenId = false) :
    Confirmed (es ++ [e]) tokenId toolName toolInput :=
  ⟨List.forall_mem_append.2 ⟨h.1, List.forall_mem_singleton.2 he⟩, Once.append h.2⟩

theorem foreign_counts (h : e.Foreign task) : calls (es ++ [e]) task = calls es task ∧
    dispatches (es ++ [e]) task = dispatches es task ∧
    requests (es ++ [e]) task = requests es task := by
  rw [calls_append, dispatches_append, requests_append, h.calls, h.dispatches, h.requests]
  exact ⟨rfl, rfl, rfl⟩

/-- An executor goes on: it spends what it owes, or what a call has just given it. -/
theorem Follows.next {x x' : Executor} (h : Follows es task x) (huser : x'.userId = x.userId)
    (hsession : x'.sessionId = x.sessionId)
    (hcount : x'.callCount = x.callCount + if e.calls task then 1 else 0)
    (hspent : (if e.dispatches task then 1 else 0) + (if e.requests task then 1 else 0) +
      x'.stage.due ≤ x.stage.due + if e.calls task then 1 else 0)
    (hbounded : x'.callCount ≤ maxToolCallsPerMessage ∨
      (if e.dispatches task then 1 else 0) + (if e.requests task then 1 else 0) + x'.stage.due ≤
        x.stage.due)
    (hcleared : ∀ toolName toolInput, x'.stage = .ready toolName toolInput →
      Cleared (es ++ [e]) task toolName toolInput) : Follows (es ++ [e]) task x' := by
  have hcount' := h.count
  have hspent' := h.spent
  have hbounded' := h.bounded
  refine ⟨?_, ?_, ?_, ?_, hcleared⟩
  · rw [huser, hsession]
    exact List.mem_append_left _ h.opened
  · rw [calls_append, hcount, hcount']
  · rw [calls_append, dispatches_append, requests_append]
    omega
  · rw [dispatches_append, requests_append]
    omega

theorem Inv.follows (h : Inv es s) (hstep : Step s e s') {x' : Executor}
    (hx' : s'.executors task = some x') : Follows (es ++ [e]) task x' := by
  cases moved hstep task with
  | same he hsame =>
    have hfollows := h.executors task x' (hsame ▸ hx')
    refine hfollows.next rfl rfl ?_ ?_ (Or.inr ?_) fun _ _ hready =>
      (hfollows.cleared _ _ hready).imp_right (·.append he.dispatches)
    all_goals simp [he.calls, he.dispatches, he.requests]
  | opened he hnone hset =>
    obtain ⟨hcalls, hdispatches, hrequests⟩ := h.unopened task hnone
    obtain rfl := Option.some.inj (hset.symm.trans hx')
    subst he
    refine ⟨List.mem_append_right _ (List.mem_singleton.2 rfl), ?_, ?_, ?_, nofun⟩
    all_goals simp [calls_append, dispatches_append, requests_append, hcalls, hdispatches,
      hrequests, Event.calls, Event.dispatches, Event.requests, Stage.due]
  | refused he hx hidle hset =>
    obtain rfl := Option.some.inj (hset.symm.trans hx')
    subst he
    refine (h.executors task _ hx).next rfl rfl ?_ ?_ (Or.inr ?_) fun _ _ hready =>
      nomatch hidle.symm.trans hready
    all_goals simp [Event.calls, Event.dispatches, Event.requests]
  | @passed x services toolName toolInput he hx hidle hroute hset =>
    have hfollows := h.executors task x hx
    obtain ⟨hpassed, hmutation⟩ := route_run hroute
    obtain rfl := Option.some.inj (hset.symm.trans hx')
    subst he
    refine hfollows.next rfl rfl ?_ ?_ (Or.inl hpassed.count) ?_
    · simp [Event.calls]
    · simp [Event.calls, Event.dispatches, Event.requests, Stage.due]
    · rintro _ _ ⟨⟩
      rw [hfollows.count] at hpassed
      exact ⟨hmutation, .last ⟨rfl, x.userId, x.sessionId, hfollows.opened, services, hpassed⟩⟩
  | requested he hx hidle hroute hset =>
    have hfive := (route_approval hroute).1.count
    obtain rfl := Option.some.inj (hset.symm.trans hx')
    subst he
    refine (h.executors task _ hx).next rfl rfl ?_ ?_ (Or.inl hfive) fun _ _ hready =>
      nomatch hidle.symm.trans hready
    · simp [Event.calls]
    · simp [Event.calls, Event.dispatches, Event.requests, hidle, Stage.due]
  | dispatched he hx hready hset =>
    obtain rfl := Option.some.inj (hset.symm.trans hx')
    subst he
    refine (h.executors task _ hx).next rfl rfl ?_ ?_ (Or.inr ?_) nofun
    all_goals simp [Event.calls, Event.dispatches, Event.requests, hready, Stage.due]
  | abandoned he hx hset =>
    obtain rfl := Option.some.inj (hset.symm.trans hx')
    subst he
    refine (h.executors task _ hx).next rfl rfl ?_ ?_ (Or.inr ?_) nofun
    all_goals simp [Event.calls, Event.dispatches, Event.requests, Stage.due]

theorem Inv.unopened_step (h : Inv es s) (hstep : Step s e s') (hnone : s'.executors task = none) :
    calls (es ++ [e]) task = 0 ∧ dispatches (es ++ [e]) task = 0 ∧
      requests (es ++ [e]) task = 0 := by
  cases moved hstep task with
  | same he hsame =>
    obtain ⟨hcalls, hdispatches, hrequests⟩ := @foreign_counts es _ _ he
    rw [hcalls, hdispatches, hrequests]
    exact h.unopened task (hsame ▸ hnone)
  | opened _ _ hset | refused _ _ _ hset | passed _ _ _ _ hset | requested _ _ _ _ hset
  | dispatched _ _ _ hset | abandoned _ _ hset => exact nomatch hset.symm.trans hnone

/-- The calls of the approval service in a step. -/
theorem approvals_step (hstep : Step s e s') :
    (∃ a, e.approvals = [a] ∧ Approval.Step s.approvals a s'.approvals) ∨
      (e.approvals = [] ∧ s'.approvals = s.approvals) := by
  cases hstep with
  | request _ _ _ _ h => exact Or.inl ⟨_, rfl, h⟩
  | confirm h | confirmFailed h => exact Or.inl ⟨_, rfl, h⟩
  | _ => exact Or.inr ⟨rfl, rfl⟩

/-- A request comes from a call that has passed the checks. -/
theorem Inv.requested_step (h : Inv es s) (hstep : Step s e s') {request : Approval.Request}
    {token : Approval.ApprovalToken}
    (hmem : .request task toolName toolInput request token ∈ es ++ [e]) :
    Requested (es ++ [e]) request token := by
  rcases List.mem_append.1 hmem with hmem | hmem
  · exact (h.requested _ _ _ _ _ hmem).imp_right Once.append
  · obtain rfl := List.mem_singleton.1 hmem
    cases hstep with
    | @request _ x services _ _ _ _ _ hx _ hroute hrequest =>
      obtain ⟨hpassed, hmutation⟩ := route_approval hroute
      obtain ⟨hopened, hcount, -⟩ := h.executors task x hx
      rw [hcount] at hpassed
      subst hrequest
      exact ⟨hmutation, .last ⟨task, toolInput, rfl, rfl, hopened, services, hpassed⟩⟩

/-- An approval that succeeds is of a request before, of the same user and session. -/
theorem Inv.confirmed {now : ℚ} {result : Approval.ApprovalResult} {approvals : Approval.System}
    (h : Inv es s) (hstep : Approval.Step s.approvals
      (.validate tokenId userId sessionId now result) approvals)
    (hsuccess : result.success = true) :
    Approval.Open (approvalEvents es) tokenId ∧ ∃ request token,
      Requested es request token ∧ token.id = tokenId ∧ request.userId = userId ∧
      request.sessionId = sessionId ∧ now ≤ token.expiresAt ∧
      result.toolName = request.toolName ∧ result.toolInput = request.toolInput := by
  have hv : Approval.Validated s.approvals.service now tokenId userId sessionId result
      (Approval.validateAndConsume s.approvals.service now tokenId userId sessionId).2 :=
    Approval.step_validate hstep ▸ Approval.validated h.approvals.wf
  generalize (Approval.validateAndConsume s.approvals.service now tokenId userId sessionId).2 =
    service at hv
  cases hv with
  | missing | expired | foreign => exact absurd hsuccess Bool.false_ne_true
  | @consumed token htoken hid hnow huser hsession =>
    obtain ⟨request, hcreated⟩ := h.approvals.created _ htoken
    obtain ⟨_, _, _, hmade⟩ := h.approvals.made request _ hcreated
    obtain ⟨e, he, hmem⟩ := List.mem_flatMap.1 hcreated
    refine ⟨hid ▸ h.approvals.pending _ htoken, ?_⟩
    cases e with
    | request task toolName toolInput asked made =>
      obtain ⟨rfl, rfl⟩ := Approval.Event.create.inj (List.mem_singleton.1 hmem)
      refine ⟨request, token, h.requested _ _ _ _ _ he, hid, ?_, ?_, hnow, ?_, ?_⟩
      · rw [← huser, hmade]
        rfl
      · rw [← hsession, hmade]
        rfl
      · rw [hmade]
        rfl
      · rw [hmade]
        rfl
    | confirm => exact nomatch List.mem_singleton.1 hmem
    | message | refuse | pass | dispatch | dispatchApproved | abandon =>
      exact absurd hmem List.not_mem_nil

theorem approvalEvents_append : approvalEvents (es ++ [e]) = approvalEvents es ++ e.approvals := by
  rw [approvalEvents, List.flatMap_append, List.flatMap_singleton, approvalEvents]

theorem not_open_append (h : ¬ Approval.Open (approvalEvents es) tokenId) :
    ¬ Approval.Open (approvalEvents (es ++ [e])) tokenId := by
  rw [approvalEvents_append]
  exact fun hopen => h fun a ha => hopen a (List.mem_append_left _ ha)

theorem Confirmed.not_open {toolInput : Json} (h : Confirmed es tokenId toolName toolInput) :
    ¬ Approval.Open (approvalEvents es) tokenId := by
  obtain ⟨-, es₁, e, es₂, rfl, ⟨request, -, now, result, rfl, hsuccess, -⟩, -⟩ := h
  intro hopen
  refine hopen (.validate tokenId request.userId request.sessionId now result) ?_ ⟨rfl, hsuccess⟩
  refine List.mem_flatMap.2 ⟨.confirm tokenId request.userId request.sessionId now result, ?_, ?_⟩
  · exact List.mem_append_right _ List.mem_cons_self
  · exact List.mem_singleton.2 rfl

/-- Where the approved calls of a state come from. -/
inductive Kept (s : State) (e : Event) (x : Execution) : Prop
  | old : x ∈ s.approved → e.dispatchesApproved x.tokenId = false → Kept s e x
  | approved {userId sessionId : String} {now : ℚ} {result : Approval.ApprovalResult}
    {approvals : Approval.System} : e = .confirm x.tokenId userId sessionId now result →
    Approval.Step s.approvals (.validate x.tokenId userId sessionId now result) approvals →
    result.success = true → x.toolName = result.toolName → x.toolInput = result.toolInput →
    Kept s e x

theorem kept (hnodup : (s.approved.map Execution.tokenId).Nodup) (hstep : Step s e s')
    {x : Execution} (hx : x ∈ s'.approved) : Kept s e x := by
  cases hstep with
  | confirm happroval hsuccess =>
    rcases List.mem_cons.1 hx with rfl | hx
    · exact .approved rfl happroval hsuccess rfl rfl
    · exact .old hx rfl
  | @dispatchApproved y hy =>
    have hmem := List.mem_of_mem_erase hx
    refine .old hmem (decide_eq_false fun hid => ?_)
    obtain rfl := List.inj_on_of_nodup_map hnodup hy hmem hid
    exact (List.Nodup.not_mem_erase (List.Nodup.of_map _ hnodup)) hx
  | abandonApproved => exact .old (List.mem_of_mem_erase hx) rfl
  | message | refuse | pass | request | confirmFailed | dispatch | abandon => exact .old hx rfl

theorem Inv.approved_step (h : Inv es s) (hstep : Step s e s') {x : Execution}
    (hx : x ∈ s'.approved) : Confirmed (es ++ [e]) x.tokenId x.toolName x.toolInput := by
  cases kept h.nodup hstep hx with
  | old hold he => exact (h.approved x hold).append he
  | @approved userId sessionId now result approvals he happroval hsuccess hname hinput =>
    obtain ⟨hopen, request, token, hrequested, hid, huser, hsession, hnow, hname', hinput'⟩ :=
      h.confirmed happroval hsuccess
    subst he huser hsession
    refine ⟨List.forall_mem_append.2 ⟨fun f hf => ?_, List.forall_mem_singleton.2 rfl⟩, .last
      ⟨request, token, now, result, rfl, hsuccess, hid, hnow, ?_, ?_, hrequested⟩⟩
    · exact Bool.eq_false_iff.2 fun hdispatch => h.dispatched x.tokenId ⟨f, hf, hdispatch⟩ hopen
    · exact (hname.trans hname').symm
    · exact (hinput.trans hinput').symm

theorem Inv.nodup_step (h : Inv es s) (hstep : Step s e s') :
    (s'.approved.map Execution.tokenId).Nodup := by
  cases hstep with
  | confirm happroval hsuccess =>
    refine List.nodup_cons.2 ⟨fun hmem => ?_, h.nodup⟩
    obtain ⟨x, hx, hid⟩ := List.mem_map.1 hmem
    exact (h.approved x hx).not_open (hid ▸ (h.confirmed happroval hsuccess).1)
  | dispatchApproved | abandonApproved => exact h.nodup.sublist (List.erase_sublist.map _)
  | message | refuse | pass | request | confirmFailed | dispatch | abandon => exact h.nodup

theorem Inv.dispatched_step (h : Inv es s) (hstep : Step s e s')
    (hdispatch : ∃ f ∈ es ++ [e], f.dispatchesApproved tokenId = true) :
    ¬ Approval.Open (approvalEvents (es ++ [e])) tokenId := by
  obtain ⟨f, hf, hdispatch⟩ := hdispatch
  refine not_open_append ?_
  rcases List.mem_append.1 hf with hf | hf
  · exact h.dispatched tokenId ⟨f, hf, hdispatch⟩
  · obtain rfl := List.mem_singleton.1 hf
    cases hstep with
    | @dispatchApproved x hx => exact of_decide_eq_true hdispatch ▸ (h.approved x hx).not_open
    | _ => exact absurd hdispatch Bool.false_ne_true

theorem Inv.step (h : Inv es s) (hstep : Step s e s') : Inv (es ++ [e]) s' where
  approvals := by
    rw [approvalEvents_append]
    rcases approvals_step hstep with ⟨a, ha, hcall⟩ | ⟨hnil, hsame⟩
    · rw [ha]
      exact Approval.inv_step h.approvals hcall
    · rw [hnil, List.append_nil, hsame]
      exact h.approvals
  executors := fun _ _ hx => h.follows hstep hx
  unopened := fun _ hnone => h.unopened_step hstep hnone
  requested := fun _ _ _ _ _ hmem => h.requested_step hstep hmem
  approved := fun _ hx => h.approved_step hstep hx
  nodup := h.nodup_step hstep
  dispatched := fun _ hdispatch => h.dispatched_step hstep hdispatch

theorem inv_run {clock : ℚ} (h : Run Step (.start clock) es s) : Inv es s :=
  h.history inv_start fun _ hinv hstep => hinv.step hstep

theorem Inv.budget (h : Inv es s) (task : ℕ) :
    dispatches es task + requests es task ≤ maxToolCallsPerMessage := by
  cases hx : s.executors task with
  | none =>
    obtain ⟨-, hdispatches, hrequests⟩ := h.unopened task hx
    simp [hdispatches, hrequests]
  | some x => exact (Nat.le_add_right _ _).trans (h.executors task x hx).bounded

/-- **However the messages, the confirmations and the tools interleave, a tool runs at once only
    if it is not one that waits for an approval and its call has passed the checks, and then
    once; a tool that waits runs only with the input of a call that has passed the checks, after
    the user of the message has confirmed it in time, and once for each token; and a message runs
    or asks for five tools at most.** -/
theorem tool_gate {clock : ℚ} (h : Run Step (.start clock) es s) :
    (∀ task toolName toolInput s', Step s (.dispatch task toolName toolInput) s' →
      Cleared es task toolName toolInput) ∧
    (∀ tokenId toolName toolInput s', Step s (.dispatchApproved tokenId toolName toolInput) s' →
      Confirmed es tokenId toolName toolInput) ∧
    ∀ task, dispatches es task + requests es task ≤ maxToolCallsPerMessage := by
  have hinv := inv_run h
  refine ⟨?_, ?_, hinv.budget⟩
  · intro task toolName toolInput s' hstep
    cases hstep with
    | @dispatch _ x _ _ hx hready => exact (hinv.executors task x hx).cleared _ _ hready
  · intro tokenId toolName toolInput s' hstep
    cases hstep with
    | dispatchApproved hx => exact hinv.approved _ hx

end

def stopRequest : Approval.Request :=
  ⟨"alice", "session", "stop_public_tunnel", .obj [], "Execute stop_public_tunnel"⟩

/-- The token under which the tunnel is to be stopped. -/
def stopToken : Approval.ApprovalToken := Approval.newToken 0 "id" "nonce" stopRequest

def stopEvents : List Event :=
  [.message 0 "alice" "session",
    .request 0 "stop_public_tunnel" [] stopRequest stopToken,
    .confirm "id" "alice" "session" 60 ⟨true, "", "stop_public_tunnel", .obj []⟩]

theorem stop_approval : Approval.Step (.start 0) (.create stopRequest stopToken)
    ⟨⟨[stopToken]⟩, 0, ["id"]⟩ := .create le_rfl le_rfl List.not_mem_nil

theorem stop_confirm : ∃ approvals, Approval.Step ⟨⟨[stopToken]⟩, 0, ["id"]⟩
    (.validate "id" "alice" "session" 60 ⟨true, "", "stop_public_tunnel", .obj []⟩) approvals := by
  have hinv := Approval.inv_step Approval.inv_start stop_approval
  have hexpires : stopToken.expiresAt = 0 + 120 := rfl
  have hnow : 60 ≤ stopToken.expiresAt := by
    rw [hexpires]
    norm_num
  have howner := Approval.validate_owner hinv.wf (List.mem_singleton.2 rfl) hnow
  have hvalidate : Approval.Step ⟨⟨[stopToken]⟩, 0, ["id"]⟩ (.validate "id" "alice" "session" 60
      (Approval.validateAndConsume ⟨[stopToken]⟩ 60 "id" "alice" "session").1) _ :=
    .validate (by norm_num)
  exact ⟨_, howner ▸ hvalidate⟩

theorem stop_run : ∃ s, Run Step (.start 0) stopEvents s ∧
    ⟨"id", "stop_public_tunnel", .obj []⟩ ∈ s.approved := by
  obtain ⟨approvals, hconfirm⟩ := stop_confirm
  have hpassed : Passed ⟨fun _ => true, fun _ => true, fun _ => none, fun _ => ""⟩ "alice" 1
      "stop_public_tunnel" [] := ⟨by decide, by decide, by decide, rfl⟩
  have hroute := hpassed.route.trans (if_pos (by decide))
  exact ⟨_, .cons (.message rfl) (.cons (.request set_self rfl hroute rfl stop_approval)
    (.cons (.confirm hconfirm rfl) .nil)), List.mem_cons_self⟩

/-- A tool that waits runs once it is confirmed. -/
theorem tool_gate_stop : Confirmed stopEvents "id" "stop_public_tunnel" (.obj []) := by
  obtain ⟨s, hrun, hmem⟩ := stop_run
  exact (tool_gate hrun).2.1 "id" "stop_public_tunnel" (.obj []) _ (.dispatchApproved hmem)

end ToolGate

end AimData
