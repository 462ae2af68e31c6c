/-
  The serial of an installation: its state and its credentials in `serial.json`, the
  manager that provisions, activates, refreshes and polls, and the metering calls
  that go on beside it.

  A step is what a task does between two awaits.  The manager is one task; any
  number of metering calls wait for the server, each with the token it was made with.
-/
import AimData.Lib.Run

namespace AimData

namespace Activation

/-! ## The stored state -/

def failureThreshold : ℕ := 3

inductive State where
  | unprovisioned
  | provisioned
  | active
  | degraded
  | migrated
  deriving DecidableEq, Repr

/-- What is read of the body of a status answer. -/
structure StatusData where
  setupRemainingUsd : Option String
  gatewayUserId : Option String

structure SerialState where
  serial : String := ""
  serialId : Option String := none
  installToken : Option String := none
  bootstrapToken : Option String := none
  state : State := .unprovisioned
  lastAppVersion : Option String := none
  lastStatusCache : Option StatusData := none
  lastStatusAt : Option String := none
  consecutiveFailures : ℕ := 0

/-- The truth of an optional string. -/
def present (s : Option String) : Bool := s.any (· ≠ "")

/-- The state in memory, and `serial.json`. -/
structure SerialStore where
  state : SerialState
  file : Option SerialState

namespace SerialStore

variable (store : SerialStore)

/-- A change that is saved. -/
def put (state : SerialState) : SerialStore := ⟨state, some state⟩

/-- `_load`, with the values of the environment stripped. -/
def load (file : Option SerialState) (envSerial envBootstrap : String) : SerialStore :=
  match file with
  | some state => ⟨state, file⟩
  | none =>
    if envSerial ≠ "" ∧ envBootstrap ≠ "" then
      put { serial := envSerial, bootstrapToken := some envBootstrap, state := .provisioned }
    else ⟨{}, none⟩

def recordSuccess : SerialStore :=
  put { store.state with
    consecutiveFailures := 0
    state := if store.state.state = .degraded then .active else store.state.state }

def recordFailure : SerialStore :=
  put { store.state with
    consecutiveFailures := store.state.consecutiveFailures + 1
    state := if store.state.state = .active ∧
        store.state.consecutiveFailures + 1 ≥ failureThreshold then .degraded
      else store.state.state }

def transitionToActive (installToken : String) : SerialStore :=
  put { store.state with
    installToken := some installToken
    bootstrapToken := none
    state := .active
    consecutiveFailures := 0 }

def transitionToMigrated (gatewayUserId : Option String) : SerialStore :=
  put { store.state with
    state := .migrated
    lastStatusCache :=
      if present gatewayUserId then
        store.state.lastStatusCache.map fun data => { data with gatewayUserId := gatewayUserId }
      else store.state.lastStatusCache }

def transitionToUnprovisioned : SerialStore :=
  put { store.state with
    installToken := none
    bootstrapToken := none
    state := .unprovisioned
    consecutiveFailures := 0 }

def updateStatusCache (data : StatusData) (timestamp : String) : SerialStore :=
  put { store.state with lastStatusCache := some data, lastStatusAt := some timestamp }

def updateAppVersion (version : String) : SerialStore :=
  put { store.state with lastAppVersion := some version }

def persistSerialId (serialId : Option String) : SerialStore :=
  if present serialId then put { store.state with serialId := serialId } else store

end SerialStore

/-! ## The client -/

/-- The status code of an answer (0 where no request got one), and what is read of
    its body if that is JSON and not empty. -/
structure Answer (δ : Type) where
  statusCode : ℕ
  data : Option δ

structure ActivateResult where
  success : Bool
  installToken : Option String := none
  serialId : Option String := none
  statusCode : ℕ

/-- `SerialClient.activate`, for the token and the serial id of an answer. -/
def activate (answer : Answer (Option String × Option String)) : ActivateResult :=
  match answer.data with
  | some (installToken, serialId) =>
    if answer.statusCode = 200 then ⟨true, installToken, serialId, answer.statusCode⟩
    else { success := false, statusCode := answer.statusCode }
  | none => { success := false, statusCode := answer.statusCode }

structure RefreshResult where
  success : Bool
  installToken : Option String := none
  statusCode : ℕ

/-- `SerialClient.refresh` -/
def refresh (answer : Answer (Option String)) : RefreshResult :=
  match answer.data with
  | some installToken =>
    if answer.statusCode = 200 then ⟨true, installToken, answer.statusCode⟩
    else { success := false, statusCode := answer.statusCode }
  | none => { success := false, statusCode := answer.statusCode }

structure StatusBody where
  data : StatusData
  serialId : Option String
  migrated : Bool

structure StatusResult where
  success : Bool
  data : Option StatusData := none
  serialId : Option String := none
  migrated : Bool := false
  statusCode : ℕ

/-- `SerialClient.status` -/
def status (answer : Answer StatusBody) : StatusResult :=
  match answer.data with
  | some body =>
    if answer.statusCode = 200 then
      ⟨true, some body.data, body.serialId, body.migrated, answer.statusCode⟩
    else { success := false, statusCode := answer.statusCode }
  | none => { success := false, statusCode := answer.statusCode }

structure MeterBody where
  allowed : Bool
  remainingUsd : String
  reason : Option String
  paymentEnabled : Bool
  migrated : Bool

structure MeterResult where
  allowed : Bool
  remainingUsd : String := "0.00"
  reason : Option String := none
  paymentEnabled : Bool := false
  migrated : Bool := false
  statusCode : ℕ

/-- `SerialClient.meter` -/
def meter (answer : Answer MeterBody) : MeterResult :=
  match answer.data with
  | some body =>
    if answer.statusCode = 200 ∨ answer.statusCode = 402 then
      ⟨body.allowed, body.remainingUsd, body.reason, body.paymentEnabled, body.migrated,
        answer.statusCode⟩
    else { allowed := false, statusCode := answer.statusCode }
  | none => { allowed := false, statusCode := answer.statusCode }

/-! ## Metering -/

structure MeterDecision where
  allowed : Bool
  category : String
  offline : Bool := false
  reason : Option String := none

/-- The exceptions of `check_and_meter`. -/
inductive Raised where
  | creditExhausted (category reason remainingUsd setupRemainingUsd : String)
    (paymentEnabled : Bool) (serial : String)
  | activationRequired (message : String)
  | unprovisioned (message : String)

/-- How a metering call ends: with a decision and the description of the entry that
    it leaves in the offline queue, or with an exception. -/
inductive Metered where
  | decided (decision : MeterDecision) (queued : Option String)
  | raised (e : Raised)

/-- A call to the server: the token it carries, and the state it was made in. -/
structure Call where
  token : String
  madeIn : State

/-- A setup operation that goes into the offline queue. -/
def allowOffline (category description : String) : Metered :=
  .decided { allowed := true, category := category, offline := true } (some description)

/-- `check_and_meter` before the call to the server. -/
def checkState (s : SerialState) (category : String) : Metered ⊕ Call :=
  match s.state with
  | .unprovisioned =>
    if category = "setup" then .inl (allowOffline category "unprovisioned-offline")
    else .inl (.raised (.unprovisioned ("allAI is not yet activated. Please reinstall in " ++
      "connected mode or contact support.")))
  | .provisioned =>
    if category = "setup" then .inl (allowOffline category "provisioned-offline")
    else .inl (.raised (.activationRequired "Activation required"))
  | .degraded =>
    if category = "setup" then .inl (allowOffline category "degraded-offline")
    else .inl (.raised (.creditExhausted category "offline_data_blocked" "0.00" "0.00" false s.serial))
  | .active | .migrated =>
    match s.installToken with
    | some token =>
      if token ≠ "" then .inr ⟨token, s.state⟩
      else .inl (.raised (.activationRequired "Activation required"))
    | none => .inl (.raised (.activationRequired "Activation required"))

/-- `check_and_meter` after it. -/
def settle (store : SerialStore) (category : String) (result : MeterResult) :
    SerialStore × Metered :=
  if result.migrated then
    (store.transitionToMigrated none, .decided { allowed := true, category := category } none)
  else if result.allowed then
    (store.recordSuccess, .decided { allowed := true, category := category } none)
  else if result.statusCode = 200 ∨ result.statusCode = 402 then
    let setupRemainingUsd := (store.state.lastStatusCache.bind (·.setupRemainingUsd)).getD "0.00"
    let reason :=
      if present result.reason then result.reason.getD ""
      else "insufficient_" ++ category ++ "_credits"
    (store.recordSuccess, .raised (.creditExhausted category reason result.remainingUsd
      setupRemainingUsd result.paymentEnabled store.state.serial))
  else if result.statusCode = 401 then
    (store.transitionToUnprovisioned,
      .raised (.activationRequired "Token revoked — re-activation required"))
  else
    let store := store.recordFailure
    if category = "setup" then (store, allowOffline category "network-failure-offline")
    else if store.state.consecutiveFailures < 3 then
      (store, .decided { allowed := true, category := category, offline := true,
                         reason := some "transient_offline" } none)
    else (store, .raised (.creditExhausted category "offline_data_blocked" "0.00" "0.00" false
      store.state.serial))

/-! ## The manager -/

/-- Where the manager goes on after an activation: in `startup` after the branch of
    an unprovisioned serial, at its end, or in the background loop. -/
inductive Stage where
  | rest
  | finish
  | loop
  deriving DecidableEq

/-- What the manager waits for. -/
inductive Pc where
  | started
  | provisioning (stage : Stage)
  | activating (stage : Stage)
  | refreshing (call : Call)
  | loop
  | polling (call : Call)
  | registering (call : Call) (migrated : Bool) (gatewayUserId : Option String)
  | ended

/-- The beginning of `_attempt_activation`: the call, unless a credential is missing. -/
def attemptActivation (s : SerialState) (stage : Stage) : Option Pc :=
  if s.serial = "" ∨ present s.bootstrapToken = false then none else some (.activating stage)

/-- Its end -/
def activated (version : String) (store : SerialStore) (result : ActivateResult) : SerialStore :=
  match result.success, result.installToken with
  | true, some token =>
    if token ≠ "" then
      ((store.transitionToActive token).persistSerialId result.serialId).updateAppVersion version
    else if result.statusCode = 401 then store.transitionToUnprovisioned
    else store
  | _, _ => if result.statusCode = 401 then store.transitionToUnprovisioned else store

/-- The end of `_attempt_refresh` -/
def refreshed (store : SerialStore) (result : RefreshResult) : SerialStore :=
  let refused := if result.statusCode = 401 then
    .put { store.state with state := .provisioned, installToken := none } else store
  match result.success, result.installToken with
  | true, some token =>
    if token ≠ "" then .put { store.state with installToken := some token } else refused
  | _, _ => refused

/-- `startup` after its activation -/
def startupFinish (version : String) (store : SerialStore) : SerialStore × Pc :=
  if store.state.state = .active then
    match store.state.installToken with
    | some token =>
      if present store.state.lastAppVersion ∧ store.state.lastAppVersion ≠ some version ∧
          token ≠ "" then
        (store, .refreshing ⟨token, store.state.state⟩)
      else (store.updateAppVersion version, .loop)
    | none => (store.updateAppVersion version, .loop)
  else (store, .loop)

/-- `startup` after the branch of an unprovisioned serial -/
def startupRest (version : String) (store : SerialStore) : SerialStore × Pc :=
  if store.state.state = .migrated then (store, .ended)
  else if store.state.state = .provisioned then
    match attemptActivation store.state .finish with
    | some pc => (store, pc)
    | none => startupFinish version store
  else startupFinish version store

def startup (version : String) (store : SerialStore) : SerialStore × Pc :=
  if store.state.state = .unprovisioned then
    if store.state.serial ≠ "" ∧ present store.state.bootstrapToken then
      startupRest version (.put { store.state with state := .provisioned })
    else (store, .provisioning .rest)
  else startupRest version store

def resume (version : String) (store : SerialStore) : Stage → SerialStore × Pc
  | .rest => startupRest version store
  | .finish => startupFinish version store
  | .loop => (store, .loop)

/-- `_auto_provision` with its answer: a serial and a bootstrap token, or nothing. -/
def generated (version : String) (store : SerialStore) (stage : Stage) :
    Option (String × String) → SerialStore × Pc
  | none => resume version store stage
  | some (serial, bootstrapToken) =>
    let store := SerialStore.put { store.state with
      serial := serial, bootstrapToken := some bootstrapToken, state := .provisioned }
    match attemptActivation store.state stage with
    | some pc => (store, pc)
    | none => resume version store stage

/-- The beginning of `_poll_status`: the call, unless there is no token for it. -/
def pollStatus (s : SerialState) : Option Pc :=
  if s.state = .active ∨ s.state = .degraded then
    match s.installToken with
    | some token => if token ≠ "" then some (.polling ⟨token, s.state⟩) else none
    | none => none
  else none

/-- The end of `_poll_status`, after the registration of the installation if there
    was one. -/
def migrate (store : SerialStore) (migrated : Bool) (gatewayUserId : Option String) :
    SerialStore :=
  if migrated then store.transitionToMigrated gatewayUserId else store

/-- `_poll_status` with its answer; it may have to register the installation. -/
def polled (store : SerialStore) (call : Call) (result : StatusResult) (registers : Bool)
    (now : String) : SerialStore × Pc :=
  match result.success, result.data with
  | true, some data =>
    let store := (store.recordSuccess.persistSerialId result.serialId).updateStatusCache data now
    if registers ∧ present data.gatewayUserId then
      (store, .registering call result.migrated data.gatewayUserId)
    else (migrate store result.migrated data.gatewayUserId, .loop)
  | _, _ =>
    if result.statusCode = 401 then (store.transitionToUnprovisioned, .loop)
    else (store.recordFailure, .loop)

/-- An iteration of `_background_loop` -/
def iterate (s : SerialState) : Pc :=
  match s.state with
  | .provisioned => (attemptActivation s .loop).getD .loop
  | .active | .degraded => (pollStatus s).getD .loop
  | .migrated => .loop
  | .unprovisioned => .provisioning .loop

/-- The await of the manager raises: `_auto_provision` and the registration catch it,
    the loop goes on, and `startup` ends. -/
def failed (version : String) (store : SerialStore) : Pc → SerialStore × Pc
  | .provisioning stage => resume version store stage
  | .activating .rest => startupRest version store
  | .activating .finish => (store, .ended)
  | .activating .loop => (store, .loop)
  | .refreshing _ => (store, .ended)
  | .polling _ => (store, .loop)
  | .registering _ migrated gatewayUserId => (migrate store migrated gatewayUserId, .loop)
  | .started => (store, .ended)
  | .loop => (store, .loop)
  | .ended => (store, .ended)

/-! ## Runs -/

structure MeterCall where
  call : Call
  category : String

structure System where
  store : SerialStore
  manager : Pc
  calls : ℕ → Option MeterCall
  version : String

/-- A process that starts: a version of the program, on a file, in an environment. -/
def System.boot (version : String) (file : Option SerialState) (envSerial envBootstrap : String) :
    System :=
  ⟨.load file envSerial envBootstrap, .started, fun _ => none, version⟩

def System.setManager (s : System) (next : SerialStore × Pc) : System :=
  { s with store := next.1, manager := next.2 }

def System.setCall (s : System) (i : ℕ) (call : Option MeterCall) : System :=
  { s with calls := Function.update s.calls i call }

inductive Event where
  | startup
  | generated (answer : Option (String × String))
  | activated (answer : Answer (Option String × Option String))
  | refreshed (answer : Answer (Option String))
  | iterate
  | polled (answer : Answer StatusBody) (registers : Bool) (now : String)
  | registered
  | failed
  | decided (category : String)
  | meter (i : ℕ) (category : String)
  | metered (i : ℕ) (answer : Answer MeterBody)
  | meterRaised (i : ℕ)
  | restart (version envSerial envBootstrap : String)

inductive Step : System → Event → System → Prop
  | startup {s : System} :
    s.manager = .started → Step s .startup (s.setManager (Activation.startup s.version s.store))
  | generated {s : System} {stage : Stage} {answer : Option (String × String)} :
    s.manager = .provisioning stage →
    Step s (.generated answer) (s.setManager (Activation.generated s.version s.store stage answer))
  | activated {s : System} {stage : Stage} {answer : Answer (Option String × Option String)} :
    s.manager = .activating stage →
    Step s (.activated answer)
      (s.setManager (resume s.version (Activation.activated s.version s.store (activate answer))
        stage))
  | refreshed {s : System} {call : Call} {answer : Answer (Option String)} :
    s.manager = .refreshing call →
    Step s (.refreshed answer)
      (s.setManager ((Activation.refreshed s.store (refresh answer)).updateAppVersion s.version,
        .loop))
  | iterate {s : System} :
    s.manager = .loop → Step s .iterate (s.setManager (s.store, Activation.iterate s.store.state))
  | polled {s : System} {call : Call} {answer : Answer StatusBody} {registers : Bool}
    {now : String} :
    s.manager = .polling call →
    Step s (.polled answer registers now)
      (s.setManager (Activation.polled s.store call (status answer) registers now))
  | registered {s : System} {call : Call} {migrated : Bool} {gatewayUserId : Option String} :
    s.manager = .registering call migrated gatewayUserId →
    Step s .registered (s.setManager (migrate s.store migrated gatewayUserId, .loop))
  | failed {s : System} :
    Step s .failed (s.setManager (Activation.failed s.version s.store s.manager))
  | decided {s : System} {category : String} {outcome : Metered} :
    checkState s.store.state category = .inl outcome → Step s (.decided category) s
  | meter {s : System} {i : ℕ} {category : String} {call : Call} :
    s.calls i = none → checkState s.store.state category = .inr call →
    Step s (.meter i category) (s.setCall i (some ⟨call, category⟩))
  | metered {s : System} {i : ℕ} {call : Call} {category : String} {answer : Answer MeterBody} :
    s.calls i = some ⟨call, category⟩ →
    Step s (.metered i answer)
      ({ s with store := (settle s.store category (Activation.meter answer)).1 }.setCall i none)
  | meterRaised {s : System} {i : ℕ} {call : MeterCall} :
    s.calls i = some call → Step s (.meterRaised i) (s.setCall i none)
  | restart {s : System} {version envSerial envBootstrap : String} :
    Step s (.restart version envSerial envBootstrap)
      (.boot version s.store.file envSerial envBootstrap)

end Activation

end AimData
