/-
  The Co-Pilot's `ConnectionManager`: its maps by session, the WebSocket handlers
  and the message tasks that write them, and the lock.

  A step is what one handler, task or route does between two awaits that may
  suspend it; the steps interleave in any order.  A message task is known to the
  manager by its session's entry in the map of inflight tasks.  Where no session
  loses that entry while its task runs, and the greeting of a session is sent,
  nothing of a session is left (`consistent_of_settled`).
-/
import AimData.Lib.Run

namespace AimData

namespace Copilot

/-! ## The connection manager -/

structure AuthenticatedUser where
  userId : String
  balanceCents : Option ℤ
  freeTrialRemainingCents : Option ℤ
  deriving DecidableEq

/-- What the frontend reports of its state. -/
structure StateSnapshot where
  currentRoute : String
  deriving DecidableEq

/-- The maps of a manager; a session is the number of its `cps_` identifier, and a
    socket and a task are numbers. -/
structure Manager where
  active : ℕ → Option ℕ
  userSessions : String → Option ℕ
  connectedSince : ℕ → Option String
  sessionUsers : ℕ → Option AuthenticatedUser
  sessionBalance : ℕ → Option ℤ
  inflightTask : ℕ → Option ℕ
  sessionState : ℕ → Option StateSnapshot
  sessionIntroSeen : ℕ → Option Bool
  sessionMsgTimestamps : ℕ → Option (List ℚ)

namespace Manager

def empty : Manager where
  active _ := none
  userSessions _ := none
  connectedSince _ := none
  sessionUsers _ := none
  sessionBalance _ := none
  inflightTask _ := none
  sessionState _ := none
  sessionIntroSeen _ := none
  sessionMsgTimestamps _ := none

variable (m : Manager) (session : ℕ)

/-- The end of `connect`: the session is registered. -/
def register (user : AuthenticatedUser) (socket : ℕ) (now : String) : Manager :=
  { m with
    active := Function.update m.active session (some socket)
    userSessions := Function.update m.userSessions user.userId (some session)
    connectedSince := Function.update m.connectedSince session (some now)
    sessionUsers := Function.update m.sessionUsers session (some user)
    sessionBalance := Function.update m.sessionBalance session
      (some (user.balanceCents.getD 0 + user.freeTrialRemainingCents.getD 0)) }

/-- `_disconnect_unlocked` -/
def disconnectUnlocked : Manager where
  active := Function.update m.active session none
  userSessions userId := if m.userSessions userId = some session then none else m.userSessions userId
  connectedSince := Function.update m.connectedSince session none
  sessionUsers := Function.update m.sessionUsers session none
  sessionBalance := Function.update m.sessionBalance session none
  inflightTask := Function.update m.inflightTask session none
  sessionState := Function.update m.sessionState session none
  sessionIntroSeen := Function.update m.sessionIntroSeen session none
  sessionMsgTimestamps := Function.update m.sessionMsgTimestamps session none

def setInflight (task : ℕ) : Manager :=
  { m with inflightTask := Function.update m.inflightTask session (some task) }

def clearInflight : Manager :=
  { m with inflightTask := Function.update m.inflightTask session none }

def updateBalance (newBalance : ℤ) : Manager :=
  { m with sessionBalance := Function.update m.sessionBalance session (some newBalance) }

def setStateSnapshot (snapshot : StateSnapshot) : Manager :=
  { m with sessionState := Function.update m.sessionState session (some snapshot) }

def getIntroSeen : Bool := (m.sessionIntroSeen session).getD false

def setIntroSeen : Manager :=
  { m with sessionIntroSeen := Function.update m.sessionIntroSeen session (some true) }

def maxMessagesPerMinute : ℕ := 30

/-- The times of the last minute. -/
def recentMessages (now : ℚ) : List ℚ :=
  ((m.sessionMsgTimestamps session).getD []).filter fun t => now - t < 60

/-- `check_message_rate`: whether a message is allowed, and what is left of it. -/
def checkMessageRate (now : ℚ) : Bool × Manager :=
  let timestamps := m.recentMessages session now
  let allowed : Bool := timestamps.length < maxMessagesPerMinute
  (allowed, { m with
    sessionMsgTimestamps := Function.update m.sessionMsgTimestamps session
      (some (if allowed then timestamps ++ [now] else timestamps)) })

/-- `connect` finds a session of the user to replace. -/
def oldSession (userId : String) : Option ℕ :=
  match m.userSessions userId with
  | some old => if (m.active old).isSome then some old else none
  | none => none

end Manager

/-- No map has an entry for a session. -/
structure Forgotten (m : Manager) (session : ℕ) : Prop where
  active : m.active session = none
  userSessions : ∀ userId, m.userSessions userId ≠ some session
  connectedSince : m.connectedSince session = none
  sessionUsers : m.sessionUsers session = none
  sessionBalance : m.sessionBalance session = none
  inflightTask : m.inflightTask session = none
  sessionState : m.sessionState session = none
  sessionIntroSeen : m.sessionIntroSeen session = none
  sessionMsgTimestamps : m.sessionMsgTimestamps session = none

/-! ## Handlers and tasks -/

/-- What a handler awaits. -/
inductive Pc where
  /-- the lock, in `connect` -/
  | connecting
  /-- the cancelled task of the session it replaces, under the lock -/
  | cancellingOld (old task : ℕ)
  /-- the close of the socket it replaces, under the lock -/
  | closingOld (old : ℕ)
  /-- the send of CONNECTED -/
  | greeting
  /-- a message, or the send of an answer to one -/
  | receiving
  /-- the metering of a BRAIN_MESSAGE, with the user of the session -/
  | metering (user : Option AuthenticatedUser)
  /-- the task that STOP cancelled -/
  | stopping (task : ℕ)
  /-- the task that the cleanup cancelled -/
  | cancelling (task : ℕ)
  /-- the ping task, and the close of the socket -/
  | closing
  /-- the lock, in `disconnect` -/
  | disconnecting
  | returned
  deriving DecidableEq

/-- One call of `websocket_copilot`, after its user is accepted. -/
structure Handler where
  user : AuthenticatedUser
  socket : ℕ
  pc : Pc
  deriving DecidableEq

/-- What a message task awaits. -/
inductive TaskPc where
  /-- its first step -/
  | created
  /-- the answer; it is the first of the session or not -/
  | working (isFirst : Bool)
  /-- the sends after an answer or an error; there is a usage to report or not -/
  | ending (usage : Bool)
  /-- `report_usage` -/
  | reporting
  /-- the send of a balance message -/
  | gating
  | done
  deriving DecidableEq

structure Task where
  session : ℕ
  pc : TaskPc
  cancelRequested : Bool
  deriving DecidableEq

def Task.cancel (task : Task) : Task := { task with cancelRequested := true }

structure State where
  manager : Manager
  /-- the session whose `connect` holds the lock over an await -/
  lock : Option ℕ
  handlers : ℕ → Option Handler
  tasks : ℕ → Option Task
  /-- the sessions to which a route pushes a command, or which it found stale -/
  pushes : List ℕ

namespace State

def empty : State := ⟨.empty, none, fun _ => none, fun _ => none, []⟩

def withManager (s : State) (m : Manager) : State := { s with manager := m }

def withHandler (s : State) (session : ℕ) (h : Handler) : State :=
  { s with handlers := Function.update s.handlers session (some h) }

def withTask (s : State) (t : ℕ) (task : Task) : State :=
  { s with tasks := Function.update s.tasks t (some task) }

/-- The inflight task of a session, which is not done. -/
def Inflight (s : State) (session t : ℕ) (task : Task) : Prop :=
  s.manager.inflightTask session = some t ∧ s.tasks t = some task ∧ task.pc ≠ .done

/-- A message task of a session runs. -/
def Running (s : State) (t session : ℕ) : Prop :=
  ∃ task, s.tasks t = some task ∧ task.session = session ∧ task.pc ≠ .done

/-- No message task of a session runs. -/
def Quiet (s : State) (session : ℕ) : Prop := ∀ t, ¬ s.Running t session

end State

/-! ## Steps -/

inductive Event where
  | connect (session : ℕ)
  | acquire (session : ℕ)
  | cancelledOld (session : ℕ)
  | closedOld (session : ℕ)
  | greeted (session : ℕ)
  | greetingFails (session : ℕ)
  | snapshot (session : ℕ)
  | message (session : ℕ)
  | meter (session : ℕ)
  | spawn (session : ℕ)
  | stop (session : ℕ)
  | stopped (session : ℕ)
  | leave (session : ℕ)
  | cancelled (session : ℕ)
  | closed (session : ℕ)
  | disconnected (session : ℕ)
  | start (task : ℕ)
  | answered (task : ℕ)
  | failed (task : ℕ)
  | report (task : ℕ)
  | reported (task : ℕ)
  | finish (task : ℕ)
  | aborted (task : ℕ)
  | push (session : ℕ)
  | pushFails (session : ℕ)
  deriving DecidableEq

/-- What handlers, tasks and routes do between two awaits. -/
inductive Step : State → Event → State → Prop
  /-- a user is accepted; the session is a new one -/
  | connect {s : State} {session socket : ℕ} {user : AuthenticatedUser}
      (hnew : s.handlers session = none) :
      Step s (.connect session) (s.withHandler session ⟨user, socket, .connecting⟩)
  /-- `connect` of a user without a session -/
  | acquire {s : State} {session socket : ℕ} {user : AuthenticatedUser} {now : String}
      (hh : s.handlers session = some ⟨user, socket, .connecting⟩) (hlock : s.lock = none)
      (hold : s.manager.oldSession user.userId = none) :
      Step s (.acquire session) ((s.withHandler session ⟨user, socket, .greeting⟩).withManager
        (s.manager.register session user socket now))
  /-- `connect` cancels the task of the session that it replaces -/
  | replace {s : State} {session socket old t : ℕ} {user : AuthenticatedUser} {task : Task}
      (hh : s.handlers session = some ⟨user, socket, .connecting⟩) (hlock : s.lock = none)
      (hold : s.manager.oldSession user.userId = some old) (htask : s.Inflight old t task) :
      Step s (.acquire session) ((({ s with lock := some session }).withTask t task.cancel).withHandler
        session ⟨user, socket, .cancellingOld old t⟩)
  /-- the session that it replaces has no task to cancel -/
  | replaceIdle {s : State} {session socket old : ℕ} {user : AuthenticatedUser}
      (hh : s.handlers session = some ⟨user, socket, .connecting⟩) (hlock : s.lock = none)
      (hold : s.manager.oldSession user.userId = some old)
      (hidle : ∀ t task, ¬ s.Inflight old t task) :
      Step s (.acquire session) ((({ s with lock := some session }).withManager
        (s.manager.clearInflight old)).withHandler session ⟨user, socket, .closingOld old⟩)
  /-- the cancelled task is done; whatever is inflight is dropped -/
  | cancelledOld {s : State} {session socket old t : ℕ} {user : AuthenticatedUser} {task : Task}
      (hh : s.handlers session = some ⟨user, socket, .cancellingOld old t⟩)
      (htask : s.tasks t = some task) (hdone : task.pc = .done) :
      Step s (.cancelledOld session) ((s.withManager (s.manager.clearInflight old)).withHandler
        session ⟨user, socket, .closingOld old⟩)
  /-- the replaced session is removed, and the new one registered -/
  | closedOld {s : State} {session socket old : ℕ} {user : AuthenticatedUser} {now : String}
      (hh : s.handlers session = some ⟨user, socket, .closingOld old⟩) :
      Step s (.closedOld session)
        (({ s with lock := none }).withHandler session ⟨user, socket, .greeting⟩ |>.withManager
          ((s.manager.disconnectUnlocked old).register session user socket now))
  | greeted {s : State} {session socket : ℕ} {user : AuthenticatedUser}
      (hh : s.handlers session = some ⟨user, socket, .greeting⟩) :
      Step s (.greeted session) (s.withHandler session ⟨user, socket, .receiving⟩)
  /-- CONNECTED is not sent: `manager.disconnect(session_id)` makes a coroutine that
      nobody awaits -/
  | greetingFails {s : State} {session socket : ℕ} {user : AuthenticatedUser}
      (hh : s.handlers session = some ⟨user, socket, .greeting⟩) :
      Step s (.greetingFails session) (s.withHandler session ⟨user, socket, .returned⟩)
  | snapshot {s : State} {session socket : ℕ} {user : AuthenticatedUser} {snapshot : StateSnapshot}
      (hh : s.handlers session = some ⟨user, socket, .receiving⟩) :
      Step s (.snapshot session) (s.withManager (s.manager.setStateSnapshot session snapshot))
  /-- a BRAIN_MESSAGE that is refused for its rate, or for a task that is inflight -/
  | message {s : State} {session socket : ℕ} {user : AuthenticatedUser} {now : ℚ}
      (hh : s.handlers session = some ⟨user, socket, .receiving⟩)
      (hrefused : (s.manager.checkMessageRate session now).1 = false ∨
        ∃ t task, s.Inflight session t task) :
      Step s (.message session) (s.withManager (s.manager.checkMessageRate session now).2)
  /-- a BRAIN_MESSAGE that is metered -/
  | meter {s : State} {session socket : ℕ} {user : AuthenticatedUser} {now : ℚ}
      (hh : s.handlers session = some ⟨user, socket, .receiving⟩)
      (hallowed : (s.manager.checkMessageRate session now).1 = true)
      (hidle : ∀ t task, ¬ s.Inflight session t task) :
      Step s (.meter session) ((s.withManager (s.manager.checkMessageRate session now).2).withHandler
        session ⟨user, socket, .metering (s.manager.sessionUsers session)⟩)
  /-- the metering, the missing user or an attachment ends the message -/
  | refused {s : State} {session socket : ℕ} {user : AuthenticatedUser}
      {sessionUser : Option AuthenticatedUser}
      (hh : s.handlers session = some ⟨user, socket, .metering sessionUser⟩) :
      Step s (.meter session) (s.withHandler session ⟨user, socket, .receiving⟩)
  | spawn {s : State} {session socket t : ℕ} {user sessionUser : AuthenticatedUser}
      (hh : s.handlers session = some ⟨user, socket, .metering (some sessionUser)⟩)
      (hnew : s.tasks t = none) :
      Step s (.spawn session) (((s.withTask t ⟨session, .created, false⟩).withManager
        (s.manager.setInflight session t)).withHandler session ⟨user, socket, .receiving⟩)
  /-- STOP, with a task to cancel -/
  | stop {s : State} {session socket t : ℕ} {user : AuthenticatedUser} {task : Task}
      (hh : s.handlers session = some ⟨user, socket, .receiving⟩)
      (htask : s.Inflight session t task) :
      Step s (.stop session) ((s.withTask t task.cancel).withHandler
        session ⟨user, socket, .stopping t⟩)
  | stopped {s : State} {session socket t : ℕ} {user : AuthenticatedUser} {task : Task}
      (hh : s.handlers session = some ⟨user, socket, .stopping t⟩)
      (htask : s.tasks t = some task) (hdone : task.pc = .done) :
      Step s (.stopped session) (s.withHandler session ⟨user, socket, .receiving⟩)
  /-- the client leaves or a send fails: the cleanup cancels the inflight task -/
  | leave {s : State} {session socket t : ℕ} {user : AuthenticatedUser} {task : Task}
      (hh : s.handlers session = some ⟨user, socket, .receiving⟩)
      (htask : s.Inflight session t task) :
      Step s (.leave session) ((s.withTask t task.cancel).withHandler
        session ⟨user, socket, .cancelling t⟩)
  | leaveIdle {s : State} {session socket : ℕ} {user : AuthenticatedUser}
      (hh : s.handlers session = some ⟨user, socket, .receiving⟩)
      (hidle : ∀ t task, ¬ s.Inflight session t task) :
      Step s (.leave session) ((s.withManager (s.manager.clearInflight session)).withHandler
        session ⟨user, socket, .closing⟩)
  | cancelled {s : State} {session socket t : ℕ} {user : AuthenticatedUser} {task : Task}
      (hh : s.handlers session = some ⟨user, socket, .cancelling t⟩)
      (htask : s.tasks t = some task) (hdone : task.pc = .done) :
      Step s (.cancelled session) ((s.withManager (s.manager.clearInflight session)).withHandler
        session ⟨user, socket, .closing⟩)
  | closed {s : State} {session socket : ℕ} {user : AuthenticatedUser}
      (hh : s.handlers session = some ⟨user, socket, .closing⟩) :
      Step s (.closed session) (s.withHandler session ⟨user, socket, .disconnecting⟩)
  | disconnected {s : State} {session socket : ℕ} {user : AuthenticatedUser}
      (hh : s.handlers session = some ⟨user, socket, .disconnecting⟩) (hlock : s.lock = none) :
      Step s (.disconnected session) ((s.withManager (s.manager.disconnectUnlocked session)).withHandler
        session ⟨user, socket, .returned⟩)
  /-- the first step of a task; the preferences say whether the intro was seen -/
  | start {s : State} {t session : ℕ} {seen : Bool} (ht : s.tasks t = some ⟨session, .created, false⟩) :
      Step s (.start t) ((s.withManager (if s.manager.getIntroSeen session = false ∧ seen then
        s.manager.setIntroSeen session else s.manager)).withTask t
          ⟨session, .working !(s.manager.getIntroSeen session || seen), false⟩)
  /-- a task that is cancelled before its first step does not run -/
  | dropped {s : State} {t session : ℕ} (ht : s.tasks t = some ⟨session, .created, true⟩) :
      Step s (.start t) (s.withTask t ⟨session, .done, true⟩)
  | answered {s : State} {t session : ℕ} {isFirst cancel usage : Bool}
      (ht : s.tasks t = some ⟨session, .working isFirst, cancel⟩) :
      Step s (.answered t) ((s.withManager (if isFirst then s.manager.setIntroSeen session
        else s.manager)).withTask t ⟨session, .ending usage, cancel⟩)
  /-- an error, a failed send or the cancellation of the answer -/
  | failed {s : State} {t session : ℕ} {isFirst cancel : Bool}
      (ht : s.tasks t = some ⟨session, .working isFirst, cancel⟩) :
      Step s (.failed t) (s.withTask t ⟨session, .ending false, cancel⟩)
  | report {s : State} {t session : ℕ} {cancel : Bool}
      (ht : s.tasks t = some ⟨session, .ending true, cancel⟩) :
      Step s (.report t) (s.withTask t ⟨session, .reporting, cancel⟩)
  /-- the report gives a new balance; the user may go on, or is told that it is depleted -/
  | reported {s : State} {t session : ℕ} {cancel : Bool} {newBalance : ℤ}
      (ht : s.tasks t = some ⟨session, .reporting, cancel⟩) :
      Step s (.reported t) (((s.withManager (s.manager.updateBalance session newBalance)).withManager
        ((s.manager.updateBalance session newBalance).clearInflight session)).withTask t
          ⟨session, .done, cancel⟩)
  | depleted {s : State} {t session : ℕ} {cancel : Bool} {newBalance : ℤ}
      (ht : s.tasks t = some ⟨session, .reporting, cancel⟩) :
      Step s (.reported t) ((s.withManager (s.manager.updateBalance session newBalance)).withTask t
        ⟨session, .gating, cancel⟩)
  /-- the last step, with nothing more to report: `clear_inflight` -/
  | finish {s : State} {t session : ℕ} {cancel : Bool} {pc : TaskPc}
      (hpc : pc ∈ [.ending false, .reporting, .gating])
      (ht : s.tasks t = some ⟨session, pc, cancel⟩) :
      Step s (.finish t) ((s.withManager (s.manager.clearInflight session)).withTask t
        ⟨session, .done, cancel⟩)
  /-- a cancellation in the `finally` block ends it before `clear_inflight` -/
  | aborted {s : State} {t session : ℕ} {pc : TaskPc} (hpc : pc ∈ [.reporting, .gating])
      (ht : s.tasks t = some ⟨session, pc, true⟩) :
      Step s (.aborted t) (s.withTask t ⟨session, .done, true⟩)
  /-- a route finds the session of a user -/
  | push {s : State} {session : ℕ} {userId : String}
      (hmapped : s.manager.userSessions userId = some session) :
      Step s (.push session) { s with pushes := session :: s.pushes }
  /-- the send fails, or there is no socket: the route removes the session -/
  | pushFails {s : State} {session : ℕ} (hpush : session ∈ s.pushes) (hlock : s.lock = none) :
      Step s (.pushFails session) (({ s with pushes := s.pushes.erase session }).withManager
        (s.manager.disconnectUnlocked session))

/-! ## Consistent states -/

/-- Every user has one session, which is registered with its socket and its user; a
    session has one message task; and nothing is left of a session that is over. -/
structure Consistent (s : State) : Prop where
  single : ∀ {session session' h h'}, s.handlers session = some h → s.handlers session' = some h' →
    s.manager.active session ≠ none → s.manager.active session' ≠ none →
    h.user.userId = h'.user.userId → session = session'
  registered : ∀ {userId session}, s.manager.userSessions userId = some session →
    ∃ h, s.handlers session = some h ∧ h.user.userId = userId ∧
      s.manager.active session = some h.socket ∧ s.manager.sessionUsers session = some h.user
  oneTask : ∀ {t t' session}, s.Running t session → s.Running t' session → t = t'
  forgotten : ∀ {session h}, s.handlers session = some h → h.pc = .returned → s.Quiet session →
    Forgotten s.manager session

/-- The greeting is sent, and no session loses its inflight task while one runs: not to
    a connection that replaces it, and not to a route that removes it. -/
def Settled (s : State) : Event → Prop
  | .greetingFails _ => False
  | .cancelledOld session => ∀ h old t, s.handlers session = some h →
      h.pc = .cancellingOld old t → s.Quiet old
  | .closedOld session => ∀ h old, s.handlers session = some h → h.pc = .closingOld old → s.Quiet old
  | .pushFails session => s.Quiet session
  | _ => True

/-! ### The invariant -/

/-- A handler at this point lets a task run. -/
def Pc.Hosts : Pc → ℕ → Prop
  | .receiving, _ | .stopping _, _ => True
  | .cancelling t', t => t = t'
  | _, _ => False

/-- The session of a handler at this point is not in the maps. -/
def Pc.Outside : Pc → Prop
  | .connecting | .cancellingOld _ _ | .closingOld _ | .returned => True
  | _ => False

/-- The session that a handler at this point replaces. -/
def Pc.old? : Pc → Option ℕ
  | .cancellingOld old _ | .closingOld old => some old
  | _ => none

structure Inv (s : State) : Prop where
  registered : ∀ {userId session}, s.manager.userSessions userId = some session →
    ∃ h, s.handlers session = some h ∧ h.user.userId = userId ∧
      s.manager.active session = some h.socket ∧ s.manager.sessionUsers session = some h.user
  mapped : ∀ {session h}, s.handlers session = some h → s.manager.active session ≠ none →
    s.manager.userSessions h.user.userId = some session
  hosted : ∀ {t session}, s.Running t session → s.manager.inflightTask session = some t ∧
    ∃ h, s.handlers session = some h ∧ h.pc.Hosts t
  outside : ∀ {session}, (∀ h, s.handlers session = some h → h.pc.Outside) →
    Forgotten s.manager session
  holds : ∀ {session h old}, s.handlers session = some h → h.pc.old? = some old →
    s.lock = some session ∧ s.manager.userSessions h.user.userId = some old

section
variable {s : State} {session : ℕ} {user : AuthenticatedUser} {socket : ℕ} {pc : Pc}

theorem inv_empty : Inv .empty where
  registered h := by simp [State.empty, Manager.empty] at h
  mapped h := by simp [State.empty] at h
  hosted h := by
    obtain ⟨task, h, -⟩ := h
    simp [State.empty] at h
  outside _ := ⟨rfl, by simp [State.empty, Manager.empty], rfl, rfl, rfl, rfl, rfl, rfl, rfl⟩
  holds h := by simp [State.empty] at h

theorem Inv.quiet_of (hs : Inv s) (h : ∀ h, s.handlers session = some h → ∀ t, ¬ h.pc.Hosts t) :
    s.Quiet session := by
  intro t ht
  obtain ⟨-, h', hh, hosts⟩ := hs.hosted ht
  exact h h' hh t hosts

/-- No task runs that is not inflight. -/
theorem Inv.quiet_of_idle (hs : Inv s) (h : ∀ t task, ¬ s.Inflight session t task) :
    s.Quiet session := by
  rintro t ⟨task, ht, hsession, hruns⟩
  exact h t task ⟨(hs.hosted ⟨task, ht, hsession, hruns⟩).1, ht, hruns⟩

theorem handlers_self (s : State) (session : ℕ) (h : Handler) :
    (s.withHandler session h).handlers session = some h := by simp [State.withHandler]

theorem handlers_of_ne (s : State) {session session' : ℕ} (h : Handler) (he : session' ≠ session) :
    (s.withHandler session h).handlers session' = s.handlers session' := by
  simp [State.withHandler, he]

/-- A handler goes on. -/
theorem Inv.withHandler (hs : Inv s) (hh : ∀ h, s.handlers session = some h →
      h.user = user ∧ h.socket = socket)
    (hosts : ∀ t, s.Running t session → pc.Hosts t)
    (houtside : pc.Outside → Forgotten s.manager session)
    (hholds : ∀ old, pc.old? = some old →
      s.lock = some session ∧ s.manager.userSessions user.userId = some old) :
    Inv (s.withHandler session ⟨user, socket, pc⟩) where
  registered {userId session'} hmap := by
    obtain ⟨h, hh', hrest⟩ := hs.registered hmap
    by_cases he : session' = session
    · subst he
      obtain ⟨rfl, rfl⟩ := hh h hh'
      exact ⟨_, handlers_self _ _ _, hrest⟩
    · exact ⟨h, (handlers_of_ne _ _ he).trans hh', hrest⟩
  mapped {session' h'} hh' hactive := by
    by_cases he : session' = session
    · subst he
      rw [handlers_self] at hh'
      cases hh'
      cases hold : s.handlers session' with
      | none =>
        have hforgotten : Forgotten s.manager session' := hs.outside (by simp [hold])
        exact absurd hforgotten.active hactive
      | some h =>
        have hmap := hs.mapped hold hactive
        rwa [(hh h hold).1] at hmap
    · rw [handlers_of_ne _ _ he] at hh'
      exact hs.mapped hh' hactive
  hosted {t session'} ht := by
    obtain ⟨hinflight, h, hh', hpc⟩ := hs.hosted ht
    refine ⟨hinflight, ?_⟩
    by_cases he : session' = session
    · subst he
      exact ⟨_, handlers_self _ _ _, hosts t ht⟩
    · exact ⟨h, (handlers_of_ne _ _ he).trans hh', hpc⟩
  outside {session'} hout := by
    by_cases he : session' = session
    · subst he
      exact houtside (hout _ (handlers_self _ _ _))
    · exact hs.outside fun h hh' => hout h ((handlers_of_ne _ _ he).trans hh')
  holds {session' h old} hh' hold := by
    by_cases he : session' = session
    · subst he
      rw [handlers_self] at hh'
      cases hh'
      exact hholds old hold
    · rw [handlers_of_ne _ _ he] at hh'
      exact hs.holds hh' hold

/-- A task goes on, and stays in its session. -/
theorem Inv.withTask {t : ℕ} {task : Task} (hs : Inv s)
    (h : task.pc ≠ .done → s.Running t task.session) : Inv (s.withTask t task) := by
  have hrunning : ∀ {t' session'}, (s.withTask t task).Running t' session' → s.Running t' session' := by
    rintro t' session' ⟨task', ht', hsession, hruns⟩
    by_cases he : t' = t
    · subst he
      simp only [State.withTask, Function.update_self, Option.some.injEq] at ht'
      subst ht'
      exact hsession ▸ h hruns
    · exact ⟨task', by simpa [State.withTask, he] using ht', hsession, hruns⟩
  exact ⟨hs.registered, hs.mapped, fun ht => hs.hosted (hrunning ht), hs.outside, hs.holds⟩

/-- Nobody replaces a session while the lock is free. -/
theorem Inv.old_of_free (hs : Inv s) (hlock : s.lock = none) {h : Handler}
    (hh : s.handlers session = some h) : h.pc.old? = none := by
  cases hold : h.pc.old? with
  | none => rfl
  | some old =>
    rw [(hs.holds hh hold).1] at hlock
    cases hlock

theorem Inv.withLock (hs : Inv s) {lock : Option ℕ}
    (h : ∀ session h, s.handlers session = some h → h.pc.old? = none) :
    Inv { s with lock := lock } :=
  ⟨hs.registered, hs.mapped, hs.hosted, hs.outside, fun {_ _ old} hh hold => by
    rw [h _ _ hh] at hold
    cases hold⟩

/-- A map of a session that is not over is written, which says nothing of who it is. -/
theorem Inv.withManager {m : Manager} (hs : Inv s)
    (hin : ∃ h, s.handlers session = some h ∧ ¬ h.pc.Outside) (hactive : m.active = s.manager.active)
    (husers : m.userSessions = s.manager.userSessions)
    (hsessionUsers : m.sessionUsers = s.manager.sessionUsers)
    (hinflight : ∀ {t session'}, s.Running t session' →
      m.inflightTask session' = s.manager.inflightTask session')
    (hforgotten : ∀ session' ≠ session, Forgotten s.manager session' → Forgotten m session') :
    Inv (s.withManager m) where
  registered {userId session'} hmap := by
    simp only [State.withManager, hactive, husers, hsessionUsers] at hmap ⊢
    exact hs.registered hmap
  mapped {session' h'} hh' hactive' := by
    simp only [State.withManager, hactive, husers] at hactive' ⊢
    exact hs.mapped hh' hactive'
  hosted {t session'} ht := by
    have hruns : s.Running t session' := ht
    exact ⟨(hinflight hruns).trans (hs.hosted hruns).1, (hs.hosted hruns).2⟩
  outside {session'} hout := by
    refine hforgotten session' ?_ (hs.outside hout)
    rintro rfl
    obtain ⟨h, hh, hpc⟩ := hin
    exact hpc (hout h hh)
  holds {session' h old} hh' hold := by
    simp only [State.withManager, husers]
    exact hs.holds hh' hold

theorem Forgotten.clearInflight {m : Manager} {session' : ℕ} (h : Forgotten m session') :
    Forgotten (m.clearInflight session) session' := by
  refine { h with inflightTask := ?_ }
  by_cases he : session' = session
  · simp [Manager.clearInflight, he]
  · simpa [Manager.clearInflight, he] using h.inflightTask

/-- An inflight task is dropped where none runs. -/
theorem Inv.clearInflight (hs : Inv s) (hquiet : s.Quiet session) :
    Inv (s.withManager (s.manager.clearInflight session)) where
  registered := hs.registered
  mapped := hs.mapped
  hosted {t session'} ht := by
    have hruns : s.Running t session' := ht
    have he : session' ≠ session := by
      rintro rfl
      exact hquiet t hruns
    refine ⟨?_, (hs.hosted hruns).2⟩
    simpa [State.withManager, Manager.clearInflight, he] using (hs.hosted hruns).1
  outside hout := (hs.outside hout).clearInflight
  holds := hs.holds

theorem forgotten_disconnect (m : Manager) (session : ℕ) :
    Forgotten (m.disconnectUnlocked session) session := by
  constructor <;> simp [Manager.disconnectUnlocked]

theorem Forgotten.disconnect {m : Manager} {session' : ℕ} (h : Forgotten m session') :
    Forgotten (m.disconnectUnlocked session) session' := by
  by_cases he : session' = session
  · subst he
    exact forgotten_disconnect m session'
  · constructor
    case userSessions =>
      intro userId
      simp only [Manager.disconnectUnlocked]
      split_ifs
      · simp
      · exact h.userSessions userId
    all_goals simp [Manager.disconnectUnlocked, he, h.active, h.connectedSince, h.sessionUsers,
      h.sessionBalance, h.inflightTask, h.sessionState, h.sessionIntroSeen, h.sessionMsgTimestamps]

theorem userSessions_disconnect {m : Manager} {userId : String} {session' : ℕ} :
    (m.disconnectUnlocked session).userSessions userId = some session' ↔
      m.userSessions userId = some session' ∧ session' ≠ session := by
  simp only [Manager.disconnectUnlocked]
  split_ifs with h
  · simp only [false_iff, not_and, not_not]
    intro h'
    rw [h] at h'
    exact (Option.some.inj h').symm
  · constructor
    · intro h'
      exact ⟨h', fun he => h (he ▸ h')⟩
    · exact And.left

/-- A session is removed where none of its tasks runs. -/
theorem Inv.disconnect (hs : Inv s) (hlock : s.lock = none) (hquiet : s.Quiet session) :
    Inv (s.withManager (s.manager.disconnectUnlocked session)) where
  registered {userId session'} hmap := by
    obtain ⟨hmap, he⟩ := userSessions_disconnect.1 hmap
    simpa [State.withManager, Manager.disconnectUnlocked, he] using hs.registered hmap
  mapped {session' h} hh hactive := by
    have he : session' ≠ session := by
      rintro rfl
      exact hactive (forgotten_disconnect s.manager session').active
    refine userSessions_disconnect.2 ⟨hs.mapped hh ?_, he⟩
    simpa [State.withManager, Manager.disconnectUnlocked, he] using hactive
  hosted {t session'} ht := by
    have hruns : s.Running t session' := ht
    have he : session' ≠ session := by
      rintro rfl
      exact hquiet t hruns
    refine ⟨?_, (hs.hosted hruns).2⟩
    simpa [State.withManager, Manager.disconnectUnlocked, he] using (hs.hosted hruns).1
  outside hout := (hs.outside hout).disconnect
  holds {session' h old} hh hold := by
    rw [show h.pc.old? = none from hs.old_of_free hlock hh] at hold
    cases hold

/-- A session is registered for a user that has none. -/
theorem Inv.register {now : String} (hs : Inv s) (hlock : s.lock = none)
    (hh : s.handlers session = some ⟨user, socket, pc⟩) (hpc : ¬ pc.Outside)
    (hfree : s.manager.userSessions user.userId = none) :
    Inv (s.withManager (s.manager.register session user socket now)) where
  registered {userId session'} hmap := by
    by_cases hu : userId = user.userId
    · subst hu
      simp only [State.withManager, Manager.register, Function.update_self,
        Option.some.injEq] at hmap
      subst hmap
      exact ⟨_, hh, rfl, by simp [State.withManager, Manager.register],
        by simp [State.withManager, Manager.register]⟩
    · simp only [State.withManager, Manager.register, Function.update_of_ne hu] at hmap
      obtain ⟨h, hh', huser, hactive, husers⟩ := hs.registered hmap
      have he : session' ≠ session := by
        rintro rfl
        rw [hh] at hh'
        cases hh'
        exact hu huser.symm
      refine ⟨h, hh', huser, ?_, ?_⟩
      · simpa [State.withManager, Manager.register, he] using hactive
      · simpa [State.withManager, Manager.register, he] using husers
  mapped {session' h'} hh' hactive := by
    by_cases he : session' = session
    · subst he
      have hh'' : s.handlers session' = some h' := hh'
      rw [hh] at hh''
      cases hh''
      simp [State.withManager, Manager.register]
    · have hmap := hs.mapped hh' (by
        simpa [State.withManager, Manager.register, he] using hactive)
      have hu : h'.user.userId ≠ user.userId := by
        intro hu
        rw [hu, hfree] at hmap
        cases hmap
      simpa [State.withManager, Manager.register, hu] using hmap
  hosted := hs.hosted
  outside {session'} hout := by
    have he : session' ≠ session := by
      rintro rfl
      exact hpc (hout _ hh)
    have hforgotten := hs.outside hout
    constructor
    case userSessions =>
      intro userId
      by_cases hu : userId = user.userId
      · simp [State.withManager, Manager.register, hu, he.symm]
      · simpa [State.withManager, Manager.register, hu] using hforgotten.userSessions userId
    all_goals simp [State.withManager, Manager.register, he, hforgotten.active,
      hforgotten.connectedSince, hforgotten.sessionUsers, hforgotten.sessionBalance,
      hforgotten.inflightTask, hforgotten.sessionState, hforgotten.sessionIntroSeen,
      hforgotten.sessionMsgTimestamps]
  holds {session' h old} hh' hold := by
    rw [show h.pc.old? = none from hs.old_of_free hlock hh'] at hold
    cases hold

/-- A task is spawned where none runs. -/
theorem Inv.spawn {t : ℕ} (hs : Inv s) (hh : s.handlers session = some ⟨user, socket, .receiving⟩)
    (hnew : s.tasks t = none) (hquiet : s.Quiet session) :
    Inv ((s.withTask t ⟨session, .created, false⟩).withManager (s.manager.setInflight session t)) where
  registered := hs.registered
  mapped := hs.mapped
  hosted {t' session'} ht := by
    obtain ⟨task, ht, hsession, hruns⟩ := ht
    by_cases he : t' = t
    · subst he
      simp only [State.withManager, State.withTask, Function.update_self, Option.some.injEq] at ht
      subst ht
      subst hsession
      exact ⟨by simp [State.withManager, Manager.setInflight], _, hh, trivial⟩
    · have hruns' : s.Running t' session' :=
        ⟨task, by simpa [State.withManager, State.withTask, he] using ht, hsession, hruns⟩
      have hne : session' ≠ session := by
        rintro rfl
        exact hquiet t' hruns'
      refine ⟨?_, (hs.hosted hruns').2⟩
      simpa [State.withManager, Manager.setInflight, hne] using (hs.hosted hruns').1
  outside {session'} hout := by
    have he : session' ≠ session := by
      rintro rfl
      exact hout _ hh
    refine { hs.outside hout with inflightTask := ?_ }
    simpa [State.withManager, Manager.setInflight, he] using (hs.outside hout).inflightTask
  holds := hs.holds

/-- Without a session to replace, the user has none. -/
theorem Inv.free_of_oldSession (hs : Inv s) {userId : String}
    (h : s.manager.oldSession userId = none) : s.manager.userSessions userId = none := by
  cases hmap : s.manager.userSessions userId with
  | none => rfl
  | some old =>
    obtain ⟨h', -, -, hactive, -⟩ := hs.registered hmap
    simp [Manager.oldSession, hmap, hactive] at h

theorem userSessions_of_oldSession {m : Manager} {userId : String} {old : ℕ}
    (h : m.oldSession userId = some old) : m.userSessions userId = some old := by
  rw [Manager.oldSession] at h
  split at h
  · rename_i old' hmap
    split_ifs at h
    cases h
    exact hmap
  · cases h

/-! ### What a step keeps -/

theorem Inv.quiet (hs : Inv s) (hh : s.handlers session = some ⟨user, socket, pc⟩)
    (hpc : ∀ t, ¬ pc.Hosts t) : s.Quiet session := by
  refine hs.quiet_of fun h hh' => ?_
  rw [hh] at hh'
  cases hh'
  exact hpc

/-- A handler goes on, from a point that is known. -/
theorem Inv.goto {pc' : Pc} (hs : Inv s) (hh : s.handlers session = some ⟨user, socket, pc⟩)
    (hosts : ∀ t, s.Running t session → pc'.Hosts t)
    (houtside : pc'.Outside → Forgotten s.manager session)
    (hholds : ∀ old, pc'.old? = some old →
      s.lock = some session ∧ s.manager.userSessions user.userId = some old) :
    Inv (s.withHandler session ⟨user, socket, pc'⟩) := by
  refine hs.withHandler (fun h hh' => ?_) hosts houtside hholds
  rw [hh] at hh'
  cases hh'
  exact ⟨rfl, rfl⟩

/-- A handler goes on inside, and replaces nothing. -/
theorem Inv.inside {pc' : Pc} (hs : Inv s) (hh : s.handlers session = some ⟨user, socket, pc⟩)
    (hosts : ∀ t, s.Running t session → pc'.Hosts t) (hinside : ¬ pc'.Outside)
    (hold : pc'.old? = none) : Inv (s.withHandler session ⟨user, socket, pc'⟩) := by
  refine hs.goto hh hosts (fun h => absurd h hinside) fun old h => ?_
  rw [hold] at h
  cases h

/-- A running task's handler is inside. -/
theorem Inv.inside_of_running {t : ℕ} (hs : Inv s) (ht : s.Running t session) :
    ∃ h, s.handlers session = some h ∧ ¬ h.pc.Outside := by
  obtain ⟨-, h, hh, hosts⟩ := hs.hosted ht
  refine ⟨h, hh, fun houtside => ?_⟩
  cases hpc : h.pc <;> simp_all [Pc.Hosts, Pc.Outside]

theorem Inv.cancel {t : ℕ} {task : Task} (hs : Inv s) (h : s.Inflight session t task) :
    Inv (s.withTask t task.cancel) :=
  hs.withTask fun _ => ⟨task, h.2.1, rfl, h.2.2⟩

/-- The intro is marked as seen. -/
theorem Inv.setIntroSeen (hs : Inv s) (hin : ∃ h, s.handlers session = some h ∧ ¬ h.pc.Outside)
    (marked : Prop) [Decidable marked] :
    Inv (s.withManager (if marked then s.manager.setIntroSeen session else s.manager)) := by
  split_ifs
  · refine hs.withManager hin rfl rfl rfl (fun _ => rfl) fun session' he h => ?_
    exact { h with sessionIntroSeen := by simp [Manager.setIntroSeen, he, h.sessionIntroSeen] }
  · exact hs

theorem Inv.checkMessageRate (hs : Inv s) (hin : ∃ h, s.handlers session = some h ∧ ¬ h.pc.Outside)
    (now : ℚ) : Inv (s.withManager (s.manager.checkMessageRate session now).2) := by
  refine hs.withManager hin rfl rfl rfl (fun _ => rfl) fun session' he h => ?_
  have hnone : (s.manager.checkMessageRate session now).2.sessionMsgTimestamps session' = none := by
    simp [Manager.checkMessageRate, he, h.sessionMsgTimestamps]
  exact { h with sessionMsgTimestamps := hnone }

theorem Inv.updateBalance (hs : Inv s) (hin : ∃ h, s.handlers session = some h ∧ ¬ h.pc.Outside)
    (newBalance : ℤ) : Inv (s.withManager (s.manager.updateBalance session newBalance)) := by
  refine hs.withManager hin rfl rfl rfl (fun _ => rfl) fun session' he h => ?_
  exact { h with sessionBalance := by simp [Manager.updateBalance, he, h.sessionBalance] }

/-- A task ends with `clear_inflight`. -/
theorem Inv.finish {t : ℕ} {taskPc : TaskPc} {cancel : Bool} (hs : Inv s)
    (ht : s.tasks t = some ⟨session, taskPc, cancel⟩) (hruns : taskPc ≠ .done) :
    Inv ((s.withManager (s.manager.clearInflight session)).withTask t ⟨session, .done, cancel⟩) := by
  have hinflight := (hs.hosted ⟨_, ht, rfl, hruns⟩).1
  have hdone : Inv (s.withTask t ⟨session, .done, cancel⟩) := hs.withTask fun h => absurd rfl h
  refine hdone.clearInflight fun t' ht' => ?_
  have hinflight' : s.manager.inflightTask session = some t' := (hdone.hosted ht').1
  obtain ⟨task, htask, -, hne⟩ := ht'
  rw [hinflight, Option.some.injEq] at hinflight'
  subst hinflight'
  simp only [State.withTask, Function.update_self, Option.some.injEq] at htask
  subst htask
  exact hne rfl

/-- The replaced session is removed, and the new one registered. -/
theorem Inv.closedOld {old : ℕ} {now : String} (hs : Inv s)
    (hh : s.handlers session = some ⟨user, socket, .closingOld old⟩) (hquiet : s.Quiet old) :
    Inv (({ s with lock := none }).withHandler session ⟨user, socket, .greeting⟩ |>.withManager
      ((s.manager.disconnectUnlocked old).register session user socket now)) := by
  obtain ⟨hlock, hmap⟩ := hs.holds hh rfl
  have hgreeting : Inv (s.withHandler session ⟨user, socket, .greeting⟩) :=
    hs.inside hh (fun t ht => absurd ht (hs.quiet hh (by simp [Pc.Hosts]) t)) (by simp [Pc.Outside])
      rfl
  have hnone : ∀ session' h, (s.withHandler session ⟨user, socket, .greeting⟩).handlers session' =
      some h → h.pc.old? = none := by
    intro session' h hh'
    by_cases he : session' = session
    · subst he
      rw [handlers_self] at hh'
      cases hh'
      rfl
    · rw [handlers_of_ne _ _ he] at hh'
      cases hold : h.pc.old? with
      | none => rfl
      | some old' =>
        rw [(hs.holds hh' hold).1, Option.some.injEq] at hlock
        exact absurd hlock he
  have hfree : Inv { s.withHandler session ⟨user, socket, .greeting⟩ with lock := none } :=
    hgreeting.withLock hnone
  have hremoved := hfree.disconnect rfl hquiet
  refine hremoved.register rfl (handlers_self s session _) (by simp [Pc.Outside]) ?_
  show (s.manager.disconnectUnlocked old).userSessions user.userId = none
  simp [Manager.disconnectUnlocked, hmap]

/-- **What a settled step keeps.** -/
theorem inv_step {s' : State} {e : Event} (hs : Inv s) (hstep : Step s e s')
    (hsettled : Settled s e) : Inv s' := by
  cases hstep with
  | @connect session socket user hnew =>
    have hquiet : s.Quiet session := hs.quiet_of fun h hh => by simp [hnew] at hh
    exact hs.withHandler (fun h hh => by simp [hnew] at hh) (fun t ht => absurd ht (hquiet t))
      (fun _ => hs.outside fun h hh => by simp [hnew] at hh) (fun old h => by cases h)
  | @acquire session socket user now hh hlock hold =>
    have hquiet := hs.quiet hh (by simp [Pc.Hosts])
    have hgreeting : Inv (s.withHandler session ⟨user, socket, .greeting⟩) :=
      hs.inside hh (fun t ht => absurd ht (hquiet t)) (by simp [Pc.Outside]) rfl
    exact hgreeting.register hlock (handlers_self s _ _) (by simp [Pc.Outside])
      (hs.free_of_oldSession hold)
  | @replace session socket old t user task hh hlock hold htask =>
    have hlocked : Inv { s with lock := some session } :=
      hs.withLock fun _ _ hh' => hs.old_of_free hlock hh'
    have hcancel := hlocked.cancel htask
    exact hcancel.goto hh (fun t ht => absurd ht (hcancel.quiet hh (by simp [Pc.Hosts]) t))
      (fun _ => hs.outside fun h hh' => by
        rw [hh] at hh'
        cases hh'
        trivial)
      fun old' h => by
        cases h
        exact ⟨rfl, userSessions_of_oldSession hold⟩
  | @replaceIdle session socket old user hh hlock hold hidle =>
    have hlocked : Inv { s with lock := some session } :=
      hs.withLock fun _ _ hh' => hs.old_of_free hlock hh'
    have hcleared := hlocked.clearInflight (hs.quiet_of_idle hidle)
    exact hcleared.goto hh (fun t ht => absurd ht (hcleared.quiet hh (by simp [Pc.Hosts]) t))
      (fun _ => hcleared.outside fun h hh' => by
        rw [show s.handlers _ = some h from hh'] at hh
        cases hh
        trivial)
      fun old' h => by
        cases h
        exact ⟨rfl, userSessions_of_oldSession hold⟩
  | cancelledOld hh htask hdone =>
    have hcleared := hs.clearInflight (hsettled _ _ _ hh rfl)
    exact hcleared.goto hh (fun t ht => absurd ht (hcleared.quiet hh (by simp [Pc.Hosts]) t))
      (fun _ => hcleared.outside fun h hh' => by
        rw [show s.handlers _ = some h from hh'] at hh
        cases hh
        trivial)
      fun old' h => by
        cases h
        exact hs.holds hh rfl
  | closedOld hh => exact hs.closedOld hh (hsettled _ _ hh rfl)
  | greeted hh => exact hs.inside hh (fun _ _ => trivial) (by simp [Pc.Outside]) rfl
  | greetingFails hh => exact hsettled.elim
  | snapshot hh =>
    refine hs.withManager ⟨_, hh, by simp [Pc.Outside]⟩ rfl rfl rfl (fun _ => rfl)
      fun session' he h => ?_
    exact { h with sessionState := by simp [Manager.setStateSnapshot, he, h.sessionState] }
  | message hh => exact hs.checkMessageRate ⟨_, hh, by simp [Pc.Outside]⟩ _
  | meter hh hallowed hidle =>
    refine (hs.checkMessageRate ⟨_, hh, by simp [Pc.Outside]⟩ _).inside hh
      (fun t ht => absurd ht (hs.quiet_of_idle hidle t)) (by simp [Pc.Outside]) rfl
  | refused hh => exact hs.inside hh (fun _ _ => trivial) (by simp [Pc.Outside]) rfl
  | @spawn session socket t user sessionUser hh hnew =>
    have hreceiving : Inv (s.withHandler session ⟨user, socket, .receiving⟩) :=
      hs.inside hh (fun _ _ => trivial) (by simp [Pc.Outside]) rfl
    exact hreceiving.spawn (handlers_self s _ _) hnew (hs.quiet hh (by simp [Pc.Hosts]))
  | stop hh htask =>
    exact (hs.cancel htask).inside hh (fun _ _ => trivial) (by simp [Pc.Outside]) rfl
  | stopped hh => exact hs.inside hh (fun _ _ => trivial) (by simp [Pc.Outside]) rfl
  | leave hh htask =>
    refine (hs.cancel htask).inside hh (fun t ht => ?_) (by simp [Pc.Outside]) rfl
    have hinflight := ((hs.cancel htask).hosted ht).1
    rw [show (s.withTask _ _).manager = s.manager from rfl, htask.1, Option.some.injEq] at hinflight
    exact hinflight.symm
  | leaveIdle hh hidle =>
    have hquiet := hs.quiet_of_idle hidle
    exact (hs.clearInflight hquiet).inside hh (fun t ht => absurd ht (hquiet t))
      (by simp [Pc.Outside]) rfl
  | @cancelled session socket t user task hh htask hdone =>
    have hquiet : s.Quiet session := by
      intro t' ht'
      obtain ⟨-, h, hh', hosts⟩ := hs.hosted ht'
      rw [hh] at hh'
      cases hh'
      obtain rfl : t' = t := hosts
      obtain ⟨task', htask', -, hruns⟩ := ht'
      rw [htask] at htask'
      cases htask'
      exact hruns hdone
    exact (hs.clearInflight hquiet).inside hh (fun t ht => absurd ht (hquiet t))
      (by simp [Pc.Outside]) rfl
  | closed hh =>
    have hquiet := hs.quiet hh (by simp [Pc.Hosts])
    exact hs.inside hh (fun t ht => absurd ht (hquiet t)) (by simp [Pc.Outside]) rfl
  | @disconnected session socket user hh hlock =>
    have hquiet := hs.quiet hh (by simp [Pc.Hosts])
    refine (hs.disconnect hlock hquiet).goto hh (fun t ht => absurd ht (hquiet t))
      (fun _ => forgotten_disconnect s.manager session) fun old h => by cases h
  | start ht =>
    have hruns : s.Running _ _ := ⟨_, ht, rfl, by simp⟩
    exact (hs.setIntroSeen (hs.inside_of_running hruns) _).withTask fun _ => hruns
  | dropped ht => exact hs.withTask fun h => absurd rfl h
  | answered ht =>
    have hruns : s.Running _ _ := ⟨_, ht, rfl, by simp⟩
    exact (hs.setIntroSeen (hs.inside_of_running hruns) _).withTask fun _ => hruns
  | failed ht => exact hs.withTask fun _ => ⟨_, ht, rfl, by simp⟩
  | report ht => exact hs.withTask fun _ => ⟨_, ht, rfl, by simp⟩
  | reported ht =>
    have hruns : s.Running _ _ := ⟨_, ht, rfl, by simp⟩
    exact (hs.updateBalance (hs.inside_of_running hruns) _).finish ht (by simp)
  | depleted ht =>
    have hruns : s.Running _ _ := ⟨_, ht, rfl, by simp⟩
    exact (hs.updateBalance (hs.inside_of_running hruns) _).withTask fun _ => hruns
  | finish hpc ht =>
    refine hs.finish ht ?_
    rintro rfl
    simp at hpc
  | aborted hpc ht => exact hs.withTask fun h => absurd rfl h
  | push => exact ⟨hs.registered, hs.mapped, hs.hosted, hs.outside, hs.holds⟩
  | @pushFails session hpush hlock =>
    have hpushes : Inv { s with pushes := s.pushes.erase session } :=
      ⟨hs.registered, hs.mapped, hs.hosted, hs.outside, hs.holds⟩
    exact hpushes.disconnect hlock hsettled

theorem Inv.consistent (hs : Inv s) : Consistent s where
  single {session session' h h'} hh hh' hactive hactive' huser := by
    have hmap := hs.mapped hh hactive
    rw [huser, hs.mapped hh' hactive'] at hmap
    exact (Option.some.inj hmap).symm
  registered := hs.registered
  oneTask {t t' session} ht ht' := by
    have hinflight := (hs.hosted ht).1
    rw [(hs.hosted ht').1] at hinflight
    exact (Option.some.inj hinflight).symm
  forgotten {session h} hh hpc _ := by
    refine hs.outside fun h' hh' => ?_
    rw [hh] at hh'
    cases hh'
    rw [hpc]
    trivial

end

/-! ## Runs -/

/-- **Whatever the interleaving, the maps are consistent**: in every run in which the
    greetings are sent and no session loses its inflight task while one runs. -/
theorem consistent_of_settled {es : List Event} {s : State}
    (hrun : Run (fun s e s' => Step s e s' ∧ Settled s e) .empty es s) : Consistent s := by
  refine (Run.invariant ?_ hrun inv_empty).consistent
  rintro t e t' ht ⟨hstep, hsettled⟩
  exact inv_step ht hstep hsettled

def visitor : AuthenticatedUser := ⟨"u", some 500, none⟩

/-- A session that is greeted and left. -/
theorem consistent_of_settled_visit : ∃ s, Run (fun s e s' => Step s e s' ∧ Settled s e) .empty
    [.connect 0, .acquire 0, .greeted 0, .leave 0, .closed 0, .disconnected 0] s ∧ Consistent s := by
  have hidle : ∀ (s : State) t task, s.manager.inflightTask 0 = none → ¬ s.Inflight 0 t task := by
    rintro s t task hnone ⟨hinflight, -⟩
    rw [hnone] at hinflight
    cases hinflight
  have hrun : ∃ s, Run (fun s e s' => Step s e s' ∧ Settled s e) .empty
      [.connect 0, .acquire 0, .greeted 0, .leave 0, .closed 0, .disconnected 0] s :=
    ⟨_, .cons ⟨@Step.connect _ 0 0 visitor rfl, trivial⟩ <|
      .cons ⟨@Step.acquire _ 0 0 visitor "2026-01-01T00:00:00+00:00" rfl rfl rfl, trivial⟩ <|
      .cons ⟨@Step.greeted _ 0 0 visitor rfl, trivial⟩ <|
      .cons ⟨@Step.leaveIdle _ 0 0 visitor rfl fun t task => hidle _ t task rfl, trivial⟩ <|
      .cons ⟨@Step.closed _ 0 0 visitor rfl, trivial⟩ <|
      .cons ⟨@Step.disconnected _ 0 0 visitor rfl rfl, trivial⟩ .nil⟩
  obtain ⟨s, hrun⟩ := hrun
  exact ⟨s, hrun, consistent_of_settled hrun⟩

/-- **A session whose greeting is not sent stays**: its handler has returned, and its
    socket is still registered. -/
theorem not_consistent_greetingFails : ∃ s,
    Run Step .empty [.connect 0, .acquire 0, .greetingFails 0] s ∧ ¬ Consistent s := by
  refine ⟨_, .cons (@Step.connect _ 0 0 visitor rfl) <|
    .cons (@Step.acquire _ 0 0 visitor "2026-01-01T00:00:00+00:00" rfl rfl rfl) <|
    .cons (@Step.greetingFails _ 0 0 visitor rfl) .nil, fun h => ?_⟩
  have hforgotten := @Consistent.forgotten _ h 0 ⟨visitor, 0, .returned⟩ rfl rfl fun t ht => by
    obtain ⟨task, htask, -⟩ := ht
    cases htask
  cases hforgotten.active

/-- **A task that is spawned while its session is replaced outlives it**: it marks the
    intro as seen after the session is removed. -/
theorem not_consistent_replacement : ∃ s, Run Step .empty
    [.connect 0, .acquire 0, .greeted 0, .connect 1, .acquire 1, .meter 0, .spawn 0, .start 0,
      .closedOld 1, .leave 0, .closed 0, .disconnected 0, .answered 0, .finish 0] s ∧
      ¬ Consistent s := by
  have hidle : ∀ (s : State) t task, s.manager.inflightTask 0 = none → ¬ s.Inflight 0 t task := by
    rintro s t task hnone ⟨hinflight, -⟩
    rw [hnone] at hinflight
    cases hinflight
  refine ⟨_, .cons (@Step.connect _ 0 0 visitor rfl) <|
    .cons (@Step.acquire _ 0 0 visitor "2026-01-01T00:00:00+00:00" rfl rfl rfl) <|
    .cons (@Step.greeted _ 0 0 visitor rfl) <|
    .cons (@Step.connect _ 1 1 visitor rfl) <|
    .cons (@Step.replaceIdle _ 1 1 0 visitor rfl rfl rfl fun t task => hidle _ t task rfl) <|
    .cons (@Step.meter _ 0 0 visitor 0 rfl rfl fun t task => hidle _ t task rfl) <|
    .cons (@Step.spawn _ 0 0 0 visitor visitor rfl rfl) <|
    .cons (@Step.start _ 0 0 false rfl) <|
    .cons (@Step.closedOld _ 1 1 0 visitor "2026-01-01T00:00:01+00:00" rfl) <|
    .cons (@Step.leaveIdle _ 0 0 visitor rfl fun t task => hidle _ t task rfl) <|
    .cons (@Step.closed _ 0 0 visitor rfl) <|
    .cons (@Step.disconnected _ 0 0 visitor rfl rfl) <|
    .cons (@Step.answered _ 0 0 true false false rfl) <|
    .cons (@Step.finish _ 0 0 false (.ending false) (by simp) rfl) .nil, fun h => ?_⟩
  have hforgotten := @Consistent.forgotten _ h 0 ⟨visitor, 0, .returned⟩ rfl rfl fun t ht => by
    obtain ⟨task, htask, -, hruns⟩ := ht
    cases t with
    | zero =>
      cases htask
      exact hruns rfl
    | succ t => cases htask
  cases hforgotten.sessionIntroSeen

end Copilot

end AimData
