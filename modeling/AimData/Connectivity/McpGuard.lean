/-
  The guard of the MCP transport: which messages enter a session.

  A GET with a valid raw token reserves a place and, at the first frame, binds the session of
  the SDK to the id of its token; a POST brings a message to a session.  The tasks interleave
  at their awaits, around the registry lock and the gate that a POST shares with the switch of
  the connectivity.  A message enters a session only for the token that opened it
  (`mcp_enqueue`), and the registry is bounded and is empty after a disable
  (`mcp_registry_bounds`).
-/
import AimData.Connectivity.Tokens
import AimData.Lib.Since

namespace AimData

namespace Connectivity

namespace Mcp

/-! ## The registry -/

def maxMcpConnections : ℕ := 32

def firstFrameTimeoutSeconds : ℚ := 10

def maxBindingSeconds : ℚ := 3600

/-- A place for a GET that waits for its first frame; a task is a number. -/
structure SessionReservation where
  nonce : String
  ownerTask : ℕ
  createdAt : ℚ
  firstFrameDeadline : ℚ
  deriving DecidableEq

structure SessionBinding where
  tokenId : List Char
  createdAt : ℚ
  lastValidatedActivity : ℚ
  deadline : ℚ
  ownerTask : ℕ
  closing : Bool := false
  enqueueable : Bool := true
  deriving DecidableEq

/-- `_token_deadline` -/
def tokenDeadline (expiresAt : Option ℚ) (nowWall nowMono : ℚ) : ℚ :=
  match expiresAt with
  | none => nowMono + maxBindingSeconds
  | some expires => min (nowMono + maxBindingSeconds) (nowMono + max 0 (expires - nowWall))

/-- `_reservations` by their nonces and `_bindings` by their sessions. -/
structure Registry where
  reservations : List SessionReservation
  bindings : List (String × SessionBinding)

namespace Registry

def empty : Registry := ⟨[], []⟩

def size (r : Registry) : ℕ := r.reservations.length + r.bindings.length

def reservation? (r : Registry) (nonce : String) : Option SessionReservation :=
  r.reservations.find? fun reservation => reservation.nonce = nonce

def binding? (r : Registry) (sessionId : String) : Option SessionBinding :=
  (r.bindings.find? fun entry => entry.1 = sessionId).map Prod.snd

/-- `_sweep_locked`, where `done` are the tasks that have ended. -/
def sweep (r : Registry) (done : ℕ → Bool) (now : ℚ) : Registry where
  reservations := r.reservations.filter fun reservation =>
    ¬ (done reservation.ownerTask ∨ reservation.firstFrameDeadline ≤ now)
  bindings := r.bindings.filter fun entry => ¬ (done entry.2.ownerTask ∨ entry.2.deadline ≤ now)

def reserve (r : Registry) (reservation : SessionReservation) : Registry :=
  { r with reservations := r.reservations ++ [reservation] }

/-- `self._reservations.pop(nonce, None)` -/
def release (r : Registry) (nonce : String) : Registry :=
  { r with reservations := r.reservations.filter fun reservation => reservation.nonce ≠ nonce }

def bind (r : Registry) (sessionId : String) (binding : SessionBinding) : Registry :=
  { r with bindings := Table.upsert Prod.fst r.bindings (sessionId, binding) }

/-- `_detach_session` -/
def detach (r : Registry) (sessionId : String) : Registry :=
  { r with bindings := r.bindings.filter fun entry => entry.1 ≠ sessionId }

/-- `_detach_session_if_token` -/
def detachIfToken (r : Registry) (sessionId : String) (tokenId : List Char) : Registry :=
  { r with bindings :=
      r.bindings.filter fun entry => ¬ (entry.1 = sessionId ∧ entry.2.tokenId = tokenId) }

/-- What the end of a GET takes away of the session it opened. -/
def disown (r : Registry) (sessionId : String) (owner : ℕ) : Registry :=
  { r with bindings :=
      r.bindings.filter fun entry => ¬ (entry.1 = sessionId ∧ entry.2.ownerTask = owner) }

/-- A change of the binding of a session. -/
def modify (r : Registry) (sessionId : String) (f : SessionBinding → SessionBinding) : Registry :=
  { r with bindings :=
      r.bindings.map fun entry => if entry.1 = sessionId then (entry.1, f entry.2) else entry }

end Registry

/-- The watchdog has validated the token again. -/
def SessionBinding.renew (binding : SessionBinding) (token : ConnectivityToken)
    (nowWall now : ℚ) : SessionBinding :=
  { binding with
    lastValidatedActivity := now
    deadline := min binding.deadline (tokenDeadline token.expiresAt nowWall now) }

/-- A message was allowed. -/
def SessionBinding.touch (binding : SessionBinding) (now : ℚ) : SessionBinding :=
  { binding with lastValidatedActivity := now }

/-- What a POST with a valid token asks of the session. -/
def SessionBinding.Admits (binding : SessionBinding) (token : ConnectivityToken) (now : ℚ) : Prop :=
  binding.tokenId = token.id ∧ binding.enqueueable = true ∧ binding.closing = false ∧
    now < binding.deadline

instance (binding : SessionBinding) (token : ConnectivityToken) (now : ℚ) :
    Decidable (binding.Admits token now) :=
  inferInstanceAs (Decidable (_ ∧ _ ∧ _ ∧ _))

/-! ## Tasks -/

/-- Where a GET stands, after its raw token is accepted. -/
inductive Stage where
  /-- for the registry lock, with the time that it read before -/
  | waiting (now : ℚ)
  | reserved
  | promoted (sessionId : String)
  deriving DecidableEq

/-- A GET with its watchdog, and the token that the watchdog has just validated. -/
structure Connection where
  nonce : String
  raw : List Char
  token : ConnectivityToken
  stage : Stage
  ended : Bool
  revalidated : Option ConnectivityToken

/-- The binding of the session that a GET opens. -/
def Connection.binding (c : Connection) (task : ℕ) (nowWall nowMono : ℚ) : SessionBinding where
  tokenId := c.token.id
  createdAt := nowMono
  lastValidatedActivity := nowMono
  deadline := tokenDeadline c.token.expiresAt nowWall nowMono
  ownerTask := task

/-- What the end of a GET takes away. -/
def Connection.cleanup (c : Connection) (task : ℕ) (r : Registry) : Registry :=
  match c.stage with
  | .promoted sessionId => (r.release c.nonce).disown sessionId task
  | _ => r.release c.nonce

/-- Who holds the gate: a POST, on its way to the registry or in the SDK, or a switch that
    waits for the registry. -/
inductive Gate where
  | free
  | posting (sessionId : String) (raw : List Char) (token : ConnectivityToken) (now : ℚ)
  | refusing (sessionId : String) (tokenId : List Char)
  | failing (sessionId : String)
  /-- The SDK call, which also holds the registry lock. -/
  | enqueueing
  | closing

structure State where
  tokens : TokenSystem
  mono : ℚ
  enabled : Bool
  registry : Registry
  connections : ℕ → Option Connection
  /-- the sessions that the SDK has named -/
  sessionIds : List String
  gate : Gate

def State.start (clock mono : ℚ) : State :=
  ⟨.start clock, mono, false, .empty, fun _ => none, [], .free⟩

namespace State

def done (s : State) (task : ℕ) : Bool := (s.connections task).any Connection.ended

/-- The registry lock is free between the steps but for the SDK call of a POST. -/
def Unlocked (s : State) : Prop := s.gate ≠ .enqueueing

def sweep (s : State) (now : ℚ) : Registry := s.registry.sweep s.done now

def set (s : State) (task : ℕ) (c : Connection) : State :=
  { s with connections := Function.update s.connections task (some c) }

def withRegistry (s : State) (registry : Registry) : State := { s with registry := registry }

def named (s : State) (sessionId : String) : State :=
  { s with sessionIds := sessionId :: s.sessionIds }

def withTokens (s : State) (tokens : TokenSystem) : State := { s with tokens := tokens }

def withGate (s : State) (gate : Gate) : State := { s with gate := gate }

end State

inductive Event where
  | token (e : TokenEvent)
  | tick
  | connect (task : ℕ) (raw : List Char) (now : ℚ) (token : ConnectivityToken)
  | reserve (task : ℕ)
  | refuse (task : ℕ)
  | promote (task : ℕ) (sessionId : String) (nowWall nowMono : ℚ)
  | revalidate (task : ℕ) (raw : List Char) (now : ℚ) (token : ConnectivityToken)
  | renew (task : ℕ)
  | detach (sessionId : String)
  | detachReservation (task : ℕ)
  | finish (task : ℕ) (cleaned : Bool)
  | post (sessionId : String) (raw : List Char) (now : ℚ) (token : ConnectivityToken) (nowMono : ℚ)
  | postRefused (sessionId : String) (raw : List Char) (now : ℚ) (e : TokenError)
  | postFailed (sessionId : String)
  | detachRefused
  | enqueue (sessionId : String) (raw : List Char) (token : ConnectivityToken) (nowMono : ℚ)
  | deny
  | release
  | enable
  | disable
  | shutdown
  | detachAll

/-- What a task does between two awaits.  Tasks, nonces and sessions are new, and the raw token
    of a GET stays with it. -/
inductive Step (pepper : Bytes) : State → Event → State → Prop
  /-- A call of the token service by another part of the program. -/
  | token {s : State} {e : TokenEvent} {t : TokenSystem} : TokenStep pepper s.tokens e t →
    Step pepper s (.token e) (s.withTokens t)
  | tick {s : State} {mono : ℚ} : s.mono ≤ mono → Step pepper s .tick { s with mono := mono }
  /-- `_handle_get` up to the registry lock. -/
  | connect {s : State} {task : ℕ} {nonce : String} {raw : List Char} {now : ℚ}
    {token : ConnectivityToken} {t : TokenSystem} : s.enabled = true →
    s.connections task = none → (∀ i c, s.connections i = some c → c.nonce ≠ nonce) →
    TokenStep pepper s.tokens (.verify raw now (.ok token)) t →
    Step pepper s (.connect task raw now token)
      ((s.withTokens t).set task ⟨nonce, raw, token, .waiting s.mono, false, none⟩)
  /-- The registry has room, after a sweep. -/
  | reserve {s : State} {task : ℕ} {c : Connection} {now : ℚ} : s.Unlocked →
    s.connections task = some c → c.stage = .waiting now → c.ended = false → s.enabled = true →
    (s.sweep now).size < maxMcpConnections →
    Step pepper s (.reserve task)
      ((s.withRegistry ((s.sweep now).reserve
        ⟨c.nonce, task, now, now + firstFrameTimeoutSeconds⟩)).set task
          { c with stage := .reserved })
  | refuse {s : State} {task : ℕ} {c : Connection} {now : ℚ} : s.Unlocked →
    s.connections task = some c → c.stage = .waiting now → c.ended = false →
    ¬ (s.enabled = true ∧ (s.sweep now).size < maxMcpConnections) →
    Step pepper s (.refuse task)
      ((s.withRegistry (s.sweep now)).set task { c with ended := true })
  /-- The first frame has come, and names the session. -/
  | promote {s : State} {task : ℕ} {c : Connection} {reservation : SessionReservation}
    {sessionId : String} {nowWall nowMono : ℚ} : s.Unlocked →
    s.connections task = some c → c.stage = .reserved → c.ended = false → nowMono ≤ s.mono →
    s.tokens.clock ≤ nowWall → s.registry.reservation? c.nonce = some reservation →
    reservation.ownerTask = task → nowMono ≤ reservation.firstFrameDeadline → s.enabled = true →
    sessionId ∉ s.sessionIds →
    Step pepper s (.promote task sessionId nowWall nowMono)
      (((s.withRegistry ((s.registry.release c.nonce).bind sessionId
        (c.binding task nowWall nowMono))).named sessionId).set task
          { c with stage := .promoted sessionId })
  /-- The watchdog validates the raw token of its GET. -/
  | revalidate {s : State} {task : ℕ} {c : Connection} {sessionId : String} {now : ℚ}
    {token : ConnectivityToken} {t : TokenSystem} : s.connections task = some c →
    c.stage = .promoted sessionId → c.ended = false →
    TokenStep pepper s.tokens (.verify c.raw now (.ok token)) t →
    Step pepper s (.revalidate task c.raw now token)
      ((s.withTokens t).set task { c with revalidated := some token })
  /-- It then brings the deadline of its session forward. -/
  | renew {s : State} {task : ℕ} {c : Connection} {sessionId : String} {binding : SessionBinding}
    {token : ConnectivityToken} {nowWall now : ℚ} : s.Unlocked → s.connections task = some c →
    c.stage = .promoted sessionId → c.revalidated = some token → now ≤ s.mono →
    s.registry.binding? sessionId = some binding → binding.ownerTask = task →
    Step pepper s (.renew task)
      (s.withRegistry (s.registry.modify sessionId fun b => b.renew token nowWall now))
  /-- The watchdog at the deadline or after a token that is not valid any more, or a tool whose
      token is not. -/
  | detach {s : State} {task : ℕ} {c : Connection} {sessionId : String} : s.Unlocked →
    s.connections task = some c → c.stage = .promoted sessionId →
    Step pepper s (.detach sessionId) (s.withRegistry (s.registry.detach sessionId))
  | detachReservation {s : State} {task : ℕ} {c : Connection} : s.Unlocked →
    s.connections task = some c →
    Step pepper s (.detachReservation task) (s.withRegistry (s.registry.release c.nonce))
  /-- A GET ends; it may be cancelled while it waits for the lock to clean up. -/
  | finish {s : State} {task : ℕ} {c : Connection} : s.Unlocked →
    s.connections task = some c → c.ended = false →
    Step pepper s (.finish task true)
      ((s.withRegistry (c.cleanup task s.registry)).set task { c with ended := true })
  | abandon {s : State} {task : ℕ} {c : Connection} : s.connections task = some c →
    c.ended = false → Step pepper s (.finish task false) (s.set task { c with ended := true })
  /-- `_handle_post` takes the gate and validates its raw token. -/
  | post {s : State} {sessionId : String} {raw : List Char} {now : ℚ} {token : ConnectivityToken}
    {t : TokenSystem} : s.gate = .free → s.enabled = true →
    TokenStep pepper s.tokens (.verify raw now (.ok token)) t →
    Step pepper s (.post sessionId raw now token s.mono)
      ((s.withTokens t).withGate (.posting sessionId raw token s.mono))
  | postRefused {s : State} {sessionId : String} {raw tokenId secret : List Char} {now : ℚ}
    {e : TokenError} {t : TokenSystem} : s.gate = .free → s.enabled = true →
    TokenStep pepper s.tokens (.verify raw now (.error e)) t →
    e.code ∈ ["auth_revoked", "auth_expired"] → parseToken raw = .ok (tokenId, secret) →
    Step pepper s (.postRefused sessionId raw now e)
      ((s.withTokens t).withGate (.refusing sessionId tokenId))
  /-- The validation fails in another way. -/
  | postFailed {s : State} {sessionId : String} : s.gate = .free → s.enabled = true →
    Step pepper s (.postFailed sessionId) (s.withGate (.failing sessionId))
  | detachRefused {s : State} {sessionId : String} {tokenId : List Char} :
    s.gate = .refusing sessionId tokenId →
    Step pepper s .detachRefused
      ((s.withRegistry (s.registry.detachIfToken sessionId tokenId)).withGate .free)
  | detachFailed {s : State} {sessionId : String} : s.gate = .failing sessionId →
    Step pepper s (.detach sessionId)
      ((s.withRegistry (s.registry.detach sessionId)).withGate .free)
  /-- The message is given to the SDK. -/
  | enqueue {s : State} {sessionId : String} {raw : List Char} {token : ConnectivityToken} {now : ℚ}
    {binding : SessionBinding} : s.gate = .posting sessionId raw token now →
    (s.sweep now).binding? sessionId = some binding → binding.Admits token now →
    s.enabled = true →
    Step pepper s (.enqueue sessionId raw token now)
      ((s.withRegistry ((s.sweep now).modify sessionId fun b => b.touch now)).withGate .enqueueing)
  | deny {s : State} {sessionId : String} {raw : List Char} {token : ConnectivityToken} {now : ℚ} :
    s.gate = .posting sessionId raw token now →
    ¬ (s.enabled = true ∧
      ((s.sweep now).binding? sessionId).any fun binding => binding.Admits token now) →
    Step pepper s .deny ((s.withRegistry (s.sweep now)).withGate .free)
  /-- The SDK call returns, or the task of the gate is cancelled. -/
  | release {s : State} : s.gate ≠ .free → Step pepper s .release (s.withGate .free)
  | enable {s : State} : s.gate = .free → Step pepper s .enable { s with enabled := true }
  | disable {s : State} : s.gate = .free →
    Step pepper s .disable { s with enabled := false, gate := .closing }
  | shutdown {s : State} : s.gate = .free → Step pepper s .shutdown (s.withGate .closing)
  /-- The switch has the registry. -/
  | detachAll {s : State} : s.gate = .closing →
    Step pepper s .detachAll ((s.withRegistry .empty).withGate .free)

/-! ## What a step does -/

namespace Event

/-- The calls of the token service in a step. -/
def tokens : Event → List TokenEvent
  | token e => [e]
  | connect _ raw now t => [.verify raw now (.ok t)]
  | revalidate _ raw now t => [.verify raw now (.ok t)]
  | post _ raw now t _ => [.verify raw now (.ok t)]
  | postRefused _ raw now e => [.verify raw now (.error e)]
  | _ => []

/-- The step closes the session of the task. -/
def Closes (task : ℕ) (sessionId : String) : Event → Prop
  | detach id => id = sessionId
  | finish i cleaned => i = task ∧ cleaned = true
  | detachAll => True
  | _ => False

/-- The step is of a POST at the gate or of the switch. -/
def atGate : Event → Bool
  | post .. | postRefused .. | postFailed .. | enable | disable | shutdown | detachAll => true
  | _ => false

end Event

/-- The binding of a session at a later time. -/
structure Later (b b' : SessionBinding) : Prop where
  tokenId : b'.tokenId = b.tokenId
  createdAt : b'.createdAt = b.createdAt
  ownerTask : b'.ownerTask = b.ownerTask
  closing : b'.closing = b.closing
  enqueueable : b'.enqueueable = b.enqueueable
  deadline : b'.deadline ≤ b.deadline

theorem Later.refl (b : SessionBinding) : Later b b := ⟨rfl, rfl, rfl, rfl, rfl, le_rfl⟩

theorem later_renew {token : ConnectivityToken} {nowWall now : ℚ} (b : SessionBinding) :
    Later b (b.renew token nowWall now) := ⟨rfl, rfl, rfl, rfl, rfl, min_le_left _ _⟩

theorem later_touch {now : ℚ} (b : SessionBinding) : Later b (b.touch now) :=
  ⟨rfl, rfl, rfl, rfl, rfl, le_rfl⟩

/-- The owner of a binding is the GET that opened the session. -/
def Owned (s : State) : Prop :=
  ∀ entry ∈ s.registry.bindings, entry.1 ∈ s.sessionIds ∧
    ∃ c, s.connections entry.2.ownerTask = some c ∧ c.stage = .promoted entry.1

section
variable {pepper : Bytes} {s s' : State} {e : Event} {r : Registry} {sessionId : String}
  {entry : String × SessionBinding}

theorem Registry.mem_sweep {done : ℕ → Bool} {now : ℚ} (h : entry ∈ (r.sweep done now).bindings) :
    entry ∈ r.bindings := (List.mem_filter.1 h).1

theorem Registry.mem_modify {f : SessionBinding → SessionBinding} (hf : ∀ b, Later b (f b))
    (h : entry ∈ (r.modify sessionId f).bindings) :
    ∃ old ∈ r.bindings, old.1 = entry.1 ∧ Later old.2 entry.2 := by
  obtain ⟨old, hold, rfl⟩ := List.mem_map.1 h
  refine ⟨old, hold, ?_⟩
  split_ifs
  · exact ⟨rfl, hf old.2⟩
  · exact ⟨rfl, .refl _⟩

theorem Registry.mem_of_binding {b : SessionBinding} (h : r.binding? sessionId = some b) :
    (sessionId, b) ∈ r.bindings := by
  obtain ⟨entry, hfind, rfl⟩ := Option.map_eq_some_iff.1 h
  have hid : entry.1 = sessionId := by simpa using List.find?_some hfind
  rw [← hid]
  exact List.mem_of_find?_eq_some hfind

/-- Every binding after a step was there before, and the step has not closed it, or the step has
    promoted its session. -/
inductive Kept (s : State) (e : Event) (entry : String × SessionBinding) : Prop
  | old {old : String × SessionBinding} : old ∈ s.registry.bindings → old.1 = entry.1 →
    Later old.2 entry.2 → ¬ e.Closes old.2.ownerTask old.1 → Kept s e entry
  | promoted {task : ℕ} {c : Connection} {nowWall nowMono : ℚ} : s.connections task = some c →
    c.stage = .reserved → e = .promote task entry.1 nowWall nowMono →
    entry.2 = c.binding task nowWall nowMono → entry.1 ∉ s.sessionIds → Kept s e entry

theorem kept (howned : Owned s) (hstep : Step pepper s e s')
    (hentry : entry ∈ s'.registry.bindings) : Kept s e entry := by
  cases hstep with
  | token | tick | connect | revalidate | post | postRefused | postFailed | release | enable
  | disable | shutdown =>
    exact .old hentry rfl (.refl _) id
  | reserve | refuse | deny => exact .old (Registry.mem_sweep hentry) rfl (.refl _) id
  | @promote task c reservation sessionId nowWall nowMono _ hc hstage _ _ _ _ _ _ _ hnew =>
    have hfresh : ∀ old ∈ s.registry.bindings, old.1 ≠ sessionId :=
      fun old hold heq => hnew (heq ▸ (howned old hold).1)
    have hbind : entry ∈ s.registry.bindings ++ [(sessionId, c.binding task nowWall nowMono)] := by
      have hput : Table.upsert Prod.fst s.registry.bindings
          (sessionId, c.binding task nowWall nowMono) = _ := Table.upsert_of_fresh hfresh
      exact hput ▸ hentry
    rcases List.mem_append.1 hbind with hold | hold
    · exact .old hold rfl (.refl _) id
    · obtain rfl := List.mem_singleton.1 hold
      exact .promoted hc hstage rfl rfl hnew
  | renew =>
    obtain ⟨old, hold, hid, hlater⟩ := Registry.mem_modify later_renew hentry
    exact .old hold hid hlater id
  | detach | detachFailed =>
    obtain ⟨hold, hne⟩ := List.mem_filter.1 hentry
    exact .old hold rfl (.refl _) fun h => of_decide_eq_true hne h.symm
  | detachReservation => exact .old hentry rfl (.refl _) id
  | @finish task c _ hc _ =>
    have hold : entry ∈ s.registry.bindings ∧ entry.2.ownerTask ≠ task := by
      change entry ∈ (c.cleanup task s.registry).bindings at hentry
      rw [Connection.cleanup] at hentry
      split at hentry
      · rename_i sessionId hstage
        obtain ⟨hold, hne⟩ := List.mem_filter.1 hentry
        refine ⟨hold, fun htask => ?_⟩
        obtain ⟨-, c', hc', hstage'⟩ := howned entry hold
        rw [htask, hc] at hc'
        obtain rfl := Option.some.inj hc'
        rw [hstage] at hstage'
        exact of_decide_eq_true hne ⟨(Stage.promoted.inj hstage').symm, htask⟩
      · rename_i hstage
        refine ⟨hentry, fun htask => ?_⟩
        obtain ⟨-, c', hc', hstage'⟩ := howned entry hentry
        rw [htask, hc] at hc'
        obtain rfl := Option.some.inj hc'
        exact hstage _ hstage'
    exact .old hold.1 rfl (.refl _) fun h => hold.2 h.1.symm
  | abandon => exact .old hentry rfl (.refl _) fun h => Bool.false_ne_true h.2
  | detachRefused => exact .old (List.mem_filter.1 hentry).1 rfl (.refl _) id
  | enqueue =>
    obtain ⟨old, hold, hid, hlater⟩ := Registry.mem_modify later_touch hentry
    exact .old (Registry.mem_sweep hold) hid hlater id
  | detachAll => exact absurd hentry List.not_mem_nil

/-- What a task keeps of a GET: its raw token, its token, and the session it has opened. -/
structure Follows (c c' : Connection) : Prop where
  raw : c'.raw = c.raw
  token : c'.token = c.token
  stage : ∀ sessionId, c.stage = .promoted sessionId → c'.stage = .promoted sessionId

theorem Follows.refl (c : Connection) : Follows c c := ⟨rfl, rfl, fun _ => id⟩

theorem set_cases {s : State} {i task : ℕ} {c c' : Connection}
    (h : (s.set i c).connections task = some c') :
    (task = i ∧ c' = c) ∨ (task ≠ i ∧ s.connections task = some c') := by
  change Function.update s.connections i (some c) task = some c' at h
  by_cases heq : task = i
  · subst heq
    rw [Function.update_self] at h
    exact Or.inl ⟨rfl, (Option.some.inj h).symm⟩
  · rw [Function.update_of_ne heq] at h
    exact Or.inr ⟨heq, h⟩

theorem set_follows {s : State} {i task : ℕ} {c₁ c₂ c : Connection} (hi : s.connections i = some c₁)
    (hfollows : Follows c₁ c₂) (hc : s.connections task = some c) :
    ∃ c', (s.set i c₂).connections task = some c' ∧ Follows c c' := by
  by_cases heq : task = i
  · subst heq
    rw [hi] at hc
    obtain rfl := Option.some.inj hc
    exact ⟨c₂, Function.update_self .., hfollows⟩
  · exact ⟨c, (Function.update_of_ne heq ..).trans hc, .refl c⟩

theorem connection_step {task : ℕ} {c : Connection} (hstep : Step pepper s e s')
    (hc : s.connections task = some c) : ∃ c', s'.connections task = some c' ∧ Follows c c' := by
  cases hstep with
  | connect _ hnone =>
    refine ⟨c, (Function.update_of_ne ?_ ..).trans hc, .refl c⟩
    rintro rfl
    rw [hnone] at hc
    cases hc
  | reserve _ hi hstage | promote _ hi hstage =>
    exact set_follows hi ⟨rfl, rfl, fun _ h => nomatch hstage.symm.trans h⟩ hc
  | refuse _ hi | finish _ hi => exact set_follows hi ⟨rfl, rfl, fun _ => id⟩ hc
  | revalidate hi | abandon hi => exact set_follows hi ⟨rfl, rfl, fun _ => id⟩ hc
  | token | tick | renew | detach | detachReservation | post | postRefused | postFailed
  | detachRefused | detachFailed | enqueue | deny | release | enable | disable | shutdown
  | detachAll => exact ⟨c, hc, .refl c⟩

theorem connection_cases {task : ℕ} {c' : Connection} (hstep : Step pepper s e s')
    (hc' : s'.connections task = some c') :
    (∃ c, s.connections task = some c ∧ c.raw = c'.raw ∧ c.token = c'.token) ∨
      ∃ now, e = .connect task c'.raw now c'.token := by
  cases hstep with
  | connect =>
    rcases set_cases hc' with ⟨rfl, rfl⟩ | ⟨-, hc⟩
    · exact Or.inr ⟨_, rfl⟩
    · exact Or.inl ⟨c', hc, rfl, rfl⟩
  | reserve _ hi | promote _ hi | refuse _ hi | finish _ hi =>
    rcases set_cases hc' with ⟨rfl, rfl⟩ | ⟨-, hc⟩
    · exact Or.inl ⟨_, hi, rfl, rfl⟩
    · exact Or.inl ⟨c', hc, rfl, rfl⟩
  | revalidate hi | abandon hi =>
    rcases set_cases hc' with ⟨rfl, rfl⟩ | ⟨-, hc⟩
    · exact Or.inl ⟨_, hi, rfl, rfl⟩
    · exact Or.inl ⟨c', hc, rfl, rfl⟩
  | token | tick | renew | detach | detachReservation | post | postRefused | postFailed
  | detachRefused | detachFailed | enqueue | deny | release | enable | disable | shutdown
  | detachAll => exact Or.inl ⟨c', hc', rfl, rfl⟩

theorem sessionIds_step (hstep : Step pepper s e s') (h : sessionId ∈ s.sessionIds) :
    sessionId ∈ s'.sessionIds := by
  cases hstep with
  | promote => exact List.mem_cons_of_mem _ h
  | _ => exact h

theorem promote_step {task : ℕ} {nowWall nowMono : ℚ}
    (hstep : Step pepper s (.promote task sessionId nowWall nowMono) s') :
    sessionId ∈ s'.sessionIds ∧
      ∃ c, s'.connections task = some c ∧ c.stage = .promoted sessionId := by
  cases hstep with
  | promote => exact ⟨List.mem_cons_self, _, Function.update_self .., rfl⟩

theorem owned_step (howned : Owned s) (hstep : Step pepper s e s') : Owned s' := by
  intro entry hentry
  rcases kept howned hstep hentry with ⟨hold, hid, hlater, -⟩ | ⟨hc, hstage, rfl, hbinding, -⟩
  · obtain ⟨hmem, c, hc, hstage⟩ := howned _ hold
    obtain ⟨c', hc', hfollows⟩ := connection_step hstep hc
    rw [hid] at hmem hstage
    rw [hlater.ownerTask]
    exact ⟨sessionIds_step hstep hmem, c', hc', hfollows.stage _ hstage⟩
  · rw [hbinding]
    exact promote_step hstep

/-- The token service of a step. -/
theorem tokens_step (hstep : Step pepper s e s') :
    Run (TokenStep pepper) s.tokens e.tokens s'.tokens := by
  cases hstep with
  | token h | connect _ _ _ h | revalidate _ _ _ h | post _ _ h => exact .cons h .nil
  | postRefused _ _ h => exact .cons h .nil
  | _ => exact .nil

theorem gate_step {raw : List Char} {token : ConnectivityToken} {nowMono : ℚ}
    (hstep : Step pepper s e s') (hgate : s'.gate = .posting sessionId raw token nowMono) :
    (∃ now, e = .post sessionId raw now token nowMono) ∨
      (s.gate = .posting sessionId raw token nowMono ∧ e.atGate = false) := by
  cases hstep with
  | post =>
    obtain ⟨rfl, rfl, rfl, rfl⟩ := Gate.posting.inj hgate
    exact Or.inl ⟨_, rfl⟩
  | postRefused | postFailed | detachRefused | detachFailed | enqueue | deny | release | disable
  | shutdown | detachAll => cases hgate
  | enable hfree =>
    rw [show s.gate = _ from hgate] at hfree
    cases hfree
  | _ => exact Or.inr ⟨hgate, rfl⟩

end

/-! ## Runs -/

def tokenEvents (es : List Event) : List TokenEvent := es.flatMap Event.tokens

/-- The GET was let in with its raw token. -/
def Connected (pepper : Bytes) (es : List Event) (task : ℕ) (raw : List Char)
    (token : ConnectivityToken) : Prop :=
  Once (fun es e => ∃ now, e = .connect task raw now token ∧
    Accepted pepper (tokenEvents es) raw now token) es

/-- The session was opened by a GET that was let in with a raw token of the id, and no step has
    closed it since; it lasts an hour at most, and not longer than the token. -/
def OpenSession (pepper : Bytes) (es : List Event) (sessionId : String) (task : ℕ)
    (tokenId : List Char) (createdAt deadline : ℚ) : Prop :=
  Since (fun es e => ∃ raw token nowWall, e = .promote task sessionId nowWall createdAt ∧
      Connected pepper es task raw token ∧ token.id = tokenId ∧
      deadline ≤ tokenDeadline token.expiresAt nowWall createdAt)
    (fun e => ¬ e.Closes task sessionId) es

/-- The POST has the gate, with a raw token that was accepted when it took it. -/
def HasGate (pepper : Bytes) (es : List Event) (sessionId : String) (raw : List Char)
    (token : ConnectivityToken) (nowMono : ℚ) : Prop :=
  Since (fun es e => ∃ now, e = .post sessionId raw now token nowMono ∧
    Accepted pepper (tokenEvents es) raw now token) (fun e => e.atGate = false) es

structure Inv (pepper : Bytes) (es : List Event) (s : State) : Prop where
  owned : Owned s
  connected : ∀ task c, s.connections task = some c → Connected pepper es task c.raw c.token
  sessions : ∀ entry ∈ s.registry.bindings, OpenSession pepper es entry.1 entry.2.ownerTask
    entry.2.tokenId entry.2.createdAt entry.2.deadline
  gate : ∀ sessionId raw token nowMono, s.gate = .posting sessionId raw token nowMono →
    HasGate pepper es sessionId raw token nowMono

section
variable {pepper : Bytes} {s s' : State} {e : Event} {es : List Event} {sessionId : String}
  {raw : List Char} {token : ConnectivityToken} {nowMono : ℚ}

theorem inv_start {clock mono : ℚ} : Inv pepper [] (.start clock mono) where
  owned := fun _ h => absurd h List.not_mem_nil
  connected := fun _ _ h => nomatch h
  sessions := fun _ h => absurd h List.not_mem_nil
  gate := fun _ _ _ _ h => nomatch h

theorem OpenSession.sooner {task : ℕ} {tokenId : List Char} {createdAt deadline deadline' : ℚ}
    (h : OpenSession pepper es sessionId task tokenId createdAt deadline)
    (hdeadline : deadline' ≤ deadline) :
    OpenSession pepper es sessionId task tokenId createdAt deadline' :=
  Since.mono h fun ⟨raw, token, nowWall, he, hconnected, hid, hle⟩ =>
    ⟨raw, token, nowWall, he, hconnected, hid, hdeadline.trans hle⟩

theorem tokens_run {clock mono : ℚ} (h : Run (Step pepper) (.start clock mono) es s) :
    TokenInv pepper (tokenEvents es) s.tokens.records := by
  have hrun : Run (TokenStep pepper) (.start clock) (tokenEvents es) s.tokens :=
    h.project State.tokens Event.tokens tokens_step
  exact Connectivity.inv_run hrun

/-- A step that accepts a raw token does so after the calls that were before. -/
theorem accepted_step (htokens : TokenInv pepper (tokenEvents es) s.tokens.records) {now : ℚ}
    (hstep : Step pepper s e s') (he : e.tokens = [.verify raw now (.ok token)]) :
    Accepted pepper (tokenEvents es) raw now token := by
  have hcalls := tokens_step hstep
  rw [he] at hcalls
  cases hcalls with
  | cons hcall => exact htokens.accepted hcall

theorem Inv.step (h : Inv pepper es s)
    (htokens : TokenInv pepper (tokenEvents es) s.tokens.records) (hstep : Step pepper s e s') :
    Inv pepper (es ++ [e]) s' where
  owned := owned_step h.owned hstep
  connected := by
    intro task c' hc'
    rcases connection_cases hstep hc' with ⟨c, hc, hraw, htoken⟩ | ⟨now, rfl⟩
    · rw [← hraw, ← htoken]
      exact Once.append (h.connected task c hc)
    · exact .last ⟨now, rfl, accepted_step htokens hstep rfl⟩
  sessions := by
    intro entry hentry
    rcases kept h.owned hstep hentry with
      ⟨hold, hid, hlater, hopen⟩ | @⟨task, c, nowWall, nowMono, hc, -, rfl, hbinding, -⟩
    · rw [← hid, hlater.ownerTask, hlater.tokenId, hlater.createdAt]
      exact Since.append ((h.sessions _ hold).sooner hlater.deadline) hopen
    · rw [hbinding]
      exact .last ⟨c.raw, c.token, nowWall, rfl, h.connected task c hc, rfl, le_rfl⟩
  gate := by
    intro sessionId raw token nowMono hgate
    rcases gate_step hstep hgate with ⟨now, rfl⟩ | ⟨hgate, he⟩
    · exact .last ⟨now, rfl, accepted_step htokens hstep rfl⟩
    · exact Since.append (h.gate _ _ _ _ hgate) he

theorem inv_run {clock mono : ℚ} (h : Run (Step pepper) (.start clock mono) es s) :
    Inv pepper es s :=
  h.history inv_start fun hrun hinv hstep => hinv.step (tokens_run hrun) hstep

theorem step_enqueue (hstep : Step pepper s (.enqueue sessionId raw token nowMono) s') :
    s.gate = .posting sessionId raw token nowMono ∧ s.enabled = true ∧
      ∃ binding, (sessionId, binding) ∈ s.registry.bindings ∧ binding.Admits token nowMono := by
  cases hstep with
  | enqueue hgate hbinding hadmits henabled =>
    exact ⟨hgate, henabled, _, Registry.mem_sweep (Registry.mem_of_binding hbinding), hadmits⟩

theorem claude_verified {s : TokenSystem} {es : List TokenEvent} (h : TokenInv [7] es s.records)
    (hes : TokenEvent.create claude
      (.ok (claudeRaw, (newRecord [7] 0 claudeId claudeSecret claude).token)) ∈ es)
    (hactive : isRevoked es claudeId = false) (hclock : s.clock ≤ 5) :
    ∃ token t, TokenStep [7] s (.verify claudeRaw 5 (.ok token)) t ∧ t.clock = 5 ∧
      token.id = claudeId ∧ token.expiresAt = some 100 := by
  have hexpires : ∀ expires, claude.expiresAt = some expires → (5 : ℚ) ≤ expires := by
    simp [claude]
    norm_num
  have hverify : TokenStep [7] s
      (.verify claudeRaw 5 (verifyToken [7] s.records 5 5 claudeRaw).1) _ :=
    .verify hclock le_rfl
  obtain ⟨token, hresult, hid, -, hexpiresAt⟩ := h.serves hes hactive hexpires
  rw [hresult] at hverify
  exact ⟨token, _, hverify, rfl, hid, hexpiresAt⟩

/-- The GET with the token, where it stands. -/
def claudeGet (token : ConnectivityToken) (stage : Stage) : Connection :=
  ⟨"nonce", claudeRaw, token, stage, false, none⟩

def claudeState (tokens : TokenSystem) (token : ConnectivityToken) (stage : Stage)
    (registry : Registry) (sessionIds : List String) (gate : Gate) : State :=
  ⟨tokens, 0, true, registry, Function.update (fun _ => none) 0 (some (claudeGet token stage)),
    sessionIds, gate⟩

def claudePlace : Registry := ⟨[⟨"nonce", 0, 0, 0 + firstFrameTimeoutSeconds⟩], []⟩

def claudeBound (token : ConnectivityToken) : Registry :=
  ⟨[], [("session", (claudeGet token .reserved).binding 0 5 0)]⟩

section
variable {t t' : TokenSystem} {token token' : ConnectivityToken}

theorem claude_set (stage stage' : Stage) {registry : Registry} {sessionIds : List String}
    {gate : Gate} : (claudeState t token stage registry sessionIds gate).set 0
      (claudeGet token stage') = claudeState t token stage' registry sessionIds gate := by
  simp [State.set, claudeState]

theorem claude_reserve : Step [7] (claudeState t token (.waiting 0) .empty [] .free) (.reserve 0)
    (claudeState t token .reserved claudePlace [] .free) := by
  have hreserve := @Step.reserve [7] (claudeState t token (.waiting 0) .empty [] .free) 0
    (claudeGet token (.waiting 0)) 0 (by simp [State.Unlocked, claudeState]) rfl rfl rfl rfl
    (by simp [State.sweep, claudeState, Registry.sweep, Registry.empty, Registry.size,
      maxMcpConnections])
  rw [← claude_set (.waiting 0) .reserved]
  exact hreserve

theorem claude_promote (hclock : t.clock ≤ 5) :
    Step [7] (claudeState t token .reserved claudePlace [] .free) (.promote 0 "session" 5 0)
      (claudeState t token (.promoted "session") (claudeBound token) ["session"] .free) := by
  have hpromote := @Step.promote [7] (claudeState t token .reserved claudePlace [] .free) 0
    (claudeGet token .reserved) _ "session" 5 0 (by simp [State.Unlocked, claudeState]) rfl rfl rfl
    le_rfl hclock rfl rfl (by simp [firstFrameTimeoutSeconds]) rfl List.not_mem_nil
  rw [← claude_set .reserved (.promoted _)]
  exact hpromote

theorem claude_post (hverify : TokenStep [7] t (.verify claudeRaw 5 (.ok token')) t') :
    Step [7] (claudeState t token (.promoted "session") (claudeBound token) ["session"] .free)
      (.post "session" claudeRaw 5 token' 0)
      (claudeState t' token (.promoted "session") (claudeBound token) ["session"]
        (.posting "session" claudeRaw token' 0)) :=
  .post rfl rfl hverify

theorem claude_deadline (hexpires : token.expiresAt = some 100) :
    0 < ((claudeGet token .reserved).binding 0 5 0).deadline := by
  norm_num [Connection.binding, claudeGet, tokenDeadline, hexpires, maxBindingSeconds]

theorem claude_bound (hexpires : token.expiresAt = some 100) {stage : Stage} {gate : Gate} :
    ((claudeState t token stage (claudeBound token) ["session"] gate).sweep 0).binding? "session" =
      some ((claudeGet token .reserved).binding 0 5 0) := by
  have hlive : ¬ ((claudeGet token .reserved).binding 0 5 0).deadline ≤ 0 :=
    not_le.2 (claude_deadline hexpires)
  have hdone : (claudeState t token stage (claudeBound token) ["session"] gate).done 0 = false :=
    rfl
  have howner : ((claudeGet token .reserved).binding 0 5 0).ownerTask = 0 := rfl
  have hregistry : (claudeState t token stage (claudeBound token) ["session"] gate).registry =
      ⟨[], [("session", (claudeGet token .reserved).binding 0 5 0)]⟩ := rfl
  simp [State.sweep, hregistry, Registry.sweep, Registry.binding?, hlive, howner, hdone]

end

/-- The GET of a token is let in, names its session, and a message enters it. -/
theorem claude_session : ∃ es s token s', Run (Step [7]) (.start 0 0) es s ∧
    Step [7] s (.enqueue "session" claudeRaw token 0) s' := by
  have hinv := Connectivity.inv_run claude_run
  obtain ⟨token, t, hverify, hclock, hid, hexpires⟩ :=
    claude_verified hinv (List.mem_singleton.2 rfl) rfl (by norm_num [claudeSystem])
  obtain ⟨token', t', hverify', hclock', hid', hexpires'⟩ :=
    claude_verified (hinv.step hverify) (List.mem_cons_self) rfl hclock.le
  have hissue : Step [7] (.start 0 0) (.token _) ((State.start 0 0).withTokens claudeSystem) :=
    .token claude_step
  have hconnect : Step [7] { (State.start 0 0).withTokens claudeSystem with enabled := true }
      (.connect 0 claudeRaw 5 token) (claudeState t token (.waiting 0) .empty [] .free) :=
    .connect rfl rfl (fun _ _ h => nomatch h) hverify
  refine ⟨_, _, token', _, .cons hissue (.cons (.enable rfl) (.cons hconnect
    (.cons claude_reserve (.cons (claude_promote hclock.le) (.cons (claude_post hverify') .nil))))),
    .enqueue rfl (claude_bound hexpires) ?_ rfl⟩
  exact ⟨hid.trans hid'.symm, rfl, rfl, claude_deadline hexpires⟩

namespace Registry

variable {r : Registry}

theorem size_sweep {done : ℕ → Bool} {now : ℚ} : (r.sweep done now).size ≤ r.size :=
  Nat.add_le_add (List.length_filter_le _ _) (List.length_filter_le _ _)

theorem size_release {nonce : String} : (r.release nonce).size ≤ r.size :=
  Nat.add_le_add_right (List.length_filter_le _ _) _

/-- A reservation that is there gives its place back. -/
theorem size_release_lt {nonce : String} {reservation : SessionReservation}
    (h : r.reservation? nonce = some reservation) : (r.release nonce).size < r.size := by
  refine Nat.add_lt_add_right ?_ _
  refine List.length_filter_lt_length_iff_exists.2 ⟨reservation, List.mem_of_find?_eq_some h, ?_⟩
  simpa using List.find?_some h

theorem size_bind {sessionId : String} {binding : SessionBinding} :
    (r.bind sessionId binding).size ≤ r.size + 1 :=
  Nat.add_le_add_left Table.length_upsert_le _

theorem size_detach {sessionId : String} : (r.detach sessionId).size ≤ r.size :=
  Nat.add_le_add_left (List.length_filter_le _ _) _

theorem size_modify {sessionId : String} {f : SessionBinding → SessionBinding} :
    (r.modify sessionId f).size = r.size :=
  congrArg (r.reservations.length + ·) (List.length_map _)

theorem size_cleanup {c : Connection} {task : ℕ} : (c.cleanup task r).size ≤ r.size := by
  rw [Connection.cleanup]
  split
  · exact (Nat.add_le_add_left (List.length_filter_le _ _) _).trans size_release
  · exact size_release

end Registry

/-- The places and the sessions are within the connections allowed. -/
def Within (s : State) : Prop := s.registry.size ≤ maxMcpConnections

theorem within_step (h : Within s) (hstep : Step pepper s e s') : Within s' := by
  cases hstep with
  | @reserve task c now _ _ _ _ _ hroom =>
    have hsize : ((s.sweep now).reserve
        ⟨c.nonce, task, now, now + firstFrameTimeoutSeconds⟩).size = (s.sweep now).size + 1 := by
      rw [Registry.size, Registry.size, Registry.reserve, List.length_append]
      exact Nat.add_right_comm ..
    exact hsize.trans_le hroom
  | promote _ _ _ _ _ _ hreservation =>
    exact (Registry.size_bind.trans (Registry.size_release_lt hreservation)).trans h
  | refuse | deny => exact Registry.size_sweep.trans h
  | renew => exact Registry.size_modify.trans_le h
  | enqueue => exact Registry.size_modify.trans_le (Registry.size_sweep.trans h)
  | detach | detachFailed => exact Registry.size_detach.trans h
  | detachReservation => exact Registry.size_release.trans h
  | finish => exact Registry.size_cleanup.trans h
  | detachRefused => exact (Nat.add_le_add_left (List.length_filter_le _ _) _).trans h
  | detachAll => exact Nat.zero_le _
  | _ => exact h

/-- The step lets a GET or a message in. -/
def Event.serves : Event → Bool
  | .connect .. | .reserve _ | .promote .. | .enqueue .. => true
  | _ => false

/-- The connectivity is off, and nothing is registered. -/
def Quiet (s : State) : Prop := s.enabled = false ∧ s.registry = .empty

theorem quiet_step (h : Quiet s) (hstep : Step pepper s e s') (he : e ≠ .enable) :
    Quiet s' ∧ e.serves = false := by
  obtain ⟨hoff, hempty⟩ := h
  have hon : ¬ s.enabled = true := by simp [hoff]
  have hkeep : ∀ f : Registry → Registry, f .empty = .empty → f s.registry = .empty :=
    fun f hf => hempty ▸ hf
  cases hstep with
  | connect henabled => exact absurd henabled hon
  | reserve _ _ _ _ henabled => exact absurd henabled hon
  | promote _ _ _ _ _ _ _ _ _ henabled => exact absurd henabled hon
  | post _ henabled | postRefused _ henabled | postFailed _ henabled => exact absurd henabled hon
  | enqueue _ _ _ henabled => exact absurd henabled hon
  | enable => exact absurd rfl he
  | refuse | deny => exact ⟨⟨hoff, hkeep (·.sweep s.done _) rfl⟩, rfl⟩
  | @renew _ _ sessionId _ token nowWall now =>
    exact ⟨⟨hoff, hkeep (·.modify sessionId fun b => b.renew token nowWall now) rfl⟩, rfl⟩
  | detach | detachFailed => exact ⟨⟨hoff, hkeep (·.detach _) rfl⟩, rfl⟩
  | detachReservation => exact ⟨⟨hoff, hkeep (·.release _) rfl⟩, rfl⟩
  | @finish task c =>
    refine ⟨⟨hoff, hkeep (c.cleanup task) ?_⟩, rfl⟩
    rw [Connection.cleanup]
    split <;> rfl
  | detachRefused => exact ⟨⟨hoff, hkeep (·.detachIfToken _ _) rfl⟩, rfl⟩
  | disable => exact ⟨⟨rfl, hempty⟩, rfl⟩
  | detachAll => exact ⟨⟨hoff, rfl⟩, rfl⟩
  | _ => exact ⟨⟨hoff, hempty⟩, rfl⟩

theorem quiet_run (h : Run (Step pepper) s es s') (hs : Quiet s) (hes : ∀ e ∈ es, e ≠ .enable) :
    Quiet s' ∧ ∀ e ∈ es, e.serves = false := by
  induction h with
  | nil => exact ⟨hs, List.forall_mem_nil _⟩
  | cons hstep _ ih =>
    obtain ⟨hfirst, hrest⟩ := List.forall_mem_cons.1 hes
    obtain ⟨hs', he⟩ := quiet_step hs hstep hfirst
    obtain ⟨hend, hserves⟩ := ih hs' hrest
    exact ⟨hend, List.forall_mem_cons.2 ⟨he, hserves⟩⟩

/-- **The places and the sessions are never more than the connections allowed; and once a disable
    has detached them, no GET is let in, no session opens and no message enters one before
    the connectivity is enabled again.** -/
theorem mcp_registry_bounds {clock mono : ℚ} (h : Run (Step pepper) (.start clock mono) es s) :
    s.registry.size ≤ maxMcpConnections ∧
      ∀ s₁, Step pepper s .detachAll s₁ → s.enabled = false → ∀ es' s₂,
        Run (Step pepper) s₁ es' s₂ → (∀ e ∈ es', e ≠ .enable) →
          s₂.registry = .empty ∧ ∀ e ∈ es', e.serves = false := by
  have hstart : Within (.start clock mono) := Nat.zero_le _
  have hend : Within s := h.invariant (within_step) hstart
  refine ⟨hend, ?_⟩
  intro s₁ hdetach hoff es' s₂ hrun hes'
  have hquiet : Quiet s₁ := by
    cases hdetach with
    | detachAll => exact ⟨hoff, rfl⟩
  obtain ⟨hend, hserves⟩ := quiet_run hrun hquiet hes'
  exact ⟨hend.2, hserves⟩

/-- A message enters a session, the connectivity is disabled, and the registry stays empty. -/
theorem mcp_registry_bounds_claude : ∃ s s₁ s₂, s.registry.size ≤ maxMcpConnections ∧
    Step [7] s .detachAll s₁ ∧ Run (Step [7]) s₁ [.tick] s₂ ∧ s₂.registry = .empty := by
  obtain ⟨es, s, token, s', hrun, hstep⟩ := claude_session
  have hbusy : s'.gate ≠ .free := by
    cases hstep
    exact nofun
  have hdisable : Run (Step [7]) s' [.release, .disable]
      { s'.withGate .free with enabled := false, gate := .closing } :=
    .cons (.release hbusy) (.cons (.disable rfl) .nil)
  have hend := (hrun.append (.cons hstep .nil)).append hdisable
  obtain ⟨hsize, hquiet⟩ := mcp_registry_bounds hend
  have hdetach := @Step.detachAll [7] { s'.withGate .free with enabled := false, gate := .closing }
    rfl
  refine ⟨_, _, _, hsize, hdetach, .cons (.tick le_rfl) .nil, ?_⟩
  exact (hquiet _ hdetach rfl _ _ (.cons (.tick le_rfl) .nil) (by simp)).1

end

end Mcp

end Connectivity

end AimData
