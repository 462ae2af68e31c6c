/-
  Data operations that are allowed while the server does not answer.  The decision is
  made on the counter of failures alone, after the call, so it may fall in a state
  that another call has reached in the meantime.
-/
import AimData.Activation.Stale

namespace AimData

namespace Activation

/-! ## Decisions without an answer -/

/-- An operation that is allowed without the server. -/
def Metered.offline : Metered → Bool
  | .decided decision _ => decision.allowed && decision.offline
  | .raised _ => false

/-- A step that allows a data operation without an answer of the server. -/
def allowsOffline (s : System) : Event → Bool
  | .decided category =>
    category ≠ "setup" && (match checkState s.store.state category with
      | .inl outcome => outcome.offline
      | .inr _ => false)
  | .metered i answer =>
    match s.calls i with
    | some c => c.category ≠ "setup" && (settle s.store c.category (meter answer)).2.offline
    | none => false
  | _ => false

/-- A server success, or an activation. -/
def succeeds : Event → Bool
  | .metered _ answer => (meter answer).reply = .succeeds
  | .polled answer _ _ => (status answer).success && (status answer).data.isSome
  | .activated answer => (activate answer).success && present (activate answer).installToken
  | _ => false

/-- The system, with the data operations allowed without an answer since the last
    success. -/
structure Watch where
  system : System
  allowed : ℕ

structure WatchStep (w : Watch) (e : Event) (w' : Watch) : Prop where
  step : Step w.system e w'.system
  allowed : w'.allowed =
    if succeeds e then 0 else if allowsOffline w.system e then w.allowed + 1 else w.allowed

theorem WatchStep.next {w : Watch} {e : Event} {system' : System} (h : Step w.system e system') :
    WatchStep w e ⟨system', if succeeds e then 0
      else if allowsOffline w.system e then w.allowed + 1 else w.allowed⟩ :=
  ⟨h, rfl⟩

/-- Few operations are allowed without an answer, and none unless the stored state
    is then active. -/
structure Bounded (w : Watch) (e : Event) (w' : Watch) : Prop where
  few : w'.allowed ≤ failureThreshold - 1
  active : allowsOffline w.system e = true → w'.system.store.state.state = .active

/-- No data call ends in a network failure in another state than the active one
    while fewer failures than the threshold less one are counted. -/
def Attended (s : System) (e : Event) : Prop :=
  ∀ i answer c, e = .metered i answer → s.calls i = some c → c.category ≠ "setup" →
    (meter answer).reply = .fails → s.store.state.consecutiveFailures + 1 < failureThreshold →
    s.store.state.state = .active

/-! ## The decision -/

/-- A data operation is allowed without an answer exactly after a network failure
    that does not reach the threshold. -/
theorem offline_settle (store : SerialStore) {category : String} (h : category ≠ "setup")
    (result : MeterResult) : (settle store category result).2.offline = true ↔
      result.reply = .fails ∧ store.state.consecutiveFailures + 1 < failureThreshold := by
  unfold settle MeterResult.reply
  dsimp only
  by_cases hmigrated : result.migrated = true
  · simp [hmigrated, Metered.offline]
  by_cases hallowed : result.allowed = true
  · simp [hmigrated, hallowed, Metered.offline]
  by_cases hcode : result.statusCode = 200 ∨ result.statusCode = 402
  · simp [hmigrated, hallowed, hcode, Metered.offline]
  by_cases hrejected : result.statusCode = 401
  · simp [hmigrated, hallowed, hrejected, Metered.offline]
  · simp only [hmigrated, hallowed, hcode, hrejected, h, Bool.false_eq_true, if_false, or_self,
      true_and]
    change (if store.state.consecutiveFailures + 1 < 3 then _ else _ : SerialStore × Metered).2.offline
      = true ↔ store.state.consecutiveFailures + 1 < 3
    split_ifs with hfew
    · exact ⟨fun _ => hfew, fun _ => rfl⟩
    · exact ⟨fun h => (by cases h), fun h => absurd h hfew⟩

theorem offline_checkState (s : SerialState) {category : String} (h : category ≠ "setup")
    {outcome : Metered} (houtcome : checkState s category = .inl outcome) :
    outcome.offline = false := by
  unfold checkState at houtcome
  simp only [h, if_false] at houtcome
  split at houtcome
  · cases houtcome
    rfl
  · cases houtcome
    rfl
  · cases houtcome
    rfl
  all_goals
    split at houtcome
    · split_ifs at houtcome
      cases houtcome
      rfl
    · cases houtcome
      rfl

theorem allowsOffline_decided (s : System) (category : String) :
    allowsOffline s (.decided category) = false := by
  by_cases h : category = "setup"
  · simp [allowsOffline, h]
  · cases hcheck : checkState s.store.state category with
    | inl outcome => simp [allowsOffline, hcheck, offline_checkState _ h hcheck]
    | inr call => simp [allowsOffline, hcheck]

theorem allowsOffline_metered {s : System} {i : ℕ} {c : MeterCall} (hc : s.calls i = some c)
    (answer : Answer MeterBody) : allowsOffline s (.metered i answer) = true ↔
      c.category ≠ "setup" ∧ (meter answer).reply = .fails ∧
        s.store.state.consecutiveFailures + 1 < failureThreshold := by
  simp only [allowsOffline, hc, Bool.and_eq_true, decide_eq_true_eq]
  constructor
  · rintro ⟨hdata, hoffline⟩
    exact ⟨hdata, (offline_settle _ hdata _).1 hoffline⟩
  · rintro ⟨hdata, hfails⟩
    exact ⟨hdata, (offline_settle _ hdata _).2 hfails⟩

/-! ## The store -/

/-- What a restart finds: the state itself, or nothing of an active serial. -/
structure Stored (store : SerialStore) : Prop where
  same : ∀ state, store.file = some state → state = store.state
  empty : store.file = none → store.state.state ≠ .active

theorem stored_put (state : SerialState) : Stored (.put state) :=
  ⟨fun _ h => (Option.some.inj h).symm, fun h => (by cases h)⟩

/-- A change that leads to an active state from that state only, and with the same
    count of failures. -/
structure Calm (store store' : SerialStore) : Prop where
  stored : Stored store → Stored store'
  active : store'.state.state = .active → store.state.state = .active ∧
    store'.state.consecutiveFailures = store.state.consecutiveFailures

section

variable {store store' store'' : SerialStore}

theorem Calm.refl (store : SerialStore) : Calm store store := ⟨id, fun h => ⟨h, rfl⟩⟩

theorem Calm.trans (h : Calm store store') (h' : Calm store' store'') : Calm store store'' := by
  refine ⟨fun hstored => h'.stored (h.stored hstored), ?_⟩
  intro hactive
  obtain ⟨hactive', hfailures'⟩ := h'.active hactive
  obtain ⟨hactive'', hfailures''⟩ := h.active hactive'
  exact ⟨hactive'', hfailures'.trans hfailures''⟩

theorem calm_put {state : SerialState} (h : state.state = .active → store.state.state = .active ∧
    state.consecutiveFailures = store.state.consecutiveFailures) : Calm store (.put state) :=
  ⟨fun _ => stored_put state, h⟩

theorem calm_updateAppVersion (store : SerialStore) (version : String) :
    Calm store (store.updateAppVersion version) :=
  calm_put fun h => ⟨h, rfl⟩

theorem calm_unprovisioned (store : SerialStore) : Calm store store.transitionToUnprovisioned :=
  calm_put nofun

theorem calm_migrate (store : SerialStore) (migrated : Bool) (gatewayUserId : Option String) :
    Calm store (migrate store migrated gatewayUserId) := by
  rw [migrate]
  split_ifs
  · exact calm_put fun h => by cases h
  · exact .refl store

theorem calm_startupFinish (version : String) (store : SerialStore) :
    Calm store (startupFinish version store).1 := by
  rw [startupFinish]
  split_ifs
  · split
    · split_ifs
      · exact .refl store
      · exact calm_updateAppVersion store version
    · exact calm_updateAppVersion store version
  · exact .refl store

theorem calm_startupRest (version : String) (store : SerialStore) :
    Calm store (startupRest version store).1 := by
  rw [startupRest]
  split_ifs
  · exact .refl store
  · split
    · exact .refl store
    · exact calm_startupFinish version store
  · exact calm_startupFinish version store

theorem calm_resume (version : String) (store : SerialStore) (stage : Stage) :
    Calm store (resume version store stage).1 := by
  cases stage with
  | rest => exact calm_startupRest version store
  | finish => exact calm_startupFinish version store
  | loop => exact .refl store

theorem calm_startup (version : String) (store : SerialStore) :
    Calm store (startup version store).1 := by
  rw [startup]
  split_ifs
  · refine .trans (calm_put fun h => ?_) (calm_startupRest version _)
    cases h
  · exact .refl store
  · exact calm_startupRest version store

theorem calm_generated (version : String) (store : SerialStore) (stage : Stage)
    (answer : Option (String × String)) : Calm store (generated version store stage answer).1 := by
  cases answer with
  | none => exact calm_resume version store stage
  | some answer =>
    have hput : Calm store (.put { store.state with
        serial := answer.1, bootstrapToken := some answer.2, state := .provisioned }) :=
      calm_put nofun
    rw [generated]
    dsimp only
    split
    · exact hput
    · exact hput.trans (calm_resume version _ stage)

theorem calm_refreshed (store : SerialStore) (result : RefreshResult) :
    Calm store (refreshed store result) := by
  have hrefused : Calm store (if result.statusCode = 401 then
      .put { store.state with state := .provisioned, installToken := none } else store) := by
    split_ifs
    · exact calm_put nofun
    · exact .refl store
  rw [refreshed]
  dsimp only
  split
  · split_ifs at hrefused ⊢
    · exact calm_put fun h => ⟨h, rfl⟩
    · exact calm_put fun h => ⟨h, rfl⟩
    · exact hrefused
    · exact hrefused
  · exact hrefused

theorem calm_failed (version : String) (store : SerialStore) (pc : Pc) :
    Calm store (failed version store pc).1 := by
  cases pc with
  | provisioning stage => exact calm_resume version store stage
  | activating stage =>
    cases stage with
    | rest => exact calm_startupRest version store
    | finish => exact .refl store
    | loop => exact .refl store
  | registering call migrated gatewayUserId => exact calm_migrate store migrated gatewayUserId
  | _ => exact .refl store

theorem calm_load (h : Stored store) (envSerial envBootstrap : String) :
    Calm store (.load store.file envSerial envBootstrap) := by
  cases hfile : store.file with
  | some state =>
    obtain rfl := h.same state hfile
    exact ⟨fun _ => ⟨fun _ h => (Option.some.inj h).symm, fun h => (by cases h)⟩,
      fun hactive => ⟨hactive, rfl⟩⟩
  | none =>
    unfold SerialStore.load
    dsimp only
    split_ifs
    · exact calm_put nofun
    · exact ⟨fun _ => ⟨fun _ h => (by cases h), fun _ => nofun⟩, nofun⟩

end

/-! ## One step -/

/-- While the serial is active, every operation allowed without an answer is among
    the failures that are counted. -/
structure Watched (w : Watch) : Prop where
  stored : Stored w.system.store
  few : w.allowed ≤ failureThreshold - 1
  counted : w.system.store.state.state = .active →
    w.allowed ≤ w.system.store.state.consecutiveFailures

section

variable {w w' : Watch}

theorem Watched.calm (h : Watched w) (hcalm : Calm w.system.store w'.system.store)
    (hallowed : w'.allowed = w.allowed) : Watched w' := by
  refine ⟨hcalm.stored h.stored, hallowed ▸ h.few, ?_⟩
  intro hactive
  obtain ⟨hactive', hfailures⟩ := hcalm.active hactive
  rw [hallowed, hfailures]
  exact h.counted hactive'

theorem watched_zero (hstored : Stored w'.system.store) (hallowed : w'.allowed = 0) :
    Watched w' := by
  refine ⟨hstored, ?_, fun _ => ?_⟩
  · rw [hallowed]
    exact Nat.zero_le _
  · rw [hallowed]
    exact Nat.zero_le _

/-- A failure is counted, so it makes room for one more operation. -/
theorem Watched.failure (h : Watched w) (hstore : w'.system.store = w.system.store.recordFailure)
    (hallowed : w'.allowed = w.allowed ∨ (w'.allowed = w.allowed + 1 ∧
      w.system.store.state.state = .active ∧
      w.system.store.state.consecutiveFailures + 1 < failureThreshold)) : Watched w' := by
  have hactive : w'.system.store.state.state = .active → w.system.store.state.state = .active := by
    intro hactive
    rw [hstore] at hactive
    change (if _ then State.degraded else _) = State.active at hactive
    split_ifs at hactive
    exact hactive
  have hfailures : w'.system.store.state.consecutiveFailures =
      w.system.store.state.consecutiveFailures + 1 := by
    rw [hstore]
    rfl
  refine ⟨hstore ▸ stored_put _, ?_, ?_⟩
  · rcases hallowed with hallowed | ⟨hallowed, hstate, hthreshold⟩
    · exact hallowed ▸ h.few
    · have hcounted := h.counted hstate
      omega
  · intro hstate
    have hcounted := h.counted (hactive hstate)
    rcases hallowed with hallowed | ⟨hallowed, -⟩
    · omega
    · omega

/-- A step without a success or an offline decision. -/
theorem WatchStep.quiet {e : Event} (h : WatchStep w e w') (hsucceeds : succeeds e = false)
    (hoffline : allowsOffline w.system e = false) : w'.allowed = w.allowed := by
  rw [h.allowed, hsucceeds, hoffline]
  rfl

theorem WatchStep.success {e : Event} (h : WatchStep w e w') (hsucceeds : succeeds e = true) :
    w'.allowed = 0 := by
  rw [h.allowed, if_pos hsucceeds]

theorem Watched.activated (h : Watched w) {stage : Stage}
    {answer : Answer (Option String × Option String)} (hstep : WatchStep w (.activated answer) w')
    (hstore : w'.system.store = (resume w.system.version
      (activated w.system.version w.system.store (activate answer)) stage).1) : Watched w' := by
  have hresume := calm_resume w.system.version
    (Activation.activated w.system.version w.system.store (activate answer)) stage
  rw [← hstore] at hresume
  have hcalm : succeeds (.activated answer) = false → Watched w' := by
    intro hfails
    refine h.calm (.trans ?_ hresume) (hstep.quiet hfails rfl)
    have hrefused : Calm w.system.store (if (activate answer).statusCode = 401 then
        w.system.store.transitionToUnprovisioned else w.system.store) := by
      split_ifs
      · exact calm_unprovisioned _
      · exact .refl _
    rw [Activation.activated]
    split
    · next token hsuccess htoken =>
      have hempty : ¬ token ≠ "" := by simpa [succeeds, hsuccess, htoken, present] using hfails
      rw [if_neg hempty]
      exact hrefused
    · exact hrefused
  cases hsucceeds : succeeds (.activated answer) with
  | false => exact hcalm hsucceeds
  | true =>
    refine watched_zero (hresume.stored ?_) (hstep.success hsucceeds)
    simp only [succeeds, Bool.and_eq_true] at hsucceeds
    obtain ⟨hsuccess, hpresent⟩ := hsucceeds
    obtain ⟨token, htoken, hne⟩ : ∃ token, (activate answer).installToken = some token ∧
        token ≠ "" := by
      cases htoken : (activate answer).installToken with
      | none => simp [present, htoken] at hpresent
      | some token => exact ⟨token, rfl, by simpa [present, htoken] using hpresent⟩
    simp only [Activation.activated, hsuccess, htoken, if_pos hne]
    exact stored_put _

theorem Watched.polled (h : Watched w) {call : Call} {answer : Answer StatusBody}
    {registers : Bool} {now : String} (hstep : WatchStep w (.polled answer registers now) w')
    (hstore : w'.system.store =
      (polled w.system.store call (status answer) registers now).1) : Watched w' := by
  rw [Activation.polled] at hstore
  split at hstore
  · next data hsuccess hdata =>
    have hzero := hstep.success (by simp [succeeds, hsuccess, hdata])
    dsimp only at hstore
    split_ifs at hstore
    · exact watched_zero (hstore ▸ stored_put _) hzero
    · exact watched_zero (hstore ▸ (calm_migrate _ _ _).stored (stored_put _)) hzero
  · next hother =>
    have hsame : w'.allowed = w.allowed := by
      refine hstep.quiet ?_ rfl
      cases hsuccess : (status answer).success with
      | false => simp [succeeds, hsuccess]
      | true =>
        cases hdata : (status answer).data with
        | none => simp [succeeds, hdata]
        | some data => exact absurd hdata (hother data hsuccess)
    split_ifs at hstore
    · exact h.calm (hstore ▸ calm_unprovisioned _) hsame
    · exact h.failure hstore (Or.inl hsame)

theorem Watched.metered (h : Watched w) {i : ℕ} {c : MeterCall} {answer : Answer MeterBody}
    (hc : w.system.calls i = some c) (hstep : WatchStep w (.metered i answer) w')
    (hattended : Attended w.system (.metered i answer))
    (hstore : w'.system.store = w.system.store.take (meter answer).reply) : Watched w' := by
  have hquiet : (meter answer).reply ≠ .succeeds → (meter answer).reply ≠ .fails →
      w'.allowed = w.allowed := by
    intro hsucceeds hfails
    refine hstep.quiet (by simpa [succeeds] using hsucceeds) ?_
    rw [← Bool.not_eq_true, allowsOffline_metered hc]
    exact fun hoffline => hfails hoffline.2.1
  cases hreply : (meter answer).reply with
  | succeeds =>
    rw [hreply] at hstore
    exact watched_zero (hstore ▸ stored_put _) (hstep.success (by simp [succeeds, hreply]))
  | migrates =>
    rw [hreply] at hstore hquiet
    exact h.calm (hstore ▸ calm_put nofun) (hquiet nofun nofun)
  | rejected =>
    rw [hreply] at hstore hquiet
    exact h.calm (hstore ▸ calm_unprovisioned _) (hquiet nofun nofun)
  | fails =>
    rw [hreply] at hstore
    refine h.failure hstore ?_
    have hallowed := hstep.allowed
    rw [if_neg (by simp [succeeds, hreply])] at hallowed
    by_cases hoffline : allowsOffline w.system (.metered i answer) = true
    · rw [if_pos hoffline] at hallowed
      obtain ⟨hdata, -, hfew⟩ := (allowsOffline_metered hc answer).1 hoffline
      exact Or.inr ⟨hallowed, hattended i answer c rfl hc hdata hreply hfew, hfew⟩
    · rw [if_neg hoffline] at hallowed
      exact Or.inl hallowed

/-- The decision of an attended step falls in the active state. -/
theorem active_of_attended {e : Event} (hstep : Step w.system e w'.system)
    (hattended : Attended w.system e) (hoffline : allowsOffline w.system e = true) :
    w'.system.store.state.state = .active := by
  obtain ⟨system', allowed'⟩ := w'
  dsimp only at hstep ⊢
  cases hstep with
  | @metered i call category answer hcall =>
    obtain ⟨hdata, hfails, hfew⟩ := (allowsOffline_metered hcall answer).1 hoffline
    have hactive := hattended i answer _ rfl hcall hdata hfails hfew
    show (settle w.system.store category (meter answer)).1.state.state = .active
    rw [settle_store, hfails]
    show (if _ then State.degraded else _) = State.active
    rw [if_neg (fun h => absurd h.2 (Nat.not_le.2 hfew)), hactive]
  | decided =>
    rw [allowsOffline_decided] at hoffline
    cases hoffline
  | _ => cases hoffline

/-- A bounded step is attended. -/
theorem attended_of_active {e : Event} (hstep : Step w.system e w'.system)
    (hactive : allowsOffline w.system e = true → w'.system.store.state.state = .active) :
    Attended w.system e := by
  rintro i answer c rfl hc hdata hfails hfew
  have hstate := hactive ((allowsOffline_metered hc answer).2 ⟨hdata, hfails, hfew⟩)
  obtain ⟨system', allowed'⟩ := w'
  dsimp only at hstep hstate
  cases hstep with
  | @metered _ call category _ hcall =>
    change (settle w.system.store category (meter answer)).1.state.state = .active at hstate
    rw [settle_store, hfails] at hstate
    change (if _ then State.degraded else _) = State.active at hstate
    split_ifs at hstate
    exact hstate

/-- **One step** of the watched system. -/
theorem watched_step {e : Event} (h : Watched w) (hstep : WatchStep w e w')
    (hattended : Attended w.system e) : Watched w' := by
  have hquiet : succeeds e = false → allowsOffline w.system e = false → w'.allowed = w.allowed :=
    hstep.quiet
  have hfull := hstep
  obtain ⟨system', allowed'⟩ := w'
  obtain ⟨hsystem, -⟩ := hstep
  dsimp only at hsystem
  cases hsystem with
  | startup => exact h.calm (calm_startup _ _) (hquiet rfl rfl)
  | generated => exact h.calm (calm_generated _ _ _ _) (hquiet rfl rfl)
  | activated => exact h.activated hfull rfl
  | refreshed =>
    exact h.calm ((calm_refreshed _ _).trans (calm_updateAppVersion _ _)) (hquiet rfl rfl)
  | iterate => exact h.calm (.refl _) (hquiet rfl rfl)
  | polled => exact h.polled hfull rfl
  | registered => exact h.calm (calm_migrate _ _ _) (hquiet rfl rfl)
  | failed => exact h.calm (calm_failed _ _ _) (hquiet rfl rfl)
  | decided => exact h.calm (.refl _) (hquiet rfl (allowsOffline_decided _ _))
  | meter => exact h.calm (.refl _) (hquiet rfl rfl)
  | metered hcall => exact h.metered hcall hfull hattended (settle_store _ _ _)
  | meterRaised => exact h.calm (.refl _) (hquiet rfl rfl)
  | restart => exact h.calm (calm_load h.stored _ _) (hquiet rfl rfl)

end

/-! ## Whole runs -/

theorem watched_boot (version : String) (file : Option SerialState)
    (envSerial envBootstrap : String) :
    Watched ⟨.boot version file envSerial envBootstrap, 0⟩ := by
  refine watched_zero ?_ rfl
  show Stored (.load file envSerial envBootstrap)
  cases file with
  | some state => exact ⟨fun _ h => (Option.some.inj h).symm, fun h => (by cases h)⟩
  | none =>
    have hempty : Stored ⟨{}, none⟩ := ⟨fun _ h => (by cases h), fun _ => nofun⟩
    exact (calm_load hempty envSerial envBootstrap).stored hempty

/-- **Few data operations are allowed without an answer, and only in the active
    state**, in a run exactly if every step of it is attended. -/
theorem offline_bounded_iff (version : String) (file : Option SerialState)
    (envSerial envBootstrap : String) (es : List Event) (w : Watch) :
    Run (fun w e w' => WatchStep w e w' ∧ Bounded w e w')
        ⟨.boot version file envSerial envBootstrap, 0⟩ es w ↔
      Run (fun w e w' => WatchStep w e w' ∧ Attended w.system e)
        ⟨.boot version file envSerial envBootstrap, 0⟩ es w := by
  have hstart := watched_boot version file envSerial envBootstrap
  constructor
  · intro h
    refine h.mono (I := Watched) ?_ hstart
    rintro w e w' hwatched ⟨hstep, hbounded⟩
    have hattended := attended_of_active hstep.step hbounded.active
    exact ⟨watched_step hwatched hstep hattended, hstep, hattended⟩
  · intro h
    refine h.mono (I := Watched) ?_ hstart
    rintro w e w' hwatched ⟨hstep, hattended⟩
    have hwatched' := watched_step hwatched hstep hattended
    exact ⟨hwatched', hstep, hwatched'.few, active_of_attended hstep.step hattended⟩

/-! ### A rejection between two failures -/

/-- Of four data calls two fail and are allowed, the third is rejected, and the fourth
    fails: it is allowed too, though the serial is unprovisioned by then. -/
theorem allowed_after_rejection : ∃ es w e w',
    Run WatchStep ⟨.boot "1" none "VZ-1" "boot", 0⟩ es w ∧ WatchStep w e w' ∧
    w'.allowed > failureThreshold - 1 ∧ allowsOffline w.system e = true ∧
    w'.system.store.state.state = .unprovisioned := by
  have hrun := (Run.cons (.next (.startup rfl)) <|
    .cons (.next (.activated rfl : Step _ (.activated ⟨200, some (some "token", none)⟩) _)) <|
    .cons (.next (.meter rfl rfl : Step _ (.meter 0 "data") _)) <|
    .cons (.next (.meter rfl rfl : Step _ (.meter 1 "data") _)) <|
    .cons (.next (.meter rfl rfl : Step _ (.meter 2 "data") _)) <|
    .cons (.next (.meter rfl rfl : Step _ (.meter 3 "data") _)) <|
    .cons (.next (.metered rfl : Step _ (.metered 0 ⟨0, none⟩) _)) <|
    .cons (.next (.metered rfl : Step _ (.metered 1 ⟨0, none⟩) _)) <|
    .cons (.next (.metered rfl : Step _ (.metered 2 ⟨401, none⟩) _)) .nil :
    Run WatchStep ⟨.boot "1" none "VZ-1" "boot", 0⟩ _ _)
  exact ⟨_, _, .metered 3 ⟨0, none⟩, _, hrun, .next (.metered rfl), by decide, rfl, rfl⟩

end Activation

end AimData
