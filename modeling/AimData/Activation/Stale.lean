/-
  Answers that come late: to a call whose token has been replaced, or that was made
  before the serial was migrated.  No answer is compared with the stored token, so
  such a call may still clear it and move the serial.
-/
import AimData.Activation.Store

namespace AimData

namespace Activation

/-! ## Replies -/

/-- What an answer of the server does to the store. -/
inductive Reply where
  | succeeds
  | migrates
  | rejected
  | fails
  deriving DecidableEq

def MeterResult.reply (result : MeterResult) : Reply :=
  if result.migrated then .migrates
  else if result.allowed ∨ result.statusCode = 200 ∨ result.statusCode = 402 then .succeeds
  else if result.statusCode = 401 then .rejected
  else .fails

/-- A registration puts the migration off. -/
def StatusResult.reply (result : StatusResult) (registers : Bool) : Reply :=
  match result.success, result.data with
  | true, some data =>
    if result.migrated ∧ ¬ (registers ∧ present data.gatewayUserId) then .migrates else .succeeds
  | _, _ => if result.statusCode = 401 then .rejected else .fails

def SerialStore.take (store : SerialStore) : Reply → SerialStore
  | .succeeds => store.recordSuccess
  | .migrates => store.transitionToMigrated none
  | .rejected => store.transitionToUnprovisioned
  | .fails => store.recordFailure

theorem settle_store (store : SerialStore) (category : String) (result : MeterResult) :
    (settle store category result).1 = store.take result.reply := by
  unfold settle MeterResult.reply
  dsimp only
  by_cases hmigrated : result.migrated = true
  · simp only [hmigrated, if_true, SerialStore.take]
  by_cases hallowed : result.allowed = true
  · simp only [hmigrated, hallowed, if_true, SerialStore.take, true_or, Bool.false_eq_true, if_false]
  by_cases hcode : result.statusCode = 200 ∨ result.statusCode = 402
  · simp only [hmigrated, hallowed, hcode, if_true, SerialStore.take, or_true, Bool.false_eq_true,
      if_false]
  by_cases hrejected : result.statusCode = 401
  · simp only [hmigrated, hallowed, hrejected, if_true, SerialStore.take, Bool.false_eq_true, if_false]
    rfl
  · simp only [hmigrated, hallowed, hcode, hrejected, SerialStore.take, Bool.false_eq_true, if_false,
      or_self]
    split_ifs <;> rfl

/-- The call that a step brings the answer to, and the reply. -/
def answered (s : System) : Event → Option (Call × Reply)
  | .metered i answer => (s.calls i).map fun c => (c.call, (meter answer).reply)
  | .polled answer registers _ =>
    match s.manager with
    | .polling call => some (call, (status answer).reply registers)
    | _ => none
  | .refreshed answer =>
    match s.manager with
    | .refreshing call => some (call, if answer.statusCode = 401 then .rejected else .succeeds)
    | _ => none
  | .registered | .failed =>
    match s.manager with
    | .registering call migrated _ => some (call, if migrated then .migrates else .succeeds)
    | _ => none
  | _ => none

/-! ## Late answers -/

/-- The token of the call has been replaced, or the serial has been migrated since. -/
def Superseded (s : SerialState) (call : Call) : Prop :=
  (∃ token, s.installToken = some token ∧ token ≠ call.token) ∨
    (s.state = .migrated ∧ call.madeIn ≠ .migrated)

/-- The token is not cleared, and the state that an activation or a migration has
    established is kept. -/
def Leaves (s s' : SerialState) : Prop :=
  (s'.installToken = none → s.installToken = none) ∧
    (s.state = .active ∨ s.state = .migrated → s'.state = s.state)

/-- The answer to a superseded call leaves the token and the state. -/
def Kept (s : System) (e : Event) (s' : System) : Prop :=
  ∀ call reply, answered s e = some (call, reply) → Superseded s.store.state call →
    Leaves s.store.state s'.store.state

/-- What a reply upsets: a rejection any state, a migration and the failure that
    reaches the threshold an active one. -/
def Upsets (s : SerialState) : Reply → Prop
  | .succeeds => False
  | .migrates => s.state = .active
  | .rejected => True
  | .fails => s.state = .active ∧ failureThreshold ≤ s.consecutiveFailures + 1

/-- No superseded call has an answer that upsets the state. -/
def InTime (s : System) (e : Event) : Prop :=
  ∀ call reply, answered s e = some (call, reply) → Superseded s.store.state call →
    ¬ Upsets s.store.state reply

/-! ## One step -/

section

variable {s s' s'' : SerialState} {call : Call}

theorem Leaves.congr (htoken : s'.installToken = s''.installToken) (hstate : s'.state = s''.state) :
    Leaves s s' ↔ Leaves s s'' := by
  rw [Leaves, Leaves, htoken, hstate]

theorem leaves_same (htoken : s'.installToken = s.installToken) (hstate : s'.state = s.state) :
    Leaves s s' :=
  ⟨fun h => htoken ▸ h, fun _ => hstate⟩

/-- A rejection clears the token that superseded the call, or undoes the migration. -/
theorem not_leaves (h : Superseded s call) (htoken : s'.installToken = none)
    (hstate : s'.state ≠ .migrated) : ¬ Leaves s s' := by
  rintro ⟨hclear, hmoved⟩
  rcases h with ⟨token, hstored, -⟩ | ⟨hmigrated, -⟩
  · have hnone := hclear htoken
    rw [hstored] at hnone
    cases hnone
  · exact hstate ((hmoved (Or.inr hmigrated)).trans hmigrated)

end

/-- **One reply** leaves the token and the state exactly if it does not upset them. -/
theorem leaves_take_iff {store : SerialStore} {call : Call} (h : Superseded store.state call)
    (reply : Reply) : Leaves store.state (store.take reply).state ↔ ¬ Upsets store.state reply := by
  cases reply with
  | succeeds =>
    refine ⟨fun _ => id, fun _ => ⟨id, ?_⟩⟩
    intro hstate
    refine if_neg ?_
    intro hdegraded
    rw [hdegraded] at hstate
    rcases hstate with hstate | hstate <;> cases hstate
  | migrates =>
    constructor
    · rintro ⟨-, hmoved⟩ hactive
      have hmigrated : State.migrated = store.state.state := hmoved (Or.inl hactive)
      rw [show store.state.state = .active from hactive] at hmigrated
      cases hmigrated
    · intro hactive
      refine ⟨id, ?_⟩
      rintro (hstate | hstate)
      · exact absurd hstate hactive
      · exact hstate.symm
  | rejected =>
    refine ⟨fun hleaves => absurd hleaves (not_leaves h rfl ?_), fun hnot => absurd trivial hnot⟩
    exact nofun
  | fails =>
    constructor
    · rintro ⟨-, hmoved⟩ ⟨hactive, hthreshold⟩
      have hkept := hmoved (Or.inl hactive)
      change (if store.state.state = .active ∧ store.state.consecutiveFailures + 1 ≥ failureThreshold
        then State.degraded else store.state.state) = store.state.state at hkept
      rw [if_pos ⟨hactive, hthreshold⟩, hactive] at hkept
      cases hkept
    · intro hfew
      exact ⟨id, fun _ => if_neg hfew⟩

theorem persistSerialId_state (store : SerialStore) (serialId : Option String) :
    (store.persistSerialId serialId).state.installToken = store.state.installToken ∧
      (store.persistSerialId serialId).state.state = store.state.state := by
  rw [SerialStore.persistSerialId]
  split_ifs
  · exact ⟨rfl, rfl⟩
  · exact ⟨rfl, rfl⟩

/-- A poll leaves the token and the state that its reply leads to. -/
theorem polled_take (store : SerialStore) (call : Call) (result : StatusResult) (registers : Bool)
    (now : String) :
    (polled store call result registers now).1.state.installToken =
        (store.take (result.reply registers)).state.installToken ∧
      (polled store call result registers now).1.state.state =
        (store.take (result.reply registers)).state.state := by
  obtain ⟨success, data, serialId, migrated, statusCode⟩ := result
  cases success with
  | false =>
    simp only [polled, StatusResult.reply]
    split_ifs <;> exact ⟨rfl, rfl⟩
  | true =>
    cases data with
    | none =>
      simp only [polled, StatusResult.reply]
      split_ifs <;> exact ⟨rfl, rfl⟩
    | some data =>
      have hserial := persistSerialId_state store.recordSuccess serialId
      simp only [polled, StatusResult.reply]
      by_cases hregisters : registers = true ∧ present data.gatewayUserId = true
      · rw [if_pos hregisters, if_neg (fun h => h.2 hregisters)]
        exact hserial
      · rw [if_neg hregisters]
        by_cases hmigrated : migrated = true
        · rw [if_pos ⟨hmigrated, hregisters⟩, migrate, if_pos hmigrated]
          exact ⟨hserial.1, rfl⟩
        · rw [if_neg (fun h => hmigrated h.1), migrate, if_neg hmigrated]
          exact hserial

theorem leaves_migrate_iff {store : SerialStore} {call : Call} (h : Superseded store.state call)
    (migrated : Bool) (gatewayUserId : Option String) :
    Leaves store.state (migrate store migrated gatewayUserId).state ↔
      ¬ Upsets store.state (if migrated then .migrates else .succeeds) := by
  cases migrated with
  | true => exact leaves_take_iff h .migrates
  | false => exact ⟨fun _ => id, fun _ => leaves_same rfl rfl⟩

theorem leaves_refreshed_iff {store : SerialStore} {call : Call} (h : Superseded store.state call)
    (version : String) (answer : Answer (Option String)) :
    Leaves store.state ((refreshed store (refresh answer)).updateAppVersion version).state ↔
      ¬ Upsets store.state (if answer.statusCode = 401 then .rejected else .succeeds) := by
  by_cases hcode : answer.statusCode = 401
  · have hstate : (refreshed store (refresh answer)).state =
        { store.state with state := .provisioned, installToken := none } := by
      cases hdata : answer.data <;> simp [refreshed, refresh, hdata, hcode, SerialStore.put]
    rw [if_pos hcode]
    refine ⟨fun hleaves => absurd hleaves (not_leaves h ?_ ?_), fun hnot => absurd trivial hnot⟩
    · show (refreshed store (refresh answer)).state.installToken = none
      rw [hstate]
    · show (refreshed store (refresh answer)).state.state ≠ .migrated
      rw [hstate]
      exact nofun
  · rw [if_neg hcode]
    refine ⟨fun _ => id, fun _ => ?_⟩
    have hcode' : (refresh answer).statusCode ≠ 401 := by
      cases hdata : answer.data with
      | none => simpa [refresh, hdata] using hcode
      | some token =>
        simp only [refresh, hdata]
        split_ifs <;> exact hcode
    show Leaves store.state (refreshed store (refresh answer)).state
    rw [refreshed]
    dsimp only
    rw [if_neg hcode']
    split
    · split_ifs
      · exact ⟨nofun, fun _ => rfl⟩
      · exact leaves_same rfl rfl
    · exact leaves_same rfl rfl

/-- **One step** treats a late answer as it must exactly if the answer is in time. -/
theorem kept_iff {s s' : System} {e : Event} (hstep : Step s e s') : Kept s e s' ↔ InTime s e := by
  have hiff : (∀ call reply, answered s e = some (call, reply) → Superseded s.store.state call →
      (Leaves s.store.state s'.store.state ↔ ¬ Upsets s.store.state reply)) →
      (Kept s e s' ↔ InTime s e) := by
    intro h
    exact ⟨fun hkept call reply ha hs => (h call reply ha hs).1 (hkept call reply ha hs),
      fun hin call reply ha hs => (h call reply ha hs).2 (hin call reply ha hs)⟩
  refine hiff ?_
  intro call reply hanswered hsuperseded
  cases hstep with
  | @refreshed _ answer hmanager =>
    simp only [answered, hmanager, Option.some.injEq, Prod.mk.injEq] at hanswered
    obtain ⟨rfl, rfl⟩ := hanswered
    exact leaves_refreshed_iff hsuperseded s.version answer
  | @polled call' answer registers now hmanager =>
    simp only [answered, hmanager, Option.some.injEq, Prod.mk.injEq] at hanswered
    obtain ⟨rfl, rfl⟩ := hanswered
    obtain ⟨htoken, hstate⟩ := polled_take s.store call' (status answer) registers now
    exact (Leaves.congr htoken hstate).trans (leaves_take_iff hsuperseded _)
  | registered hmanager =>
    simp only [answered, hmanager, Option.some.injEq, Prod.mk.injEq] at hanswered
    obtain ⟨rfl, rfl⟩ := hanswered
    exact leaves_migrate_iff hsuperseded _ _
  | failed =>
    cases hmanager : s.manager with
    | registering call' migrated gatewayUserId =>
      simp only [answered, hmanager, Option.some.injEq, Prod.mk.injEq] at hanswered
      obtain ⟨rfl, rfl⟩ := hanswered
      exact leaves_migrate_iff hsuperseded _ _
    | _ => simp [answered, hmanager] at hanswered
  | @metered i call' category answer hcall =>
    simp only [answered, hcall, Option.map_some, Option.some.injEq, Prod.mk.injEq] at hanswered
    obtain ⟨rfl, rfl⟩ := hanswered
    have hstore := settle_store s.store category (meter answer)
    show Leaves s.store.state (settle s.store category (meter answer)).1.state ↔ _
    rw [hstore]
    exact leaves_take_iff hsuperseded _
  | _ => simp [answered] at hanswered

/-! ## Whole runs -/

/-- The call that the manager waits for, if it carries an install token. -/
def Pc.call : Pc → Option Call
  | .polling call | .refreshing call | .registering call _ _ => some call
  | _ => none

/-- The token of the manager's call is the stored one, as long as there is one. -/
def Owned (next : SerialStore × Pc) : Prop :=
  ∀ call token, next.2.call = some call → next.1.state.installToken = some token →
    token = call.token

theorem owned_none {store : SerialStore} {pc : Pc} (h : pc.call = none) : Owned (store, pc) := by
  intro call token hcall
  change pc.call = some call at hcall
  rw [h] at hcall
  cases hcall

theorem attemptActivation_call {s : SerialState} {stage : Stage} {pc : Pc}
    (h : attemptActivation s stage = some pc) : pc.call = none := by
  rw [attemptActivation] at h
  split_ifs at h
  cases h
  rfl

theorem startupFinish_owned (version : String) (store : SerialStore) :
    Owned (startupFinish version store) := by
  rw [startupFinish]
  split_ifs
  · split
    · next token htoken =>
      split_ifs
      · rintro call token' ⟨⟩ htoken'
        change store.state.installToken = some token' at htoken'
        rw [htoken] at htoken'
        exact (Option.some.inj htoken').symm
      · exact owned_none rfl
    · exact owned_none rfl
  · exact owned_none rfl

theorem startupRest_owned (version : String) (store : SerialStore) :
    Owned (startupRest version store) := by
  rw [startupRest]
  split_ifs
  · exact owned_none rfl
  · split
    · next hpc => exact owned_none (attemptActivation_call hpc)
    · exact startupFinish_owned version store
  · exact startupFinish_owned version store

theorem resume_owned (version : String) (store : SerialStore) (stage : Stage) :
    Owned (resume version store stage) := by
  cases stage with
  | rest => exact startupRest_owned version store
  | finish => exact startupFinish_owned version store
  | loop => exact owned_none rfl

theorem startup_owned (version : String) (store : SerialStore) : Owned (startup version store) := by
  rw [startup]
  split_ifs
  · exact startupRest_owned version _
  · exact owned_none rfl
  · exact startupRest_owned version store

theorem generated_owned (version : String) (store : SerialStore) (stage : Stage)
    (answer : Option (String × String)) : Owned (generated version store stage answer) := by
  cases answer with
  | none => exact resume_owned version store stage
  | some answer =>
    rw [generated]
    dsimp only
    split
    · next hpc => exact owned_none (attemptActivation_call hpc)
    · exact resume_owned version _ stage

theorem iterate_owned (store : SerialStore) : Owned (store, iterate store.state) := by
  have hpoll : Owned (store, (pollStatus store.state).getD .loop) := by
    rw [pollStatus]
    split_ifs
    · split
      · next token htoken =>
        split_ifs
        · rintro call token' ⟨⟩ htoken'
          change store.state.installToken = some token' at htoken'
          rw [htoken] at htoken'
          exact (Option.some.inj htoken').symm
        · exact owned_none rfl
      · exact owned_none rfl
    · exact owned_none rfl
  rw [iterate]
  split
  · cases hpc : attemptActivation store.state .loop with
    | some pc => exact owned_none (attemptActivation_call hpc)
    | none => exact owned_none rfl
  · exact hpoll
  · exact hpoll
  · exact owned_none rfl
  · exact owned_none rfl

theorem polled_owned {store : SerialStore} {call : Call} (h : Owned (store, .polling call))
    (result : StatusResult) (registers : Bool) (now : String) :
    Owned (polled store call result registers now) := by
  rw [polled]
  split
  · next data _ _ =>
    have hserial := persistSerialId_state store.recordSuccess result.serialId
    dsimp only
    split_ifs
    · rintro call' token ⟨⟩ htoken
      exact h _ token rfl (hserial.1.symm.trans htoken)
    · exact owned_none rfl
  · split_ifs
    · exact owned_none rfl
    · exact owned_none rfl

theorem take_token (store : SerialStore) (reply : Reply) {token : String}
    (h : (store.take reply).state.installToken = some token) :
    store.state.installToken = some token := by
  cases reply with
  | rejected => cases h
  | _ => exact h

theorem owned_step {s s' : System} {e : Event} (h : Owned (s.store, s.manager))
    (hstep : Step s e s') : Owned (s'.store, s'.manager) := by
  cases hstep with
  | startup => exact startup_owned s.version s.store
  | generated => exact generated_owned s.version s.store _ _
  | activated => exact resume_owned s.version _ _
  | refreshed => exact owned_none rfl
  | iterate => exact iterate_owned s.store
  | polled hmanager =>
    rw [hmanager] at h
    exact polled_owned h _ _ _
  | registered => exact owned_none rfl
  | failed =>
    show Owned (failed s.version s.store s.manager)
    cases s.manager with
    | provisioning stage => exact resume_owned s.version s.store stage
    | activating stage =>
      cases stage with
      | rest => exact startupRest_owned s.version s.store
      | finish => exact owned_none rfl
      | loop => exact owned_none rfl
    | _ => exact owned_none rfl
  | decided => exact h
  | meter => exact h
  | @metered i call' category answer =>
    intro call token hcall htoken
    change (settle s.store category (meter answer)).1.state.installToken = some token at htoken
    rw [settle_store] at htoken
    exact h call token hcall (take_token _ _ htoken)
  | meterRaised => exact h
  | restart => exact owned_none rfl

/-- **Late answers leave the token and the state** in a run exactly if no superseded
    call of it has an answer that upsets them; and a call of the manager is superseded
    by a migration only. -/
theorem late_answers_iff (version : String) (file : Option SerialState)
    (envSerial envBootstrap : String) (es : List Event) (s : System) :
    (Run (fun s e s' => Step s e s' ∧ Kept s e s') (.boot version file envSerial envBootstrap) es s ↔
      Run (fun s e s' => Step s e s' ∧ InTime s e) (.boot version file envSerial envBootstrap) es s) ∧
    (Run Step (.boot version file envSerial envBootstrap) es s → ∀ call,
      s.manager.call = some call → Superseded s.store.state call →
        s.store.state.state = .migrated ∧ call.madeIn ≠ .migrated) := by
  constructor
  · exact Run.restrict_iff (I := fun _ => True) (fun _ _ => trivial) (fun _ => kept_iff) trivial
  · intro h call hcall hsuperseded
    have howned : Owned (s.store, s.manager) :=
      @Run.invariant _ _ Step _ _ _ (fun s => Owned (s.store, s.manager)) owned_step h
        (owned_none rfl)
    rcases hsuperseded with ⟨token, htoken, hne⟩ | hmigrated
    · exact absurd (howned call token hcall htoken) hne
    · exact hmigrated

/-! ### A call with a token that has been rotated -/

/-- A metering call is made while the next version of the program refreshes the
    token, and is rejected after it. -/
theorem rotated_token_cleared : ∃ es s e s', Run Step (.boot "1" none "VZ-1" "boot") es s ∧
    Step s e s' ∧ s.store.state.installToken = some "new" ∧
    s'.store.state.installToken = none ∧ ¬ Kept s e s' := by
  have hrun := (Run.cons (.startup rfl) <|
    .cons (.activated rfl : Step _ (.activated ⟨200, some (some "old", none)⟩) _) <|
    .cons (.restart : Step _ (.restart "2" "VZ-1" "boot") _) <|
    .cons (.startup rfl) <|
    .cons (.meter rfl rfl : Step _ (.meter 0 "data") _) <|
    .cons (.refreshed rfl : Step _ (.refreshed ⟨200, some (some "new")⟩) _) .nil :
    Run Step (.boot "1" none "VZ-1" "boot") _ _)
  refine ⟨_, _, .metered 0 ⟨401, none⟩, _, hrun, .metered rfl, rfl, rfl, ?_⟩
  intro h
  have hcleared := (h ⟨"old", .active⟩ .rejected rfl (Or.inl ⟨"new", rfl, by decide⟩)).1 rfl
  cases hcleared

end Activation

end AimData
