/-
  The credentials of the serial: a provisioned serial can be activated, an active or
  degraded one has its install token.  One answer takes the token of an active
  serial away and leaves it provisioned: a refresh that is answered 401.
-/
import AimData.Activation.Store

namespace AimData

namespace Activation

/-! ## Consistent states -/

structure Consistent (s : SerialState) : Prop where
  provisioned : s.state = .provisioned → s.serial ≠ "" ∧ present s.bootstrapToken = true
  installed : s.state = .active ∨ s.state = .degraded → present s.installToken = true

/-- The next step of the manager has its credential: a provisioned serial is
    activated, an active or degraded one is polled. -/
structure Supplied (s : SerialState) : Prop where
  activates : s.state = .provisioned →
    ∀ stage, attemptActivation s stage = some (.activating stage)
  polls : s.state = .active ∨ s.state = .degraded → ∃ call, pollStatus s = some (.polling call)

/-- What is generated is not empty, and no refresh is answered 401. -/
def Provided : Event → Prop
  | .generated (some (serial, bootstrapToken)) => serial ≠ "" ∧ bootstrapToken ≠ ""
  | .refreshed answer => answer.statusCode ≠ 401
  | _ => True

theorem present_iff {o : Option String} : present o = true ↔ ∃ t, o = some t ∧ t ≠ "" := by
  cases o with
  | none => simp [present]
  | some t => simp [present]

theorem Consistent.supplied {s : SerialState} (h : Consistent s) : Supplied s := by
  constructor
  · intro hstate stage
    obtain ⟨hserial, hbootstrap⟩ := h.provisioned hstate
    rw [attemptActivation, if_neg (by simp [hserial, hbootstrap])]
  · intro hstate
    obtain ⟨token, htoken, hne⟩ := present_iff.1 (h.installed hstate)
    refine ⟨⟨token, s.state⟩, ?_⟩
    simp only [pollStatus, if_pos hstate, htoken, if_pos hne]

/-! ## The store -/

/-- A consistent state, which the file has too if there is one, and in which an
    activated serial has spent its bootstrap token. -/
structure Sound (store : SerialStore) : Prop where
  saved : ∀ state, store.file = some state → state = store.state
  spent : store.state.state = .active ∨ store.state.state = .degraded →
    store.state.bootstrapToken = none
  consistent : Consistent store.state

theorem Sound.put {state : SerialState} (hspent : state.state = .active ∨ state.state = .degraded →
    state.bootstrapToken = none) (hconsistent : Consistent state) : Sound (.put state) :=
  ⟨fun _ h => (Option.some.inj h).symm, hspent, hconsistent⟩

theorem Sound.load {store : SerialStore} (h : Sound store) (envSerial envBootstrap : String) :
    Sound (.load store.file envSerial envBootstrap) := by
  cases hfile : store.file with
  | some state =>
    obtain rfl := h.saved state hfile
    exact ⟨fun _ h => (Option.some.inj h).symm, h.spent, h.consistent⟩
  | none =>
    unfold SerialStore.load
    dsimp only
    split_ifs with henv
    · exact .put (by simp) ⟨fun _ => ⟨henv.1, present_iff.2 ⟨_, rfl, henv.2⟩⟩, by simp⟩
    · exact ⟨fun _ h => (by cases h), by simp, by simp, by simp⟩

theorem sound_boot (version envSerial envBootstrap : String) :
    Sound (System.boot version none envSerial envBootstrap).store :=
  have hempty : Sound ⟨{}, none⟩ := ⟨fun _ h => (by cases h), by simp, by simp, by simp⟩
  hempty.load envSerial envBootstrap

section

variable {store : SerialStore} (h : Sound store)
include h

theorem Sound.recordSuccess : Sound store.recordSuccess := by
  have hstate : ∀ {st}, (if store.state.state = .degraded then .active else store.state.state) = st →
      st = .active ∨ st = .degraded → store.state.state = .active ∨ store.state.state = .degraded := by
    intro st hst hor
    split_ifs at hst with hdegraded
    · exact Or.inr hdegraded
    · rw [hst]
      exact hor
  refine .put (fun hor => h.spent (hstate rfl hor)) ⟨?_, fun hor => h.consistent.installed (hstate rfl hor)⟩
  intro hprovisioned
  dsimp only at hprovisioned
  split_ifs at hprovisioned
  exact h.consistent.provisioned hprovisioned

theorem Sound.recordFailure : Sound store.recordFailure := by
  have hstate : ∀ {p : Prop} [Decidable p] {st},
      (if store.state.state = .active ∧ p then .degraded else store.state.state) = st →
      st = .active ∨ st = .degraded → store.state.state = .active ∨ store.state.state = .degraded := by
    intro p _ st hst hor
    split_ifs at hst with hactive
    · exact Or.inl hactive.1
    · rw [hst]
      exact hor
  refine .put (fun hor => h.spent (hstate rfl hor)) ⟨?_, fun hor => h.consistent.installed (hstate rfl hor)⟩
  intro hprovisioned
  dsimp only at hprovisioned
  split_ifs at hprovisioned
  exact h.consistent.provisioned hprovisioned

theorem Sound.updateAppVersion (version : String) : Sound (store.updateAppVersion version) :=
  .put h.spent ⟨h.consistent.provisioned, h.consistent.installed⟩

theorem Sound.updateStatusCache (data : StatusData) (timestamp : String) :
    Sound (store.updateStatusCache data timestamp) :=
  .put h.spent ⟨h.consistent.provisioned, h.consistent.installed⟩

theorem Sound.persistSerialId (serialId : Option String) : Sound (store.persistSerialId serialId) := by
  rw [SerialStore.persistSerialId]
  split_ifs
  · exact .put h.spent ⟨h.consistent.provisioned, h.consistent.installed⟩
  · exact h

end

theorem sound_active (store : SerialStore) {token : String} (htoken : token ≠ "") :
    Sound (store.transitionToActive token) :=
  .put (fun _ => rfl) ⟨fun h => (by cases h), fun _ => present_iff.2 ⟨_, rfl, htoken⟩⟩

theorem sound_migrated (store : SerialStore) (gatewayUserId : Option String) :
    Sound (store.transitionToMigrated gatewayUserId) :=
  .put (by rintro (h | h) <;> cases h) ⟨fun h => (by cases h), by rintro (h | h) <;> cases h⟩

theorem sound_unprovisioned (store : SerialStore) : Sound store.transitionToUnprovisioned :=
  .put (fun _ => rfl) ⟨fun h => (by cases h), by rintro (h | h) <;> cases h⟩

theorem Sound.settle {store : SerialStore} (h : Sound store) (category : String)
    (result : MeterResult) : Sound (settle store category result).1 := by
  unfold Activation.settle
  dsimp only
  split_ifs
  · exact sound_migrated _ _
  · exact h.recordSuccess
  · exact h.recordSuccess
  · exact h.recordSuccess
  · exact sound_unprovisioned _
  all_goals exact h.recordFailure

theorem settle_bootstrapToken {store : SerialStore} (h : store.state.bootstrapToken = none)
    (category : String) (result : MeterResult) :
    (settle store category result).1.state.bootstrapToken = none := by
  unfold settle
  dsimp only
  split_ifs
  all_goals first | exact h | rfl

/-! ## The manager -/

/-- A sound store, and a manager that waits for a refresh only of an active serial. -/
structure Ready (next : SerialStore × Pc) : Prop where
  sound : Sound next.1
  spent : ∀ call, next.2 = .refreshing call → next.1.state.bootstrapToken = none

section

variable {version : String} {store : SerialStore}

theorem Sound.ready (h : Sound store) {pc : Pc} (hpc : ∀ call, pc ≠ .refreshing call) :
    Ready (store, pc) :=
  ⟨h, fun call hcall => absurd hcall (hpc call)⟩

theorem attemptActivation_eq {s : SerialState} {stage : Stage} {pc : Pc}
    (h : attemptActivation s stage = some pc) : pc = .activating stage := by
  rw [attemptActivation] at h
  split_ifs at h
  exact (Option.some.inj h).symm

theorem Sound.startupFinish (h : Sound store) : Ready (startupFinish version store) := by
  rw [Activation.startupFinish]
  split_ifs with hactive
  · cases hinstall : store.state.installToken with
    | none => exact (h.updateAppVersion version).ready nofun
    | some token =>
      dsimp only
      split_ifs
      · exact ⟨h, fun _ _ => h.spent (Or.inl hactive)⟩
      · exact (h.updateAppVersion version).ready nofun
  · exact h.ready nofun

theorem Sound.startupRest (h : Sound store) : Ready (startupRest version store) := by
  rw [Activation.startupRest]
  split_ifs
  · exact h.ready nofun
  · cases hpc : attemptActivation store.state .finish with
    | some pc => exact attemptActivation_eq hpc ▸ h.ready nofun
    | none => exact h.startupFinish
  · exact h.startupFinish

theorem Sound.resume (h : Sound store) (stage : Stage) : Ready (resume version store stage) := by
  cases stage with
  | rest => exact h.startupRest
  | finish => exact h.startupFinish
  | loop => exact h.ready nofun

theorem Sound.startup (h : Sound store) : Ready (startup version store) := by
  rw [Activation.startup]
  split_ifs with hstate hcredentials
  · refine Sound.startupRest (.put (by simp) ⟨fun _ => hcredentials, by simp⟩)
  · exact h.ready nofun
  · exact h.startupRest

theorem Sound.activated (h : Sound store) (result : ActivateResult) :
    Sound (activated version store result) := by
  have hrefused : Sound (if result.statusCode = 401 then store.transitionToUnprovisioned
      else store) := by
    split_ifs
    · exact sound_unprovisioned store
    · exact h
  rw [Activation.activated]
  split
  · split_ifs with htoken hcode
    · exact ((sound_active store htoken).persistSerialId _).updateAppVersion version
    · exact sound_unprovisioned store
    · exact h
  · exact hrefused

theorem Sound.migrate (h : Sound store) (migrated : Bool) (gatewayUserId : Option String) :
    Sound (migrate store migrated gatewayUserId) := by
  rw [Activation.migrate]
  split_ifs
  · exact sound_migrated store gatewayUserId
  · exact h

theorem Sound.polled (h : Sound store) (call : Call) (result : StatusResult) (registers : Bool)
    (now : String) : Ready (polled store call result registers now) := by
  rw [Activation.polled]
  split
  · have hstore := (h.recordSuccess.persistSerialId result.serialId).updateStatusCache
    dsimp only
    split_ifs
    · exact (hstore _ now).ready nofun
    · exact ((hstore _ now).migrate _ _).ready nofun
  · split_ifs
    · exact (sound_unprovisioned store).ready nofun
    · exact h.recordFailure.ready nofun

theorem pollStatus_eq {s : SerialState} {pc : Pc} (h : pollStatus s = some pc) :
    ∃ call, pc = .polling call := by
  unfold pollStatus at h
  split at h
  · split at h
    · split_ifs at h
      exact ⟨_, (Option.some.inj h).symm⟩
    · cases h
  · cases h

theorem Sound.iterate (h : Sound store) : Ready (store, iterate store.state) := by
  have hpoll : Ready (store, (pollStatus store.state).getD .loop) := by
    cases hpc : pollStatus store.state with
    | some pc =>
      obtain ⟨call, rfl⟩ := pollStatus_eq hpc
      exact h.ready nofun
    | none => exact h.ready nofun
  rw [Activation.iterate]
  split
  · cases hpc : attemptActivation store.state .loop with
    | some pc => exact attemptActivation_eq hpc ▸ h.ready nofun
    | none => exact h.ready nofun
  · exact hpoll
  · exact hpoll
  · exact h.ready nofun
  · exact h.ready nofun

theorem Ready.failed {pc : Pc} (h : Ready (store, pc)) : Ready (failed version store pc) := by
  cases pc with
  | provisioning stage => exact h.sound.resume stage
  | activating stage =>
    cases stage with
    | rest => exact h.sound.startupRest
    | finish => exact h.sound.ready nofun
    | loop => exact h.sound.ready nofun
  | registering call migrated gatewayUserId =>
    exact (h.sound.migrate migrated gatewayUserId).ready nofun
  | started => exact h.sound.ready nofun
  | refreshing call => exact h.sound.ready nofun
  | loop => exact h.sound.ready nofun
  | polling call => exact h.sound.ready nofun
  | ended => exact h.sound.ready nofun

end

/-! ## One step -/

/-- A provisioned serial stays as it is until it is activated. -/
theorem resume_provisioned {version : String} {store : SerialStore} {stage : Stage}
    (h : store.state.state = .provisioned) : (resume version store stage).1 = store := by
  have hfinish : (startupFinish version store).1 = store := by
    rw [startupFinish, if_neg (by simp [h])]
  cases stage with
  | rest =>
    rw [resume, startupRest, if_neg (by simp [h]), if_pos h]
    split
    · rfl
    · exact hfinish
  | finish => exact hfinish
  | loop => rfl

/-- The state that an answer with a serial leads to. -/
theorem generated_store (version : String) (store : SerialStore) (stage : Stage)
    (serial bootstrapToken : String) :
    (generated version store stage (some (serial, bootstrapToken))).1 =
      .put { store.state with
        serial := serial, bootstrapToken := some bootstrapToken, state := .provisioned } := by
  rw [generated]
  dsimp only
  split
  · rfl
  · exact resume_provisioned rfl

section

variable {s : System} (h : Ready (s.store, s.manager))
include h

theorem Ready.generated (stage : Stage) (answer : Option (String × String)) :
    (Consistent (generated s.version s.store stage answer).1.state ↔
      Provided (.generated answer)) ∧
    (Provided (.generated answer) → Ready (generated s.version s.store stage answer)) := by
  cases answer with
  | none =>
    have hready : Ready (resume s.version s.store stage) := h.sound.resume stage
    exact ⟨⟨fun _ => trivial, fun _ => hready.sound.consistent⟩, fun _ => hready⟩
  | some answer =>
    obtain ⟨serial, bootstrapToken⟩ := answer
    rw [generated_store]
    constructor
    · constructor
      · intro hconsistent
        obtain ⟨hserial, hbootstrap⟩ := hconsistent.provisioned rfl
        obtain ⟨token, htoken, hne⟩ := present_iff.1 hbootstrap
        exact ⟨hserial, Option.some.inj htoken ▸ hne⟩
      · rintro ⟨hserial, hbootstrap⟩
        exact ⟨fun _ => ⟨hserial, present_iff.2 ⟨_, rfl, hbootstrap⟩⟩, by rintro (h | h) <;> cases h⟩
    · rintro ⟨hserial, hbootstrap⟩
      have hput : Sound (.put { s.store.state with
          serial := serial, bootstrapToken := some bootstrapToken, state := .provisioned }) :=
        .put (by rintro (h | h) <;> cases h)
          ⟨fun _ => ⟨hserial, present_iff.2 ⟨_, rfl, hbootstrap⟩⟩, by rintro (h | h) <;> cases h⟩
      rw [Activation.generated]
      dsimp only
      split
      · next hpc => exact attemptActivation_eq hpc ▸ hput.ready nofun
      · exact hput.resume stage

theorem Ready.refreshed {call : Call} (hmanager : s.manager = .refreshing call)
    (answer : Answer (Option String)) :
    (Consistent (refreshed s.store (refresh answer)).state ↔ Provided (.refreshed answer)) ∧
    (Provided (.refreshed answer) → Sound (refreshed s.store (refresh answer))) := by
  have hspent := h.spent call hmanager
  have hsound := h.sound
  by_cases hcode : answer.statusCode = 401
  · -- the token goes, and there is no bootstrap token left
    have hstate : (Activation.refreshed s.store (refresh answer)).state =
        { s.store.state with state := .provisioned, installToken := none } := by
      cases hdata : answer.data <;>
        simp [Activation.refreshed, refresh, hdata, hcode, SerialStore.put]
    refine ⟨⟨?_, fun hne => absurd hcode hne⟩, fun hne => absurd hcode hne⟩
    intro hconsistent
    rw [hstate] at hconsistent
    obtain ⟨token, htoken, -⟩ := present_iff.1 (hconsistent.provisioned rfl).2
    change s.store.state.bootstrapToken = some token at htoken
    rw [hspent] at htoken
    cases htoken
  · have hkept : Sound (Activation.refreshed s.store (refresh answer)) := by
      have hrefused : (refresh answer).statusCode ≠ 401 := by
        cases hdata : answer.data with
        | none => simpa [refresh, hdata] using hcode
        | some token =>
          simp only [refresh, hdata]
          split_ifs <;> exact hcode
      rw [Activation.refreshed]
      dsimp only
      rw [if_neg hrefused]
      split
      · split_ifs with htoken
        · exact .put hsound.spent ⟨hsound.consistent.provisioned,
            fun _ => present_iff.2 ⟨_, rfl, htoken⟩⟩
        · exact hsound
      · exact hsound
    exact ⟨⟨fun _ => hcode, fun _ => hkept.consistent⟩, fun _ => hkept⟩

end

/-- **One step** is consistent exactly if its answer provides what the state needs. -/
theorem ready_step_iff {s s' : System} {e : Event} (h : Ready (s.store, s.manager))
    (hstep : Step s e s') :
    (Consistent s'.store.state ↔ Provided e) ∧ (Provided e → Ready (s'.store, s'.manager)) := by
  have hready : ∀ {next : SerialStore × Pc}, Ready next → Provided e →
      (Consistent next.1.state ↔ Provided e) ∧ (Provided e → Ready next) :=
    fun hnext he => ⟨⟨fun _ => he, fun _ => hnext.sound.consistent⟩, fun _ => hnext⟩
  cases hstep with
  | startup => exact hready h.sound.startup trivial
  | generated => exact h.generated _ _
  | @activated stage answer => exact hready ((h.sound.activated _).resume stage) trivial
  | refreshed hmanager =>
    obtain ⟨hiff, hsound⟩ := h.refreshed hmanager _
    refine ⟨⟨fun hconsistent => hiff.1 ⟨hconsistent.provisioned, hconsistent.installed⟩, fun he => ?_⟩,
      fun he => ((hsound he).updateAppVersion _).ready nofun⟩
    exact ((hsound he).updateAppVersion _).consistent
  | iterate => exact hready h.sound.iterate trivial
  | polled => exact hready (h.sound.polled _ _ _ _) trivial
  | registered =>
    refine hready ((h.sound.migrate _ _).ready ?_) trivial
    exact nofun
  | failed => exact hready (Ready.failed h) trivial
  | decided => exact hready h trivial
  | meter => exact hready h trivial
  | @metered i call category answer =>
    have hsettled : Ready ((settle s.store category (meter answer)).1, s.manager) :=
      ⟨h.sound.settle _ _, fun call hcall => settle_bootstrapToken (h.spent call hcall) _ _⟩
    exact hready hsettled trivial
  | meterRaised => exact hready h trivial
  | restart =>
    refine hready ((h.sound.load _ _).ready ?_) trivial
    exact nofun

/-! ## Whole runs -/

/-- **The credentials are consistent** in a run from a fresh or environment-provisioned
    store exactly if every answer of it provides them; and a consistent state has what
    the manager needs next. -/
theorem credentials_consistent_iff (version envSerial envBootstrap : String) (es : List Event)
    (s : System) :
    (Run (fun s e s' => Step s e s' ∧ Consistent s'.store.state)
        (.boot version none envSerial envBootstrap) es s ↔
      Run (fun s e s' => Step s e s' ∧ Provided e) (.boot version none envSerial envBootstrap) es s) ∧
    ∀ state, Consistent state → Supplied state := by
  have hstart : Ready ((System.boot version none envSerial envBootstrap).store, .started) :=
    (sound_boot version envSerial envBootstrap).ready nofun
  refine ⟨⟨?_, ?_⟩, fun state => Consistent.supplied⟩
  · intro h
    refine h.mono (I := fun s => Ready (s.store, s.manager)) ?_ hstart
    rintro s e s' hready ⟨hstep, hconsistent⟩
    obtain ⟨hiff, hnext⟩ := ready_step_iff hready hstep
    exact ⟨hnext (hiff.1 hconsistent), hstep, hiff.1 hconsistent⟩
  · intro h
    refine h.mono (I := fun s => Ready (s.store, s.manager)) ?_ hstart
    rintro s e s' hready ⟨hstep, he⟩
    obtain ⟨hiff, hnext⟩ := ready_step_iff hready hstep
    exact ⟨hnext he, hstep, hiff.2 he⟩

/-! ### A refresh that is refused -/

/-- The serial is provisioned by the environment and activated, and the next version
    of the program refreshes its token. -/
theorem refused_refresh : ∃ es s, Run Step (.boot "1" none "VZ-1" "boot") es s ∧
    ¬ Consistent s.store.state ∧ ¬ Supplied s.store.state := by
  have hrun := (Run.cons (.startup rfl) <|
    .cons (.activated rfl : Step _ (.activated ⟨200, some (some "token", none)⟩) _) <|
    .cons (.restart : Step _ (.restart "2" "VZ-1" "boot") _) <|
    .cons (.startup rfl) <|
    .cons (.refreshed rfl : Step _ (.refreshed ⟨401, none⟩) _) .nil :
    Run Step (.boot "1" none "VZ-1" "boot") _ _)
  refine ⟨_, _, hrun, ?_, ?_⟩
  · intro h
    exact Bool.false_ne_true (h.provisioned rfl).2
  · intro h
    cases h.activates rfl .loop

end Activation

end AimData
