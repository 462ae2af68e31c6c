/-
  A preview build job under its threads: the worker with its error handler, the
  idle-expiry thread, and the seller's calls.

  A step is what one actor does while it holds the service lock, or between
  two acquisitions of it; the clock and what the file system answers are
  arbitrary.  A stored final state is covered by the cancel flag, or by a
  `cancel` call that has stored it and not yet set the flag (`Covered`); a
  background thread that writes in that window, or after a test of the flag
  that is out of date, overwrites it.
-/
import AimData.Lib.Program
import AimData.Lib.Run

namespace AimData

namespace Build

open Program

/-! ## The job -/

/-- `job["state"]` -/
inductive JobState where
  | building
  | ready
  | selected
  | scanned
  | packaged
  | hosted
  | signedCandidate
  | submitted
  | withdrawn
  | retired
  | cancelled
  | failed
  | expired
  deriving DecidableEq, Repr

/-- Cancelled, packaged, or a later state of a publication. -/
def JobState.isFinal : JobState → Bool
  | .packaged | .hosted | .signedCandidate | .submitted | .withdrawn | .retired | .cancelled => true
  | _ => false

/-- The states of a review. -/
def JobState.inReview : JobState → Bool
  | .building | .ready | .selected | .scanned => true
  | _ => false

/-- The states in which `release_on_exit` stops the worker. -/
def JobState.stopsWorker : JobState → Bool
  | .building | .ready | .selected | .scanned => false
  | _ => true

/-- A stored job. -/
structure BuildJob where
  state : JobState
  code : Option String
  message : Option String
  sourceVersion : String
  indices : List ℕ
  phase : String
  policy : Option Bool
  publication : Option String
  candidate : Bool
  deriving DecidableEq

/-- `self.live[job_id]`: the cancel event and what the review holds. -/
structure Live where
  cancel : Bool
  builder : Bool
  package : Bool
  lastInteraction : ℚ
  deriving DecidableEq

/-! ## The threads -/

/-- Where `run` stands. -/
inductive Worker where
  | starting
  | waitingSlot
  | running
  | reviewing
  | handling
  | closing
  | popping
  | done
  deriving DecidableEq

/-- Where `expire_idle` stands. -/
inductive Expiry where
  | unstarted
  | testing
  | locking
  | waiting
  | done
  deriving DecidableEq

/-- What a seller's call still has to do after its body: the section of
    `release_on_exit`, of a call that stored `cancelled` or not; the join with
    the worker; and the status that `cancel` returns. -/
inductive Call where
  | release (cancelled : Bool)
  | join (cancelled : Bool)
  | status
  deriving DecidableEq

structure Service where
  job : BuildJob
  live : Live
  listed : Bool
  worker : Worker
  expiry : Expiry
  calls : List Call

/-- A critical section: it may raise a `BuildError`, and what it has stored stays. -/
abbrev Section := Program Service String

def saveJob (f : BuildJob → BuildJob) : Section PUnit := modify fun s => { s with job := f s.job }

def setLive (f : Live → Live) : Section PUnit := modify fun s => { s with live := f s.live }

/-! ## The sections of the seller's calls -/

/-- What a section sees: two readings of the clock, and whether the dataset is
    still the owner's. -/
structure Env where
  now : ℚ
  later : ℚ
  owned : Bool

/-- `job.update(state="expired", code="review_expired")` -/
def BuildJob.expire (job : BuildJob) : BuildJob :=
  { job with state := .expired, code := some "review_expired" }

section
variable (idle : ℚ)

/-- `load` with an interaction. -/
def load (env : Env) : Section PUnit :=
  if env.owned = false then throw "dataset_owner_unverified"
  else do
    let s ← get
    if s.listed = true ∧ s.live.cancel = false then
      if env.now - s.live.lastInteraction ≥ idle then
        modify fun s => { s with job := s.job.expire, live := { s.live with cancel := true } }
      else setLive fun live => { live with lastInteraction := env.later }
    else if s.job.state.inReview then saveJob BuildJob.expire
    else pure ()

/-- `check_source`; `source_identity` gives a version or raises. -/
def checkSource (source : Option String) : Section PUnit := do
  let s ← get
  if s.job.state = .expired then throw "review_expired"
  else if s.job.state ∈ [.cancelled, .failed, .retired, .withdrawn] then throw "job_inactive"
  else match source with
    | none => throw "source_unavailable"
    | some version =>
      if version ≠ s.job.sourceVersion then do
        modify fun s => { s with
          job := { s.job with state := .failed, code := some "source_changed" }
          live := { s.live with cancel := s.live.cancel || s.listed } }
        throw "source_changed"
      else pure ()

def active (source : Option String) : Section PUnit := do
  checkSource source
  let s ← get
  if s.listed = false ∨ s.live.cancel = true ∨ s.live.builder = false then throw "review_recovering"
  else pure ()

/-- What `status` shows of the state. -/
structure Status where
  state : JobState
  code : Option String
  reviewReady : Bool
  deriving DecidableEq

def status (env : Env) : Section Status := do
  load idle env
  let s ← get
  return ⟨s.job.state, s.job.code,
    s.job.state ∈ [.ready, .selected, .scanned] ∧ s.listed ∧ s.live.cancel = false ∧ s.live.builder⟩

/-- What `cancel` does with the job it has loaded. -/
def storeCancelled : Section PUnit := do
  let s ← get
  if s.job.publication ≠ none then throw "withdraw_required"
  else saveJob fun job => { job with state := .cancelled, policy := none }

/-- The body of `cancel`. -/
def cancel (env : Env) : Section PUnit := do
  load idle env
  storeCancelled

/-- `select`; `valid` tells whether the selection is. -/
def select (env env' : Env) (source : Option String) (indices : List ℕ) (valid : Bool) :
    Section Status := do
  load idle env
  active source
  let s ← get
  if s.job.publication ≠ none ∨ s.job.candidate = true then throw "replace_preview_required"
  else if valid = false then throw "invalid_selection"
  else do
    saveJob fun job => { job with state := .selected, policy := none, indices := indices }
    setLive fun live => { live with package := false }
    status idle env'

/-- How `prepare` ends in `scan`. -/
inductive Prepare where
  | passed
  | policyError
  | raised
  deriving DecidableEq

def scan (env env' : Env) (source : Option String) (consent : Bool) (prepare : Prepare) :
    Section Status := do
  load idle env
  active source
  let s ← get
  if s.job.publication ≠ none ∨ s.job.candidate = true then throw "replace_preview_required"
  else if consent = false then throw "approval_required"
  else do
    saveJob fun job => { job with phase := "scanning" }
    match prepare with
    | .raised => throw "invalid_selection"
    | .passed => do
      setLive fun live => { live with package := true }
      saveJob fun job => { job with state := .scanned, policy := some true, phase := "ready" }
      status idle env'
    | .policyError => do
      setLive fun live => { live with package := false }
      saveJob fun job => { job with state := .selected, policy := some false, phase := "ready" }
      status idle env'

/-- `download`; `stored` tells whether the store still has the package. -/
def download (env : Env) (stored : Bool) : Section PUnit := do
  load idle env
  let s ← get
  if s.job.publication = none ∨ s.job.state ∈ [.withdrawn, .retired] then throw "package_unavailable"
  else if stored = false then throw "package_unavailable"
  else pure ()

/-- The body of `package`; the environments of its `load`s in order, and whether
    the store exports, or still has, the package. -/
def package (env : ℕ → Env) (source source' : Option String) (destination : String)
    (stored : Bool) : Section Status := do
  load idle (env 0)
  checkSource source
  let s ← get
  if s.job.publication ≠ none ∧ s.job.publication ≠ some destination then
    throw "replace_preview_required"
  else if s.job.publication ≠ none then do
    download idle (env 1) stored
    status idle (env 2)
  else do
    active source'
    let s ← get
    if s.live.package = false then throw "policy_confirmation_required"
    else if stored = false then throw "export_failed"
    else do
      modify fun s => { s with
        job := { s.job with state := .packaged, publication := some destination }
        live := { s.live with cancel := true } }
      status idle (env 1)

/-- The states that a published job goes on to. -/
inductive Stage where
  | hosted
  | signedCandidate
  | submitted
  | withdrawn
  | retired
  deriving DecidableEq

def Stage.state : Stage → JobState
  | .hosted => .hosted
  | .signedCandidate => .signedCandidate
  | .submitted => .submitted
  | .withdrawn => .withdrawn
  | .retired => .retired

/-- `withdraw` alone does not check the source. -/
def checkStage (source : Option String) (stage : Stage) : Section PUnit :=
  if stage = .withdrawn ∨ stage = .retired then pure () else checkSource source

/-- What `origin_check`, `candidate`, `submit` and `withdraw` store of the state:
    nothing for a job without a publication, or when what they call fails. -/
def advance (env : Env) (source : Option String) (stage : Stage) (succeeds : Bool) :
    Section PUnit := do
  load idle env
  checkStage source stage
  let s ← get
  if s.job.publication = none then throw "package_required"
  else if succeeds = false then throw "marketplace_unavailable"
  else saveJob fun job => { job with
    state := stage.state, candidate := job.candidate || decide (stage ≠ .hosted) }

end

/-- The section of `release_on_exit`, and whether the call then joins the worker. -/
def releaseOnExit (s : Service) : Service × Bool :=
  if s.listed = true ∧ s.job.state.stopsWorker = true then
    ({ s with live := { s.live with cancel := true } }, true)
  else (s, false)

/-! ## The sections of the background threads -/

/-- `progress` -/
def progress (phase : String) (job : BuildJob) : BuildJob := { job with phase := phase }

/-- The section of `review`. -/
def review (s : Service) : Service :=
  if s.live.cancel = true then s
  else { s with
    live := { s.live with builder := true }
    job := if s.job.state = .building then
        { s.job with state := if s.job.indices = [] then .ready else .selected }
      else s.job }

/-- `remaining` of `expire_idle` -/
def remaining (idle now : ℚ) (live : Live) : ℚ := idle - (now - live.lastInteraction)

/-- The section of `expire_idle`. -/
def expireIdle (idle now : ℚ) (s : Service) : Service :=
  if remaining idle now s.live ≤ 0 then
    { s with job := s.job.expire, live := { s.live with cancel := true }, expiry := .done }
  else { s with expiry := .waiting }

/-- The section of the error handler of `run`. -/
def handleError (code : String) (message : Option String) (s : Service) : Service :=
  if s.live.cancel = true then s
  else { s with job := { s.job with state := .failed, code := some code, message := message } }

/-! ## Steps -/

/-- What happens in a step. -/
inductive Event where
  | startExpiry
  | slot
  | slotCancelled
  | progress (phase : String)
  | review
  | reviewOver
  | returned
  | raised
  | handleError (code : String) (message : Option String)
  | cancelSet
  | pop
  | testFlag
  | expireIdle (now : ℚ)
  | wake
  | status (env : Env)
  | cancel (env : Env)
  | select (env env' : Env) (source : Option String) (indices : List ℕ) (valid : Bool)
  | scan (env env' : Env) (source : Option String) (consent : Bool) (prepare : Prepare)
  | package (env : ℕ → Env) (source source' : Option String) (destination : String) (stored : Bool)
  | advance (env : Env) (source : Option String) (stage : Stage) (succeeds : Bool)
  | release (cancelled : Bool)
  | join (cancelled : Bool)
  | returnStatus (env : Env)

/-- The steps of the worker and of the expiry thread. -/
def Event.background : Event → Bool
  | .status _ | .cancel _ | .select .. | .scan .. | .package .. | .advance .. | .release _ | .join _
  | .returnStatus _ => false
  | _ => true

/-- A call made, with what it has to do after its section. -/
def called {α : Type} (x : Section α) (after : Except String α → List Call) (s : Service) : Service :=
  { (exec x s).2 with calls := after (exec x s).1 ++ s.calls }

/-- What a seller's call goes on with after `release_on_exit`. -/
def afterRelease (joins cancelled : Bool) : List Call :=
  if joins = true then [.join cancelled] else if cancelled = true then [.status] else []

/-- **One step of the job.** -/
inductive ServiceStep (idle : ℚ) : Service → Event → Service → Prop
  -- the worker
  | startExpiry {s : Service} : s.worker = .starting →
    ServiceStep idle s .startExpiry { s with worker := .waitingSlot, expiry := .testing }
  | slot {s : Service} : s.worker = .waitingSlot → s.live.cancel = false →
    ServiceStep idle s .slot { s with worker := .running }
  | slotCancelled {s : Service} : s.worker = .waitingSlot → s.live.cancel = true →
    ServiceStep idle s .slotCancelled { s with worker := .closing }
  | progress {s : Service} {phase : String} : s.worker = .running →
    ServiceStep idle s (.progress phase) { s with job := progress phase s.job }
  | review {s : Service} : s.worker = .running →
    ServiceStep idle s .review { review s with worker := .reviewing }
  | reviewOver {s : Service} : s.worker = .reviewing → s.live.cancel = true →
    ServiceStep idle s .reviewOver { s with worker := .running }
  | returned {s : Service} : s.worker = .running →
    ServiceStep idle s .returned { s with worker := .closing }
  | raised {s : Service} : s.worker ∈ [.starting, .waitingSlot, .running, .reviewing] →
    ServiceStep idle s .raised { s with worker := .handling }
  | handleError {s : Service} {code : String} {message : Option String} : s.worker = .handling →
    ServiceStep idle s (.handleError code message) { handleError code message s with worker := .closing }
  | cancelSet {s : Service} : s.worker = .closing →
    ServiceStep idle s .cancelSet { s with live := { s.live with cancel := true }, worker := .popping }
  | pop {s : Service} : s.worker = .popping →
    ServiceStep idle s .pop { s with listed := false, worker := .done }
  -- the expiry thread: the test of the flag is outside of the lock
  | testFlag {s : Service} : s.expiry = .testing →
    ServiceStep idle s .testFlag
      { s with expiry := if s.live.cancel = true then .done else .locking }
  | expireIdle {s : Service} {now : ℚ} : s.expiry = .locking →
    ServiceStep idle s (.expireIdle now) (expireIdle idle now s)
  | wake {s : Service} : s.expiry = .waiting → ServiceStep idle s .wake { s with expiry := .testing }
  -- the seller
  | status {s : Service} {env : Env} :
    ServiceStep idle s (.status env) (called (status idle env) (fun _ => []) s)
  | cancel {s : Service} {env : Env} :
    ServiceStep idle s (.cancel env) (called (cancel idle env) (fun r => [.release r.isOk]) s)
  | select {s : Service} {env env' : Env} {source : Option String} {indices : List ℕ} {valid : Bool} :
    ServiceStep idle s (.select env env' source indices valid)
      (called (select idle env env' source indices valid) (fun _ => []) s)
  | scan {s : Service} {env env' : Env} {source : Option String} {consent : Bool}
      {prepare : Prepare} :
    ServiceStep idle s (.scan env env' source consent prepare)
      (called (scan idle env env' source consent prepare) (fun _ => []) s)
  | package {s : Service} {env : ℕ → Env} {source source' : Option String} {destination : String}
      {stored : Bool} :
    ServiceStep idle s (.package env source source' destination stored)
      (called (package idle env source source' destination stored) (fun _ => [.release false]) s)
  | advance {s : Service} {env : Env} {source : Option String} {stage : Stage} {succeeds : Bool} :
    ServiceStep idle s (.advance env source stage succeeds)
      (called (advance idle env source stage succeeds)
        (fun _ => if stage = .hosted then [] else [.release false]) s)
  | release {s : Service} {cancelled : Bool} : .release cancelled ∈ s.calls →
    ServiceStep idle s (.release cancelled)
      { (releaseOnExit s).1 with
        calls := afterRelease (releaseOnExit s).2 cancelled ++ s.calls.erase (.release cancelled) }
  | join {s : Service} {cancelled : Bool} : .join cancelled ∈ s.calls → s.worker = .done →
    ServiceStep idle s (.join cancelled)
      { s with calls := afterRelease false cancelled ++ s.calls.erase (.join cancelled) }
  | returnStatus {s : Service} {env : Env} : .status ∈ s.calls →
    ServiceStep idle s (.returnStatus env)
      { (exec (status idle env) s).2 with calls := s.calls.erase .status }

/-- A job when `create` has started its worker. -/
def Service.start (sourceVersion : String) (now : ℚ) : Service where
  job := ⟨.building, none, none, sourceVersion, [], "reading", none, none, false⟩
  live := ⟨false, false, false, now⟩
  listed := true
  worker := .starting
  expiry := .unstarted
  calls := []

/-- **Final states stay**: in every run from the start, no step of a background
    thread takes a stored final state to another. -/
def FinalStays (Step : Service → Event → Service → Prop) : Prop :=
  ∀ (sourceVersion : String) (now : ℚ) (es : List Event) (s : Service),
    Run Step (.start sourceVersion now) es s → ∀ (e : Event) (s' : Service), Step s e s' →
      e.background = true → s.job.state.isFinal = true → s'.job.state.isFinal = true

/-! ## The cover of final states -/

theorem JobState.stopsWorker_of_isFinal : ∀ {state : JobState}, state.isFinal = true →
    state.stopsWorker = true
  | .building, h | .ready, h | .selected, h | .scanned, h | .failed, h | .expired, h => by cases h
  | .packaged, _ | .hosted, _ | .signedCandidate, _ | .submitted, _ | .withdrawn, _ | .retired, _
  | .cancelled, _ => rfl

/-- A final state is covered by the flag or by the window; a publication, and a
    job that is no longer live, by the flag. -/
structure Covered (window : Prop) (s : Service) : Prop where
  final : s.job.state.isFinal = true → s.live.cancel = true ∨ window
  published : s.job.publication ≠ none → s.live.cancel = true
  listed : s.listed = false → s.live.cancel = true

theorem Covered.of_flag {window : Prop} {s : Service} (h : s.live.cancel = true) :
    Covered window s :=
  ⟨fun _ => Or.inl h, fun _ => h, fun _ => h⟩

theorem Covered.mono {window window' : Prop} {s : Service} (h : Covered window s)
    (hw : window → window') : Covered window' s :=
  ⟨fun hf => (h.final hf).imp_right hw, h.published, h.listed⟩

/-- A job that is not in a final state, and was covered before. -/
theorem Covered.of_not_final {window : Prop} {s s' : Service} (h : Covered window s)
    (hf : s'.job.state.isFinal = false) (hp : s'.job.publication = s.job.publication)
    (hl : s'.listed = s.listed) (hc : s.live.cancel = true → s'.live.cancel = true) :
    Covered window s' := by
  refine ⟨fun hf' => ?_, fun hp' => hc (h.published (hp ▸ hp')), fun hl' => hc (h.listed (hl ▸ hl'))⟩
  rw [hf] at hf'
  cases hf'

/-- What a section of a seller's call keeps. -/
structure Kept (window : Prop) (s s' : Service) : Prop where
  covered : Covered window s → Covered window s'
  flag : s.live.cancel = true → s'.live.cancel = true
  worker : s'.worker = s.worker

theorem Kept.refl {window : Prop} (s : Service) : Kept window s s := ⟨id, id, rfl⟩

theorem Kept.trans {window : Prop} {s s' s'' : Service} (h : Kept window s s')
    (h' : Kept window s' s'') : Kept window s s'' :=
  ⟨fun hc => h'.covered (h.covered hc), fun hf => h'.flag (h.flag hf), h'.worker.trans h.worker⟩

section
variable {idle : ℚ} {window : Prop}

/-- The section keeps the cover. -/
abbrev KeepsCover {α : Type} (window : Prop) (x : Section α) : Prop := Keeps (Kept window) x

theorem keepsCover_bind {α β : Type} {x : Section α} {f : α → Section β}
    (hx : KeepsCover window x) (hf : ∀ a, KeepsCover window (f a)) : KeepsCover window (x >>= f) :=
  keeps_bind (fun _ _ _ h h' => h.trans h') hx hf

theorem keepsCover_pure {α : Type} (a : α) : KeepsCover window (pure a : Section α) :=
  keeps_pure Kept.refl a

theorem keepsCover_throw {α : Type} (code : String) : KeepsCover window (throw code : Section α) :=
  keeps_throw Kept.refl code

theorem kept_expire (s : Service) :
    Kept window s { s with job := s.job.expire, live := { s.live with cancel := true } } :=
  ⟨fun _ => Covered.of_flag rfl, fun _ => rfl, rfl⟩

/-- A section that leaves the flag, and stores a state that is not final. -/
theorem keepsCover_saveJob {f : BuildJob → BuildJob}
    (hf : ∀ job, (f job).state = job.state ∨ (f job).state.isFinal = false)
    (hp : ∀ job, (f job).publication = job.publication) : KeepsCover window (saveJob f) := by
  refine keeps_modify fun s => ⟨fun h => ?_, id, rfl⟩
  rcases hf s.job with hstate | hstate
  · refine ⟨fun hfinal => h.final ?_, fun hpub => h.published ?_, h.listed⟩
    · rwa [hstate] at hfinal
    · rwa [hp] at hpub
  · exact h.of_not_final hstate (hp s.job) rfl id

theorem keepsCover_setLive {f : Live → Live} (hf : ∀ live, (f live).cancel = live.cancel) :
    KeepsCover window (setLive f) := by
  refine keeps_modify fun s => ⟨fun h => ?_, fun hc => (hf s.live).trans hc, rfl⟩
  refine ⟨fun hfinal => ?_, fun hp => (hf s.live).trans (h.published hp),
    fun hl => (hf s.live).trans (h.listed hl)⟩
  exact (h.final hfinal).imp_left fun hc => (hf s.live).trans hc

theorem keepsCover_load (env : Env) : KeepsCover window (load idle env) := by
  refine keeps_ite (fun _ => keepsCover_throw _) fun _ => keeps_get_bind fun s => ?_
  by_cases hl : s.listed = true ∧ s.live.cancel = false
  · rw [if_pos hl]
    by_cases ht : env.now - s.live.lastInteraction ≥ idle
    · rw [if_pos ht]
      exact kept_expire s
    · rw [if_neg ht]
      exact keepsCover_setLive (by intro live; rfl) s
  · rw [if_neg hl]
    split_ifs
    · exact keepsCover_saveJob (f := BuildJob.expire) (fun _ => Or.inr rfl) (fun _ => rfl) s
    · exact Kept.refl s

theorem keepsCover_checkSource (source : Option String) :
    KeepsCover window (checkSource source) := by
  refine keeps_get_bind fun s => ?_
  split_ifs
  · exact Kept.refl s
  · exact Kept.refl s
  · cases source with
    | none => exact Kept.refl s
    | some version =>
      dsimp only
      split_ifs
      · refine keepsCover_bind (keeps_modify fun s => ?_) (fun _ => keepsCover_throw _) s
        have hflag : s.live.cancel = true → (s.live.cancel || s.listed) = true := by
          intro hc
          rw [hc, Bool.true_or]
        exact ⟨fun h => h.of_not_final rfl rfl rfl hflag, hflag, rfl⟩
      · exact Kept.refl s

theorem keepsCover_active (source : Option String) : KeepsCover window (active source) := by
  refine keepsCover_bind (keepsCover_checkSource source) fun _ => keeps_get_bind fun s => ?_
  split_ifs
  · exact Kept.refl s
  · exact Kept.refl s

theorem keepsCover_status (env : Env) : KeepsCover window (status idle env) :=
  keepsCover_bind (keepsCover_load env) fun _ => keeps_get_bind fun s => Kept.refl s

theorem keepsCover_select (env env' : Env) (source : Option String) (indices : List ℕ)
    (valid : Bool) : KeepsCover window (select idle env env' source indices valid) := by
  refine keepsCover_bind (keepsCover_load env) fun _ => keepsCover_bind (keepsCover_active source)
    fun _ => keeps_get_bind fun s => ?_
  split_ifs
  · exact Kept.refl s
  · exact Kept.refl s
  · refine keepsCover_bind (keepsCover_saveJob (by intro job; exact Or.inr rfl) (by intro job; rfl))
      (fun _ => ?_) s
    exact keepsCover_bind (keepsCover_setLive (by intro live; rfl)) fun _ => keepsCover_status env'

theorem keepsCover_scan (env env' : Env) (source : Option String) (consent : Bool)
    (prepare : Prepare) : KeepsCover window (scan idle env env' source consent prepare) := by
  refine keepsCover_bind (keepsCover_load env) fun _ => keepsCover_bind (keepsCover_active source)
    fun _ => keeps_get_bind fun s => ?_
  split_ifs
  · exact Kept.refl s
  · exact Kept.refl s
  · refine keepsCover_bind (keepsCover_saveJob (by intro job; exact Or.inl rfl) (by intro job; rfl))
      (fun _ => ?_) s
    have hend : ∀ (package : Bool) (f : BuildJob → BuildJob),
        (∀ job, (f job).state.isFinal = false) → (∀ job, (f job).publication = job.publication) →
        KeepsCover window (do
          setLive fun live => { live with package := package }
          saveJob f
          status idle env') := by
      intro package f hf hp
      refine keepsCover_bind (keepsCover_setLive (by intro live; rfl)) fun _ => ?_
      exact keepsCover_bind (keepsCover_saveJob (fun job => Or.inr (hf job)) hp)
        fun _ => keepsCover_status env'
    cases prepare with
    | raised => exact keepsCover_throw _
    | passed => exact hend true _ (fun _ => rfl) fun _ => rfl
    | policyError => exact hend false _ (fun _ => rfl) fun _ => rfl

theorem keepsCover_download (env : Env) (stored : Bool) :
    KeepsCover window (download idle env stored) := by
  refine keepsCover_bind (keepsCover_load env) fun _ => keeps_get_bind fun s => ?_
  split_ifs
  · exact Kept.refl s
  · exact Kept.refl s
  · exact Kept.refl s

theorem keepsCover_package (env : ℕ → Env) (source source' : Option String) (destination : String)
    (stored : Bool) : KeepsCover window (package idle env source source' destination stored) := by
  refine keepsCover_bind (keepsCover_load _) fun _ => keepsCover_bind (keepsCover_checkSource source)
    fun _ => keeps_get_bind fun s => ?_
  by_cases hd : s.job.publication ≠ none ∧ s.job.publication ≠ some destination
  · rw [if_pos hd]
    exact Kept.refl s
  rw [if_neg hd]
  by_cases hp : s.job.publication ≠ none
  · rw [if_pos hp]
    exact keepsCover_bind (keepsCover_download _ stored) (fun _ => keepsCover_status _) s
  · rw [if_neg hp]
    refine keepsCover_bind (keepsCover_active source') (fun _ => keeps_get_bind fun s => ?_) s
    split_ifs
    · exact Kept.refl s
    · exact Kept.refl s
    · refine keepsCover_bind (keeps_modify fun s => ?_) (fun _ => keepsCover_status _) s
      exact ⟨fun _ => Covered.of_flag rfl, fun _ => rfl, rfl⟩

/-- A later state is stored for a job with a publication, which the flag covers. -/
theorem keepsCover_advance (env : Env) (source : Option String) (stage : Stage) (succeeds : Bool) :
    KeepsCover window (advance idle env source stage succeeds) := by
  refine keepsCover_bind (keepsCover_load env) fun _ => keepsCover_bind ?_ fun _ =>
    keeps_get_bind fun s => ?_
  · exact keeps_ite (fun _ => keepsCover_pure _) fun _ => keepsCover_checkSource source
  · by_cases hp : s.job.publication = none
    · rw [if_pos hp]
      exact Kept.refl s
    · rw [if_neg hp]
      split_ifs
      · exact Kept.refl s
      · exact ⟨fun h => Covered.of_flag (h.published hp), id, rfl⟩

theorem kept_storeCancelled (s : Service) :
    Kept (window ∨ (exec storeCancelled s).1.isOk = true) s (exec storeCancelled s).2 := by
  by_cases hp : s.job.publication = none
  · have hexec : exec storeCancelled s =
        (.ok ⟨⟩, { s with job := { s.job with state := .cancelled, policy := none } }) := by
      show exec (if s.job.publication ≠ none then throw "withdraw_required" else _) s = _
      rw [if_neg (not_not.2 hp)]
      rfl
    rw [hexec]
    exact ⟨fun h => ⟨fun _ => Or.inr (Or.inr rfl), h.published, h.listed⟩, id, rfl⟩
  · have hexec : exec storeCancelled s = (.error "withdraw_required", s) := by
      show exec (if s.job.publication ≠ none then throw "withdraw_required" else _) s = _
      rw [if_pos hp]
      rfl
    rw [hexec]
    exact Kept.refl s

/-- The body of `cancel` keeps the cover, with the window that it opens if it has
    stored `cancelled`. -/
theorem kept_cancel (env : Env) (s : Service) :
    Kept (window ∨ (exec (cancel idle env) s).1.isOk = true) s (exec (cancel idle env) s).2 := by
  have hload : Kept (window ∨ (exec (cancel idle env) s).1.isOk = true) s
      (exec (load idle env) s).2 := keepsCover_load env s
  revert hload
  rw [cancel, exec_bind]
  cases exec (load idle env) s with
  | mk r s₁ =>
    intro hload
    cases r with
    | error code => exact hload
    | ok u => exact hload.trans (kept_storeCancelled s₁)

end

/-! ## Runs -/

/-- What holds of every reachable job. -/
structure ServiceInv (s : Service) : Prop where
  covered : Covered (.release true ∈ s.calls) s
  popping : s.worker = .popping → s.live.cancel = true

theorem serviceInv_start (sourceVersion : String) (now : ℚ) :
    ServiceInv (.start sourceVersion now) where
  covered := by
    refine ⟨?_, fun h => absurd rfl h, ?_⟩
    · intro h
      cases h
    · intro h
      cases h
  popping := by
    intro h
    cases h

/-- What the calls go on with does not matter to the cover, unless it closes the window. -/
theorem Covered.of_same {window window' : Prop} {s s' : Service} (h : Covered window s)
    (hjob : s'.job = s.job) (hlive : s'.live = s.live) (hlisted : s'.listed = s.listed)
    (hw : window → window') : Covered window' s' := by
  refine ⟨?_, ?_, ?_⟩
  · rw [hjob, hlive]
    exact fun hf => (h.final hf).imp_right hw
  · rw [hjob, hlive]
    exact h.published
  · rw [hlisted, hlive]
    exact h.listed

/-- A section keeps the invariant, if the calls keep the window. -/
theorem ServiceInv.called {α : Type} {s : Service} (h : ServiceInv s) {window : Prop}
    {x : Section α} (hx : Kept window s (exec x s).2) {calls : List Call}
    (hs : .release true ∈ s.calls → window) (hw : window → .release true ∈ calls) :
    ServiceInv { (exec x s).2 with calls := calls } where
  covered := (hx.covered (h.covered.mono hs)).of_same rfl rfl rfl hw
  popping := fun hp => hx.flag (h.popping (hx.worker ▸ hp))

theorem review_kept (s : Service) {window : Prop} (h : Covered window s) :
    Covered window (review s) := by
  rw [review]
  by_cases hc : s.live.cancel = true
  · rw [if_pos hc]
    exact h
  · rw [if_neg hc]
    refine ⟨fun hf => ?_, fun hp => ?_, h.listed⟩
    · dsimp only at hf ⊢
      split_ifs at hf
      · cases hf
      · cases hf
      · exact h.final hf
    · dsimp only at hp
      split_ifs at hp
      · exact h.published hp
      · exact h.published hp
      · exact h.published hp

/-- The section of `release_on_exit` leaves every final state under the flag. -/
theorem covered_release {s : Service} {window : Prop} (h : Covered window s) :
    Covered False (releaseOnExit s).1 := by
  rw [releaseOnExit]
  by_cases hr : s.listed = true ∧ s.job.state.stopsWorker = true
  · rw [if_pos hr]
    exact Covered.of_flag rfl
  · rw [if_neg hr]
    refine ⟨fun hf => Or.inl ?_, h.published, h.listed⟩
    by_cases hl : s.listed = true
    · exact absurd ⟨hl, JobState.stopsWorker_of_isFinal hf⟩ hr
    · exact h.listed (by simpa using hl)

/-- **Every step keeps the cover.** -/
theorem serviceInv_step {idle : ℚ} {s s' : Service} {e : Event} (h : ServiceInv s)
    (hstep : ServiceStep idle s e s') : ServiceInv s' := by
  have hsame : ∀ {t : Service}, t.job = s.job → t.live = s.live → t.listed = s.listed →
      (.release true ∈ s.calls → .release true ∈ t.calls) →
      (t.worker = .popping → s.worker = .popping) → ServiceInv t := by
    intro t hjob hlive hlisted hcalls hworker
    exact ⟨h.covered.of_same hjob hlive hlisted hcalls,
      fun hp => by rw [hlive]; exact h.popping (hworker hp)⟩
  cases hstep with
  | startExpiry hw => exact hsame rfl rfl rfl id (fun hp => by cases hp)
  | slot hw hc => exact hsame rfl rfl rfl id (fun hp => by cases hp)
  | slotCancelled hw hc => exact hsame rfl rfl rfl id (fun hp => by cases hp)
  | progress hw => exact ⟨⟨h.covered.final, h.covered.published, h.covered.listed⟩, h.popping⟩
  | review hw =>
    have hc := review_kept s h.covered
    refine ⟨hc.of_same rfl rfl rfl fun hr => ?_, fun hp => by cases hp⟩
    rw [review] at *
    split_ifs <;> exact hr
  | reviewOver hw hc => exact hsame rfl rfl rfl id (fun hp => by cases hp)
  | returned hw => exact hsame rfl rfl rfl id (fun hp => by cases hp)
  | raised hw => exact hsame rfl rfl rfl id (fun hp => by cases hp)
  | handleError hw =>
    refine ⟨?_, fun hp => by cases hp⟩
    rw [handleError]
    by_cases hc : s.live.cancel = true
    · rw [if_pos hc]
      exact h.covered.of_same rfl rfl rfl id
    · rw [if_neg hc]
      exact h.covered.of_not_final rfl rfl rfl id
  | cancelSet hw => exact ⟨Covered.of_flag rfl, fun _ => rfl⟩
  | pop hw => exact ⟨Covered.of_flag (h.popping hw), fun hp => by cases hp⟩
  | testFlag he => exact hsame rfl rfl rfl id id
  | @expireIdle now he =>
    rw [expireIdle]
    by_cases hr : remaining idle now s.live ≤ 0
    · rw [if_pos hr]
      exact ⟨Covered.of_flag rfl, fun _ => rfl⟩
    · rw [if_neg hr]
      exact hsame rfl rfl rfl id id
  | wake he => exact hsame rfl rfl rfl id id
  | @status env => exact h.called (keepsCover_status env s) id id
  | @cancel env =>
    have hkept : Kept (.release true ∈ s.calls ∨ (exec (cancel idle env) s).1.isOk = true) s
        (exec (cancel idle env) s).2 := kept_cancel env s
    refine h.called hkept Or.inl ?_
    rintro (hw | hok)
    · exact List.mem_cons_of_mem _ hw
    · show Call.release true ∈ Call.release (exec (cancel idle env) s).1.isOk :: s.calls
      rw [hok]
      exact List.mem_cons_self
  | @select env env' source indices valid =>
    exact h.called (keepsCover_select env env' source indices valid s) id id
  | @scan env env' source consent prepare =>
    exact h.called (keepsCover_scan env env' source consent prepare s) id id
  | @package env source source' destination stored =>
    exact h.called (keepsCover_package env source source' destination stored s) id
      (List.mem_cons_of_mem _)
  | @advance env source stage succeeds =>
    exact h.called (keepsCover_advance env source stage succeeds s) id
      (List.mem_append_right _)
  | @release cancelled hr =>
    have hc := covered_release h.covered
    refine ⟨hc.of_same rfl rfl rfl False.elim, fun hp => ?_⟩
    rw [releaseOnExit] at hp ⊢
    split_ifs at hp ⊢
    · rfl
    · exact h.popping hp
  | @join cancelled hj hw =>
    refine hsame rfl rfl rfl (fun hr => List.mem_append_right _ ?_) id
    exact (List.mem_erase_of_ne (by simp)).2 hr
  | @returnStatus env hs =>
    exact h.called (keepsCover_status env s) id fun hr => (List.mem_erase_of_ne (by simp)).2 hr

/-- The expiry thread writes with the flag unset, and neither it nor the error
    handler writes while a `cancel` call is between storing `cancelled` and the
    section that sets the flag. -/
def WritesInTime (idle : ℚ) (s : Service) : Event → Prop
  | .expireIdle now =>
    remaining idle now s.live ≤ 0 → s.live.cancel = false ∧ .release true ∉ s.calls
  | .handleError _ _ => s.live.cancel = false → .release true ∉ s.calls
  | _ => True

/-- The steps at which the background threads write in time. -/
def TimelyStep (idle : ℚ) (s : Service) (e : Event) (s' : Service) : Prop :=
  ServiceStep idle s e s' ∧ WritesInTime idle s e

/-- `review` only moves a job that is building. -/
theorem review_final {s : Service} (hf : s.job.state.isFinal = true) :
    (review s).job.state.isFinal = true := by
  have hb : s.job.state ≠ .building := by
    intro hb
    rw [hb] at hf
    cases hf
  rw [review]
  by_cases hc : s.live.cancel = true
  · rw [if_pos hc]
    exact hf
  · rw [if_neg hc, if_neg hb]
    exact hf

/-- A background step that writes in time keeps a final state. -/
theorem final_of_timely {idle : ℚ} {s s' : Service} {e : Event} (h : ServiceInv s)
    (hstep : TimelyStep idle s e s') (he : e.background = true)
    (hf : s.job.state.isFinal = true) : s'.job.state.isFinal = true := by
  obtain ⟨hstep, htimely⟩ := hstep
  cases hstep with
  | review hw => exact review_final hf
  | handleError hw =>
    show (handleError _ _ s).job.state.isFinal = true
    rw [handleError]
    by_cases hc : s.live.cancel = true
    · rw [if_pos hc]
      exact hf
    · rcases h.covered.final hf with hflag | hwindow
      · exact absurd hflag hc
      · exact absurd hwindow (htimely (by simpa using hc))
  | @expireIdle now he' =>
    rw [expireIdle]
    by_cases hr : remaining idle now s.live ≤ 0
    · obtain ⟨hc, hwindow⟩ := htimely hr
      rcases h.covered.final hf with hflag | hw
      · rw [hc] at hflag
        cases hflag
      · exact absurd hw hwindow
    · rw [if_neg hr]
      exact hf
  | _ => first | exact hf | cases he

/-- **Final states stay in every run whose background threads write in time.** -/
theorem finalStays_of_timely (idle : ℚ) : FinalStays (TimelyStep idle) := by
  intro sourceVersion now es s hrun e s' hstep he hf
  have hinv : ServiceInv s :=
    hrun.invariant (fun h hs => serviceInv_step h hs.1) (serviceInv_start sourceVersion now)
  exact final_of_timely hinv hstep he hf

/-- A cancelled job that the expiry thread overwrites: it has tested the flag, the
    seller's `cancel` stores `cancelled`, and the lease elapses before the section
    that sets the flag. -/
theorem cancelled_then_expired : ¬ FinalStays (ServiceStep 1800) := by
  intro h
  have hrun : Run (ServiceStep 1800) (.start "v" 0)
      [.startExpiry, .testFlag, .cancel ⟨5, 5, true⟩] _ :=
    .cons (.startExpiry rfl) (.cons (.testFlag rfl) (.cons .cancel .nil))
  have hfinal := h "v" 0 _ _ hrun (.expireIdle 1805) _ (.expireIdle (by decide +kernel)) rfl
    (by decide +kernel)
  revert hfinal
  decide +kernel

/-- The flag is set before the error handler takes the lock. -/
theorem finalStays_of_timely_cancelled : ∃ es s s', Run (TimelyStep 1800) (.start "v" 0) es s ∧
    TimelyStep 1800 s (.handleError "build_failed" none) s' ∧ s'.job.state.isFinal = true := by
  have hrun : Run (TimelyStep 1800) (.start "v" 0)
      [.cancel ⟨5, 5, true⟩, .release true, .raised] _ :=
    .cons ⟨.cancel, trivial⟩ (.cons ⟨.release (by decide +kernel), trivial⟩
      (.cons ⟨.raised (by decide +kernel), trivial⟩ .nil))
  have hfinal := finalStays_of_timely 1800 "v" 0 _ _ hrun (.handleError "build_failed" none) _
    ⟨.handleError rfl, fun hc => absurd hc (by decide +kernel)⟩ rfl (by decide +kernel)
  exact ⟨_, _, _, hrun, ⟨.handleError rfl, fun hc => absurd hc (by decide +kernel)⟩, hfinal⟩

end Build

end AimData
