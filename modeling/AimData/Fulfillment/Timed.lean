/-
  `ManifestSender.run` with its clock.

  A step is timed: messages take their time to arrive and failing exchanges theirs to fail,
  and once the deadline of an attempt has passed it can only time out.  The retry deadline
  stays until a step clears it, and retries are made before it.
-/
import AimData.Fulfillment.LateAck

namespace AimData

namespace Fulfillment

open TrustChannel (Dict get)

/-! ## Clocks -/

/-- `ACK_TIMEOUT_S` -/
def ackTimeout : ℚ := 30

/-- The sender with the clock, when its latest exchange began, the deadline of its latest attempt
    at a window, and when the await it is in ends at the latest. -/
structure Timed where
  sender : Sender
  clock : ℚ
  began : ℚ
  deadline : ℚ
  wakes : ℚ

def Timed.start (transferId : String) (clock : ℚ) : Timed where
  sender := .start transferId
  clock := clock
  began := clock
  deadline := clock
  wakes := clock

def ManifestPc.ended : ManifestPc → Bool
  | .returned _ | .raised _ => true
  | _ => false

/-- `remaining`, where it does not raise. -/
def Sender.remaining (s : Sender) (now timeout : ℚ) : ℚ :=
  match s.retryDeadline with
  | none => timeout
  | some deadline => min timeout (deadline - now)

namespace SenderEvent

/-- The time at which a step reads the clock. -/
def now : SenderEvent → Option ℚ
  | begin now | requestRaised _ _ _ now | receive _ _ now | replyTimeout now | pull _ now
  | pullRaised _ now | exhausted now | chunkRaised _ _ now | windowReceive _ now
  | windowTimeout now | wake now => some now
  | _ => none

/-- A step of the server or of the network, not of the sender. -/
def outside : SenderEvent → Bool
  | arrive _ | disconnect => true
  | _ => false

/-- An exchange fails without a reply. -/
def fails : SenderEvent → Bool
  | requestRaised .. | replyTimeout _ => true
  | _ => false

/-- A message of a window is sent, or a reply to it is received, before a deadline. -/
def waits : SenderEvent → Bool
  | chunk _ | windowReceive .. => true
  | _ => false

/-- An attempt at a window may start. -/
def attempts : SenderEvent → Bool
  | pull .. | exhausted _ | chunkRaised .. | windowTimeout _ => true
  | _ => false

/-- An exchange may start. -/
def begins : SenderEvent → Bool
  | begin _ => true
  | _ => false

end SenderEvent

/-- **A step with its time**: the clock does not go back, every message that arrives and every
    disconnection advances it by at least `δ`, and so does every exchange that fails, unless
    the retry deadline has cut it short; a wait whose deadline has passed times out, and no
    await of the sender is without a timeout. -/
structure TimedStep (settings : Settings) (δ : ℚ) (d : Delivery) (t : Timed) (e : SenderEvent)
    (t' : Timed) : Prop where
  step : SenderStep settings d t.sender e t'.sender
  clock : t.clock ≤ t'.clock
  now : ∀ now, e.now = some now → now = t'.clock
  arrives : e.outside = true → t.clock + δ ≤ t'.clock
  fails : e.fails = true → t.began + δ ≤ t'.clock ∨ t.sender.overBudget t'.clock = true
  waits : e.waits = true → t.clock < t.deadline
  wakes : e.outside = true → t.sender.pc.ended = true ∨ t'.clock ≤ t.wakes ∧ t'.wakes = t.wakes
  began : t'.began = if e.begins then t'.clock else t.began
  deadline : t'.deadline =
    if e.attempts then t'.clock + t'.sender.remaining t'.clock ackTimeout else t.deadline

/-- `retry_deadline = None` is executed: the acknowledged highwater strictly increases before
    the first completion, or the first completion is attempted. -/
def Sender.Clears (s : Sender) (e : SenderEvent) : Prop :=
  s.completionStarted = false ∧
    match s.pc, e with
    | .window w _, .windowEnded => s.highwater < w.expected
    | .stream st, .exhausted _ => st.window = []
    | _, _ => False

instance (s : Sender) (e : SenderEvent) : Decidable (s.Clears e) := by
  unfold Sender.Clears
  refine @instDecidableAnd _ _ _ ?_
  split
  all_goals infer_instance

/-- The steps before the n-th that clear the deadline. -/
def clearings (r : ℕ → Timed) (e : ℕ → SenderEvent) (n : ℕ) : ℕ :=
  (List.range n).countP fun i => (r i).sender.Clears (e i)

/-- A retry is made: an exchange or an attempt starts, or a pause does or ends. -/
def Retries (e : SenderEvent) (pc : ManifestPc) : Prop :=
  e.outside = false ∧
    match pc with
    | .request _ => e.begins = true
    | .window _ _ => e.attempts = true
    | .pausing _ => True
    | .top _ => ∃ now, e = .wake now
    | _ => False

/-! ## What the handlers do to the budget -/

section
variable {settings : Settings} {d : Delivery} {δ : ℚ}

/-- A handler leaves the counters, and a run that goes on has a deadline. -/
structure Budgeted (settings : Settings) (now : ℚ) (s s' : Sender) : Prop where
  highwater : s'.highwater = s.highwater
  completionStarted : s'.completionStarted = s.completionStarted
  pc : (∃ e, s'.pc = .raised e) ∨
    s'.retryDeadline = some (s.retryDeadline.getD (now + settings.transferCompleteRetryBudget)) ∧
      ((∃ needMetadata, s'.pc = .top needMetadata) ∨
        ∃ needMetadata, s'.pc = .pausing needMetadata ∧ s'.overBudget now = false)
  deadline : ∀ deadline, s.retryDeadline = some deadline → s'.retryDeadline = some deadline

theorem startBudget_some {s : Sender} {now deadline : ℚ} (h : s.retryDeadline = some deadline) :
    (s.startBudget settings now).retryDeadline = some deadline := by
  rw [Sender.startBudget, h]
  rfl

theorem budgeted_pause (s : Sender) (now : ℚ) (needMetadata : Bool) :
    Budgeted settings now s (s.pause settings now needMetadata) := by
  refine ⟨rfl, rfl, ?_, fun deadline h => startBudget_some h⟩
  rw [Sender.pause]
  by_cases hover : (s.startBudget settings now).overBudget now = true
  · exact Or.inl ⟨budgetExhausted, by simp [hover]⟩
  · exact Or.inr ⟨rfl, Or.inr ⟨needMetadata, by simp [hover], Bool.eq_false_iff.2 hover⟩⟩

theorem Budgeted.of_startBudget {s s' : Sender} {now : ℚ}
    (h : Budgeted settings now (s.startBudget settings now) s') : Budgeted settings now s s' := by
  refine ⟨h.highwater, h.completionStarted, ?_,
    fun deadline hd => h.deadline _ (startBudget_some hd)⟩
  rcases h.pc with hraised | ⟨hdeadline, hpc⟩
  · exact Or.inl hraised
  · exact Or.inr ⟨hdeadline, hpc⟩

/-- **A handler raises, or a retry deadline is set.** -/
theorem budgeted (settings : Settings) (s : Sender) (now : ℚ) (stage : Stage) (e : Raised) :
    Budgeted settings now s (s.handle settings now stage e) := by
  have hraised : ∀ e, Budgeted settings now s { s with pc := .raised e } :=
    fun e => ⟨rfl, rfl, Or.inl ⟨e, rfl⟩, fun _ h => h⟩
  have hover : ∀ e, Budgeted settings now s { s.startBudget settings now with pc := .raised e } :=
    fun e => ⟨rfl, rfl, Or.inl ⟨e, rfl⟩, fun _ h => startBudget_some h⟩
  have htop : ∀ needMetadata, Budgeted settings now s
      { s.startBudget settings now with pc := .top needMetadata } :=
    fun needMetadata => ⟨rfl, rfl, Or.inr ⟨rfl, Or.inl ⟨needMetadata, rfl⟩⟩,
      fun _ h => startBudget_some h⟩
  rw [Sender.handle]
  by_cases hrefusal : e.type = "Refusal"
  · rw [if_pos hrefusal]
    by_cases hcode : e.message ∉ retryCodes
    · rw [if_pos hcode]
      exact hraised e
    · rw [if_neg hcode]
      by_cases hbusy : e.message ∈ ["listener_busy", "finalizing"]
      · rw [if_pos hbusy]
        exact (budgeted_pause (s.startBudget settings now) now _).of_startBudget
      · rw [if_neg hbusy]
        exact htop _
  rw [if_neg hrefusal]
  by_cases htimeout : e.type = "TimeoutError"
  · rw [if_pos htimeout]
    by_cases hchunk : stage = .chunk
    · rw [if_pos hchunk]
      exact hraised e
    rw [if_neg hchunk]
    by_cases hbudget : (s.startBudget settings now).overBudget now = true
    · rw [if_pos hbudget]
      exact hover _
    rw [if_neg hbudget]
    by_cases hcomplete : stage = .complete
    · rw [if_pos hcomplete]
      exact (budgeted_pause (s.startBudget settings now) now _).of_startBudget
    · rw [if_neg hcomplete]
      exact htop true
  rw [if_neg htimeout]
  by_cases hconnection : e.type = "ConnectionError"
  · rw [if_pos hconnection]
    exact budgeted_pause s now true
  · rw [if_neg hconnection]
    exact hraised e

/-- Past the deadline an exchange does not start. -/
theorem handle_budgetExhausted (settings : Settings) {s : Sender} {now : ℚ} {stage : Stage}
    (h : s.overBudget now = true) :
    ∃ e, (s.handle settings now stage budgetExhausted).pc = .raised e := by
  have hover : (s.startBudget settings now).overBudget now = true := by
    cases hd : s.retryDeadline with
    | none => simp [Sender.overBudget, hd] at h
    | some deadline => rw [Sender.overBudget, startBudget_some hd, ← hd]; exact h
  rw [Sender.handle, if_neg (by decide), if_pos (by decide)]
  by_cases hchunk : stage = .chunk
  · rw [if_pos hchunk]
    exact ⟨_, rfl⟩
  · rw [if_neg hchunk, if_pos hover]
    exact ⟨_, rfl⟩

/-! ## The invariant -/

/-- An exchange or its stream is under way. -/
def ManifestPc.underway : ManifestPc → Bool
  | .request _ | .reply _ | .stream _ | .window _ _ => true
  | _ => false

/-- What holds between the steps: an exchange that is under way began before the deadline, and
    has taken `δ` once a message has arrived. -/
structure TimedInv (δ : ℚ) (d : Delivery) (t : Timed) : Prop where
  began : t.sender.pc.underway = true → t.began ≤ t.clock
  budget : t.sender.pc.underway = true → ∀ deadline, t.sender.retryDeadline = some deadline →
    t.began < deadline
  queue : t.sender.pc.underway = true → t.sender.inbox.queue ≠ [] → t.began + δ ≤ t.clock
  stream : ∀ st, t.sender.pc = .stream st → t.began + δ ≤ t.clock ∧
    (∀ c ∈ st.window, c.position.chunkIndex < d.totalChunks) ∧
    ∀ p ∈ st.rest, p.chunkIndex < d.totalChunks
  window : ∀ w st, t.sender.pc = .window w st → t.began + δ ≤ t.clock ∧
    w.expected < d.totalChunks ∧ st.window = [] ∧ ∀ p ∈ st.rest, p.chunkIndex < d.totalChunks

/-- A sender that is not in an exchange. -/
theorem TimedInv.of_pc {t : Timed} (h : t.sender.pc.underway = false) : TimedInv δ d t := by
  refine ⟨?_, ?_, ?_, ?_, ?_⟩
  · intro hu
    rw [h] at hu
    cases hu
  · intro hu
    rw [h] at hu
    cases hu
  · intro hu
    rw [h] at hu
    cases hu
  · intro st hst
    rw [hst] at h
    cases h
  · intro w st hst
    rw [hst] at h
    cases h

theorem Budgeted.underway {s s' : Sender} {now : ℚ} (h : Budgeted settings now s s') :
    s'.pc.underway = false := by
  rcases h.pc with ⟨e, he⟩ | ⟨-, ⟨needMetadata, hpc⟩ | ⟨needMetadata, hpc, -⟩⟩
  · rw [he]
    rfl
  · rw [hpc]
    rfl
  · rw [hpc]
    rfl

/-! ### The parts of a step -/

/-- How an exchange starts: before the deadline. -/
theorem beginExchange_cases (settings : Settings) (s : Sender) (now : ℚ) (stage : Stage) :
    Budgeted settings now s (s.beginExchange settings now stage) ∧
        (∃ e, (s.beginExchange settings now stage).pc = .raised e) ∨
      s.overBudget now = false ∧ ∃ phase, s.beginExchange settings now stage =
        { s with inbox := s.inbox.clear, phase := phase, pc := .request stage } := by
  unfold Sender.beginExchange
  extract_lets s'
  by_cases hover : s'.overBudget now = true
  · rw [if_pos hover]
    have h := budgeted settings s' now stage budgetExhausted
    exact Or.inl ⟨⟨h.highwater, h.completionStarted, h.pc, h.deadline⟩,
      handle_budgetExhausted settings hover⟩
  · rw [if_neg hover]
    exact Or.inr ⟨Bool.eq_false_iff.2 hover, _, rfl⟩

/-- How an attempt at a window starts: before the deadline, with the window to be sent. -/
theorem beginAttempt_cases (settings : Settings) (s : Sender) (now : ℚ) (w : Window)
    (st : Streaming) :
    Budgeted settings now s (s.beginAttempt settings now w st) ∧
        (∃ e, (s.beginAttempt settings now w st).pc = .raised e) ∨
      s.overBudget now = false ∧
        s.beginAttempt settings now w st =
          { s with inbox := s.inbox.clear, pc := .window w st } := by
  rw [Sender.beginAttempt]
  split_ifs with hover
  · refine Or.inl ⟨?_, handle_budgetExhausted settings hover⟩
    have h := budgeted settings { s with inbox := s.inbox.clear } now .chunk
      budgetExhausted
    exact ⟨h.highwater, h.completionStarted, h.pc, h.deadline⟩
  · exact Or.inr ⟨Bool.eq_false_iff.2 hover, rfl⟩

/-- How an exception in an attempt ends: in a handler, or in the second attempt. -/
theorem windowRaised_cases (settings : Settings) (s : Sender) (now : ℚ) (w : Window)
    (st : Streaming) (e : Raised) :
    Budgeted settings now s (s.windowRaised settings now w st e) ∨
      s.overBudget now = false ∧ w.again = false ∧ ∃ w',
        w'.again = true ∧ w'.expected = w.expected ∧
        s.windowRaised settings now w st e =
          { s with inbox := s.inbox.clear, pc := .window w' st } := by
  rw [Sender.windowRaised]
  split_ifs with htimeout hagain
  · exact Or.inl (budgeted settings s now .chunk _)
  · rcases beginAttempt_cases settings s now (attempt w.requireAck true w.expected
      (w.sent.map (fun p => (p.1, some p.2)) ++ w.todo)) st with ⟨h, -⟩ | ⟨hover, h⟩
    · exact Or.inl h
    · exact Or.inr ⟨hover, Bool.eq_false_iff.2 hagain, attempt w.requireAck true w.expected
        (w.sent.map (fun p => (p.1, some p.2)) ++ w.todo), rfl, rfl, h⟩
  · exact Or.inl (budgeted settings s now .chunk e)

/-! ## The deadline -/

theorem beginAttempt_deadline {s : Sender} {now deadline : ℚ} {w : Window} {st : Streaming}
    (h : s.retryDeadline = some deadline) :
    (s.beginAttempt settings now w st).retryDeadline = some deadline := by
  rcases beginAttempt_cases settings s now w st with ⟨hb, -⟩ | ⟨-, hs⟩
  · exact hb.deadline deadline h
  · rw [hs]
    exact h

theorem windowRaised_deadline {s : Sender} {now deadline : ℚ} {w : Window} {st : Streaming}
    {e : Raised} (h : s.retryDeadline = some deadline) :
    (s.windowRaised settings now w st e).retryDeadline = some deadline := by
  rcases windowRaised_cases settings s now w st e with hb | ⟨-, -, w', -, -, hs⟩
  · exact hb.deadline deadline h
  · rw [hs]
    exact h

/-- **A deadline that is set stays**, unless the step clears it. -/
theorem deadline_step {s s' : Sender} {e : SenderEvent} (hstep : SenderStep settings d s e s')
    {deadline : ℚ} (h : s.retryDeadline = some deadline) :
    s'.retryDeadline = some deadline ∨ s.Clears e := by
  cases hstep with
  | arrive => exact Or.inl h
  | disconnect => exact Or.inl h
  | @begin now needMetadata =>
    refine Or.inl ?_
    rcases beginExchange_cases settings s now (stageOf needMetadata) with
      ⟨hb, -⟩ | ⟨-, phase, hs⟩
    · exact hb.deadline deadline h
    · rw [hs]
      exact h
  | request => exact Or.inl h
  | @requestRaised stage id e now =>
    exact Or.inl ((budgeted settings _ now stage e).deadline deadline h)
  | @receive stage item queue now =>
    refine Or.inl ?_
    rw [Sender.received]
    cases hresult : item.result >>= (s.dequeued queue).replied d stage with
    | error e => exact (budgeted settings _ now stage e).deadline deadline h
    | ok s' =>
      obtain ⟨m, -, hm⟩ := Except.bind_eq_ok.1 hresult
      obtain ⟨data, -, ⟨-, rfl⟩ | ⟨transferId, verified, rfl⟩⟩ := replied_ok hm
      · exact h
      · exact h
  | @replyTimeout stage now => exact Or.inl ((budgeted settings s now stage _).deadline deadline h)
  | @pull st p rest raw now =>
    refine Or.inl ?_
    rw [Sender.pulled]
    split_ifs
    · exact beginAttempt_deadline h
    · exact h
  | @pullRaised st e now => exact Or.inl ((budgeted settings s now .chunk e).deadline deadline h)
  | @exhausted st now hpc =>
    rw [Sender.exhausted]
    by_cases hne : st.window ≠ []
    · rw [if_pos hne]
      exact Or.inl (beginAttempt_deadline h)
    · rw [if_neg hne]
      by_cases hstarted : s.completionStarted = true
      · refine Or.inl ?_
        simp [Sender.startBudget, hstarted, h]
      · refine Or.inr ⟨Bool.eq_false_iff.2 hstarted, ?_⟩
        rw [hpc]
        exact not_not.1 hne
  | chunk => exact Or.inl h
  | chunkRaised => exact Or.inl (windowRaised_deadline h)
  | @windowReceive w st item queue now =>
    refine Or.inl ?_
    rw [Sender.windowReceived]
    cases item.result >>= consume d (s.dequeued queue).transferId w with
    | error e => exact windowRaised_deadline h
    | ok w' => exact h
  | drained => exact Or.inl h
  | windowTimeout => exact Or.inl (windowRaised_deadline h)
  | @windowEnded w st hpc =>
    by_cases hclears : (w.expected : ℤ) > s.highwater ∧ s.completionStarted = false
    · refine Or.inr ⟨hclears.2, ?_⟩
      rw [hpc]
      exact hclears.1
    · refine Or.inl ?_
      rw [Sender.windowEnded]
      exact (if_neg hclears).trans h
  | wake => exact Or.inl h

/-! ## Retries -/

theorem overBudget_false {s : Sender} {now deadline : ℚ} (h : s.overBudget now = false)
    (hdeadline : s.retryDeadline = some deadline) : now < deadline := by
  simpa [Sender.overBudget, hdeadline] using h

/-- A handler pauses before the deadline only. -/
theorem Budgeted.retries {s s' : Sender} {now : ℚ} {e : SenderEvent}
    (h : Budgeted settings now s s') (hwake : ∀ now, e ≠ .wake now) (hretries : Retries e s'.pc) :
    s'.overBudget now = false := by
  rcases h.pc with ⟨e, he⟩ | ⟨-, ⟨needMetadata, hpc⟩ | ⟨needMetadata, -, hover⟩⟩
  · rw [he] at hretries
    exact absurd hretries.2 not_false
  · rw [hpc] at hretries
    obtain ⟨now, hnow⟩ := hretries.2
    exact absurd hnow (hwake now)
  · exact hover

theorem beginAttempt_retries {s : Sender} {now : ℚ} {w : Window} {st : Streaming} {e : SenderEvent}
    (hretries : Retries e (s.beginAttempt settings now w st).pc) :
    (s.beginAttempt settings now w st).overBudget now = false := by
  rcases beginAttempt_cases settings s now w st with ⟨-, e, he⟩ | ⟨hover, hs⟩
  · rw [he] at hretries
    exact absurd hretries.2 not_false
  · rw [hs]
    exact hover

theorem windowRaised_retries {s : Sender} {now : ℚ} {w : Window} {st : Streaming} {e : Raised}
    {event : SenderEvent} (hwake : ∀ now, event ≠ .wake now)
    (hretries : Retries event (s.windowRaised settings now w st e).pc) :
    (s.windowRaised settings now w st e).overBudget now = false := by
  rcases windowRaised_cases settings s now w st e with h | ⟨hover, -, w', -, -, hs⟩
  · exact h.retries hwake hretries
  · rw [hs]
    exact hover

/-- **A retry is made before the deadline.** -/
theorem retries_step {s s' : Sender} {e : SenderEvent} {now : ℚ}
    (hstep : SenderStep settings d s e s') (hnow : ∀ time, e.now = some time → time = now)
    (hretries : Retries e s'.pc) : s'.overBudget now = false := by
  cases hstep with
  | arrive => cases hretries.1
  | disconnect => cases hretries.1
  | @begin time needMetadata =>
    obtain rfl := hnow time rfl
    rcases beginExchange_cases settings s time (stageOf needMetadata) with
      ⟨-, e, he⟩ | ⟨hover, phase, hs⟩
    · rw [he] at hretries
      exact absurd hretries.2 not_false
    · rw [hs]
      exact hover
  | request => exact absurd hretries.2 not_false
  | @requestRaised stage id e time =>
    obtain rfl := hnow time rfl
    exact (budgeted settings _ time stage e).retries (fun _ h => by cases h) hretries
  | @receive stage item queue time =>
    obtain rfl := hnow time rfl
    rw [Sender.received] at hretries ⊢
    cases hresult : item.result >>= (s.dequeued queue).replied d stage with
    | error e =>
      rw [hresult] at hretries
      exact (budgeted settings _ time stage e).retries (fun _ h => by cases h) hretries
    | ok s' =>
      rw [hresult] at hretries
      obtain ⟨m, -, hm⟩ := Except.bind_eq_ok.1 hresult
      obtain ⟨data, -, ⟨-, rfl⟩ | ⟨transferId, verified, rfl⟩⟩ := replied_ok hm
      · exact absurd hretries.2 not_false
      · exact absurd hretries.2 not_false
  | @replyTimeout stage time =>
    obtain rfl := hnow time rfl
    exact (budgeted settings s time stage _).retries (fun _ h => by cases h) hretries
  | @pull st p rest raw time =>
    obtain rfl := hnow time rfl
    rw [Sender.pulled] at hretries ⊢
    split_ifs at hretries ⊢
    · exact beginAttempt_retries hretries
    · exact absurd hretries.2 not_false
  | @pullRaised st e time =>
    obtain rfl := hnow time rfl
    exact (budgeted settings s time .chunk e).retries (fun _ h => by cases h) hretries
  | @exhausted st time =>
    obtain rfl := hnow time rfl
    rw [Sender.exhausted] at hretries ⊢
    by_cases hne : st.window ≠ []
    · rw [if_pos hne] at hretries ⊢
      exact beginAttempt_retries hretries
    · rw [if_neg hne] at hretries
      obtain ⟨time', h⟩ := hretries.2
      cases h
  | chunk =>
    have hstarts : false = true := hretries.2
    cases hstarts
  | @chunkRaised w st c known todo id e time =>
    obtain rfl := hnow time rfl
    exact windowRaised_retries (fun _ h => by cases h) hretries
  | @windowReceive w st item queue time =>
    obtain rfl := hnow time rfl
    rw [Sender.windowReceived] at hretries ⊢
    cases hresult : item.result >>= consume d (s.dequeued queue).transferId w with
    | error e =>
      rw [hresult] at hretries
      exact windowRaised_retries (fun _ h => by cases h) hretries
    | ok w' =>
      rw [hresult] at hretries
      have hstarts : false = true := hretries.2
      cases hstarts
  | drained =>
    have hstarts : false = true := hretries.2
    cases hstarts
  | @windowTimeout w st time =>
    obtain rfl := hnow time rfl
    exact windowRaised_retries (fun _ h => by cases h) hretries
  | windowEnded => exact absurd hretries.2 not_false
  | @wake needMetadata time =>
    obtain rfl := hnow time rfl
    by_cases hover : s.overBudget time = true
    · simp only [hover, if_true] at hretries
      exact absurd hretries.2 not_false
    · exact Bool.eq_false_iff.2 hover

end

end Fulfillment

end AimData
