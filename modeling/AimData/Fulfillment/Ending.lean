/-
  Why `ManifestSender.run` ends.

  The rank of a state is lexicographic: how often the retry deadline may still be cleared, how
  many exchanges fit before it, and how far the run is on its way to the next exchange.
-/
import AimData.Fulfillment.Timed

namespace AimData

namespace Fulfillment

open TrustChannel (Dict get)

/-! ## The rank -/

/-- How often the deadline may still be cleared. -/
def clearsLeft (d : Delivery) (t : Timed) : ℕ :=
  ((d.totalChunks : ℤ) - (t.sender.highwater + 1)).toNat +
    if t.sender.completionStarted then 0 else 1

/-- How many exchanges of `δ` may still begin before the deadline, those under way included. -/
def exchangesLeft (settings : Settings) (δ : ℚ) (t : Timed) : ℕ :=
  if t.sender.pc.ended then 0
  else
    match t.sender.retryDeadline with
    | none => ⌈settings.transferCompleteRetryBudget / δ⌉₊ + 1
    | some deadline =>
      ⌈(deadline - if t.sender.pc.underway then t.began else t.clock) / δ⌉₊

namespace ManifestPc

/-- How far the run is from its next stream. -/
def distance : ManifestPc → ℕ
  | pausing _ => 5
  | top _ => 4
  | request _ => 3
  | reply _ => 2
  | stream _ | window _ _ => 1
  | returned _ | raised _ => 0

/-- The chunks and windows that are still to come in a stream. -/
def windowsLeft : ManifestPc → ℕ
  | stream st => 2 * (2 * st.rest.length + if st.window = [] then 0 else 1)
  | window _ st => 2 * (2 * st.rest.length) + 1
  | _ => 0

def attemptsLeft : ManifestPc → ℕ
  | window w _ => if w.again then 0 else 1
  | _ => 0

def messagesLeft : ManifestPc → ℕ
  | window w _ => w.todo.length
  | _ => 0

def draining : ManifestPc → ℕ
  | window w _ => if w.draining then 1 else 0
  | _ => 0

end ManifestPc

/-- How many replies an attempt may still receive before its deadline: those in the queue, and
    those that may arrive. -/
def repliesLeft (δ : ℚ) (t : Timed) : ℕ :=
  if t.clock < t.deadline then
    ⌈(t.deadline - t.clock) / δ⌉₊ + t.sender.inbox.queue.length
  else 0

/-- The rank, from what counts most. -/
def rank (settings : Settings) (δ : ℚ) (d : Delivery) (t : Timed) :
    ℕ ×ₗ ℕ ×ₗ ℕ ×ₗ ℕ ×ₗ ℕ ×ₗ ℕ ×ₗ ℕ :=
  toLex (clearsLeft d t, toLex (exchangesLeft settings δ t, toLex (t.sender.pc.distance,
    toLex (t.sender.pc.windowsLeft, toLex (t.sender.pc.attemptsLeft,
      toLex (t.sender.pc.messagesLeft, 2 * repliesLeft δ t + t.sender.pc.draining))))))

section
variable {settings : Settings} {d : Delivery} {δ : ℚ}

theorem rank_lt_iff {t t' : Timed} : rank settings δ d t' < rank settings δ d t ↔
    clearsLeft d t' < clearsLeft d t ∨ clearsLeft d t' = clearsLeft d t ∧
    (exchangesLeft settings δ t' < exchangesLeft settings δ t ∨
      exchangesLeft settings δ t' = exchangesLeft settings δ t ∧
    (t'.sender.pc.distance < t.sender.pc.distance ∨ t'.sender.pc.distance = t.sender.pc.distance ∧
    (t'.sender.pc.windowsLeft < t.sender.pc.windowsLeft ∨
      t'.sender.pc.windowsLeft = t.sender.pc.windowsLeft ∧
    (t'.sender.pc.attemptsLeft < t.sender.pc.attemptsLeft ∨
      t'.sender.pc.attemptsLeft = t.sender.pc.attemptsLeft ∧
    (t'.sender.pc.messagesLeft < t.sender.pc.messagesLeft ∨
      t'.sender.pc.messagesLeft = t.sender.pc.messagesLeft ∧
    2 * repliesLeft δ t' + t'.sender.pc.draining <
      2 * repliesLeft δ t + t.sender.pc.draining))))) := by
  simp only [rank, Prod.Lex.toLex_lt_toLex]

/-- Fewer exchanges are left. -/
theorem rank_lt_of_exchanges {t t' : Timed} (hclears : clearsLeft d t' ≤ clearsLeft d t)
    (h : exchangesLeft settings δ t' < exchangesLeft settings δ t) :
    rank settings δ d t' < rank settings δ d t := by
  rw [rank_lt_iff]
  omega

/-- The run is nearer to its next stream. -/
theorem rank_lt_of_distance {t t' : Timed} (hclears : clearsLeft d t' ≤ clearsLeft d t)
    (hexchanges : exchangesLeft settings δ t' ≤ exchangesLeft settings δ t)
    (h : t'.sender.pc.distance < t.sender.pc.distance) :
    rank settings δ d t' < rank settings δ d t := by
  rw [rank_lt_iff]
  omega

/-- The stream is nearer to its end. -/
theorem rank_lt_of_windows {t t' : Timed} (hclears : clearsLeft d t' ≤ clearsLeft d t)
    (hexchanges : exchangesLeft settings δ t' ≤ exchangesLeft settings δ t)
    (hdistance : t'.sender.pc.distance ≤ t.sender.pc.distance)
    (h : t'.sender.pc.windowsLeft < t.sender.pc.windowsLeft) :
    rank settings δ d t' < rank settings δ d t := by
  rw [rank_lt_iff]
  omega

/-! ## Time passes -/

/-- An exchange less fits before a deadline when `δ` has passed. -/
theorem ceil_lt_ceil (hδ : 0 < δ) {a b : ℚ} (ha : 0 < a) (h : b + δ ≤ a) :
    ⌈b / δ⌉₊ < ⌈a / δ⌉₊ := by
  have hle : b / δ + 1 ≤ a / δ := by
    rw [← div_self hδ.ne', ← add_div]
    exact div_le_div_of_nonneg_right h hδ.le
  rw [Nat.lt_ceil]
  rcases le_or_gt 0 (b / δ) with hb | hb
  · exact (Nat.ceil_lt_add_one hb).trans_le hle
  · rw [Nat.ceil_eq_zero.2 hb.le]
    exact_mod_cast div_pos ha hδ

theorem ceil_le_ceil_of_le (hδ : 0 < δ) {a b : ℚ} (h : b ≤ a) : ⌈b / δ⌉₊ ≤ ⌈a / δ⌉₊ :=
  Nat.ceil_mono (div_le_div_of_nonneg_right h hδ.le)

/-- Replies that may still arrive are fewer when the clock goes on. -/
theorem repliesLeft_le (hδ : 0 < δ) {t t' : Timed} (hclock : t.clock ≤ t'.clock)
    (hdeadline : t'.deadline = t.deadline)
    (hqueue : t'.sender.inbox.queue.length ≤ t.sender.inbox.queue.length) :
    repliesLeft δ t' ≤ repliesLeft δ t := by
  rw [repliesLeft, repliesLeft, hdeadline]
  by_cases hlt : t'.clock < t.deadline
  · have hle := ceil_le_ceil_of_le hδ
      (show t.deadline - t'.clock ≤ t.deadline - t.clock by linarith)
    rw [if_pos hlt, if_pos (hclock.trans_lt hlt)]
    omega
  · rw [if_neg hlt]
    exact Nat.zero_le _

/-- A message that arrives takes the time of one that might have. -/
theorem repliesLeft_arrives (hδ : 0 < δ) {t t' : Timed} (hclock : t.clock + δ ≤ t'.clock)
    (hdeadline : t'.deadline = t.deadline)
    (hqueue : t'.sender.inbox.queue.length ≤ t.sender.inbox.queue.length + 1) :
    repliesLeft δ t' ≤ repliesLeft δ t := by
  rw [repliesLeft, repliesLeft, hdeadline]
  by_cases hlt : t'.clock < t.deadline
  · have hceil := ceil_lt_ceil hδ (show 0 < t.deadline - t.clock by linarith)
      (show t.deadline - t'.clock + δ ≤ t.deadline - t.clock by linarith)
    rw [if_pos hlt, if_pos (show t.clock < t.deadline by linarith)]
    omega
  · rw [if_neg hlt]
    exact Nat.zero_le _

/-- With the same deadline, no more exchanges are left as the clock goes on. -/
theorem exchangesLeft_le (hδ : 0 < δ) {t t' : Timed}
    (hended : t.sender.pc.ended = true → t'.sender.pc.ended = true)
    (hdeadline : t'.sender.retryDeadline = t.sender.retryDeadline)
    (href : (if t.sender.pc.underway then t.began else t.clock) ≤
      if t'.sender.pc.underway then t'.began else t'.clock) :
    exchangesLeft settings δ t' ≤ exchangesLeft settings δ t := by
  rw [exchangesLeft, exchangesLeft, hdeadline]
  by_cases hend' : t'.sender.pc.ended = true
  · rw [if_pos hend']
    exact Nat.zero_le _
  rw [if_neg hend', if_neg (fun hend => hend' (hended hend))]
  cases t.sender.retryDeadline with
  | none => exact le_rfl
  | some deadline => exact ceil_le_ceil_of_le hδ (by linarith)

/-- An exchange that leads to a handler is over: the run ends, or fewer exchanges are left. -/
theorem exchange_over (hδ : 0 < δ) {t t' : Timed} (hinv : TimedInv δ d t)
    (hunderway : t.sender.pc.underway = true)
    (h : Budgeted settings t'.clock t.sender t'.sender)
    (htime : t.began + δ ≤ t'.clock ∨ t.sender.overBudget t'.clock = true) :
    TimedInv δ d t' ∧ rank settings δ d t' < rank settings δ d t := by
  refine ⟨.of_pc h.underway, ?_⟩
  have hclears : clearsLeft d t' = clearsLeft d t := by
    rw [clearsLeft, clearsLeft, h.highwater, h.completionStarted]
  have hnot : t.sender.pc.ended = false := by
    cases hpc : t.sender.pc with
    | returned data => rw [hpc] at hunderway; cases hunderway
    | raised e => rw [hpc] at hunderway; cases hunderway
    | _ => rfl
  rcases h.pc with ⟨e, he⟩ | ⟨hdeadline, hpc⟩
  · refine rank_lt_of_distance hclears.le ?_ ?_
    · rw [exchangesLeft, he]
      exact Nat.zero_le _
    · rw [he]
      cases hpc : t.sender.pc with
      | returned data => rw [hpc] at hunderway; cases hunderway
      | raised e => rw [hpc] at hunderway; cases hunderway
      | _ => exact Nat.succ_pos _
  · refine rank_lt_of_exchanges hclears.le ?_
    have hgoes : t'.sender.pc.ended = false := by
      rcases hpc with ⟨needMetadata, hpc⟩ | ⟨needMetadata, hpc, -⟩
      · rw [hpc]
        rfl
      · rw [hpc]
        rfl
    rw [exchangesLeft, exchangesLeft, hgoes, hnot, hdeadline, h.underway, hunderway]
    simp only [Bool.false_eq_true, if_false, if_true]
    cases hbefore : t.sender.retryDeadline with
    | none =>
      simp only [Option.getD_none, add_sub_cancel_left]
      exact Nat.lt_succ_self _
    | some deadline =>
      have hbegan := hinv.budget hunderway deadline hbefore
      simp only [Option.getD_some]
      rcases htime with htime | hover
      · exact ceil_lt_ceil hδ (by linarith) (by linarith)
      · have hpast : deadline - t'.clock ≤ 0 := by
          simpa [Sender.overBudget, hbefore] using hover
        rw [Nat.ceil_eq_zero.2 (div_nonpos_of_nonpos_of_nonneg hpast hδ.le), Nat.lt_ceil]
        exact_mod_cast div_pos (by linarith) hδ

/-! ## A step -/

/-- What a step of the sender does: the invariant stays, and the rank falls. -/
def Lowers (settings : Settings) (δ : ℚ) (d : Delivery) (t t' : Timed) : Prop :=
  TimedInv δ d t' ∧ rank settings δ d t' < rank settings δ d t

theorem rank_le {t t' : Timed} (hclears : clearsLeft d t' ≤ clearsLeft d t)
    (hexchanges : exchangesLeft settings δ t' ≤ exchangesLeft settings δ t)
    (hpc : t'.sender.pc = t.sender.pc) (hreplies : repliesLeft δ t' ≤ repliesLeft δ t) :
    rank settings δ d t' ≤ rank settings δ d t := by
  rw [← not_lt, rank_lt_iff, hpc]
  omega

/-- The run raises or returns. -/
theorem lowers_of_ended {t t' : Timed} (hpc : t.sender.pc.ended = false)
    (hclears : clearsLeft d t' ≤ clearsLeft d t) (hended : t'.sender.pc.ended = true) :
    Lowers settings δ d t t' := by
  have hdistance : t'.sender.pc.distance = 0 ∧ t'.sender.pc.underway = false := by
    cases hpc' : t'.sender.pc with
    | returned data => exact ⟨rfl, rfl⟩
    | raised e => exact ⟨rfl, rfl⟩
    | _ => rw [hpc'] at hended; cases hended
  have hpos : 0 < t.sender.pc.distance := by
    cases h : t.sender.pc with
    | returned data => rw [h] at hpc; cases hpc
    | raised e => rw [h] at hpc; cases hpc
    | _ => exact Nat.succ_pos _
  refine ⟨.of_pc hdistance.2, rank_lt_of_distance hclears ?_ (hdistance.1 ▸ hpos)⟩
  rw [exchangesLeft, if_pos hended]
  exact Nat.zero_le _

/-- Messages come in and time passes, and the run stays where it is. -/
theorem waits_le (settings : Settings) (hδ : 0 < δ) {t t' : Timed} (hinv : TimedInv δ d t)
    (hclock : t.clock + δ ≤ t'.clock) (hbegan : t'.began = t.began)
    (hdeadline : t'.deadline = t.deadline) {inbox : Inbox}
    (hsender : t'.sender = { t.sender with inbox := inbox })
    (hqueue : inbox.queue.length ≤ t.sender.inbox.queue.length + 1) :
    TimedInv δ d t' ∧ rank settings δ d t' ≤ rank settings δ d t := by
  have hpc : t'.sender.pc = t.sender.pc := by rw [hsender]
  have hretry : t'.sender.retryDeadline = t.sender.retryDeadline := by rw [hsender]
  constructor
  · refine ⟨?_, ?_, ?_, ?_, ?_⟩
    · intro hu
      have hbefore := hinv.began (hpc ▸ hu)
      rw [hbegan]
      linarith
    · intro hu
      rw [hretry, hbegan]
      exact hinv.budget (hpc ▸ hu)
    · intro hu _
      have hbefore := hinv.began (hpc ▸ hu)
      rw [hbegan]
      linarith
    · intro st hst
      obtain ⟨htime, hchunks⟩ := hinv.stream st (hpc ▸ hst)
      refine ⟨?_, hchunks⟩
      rw [hbegan]
      linarith
    · intro w st hst
      obtain ⟨htime, hchunks⟩ := hinv.window w st (hpc ▸ hst)
      refine ⟨?_, hchunks⟩
      rw [hbegan]
      linarith
  · refine rank_le ?_ (exchangesLeft_le hδ (fun h => hpc ▸ h) hretry ?_) hpc ?_
    · rw [clearsLeft, clearsLeft, hsender]
    · rw [hpc, hbegan]
      split_ifs
      · exact le_rfl
      · linarith
    · refine repliesLeft_arrives hδ hclock hdeadline ?_
      rw [hsender]
      exact hqueue

theorem dispatch_queue (inbox : Inbox) (message : Dict) :
    (inbox.dispatch message).1.queue.length ≤ inbox.queue.length + 1 := by
  rw [Inbox.dispatch]
  split_ifs
  · exact (List.length_append).le
  · exact Nat.le_succ _
  · exact (List.length_append).le

/-- The head of `exchange`. -/
theorem beginExchange_lowers (hδ : 0 < δ) {t t' : Timed} {needMetadata : Bool} {stage : Stage}
    (hpc : t.sender.pc = .top needMetadata) (hclock : t.clock ≤ t'.clock)
    (hbegan : t'.began = t'.clock)
    (hsender : t'.sender = t.sender.beginExchange settings t'.clock stage) :
    Lowers settings δ d t t' := by
  rcases beginExchange_cases settings t.sender t'.clock stage with
    ⟨h, e, he⟩ | ⟨hover, phase, h⟩
  · rw [← hsender] at h he
    refine lowers_of_ended (by rw [hpc]; rfl) ?_ (by rw [he]; rfl)
    rw [clearsLeft, clearsLeft, h.highwater, h.completionStarted]
  · rw [h] at hsender
    have hu : t'.sender.pc = .request stage := by rw [hsender]
    have hretry : t'.sender.retryDeadline = t.sender.retryDeadline := by rw [hsender]
    constructor
    · refine ⟨?_, ?_, ?_, ?_, ?_⟩
      · intro _
        exact hbegan.le
      · intro _ deadline hdeadline
        rw [hretry] at hdeadline
        rw [hbegan]
        simpa [Sender.overBudget, hdeadline] using hover
      · intro _ hqueue
        rw [hsender] at hqueue
        exact absurd rfl hqueue
      · intro st hst
        rw [hu] at hst
        cases hst
      · intro w st hst
        rw [hu] at hst
        cases hst
    · refine rank_lt_of_distance ?_ (exchangesLeft_le hδ ?_ hretry ?_) ?_
      · rw [clearsLeft, clearsLeft, hsender]
      · intro hended
        rw [hpc] at hended
        cases hended
      · rw [hpc, hu, hbegan]
        exact hclock
      · rw [hpc, hu]
        exact Nat.lt_succ_self 3

/-- A message is put on the channel. -/
theorem request_lowers (hδ : 0 < δ) {t t' : Timed} {stage : Stage} {message : Wire}
    (hinv : TimedInv δ d t) (hpc : t.sender.pc = .request stage) (hclock : t.clock ≤ t'.clock)
    (hbegan : t'.began = t.began)
    (hsender : t'.sender = { t.sender.puts message with pc := .reply stage }) :
    Lowers settings δ d t t' := by
  have hu : t.sender.pc.underway = true := by
    rw [hpc]
    rfl
  have hpc' : t'.sender.pc = .reply stage := by rw [hsender]
  have hretry : t'.sender.retryDeadline = t.sender.retryDeadline := by
    rw [hsender]
    rfl
  constructor
  · refine ⟨?_, ?_, ?_, ?_, ?_⟩
    · intro _
      rw [hbegan]
      exact (hinv.began hu).trans hclock
    · intro _
      rw [hretry, hbegan]
      exact hinv.budget hu
    · intro _ hqueue
      rw [hsender] at hqueue
      rw [hbegan]
      exact (hinv.queue hu hqueue).trans hclock
    · intro st hst
      rw [hpc'] at hst
      cases hst
    · intro w st hst
      rw [hpc'] at hst
      cases hst
  · refine rank_lt_of_distance ?_ (exchangesLeft_le hδ ?_ hretry ?_) ?_
    · rw [clearsLeft, clearsLeft, hsender]
      exact le_rfl
    · intro hended
      rw [hpc] at hended
      cases hended
    · rw [hpc, hpc', hbegan]
      exact le_rfl
    · rw [hpc, hpc']
      exact Nat.lt_succ_self 2

/-- An exchange is under way when the stream begins or goes on. -/
theorem stream_inv {t t' : Timed} {st : Streaming} (hinv : TimedInv δ d t)
    (hu : t.sender.pc.underway = true) (htime : t.began + δ ≤ t.clock) (hclock : t.clock ≤ t'.clock)
    (hbegan : t'.began = t.began) (hretry : ∀ deadline, t'.sender.retryDeadline = some deadline →
      t.sender.retryDeadline = some deadline)
    (hpc : t'.sender.pc = .stream st)
    (hwindow : ∀ c ∈ st.window, c.position.chunkIndex < d.totalChunks)
    (hrest : ∀ p ∈ st.rest, p.chunkIndex < d.totalChunks) : TimedInv δ d t' := by
  refine ⟨?_, ?_, ?_, ?_, ?_⟩
  · intro _
    rw [hbegan]
    exact (hinv.began hu).trans hclock
  · intro _ deadline hdeadline
    rw [hbegan]
    exact hinv.budget hu deadline (hretry deadline hdeadline)
  · intro _ _
    rw [hbegan]
    exact htime.trans hclock
  · intro st' hst
    rw [hpc] at hst
    cases hst
    rw [hbegan]
    exact ⟨htime.trans hclock, hwindow, hrest⟩
  · intro w st' hst
    rw [hpc] at hst
    cases hst

theorem window_inv {t t' : Timed} {w : Window} {st : Streaming} (hinv : TimedInv δ d t)
    (hu : t.sender.pc.underway = true) (htime : t.began + δ ≤ t.clock) (hclock : t.clock ≤ t'.clock)
    (hbegan : t'.began = t.began) (hretry : t'.sender.retryDeadline = t.sender.retryDeadline)
    (hpc : t'.sender.pc = .window w st) (hexpected : w.expected < d.totalChunks)
    (hwindow : st.window = []) (hrest : ∀ p ∈ st.rest, p.chunkIndex < d.totalChunks) :
    TimedInv δ d t' := by
  refine ⟨?_, ?_, ?_, ?_, ?_⟩
  · intro _
    rw [hbegan]
    exact (hinv.began hu).trans hclock
  · intro _
    rw [hretry, hbegan]
    exact hinv.budget hu
  · intro _ _
    rw [hbegan]
    exact htime.trans hclock
  · intro st' hst
    rw [hpc] at hst
    cases hst
  · intro w' st' hst
    rw [hpc] at hst
    cases hst
    rw [hbegan]
    exact ⟨htime.trans hclock, hexpected, hwindow, hrest⟩

/-- The end of `exchange`. -/
theorem received_lowers (hδ : 0 < δ) {t t' : Timed} {stage : Stage} {item : Item}
    {queue : List Item}
    (hplan : ∀ verified, ∀ p ∈ d.positions verified, p.chunkIndex < d.totalChunks)
    (hinv : TimedInv δ d t) (hpc : t.sender.pc = .reply stage)
    (hqueue : t.sender.inbox.queue = item :: queue) (hclock : t.clock ≤ t'.clock)
    (hbegan : t'.began = t.began)
    (hsender : t'.sender = (t.sender.dequeued queue).received settings d t'.clock stage item) :
    Lowers settings δ d t t' := by
  have hu : t.sender.pc.underway = true := by
    rw [hpc]
    rfl
  have htime : t.began + δ ≤ t.clock := by
    refine hinv.queue hu ?_
    rw [hqueue]
    exact List.cons_ne_nil _ _
  rw [Sender.received] at hsender
  cases hresult : item.result >>= (t.sender.dequeued queue).replied d stage with
  | error e =>
    rw [hresult] at hsender
    have h := budgeted settings (t.sender.dequeued queue) t'.clock stage e
    refine exchange_over hδ hinv hu ?_ (Or.inl (htime.trans hclock))
    rw [hsender]
    exact ⟨h.highwater, h.completionStarted, h.pc, h.deadline⟩
  | ok s' =>
    rw [hresult] at hsender
    obtain ⟨m, -, hm⟩ := Except.bind_eq_ok.1 hresult
    obtain ⟨data, -, ⟨-, rfl⟩ | ⟨transferId, verified, rfl⟩⟩ := replied_ok hm
    · refine lowers_of_ended (by rw [hpc]; rfl) ?_ (by rw [hsender]; rfl)
      rw [clearsLeft, clearsLeft, hsender]
      exact le_rfl
    · have hpc' : t'.sender.pc = .stream ⟨d.positions verified, [], none⟩ := by
        rw [hsender]
        rfl
      have hretry : t'.sender.retryDeadline = t.sender.retryDeadline := by
        rw [hsender]
        rfl
      refine ⟨stream_inv hinv hu htime hclock hbegan (fun _ h => hretry ▸ h) hpc' ?_
        (hplan verified), ?_⟩
      · intro c hc
        cases hc
      · refine rank_lt_of_distance ?_ (exchangesLeft_le hδ ?_ hretry ?_) ?_
        · rw [clearsLeft, clearsLeft, hsender]
          exact le_rfl
        · intro hended
          rw [hpc] at hended
          cases hended
        · rw [hpc, hpc', hbegan]
          exact le_rfl
        · rw [hpc, hpc']
          exact Nat.lt_succ_self 1

/-- The last chunk of a window is one of the plan. -/
theorem lastIndex_lt {messages : List ManifestChunk} (hne : messages ≠ [])
    (h : ∀ c ∈ messages, c.position.chunkIndex < d.totalChunks) :
    lastIndex messages < d.totalChunks := by
  rw [lastIndex, List.getLast?_eq_some_getLast hne]
  exact h _ (List.getLast_mem hne)

/-- A stream goes on, or comes to a window, with less that is still to come. -/
theorem stream_lowers (hδ : 0 < δ) {t t' : Timed} {st : Streaming} {pc : ManifestPc}
    {inbox : Inbox} (hpc : t.sender.pc = .stream st) (hbegan : t'.began = t.began)
    (hsender : t'.sender = { t.sender with inbox := inbox, pc := pc })
    (hinv' : TimedInv δ d t') (hu : pc.underway = true)
    (hdistance : pc.distance = 1) (hwindows : pc.windowsLeft < t.sender.pc.windowsLeft) :
    Lowers settings δ d t t' := by
  have hpc' : t'.sender.pc = pc := by rw [hsender]
  have hretry : t'.sender.retryDeadline = t.sender.retryDeadline := by rw [hsender]
  refine ⟨hinv', rank_lt_of_windows ?_ (exchangesLeft_le hδ ?_ hretry ?_) ?_ ?_⟩
  · rw [clearsLeft, clearsLeft, hsender]
  · intro hended
    rw [hpc] at hended
    cases hended
  · rw [hpc, hpc', hu, hbegan]
    exact le_rfl
  · rw [hpc, hpc', hdistance]
    exact le_rfl
  · rw [hpc']
    exact hwindows

/-- `await self.window` -/
theorem beginWindow_lowers (hδ : 0 < δ) {t t' : Timed} {st0 st : Streaming} {requireAck : Bool}
    (hinv : TimedInv δ d t) (hpc : t.sender.pc = .stream st0) (hclock : t.clock ≤ t'.clock)
    (hbegan : t'.began = t.began) (hne : st.window ≠ [])
    (hwindow : ∀ c ∈ st.window, c.position.chunkIndex < d.totalChunks)
    (hrest : ∀ p ∈ st.rest, p.chunkIndex < d.totalChunks)
    (hless : 2 * (2 * st.rest.length) + 1 < (ManifestPc.stream st0).windowsLeft)
    (hsender : t'.sender = t.sender.beginWindow settings t'.clock st requireAck) :
    Lowers settings δ d t t' := by
  have hu : t.sender.pc.underway = true := by
    rw [hpc]
    rfl
  have htime := (hinv.stream st0 hpc).1
  rw [Sender.beginWindow] at hsender
  rcases beginAttempt_cases settings t.sender t'.clock
    (attempt requireAck false (lastIndex st.window) (st.window.map fun c => (c, none)))
    { st with window := [] } with ⟨h, -⟩ | ⟨-, h⟩
  · exact exchange_over hδ hinv hu (hsender ▸ h) (Or.inl (htime.trans hclock))
  · rw [h] at hsender
    have hpc' : t'.sender.pc = .window
        (attempt requireAck false (lastIndex st.window) (st.window.map fun c => (c, none)))
        { st with window := [] } := by rw [hsender]
    refine stream_lowers hδ hpc hbegan hsender ?_ rfl rfl (hpc ▸ hless)
    exact window_inv hinv hu htime hclock hbegan (by rw [hsender]) hpc' (lastIndex_lt hne hwindow)
      rfl hrest

/-- The body of the loop of `stream`. -/
theorem pulled_lowers (hδ : 0 < δ) {t t' : Timed} {st : Streaming} {p : Position}
    {rest : List Position} {raw : Bytes} (hinv : TimedInv δ d t) (hpc : t.sender.pc = .stream st)
    (hrest : st.rest = p :: rest) (hclock : t.clock ≤ t'.clock) (hbegan : t'.began = t.began)
    (hsender : t'.sender = t.sender.pulled settings d t'.clock st p rest raw) :
    Lowers settings δ d t t' := by
  obtain ⟨htime, hwindow, hpositions⟩ := hinv.stream st hpc
  rw [hrest] at hpositions
  have hmessages : ∀ c ∈ st.window ++ [p.message t.sender.transferId raw],
      c.position.chunkIndex < d.totalChunks := by
    intro c hc
    rcases List.mem_append.1 hc with hc | hc
    · exact hwindow c hc
    · rw [List.mem_singleton.1 hc]
      exact hpositions p List.mem_cons_self
  have hrest' : ∀ q ∈ rest, q.chunkIndex < d.totalChunks :=
    fun q hq => hpositions q (List.mem_cons_of_mem _ hq)
  have hne : st.window ++ [p.message t.sender.transferId raw] ≠ [] := by simp
  have hlength : st.rest.length = rest.length + 1 := by
    rw [hrest]
    rfl
  rw [Sender.pulled] at hsender
  split_ifs at hsender with hdue
  · refine beginWindow_lowers hδ hinv hpc hclock hbegan hne hmessages hrest' ?_ hsender
    rw [ManifestPc.windowsLeft, hlength]
    show 2 * (2 * rest.length) + 1 < _
    omega
  · refine stream_lowers hδ hpc hbegan hsender ?_ rfl rfl ?_
    · refine stream_inv hinv (by rw [hpc]; rfl) htime hclock hbegan ?_ (by rw [hsender]) hmessages
        hrest'
      intro deadline hdeadline
      rw [hsender] at hdeadline
      exact hdeadline
    · rw [hpc, ManifestPc.windowsLeft, ManifestPc.windowsLeft, hlength, if_neg hne]
      show 2 * (2 * rest.length + 1) < _
      omega

/-- The end of the loop of `stream`: a last window, or the exchange is over and `complete`
    comes next. -/
theorem exhausted_lowers (hδ : 0 < δ) {t t' : Timed} {st : Streaming} (hinv : TimedInv δ d t)
    (hpc : t.sender.pc = .stream st) (hrest : st.rest = []) (hclock : t.clock ≤ t'.clock)
    (hbegan : t'.began = t.began)
    (hsender : t'.sender = t.sender.exhausted settings t'.clock st) :
    Lowers settings δ d t t' := by
  obtain ⟨htime, hwindow, hpositions⟩ := hinv.stream st hpc
  rw [Sender.exhausted] at hsender
  by_cases hne : st.window ≠ []
  · rw [if_pos hne] at hsender
    refine beginWindow_lowers hδ hinv hpc hclock hbegan hne hwindow hpositions ?_ hsender
    rw [ManifestPc.windowsLeft, hrest, if_neg hne]
    exact Nat.lt_succ_self 1
  · rw [if_neg hne] at hsender
    have hpc' : t'.sender.pc = .top false := by rw [hsender]
    by_cases hstarted : t.sender.completionStarted = true
    · refine exchange_over hδ hinv (by rw [hpc]; rfl) ?_
        (Or.inl (htime.trans hclock))
      rw [hsender]
      refine ⟨rfl, hstarted.symm, Or.inr ⟨?_, Or.inl ⟨false, rfl⟩⟩, ?_⟩
      · simp [Sender.startBudget, hstarted]
      · intro deadline hdeadline
        simp [Sender.startBudget, hstarted, hdeadline]
    · refine ⟨.of_pc (by rw [hpc']; rfl), ?_⟩
      rw [rank_lt_iff]
      refine Or.inl ?_
      rw [clearsLeft, clearsLeft, hsender, Bool.eq_false_iff.2 hstarted]
      exact Nat.lt_succ_self _

/-- A window goes on, with less of its attempts, messages or replies to come. -/
theorem window_lowers (hδ : 0 < δ) {t t' : Timed} {w w' : Window} {st : Streaming} {inbox : Inbox}
    {wire : List Wire} (hinv : TimedInv δ d t) (hpc : t.sender.pc = .window w st)
    (hclock : t.clock ≤ t'.clock) (hbegan : t'.began = t.began)
    (hsender : t'.sender = { t.sender with inbox := inbox, wire := wire, pc := .window w' st })
    (hexpected : w'.expected = w.expected)
    (hless : (ManifestPc.window w' st).attemptsLeft < (ManifestPc.window w st).attemptsLeft ∨
      (ManifestPc.window w' st).attemptsLeft = (ManifestPc.window w st).attemptsLeft ∧
      (w'.todo.length < w.todo.length ∨ w'.todo.length = w.todo.length ∧
        2 * repliesLeft δ t' + (ManifestPc.window w' st).draining <
          2 * repliesLeft δ t + (ManifestPc.window w st).draining)) :
    Lowers settings δ d t t' := by
  have hu : t.sender.pc.underway = true := by
    rw [hpc]
    rfl
  have hpc' : t'.sender.pc = .window w' st := by rw [hsender]
  have hretry : t'.sender.retryDeadline = t.sender.retryDeadline := by rw [hsender]
  obtain ⟨htime, hbelow, hempty, hpositions⟩ := hinv.window w st hpc
  refine ⟨window_inv hinv hu htime hclock hbegan hretry hpc' (hexpected ▸ hbelow) hempty hpositions,
    ?_⟩
  have hclears : clearsLeft d t' = clearsLeft d t := by rw [clearsLeft, clearsLeft, hsender]
  have hexchanges : exchangesLeft settings δ t' ≤ exchangesLeft settings δ t := by
    refine exchangesLeft_le hδ ?_ hretry ?_
    · intro hended
      rw [hpc] at hended
      cases hended
    · rw [hpc, hpc', hbegan]
      exact le_rfl
  have hsame : (ManifestPc.window w' st).distance = (ManifestPc.window w st).distance ∧
      (ManifestPc.window w' st).windowsLeft = (ManifestPc.window w st).windowsLeft := ⟨rfl, rfl⟩
  rw [rank_lt_iff, hpc, hpc', ManifestPc.messagesLeft, ManifestPc.messagesLeft]
  omega

/-- An exception in an attempt leads to the second one, or to a handler. -/
theorem windowRaised_lowers (hδ : 0 < δ) {t t' : Timed} {w w' : Window} {st : Streaming}
    {inbox : Inbox} {wire : List Wire} {e : Raised} (hinv : TimedInv δ d t)
    (hpc : t.sender.pc = .window w st) (hclock : t.clock ≤ t'.clock) (hbegan : t'.began = t.began)
    (hagain : w'.again = w.again) (hexpected : w'.expected = w.expected)
    (hsender : t'.sender = Sender.windowRaised { t.sender with inbox := inbox, wire := wire }
      settings t'.clock w' st e) : Lowers settings δ d t t' := by
  have hu : t.sender.pc.underway = true := by
    rw [hpc]
    rfl
  have htime := (hinv.window w st hpc).1
  rcases windowRaised_cases settings { t.sender with inbox := inbox, wire := wire }
    t'.clock w' st e with h | ⟨-, hfirst, w'', hsecond, hexpected', h⟩
  · rw [← hsender] at h
    exact exchange_over hδ hinv hu ⟨h.highwater, h.completionStarted, h.pc, h.deadline⟩
      (Or.inl (htime.trans hclock))
  · rw [h] at hsender
    refine window_lowers hδ hinv hpc hclock hbegan hsender (hexpected'.trans hexpected) (Or.inl ?_)
    rw [ManifestPc.attemptsLeft, ManifestPc.attemptsLeft, hsecond, ← hagain, hfirst]
    exact Nat.one_pos

/-- A reply that `consume` takes leaves the attempt where it is. -/
theorem consume_attempt {transferId : String} {w w' : Window} {reply : Dict}
    (h : consume d transferId w reply = .ok w') :
    w'.again = w.again ∧ w'.draining = w.draining := by
  rw [consume] at h
  obtain ⟨data, -, h⟩ := Except.bind_eq_ok.1 h
  simp only at h
  split_ifs at h
  · exact absurd h (refusal_ne_ok _ _)
  · split at h
    · split_ifs at h
      · exact absurd h (refusal_ne_ok _ _)
      · cases h
        exact ⟨rfl, rfl⟩
      · split at h
        · cases h
          exact ⟨rfl, rfl⟩
        · exact absurd h (refusal_ne_ok _ _)
    · exact absurd h (refusal_ne_ok _ _)
  · exact absurd h (refusal_ne_ok _ _)
  · cases h
    exact ⟨rfl, rfl⟩

/-- A reply is consumed before the deadline: fewer may come. -/
theorem repliesLeft_received (hδ : 0 < δ) {t t' : Timed} {item : Item} {queue : List Item}
    (hclock : t.clock ≤ t'.clock) (hdeadline : t'.deadline = t.deadline)
    (hwaits : t.clock < t.deadline) (hqueue : t.sender.inbox.queue = item :: queue)
    (hqueue' : t'.sender.inbox.queue = queue) : repliesLeft δ t' < repliesLeft δ t := by
  rw [repliesLeft, repliesLeft, hdeadline, if_pos hwaits, hqueue, hqueue', List.length_cons]
  by_cases hlt : t'.clock < t.deadline
  · have hle := ceil_le_ceil_of_le hδ
      (show t.deadline - t'.clock ≤ t.deadline - t.clock by linarith)
    rw [if_pos hlt]
    omega
  · rw [if_neg hlt]
    exact Nat.succ_pos _

theorem windowReceived_lowers (hδ : 0 < δ) {t t' : Timed} {w : Window} {st : Streaming}
    {item : Item} {queue : List Item} (hinv : TimedInv δ d t) (hpc : t.sender.pc = .window w st)
    (hqueue : t.sender.inbox.queue = item :: queue) (hclock : t.clock ≤ t'.clock)
    (hbegan : t'.began = t.began) (hdeadline : t'.deadline = t.deadline)
    (hwaits : t.clock < t.deadline)
    (hsender : t'.sender =
      (t.sender.dequeued queue).windowReceived settings d t'.clock w st item) :
    Lowers settings δ d t t' := by
  rw [Sender.windowReceived] at hsender
  cases hresult : item.result >>= consume d (t.sender.dequeued queue).transferId w with
  | error e =>
    rw [hresult] at hsender
    exact windowRaised_lowers hδ hinv hpc hclock hbegan rfl rfl hsender
  | ok w' =>
    rw [hresult] at hsender
    obtain ⟨m, -, hm⟩ := Except.bind_eq_ok.1 hresult
    obtain ⟨data, -, -, -, htodo, hexpected, -⟩ := consume_ok hm
    obtain ⟨hagain, hdraining⟩ := consume_attempt hm
    have hreplies : repliesLeft δ t' < repliesLeft δ t := by
      refine repliesLeft_received hδ hclock hdeadline hwaits hqueue ?_
      rw [hsender]
      rfl
    refine window_lowers hδ hinv hpc hclock hbegan hsender hexpected (Or.inr ⟨?_, Or.inr ⟨?_, ?_⟩⟩)
    · rw [ManifestPc.attemptsLeft, ManifestPc.attemptsLeft, hagain]
    · rw [htodo]
    · rw [ManifestPc.draining, ManifestPc.draining, hdraining]
      omega

/-- The end of an attempt: the highwater goes up, or there is a window less to come. -/
theorem windowEnded_lowers (hδ : 0 < δ) {t t' : Timed} {w : Window} {st : Streaming}
    (hinv : TimedInv δ d t) (hpc : t.sender.pc = .window w st) (hclock : t.clock ≤ t'.clock)
    (hbegan : t'.began = t.began) (hsender : t'.sender = t.sender.windowEnded w st) :
    Lowers settings δ d t t' := by
  obtain ⟨htime, hbelow, hempty, hpositions⟩ := hinv.window w st hpc
  have hu : t.sender.pc.underway = true := by
    rw [hpc]
    rfl
  have hpc' : t'.sender.pc = .stream st := by
    rw [hsender]
    rfl
  have hwindow : ∀ c ∈ st.window, c.position.chunkIndex < d.totalChunks := by
    rw [hempty]
    intro c hc
    cases hc
  have hretry : ∀ deadline, t'.sender.retryDeadline = some deadline →
      t.sender.retryDeadline = some deadline := by
    intro deadline hdeadline
    rw [hsender, Sender.windowEnded] at hdeadline
    simp only at hdeadline
    split_ifs at hdeadline
    exact hdeadline
  refine ⟨stream_inv hinv hu htime hclock hbegan hretry hpc' hwindow hpositions, ?_⟩
  by_cases hhigher : t.sender.highwater < w.expected
  · rw [rank_lt_iff]
    refine Or.inl ?_
    rw [clearsLeft, clearsLeft, hsender, Sender.windowEnded]
    simp only [max_eq_right hhigher.le]
    omega
  · have hsame : t'.sender.highwater = t.sender.highwater := by
      rw [hsender]
      exact max_eq_left (not_lt.1 hhigher)
    refine rank_lt_of_windows ?_ (exchangesLeft_le hδ ?_ ?_ ?_) ?_ ?_
    · rw [clearsLeft, clearsLeft, hsame, hsender]
      exact le_rfl
    · intro hended
      rw [hpc] at hended
      cases hended
    · rw [hsender]
      exact if_neg fun h => hhigher h.1
    · rw [hpc, hpc', hbegan]
      exact le_rfl
    · rw [hpc, hpc']
      exact le_rfl
    · rw [hpc, hpc', ManifestPc.windowsLeft, ManifestPc.windowsLeft, if_pos hempty]
      exact Nat.lt_succ_self _

/-- The end of a pause. -/
theorem wake_lowers (hδ : 0 < δ) {t t' : Timed} {needMetadata : Bool}
    (hpc : t.sender.pc = .pausing needMetadata) (hclock : t.clock ≤ t'.clock)
    (hsender : t'.sender = { t.sender with
      pc := if t.sender.overBudget t'.clock then .raised budgetExhausted else .top needMetadata }) :
    Lowers settings δ d t t' := by
  have hclears : clearsLeft d t' = clearsLeft d t := by rw [clearsLeft, clearsLeft, hsender]
  split_ifs at hsender
  · exact lowers_of_ended (by rw [hpc]; rfl) hclears.le (by rw [hsender]; rfl)
  · have hpc' : t'.sender.pc = .top needMetadata := by rw [hsender]
    refine ⟨.of_pc (by rw [hpc']; rfl),
      rank_lt_of_distance hclears.le (exchangesLeft_le hδ ?_ ?_ ?_) ?_⟩
    · intro hended
      rw [hpc] at hended
      cases hended
    · rw [hsender]
    · rw [hpc, hpc']
      exact hclock
    · rw [hpc, hpc']
      exact Nat.lt_succ_self 4

/-- **A step** keeps the invariant and does not raise the rank, and one of the sender lowers it. -/
theorem timed_step (hδ : 0 < δ)
    (hplan : ∀ verified, ∀ p ∈ d.positions verified, p.chunkIndex < d.totalChunks)
    {t t' : Timed} {e : SenderEvent} (hinv : TimedInv δ d t) (h : TimedStep settings δ d t e t') :
    TimedInv δ d t' ∧ rank settings δ d t' ≤ rank settings δ d t ∧
      (e.outside = false → rank settings δ d t' < rank settings δ d t) := by
  have hown : Lowers settings δ d t t' → TimedInv δ d t' ∧
      rank settings δ d t' ≤ rank settings δ d t ∧
      (e.outside = false → rank settings δ d t' < rank settings δ d t) :=
    fun hlowers => ⟨hlowers.1, hlowers.2.le, fun _ => hlowers.2⟩
  obtain ⟨hstep, hclock, hnow, harrives, hfails, hwaits, -, hbegan, hdeadline⟩ := h
  generalize hs : t.sender = s at hstep
  generalize hs' : t'.sender = s' at hstep
  subst hs
  cases hstep with
  | @arrive message =>
    obtain ⟨hinv', hrank⟩ := waits_le settings hδ hinv (harrives rfl) hbegan hdeadline
      hs' (dispatch_queue _ message)
    exact ⟨hinv', hrank, fun h => by cases h⟩
  | disconnect =>
    obtain ⟨hinv', hrank⟩ := waits_le settings hδ hinv (harrives rfl) hbegan hdeadline
      hs' List.length_append.le
    exact ⟨hinv', hrank, fun h => by cases h⟩
  | @begin now needMetadata hpc =>
    obtain rfl := hnow now rfl
    exact hown (beginExchange_lowers hδ hpc hclock hbegan hs')
  | @request stage id hpc => exact hown (request_lowers hδ hinv hpc hclock hbegan hs')
  | @requestRaised stage id e now hpc =>
    obtain rfl := hnow now rfl
    have h := budgeted settings
      (t.sender.puts (.request stage t.sender.transferId id)) t'.clock stage e
    rw [← hs'] at h
    exact hown (exchange_over hδ hinv (by rw [hpc]; rfl)
      ⟨h.highwater, h.completionStarted, h.pc, h.deadline⟩ (hfails rfl))
  | @receive stage item queue now hpc hqueue =>
    obtain rfl := hnow now rfl
    exact hown (received_lowers hδ hplan hinv hpc hqueue hclock hbegan hs')
  | @replyTimeout stage now hpc =>
    obtain rfl := hnow now rfl
    refine hown (exchange_over hδ hinv ?_ (hs' ▸ budgeted settings t.sender t'.clock stage _)
      (hfails rfl))
    rcases hpc with hpc | hpc
    · rw [hpc]
      rfl
    · rw [hpc]
      rfl
  | @pull st p rest raw now hpc hrest =>
    obtain rfl := hnow now rfl
    exact hown (pulled_lowers hδ hinv hpc hrest hclock hbegan hs')
  | @pullRaised st e now hpc =>
    obtain rfl := hnow now rfl
    refine hown (exchange_over hδ hinv (by rw [hpc]; rfl)
      (hs' ▸ budgeted settings t.sender t'.clock .chunk e) (Or.inl ?_))
    exact (hinv.stream st hpc).1.trans hclock
  | @exhausted st now hpc hrest =>
    obtain rfl := hnow now rfl
    exact hown (exhausted_lowers hδ hinv hpc hrest hclock hbegan hs')
  | @chunk w st c known todo id hpc htodo =>
    refine hown (window_lowers hδ hinv hpc hclock hbegan hs' rfl (Or.inr ⟨rfl, Or.inl ?_⟩))
    rw [htodo]
    exact Nat.lt_succ_self _
  | @chunkRaised w st c known todo id e now hpc =>
    obtain rfl := hnow now rfl
    refine hown (windowRaised_lowers hδ hinv hpc hclock hbegan ?_ ?_ hs')
    · rfl
    · rfl
  | @windowReceive w st item queue now hpc hqueue =>
    obtain rfl := hnow now rfl
    exact hown (windowReceived_lowers hδ hinv hpc hqueue hclock hbegan hdeadline (hwaits rfl) hs')
  | @drained w st hpc _ hdraining =>
    refine hown (window_lowers hδ hinv hpc hclock hbegan hs' rfl
      (Or.inr ⟨rfl, Or.inr ⟨rfl, ?_⟩⟩))
    have hle := repliesLeft_le hδ hclock hdeadline (by rw [hs'])
    rw [ManifestPc.draining, ManifestPc.draining, hdraining]
    exact Nat.add_lt_add_of_le_of_lt (Nat.mul_le_mul_left 2 hle) Nat.one_pos
  | @windowTimeout w st now hpc =>
    obtain rfl := hnow now rfl
    exact hown (windowRaised_lowers hδ hinv hpc hclock hbegan rfl rfl hs')
  | @windowEnded w st hpc => exact hown (windowEnded_lowers hδ hinv hpc hclock hbegan hs')
  | @wake needMetadata now hpc =>
    obtain rfl := hnow now rfl
    exact hown (wake_lowers hδ hpc hclock hs')

theorem timedInv_start (transferId : String) (clock : ℚ) :
    TimedInv δ d (.start transferId clock) := .of_pc rfl

/-! ## Clearing the deadline -/

/-- A step that clears the deadline is one time less that it may be cleared. -/
theorem clearsLeft_lt {t t' : Timed} {e : SenderEvent} (hinv : TimedInv δ d t)
    (hstep : SenderStep settings d t.sender e t'.sender) (hclears : t.sender.Clears e) :
    clearsLeft d t' < clearsLeft d t := by
  obtain ⟨hfirst, hclears⟩ := hclears
  generalize hs : t.sender = s at hstep
  generalize hs' : t'.sender = s' at hstep
  subst hs
  cases hstep with
  | @exhausted st now hpc hrest =>
    rw [hpc] at hclears
    have hempty : st.window = [] := hclears
    rw [Sender.exhausted, if_neg (not_not.2 hempty)] at hs'
    rw [clearsLeft, clearsLeft, hs', hfirst]
    exact Nat.lt_succ_self _
  | @windowEnded w st hpc =>
    rw [hpc] at hclears
    have hhigher : t.sender.highwater < w.expected := hclears
    have hbelow := (hinv.window w st hpc).2.1
    rw [clearsLeft, clearsLeft, hs', Sender.windowEnded]
    simp only [max_eq_right hhigher.le]
    omega
  | _ =>
    split at hclears
    all_goals simp_all

/-! ## Progress -/

/-- A step of the sender that does not wait for a message may come once `δ` has passed. -/
theorem timedStep_of_step {t : Timed} {e : SenderEvent} {s : Sender}
    (hstep : SenderStep settings d t.sender e s) (hown : e.outside = false)
    (hnow : e.now = some (max t.clock (t.began + δ))) (hwaits : e.waits = false) :
    ∃ t', TimedStep settings δ d t e t' := by
  refine ⟨⟨s, max t.clock (t.began + δ),
    if e.begins then max t.clock (t.began + δ) else t.began,
    if e.attempts then
      max t.clock (t.began + δ) + s.remaining (max t.clock (t.began + δ)) ackTimeout
      else t.deadline, t.wakes⟩, hstep, le_max_left _ _, ?_, ?_, ?_, ?_, ?_, rfl, rfl⟩
  · intro now h
    rw [hnow] at h
    exact (Option.some.inj h).symm
  · intro h
    rw [hown] at h
    cases h
  · intro _
    exact Or.inl (le_max_right _ _)
  · intro h
    rw [hwaits] at h
    cases h
  · intro h
    rw [hown] at h
    cases h

/-- **A run that has not ended goes on**, whatever the server does. -/
theorem progress (t : Timed) (h : t.sender.pc.ended = false) :
    ∃ e t', e.outside = false ∧ TimedStep settings δ d t e t' := by
  have hgo : ∀ {e s}, SenderStep settings d t.sender e s → e.outside = false →
      e.now = some (max t.clock (t.began + δ)) → e.waits = false →
      ∃ e t', e.outside = false ∧ TimedStep settings δ d t e t' := by
    intro e s hstep hown hnow hwaits
    obtain ⟨t', ht'⟩ := timedStep_of_step hstep hown hnow hwaits
    exact ⟨e, t', hown, ht'⟩
  cases hpc : t.sender.pc with
  | top needMetadata => exact hgo (.begin hpc) rfl rfl rfl
  | request stage => exact hgo (.replyTimeout (Or.inr hpc)) rfl rfl rfl
  | reply stage => exact hgo (.replyTimeout (Or.inl hpc)) rfl rfl rfl
  | stream st =>
    cases hrest : st.rest with
    | nil => exact hgo (.exhausted hpc hrest) rfl rfl rfl
    | cons p rest =>
      have hraw : (List.replicate p.length (0 : UInt8)).length = p.length := List.length_replicate
      exact hgo (.pull hpc hrest hraw) rfl rfl rfl
  | window w st => exact hgo (.windowTimeout hpc) rfl rfl rfl
  | pausing needMetadata => exact hgo (.wake hpc) rfl rfl rfl
  | returned data =>
    rw [hpc] at h
    cases h
  | raised e =>
    rw [hpc] at h
    cases h

/-! ## Runs -/

variable {r : ℕ → Timed} {e : ℕ → SenderEvent}

/-- The invariant holds as long as the steps are timed. -/
theorem timedInv_run (hδ : 0 < δ)
    (hplan : ∀ verified, ∀ p ∈ d.positions verified, p.chunkIndex < d.totalChunks)
    (hstart : TimedInv δ d (r 0)) {n : ℕ}
    (h : ∀ i < n, TimedStep settings δ d (r i) (e i) (r (i + 1))) : TimedInv δ d (r n) := by
  induction n with
  | zero => exact hstart
  | succ n ih =>
    exact (timed_step hδ hplan (ih fun i hi => h i (hi.trans (Nat.lt_succ_self n)))
      (h n (Nat.lt_succ_self n))).1

/-- The deadline is cleared no more often than there is to clear. -/
theorem clearings_le (hδ : 0 < δ)
    (hplan : ∀ verified, ∀ p ∈ d.positions verified, p.chunkIndex < d.totalChunks)
    (hstart : TimedInv δ d (r 0)) {n : ℕ}
    (h : ∀ i < n, TimedStep settings δ d (r i) (e i) (r (i + 1))) :
    clearings r e n + clearsLeft d (r n) ≤ clearsLeft d (r 0) := by
  induction n with
  | zero => exact (Nat.zero_add _).le
  | succ n ih =>
    have hbefore : ∀ i < n, TimedStep settings δ d (r i) (e i) (r (i + 1)) :=
      fun i hi => h i (hi.trans (Nat.lt_succ_self n))
    have hinv := timedInv_run hδ hplan hstart hbefore
    have hlast := h n (Nat.lt_succ_self n)
    have hle : clearsLeft d (r (n + 1)) ≤ clearsLeft d (r n) := by
      by_contra hlt
      refine (timed_step hδ hplan hinv hlast).2.1.not_gt ?_
      rw [rank_lt_iff]
      exact Or.inl (not_le.1 hlt)
    have hcount : clearings r e (n + 1) =
        clearings r e n + if (r n).sender.Clears (e n) then 1 else 0 := by
      simp [clearings, List.range_succ]
    have hstep := ih hbefore
    rw [hcount]
    split_ifs with hclears
    · have hlt := clearsLeft_lt hinv hlast.step hclears
      omega
    · omega

/-- How many messages may still arrive in an await. -/
def waitsLeft (δ : ℚ) (t : Timed) : ℕ := ⌈(t.wakes - t.clock) / δ⌉₊

/-- **A run that takes step after step ends.** -/
theorem ends (hδ : 0 < δ)
    (hplan : ∀ verified, ∀ p ∈ d.positions verified, p.chunkIndex < d.totalChunks)
    (hstart : TimedInv δ d (r 0)) (h : ∀ i, TimedStep settings δ d (r i) (e i) (r (i + 1))) :
    ∃ n, (r n).sender.pc.ended = true := by
  by_contra hnever
  have hgoes : ∀ n, (r n).sender.pc.ended = false := by
    intro n
    rw [← Bool.not_eq_true]
    exact fun hended => hnever ⟨n, hended⟩
  have hlt : ∀ n, toLex (rank settings δ d (r (n + 1)), waitsLeft δ (r (n + 1))) <
      toLex (rank settings δ d (r n), waitsLeft δ (r n)) := by
    intro n
    obtain ⟨-, hle, hown⟩ := timed_step hδ hplan
      (timedInv_run hδ hplan hstart fun i (_ : i < n) => h i) (h n)
    rw [Prod.Lex.toLex_lt_toLex]
    cases houtside : (e n).outside with
    | false => exact Or.inl (hown houtside)
    | true =>
      rcases hle.lt_or_eq with hlower | hsame
      · exact Or.inl hlower
      · refine Or.inr ⟨hsame, ?_⟩
        have hadvances := (h n).arrives houtside
        rcases (h n).wakes houtside with hended | ⟨hawait, hwakes⟩
        · rw [hgoes n] at hended
          cases hended
        · rw [waitsLeft, waitsLeft, hwakes]
          exact ceil_lt_ceil hδ (by linarith) (by linarith)
  exact not_strictAnti_of_wellFoundedLT
    (fun n => toLex (rank settings δ d (r n), waitsLeft δ (r n))) (strictAnti_nat_of_succ_lt hlt)

end

end Fulfillment

end AimData
