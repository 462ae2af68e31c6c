/-
  How often a deduction is claimed and sent.  `attempt_count` is written by a
  worker from what it read at its claim, and by the monitor from the row; the dead
  letters are a transaction of their own.  The bound holds as long as no claim
  comes between the two transactions of the monitor and no late failure takes
  back what another attempt has counted.
-/
import AimData.Billing.DeductionQueue

namespace AimData

namespace Billing

/-! ## The logs -/

/-- The queue with its claims and its remote calls so far, as pairs of a worker and
    a row id. -/
structure Tally where
  queue : Queue
  claims : List (ℕ × ℕ)
  sends : List (ℕ × ℕ)

def Tally.start : Tally := ⟨.start, [], []⟩

def claimsOf (s : Queue) : Event → List (ℕ × ℕ)
  | .claim i _ now locked => (claimedIds now locked s.rows).map (i, ·)
  | _ => []

def sendsOf (s : Queue) : Event → List (ℕ × ℕ)
  | .send i =>
    match s.workers i with
    | some ⟨_, item :: _, _⟩ => [(i, item.id)]
    | _ => []
  | _ => []

structure TallyStep (t : Tally) (e : Event) (t' : Tally) : Prop where
  step : QueueStep t.queue e t'.queue
  claims : t'.claims = claimsOf t.queue e ++ t.claims
  sends : t'.sends = sendsOf t.queue e ++ t.sends

theorem TallyStep.next {t : Tally} {e : Event} {queue' : Queue} (h : QueueStep t.queue e queue') :
    TallyStep t e ⟨queue', claimsOf t.queue e ++ t.claims, sendsOf t.queue e ++ t.sends⟩ :=
  ⟨h, rfl, rfl⟩

/-- How often a row is in a log. -/
def times (id : ℕ) (log : List (ℕ × ℕ)) : ℕ := log.countP fun c => c.2 = id

theorem times_append (id : ℕ) (log log' : List (ℕ × ℕ)) :
    times id (log ++ log') = times id log + times id log' :=
  List.countP_append

@[simp] theorem times_nil (id : ℕ) : times id [] = 0 := rfl

/-- The attempts that a row stands for: those that have failed, and the one that it
    is leased for or was settled by. -/
def Deduction.attempts (r : Deduction) : ℕ :=
  match r.status with
  | .processing | .completed | .failedTerminal => r.attemptCount + 1
  | .pending | .failedRetryable | .deadLetter => r.attemptCount

/-- No claim takes a row whose attempts are used up, and no failure that is written
    leaves a row with fewer attempts than it stood for. -/
structure Timely (s : Queue) (e : Event) : Prop where
  claims : ∀ i workerId now locked, e = .claim i workerId now locked →
    ∀ r ∈ s.rows, r.id ∈ claimedIds now locked s.rows → r.attemptCount < maxAttempts
  failures : ∀ i workerId item items result now jitter, e = .record i now jitter →
    s.workers i = some ⟨workerId, item :: items, .answered result⟩ → result.sent = false →
    result.retryable = true → ∀ r ∈ s.rows, r.id = item.id → r.attempts ≤ item.attemptCount + 1

/-! ## Calls follow claims -/

/-- The items that a worker has not sent yet. -/
def Worker.unsent (w : Worker) : List Item :=
  match w.pc with
  | .next => w.items
  | .inFlight | .answered _ => w.items.tail

/-- Every call of a worker is for a claim of its own, with one claim left over for
    each item that it has not sent. -/
structure Backed (t : Tally) : Prop where
  sent : ∀ c, t.sends.count c ≤ t.claims.count c
  unsent : ∀ i w, t.queue.workers i = some w → ∀ item ∈ w.unsent,
    t.sends.count (i, item.id) < t.claims.count (i, item.id)
  once : ∀ i w, t.queue.workers i = some w → (w.unsent.map Item.id).Nodup

theorem backed_start : Backed .start :=
  ⟨fun _ => le_rfl, fun _ _ h => (by cases h), fun _ _ h => (by cases h)⟩

/-- A step without a claim or a call, in which no worker gets new items. -/
theorem Backed.quiet {t t' : Tally} (h : Backed t) (hclaims : t'.claims = t.claims)
    (hsends : t'.sends = t.sends) (hworkers : ∀ i w', t'.queue.workers i = some w' →
      ∃ w, t.queue.workers i = some w ∧ List.Sublist w'.unsent w.unsent) : Backed t' := by
  refine ⟨?_, ?_, ?_⟩
  · intro c
    rw [hclaims, hsends]
    exact h.sent c
  · intro i w' hw' item hitem
    obtain ⟨w, hw, hsub⟩ := hworkers i w' hw'
    rw [hclaims, hsends]
    exact h.unsent i w hw item (hsub.subset hitem)
  · intro i w' hw'
    obtain ⟨w, hw, hsub⟩ := hworkers i w' hw'
    exact (h.once i w hw).sublist (hsub.map _)

/-- One worker goes on with no new items. -/
theorem unsent_setWorker {s : Queue} {i : ℕ} {w : Worker} {o : Option Worker}
    (hw : s.workers i = some w) (ho : ∀ w', o = some w' → List.Sublist w'.unsent w.unsent) :
    ∀ j w', (s.setWorker i o).workers j = some w' →
      ∃ w'', s.workers j = some w'' ∧ List.Sublist w'.unsent w''.unsent := by
  intro j w' hw'
  by_cases hj : j = i
  · subst hj
    rw [Queue.setWorker_self] at hw'
    exact ⟨w, hw, ho w' hw'⟩
  · rw [Queue.setWorker_of_ne _ hj] at hw'
    exact ⟨w', hw', .refl _⟩

theorem unsent_same {s s' : Queue} (h : s'.workers = s.workers) :
    ∀ i w', s'.workers i = some w' →
      ∃ w, s.workers i = some w ∧ List.Sublist w'.unsent w.unsent := by
  intro i w' hw'
  rw [h] at hw'
  exact ⟨w', hw', .refl _⟩

/-- The ids of a claim are different. -/
theorem claimedIds_nodup {s : Queue} (hs : UniqueIds s) (now : ℚ) (locked : List ℕ) :
    (claimedIds now locked s.rows).Nodup := by
  have hfilter : ((s.rows.filter fun r =>
      r.status = .pending ∧ r.nextRetryAt ≤ now ∧ r.id ∉ locked).map Deduction.id).Nodup :=
    List.Nodup.sublist (List.filter_sublist.map _) hs
  have hsorted := (((List.perm_insertionSort (fun r r' : Deduction => r.createdAt ≤ r'.createdAt)
    _).map Deduction.id).nodup_iff).2 hfilter
  exact hsorted.sublist ((List.take_sublist _ _).map _)

theorem Backed.claimed {t t' : Tally} (hs : UniqueIds t.queue) (h : Backed t) {i : ℕ}
    {workerId : String} {now : ℚ} {locked : List ℕ}
    (hqueue : t'.queue = t.queue.claimed i workerId now locked)
    (hclaims : t'.claims = (claimedIds now locked t.queue.rows).map (i, ·) ++ t.claims)
    (hsends : t'.sends = t.sends) : Backed t' := by
  have hcount : ∀ c, t.claims.count c ≤ t'.claims.count c := by
    intro c
    rw [hclaims, List.count_append]
    exact Nat.le_add_left _ _
  refine ⟨?_, ?_, ?_⟩
  · intro c
    rw [hsends]
    exact (h.sent c).trans (hcount c)
  · intro j w hw item hitem
    rw [hsends]
    by_cases hj : j = i
    · subst hj
      rw [hqueue, Queue.claimed, Queue.setWorker_self] at hw
      split_ifs at hw
      cases hw
      have hid := (mem_claimBatch hitem).1
      have hone : 0 < ((claimedIds now locked t.queue.rows).map (j, ·)).count (j, item.id) :=
        List.count_pos_iff.2 (List.mem_map_of_mem hid)
      have hbefore := h.sent (j, item.id)
      rw [hclaims, List.count_append]
      omega
    · rw [hqueue, Queue.claimed, Queue.setWorker_of_ne _ hj] at hw
      exact (h.unsent j w hw item hitem).trans_le (hcount _)
  · intro j w hw
    by_cases hj : j = i
    · subst hj
      rw [hqueue, Queue.claimed, Queue.setWorker_self] at hw
      split_ifs at hw
      cases hw
      exact claimBatch_once hs workerId now locked
    · rw [hqueue, Queue.claimed, Queue.setWorker_of_ne _ hj] at hw
      exact h.once j w hw

theorem Backed.sending {t t' : Tally} (h : Backed t) {i : ℕ} {workerId : String} {item : Item}
    {items : List Item} (hworker : t.queue.workers i = some ⟨workerId, item :: items, .next⟩)
    (hqueue : t'.queue = t.queue.setWorker i (some ⟨workerId, item :: items, .inFlight⟩))
    (hclaims : t'.claims = t.claims) (hsends : t'.sends = (i, item.id) :: t.sends) :
    Backed t' := by
  have hitem := h.unsent i _ hworker item List.mem_cons_self
  have honce := h.once i _ hworker
  change (item.id :: items.map Item.id).Nodup at honce
  rw [List.nodup_cons] at honce
  refine ⟨?_, ?_, ?_⟩
  · intro c
    rw [hclaims, hsends, List.count_cons]
    have hc := h.sent c
    split_ifs with hsame
    · rw [← eq_of_beq hsame]
      exact hitem
    · exact hc
  · intro j w hw item' hitem'
    rw [hclaims, hsends, List.count_cons]
    by_cases hj : j = i
    · subst hj
      rw [hqueue, Queue.setWorker_self] at hw
      cases hw
      have hne : item'.id ≠ item.id := by
        intro hid
        exact honce.1 (hid ▸ List.mem_map_of_mem hitem')
      have hne' : ((j, item.id) == (j, item'.id)) = false := by
        simp [hne.symm]
      rw [if_neg (by simp [hne'])]
      exact h.unsent j _ hworker item' (List.mem_cons_of_mem _ hitem')
    · rw [hqueue, Queue.setWorker_of_ne _ hj] at hw
      have hne : ((i, item.id) == (j, item'.id)) = false := by
        simp [Ne.symm hj]
      rw [if_neg (by simp [hne])]
      exact h.unsent j w hw item' hitem'
  · intro j w hw
    by_cases hj : j = i
    · subst hj
      rw [hqueue, Queue.setWorker_self] at hw
      cases hw
      exact honce.2
    · rw [hqueue, Queue.setWorker_of_ne _ hj] at hw
      exact h.once j w hw

theorem backed_step {t t' : Tally} {e : Event} (hs : UniqueIds t.queue) (h : Backed t)
    (hstep : TallyStep t e t') : Backed t' := by
  obtain ⟨queue', claims', sends'⟩ := t'
  obtain ⟨hqueue, rfl, rfl⟩ := hstep
  dsimp only at hqueue
  cases hqueue with
  | enqueue => exact h.quiet rfl rfl (unsent_same rfl)
  | claim => exact h.claimed hs rfl rfl rfl
  | send hworker =>
    refine h.sending hworker rfl rfl ?_
    simp only [sendsOf, hworker]
    rfl
  | answer hworker =>
    refine h.quiet rfl rfl (unsent_setWorker hworker ?_)
    rintro w' ⟨⟩
    exact .refl _
  | record hworker =>
    refine h.quiet rfl rfl (unsent_setWorker (s := Queue.setRows _ _) hworker ?_)
    rintro w' ⟨⟩
    exact .refl _
  | sweep hworker =>
    refine h.quiet rfl rfl (unsent_setWorker (s := Queue.setRows _ _) hworker ?_)
    rintro w' ⟨⟩
  | crash hworker =>
    refine h.quiet rfl rfl (unsent_setWorker hworker ?_)
    rintro w' ⟨⟩
  | expire => exact h.quiet rfl rfl (unsent_same rfl)
  | bury => exact h.quiet rfl rfl (unsent_same rfl)
  | monitorCrash => exact h.quiet rfl rfl (unsent_same rfl)
  | markCompleted => exact h.quiet rfl rfl (unsent_same rfl)
  | markFailedTerminal => exact h.quiet rfl rfl (unsent_same rfl)

theorem Backed.times_le {t : Tally} (h : Backed t) (id : ℕ) :
    times id t.sends ≤ times id t.claims :=
  (List.subperm_ext_iff.2 fun c _ => h.sent c).countP_le _

/-! ## Attempts are counted -/

theorem Deduction.attempts_le (r : Deduction) : r.attempts ≤ r.attemptCount + 1 := by
  unfold attempts
  split
  all_goals omega

/-- Every claim of a row is among the attempts that the row stands for. -/
structure Counted (t : Tally) : Prop where
  ids : UniqueIds t.queue
  backed : Backed t
  rows : ∀ r ∈ t.queue.rows, times r.id t.claims ≤ r.attempts
  known : ∀ id, 0 < times id t.claims → ∃ r ∈ t.queue.rows, r.id = id
  bound : ∀ id, times id t.claims ≤ maxAttempts

theorem counted_start : Counted .start where
  ids := uniqueIds_start
  backed := backed_start
  rows := fun r hr => by cases hr
  known := fun id hid => absurd hid (lt_irrefl 0)
  bound := fun id => Nat.zero_le _

section

variable {t t' : Tally}

/-- A step that claims nothing and takes no attempt from a row. -/
theorem Counted.update (h : Counted t) (hids : UniqueIds t'.queue) (hbacked : Backed t')
    (hclaims : t'.claims = t.claims) {condition : Deduction → Bool} {values : Deduction → Deduction}
    (hrows : t'.queue.rows = update condition values t.queue.rows)
    (hid : ∀ r, (values r).id = r.id)
    (hvalues : ∀ r ∈ t.queue.rows, condition r = true → r.attempts ≤ (values r).attempts) :
    Counted t' := by
  refine ⟨hids, hbacked, ?_, ?_, ?_⟩
  · intro r' hr'
    rw [hrows] at hr'
    obtain ⟨r, hr, rfl⟩ := mem_update.1 hr'
    have hbefore := h.rows r hr
    rw [hclaims]
    by_cases hcondition : condition r = true
    · rw [if_pos hcondition, hid]
      exact hbefore.trans (hvalues r hr hcondition)
    · rw [if_neg hcondition]
      exact hbefore
  · intro id hpos
    rw [hclaims] at hpos
    obtain ⟨r, hr, rfl⟩ := h.known id hpos
    rw [hrows]
    refine ⟨_, mem_update.2 ⟨r, hr, rfl⟩, ?_⟩
    split_ifs
    · exact hid r
    · rfl
  · intro id
    rw [hclaims]
    exact h.bound id

/-- A step that leaves the rows alone. -/
theorem Counted.same (h : Counted t) (hids : UniqueIds t'.queue) (hbacked : Backed t')
    (hclaims : t'.claims = t.claims) (hrows : t'.queue.rows = t.queue.rows) : Counted t' := by
  refine ⟨hids, hbacked, ?_, ?_, ?_⟩
  · rw [hclaims, hrows]
    exact h.rows
  · rw [hclaims, hrows]
    exact h.known
  · rw [hclaims]
    exact h.bound

theorem Counted.enqueue (h : Counted t) (hids : UniqueIds t'.queue) (hbacked : Backed t')
    (hclaims : t'.claims = t.claims) {row : Deduction}
    (hfresh : ∀ r ∈ t.queue.rows, r.id ≠ row.id)
    (hrows : t'.queue.rows = Billing.enqueue row t.queue.rows) : Counted t' := by
  have hzero : times row.id t.claims = 0 := by
    by_contra hne
    obtain ⟨r, hr, hid⟩ := h.known row.id (Nat.pos_of_ne_zero hne)
    exact hfresh r hr hid
  rw [Billing.enqueue] at hrows
  split_ifs at hrows
  · exact h.same hids hbacked hclaims hrows
  · refine ⟨hids, hbacked, ?_, ?_, ?_⟩
    · intro r hr
      rw [hrows, List.mem_append, List.mem_singleton] at hr
      rw [hclaims]
      rcases hr with hr | rfl
      · exact h.rows r hr
      · rw [hzero]
        exact Nat.zero_le _
    · intro id hpos
      rw [hclaims] at hpos
      obtain ⟨r, hr, hid⟩ := h.known id hpos
      rw [hrows]
      exact ⟨r, List.mem_append_left _ hr, hid⟩
    · rw [hclaims]
      exact h.bound

theorem times_claim (i id : ℕ) (ids : List ℕ) : times id (ids.map (i, ·)) = ids.count id := by
  rw [times, List.countP_map, List.count]
  refine List.countP_congr ?_
  intro j _
  simp

theorem Counted.claimed (h : Counted t) (hids : UniqueIds t'.queue) (hbacked : Backed t') {i : ℕ}
    {workerId : String} {now : ℚ} {locked : List ℕ}
    (hqueue : t'.queue = t.queue.claimed i workerId now locked)
    (hclaims : t'.claims = (claimedIds now locked t.queue.rows).map (i, ·) ++ t.claims)
    (htimely : ∀ r ∈ t.queue.rows, r.id ∈ claimedIds now locked t.queue.rows →
      r.attemptCount < maxAttempts) : Counted t' := by
  have hnodup := claimedIds_nodup h.ids now locked
  have htimes : ∀ id, times id t'.claims =
      (claimedIds now locked t.queue.rows).count id + times id t.claims := by
    intro id
    rw [hclaims, times_append, times_claim]
  -- a row that is claimed was pending: its attempts are its counter
  have hpending : ∀ r ∈ t.queue.rows, r.id ∈ claimedIds now locked t.queue.rows →
      r.attempts = r.attemptCount := by
    intro r hr hclaimed
    obtain ⟨q, hq, hqid, hstatus⟩ := pending_of_claimed hclaimed
    rw [h.ids.eq hr hq hqid.symm, Deduction.attempts, hstatus]
  have hrows : t'.queue.rows = Billing.update
      (fun r => r.id ∈ claimedIds now locked t.queue.rows) (lease workerId now) t.queue.rows := by
    rw [hqueue]
    rfl
  refine ⟨hids, hbacked, ?_, ?_, ?_⟩
  · intro r' hr'
    rw [hrows] at hr'
    obtain ⟨r, hr, rfl⟩ := mem_update.1 hr'
    have hbefore := h.rows r hr
    by_cases hclaimed : r.id ∈ claimedIds now locked t.queue.rows
    · rw [if_pos (decide_eq_true hclaimed), htimes]
      change (claimedIds now locked t.queue.rows).count r.id + times r.id t.claims ≤
        r.attemptCount + 1
      rw [hpending r hr hclaimed] at hbefore
      rw [List.count_eq_one_of_mem hnodup hclaimed]
      omega
    · rw [if_neg (by simpa using hclaimed), htimes, List.count_eq_zero_of_not_mem hclaimed]
      omega
  · intro id hpos
    have hrow : ∃ r ∈ t.queue.rows, r.id = id := by
      rw [htimes] at hpos
      by_cases hclaimed : id ∈ claimedIds now locked t.queue.rows
      · obtain ⟨r, hr, hid, -⟩ := pending_of_claimed hclaimed
        exact ⟨r, hr, hid⟩
      · rw [List.count_eq_zero_of_not_mem hclaimed] at hpos
        exact h.known id (by omega)
    obtain ⟨r, hr, rfl⟩ := hrow
    rw [hrows]
    refine ⟨_, mem_update.2 ⟨r, hr, rfl⟩, ?_⟩
    split_ifs <;> rfl
  · intro id
    rw [htimes]
    by_cases hclaimed : id ∈ claimedIds now locked t.queue.rows
    · obtain ⟨r, hr, rfl, -⟩ := pending_of_claimed hclaimed
      have hbefore := h.rows r hr
      have hcount := htimely r hr hclaimed
      rw [hpending r hr hclaimed] at hbefore
      rw [List.count_eq_one_of_mem hnodup hclaimed]
      omega
    · rw [List.count_eq_zero_of_not_mem hclaimed, Nat.zero_add]
      exact h.bound id

/-- A result that is written keeps the attempts of its row. -/
theorem attempts_record {result : SendResult} {attemptCount : ℕ} {nextAt : ℚ} {r : Deduction}
    (h : result.sent = false → result.retryable = true → r.attempts ≤ attemptCount + 1) :
    r.attempts ≤ (result.record attemptCount nextAt r).attempts := by
  by_cases hsent : result.sent = true
  · simp only [SendResult.record, hsent, if_true]
    exact r.attempts_le
  have hsent' : result.sent = false := by simpa using hsent
  by_cases hretryable : result.retryable = true
  · simp only [SendResult.record, hsent', hretryable, not_true_eq_false, if_false,
      Bool.false_eq_true]
    split_ifs
    · exact h hsent' hretryable
    · exact h hsent' hretryable
  · simp only [SendResult.record, hsent', hretryable, not_false_eq_true, if_true, if_false,
      Bool.false_eq_true]
    exact r.attempts_le

/-- **One step** keeps the count, if it is not late. -/
theorem counted_step {e : Event} (h : Counted t) (hstep : TallyStep t e t')
    (htimely : Timely t.queue e) : Counted t' := by
  have hbacked := backed_step h.ids h.backed hstep
  have hids := uniqueIds_step h.ids hstep.step
  obtain ⟨queue', claims', sends'⟩ := t'
  obtain ⟨hqueue, rfl, rfl⟩ := hstep
  dsimp only at hqueue
  cases hqueue with
  | enqueue hfresh => exact h.enqueue hids hbacked rfl hfresh rfl
  | claim => exact h.claimed hids hbacked rfl rfl (htimely.claims _ _ _ _ rfl)
  | send => exact h.same hids hbacked rfl rfl
  | answer => exact h.same hids hbacked rfl rfl
  | record hworker =>
    refine h.update hids hbacked rfl rfl (fun _ => SendResult.record_id _ _ _ _) ?_
    intro r hr hid
    refine attempts_record ?_
    intro hsent hretryable
    exact htimely.failures _ _ _ _ _ _ _ rfl hworker hsent hretryable r hr (of_decide_eq_true hid)
  | sweep =>
    refine h.update hids hbacked rfl rfl (fun _ => rfl) ?_
    intro r _ hcondition
    rw [Deduction.attempts, (of_decide_eq_true hcondition).1]
    exact le_rfl
  | crash => exact h.same hids hbacked rfl rfl
  | expire =>
    refine h.update hids hbacked rfl rfl (fun _ => rfl) ?_
    intro r _ hcondition
    rw [Deduction.attempts, (of_decide_eq_true hcondition).1]
    exact le_rfl
  | bury =>
    refine h.update hids hbacked rfl rfl (fun _ => rfl) ?_
    intro r _ hcondition
    rw [Deduction.attempts, (of_decide_eq_true hcondition).1]
    exact le_rfl
  | monitorCrash => exact h.same hids hbacked rfl rfl
  | markCompleted =>
    exact h.update hids hbacked rfl rfl (fun _ => rfl) fun r _ _ => r.attempts_le
  | markFailedTerminal =>
    exact h.update hids hbacked rfl rfl (fun _ => rfl) fun r _ _ => r.attempts_le

end

/-! ## Whole runs -/

/-- **A deduction is claimed at most `MAX_ATTEMPTS` times**, and sent at most once
    for each claim, in every run without a late step. -/
theorem attempts_bounded {es : List Event} {t : Tally}
    (h : Run (fun t e t' => TallyStep t e t' ∧ Timely t.queue e) .start es t) (id : ℕ) :
    times id t.sends ≤ times id t.claims ∧ times id t.claims ≤ maxAttempts := by
  have hcounted : Counted t :=
    Run.invariant (fun hcounted hstep => counted_step hcounted hstep.1 hstep.2) h counted_start
  exact ⟨hcounted.backed.times_le id, hcounted.bound id⟩

/-- A deduction that is claimed and sent. -/
theorem attempts_bounded_send : ∃ es t,
    Run (fun t e t' => TallyStep t e t' ∧ Timely t.queue e) .start es t ∧ times 0 t.sends = 1 ∧
      times 0 t.claims ≤ maxAttempts := by
  have hclaim : Timely ⟨[job], fun _ => none, 0⟩ (.claim 0 "a" 0 []) := by
    refine ⟨?_, fun _ _ _ _ _ _ _ h => by cases h⟩
    intro _ _ _ _ _ r hr _
    rw [List.mem_singleton.1 hr]
    decide
  have henqueue : TallyStep .start (.enqueue job) ⟨⟨[job], fun _ => none, 0⟩, [], []⟩ :=
    .next (.enqueue fun r hr => List.not_mem_nil hr |>.elim)
  have hrun := (Run.cons ⟨henqueue, fun _ _ _ _ h => (by cases h),
    fun _ _ _ _ _ _ _ h => (by cases h)⟩ <|
    .cons ⟨.next (.claim rfl), hclaim⟩ <|
    .cons ⟨.next (.send rfl : QueueStep _ (.send 0) _), fun _ _ _ _ h => (by cases h),
      fun _ _ _ _ _ _ _ h => (by cases h)⟩ .nil :
    Run (fun t e t' => TallyStep t e t' ∧ Timely t.queue e) .start _ _)
  exact ⟨_, _, hrun, rfl, (attempts_bounded hrun 0).2⟩

/-! ### Six claims of one deduction -/

/-- The job after `n` leases that expired. -/
def expiredJob (n : ℕ) : Deduction :=
  { job with attemptCount := n, lastError := if n = 0 then none else some "lease_expired" }

/-- No worker under way, and a monitor between its transactions for each expiry. -/
def idle (n : ℕ) : Queue := ⟨[expiredJob n], fun _ => none, n⟩

theorem claimedIds_expiredJob (n : ℕ) {now : ℚ} (hnow : 0 ≤ now) :
    claimedIds now [] [expiredJob n] = [0] := by
  have hfilter : [expiredJob n].filter (fun r =>
      r.status = .pending ∧ r.nextRetryAt ≤ now ∧ r.id ∉ []) = [expiredJob n] :=
    List.filter_cons_of_pos (by simpa [expiredJob, job, enqueued] using hnow)
  rw [claimedIds, hfilter]
  rfl

theorem claimed_idle (n : ℕ) {now : ℚ} (hnow : 0 ≤ now) :
    (idle n).claimed 0 "a" now [] = ⟨[lease "a" now (expiredJob n)],
      Function.update (fun _ => none) 0 (some ⟨"a", [(expiredJob n).item], .next⟩), n⟩ := by
  have hids : claimedIds now [] (idle n).rows = [0] := claimedIds_expiredJob n hnow
  simp only [Queue.claimed, claimBatch, hids]
  rfl

theorem expired_lease (n : ℕ) (now : ℚ) (workers : ℕ → Option Worker) :
    Queue.expired ⟨[lease "a" now (expiredJob n)], workers, n⟩ (now + 300) =
      ⟨[expiredJob (n + 1)], workers, n + 1⟩ := by
  have hexpired : leaseExpired (now + 300) (lease "a" now (expiredJob n)) = true := by
    simp [leaseExpired, lease, leaseTtl]
  simp only [Queue.expired, resetExpired, update, List.map_cons, List.map_nil, List.any_cons,
    List.any_nil, hexpired, Bool.true_or, if_true]
  rfl

/-- A step of the tally after which no deduction is settled. -/
def Unsettled (t : Tally) (e : Event) (t' : Tally) : Prop :=
  TallyStep t e t' ∧ ∀ r ∈ t'.queue.rows, r.status.isFinal = false

/-- The worker that has begun its call. -/
def calling (n : ℕ) : ℕ → Option Worker :=
  Function.update (Function.update (fun _ => none) 0 (some ⟨"a", [(expiredJob n).item], .next⟩)) 0
    (some ⟨"a", [(expiredJob n).item], .inFlight⟩)

theorem claim_send (n : ℕ) {now : ℚ} (hnow : 0 ≤ now) (claims sends : List (ℕ × ℕ)) :
    Run Unsettled ⟨idle n, claims, sends⟩ [.claim 0 "a" now [], .send 0]
      ⟨⟨[lease "a" now (expiredJob n)], calling n, n⟩, (0, 0) :: claims, (0, 0) :: sends⟩ := by
  have hids : claimedIds now [] (idle n).rows = [0] := claimedIds_expiredJob n hnow
  have hfree : ∀ r ∈ [lease "a" now (expiredJob n)], r.status.isFinal = false := by
    intro r hr
    rw [List.mem_singleton.1 hr]
    rfl
  have hclaim : TallyStep ⟨idle n, claims, sends⟩ (.claim 0 "a" now [])
      ⟨⟨[lease "a" now (expiredJob n)], Function.update (fun _ => none) 0
        (some ⟨"a", [(expiredJob n).item], .next⟩), n⟩, (0, 0) :: claims, sends⟩ := by
    refine ⟨claimed_idle n hnow ▸ .claim rfl, ?_, rfl⟩
    rw [claimsOf, hids]
    rfl
  exact .cons ⟨hclaim, hfree⟩ (.cons ⟨.next (.send rfl), hfree⟩ .nil)

/-- A lease that expires with its worker dead. -/
theorem round (n : ℕ) (claims sends : List (ℕ × ℕ)) :
    ∃ es, Run Unsettled ⟨idle n, claims, sends⟩ es
      ⟨idle (n + 1), (0, 0) :: claims, (0, 0) :: sends⟩ := by
  have hnow : (0 : ℚ) ≤ 300 * n := by positivity
  have hworkers : Function.update (calling n) 0 none = fun _ => none := by
    rw [calling, Function.update_idem, Function.update_idem]
    exact Function.update_eq_self 0 _
  have hfree : ∀ r ∈ [expiredJob (n + 1)], r.status.isFinal = false := by
    intro r hr
    rw [List.mem_singleton.1 hr]
    rfl
  have hfree' : ∀ r ∈ [lease "a" (300 * n) (expiredJob n)], r.status.isFinal = false := by
    intro r hr
    rw [List.mem_singleton.1 hr]
    rfl
  have hcrash : QueueStep ⟨[lease "a" (300 * n) (expiredJob n)], calling n, n⟩ (.crash 0)
      ⟨[lease "a" (300 * n) (expiredJob n)], fun _ => none, n⟩ := hworkers ▸ .crash rfl
  have hexpire : QueueStep ⟨[lease "a" (300 * n) (expiredJob n)], fun _ => none, n⟩
      (.expire (300 * n + 300)) ⟨[expiredJob (n + 1)], fun _ => none, n + 1⟩ :=
    expired_lease n (300 * n) (fun _ => none) ▸ .expire
  exact ⟨_, (claim_send n hnow claims sends).append <| .cons ⟨.next hcrash, hfree'⟩ <|
    .cons ⟨.next hexpire, hfree⟩ .nil⟩

theorem rounds (n : ℕ) : ∃ es, Run Unsettled .start es
    ⟨idle n, List.replicate n (0, 0), List.replicate n (0, 0)⟩ := by
  induction n with
  | zero =>
    have hstep : TallyStep .start (.enqueue job) ⟨idle 0, [], []⟩ :=
      .next (.enqueue fun r hr => List.not_mem_nil hr |>.elim)
    refine ⟨[.enqueue job], .cons ⟨hstep, ?_⟩ .nil⟩
    intro r hr
    rw [List.mem_singleton.1 hr]
    rfl
  | succ n ih =>
    obtain ⟨es, hes⟩ := ih
    obtain ⟨es', hes'⟩ := round n (List.replicate n (0, 0)) (List.replicate n (0, 0))
    exact ⟨es ++ es', hes.append hes'⟩

/-- Five leases expire, and before the monitor's second transaction a worker claims
    the deduction a sixth time. -/
theorem sixth_claim : ∃ es t, Run Unsettled .start es t ∧ maxAttempts < times 0 t.claims ∧
    maxAttempts < times 0 t.sends := by
  obtain ⟨es, hes⟩ := rounds 5
  have hlast := claim_send 5 (by norm_num : (0 : ℚ) ≤ 1500) (List.replicate 5 (0, 0))
    (List.replicate 5 (0, 0))
  exact ⟨_, _, hes.append hlast, by decide, by decide⟩

end Billing

end AimData
