/-
  The deduction queue: rows of a table, the workers that lease them, the lease
  monitor, and the calls that mark a row from outside.

  A step is one transaction, or the beginning or the end of a remote call; any
  number of workers are in flight and each may die between two steps.  A worker
  holds its rows by a lease only, and writes a result back by row id.
-/
import AimData.Lib.Run

namespace AimData

namespace Billing

/-! ## The table -/

def maxAttempts : ℕ := 5
def maxBackoff : ℚ := 300
def leaseTtl : ℚ := 300
def claimBatchSize : ℕ := 10

inductive Status where
  | pending
  | processing
  | completed
  | failedTerminal
  | failedRetryable
  | deadLetter
  deriving DecidableEq, Repr

def Status.isFinal : Status → Bool
  | .completed | .failedTerminal | .deadLetter => true
  | _ => false

/-- A row of `deductions`; times are in seconds. -/
structure Deduction where
  id : ℕ
  userId : String
  idempotencyKey : String
  payload : String
  createdAt : ℚ
  nextRetryAt : ℚ
  attemptCount : ℕ
  lastError : Option String
  status : Status
  workerId : Option String
  leasedAt : Option ℚ
  deriving DecidableEq

/-- `UPDATE deductions SET … WHERE …` -/
def update (condition : Deduction → Bool) (values : Deduction → Deduction)
    (rows : List Deduction) : List Deduction :=
  rows.map fun r => if condition r then values r else r

/-- The row of a deduction that is enqueued. -/
def enqueued (id : ℕ) (now : ℚ) (userId idempotencyKey payload : String) : Deduction where
  id := id
  userId := userId
  idempotencyKey := idempotencyKey
  payload := payload
  createdAt := now
  nextRetryAt := now
  attemptCount := 0
  lastError := none
  status := .pending
  workerId := none
  leasedAt := none

/-- The insert fails on an idempotency key that the table has. -/
def enqueue (row : Deduction) (rows : List Deduction) : List Deduction :=
  if ∃ r ∈ rows, r.idempotencyKey = row.idempotencyKey then rows else rows ++ [row]

/-! ## Claims -/

/-- What a worker takes with it of a row that it claims. -/
structure Item where
  id : ℕ
  payload : String
  attemptCount : ℕ
  idempotencyKey : String
  deriving DecidableEq

def Deduction.item (r : Deduction) : Item := ⟨r.id, r.payload, r.attemptCount, r.idempotencyKey⟩

def byCreation (rows : List Deduction) : List Deduction :=
  rows.insertionSort fun r r' => r.createdAt ≤ r'.createdAt

/-- The rows that a claim selects; it skips those that another transaction locks. -/
def claimedIds (now : ℚ) (locked : List ℕ) (rows : List Deduction) : List ℕ :=
  ((byCreation (rows.filter fun r => r.status = .pending ∧ r.nextRetryAt ≤ now ∧ r.id ∉ locked)).take
    claimBatchSize).map Deduction.id

def lease (workerId : String) (now : ℚ) (r : Deduction) : Deduction :=
  { r with status := .processing, workerId := some workerId, leasedAt := some now }

/-- `_claim_batch` -/
def claimBatch (workerId : String) (now : ℚ) (locked : List ℕ) (rows : List Deduction) :
    List Item × List Deduction :=
  let ids := claimedIds now locked rows
  let rows' := update (fun r => r.id ∈ ids) (lease workerId now) rows
  ((byCreation (rows'.filter fun r => r.id ∈ ids)).map Deduction.item, rows')

/-! ## Results -/

/-- What the remote call gives: an answer and whether its body is JSON, or an exception. -/
inductive Response where
  | answer (statusCode : ℕ) (json : Bool)
  | raised
  deriving DecidableEq

structure SendResult where
  sent : Bool
  retryable : Bool
  statusCode : ℕ
  deriving DecidableEq

/-- `_attempt_send` -/
def attemptSend : Response → SendResult
  | .raised => ⟨false, true, 0⟩
  | .answer statusCode json =>
    if json = false then
      if 500 ≤ statusCode ∧ statusCode < 600 then ⟨false, true, statusCode⟩
      else ⟨false, false, statusCode⟩
    else if statusCode = 200 then ⟨true, false, statusCode⟩
    else if statusCode = 402 then ⟨false, false, statusCode⟩
    else if statusCode ∈ [400, 401, 403, 404] then ⟨false, false, statusCode⟩
    else if 500 ≤ statusCode ∧ statusCode < 600 then ⟨false, true, statusCode⟩
    else ⟨false, false, statusCode⟩

/-- `_calculate_backoff`, for a jitter drawn from `[0, 2 * attempt_count]`. -/
def calculateBackoff (attemptCount : ℕ) (jitter : ℚ) : ℚ :=
  min maxBackoff (5 * 2 ^ attemptCount) + jitter

/-- `f"HTTP {status_code}" if status_code else otherwise` -/
def httpReason (statusCode : ℕ) (otherwise : String) : String :=
  if statusCode ≠ 0 then "HTTP " ++ toString statusCode else otherwise

/-- The status that a result leads to. -/
def SendResult.outcome (result : SendResult) (attemptCount : ℕ) : Status :=
  if result.sent then .completed
  else if ¬ result.retryable then .failedTerminal
  else if attemptCount + 1 ≥ maxAttempts then .deadLetter
  else .failedRetryable

/-- The values that a worker writes for a result. -/
def SendResult.record (result : SendResult) (attemptCount : ℕ) (nextAt : ℚ) (r : Deduction) :
    Deduction :=
  let newAttempt := attemptCount + 1
  if result.sent then { r with status := .completed }
  else if ¬ result.retryable then
    { r with
      status := .failedTerminal
      lastError := some (if result.statusCode = 402 then "insufficient_funds"
        else httpReason result.statusCode "permanent_error") }
  else if newAttempt ≥ maxAttempts then
    { r with
      status := .deadLetter
      attemptCount := newAttempt
      lastError := some ("max_attempts (" ++ toString maxAttempts ++ ")") }
  else
    { r with
      status := .failedRetryable
      attemptCount := newAttempt
      nextRetryAt := nextAt
      lastError := some (httpReason result.statusCode "network_error") }

@[simp] theorem SendResult.record_status (result : SendResult) (attemptCount : ℕ) (nextAt : ℚ)
    (r : Deduction) : (result.record attemptCount nextAt r).status = result.outcome attemptCount := by
  simp only [record, outcome]
  split_ifs <;> rfl

@[simp] theorem SendResult.record_id (result : SendResult) (attemptCount : ℕ) (nextAt : ℚ)
    (r : Deduction) : (result.record attemptCount nextAt r).id = r.id := by
  simp only [record]
  split_ifs <;> rfl

/-! ## The other transactions -/

/-- The end of `process_all_pending`: a retryable failure is pending again. -/
def sweep (now : ℚ) : List Deduction → List Deduction :=
  update (fun r => r.status = .failedRetryable ∧ r.nextRetryAt ≤ now ∧ r.attemptCount < maxAttempts)
    fun r => { r with status := .pending }

def leaseExpired (now : ℚ) (r : Deduction) : Bool :=
  r.status = .processing ∧ r.leasedAt.any (· ≤ now - leaseTtl)

/-- The first transaction of `monitor_expired_leases` -/
def resetExpired (now : ℚ) : List Deduction → List Deduction :=
  update (leaseExpired now) fun r =>
    { r with
      status := .pending
      workerId := none
      leasedAt := none
      attemptCount := r.attemptCount + 1
      lastError := some "lease_expired" }

/-- Its second transaction -/
def bury : List Deduction → List Deduction :=
  update (fun r => r.status = .pending ∧ r.attemptCount ≥ maxAttempts) fun r =>
    { r with status := .deadLetter, lastError := some "max_attempts after lease expiry" }

/-- The rows that `mark_completed` and `mark_failed_terminal` update. -/
def markable (idempotencyKey : String) (r : Deduction) : Bool :=
  r.idempotencyKey = idempotencyKey ∧ (r.status = .pending ∨ r.status = .processing)

def markCompleted (idempotencyKey : String) : List Deduction → List Deduction :=
  update (markable idempotencyKey) fun r => { r with status := .completed }

def markFailedTerminal (idempotencyKey error : String) : List Deduction → List Deduction :=
  update (markable idempotencyKey) fun r =>
    { r with status := .failedTerminal, lastError := some error }

/-! ## Workers -/

/-- Where `process_all_pending` stands with the first of its items: before the
    remote call, in it, or with its result. -/
inductive Pc where
  | next
  | inFlight
  | answered (result : SendResult)
  deriving DecidableEq

structure Worker where
  workerId : String
  items : List Item
  pc : Pc
  deriving DecidableEq

/-- The table, the workers under way, and the monitors between their transactions. -/
structure Queue where
  rows : List Deduction
  workers : ℕ → Option Worker
  burying : ℕ

def Queue.start : Queue := ⟨[], fun _ => none, 0⟩

inductive Event where
  | enqueue (row : Deduction)
  | claim (worker : ℕ) (workerId : String) (now : ℚ) (locked : List ℕ)
  | send (worker : ℕ)
  | answer (worker : ℕ) (response : Response)
  | record (worker : ℕ) (now jitter : ℚ)
  | sweep (worker : ℕ) (now : ℚ)
  | crash (worker : ℕ)
  | expire (now : ℚ)
  | bury
  | monitorCrash
  | markCompleted (idempotencyKey : String)
  | markFailedTerminal (idempotencyKey error : String)
  deriving DecidableEq

namespace Queue

variable (s : Queue)

def setWorker (i : ℕ) (w : Option Worker) : Queue :=
  { s with workers := Function.update s.workers i w }

def setRows (rows : List Deduction) : Queue := { s with rows := rows }

theorem setWorker_self (i : ℕ) (o : Option Worker) : (s.setWorker i o).workers i = o :=
  Function.update_self ..

theorem setWorker_of_ne {i j : ℕ} (h : j ≠ i) (o : Option Worker) :
    (s.setWorker i o).workers j = s.workers j :=
  Function.update_of_ne h ..

/-- A claim; a worker that gets no row returns at once. -/
def claimed (i : ℕ) (workerId : String) (now : ℚ) (locked : List ℕ) : Queue :=
  let batch := claimBatch workerId now locked s.rows
  (s.setRows batch.2).setWorker i
    (if batch.1 = [] then none else some ⟨workerId, batch.1, .next⟩)

/-- The transaction that writes a result, by the row id alone. -/
def recorded (i : ℕ) (workerId : String) (item : Item) (items : List Item) (result : SendResult)
    (now jitter : ℚ) : Queue :=
  let nextAt := now + calculateBackoff (item.attemptCount + 1) jitter
  (s.setRows (update (fun r => r.id = item.id) (result.record item.attemptCount nextAt)
    s.rows)).setWorker i (some ⟨workerId, items, .next⟩)

/-- The first transaction of the monitor; the second follows if rows were reset. -/
def expired (now : ℚ) : Queue :=
  { s with
    rows := resetExpired now s.rows
    burying := if s.rows.any (leaseExpired now) then s.burying + 1 else s.burying }

end Queue

inductive QueueStep : Queue → Event → Queue → Prop
  | enqueue {s : Queue} {id : ℕ} {now : ℚ} {userId key payload : String} :
    (∀ r ∈ s.rows, r.id ≠ id) →
    QueueStep s (.enqueue (enqueued id now userId key payload))
      (s.setRows (Billing.enqueue (enqueued id now userId key payload) s.rows))
  | claim {s : Queue} {i : ℕ} {workerId : String} {now : ℚ} {locked : List ℕ} :
    s.workers i = none →
    QueueStep s (.claim i workerId now locked) (s.claimed i workerId now locked)
  | send {s : Queue} {i : ℕ} {workerId : String} {item : Item} {items : List Item} :
    s.workers i = some ⟨workerId, item :: items, .next⟩ →
    QueueStep s (.send i) (s.setWorker i (some ⟨workerId, item :: items, .inFlight⟩))
  | answer {s : Queue} {i : ℕ} {workerId : String} {items : List Item} {response : Response} :
    s.workers i = some ⟨workerId, items, .inFlight⟩ →
    QueueStep s (.answer i response)
      (s.setWorker i (some ⟨workerId, items, .answered (attemptSend response)⟩))
  | record {s : Queue} {i : ℕ} {workerId : String} {item : Item} {items : List Item}
    {result : SendResult} {now jitter : ℚ} :
    s.workers i = some ⟨workerId, item :: items, .answered result⟩ →
    0 ≤ jitter → jitter ≤ 2 * (item.attemptCount + 1) →
    QueueStep s (.record i now jitter) (s.recorded i workerId item items result now jitter)
  | sweep {s : Queue} {i : ℕ} {workerId : String} {now : ℚ} :
    s.workers i = some ⟨workerId, [], .next⟩ →
    QueueStep s (.sweep i now) ((s.setRows (Billing.sweep now s.rows)).setWorker i none)
  | crash {s : Queue} {i : ℕ} {w : Worker} :
    s.workers i = some w → QueueStep s (.crash i) (s.setWorker i none)
  | expire {s : Queue} {now : ℚ} : QueueStep s (.expire now) (s.expired now)
  | bury {s : Queue} :
    0 < s.burying →
    QueueStep s .bury { s with rows := Billing.bury s.rows, burying := s.burying - 1 }
  | monitorCrash {s : Queue} :
    0 < s.burying → QueueStep s .monitorCrash { s with burying := s.burying - 1 }
  | markCompleted {s : Queue} {key : String} :
    QueueStep s (.markCompleted key) (s.setRows (Billing.markCompleted key s.rows))
  | markFailedTerminal {s : Queue} {key error : String} :
    QueueStep s (.markFailedTerminal key error)
      (s.setRows (Billing.markFailedTerminal key error s.rows))

/-! ## What a final status must be -/

/-- Every row in a final status is still in it. -/
def StatusKept (s s' : Queue) : Prop :=
  ∀ r ∈ s.rows, r.status.isFinal = true → ∃ r' ∈ s'.rows, r'.id = r.id ∧ r'.status = r.status

/-- A worker begins the remote call for a row. -/
def Sends (s : Queue) (e : Event) (r : Deduction) : Prop :=
  ∃ i workerId item items, e = .send i ∧ r ∈ s.rows ∧ r.id = item.id ∧
    s.workers i = some ⟨workerId, item :: items, .next⟩

/-- A worker writes a result to a row. -/
def Records (s : Queue) (e : Event) (outcome : Status) (r : Deduction) : Prop :=
  ∃ i workerId item items result now jitter, e = .record i now jitter ∧ r ∈ s.rows ∧
    r.id = item.id ∧ s.workers i = some ⟨workerId, item :: items, .answered result⟩ ∧
    outcome = result.outcome item.attemptCount

/-- The step leaves final statuses alone, and begins no call for a completed row. -/
def Absorbing (s : Queue) (e : Event) (s' : Queue) : Prop :=
  StatusKept s s' ∧ ∀ r, Sends s e r → r.status ≠ .completed

/-- No worker comes back to a row that is settled: it does not begin the call of a
    completed one, nor write another outcome to a final one. -/
def OnTime (s : Queue) (e : Event) : Prop :=
  (∀ r, Sends s e r → r.status ≠ .completed) ∧
    ∀ outcome r, Records s e outcome r → r.status.isFinal = true → outcome = r.status

/-! ## One step -/

section

variable {condition : Deduction → Bool} {values : Deduction → Deduction} {rows : List Deduction}

theorem mem_update {r : Deduction} :
    r ∈ update condition values rows ↔ ∃ q ∈ rows, (if condition q then values q else q) = r :=
  List.mem_map

theorem update_ids (hid : ∀ r, (values r).id = r.id) :
    (update condition values rows).map Deduction.id = rows.map Deduction.id := by
  rw [update, List.map_map]
  refine List.map_congr_left ?_
  intro r _
  simp only [Function.comp_apply]
  split_ifs
  · exact hid r
  · rfl

/-- An update that spares the rows in a final status keeps them. -/
theorem update_kept (hfree : ∀ r ∈ rows, r.status.isFinal = true → condition r = true →
    (values r).id = r.id ∧ (values r).status = r.status) :
    ∀ r ∈ rows, r.status.isFinal = true →
      ∃ r' ∈ update condition values rows, r'.id = r.id ∧ r'.status = r.status := by
  intro r hr hfinal
  refine ⟨_, mem_update.2 ⟨r, hr, rfl⟩, ?_⟩
  by_cases hcondition : condition r = true
  · rw [if_pos hcondition]
    exact hfree r hr hfinal hcondition
  · rw [if_neg hcondition]
    exact ⟨rfl, rfl⟩

end

/-- The rows are told apart by their ids. -/
def UniqueIds (s : Queue) : Prop := (s.rows.map Deduction.id).Nodup

theorem UniqueIds.eq {s : Queue} (hs : UniqueIds s) {r r' : Deduction} (hr : r ∈ s.rows)
    (hr' : r' ∈ s.rows) (hid : r.id = r'.id) : r = r' :=
  List.inj_on_of_nodup_map hs hr hr' hid

theorem UniqueIds.update {s s' : Queue} (hs : UniqueIds s) {condition : Deduction → Bool}
    {values : Deduction → Deduction} (hrows : s'.rows = update condition values s.rows)
    (hid : ∀ r, (values r).id = r.id) : UniqueIds s' := by
  rw [UniqueIds, hrows, update_ids hid]
  exact hs

theorem uniqueIds_step {s s' : Queue} {e : Event} (hs : UniqueIds s) (hstep : QueueStep s e s') :
    UniqueIds s' := by
  cases hstep with
  | @enqueue id now userId key payload hfresh =>
    show ((enqueue (enqueued id now userId key payload) s.rows).map Deduction.id).Nodup
    rw [enqueue]
    split_ifs
    · exact hs
    · rw [List.map_append]
      refine hs.append (List.nodup_singleton _) ?_
      intro i hi hi'
      obtain ⟨r, hr, rfl⟩ := List.mem_map.1 hi
      exact hfresh r hr (List.mem_singleton.1 hi')
  | claim => exact hs.update rfl fun _ => rfl
  | send => exact hs
  | answer => exact hs
  | record => exact hs.update rfl fun _ => SendResult.record_id _ _ _ _
  | sweep => exact hs.update rfl fun _ => rfl
  | crash => exact hs
  | expire => exact hs.update rfl fun _ => rfl
  | bury => exact hs.update rfl fun _ => rfl
  | monitorCrash => exact hs
  | markCompleted => exact hs.update rfl fun _ => rfl
  | markFailedTerminal => exact hs.update rfl fun _ => rfl

/-- A claim selects pending rows only. -/
theorem pending_of_claimed {now : ℚ} {locked : List ℕ} {rows : List Deduction} {i : ℕ}
    (hi : i ∈ claimedIds now locked rows) : ∃ r ∈ rows, r.id = i ∧ r.status = .pending := by
  obtain ⟨r, hr, rfl⟩ := List.mem_map.1 hi
  have hr := List.mem_of_mem_take hr
  rw [byCreation, List.mem_insertionSort, List.mem_filter] at hr
  simp only [decide_eq_true_eq] at hr
  exact ⟨r, hr.1, rfl, hr.2.1⟩

theorem markable_status {key : String} {r : Deduction} (h : markable key r = true) :
    r.status.isFinal = false := by
  simp only [markable, decide_eq_true_eq] at h
  rcases h.2 with h | h
  · rw [h]
    rfl
  · rw [h]
    rfl

/-- **What can move a final row**: only the result of a worker. -/
theorem statusKept_iff {s s' : Queue} {e : Event} (hs : UniqueIds s) (hstep : QueueStep s e s') :
    StatusKept s s' ↔ ∀ outcome r, Records s e outcome r → r.status.isFinal = true →
      outcome = r.status := by
  constructor
  · rintro hkept outcome r ⟨i, workerId, item, items, result, now, jitter, rfl, hr, hid, hworker,
      rfl⟩ hfinal
    cases hstep with
    | record hworker' =>
      rw [hworker] at hworker'
      cases hworker'
      obtain ⟨r', hr', hid', hstatus⟩ := hkept r hr hfinal
      obtain ⟨q, hq, rfl⟩ := mem_update.1 hr'
      by_cases hcondition : q.id = item.id
      · rw [if_pos (decide_eq_true hcondition), SendResult.record_status] at hstatus
        exact hstatus
      · rw [if_neg (by simpa using hcondition)] at hid'
        exact absurd (hid'.trans hid) hcondition
  · intro hrecords
    have hspared : ∀ {condition : Deduction → Bool} {values : Deduction → Deduction},
        (∀ r, r ∈ s.rows → condition r = true → r.status.isFinal = false) →
        ∀ r ∈ s.rows, r.status.isFinal = true →
          ∃ r' ∈ update condition values s.rows, r'.id = r.id ∧ r'.status = r.status := by
      intro condition values hfree
      refine update_kept ?_
      intro r hr hfinal hcondition
      rw [hfree r hr hcondition] at hfinal
      cases hfinal
    cases hstep with
    | @enqueue id now userId key payload =>
      intro r hr _
      refine ⟨r, ?_, rfl, rfl⟩
      show r ∈ enqueue (enqueued id now userId key payload) s.rows
      rw [enqueue]
      split_ifs
      · exact hr
      · exact List.mem_append_left _ hr
    | claim =>
      refine hspared ?_
      intro r hr hcondition
      obtain ⟨q, hq, hid, hstatus⟩ := pending_of_claimed (of_decide_eq_true hcondition)
      rw [hs.eq hr hq hid.symm, hstatus]
      rfl
    | send => exact fun r hr _ => ⟨r, hr, rfl, rfl⟩
    | answer => exact fun r hr _ => ⟨r, hr, rfl, rfl⟩
    | @record i workerId item items result now jitter hworker =>
      refine update_kept ?_
      intro r hr hfinal hid
      refine ⟨SendResult.record_id _ _ _ _, ?_⟩
      rw [SendResult.record_status]
      exact hrecords _ r ⟨i, workerId, item, items, result, now, jitter, rfl, hr,
        of_decide_eq_true hid, hworker, rfl⟩ hfinal
    | sweep =>
      refine hspared ?_
      intro r _ hcondition
      rw [(of_decide_eq_true hcondition).1]
      rfl
    | crash => exact fun r hr _ => ⟨r, hr, rfl, rfl⟩
    | expire =>
      refine hspared ?_
      intro r _ hcondition
      rw [(of_decide_eq_true hcondition).1]
      rfl
    | bury =>
      refine hspared ?_
      intro r _ hcondition
      rw [(of_decide_eq_true hcondition).1]
      rfl
    | monitorCrash => exact fun r hr _ => ⟨r, hr, rfl, rfl⟩
    | markCompleted => exact hspared fun r _ hcondition => markable_status hcondition
    | markFailedTerminal => exact hspared fun r _ hcondition => markable_status hcondition

theorem absorbing_iff {s s' : Queue} {e : Event} (hs : UniqueIds s) (hstep : QueueStep s e s') :
    Absorbing s e s' ↔ OnTime s e := by
  rw [Absorbing, statusKept_iff hs hstep, OnTime, and_comm]

/-! ## Leases that are not disturbed -/

/-- The row is on the list of a worker under way. -/
def HeldRow (s : Queue) (r : Deduction) : Prop :=
  ∃ i w, s.workers i = some w ∧ ∃ item ∈ w.items, item.id = r.id

/-- Nothing takes a row from a worker that still has it on its list: its lease does
    not expire, and it is not marked from outside. -/
def Undisturbed (s : Queue) (e : Event) : Prop :=
  ∀ r ∈ s.rows, HeldRow s r →
    (∀ now, e = .expire now → leaseExpired now r = false) ∧
    (∀ key, e = .markCompleted key → r.idempotencyKey ≠ key) ∧
    ∀ key error, e = .markFailedTerminal key error → r.idempotencyKey ≠ key

/-- The rows on the lists of the workers are leased, each on one list and once. -/
structure Held (s : Queue) : Prop where
  leased : ∀ i w, s.workers i = some w → ∀ item ∈ w.items,
    ∃ r ∈ s.rows, r.id = item.id ∧ r.status = .processing
  once : ∀ i w, s.workers i = some w → (w.items.map Item.id).Nodup
  apart : ∀ i j w w', s.workers i = some w → s.workers j = some w' → i ≠ j →
    ∀ item ∈ w.items, ∀ item' ∈ w'.items, item.id ≠ item'.id

theorem Held.setRows {s : Queue} (h : Held s) {rows : List Deduction}
    (hrows : ∀ r ∈ s.rows, HeldRow s r → r.status = .processing →
      ∃ r' ∈ rows, r'.id = r.id ∧ r'.status = .processing) : Held (s.setRows rows) := by
  refine ⟨?_, h.once, h.apart⟩
  intro i w hw item hitem
  obtain ⟨r, hr, hid, hstatus⟩ := h.leased i w hw item hitem
  obtain ⟨r', hr', hid', hstatus'⟩ := hrows r hr ⟨i, w, hw, item, hitem, hid.symm⟩ hstatus
  exact ⟨r', hr', hid'.trans hid, hstatus'⟩

/-- An update that spares the held rows. -/
theorem Held.update {s : Queue} (h : Held s) {condition : Deduction → Bool}
    {values : Deduction → Deduction} (hspared : ∀ r ∈ s.rows, HeldRow s r →
      r.status = .processing → condition r = false) :
    Held (s.setRows (update condition values s.rows)) := by
  refine h.setRows ?_
  intro r hr hheld hstatus
  refine ⟨r, mem_update.2 ⟨r, hr, ?_⟩, rfl, hstatus⟩
  rw [hspared r hr hheld hstatus]
  rfl

/-- A worker that goes on has nothing new on its list. -/
theorem Held.setWorker {s : Queue} (h : Held s) {i : ℕ} {w : Worker} {o : Option Worker}
    (hw : s.workers i = some w) (ho : ∀ w', o = some w' → List.Sublist w'.items w.items) :
    Held (s.setWorker i o) := by
  have hfrom : ∀ j w', (s.setWorker i o).workers j = some w' →
      ∃ w'', s.workers j = some w'' ∧ List.Sublist w'.items w''.items := by
    intro j w' hw'
    by_cases hj : j = i
    · subst hj
      rw [Queue.setWorker_self] at hw'
      exact ⟨w, hw, ho w' hw'⟩
    · rw [Queue.setWorker_of_ne _ hj] at hw'
      exact ⟨w', hw', .refl _⟩
  refine ⟨?_, ?_, ?_⟩
  · intro j w' hw' item hitem
    obtain ⟨w'', hw'', hsub⟩ := hfrom j w' hw'
    exact h.leased j w'' hw'' item (hsub.subset hitem)
  · intro j w' hw'
    obtain ⟨w'', hw'', hsub⟩ := hfrom j w' hw'
    exact (h.once j w'' hw'').sublist (hsub.map _)
  · intro j k w₁ w₂ hw₁ hw₂ hjk item hitem item' hitem'
    obtain ⟨w₁', hw₁', hsub₁⟩ := hfrom j w₁ hw₁
    obtain ⟨w₂', hw₂', hsub₂⟩ := hfrom k w₂ hw₂
    exact h.apart j k w₁' w₂' hw₁' hw₂' hjk item (hsub₁.subset hitem) item' (hsub₂.subset hitem')

/-- The items of a claim are those of its rows. -/
theorem mem_claimBatch {workerId : String} {now : ℚ} {locked : List ℕ} {rows : List Deduction}
    {item : Item} (hitem : item ∈ (claimBatch workerId now locked rows).1) :
    item.id ∈ claimedIds now locked rows ∧
      ∃ r ∈ (claimBatch workerId now locked rows).2, r.id = item.id ∧ r.status = .processing := by
  obtain ⟨r, hr, rfl⟩ := List.mem_map.1 hitem
  rw [byCreation, List.mem_insertionSort, List.mem_filter] at hr
  obtain ⟨hr, hid⟩ := hr
  refine ⟨of_decide_eq_true hid, r, hr, rfl, ?_⟩
  obtain ⟨q, hq, rfl⟩ := mem_update.1 hr
  by_cases hclaimed : decide (q.id ∈ claimedIds now locked rows) = true
  · rw [if_pos hclaimed]
    rfl
  · rw [if_neg hclaimed] at hid
    exact absurd hid hclaimed

theorem claimBatch_once {s : Queue} (hs : UniqueIds s) (workerId : String) (now : ℚ)
    (locked : List ℕ) :
    ((claimBatch workerId now locked s.rows).1.map Item.id).Nodup := by
  have hrows : UniqueIds (s.setRows (claimBatch workerId now locked s.rows).2) :=
    hs.update rfl fun _ => rfl
  rw [claimBatch, List.map_map]
  refine ((List.perm_insertionSort _ _).map Deduction.id).nodup_iff.2 ?_
  exact List.Nodup.sublist (List.filter_sublist.map _) hrows

/-- **A claim** leases its rows, which no worker had. -/
theorem Held.claimed {s : Queue} (hs : UniqueIds s) (h : Held s) {i : ℕ} (workerId : String)
    (now : ℚ) (locked : List ℕ) (hi : s.workers i = none) :
    Held (s.claimed i workerId now locked) := by
  have hnew : ∀ item ∈ (claimBatch workerId now locked s.rows).1, ∀ j w, s.workers j = some w →
      ∀ item' ∈ w.items, item.id ≠ item'.id := by
    intro item hitem j w hw item' hitem' hid
    obtain ⟨q, hq, hqid, hpending⟩ := pending_of_claimed (mem_claimBatch hitem).1
    obtain ⟨r, hr, hrid, hprocessing⟩ := h.leased j w hw item' hitem'
    rw [hs.eq hq hr (hqid.trans (hid.trans hrid.symm)), hprocessing] at hpending
    cases hpending
  have hrows : Held (s.setRows (claimBatch workerId now locked s.rows).2) := by
    refine h.update ?_
    intro r hr _ hprocessing
    refine decide_eq_false ?_
    intro hclaimed
    obtain ⟨q, hq, hqid, hpending⟩ := pending_of_claimed hclaimed
    rw [hs.eq hq hr hqid, hprocessing] at hpending
    cases hpending
  have hworker : ∀ j w, (s.claimed i workerId now locked).workers j = some w →
      (j = i ∧ w.items = (claimBatch workerId now locked s.rows).1) ∨
        (j ≠ i ∧ s.workers j = some w) := by
    intro j w hw
    by_cases hj : j = i
    · subst hj
      rw [Queue.claimed, Queue.setWorker_self] at hw
      split_ifs at hw
      cases hw
      exact Or.inl ⟨rfl, rfl⟩
    · rw [Queue.claimed, Queue.setWorker_of_ne _ hj] at hw
      exact Or.inr ⟨hj, hw⟩
  refine ⟨?_, ?_, ?_⟩
  · intro j w hw item hitem
    rcases hworker j w hw with ⟨-, hitems⟩ | ⟨-, hw⟩
    · exact (mem_claimBatch (hitems ▸ hitem)).2
    · exact hrows.leased j w hw item hitem
  · intro j w hw
    rcases hworker j w hw with ⟨-, hitems⟩ | ⟨-, hw⟩
    · rw [hitems]
      exact claimBatch_once hs workerId now locked
    · exact h.once j w hw
  · intro j k w w' hw hw' hjk item hitem item' hitem'
    rcases hworker j w hw with ⟨rfl, hitems⟩ | ⟨-, hw⟩
    · rcases hworker k w' hw' with ⟨rfl, -⟩ | ⟨-, hw'⟩
      · exact absurd rfl hjk
      · exact hnew item (hitems ▸ hitem) k w' hw' item' hitem'
    · rcases hworker k w' hw' with ⟨-, hitems'⟩ | ⟨-, hw'⟩
      · exact (hnew item' (hitems' ▸ hitem') j w hw item hitem).symm
      · exact h.apart j k w w' hw hw' hjk item hitem item' hitem'

/-- **A step that disturbs no lease** keeps them. -/
theorem held_step {s s' : Queue} {e : Event} (hs : UniqueIds s) (h : Held s)
    (hstep : QueueStep s e s') (he : Undisturbed s e) : Held s' := by
  cases hstep with
  | @enqueue id now userId key payload =>
    refine h.setRows ?_
    intro r hr _ hstatus
    refine ⟨r, ?_, rfl, hstatus⟩
    rw [enqueue]
    split_ifs
    · exact hr
    · exact List.mem_append_left _ hr
  | @claim i workerId now locked hi => exact h.claimed hs workerId now locked hi
  | send hworker =>
    refine h.setWorker hworker ?_
    rintro w' ⟨⟩
    exact .refl _
  | answer hworker =>
    refine h.setWorker hworker ?_
    rintro w' ⟨⟩
    exact .refl _
  | @record i workerId item items result now jitter hworker =>
    have htail : Held (s.setWorker i (some ⟨workerId, items, .next⟩)) := by
      refine h.setWorker hworker ?_
      rintro w' ⟨⟩
      exact List.sublist_cons_self item items
    refine htail.update ?_
    rintro r hr ⟨j, w, hw, item', hitem', hid⟩ hstatus
    refine decide_eq_false ?_
    intro hrid
    by_cases hj : j = i
    · subst hj
      rw [Queue.setWorker_self] at hw
      cases hw
      have honce := h.once j _ hworker
      rw [List.map_cons, List.nodup_cons] at honce
      exact honce.1 (List.mem_map.2 ⟨item', hitem', hid.trans hrid⟩)
    · rw [Queue.setWorker_of_ne _ hj] at hw
      exact h.apart j i w _ hw hworker hj item' hitem' item List.mem_cons_self (hid.trans hrid)
  | @sweep i workerId now hworker =>
    have hrows : Held (s.setRows (sweep now s.rows)) := by
      refine h.update ?_
      intro r _ _ hstatus
      refine decide_eq_false ?_
      rw [hstatus]
      rintro ⟨⟨⟩, -⟩
    refine hrows.setWorker hworker ?_
    rintro w' ⟨⟩
  | crash hworker =>
    refine h.setWorker hworker ?_
    rintro w' ⟨⟩
  | @expire now =>
    have hrows : Held (s.setRows (resetExpired now s.rows)) :=
      h.update fun r hr hheld _ => (he r hr hheld).1 now rfl
    exact ⟨hrows.leased, hrows.once, hrows.apart⟩
  | bury =>
    have hrows : Held (s.setRows (bury s.rows)) := by
      refine h.update ?_
      intro r _ _ hstatus
      refine decide_eq_false ?_
      rw [hstatus]
      rintro ⟨⟨⟩, -⟩
    exact ⟨hrows.leased, hrows.once, hrows.apart⟩
  | monitorCrash => exact ⟨h.leased, h.once, h.apart⟩
  | @markCompleted key =>
    refine h.update ?_
    intro r hr hheld _
    exact decide_eq_false fun hmark => (he r hr hheld).2.1 key rfl hmark.1
  | @markFailedTerminal key error =>
    refine h.update ?_
    intro r hr hheld _
    exact decide_eq_false fun hmark => (he r hr hheld).2.2 key error rfl hmark.1

/-- A worker with a lease is never late. -/
theorem Held.onTime {s : Queue} (hs : UniqueIds s) (h : Held s) (e : Event) : OnTime s e := by
  constructor
  · rintro r ⟨i, workerId, item, items, -, hr, hid, hworker⟩ hcompleted
    obtain ⟨q, hq, hqid, hstatus⟩ := h.leased i _ hworker item List.mem_cons_self
    rw [hs.eq hr hq (hid.trans hqid.symm), hstatus] at hcompleted
    cases hcompleted
  · rintro outcome r ⟨i, workerId, item, items, result, now, jitter, -, hr, hid, hworker, -⟩ hfinal
    obtain ⟨q, hq, hqid, hstatus⟩ := h.leased i _ hworker item List.mem_cons_self
    rw [hs.eq hr hq (hid.trans hqid.symm), hstatus] at hfinal
    cases hfinal

/-! ## Whole runs -/

theorem uniqueIds_start : UniqueIds .start := List.nodup_nil

theorem held_start : Held .start :=
  ⟨fun _ _ h => (by cases h), fun _ _ h => (by cases h), fun _ _ _ _ h => (by cases h)⟩

/-- **Final statuses are final** in a run exactly if no worker of it comes back to a
    settled row; and none does where no lease is disturbed. -/
theorem deductions_absorbing_iff (es : List Event) (s : Queue) :
    (Run (fun s e s' => QueueStep s e s' ∧ Absorbing s e s') .start es s ↔
      Run (fun s e s' => QueueStep s e s' ∧ OnTime s e) .start es s) ∧
    (Run (fun s e s' => QueueStep s e s' ∧ Undisturbed s e) .start es s →
      Run (fun s e s' => QueueStep s e s' ∧ Absorbing s e s') .start es s) := by
  constructor
  · exact Run.restrict_iff (I := UniqueIds) uniqueIds_step absorbing_iff uniqueIds_start
  · intro h
    refine Run.mono (I := fun s => UniqueIds s ∧ Held s) ?_ h ⟨uniqueIds_start, held_start⟩
    rintro s e s' ⟨hs, hheld⟩ ⟨hstep, he⟩
    exact ⟨⟨uniqueIds_step hs hstep, held_step hs hheld hstep he⟩, hstep,
      (absorbing_iff hs hstep).2 (hheld.onTime hs e)⟩

/-! ### A completed deduction that is queued again -/

def job : Deduction := enqueued 0 0 "u" "k" "payload"

/-- The job after its lease expired. -/
def requeued : Deduction := { job with attemptCount := 1, lastError := some "lease_expired" }

/-- The first worker waits for its answer. -/
def waiting : ℕ → Option Worker :=
  Function.update (Function.update (fun _ => none) 0 (some ⟨"a", [job.item], .next⟩)) 0
    (some ⟨"a", [job.item], .inFlight⟩)

theorem expired_waiting :
    QueueStep ⟨[lease "a" 0 job], waiting, 0⟩ (.expire 300) ⟨[requeued], waiting, 1⟩ := by
  have hrows : resetExpired 300 [lease "a" 0 job] = [requeued] := by decide +kernel
  have hany : [lease "a" 0 job].any (leaseExpired 300) = true := by decide +kernel
  have hexpired : Queue.expired ⟨[lease "a" 0 job], waiting, 0⟩ 300 = ⟨[requeued], waiting, 1⟩ := by
    rw [Queue.expired, hrows, if_pos hany]
  exact hexpired ▸ .expire

/-- A worker is slow, its lease expires, and another completes the deduction; then the
    answer of the first makes it one to retry. -/
theorem lateAnswer_leaves : ∃ es s e s', Run QueueStep .start es s ∧ QueueStep s e s' ∧
    ¬ Absorbing s e s' := by
  have hfirst : Run QueueStep .start [.enqueue job, .claim 0 "a" 0 [], .send 0]
      ⟨[lease "a" 0 job], waiting, 0⟩ :=
    .cons (.enqueue fun r hr => by cases hr) <| .cons (.claim rfl) <| .cons (.send rfl) .nil
  have hsecond := hfirst.append <| .cons expired_waiting <|
    .cons (.claim rfl : QueueStep _ (.claim 1 "b" 300 []) _) <|
    .cons (.send rfl : QueueStep _ (.send 1) _) <|
    .cons (.answer rfl : QueueStep _ (.answer 1 (.answer 200 true)) _) <|
    .cons (.record rfl le_rfl (by positivity) : QueueStep _ (.record 1 300 0) _) <|
    .cons (.answer rfl : QueueStep _ (.answer 0 (.answer 503 true)) _) .nil
  refine ⟨_, _, .record 0 300 0, _, hsecond, .record rfl le_rfl (by positivity), ?_⟩
  rintro ⟨hkept, -⟩
  obtain ⟨r, hr, -, hstatus⟩ := hkept _ List.mem_cons_self rfl
  cases List.mem_singleton.1 hr
  cases hstatus

end Billing

end AimData
