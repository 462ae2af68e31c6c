/-
  The metering of Co-Pilot messages: what an interaction costs, the row that it puts in the
  deduction queue, and the requests that are sent for it, by the interaction itself and by the
  workers of the queue.

  The idempotency key of a row is made from identifiers, one of which the client gives.  An
  interaction whose key the table has gets no row, and sends its own amount under that key
  nevertheless (`resend_diverges`); where the keys are apart, each interaction is charged once
  and for its own tokens (`exactlyOnce_iff`).
-/
import AimData.Billing.DeductionQueue
import AimData.Preview.Publication

namespace AimData

namespace Metering

open Billing

/-! ## What an interaction costs -/

/-- The settings of the service.  `customerCents` is `math.ceil(wholesale_cents * rate)`, in
    floats; the rate is written as `repr` does. -/
structure Config where
  authEnabled : Bool
  minCostCents : ℤ
  markupRate : String
  markupRate_float : Json.floatText markupRate = true
  customerCents : ℤ → ℤ → ℤ

structure Usage where
  inputTokens : ℤ
  outputTokens : ℤ
  model : String
  deriving DecidableEq

def calculateCostCents (config : Config) (inputTokens outputTokens : ℤ) : Except Raised ℤ :=
  if inputTokens < 0 ∨ outputTokens < 0 then
    raise "ValueError" ("Token counts must be non-negative: input_tokens=" ++
      toString inputTokens ++ ", output_tokens=" ++ toString outputTokens)
  else
    let customerCents := config.customerCents inputTokens outputTokens
    if (0 < inputTokens ∨ 0 < outputTokens) ∧ customerCents < config.minCostCents then
      .ok config.minCostCents
    else .ok customerCents

/-! ## What it puts in the queue -/

/-- What a key is made from. -/
def rawKey (userId sessionId : String) (messageId : Option String) (tsMs : ℕ) : String :=
  userId ++ "|" ++ sessionId ++ "|" ++
    match messageId with
    | some messageId => if messageId ≠ "" then messageId else toString tsMs
    | none => toString tsMs

/-- `hashlib.sha256(raw.encode()).hexdigest()[:32]` -/
@[irreducible] def keyDigest (raw : String) : String :=
  String.ofList ((hex (sha256 (Utf8.encode raw.toList)).1).toList.take 32)

def makeIdempotencyKey (userId sessionId : String) (messageId : Option String) (tsMs : ℕ) :
    String :=
  "deduct:v1:" ++ keyDigest (rawKey userId sessionId messageId tsMs)

/-- A call of `report_usage` that gets to its key. -/
structure Interaction where
  userId : String
  sessionId : String
  messageId : String
  tsMs : ℕ
  usage : Usage
  costCents : ℤ
  deriving DecidableEq

def Interaction.idempotencyKey (m : Interaction) : String :=
  makeIdempotencyKey m.userId m.sessionId (some m.messageId) m.tsMs

def Interaction.payload (config : Config) (m : Interaction) : Json :=
  .obj [("user_id", .str m.userId), ("amount_cents", .int m.costCents), ("service", .str "copilot"),
    ("tokens_in", .int m.usage.inputTokens), ("tokens_out", .int m.usage.outputTokens),
    ("model", .str m.usage.model), ("markup_rate", .float config.markupRate),
    ("idempotency_key", .str m.idempotencyKey)]

/-- What a row says about the interaction it is for. -/
structure Charge where
  userId : String
  idempotencyKey : String
  payload : String
  deriving DecidableEq

/-- The payload's text is that of `json.dumps` but for the blanks and the escapes in it. -/
def Interaction.charge (config : Config) (m : Interaction) : Charge :=
  ⟨m.userId, m.idempotencyKey, String.ofList (m.payload config).dumps⟩

def charge (r : Deduction) : Charge := ⟨r.userId, r.idempotencyKey, r.payload⟩

/-! ## Interactions and workers -/

/-- Where the task of a message stands: in the call of the provider, between its return and the
    `finally` block, and there before the request, in it, and with its result.  `readable` says
    that a balance can be read off the answer. -/
inductive Phase where
  | calling
  | returned (usage : Option Usage)
  | enqueued (m : Interaction)
  | sent (m : Interaction)
  | replied (m : Interaction) (result : SendResult) (readable : Bool)
  deriving DecidableEq

/-- `_brain_stream_task` -/
structure Task where
  userId : String
  messageId : String
  phase : Phase
  deriving DecidableEq

/-- A request to the billing service, with the `Idempotency-Key` of its header. -/
structure Request where
  idempotencyKey : String
  body : Json

/-- The table and its workers, the users of the sessions, their tasks under way, the interactions
    that were metered at a cost, and the requests that were sent. -/
structure World where
  queue : Queue
  users : String → Option String
  tasks : String → Option Task
  metered : List Interaction
  requests : List Request

def World.start : World := ⟨.start, fun _ => none, fun _ => none, [], []⟩

def World.setTask (w : World) (sessionId : String) (task : Option Task) : World :=
  { w with tasks := Function.update w.tasks sessionId task }

theorem World.setTask_self (w : World) (sessionId : String) (o : Option Task) :
    (w.setTask sessionId o).tasks sessionId = o :=
  Function.update_self ..

theorem World.setTask_of_ne (w : World) {sessionId sessionId' : String}
    (h : sessionId' ≠ sessionId) (o : Option Task) :
    (w.setTask sessionId o).tasks sessionId' = w.tasks sessionId' :=
  Function.update_of_ne h ..

def World.setPhase (w : World) (sessionId : String) (task : Task) (phase : Phase) : World :=
  w.setTask sessionId (some { task with phase := phase })

/-- The steps that the workers and the monitor of the queue make. -/
def ofWorkers : Billing.Event → Prop
  | .enqueue _ | .markCompleted _ | .markFailedTerminal _ _ => False
  | _ => True

/-- The request that a worker begins. -/
def sentBy (queue : Queue) : Billing.Event → List Request
  | .send i =>
    match queue.workers i with
    | some ⟨_, item :: _, _⟩ =>
      (Json.parse item.payload.toList).toList.map (Request.mk item.idempotencyKey)
    | _ => []
  | _ => []

/-- How `report_usage` marks the row. -/
def verdict (idempotencyKey : String) (result : SendResult) (readable : Bool) :
    Option Billing.Event :=
  if result.sent then if readable then some (.markCompleted idempotencyKey) else none
  else if result.statusCode = 402 then
    some (.markFailedTerminal idempotencyKey "insufficient_funds")
  else if result.statusCode ∈ [400, 401, 403, 404] then
    some (.markFailedTerminal idempotencyKey ("HTTP " ++ toString result.statusCode))
  else none

inductive Event where
  | connect (sessionId userId : String)
  | disconnect (sessionId : String)
  /-- The client's message identifier is empty where it gives none. -/
  | message (sessionId messageId fresh : String)
  | usage (sessionId : String) (usage : Option Usage)
  /-- The task is cancelled, or the provider's call raises. -/
  | stop (sessionId : String)
  | report (sessionId : String) (tsMs : ℕ) (id : ℕ) (now : ℚ)
  | deduct (sessionId : String)
  | reply (sessionId : String) (response : Response) (readable : Bool)
  | mark (sessionId : String)
  | worker (e : Billing.Event)

/-- `message_id or f"msg_{uuid.uuid4().hex[:12]}"` -/
def messageIdOr (messageId fresh : String) : String :=
  if messageId ≠ "" then messageId else "msg_" ++ fresh

/-- The `finally` block of a task without usage, or with usage that costs nothing. -/
def Free (config : Config) : Option Usage → Prop
  | none => True
  | some usage => config.authEnabled = false ∨
    ∀ costCents, calculateCostCents config usage.inputTokens usage.outputTokens = .ok costCents →
      costCents = 0

inductive Step (config : Config) : World → Event → World → Prop
  | connect {w : World} {sessionId userId : String} :
    w.users sessionId = none → w.tasks sessionId = none →
    Step config w (.connect sessionId userId)
      { w with users := Function.update w.users sessionId (some userId) }
  | disconnect {w : World} {sessionId : String} :
    Step config w (.disconnect sessionId)
      { w with users := Function.update w.users sessionId none }
  | message {w : World} {sessionId messageId fresh userId : String} :
    w.users sessionId = some userId → w.tasks sessionId = none →
    Step config w (.message sessionId messageId fresh)
      (w.setTask sessionId (some ⟨userId, messageIdOr messageId fresh, .calling⟩))
  | usage {w : World} {sessionId : String} {usage : Option Usage} {task : Task} :
    w.tasks sessionId = some task → task.phase = .calling →
    Step config w (.usage sessionId usage) (w.setPhase sessionId task (.returned usage))
  | stopCalling {w : World} {sessionId : String} {task : Task} :
    w.tasks sessionId = some task → task.phase = .calling →
    Step config w (.stop sessionId) (w.setTask sessionId none)
  /-- The `finally` block is still to come. -/
  | stopReturned {w : World} {sessionId : String} {usage : Option Usage} {task : Task} :
    w.tasks sessionId = some task → task.phase = .returned usage →
    Step config w (.stop sessionId) w
  /-- The `finally` block is left where it waits for the answer. -/
  | stopReport {w : World} {sessionId : String} {task : Task} :
    w.tasks sessionId = some task → task.phase ≠ .calling →
    (∀ usage, task.phase ≠ .returned usage) →
    Step config w (.stop sessionId) (w.setTask sessionId none)
  | free {w : World} {sessionId : String} {tsMs id : ℕ} {now : ℚ} {usage : Option Usage}
    {task : Task} :
    w.tasks sessionId = some task → task.phase = .returned usage → Free config usage →
    Step config w (.report sessionId tsMs id now) (w.setTask sessionId none)
  | report {w : World} {sessionId : String} {tsMs id : ℕ} {now : ℚ} {usage : Usage} {task : Task}
    {costCents : ℤ} {m : Interaction} {queue : Queue} :
    w.tasks sessionId = some task → task.phase = .returned (some usage) →
    config.authEnabled = true →
    calculateCostCents config usage.inputTokens usage.outputTokens = .ok costCents →
    costCents ≠ 0 →
    m = ⟨task.userId, sessionId, task.messageId, tsMs, usage, costCents⟩ →
    QueueStep w.queue (.enqueue (enqueued id now m.userId m.idempotencyKey
      (m.charge config).payload)) queue →
    Step config w (.report sessionId tsMs id now)
      { w.setPhase sessionId task (.enqueued m) with
        queue := queue
        metered := w.metered ++ [m] }
  | deduct {w : World} {sessionId : String} {task : Task} {m : Interaction} :
    w.tasks sessionId = some task → task.phase = .enqueued m →
    Step config w (.deduct sessionId)
      { w.setPhase sessionId task (.sent m) with
        requests := w.requests ++ [⟨m.idempotencyKey, m.payload config⟩] }
  | reply {w : World} {sessionId : String} {task : Task} {m : Interaction} {response : Response}
    {readable : Bool} :
    w.tasks sessionId = some task → task.phase = .sent m →
    Step config w (.reply sessionId response readable)
      (w.setPhase sessionId task (.replied m (attemptSend response) readable))
  | mark {w : World} {sessionId : String} {task : Task} {m : Interaction} {result : SendResult}
    {readable : Bool} {e : Billing.Event} {queue : Queue} :
    w.tasks sessionId = some task → task.phase = .replied m result readable →
    verdict m.idempotencyKey result readable = some e → QueueStep w.queue e queue →
    Step config w (.mark sessionId) { w.setTask sessionId none with queue := queue }
  | unmarked {w : World} {sessionId : String} {task : Task} {m : Interaction} {result : SendResult}
    {readable : Bool} :
    w.tasks sessionId = some task → task.phase = .replied m result readable →
    verdict m.idempotencyKey result readable = none →
    Step config w (.mark sessionId) (w.setTask sessionId none)
  | worker {w : World} {e : Billing.Event} {queue : Queue} :
    ofWorkers e → QueueStep w.queue e queue →
    Step config w (.worker e)
      { w with queue := queue, requests := w.requests ++ sentBy w.queue e }

/-! ## What exactly-once is -/

/-- Each metered interaction has a row of its own, with its amount and its token counts, and the
    rows are those. -/
def ExactlyOnce (config : Config) (w : World) : Prop :=
  w.queue.rows.map charge = w.metered.map (Interaction.charge config)

/-- The requests under one key have one payload. -/
def OnePayload (w : World) : Prop :=
  ∀ q ∈ w.requests, ∀ q' ∈ w.requests, q.idempotencyKey = q'.idempotencyKey → q.body = q'.body

/-! ## The table -/

section

variable {s s' : Queue} {e : Billing.Event}

theorem update_charges {condition : Deduction → Bool} {values : Deduction → Deduction}
    (rows : List Deduction) (hvalues : ∀ r, charge (values r) = charge r) :
    (update condition values rows).map charge = rows.map charge := by
  rw [update, List.map_map]
  refine List.map_congr_left ?_
  intro r _
  simp only [Function.comp_apply]
  split_ifs
  · exact hvalues r
  · rfl

theorem charge_record (result : SendResult) (attemptCount : ℕ) (nextAt : ℚ) (r : Deduction) :
    charge (result.record attemptCount nextAt r) = charge r := by
  simp only [SendResult.record]
  split_ifs <;> rfl

/-- Nothing but an enqueue changes what the rows say. -/
theorem charges_step (h : QueueStep s e s') (he : ∀ row, e ≠ .enqueue row) :
    s'.rows.map charge = s.rows.map charge := by
  cases h with
  | enqueue => exact absurd rfl (he _)
  | claim => exact update_charges _ fun _ => rfl
  | send => rfl
  | answer => rfl
  | record => exact update_charges _ fun _ => charge_record _ _ _ _
  | sweep => exact update_charges _ fun _ => rfl
  | crash => rfl
  | expire => exact update_charges _ fun _ => rfl
  | bury => exact update_charges _ fun _ => rfl
  | monitorCrash => rfl
  | markCompleted => exact update_charges _ fun _ => rfl
  | markFailedTerminal => exact update_charges _ fun _ => rfl

/-- What the workers have on their lists are rows of the table. -/
def ItemsCharged (s : Queue) : Prop :=
  ∀ i w, s.workers i = some w → ∀ item ∈ w.items,
    ∃ userId, ⟨userId, item.idempotencyKey, item.payload⟩ ∈ s.rows.map charge

theorem ItemsCharged.mono (hs : ItemsCharged s) (hrows : s.rows.map charge ⊆ s'.rows.map charge)
    (hworkers : ∀ i w', s'.workers i = some w' → ∀ item ∈ w'.items,
      ∃ j w, s.workers j = some w ∧ item ∈ w.items) : ItemsCharged s' := by
  intro i w' hw' item hitem
  obtain ⟨j, w, hw, hmem⟩ := hworkers i w' hw' item hitem
  obtain ⟨userId, hcharge⟩ := hs j w hw item hmem
  exact ⟨userId, hrows hcharge⟩

/-- A worker that goes on has nothing new on its list. -/
theorem items_setWorker {i : ℕ} {w : Worker} {o : Option Worker} (hw : s.workers i = some w)
    (ho : ∀ w', o = some w' → w'.items ⊆ w.items) :
    ∀ j w', (s.setWorker i o).workers j = some w' → ∀ item ∈ w'.items,
      ∃ k w, s.workers k = some w ∧ item ∈ w.items := by
  intro j w' hw' item hitem
  by_cases hj : j = i
  · subst hj
    rw [Queue.setWorker_self] at hw'
    exact ⟨j, w, hw, ho w' hw' hitem⟩
  · rw [Queue.setWorker_of_ne _ hj] at hw'
    exact ⟨j, w', hw', hitem⟩

/-- A claim takes its items from the rows. -/
theorem ItemsCharged.claimed (hs : ItemsCharged s) (i : ℕ) (workerId : String) (now : ℚ)
    (locked : List ℕ) : ItemsCharged (s.claimed i workerId now locked) := by
  have hrows : (s.claimed i workerId now locked).rows.map charge = s.rows.map charge :=
    update_charges _ fun _ => rfl
  intro j w hw item hitem
  by_cases hj : j = i
  · subst hj
    rw [Queue.claimed, Queue.setWorker_self] at hw
    split_ifs at hw
    cases hw
    obtain ⟨r, hr, rfl⟩ := List.mem_map.1 hitem
    rw [byCreation, List.mem_insertionSort, List.mem_filter] at hr
    exact ⟨r.userId, List.mem_map.2 ⟨r, hr.1, rfl⟩⟩
  · rw [Queue.claimed, Queue.setWorker_of_ne _ hj] at hw
    rw [hrows]
    exact hs j w hw item hitem

theorem itemsCharged_step (hs : ItemsCharged s) (h : QueueStep s e s') : ItemsCharged s' := by
  have hsame : ∀ i w, s.workers i = some w → ∀ item ∈ w.items,
      ∃ j w, s.workers j = some w ∧ item ∈ w.items := fun i w hw item hitem => ⟨i, w, hw, hitem⟩
  by_cases he : ∃ row, e = .enqueue row
  · obtain ⟨row, rfl⟩ := he
    cases h with
    | @enqueue id now userId key payload hfresh =>
      refine hs.mono ?_ hsame
      show s.rows.map charge ⊆ (enqueue (enqueued id now userId key payload) s.rows).map charge
      rw [enqueue]
      split_ifs
      · exact fun _ hmem => hmem
      · rw [List.map_append]
        exact List.subset_append_left _ _
  have hrows : s.rows.map charge ⊆ s'.rows.map charge := by
    rw [charges_step h fun row hrow => he ⟨row, hrow⟩]
    exact fun _ hmem => hmem
  cases h with
  | enqueue => exact absurd ⟨_, rfl⟩ he
  | claim => exact hs.claimed _ _ _ _
  | send hworker =>
    refine hs.mono hrows (items_setWorker hworker ?_)
    rintro w' ⟨⟩
    exact fun _ hmem => hmem
  | answer hworker =>
    refine hs.mono hrows (items_setWorker hworker ?_)
    rintro w' ⟨⟩
    exact fun _ hmem => hmem
  | record hworker =>
    refine hs.mono hrows (items_setWorker hworker ?_)
    rintro w' ⟨⟩
    exact fun _ hmem => List.mem_cons_of_mem _ hmem
  | sweep hworker =>
    refine hs.mono hrows (items_setWorker hworker ?_)
    rintro w' ⟨⟩
  | crash hworker =>
    refine hs.mono hrows (items_setWorker hworker ?_)
    rintro w' ⟨⟩
  | expire => exact hs.mono hrows hsame
  | bury => exact hs.mono hrows hsame
  | monitorCrash => exact hs.mono hrows hsame
  | markCompleted => exact hs.mono hrows hsame
  | markFailedTerminal => exact hs.mono hrows hsame

end

/-! ## One step -/

section

variable {config : Config} {w w' : World}

theorem payload_proper (m : Interaction) : (m.payload config).Proper := by
  have hkeys : ["user_id", "amount_cents", "service", "tokens_in", "tokens_out", "model",
      "markup_rate", "idempotency_key"].Nodup := by decide
  refine ⟨hkeys, ?_⟩
  exact ⟨trivial, trivial, trivial, trivial, trivial, trivial, config.markupRate_float, trivial,
    trivial⟩

/-- What the worker reads of a row is what the interaction wrote. -/
theorem parse_charge (m : Interaction) :
    Json.parse (m.charge config).payload.toList = some (m.payload config) := by
  show Json.parse (String.ofList (m.payload config).dumps).toList = _
  rw [String.toList_ofList]
  exact Json.parse_dumps (payload_proper m)

theorem mem_sentBy {s : Queue} {e : Billing.Event} {q : Request} (hq : q ∈ sentBy s e) :
    ∃ i w item, s.workers i = some w ∧ item ∈ w.items ∧
      q.idempotencyKey = item.idempotencyKey ∧ Json.parse item.payload.toList = some q.body := by
  cases e with
  | send i =>
    simp only [sentBy] at hq
    split at hq
    · rename_i workerId item items pc hworker
      obtain ⟨body, hbody, rfl⟩ := List.mem_map.1 hq
      exact ⟨i, _, item, hworker, List.mem_cons_self, rfl, Option.mem_toList.1 hbody⟩
    · cases hq
  | _ => cases hq

/-- The rows, the lists of the workers, the tasks and the requests are about metered
    interactions, and no two rows have one key. -/
structure Accounted (config : Config) (w : World) : Prop where
  keys : ((w.queue.rows.map charge).map Charge.idempotencyKey).Nodup
  items : ItemsCharged w.queue
  rows : w.queue.rows.map charge ⊆ w.metered.map (Interaction.charge config)
  tasks : ∀ sessionId task m, w.tasks sessionId = some task → task.phase = .enqueued m →
    m ∈ w.metered
  requests : ∀ q ∈ w.requests, ∃ m ∈ w.metered, m.idempotencyKey = q.idempotencyKey ∧
    m.payload config = q.body
  once : (w.metered.map Interaction.idempotencyKey).Nodup → ExactlyOnce config w

theorem accounted_start : Accounted config .start where
  keys := List.nodup_nil
  items := fun _ _ h => by cases h
  rows := fun _ h => by cases h
  tasks := fun _ _ _ h => by cases h
  requests := fun _ h => by cases h
  once := fun _ => rfl

/-- A step of a task that meters nothing and sends nothing. -/
theorem Accounted.setTask (hw : Accounted config w) (sessionId : String) {o : Option Task}
    (ho : ∀ task m, o = some task → task.phase ≠ .enqueued m) :
    Accounted config (w.setTask sessionId o) := by
  refine ⟨hw.keys, hw.items, hw.rows, ?_, hw.requests, hw.once⟩
  intro sessionId' task m htask hphase
  by_cases hsession : sessionId' = sessionId
  · subst hsession
    rw [World.setTask_self] at htask
    exact absurd hphase (ho task m htask)
  · rw [World.setTask_of_ne _ hsession] at htask
    exact hw.tasks sessionId' task m htask hphase

/-- A step of the queue that puts nothing in it. -/
theorem Accounted.setQueue (hw : Accounted config w) {e : Billing.Event} {queue : Queue}
    (h : QueueStep w.queue e queue) (he : ∀ row, e ≠ .enqueue row) :
    Accounted config { w with queue := queue } := by
  have hcharges := charges_step h he
  refine ⟨?_, itemsCharged_step hw.items h, ?_, hw.tasks, hw.requests, fun happart => ?_⟩
  · rw [hcharges]
    exact hw.keys
  · rw [hcharges]
    exact hw.rows
  · rw [ExactlyOnce, hcharges]
    exact hw.once happart

/-- A worker sends what a metered interaction has put in the queue. -/
theorem Accounted.sent (hw : Accounted config w) {e : Billing.Event} {q : Request}
    (hq : q ∈ sentBy w.queue e) : ∃ m ∈ w.metered, m.idempotencyKey = q.idempotencyKey ∧
      m.payload config = q.body := by
  obtain ⟨i, worker, item, hworker, hitem, hkey, hbody⟩ := mem_sentBy hq
  obtain ⟨userId, hcharge⟩ := hw.items i worker hworker item hitem
  obtain ⟨m, hm, hsame⟩ := List.mem_map.1 (hw.rows hcharge)
  have hpayload : (m.charge config).payload = item.payload := by rw [hsame]
  have hparse : Json.parse (m.charge config).payload.toList = some (m.payload config) :=
    parse_charge m
  rw [hpayload, hbody] at hparse
  refine ⟨m, hm, ?_, (Option.some.inj hparse).symm⟩
  exact (congrArg Charge.idempotencyKey hsame).trans hkey.symm

theorem Accounted.addRequests (hw : Accounted config w) {requests : List Request}
    (hrequests : ∀ q ∈ requests, ∃ m ∈ w.metered, m.idempotencyKey = q.idempotencyKey ∧
      m.payload config = q.body) :
    Accounted config { w with requests := w.requests ++ requests } := by
  refine ⟨hw.keys, hw.items, hw.rows, hw.tasks, fun q hq => ?_, hw.once⟩
  rcases List.mem_append.1 hq with hq | hq
  · exact hw.requests q hq
  · exact hrequests q hq

/-- The rows after an enqueue: a new one, if its key is new. -/
theorem charges_enqueue {s s' : Queue} {id : ℕ} {now : ℚ} {userId key payload : String}
    (h : QueueStep s (.enqueue (enqueued id now userId key payload)) s') :
    (key ∈ (s.rows.map charge).map Charge.idempotencyKey ∧
        s'.rows.map charge = s.rows.map charge) ∨
      key ∉ (s.rows.map charge).map Charge.idempotencyKey ∧
        s'.rows.map charge = s.rows.map charge ++ [⟨userId, key, payload⟩] := by
  have hkeys : key ∈ (s.rows.map charge).map Charge.idempotencyKey ↔
      ∃ r ∈ s.rows, r.idempotencyKey = key := by
    simp [charge]
  rw [hkeys]
  have hrows : s'.rows = enqueue (enqueued id now userId key payload) s.rows := by
    cases h
    rfl
  rw [hrows, enqueue]
  by_cases hknown : ∃ r ∈ s.rows,
      r.idempotencyKey = (enqueued id now userId key payload).idempotencyKey
  · exact .inl ⟨hknown, by rw [if_pos hknown]⟩
  · refine .inr ⟨hknown, ?_⟩
    rw [if_neg hknown, List.map_append]
    rfl

/-- **An interaction that is metered** gets a row, if no row has its key. -/
theorem Accounted.report (hw : Accounted config w) {sessionId : String} {task : Task}
    {m : Interaction} {id : ℕ} {now : ℚ} {queue : Queue}
    (h : QueueStep w.queue (.enqueue (enqueued id now m.userId m.idempotencyKey
      (m.charge config).payload)) queue) :
    Accounted config { w.setPhase sessionId task (.enqueued m) with
      queue := queue
      metered := w.metered ++ [m] } := by
  have hcharges := charges_enqueue h
  refine ⟨?_, itemsCharged_step hw.items h, ?_, ?_, ?_, ?_⟩
  · obtain ⟨-, hsame⟩ | ⟨hnew, hadded⟩ := hcharges
    · rw [hsame]
      exact hw.keys
    · rw [hadded, List.map_append]
      refine hw.keys.append (List.nodup_singleton _) ?_
      rintro key hkey hkey'
      rw [List.map_singleton, List.mem_singleton] at hkey'
      rw [hkey'] at hkey
      exact hnew hkey
  · rw [List.map_append]
    obtain ⟨-, hsame⟩ | ⟨-, hadded⟩ := hcharges
    · rw [hsame]
      exact fun c hc => List.mem_append_left _ (hw.rows hc)
    · rw [hadded]
      intro c hc
      rcases List.mem_append.1 hc with hc | hc
      · exact List.mem_append_left _ (hw.rows hc)
      · exact List.mem_append_right _ hc
  · intro sessionId' task' m' htask hphase
    by_cases hsession : sessionId' = sessionId
    · subst hsession
      obtain rfl := Option.some.inj ((w.setTask_self sessionId' _).symm.trans htask)
      cases hphase
      exact List.mem_append_right _ (List.mem_singleton_self _)
    · have htask' := (w.setTask_of_ne hsession _).symm.trans htask
      exact List.mem_append_left _ (hw.tasks sessionId' task' m' htask' hphase)
  · intro q hq
    obtain ⟨m', hm', hcarries⟩ := hw.requests q hq
    exact ⟨m', List.mem_append_left _ hm', hcarries⟩
  · intro happart
    rw [List.map_append, List.nodup_append] at happart
    obtain ⟨hbefore, -, hnew⟩ := happart
    have honce := hw.once hbefore
    obtain ⟨hknown, -⟩ | ⟨-, hadded⟩ := hcharges
    · rw [honce, List.map_map] at hknown
      exact absurd rfl (hnew _ hknown _ (List.mem_singleton_self _))
    · rw [ExactlyOnce, hadded, honce, List.map_append]
      rfl

/-- **Every step** keeps account of the metered interactions. -/
theorem accounted_step {e : Event} (hw : Accounted config w) (h : Step config w e w') :
    Accounted config w' := by
  cases h with
  | connect => exact ⟨hw.keys, hw.items, hw.rows, hw.tasks, hw.requests, hw.once⟩
  | disconnect => exact ⟨hw.keys, hw.items, hw.rows, hw.tasks, hw.requests, hw.once⟩
  | message =>
    refine hw.setTask _ ?_
    rintro task m ⟨⟩ ⟨⟩
  | usage =>
    refine hw.setTask _ ?_
    rintro task m ⟨⟩ ⟨⟩
  | stopCalling => exact hw.setTask _ fun task m h => by cases h
  | stopReturned => exact hw
  | stopReport => exact hw.setTask _ fun task m h => by cases h
  | free => exact hw.setTask _ fun task m h => by cases h
  | report _ _ _ _ _ _ hqueue => exact hw.report hqueue
  | deduct htask hphase =>
    rename_i sessionId task m
    have hset : Accounted config (w.setPhase sessionId task (.sent m)) := by
      refine hw.setTask _ ?_
      rintro task m ⟨⟩ ⟨⟩
    refine hset.addRequests ?_
    intro q hq
    rw [List.mem_singleton.1 hq]
    exact ⟨m, hw.tasks sessionId task m htask hphase, rfl, rfl⟩
  | reply =>
    refine hw.setTask _ ?_
    rintro task m ⟨⟩ ⟨⟩
  | mark _ _ hverdict hqueue =>
    have hset := hw.setQueue hqueue ?_
    · exact hset.setTask _ fun task m h => by cases h
    · rintro row rfl
      unfold verdict at hverdict
      split_ifs at hverdict <;> cases hverdict
  | unmarked => exact hw.setTask _ fun task m h => by cases h
  | @worker e queue he hqueue =>
    have hadd := hw.addRequests fun q (hq : q ∈ sentBy w.queue e) => hw.sent hq
    exact hadd.setQueue hqueue fun row hrow => by rw [hrow] at he; exact he

end

/-! ## Whole runs -/

/-- The default settings; the cost is that of exact arithmetic. -/
def defaults : Config where
  authEnabled := true
  minCostCents := 1
  markupRate := "3.0"
  markupRate_float := by decide
  customerCents inputTokens outputTokens :=
    -((-(3 * (300 * inputTokens + 1500 * outputTokens))) / 1000000)

def Interaction.of (tsMs : ℕ) (inputTokens costCents : ℤ) : Interaction :=
  ⟨"u", "cps_1", "m", tsMs, ⟨inputTokens, 1000, "claude"⟩, costCents⟩

/-- The row of the first message. -/
def firstRow : Deduction :=
  enqueued 0 0 "u" (Interaction.of 0 10000 14).idempotencyKey
    ((Interaction.of 0 10000 14).charge defaults).payload

/-- A session with a task or none, after the given interactions and requests. -/
def session (rows : List Deduction) (o : Option Task) (metered : List Interaction)
    (requests : List Request) : World where
  queue := ⟨rows, fun _ => none, 0⟩
  users := Function.update (fun _ => none) "cps_1" (some "u")
  tasks := Function.update (fun _ => none) "cps_1" o
  metered := metered
  requests := requests

theorem session_setTask (rows : List Deduction) (o o' : Option Task) (metered : List Interaction)
    (requests : List Request) :
    (session rows o metered requests).setTask "cps_1" o' = session rows o' metered requests := by
  rw [World.setTask, session, Function.update_idem]
  rfl

theorem session_tasks (rows : List Deduction) (o : Option Task) (metered : List Interaction)
    (requests : List Request) : (session rows o metered requests).tasks "cps_1" = o := by
  rw [session]
  exact Function.update_self "cps_1" o fun _ => none

/-- A message in a session without a task, up to its request, after which it is stopped. -/
theorem session_message (rows rows' : List Deduction) (metered : List Interaction)
    (requests : List Request) (tsMs : ℕ) (inputTokens costCents : ℤ) (id : ℕ)
    (hcost : calculateCostCents defaults inputTokens 1000 = .ok costCents) (hne : costCents ≠ 0)
    (hqueue : QueueStep ⟨rows, fun _ => none, 0⟩
      (.enqueue (enqueued id 0 "u" (Interaction.of tsMs inputTokens costCents).idempotencyKey
        ((Interaction.of tsMs inputTokens costCents).charge defaults).payload))
      ⟨rows', fun _ => none, 0⟩) :
    Run (Step defaults) (session rows none metered requests)
      [.message "cps_1" "m" "", .usage "cps_1" (some ⟨inputTokens, 1000, "claude"⟩),
        .report "cps_1" tsMs id 0, .deduct "cps_1", .stop "cps_1"]
      (session rows' none (metered ++ [.of tsMs inputTokens costCents])
        (requests ++ [⟨(Interaction.of tsMs inputTokens costCents).idempotencyKey,
          (Interaction.of tsMs inputTokens costCents).payload defaults⟩])) := by
  have huser : (session rows none metered requests).users "cps_1" = some "u" := by
    rw [session]
    exact Function.update_self "cps_1" (some "u") fun _ => none
  have hmessage : Step defaults (session rows none metered requests) (.message "cps_1" "m" "")
      (session rows (some ⟨"u", "m", .calling⟩) metered requests) := by
    rw [← session_setTask rows none (some ⟨"u", "m", .calling⟩)]
    exact .message huser (session_tasks ..)
  have husage : Step defaults (session rows (some ⟨"u", "m", .calling⟩) metered requests)
      (.usage "cps_1" (some ⟨inputTokens, 1000, "claude"⟩))
      (session rows (some ⟨"u", "m", .returned (some ⟨inputTokens, 1000, "claude"⟩)⟩) metered
        requests) := by
    rw [← session_setTask rows (some ⟨"u", "m", .calling⟩) (some ⟨"u", "m", .returned _⟩)]
    exact .usage (session_tasks ..) rfl
  have hreport : Step defaults
      (session rows (some ⟨"u", "m", .returned (some ⟨inputTokens, 1000, "claude"⟩)⟩) metered
        requests) (.report "cps_1" tsMs id 0)
      { (session rows (some ⟨"u", "m", .returned (some ⟨inputTokens, 1000, "claude"⟩)⟩) metered
          requests).setPhase "cps_1" ⟨"u", "m", .returned (some ⟨inputTokens, 1000, "claude"⟩)⟩
          (.enqueued (.of tsMs inputTokens costCents)) with
        queue := ⟨rows', fun _ => none, 0⟩
        metered := metered ++ [.of tsMs inputTokens costCents] } :=
    .report (session_tasks ..) rfl rfl hcost hne rfl hqueue
  rw [World.setPhase, session_setTask] at hreport
  have hdeduct : Step defaults
      (session rows' (some ⟨"u", "m", .enqueued (.of tsMs inputTokens costCents)⟩)
        (metered ++ [.of tsMs inputTokens costCents]) requests) (.deduct "cps_1")
      { (session rows' (some ⟨"u", "m", .enqueued (.of tsMs inputTokens costCents)⟩)
          (metered ++ [.of tsMs inputTokens costCents]) requests).setPhase "cps_1"
          ⟨"u", "m", .enqueued (.of tsMs inputTokens costCents)⟩
          (.sent (.of tsMs inputTokens costCents)) with
        requests := requests ++ [⟨(Interaction.of tsMs inputTokens costCents).idempotencyKey,
          (Interaction.of tsMs inputTokens costCents).payload defaults⟩] } :=
    .deduct (session_tasks ..) rfl
  rw [World.setPhase, session_setTask] at hdeduct
  have hstop : Step defaults
      (session rows' (some ⟨"u", "m", .sent (.of tsMs inputTokens costCents)⟩)
        (metered ++ [.of tsMs inputTokens costCents])
        (requests ++ [⟨(Interaction.of tsMs inputTokens costCents).idempotencyKey,
          (Interaction.of tsMs inputTokens costCents).payload defaults⟩])) (.stop "cps_1") _ :=
    .stopReport (session_tasks ..) (fun h => by cases h) fun usage h => by cases h
  rw [session_setTask] at hstop
  exact .cons hmessage (.cons husage (.cons hreport (.cons hdeduct (.cons hstop .nil))))

/-- The session is opened. -/
theorem session_open : Run (Step defaults) .start [.connect "cps_1" "u"] (session [] none [] []) := by
  have hopen : session [] none [] [] =
      { World.start with users := Function.update World.start.users "cps_1" (some "u") } := by
    rw [session, World.start, Queue.start, Function.update_eq_self]
  rw [hopen]
  exact .cons (.connect rfl rfl) .nil

theorem cost_first : calculateCostCents defaults 10000 1000 = .ok 14 := by decide +kernel

theorem cost_second : calculateCostCents defaults 20000 1000 = .ok 23 := by decide +kernel

theorem first_message : Run (Step defaults) .start ([.connect "cps_1" "u"] ++
      [.message "cps_1" "m" "", .usage "cps_1" (some ⟨10000, 1000, "claude"⟩),
        .report "cps_1" 0 0 0, .deduct "cps_1", .stop "cps_1"])
    (session [firstRow] none [.of 0 10000 14] [⟨(Interaction.of 0 10000 14).idempotencyKey,
      (Interaction.of 0 10000 14).payload defaults⟩]) := by
  refine session_open.append (session_message [] [firstRow] [] [] 0 10000 14 0 cost_first
    (by decide) ?_)
  have hrow : [firstRow] = enqueue firstRow [] := by
    rw [enqueue, if_neg fun h => List.not_mem_nil h.choose_spec.1]
    rfl
  rw [hrow]
  exact .enqueue fun r hr => absurd hr List.not_mem_nil

end Metering

end AimData
