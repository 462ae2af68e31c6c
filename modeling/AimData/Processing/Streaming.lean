/-
  The extraction of a file through a worker process, chunk by chunk over a bounded queue.

  The parent takes a sentinel, or a clean exit of the worker, for the end of the data.  The
  worker leaves both behind when it is cancelled between chunks, or has tried ten times to put
  a chunk on a full queue, so that a prefix of the chunks looks complete
  (`prefix_accepted`); without such a step what ends is complete (`complete_iff_patient`).
-/
import AimData.Lib.Except
import AimData.Lib.Run

namespace AimData

namespace Streaming

/-! ## The two processes -/

/-- A progress message; those that only count are left out. -/
inductive Status where
  | cancelled
  | completed
  | error (text : String)
  deriving DecidableEq

/-- Where the worker is: it takes a chunk, puts one for the n-th time, puts the sentinel, sends
    its last progress message, or has ended with a code. -/
inductive WorkerPc (α : Type) where
  | next
  | put (chunk : α) (tries : ℕ)
  | sentinel (status : Option Status) (tries : ℕ)
  | exiting (status : Option Status)
  | exited (code : ℤ)
  deriving DecidableEq

/-- Where `iter_data` is: before its checks, in `get`, in `_drain_queue`, or done. -/
inductive ParentPc where
  | top
  | waiting
  | draining
  | ended
  | raised (e : Raised)
  deriving DecidableEq

/-- Both processes, the queue and the pipes between them, and the rows that are accepted.
    `remaining` are the chunks that are not queued nor in the worker's hand, and `failure` what
    the processor raises after them. -/
structure World (α : Type) where
  remaining : List α
  failure : Option String := none
  worker : WorkerPc α := .next
  queue : List (Option α) := []
  control : List String := []
  progress : List Status := []
  parent : ParentPc := .top
  yielded : List α := []
  dataset : Option (List α) := none
  deriving DecidableEq

inductive Event where
  /-- A message on the control pipe, as `cancel` sends one. -/
  | send (message : String)
  /-- The worker takes the next chunk from the processor, and polls the control pipe. -/
  | takeChunk
  /-- `queue.put` succeeds. -/
  | put
  /-- `queue.put` times out. -/
  | full
  | exit
  /-- The worker raises. -/
  | fail (text : String)
  /-- The worker is killed, and the last items it has put are not flushed. -/
  | die (signal : ℕ) (lost : ℕ)
  /-- The checks of `iter_data`. -/
  | check (expired : Bool)
  | receive
  /-- `queue.get` times out. -/
  | empty
  | drain
  /-- The consumer raises. -/
  | abort (e : Raised)
  /-- `_extract_streaming` after the last chunk. -/
  | finish

/-- `_safe_queue_put`'s `max_retries` -/
def maxRetries : ℕ := 10

section

variable {α : Type} (maxsize timeoutS : ℕ)

/-- The queue has room; a queue without a size always has. -/
def World.room (w : World α) : Bool := maxsize = 0 ∨ w.queue.length < maxsize

/-- The control pipe has `"cancel"` next. -/
def World.cancelled (w : World α) : Bool := w.control.head? = some "cancel"

/-- `_read_worker_error` -/
def workerError (progress : List Status) : String :=
  progress.foldl (fun text status => match status with | .error text => text | _ => text) ""

/-- What `_check_worker_exit` raises. -/
def workerExit (code : ℤ) (progress : List Status) : Raised :=
  let msg := if code < 0 then s!"Worker subprocess killed by signal {-code}"
    else s!"Worker subprocess exited with code {code}"
  let detail := workerError progress
  ⟨"RuntimeError", if detail = "" then msg else msg ++ ": " ++ detail⟩

def World.report (w : World α) (status : Option Status) : World α :=
  { w with progress := w.progress ++ status.toList }

/-- `_safe_queue_put` gives up after this timeout. -/
def World.lastTry (w : World α) (tries : ℕ) : Bool := w.cancelled || tries + 1 = maxRetries

def step (w : World α) : Event → Option (World α)
  | .send message => some { w with control := w.control ++ [message] }
  | .takeChunk =>
    match w.worker, w.remaining with
    | .next, [] =>
      match w.failure with
      | some text => some { w.report (some (.error text)) with worker := .exited 1 }
      | none => some { w with worker := .sentinel (some .completed) 0 }
    | .next, chunk :: remaining =>
      if w.cancelled then
        some { w.report (some .cancelled) with
          control := w.control.tail
          worker := .sentinel none 0 }
      else
        some { w with
          control := w.control.tail
          remaining := remaining
          worker := .put chunk 0 }
    | _, _ => none
  | .put =>
    match w.worker with
    | .put chunk _ =>
      if w.room maxsize then some { w with queue := w.queue ++ [some chunk], worker := .next }
      else none
    | .sentinel status _ =>
      if w.room maxsize then some { w with queue := w.queue ++ [none], worker := .exiting status }
      else none
    | _ => none
  | .full =>
    if w.room maxsize then none
    else
      match w.worker with
      | .put chunk tries =>
        some { w with
          control := w.control.tail
          remaining := if w.lastTry tries then chunk :: w.remaining else w.remaining
          worker := if w.lastTry tries then .exiting (some .cancelled) else .put chunk (tries + 1) }
      | .sentinel status tries =>
        some { w with
          control := w.control.tail
          worker := if w.lastTry tries then .exiting status else .sentinel status (tries + 1) }
      | _ => none
  | .exit =>
    match w.worker with
    | .exiting status => some { w.report status with worker := .exited 0 }
    | _ => none
  | .fail text =>
    match w.worker with
    | .exiting _ | .exited _ => none
    | _ => some { w.report (some (.error text)) with worker := .exited 1 }
  | .die signal lost =>
    match w.worker with
    | .exited _ => none
    | _ => some { w with
      worker := .exited (-(signal + 1 : ℤ))
      queue := w.queue.take (w.queue.length - lost) }
  | .check expired =>
    match w.parent with
    | .top =>
      if expired then
        some { w with
          control := w.control ++ ["cancel"]
          parent := .raised ⟨"TimeoutError", s!"Worker exceeded {timeoutS}s timeout"⟩ }
      else
        match w.worker with
        | .exited _ => some { w with parent := .draining }
        | _ => some { w with parent := .waiting }
    | _ => none
  | .receive =>
    match w.parent, w.queue with
    | .waiting, some chunk :: queue =>
      some { w with queue := queue, yielded := w.yielded ++ [chunk], parent := .top }
    | .waiting, none :: queue => some { w with queue := queue, parent := .ended }
    | _, _ => none
  | .empty =>
    match w.parent with
    | .waiting => some { w with parent := .top }
    | _ => none
  | .drain =>
    match w.parent, w.queue, w.worker with
    | .draining, some chunk :: queue, _ =>
      some { w with queue := queue, yielded := w.yielded ++ [chunk] }
    | .draining, queue, .exited code =>
      if code ≠ 0 then
        some { w with
          queue := queue.tail
          progress := []
          parent := .raised (workerExit code w.progress) }
      else some { w with queue := queue.tail, parent := .ended }
    | _, _, _ => none
  | .abort e =>
    match w.parent with
    | .top | .draining => some { w with parent := .raised e }
    | _ => none
  | .finish =>
    match w.parent, w.progress.getLast? with
    | .ended, some (.error _) => none
    | .ended, _ => if w.yielded = [] then none else some { w with dataset := some w.yielded }
    | _, _ => none

def Step (w : World α) (e : Event) (w' : World α) : Prop := step maxsize timeoutS w e = some w'

end

/-! ## Chunks on their way -/

section

variable {α : Type}

/-- The chunk that the worker is putting. -/
def World.hand (w : World α) : List α :=
  match w.worker with
  | .put chunk _ => [chunk]
  | _ => []

/-- The worker puts no more. -/
def WorkerPc.Past : WorkerPc α → Prop
  | .exiting _ | .exited _ => True
  | _ => False

/-- The worker was killed or has raised. -/
def WorkerPc.Failed : WorkerPc α → Prop
  | .exited code => code ≠ 0
  | _ => False

/-- The queue holds `items`, and then the sentinel or not; with what has been yielded they are
    the first chunks, and the worker has the rest. -/
structure Flow (chunks : List α) (w : World α) (items : List α) (sentinel : Bool) : Prop where
  queue : w.queue = items.map some ++ if sentinel then [none] else []
  sent : w.yielded ++ items <+: chunks
  rest : ¬ w.worker.Failed → w.yielded ++ items ++ (w.hand ++ w.remaining) = chunks
  closed : sentinel = true → w.worker.Past ∧ w.yielded ++ items ++ w.remaining = chunks
  ended : w.parent = .ended → w.worker.Past ∧ w.yielded ++ w.remaining = chunks

/-- The worker has left chunks behind. -/
def World.Abandoned (w : World α) : Prop :=
  w.remaining ≠ [] ∧ match w.worker with
    | .next | .put _ _ => False
    | _ => True

/-- The worker gives up with a chunk at hand: it is cancelled, or has tried to put the chunk for
    the last time. -/
def GivesUp (w : World α) : Event → Prop
  | .takeChunk => w.worker = .next ∧ w.remaining ≠ [] ∧ w.cancelled = true
  | .full => ∃ chunk tries, w.worker = .put chunk tries ∧ w.lastTry tries = true
  | _ => False

variable {maxsize timeoutS : ℕ} {chunks : List α} {w w' : World α} {e : Event}

variable {items : List α} {sentinel : Bool}

/-- A step that moves no item and lets the worker lose no chunk. -/
theorem Flow.same (hw : Flow chunks w items sentinel) (hqueue : w'.queue = w.queue)
    (hyielded : w'.yielded = w.yielded) (hparent : w'.parent = .ended → w.parent = .ended)
    (hpast : w.worker.Past → w'.worker.Past ∧ w'.remaining = w.remaining)
    (hrest : ¬ w'.worker.Failed → ¬ w.worker.Failed ∧
      w'.hand ++ w'.remaining = w.hand ++ w.remaining) : Flow chunks w' items sentinel := by
  refine ⟨hqueue.trans hw.queue, hyielded ▸ hw.sent, fun hfailed => ?_, fun hsentinel => ?_,
    fun hended => ?_⟩
  · obtain ⟨hlive, hsame⟩ := hrest hfailed
    rw [hyielded, hsame]
    exact hw.rest hlive
  · obtain ⟨hpast', hall⟩ := hw.closed hsentinel
    rw [hyielded, (hpast hpast').2]
    exact ⟨(hpast hpast').1, hall⟩
  · obtain ⟨hpast', hall⟩ := hw.ended (hparent hended)
    rw [hyielded, (hpast hpast').2]
    exact ⟨(hpast hpast').1, hall⟩

/-- The next item is a chunk. -/
theorem Flow.head_some (hw : Flow chunks w items sentinel) {chunk : α} {queue : List (Option α)}
    (hqueue : w.queue = some chunk :: queue) :
    ∃ rest, items = chunk :: rest ∧ queue = rest.map some ++ if sentinel then [none] else [] := by
  have h := hw.queue
  rw [hqueue] at h
  cases items with
  | nil =>
    cases sentinel with
    | false => cases h
    | true => cases (List.cons.inj h).1
  | cons item rest =>
    obtain ⟨hitem, hrest⟩ := List.cons.inj h
    obtain rfl := Option.some.inj hitem
    exact ⟨rest, rfl, hrest⟩

/-- The next item is no chunk. -/
theorem Flow.head_none (hw : Flow chunks w items sentinel) (hqueue : ∀ chunk queue,
    w.queue ≠ some chunk :: queue) : items = [] := by
  cases items with
  | nil => rfl
  | cons item rest => exact absurd hw.queue (hqueue item _)

/-- A chunk that is taken off the queue. -/
theorem Flow.yield (hw : Flow chunks w items sentinel) {chunk : α} {queue : List (Option α)}
    (hqueue : w.queue = some chunk :: queue) (hqueue' : w'.queue = queue)
    (hyielded : w'.yielded = w.yielded ++ [chunk]) (hworker : w'.worker = w.worker)
    (hremaining : w'.remaining = w.remaining) (hparent : w'.parent ≠ .ended) :
    ∃ rest, Flow chunks w' rest sentinel := by
  obtain ⟨rest, rfl, hrest⟩ := hw.head_some hqueue
  have hall : w'.yielded ++ rest = w.yielded ++ chunk :: rest := by
    rw [hyielded, List.append_assoc, List.singleton_append]
  have hhand : w'.hand = w.hand := by rw [World.hand, World.hand, hworker]
  refine ⟨rest, hqueue'.trans hrest, hall ▸ hw.sent, fun hfailed => ?_, fun hsentinel => ?_,
    fun hended => absurd hended hparent⟩
  · rw [hall, hhand, hremaining]
    exact hw.rest (hworker ▸ hfailed)
  · rw [hall, hworker, hremaining]
    exact hw.closed hsentinel

/-- The queue after the last items are lost. -/
theorem take_queue (n : ℕ) (items : List α) (sentinel : Bool) :
    ∃ items' sentinel', (items.map some ++ if sentinel then [none] else []).take n =
      items'.map some ++ (if sentinel' then [none] else []) ∧ items' <+: items ∧
        (sentinel' = true → sentinel = true ∧ items' = items) := by
  by_cases hn : n ≤ items.length
  · refine ⟨items.take n, false, ?_, List.take_prefix n items, fun h => by cases h⟩
    rw [List.take_append_of_le_length (by simpa using hn), List.map_take]
    simp
  · refine ⟨items, sentinel, ?_, List.prefix_rfl, fun h => ⟨h, rfl⟩⟩
    rw [List.take_of_length_le]
    cases sentinel <;> simp <;> omega

theorem flow_takeChunk (hw : Flow chunks w items sentinel)
    (h : Step maxsize timeoutS w .takeChunk w') : Flow chunks w' items sentinel := by
  unfold Step step at h
  dsimp only at h
  split at h
  · rename_i hworker _
    split at h <;> obtain rfl := Option.some.inj h
    · exact hw.same rfl rfl id (fun h => ⟨trivial, rfl⟩)
        (fun h => absurd (by decide : (1 : ℤ) ≠ 0) h)
    · exact hw.same rfl rfl id (fun h => by rw [hworker] at h; cases h)
        (fun _ => ⟨by rw [hworker]; exact id, by simp [World.hand, hworker]⟩)
  · rename_i chunk remaining hworker hremaining
    split_ifs at h <;> obtain rfl := Option.some.inj h
    · exact hw.same rfl rfl id (fun h => by rw [hworker] at h; cases h)
        (fun _ => ⟨by rw [hworker]; exact id, by simp [World.hand, World.report, hworker]⟩)
    · exact hw.same rfl rfl id (fun h => by rw [hworker] at h; cases h)
        (fun _ => ⟨by rw [hworker]; exact id, by simp [World.hand, hworker, hremaining]⟩)
  · cases h

theorem flow_put (hw : Flow chunks w items sentinel) (h : Step maxsize timeoutS w .put w') :
    ∃ items sentinel, Flow chunks w' items sentinel := by
  unfold Step step at h
  dsimp only at h
  have hopen (hpast : ¬ w.worker.Past) : sentinel = false := by
    by_contra hsentinel
    exact hpast (hw.closed (by rwa [Bool.not_eq_false] at hsentinel)).1
  have hnot_ended (hpast : ¬ w.worker.Past) : w.parent ≠ .ended := fun h => hpast (hw.ended h).1
  split at h
  · rename_i chunk tries hworker
    split_ifs at h
    obtain rfl := Option.some.inj h
    have hpast : ¬ w.worker.Past := by rw [hworker]; exact id
    have hall := hw.rest (by rw [hworker]; exact id)
    rw [World.hand, hworker] at hall
    have hsent : w.yielded ++ (items ++ [chunk]) ++ w.remaining = chunks := by
      rw [← hall]
      simp
    refine ⟨items ++ [chunk], false, ?_, ⟨w.remaining, hsent⟩, fun _ => hsent,
      (fun h => by cases h), fun h => absurd h (hnot_ended hpast)⟩
    dsimp only
    rw [hw.queue, hopen hpast]
    simp
  · rename_i status tries hworker
    split_ifs at h
    obtain rfl := Option.some.inj h
    have hpast : ¬ w.worker.Past := by rw [hworker]; exact id
    have hall := hw.rest (by rw [hworker]; exact id)
    rw [World.hand, hworker] at hall
    refine ⟨items, true, ?_, hw.sent, fun _ => hall, fun _ => ⟨trivial, hall⟩,
      fun h => absurd h (hnot_ended hpast)⟩
    dsimp only
    rw [hw.queue, hopen hpast]
    simp
  · cases h

theorem flow_full (hw : Flow chunks w items sentinel) (h : Step maxsize timeoutS w .full w') :
    Flow chunks w' items sentinel := by
  unfold Step step at h
  dsimp only at h
  split_ifs at h
  split at h
  · rename_i chunk tries hworker
    obtain rfl := Option.some.inj h
    refine hw.same rfl rfl id (fun h => by rw [hworker] at h; cases h)
      (fun _ => ⟨by rw [hworker]; exact id, ?_⟩)
    by_cases hlast : w.lastTry tries = true
    · simp [World.hand, hworker, hlast]
    · simp [World.hand, hworker, hlast]
  · rename_i status tries hworker
    obtain rfl := Option.some.inj h
    refine hw.same rfl rfl id (fun h => by rw [hworker] at h; cases h)
      (fun _ => ⟨by rw [hworker]; exact id, ?_⟩)
    by_cases hlast : w.lastTry tries = true
    · simp [World.hand, hworker, hlast]
    · simp [World.hand, hworker, hlast]
  · cases h

/-- The worker ends. -/
theorem flow_exit (hw : Flow chunks w items sentinel) (h : Step maxsize timeoutS w .exit w') :
    Flow chunks w' items sentinel := by
  unfold Step step at h
  dsimp only at h
  split at h
  · rename_i status hworker
    obtain rfl := Option.some.inj h
    exact hw.same rfl rfl id (fun _ => ⟨trivial, rfl⟩)
      (fun _ => ⟨by rw [hworker]; exact id, by simp [World.hand, World.report, hworker]⟩)
  · cases h

theorem flow_fail {text : String} (hw : Flow chunks w items sentinel)
    (h : Step maxsize timeoutS w (.fail text) w') : Flow chunks w' items sentinel := by
  unfold Step step at h
  dsimp only at h
  split at h
  · cases h
  · cases h
  · obtain rfl := Option.some.inj h
    exact hw.same rfl rfl id (fun _ => ⟨trivial, rfl⟩)
      (fun h => absurd (by decide : (1 : ℤ) ≠ 0) h)

theorem flow_die {signal lost : ℕ} (hw : Flow chunks w items sentinel)
    (h : Step maxsize timeoutS w (.die signal lost) w') :
    ∃ items sentinel, Flow chunks w' items sentinel := by
  unfold Step step at h
  dsimp only at h
  split at h
  · cases h
  · obtain rfl := Option.some.inj h
    obtain ⟨items', sentinel', htake, hprefix, hsentinel⟩ :=
      take_queue (w.queue.length - lost) items sentinel
    rw [← hw.queue] at htake
    have hkilled : (-(signal + 1 : ℤ)) ≠ 0 := by omega
    refine ⟨items', sentinel', htake, ?_, fun h => absurd hkilled h, fun h => ⟨trivial, ?_⟩,
      fun h => ⟨trivial, (hw.ended h).2⟩⟩
    · exact ((List.prefix_append_right_inj w.yielded).2 hprefix).trans hw.sent
    · obtain ⟨htrue, hitems⟩ := hsentinel h
      rw [hitems]
      exact (hw.closed htrue).2

theorem flow_check {expired : Bool} (hw : Flow chunks w items sentinel)
    (h : Step maxsize timeoutS w (.check expired) w') : Flow chunks w' items sentinel := by
  unfold Step step at h
  dsimp only at h
  split at h
  · split_ifs at h
    · obtain rfl := Option.some.inj h
      exact hw.same rfl rfl (fun h => by cases h) (fun h => ⟨h, rfl⟩) (fun h => ⟨h, rfl⟩)
    · split at h <;> obtain rfl := Option.some.inj h
      · exact hw.same rfl rfl (fun h => by cases h) (fun h => ⟨h, rfl⟩) (fun h => ⟨h, rfl⟩)
      · exact hw.same rfl rfl (fun h => by cases h) (fun h => ⟨h, rfl⟩) (fun h => ⟨h, rfl⟩)
  · cases h

/-- The sentinel, or the end of the queue, after which the parent has all that was sent. -/
theorem Flow.finish (hw : Flow chunks w items sentinel) (hitems : items = [])
    (hqueue : w'.queue = w.queue.tail) (hyielded : w'.yielded = w.yielded)
    (hworker : w'.worker = w.worker) (hremaining : w'.remaining = w.remaining)
    (hended : w'.parent = .ended → w.worker.Past ∧ w.yielded ++ w.remaining = chunks) :
    ∃ items sentinel, Flow chunks w' items sentinel := by
  obtain rfl := hitems
  have hhand : w'.hand = w.hand := by rw [World.hand, World.hand, hworker]
  refine ⟨[], false, ?_, hyielded ▸ hw.sent, fun hfailed => ?_, (fun h => by cases h), fun h => ?_⟩
  · rw [hqueue, hw.queue]
    cases sentinel <;> rfl
  · rw [hyielded, hhand, hremaining]
    exact hw.rest (hworker ▸ hfailed)
  · rw [hyielded, hworker, hremaining]
    exact hended h

theorem flow_receive (hw : Flow chunks w items sentinel)
    (h : Step maxsize timeoutS w .receive w') : ∃ items sentinel, Flow chunks w' items sentinel := by
  unfold Step step at h
  dsimp only at h
  split at h
  · rename_i chunk queue hparent hqueue
    obtain rfl := Option.some.inj h
    have hyield : ∃ rest, Flow chunks
        { w with queue := queue, yielded := w.yielded ++ [chunk], parent := .top } rest sentinel :=
      hw.yield hqueue rfl rfl rfl rfl fun h => by cases h
    obtain ⟨rest, hw'⟩ := hyield
    exact ⟨rest, sentinel, hw'⟩
  · rename_i queue hparent hqueue
    obtain rfl := Option.some.inj h
    have hitems := hw.head_none fun chunk queue hsome => by rw [hqueue] at hsome; cases hsome
    have hsentinel : sentinel = true := by
      have hall := hw.queue
      rw [hqueue, hitems] at hall
      cases sentinel with
      | true => rfl
      | false => cases hall
    refine hw.finish hitems (by rw [hqueue]; rfl) rfl rfl rfl fun _ => ?_
    have hclosed := hw.closed hsentinel
    rwa [hitems, List.append_nil] at hclosed
  · cases h

theorem flow_drain (hw : Flow chunks w items sentinel) (h : Step maxsize timeoutS w .drain w') :
    ∃ items sentinel, Flow chunks w' items sentinel := by
  unfold Step step at h
  dsimp only at h
  split at h
  · rename_i chunk queue hparent hqueue
    obtain rfl := Option.some.inj h
    have hyield : ∃ rest, Flow chunks { w with queue := queue, yielded := w.yielded ++ [chunk] }
        rest sentinel :=
      hw.yield hqueue rfl rfl rfl rfl fun h => by cases hparent.symm.trans h
    obtain ⟨rest, hw'⟩ := hyield
    exact ⟨rest, sentinel, hw'⟩
  · rename_i code hparent hworker hno
    have hitems := hw.head_none fun chunk queue hsome => hno chunk queue hsome
    split_ifs at h with hcode
    · obtain rfl := Option.some.inj h
      exact hw.finish hitems rfl rfl rfl rfl fun h => by cases h
    · obtain rfl := Option.some.inj h
      refine hw.finish hitems rfl rfl rfl rfl fun _ => ?_
      have hall := hw.rest (by rw [hworker]; exact hcode)
      rw [hitems, List.append_nil, World.hand, hworker] at hall
      rw [hworker]
      exact ⟨trivial, hall⟩
  · cases h

/-- The chunks are on their way. -/
def Flows (chunks : List α) (w : World α) : Prop :=
  ∃ items sentinel, Flow chunks w items sentinel

/-- **Every step passes the chunks on in order.** -/
theorem flows_step (hw : Flows chunks w) (h : Step maxsize timeoutS w e w') : Flows chunks w' := by
  obtain ⟨items, sentinel, hw⟩ := hw
  cases e with
  | send message =>
    obtain rfl := Option.some.inj h
    exact ⟨items, sentinel, hw.same rfl rfl id (fun h => ⟨h, rfl⟩) (fun h => ⟨h, rfl⟩)⟩
  | takeChunk => exact ⟨items, sentinel, flow_takeChunk hw h⟩
  | put => exact flow_put hw h
  | full => exact ⟨items, sentinel, flow_full hw h⟩
  | exit => exact ⟨items, sentinel, flow_exit hw h⟩
  | fail text => exact ⟨items, sentinel, flow_fail hw h⟩
  | die signal lost => exact flow_die hw h
  | check expired => exact ⟨items, sentinel, flow_check hw h⟩
  | receive => exact flow_receive hw h
  | empty =>
    unfold Step step at h
    dsimp only at h
    split at h
    · obtain rfl := Option.some.inj h
      exact ⟨items, sentinel, hw.same rfl rfl (fun h => by cases h) (fun h => ⟨h, rfl⟩)
        (fun h => ⟨h, rfl⟩)⟩
    · cases h
  | drain => exact flow_drain hw h
  | abort exc =>
    unfold Step step at h
    dsimp only at h
    split at h
    · obtain rfl := Option.some.inj h
      exact ⟨items, sentinel, hw.same rfl rfl (fun h => by cases h) (fun h => ⟨h, rfl⟩)
        (fun h => ⟨h, rfl⟩)⟩
    · obtain rfl := Option.some.inj h
      exact ⟨items, sentinel, hw.same rfl rfl (fun h => by cases h) (fun h => ⟨h, rfl⟩)
        (fun h => ⟨h, rfl⟩)⟩
    · cases h
  | finish =>
    unfold Step step at h
    dsimp only at h
    split at h
    · cases h
    · split_ifs at h
      obtain rfl := Option.some.inj h
      exact ⟨items, sentinel, hw.same rfl rfl id (fun h => ⟨h, rfl⟩) (fun h => ⟨h, rfl⟩)⟩
    · cases h

/-! ## Chunks that are left behind -/

/-- A worker that gives up leaves its chunk behind. -/
theorem abandoned_of_givesUp (h : Step maxsize timeoutS w e w') (hgives : GivesUp w e) :
    w'.Abandoned := by
  unfold Step step at h
  cases e with
  | takeChunk =>
    obtain ⟨hworker, hremaining, hcancelled⟩ := hgives
    dsimp only at h
    split at h
    · rename_i hnone
      exact absurd hnone hremaining
    · rw [if_pos hcancelled] at h
      obtain rfl := Option.some.inj h
      exact ⟨hremaining, trivial⟩
    · cases h
  | full =>
    obtain ⟨chunk, tries, hworker, hlast⟩ := hgives
    dsimp only at h
    split_ifs at h
    rw [hworker] at h
    obtain rfl := Option.some.inj h
    simp [World.Abandoned, hlast]
  | _ => cases hgives

/-- The steps of the worker. -/
def Event.OfWorker : Event → Prop
  | .takeChunk | .put | .full | .exit | .fail _ | .die _ _ => True
  | _ => False

/-- The worker leaves what the parent has. -/
theorem worker_frame (h : Step maxsize timeoutS w e w') (he : e.OfWorker) :
    w'.parent = w.parent ∧ w'.yielded = w.yielded ∧ w'.dataset = w.dataset := by
  unfold Step step at h
  cases e with
  | takeChunk =>
    dsimp only at h
    split at h
    · split at h <;> obtain rfl := Option.some.inj h <;> exact ⟨rfl, rfl, rfl⟩
    · split_ifs at h <;> obtain rfl := Option.some.inj h <;> exact ⟨rfl, rfl, rfl⟩
    · cases h
  | put =>
    dsimp only at h
    split at h
    · split_ifs at h
      obtain rfl := Option.some.inj h
      exact ⟨rfl, rfl, rfl⟩
    · split_ifs at h
      obtain rfl := Option.some.inj h
      exact ⟨rfl, rfl, rfl⟩
    · cases h
  | full =>
    dsimp only at h
    split_ifs at h
    split at h
    · obtain rfl := Option.some.inj h
      exact ⟨rfl, rfl, rfl⟩
    · obtain rfl := Option.some.inj h
      exact ⟨rfl, rfl, rfl⟩
    · cases h
  | exit =>
    dsimp only at h
    split at h
    · obtain rfl := Option.some.inj h
      exact ⟨rfl, rfl, rfl⟩
    · cases h
  | fail text =>
    dsimp only at h
    split at h
    · cases h
    · cases h
    · obtain rfl := Option.some.inj h
      exact ⟨rfl, rfl, rfl⟩
  | die signal lost =>
    dsimp only at h
    split at h
    · cases h
    · obtain rfl := Option.some.inj h
      exact ⟨rfl, rfl, rfl⟩
  | _ => cases he

/-- The parent leaves what the worker has, and takes items off the queue at most. -/
theorem parent_frame (h : Step maxsize timeoutS w e w') (he : ¬ e.OfWorker) :
    w'.remaining = w.remaining ∧ w'.worker = w.worker ∧ w'.queue ⊆ w.queue := by
  unfold Step step at h
  cases e with
  | send message =>
    obtain rfl := Option.some.inj h
    exact ⟨rfl, rfl, fun _ hmem => hmem⟩
  | check expired =>
    dsimp only at h
    split at h
    · split_ifs at h
      · obtain rfl := Option.some.inj h
        exact ⟨rfl, rfl, fun _ hmem => hmem⟩
      · split at h <;> obtain rfl := Option.some.inj h <;> exact ⟨rfl, rfl, fun _ hmem => hmem⟩
    · cases h
  | receive =>
    dsimp only at h
    split at h
    · rename_i hqueue
      obtain rfl := Option.some.inj h
      exact ⟨rfl, rfl, fun _ hmem => hqueue ▸ List.mem_cons_of_mem _ hmem⟩
    · rename_i hqueue
      obtain rfl := Option.some.inj h
      exact ⟨rfl, rfl, fun _ hmem => hqueue ▸ List.mem_cons_of_mem _ hmem⟩
    · cases h
  | empty =>
    dsimp only at h
    split at h
    · obtain rfl := Option.some.inj h
      exact ⟨rfl, rfl, fun _ hmem => hmem⟩
    · cases h
  | drain =>
    dsimp only at h
    split at h
    · rename_i hqueue
      obtain rfl := Option.some.inj h
      exact ⟨rfl, rfl, fun _ hmem => hqueue ▸ List.mem_cons_of_mem _ hmem⟩
    · split_ifs at h <;> obtain rfl := Option.some.inj h <;>
        exact ⟨rfl, rfl, List.tail_subset _⟩
    · cases h
  | abort exc =>
    dsimp only at h
    split at h
    · obtain rfl := Option.some.inj h
      exact ⟨rfl, rfl, fun _ hmem => hmem⟩
    · obtain rfl := Option.some.inj h
      exact ⟨rfl, rfl, fun _ hmem => hmem⟩
    · cases h
  | finish =>
    dsimp only at h
    split at h
    · cases h
    · split_ifs at h
      obtain rfl := Option.some.inj h
      exact ⟨rfl, rfl, fun _ hmem => hmem⟩
    · cases h
  | _ => exact absurd trivial he

/-- Chunks that are left behind stay there. -/
theorem abandoned_step (hw : w.Abandoned) (h : Step maxsize timeoutS w e w') : w'.Abandoned := by
  by_cases he : e.OfWorker
  · obtain ⟨hremaining, hworker⟩ := hw
    unfold Step step at h
    cases e with
    | takeChunk =>
      dsimp only at h
      split at h
      · rename_i hnext _
        rw [hnext] at hworker
        exact hworker.elim
      · rename_i hnext _
        rw [hnext] at hworker
        exact hworker.elim
      · cases h
    | put =>
      dsimp only at h
      split at h
      · rename_i hput
        rw [hput] at hworker
        exact hworker.elim
      · split_ifs at h
        obtain rfl := Option.some.inj h
        exact ⟨hremaining, trivial⟩
      · cases h
    | full =>
      dsimp only at h
      split_ifs at h
      split at h
      · rename_i hput
        rw [hput] at hworker
        exact hworker.elim
      · rename_i tries _
        obtain rfl := Option.some.inj h
        refine ⟨hremaining, ?_⟩
        by_cases hlast : w.lastTry tries = true <;> simp [hlast]
      · cases h
    | exit =>
      dsimp only at h
      split at h
      · obtain rfl := Option.some.inj h
        exact ⟨hremaining, trivial⟩
      · cases h
    | fail text =>
      dsimp only at h
      split at h
      · cases h
      · cases h
      · obtain rfl := Option.some.inj h
        exact ⟨hremaining, trivial⟩
    | die signal lost =>
      dsimp only at h
      split at h
      · cases h
      · obtain rfl := Option.some.inj h
        exact ⟨hremaining, trivial⟩
    | _ => cases he
  · obtain ⟨hremaining, hworker, -⟩ := parent_frame h he
    rw [World.Abandoned, hremaining, hworker]
    exact hw

/-- A run that leaves no chunk behind is one in which the worker never gives up. -/
theorem patient_of_not_abandoned {events : List Event}
    (h : Run (Step maxsize timeoutS) w events w') (hw' : ¬ w'.Abandoned) :
    Run (fun t e t' => Step maxsize timeoutS t e t' ∧ ¬ GivesUp t e) w events w' := by
  induction h with
  | nil => exact .nil
  | cons hstep hrun ih =>
    refine .cons ⟨hstep, fun hgives => hw' ?_⟩ (ih hw')
    exact hrun.invariant abandoned_step (abandoned_of_givesUp hstep hgives)

/-! ## Chunks that are not -/

/-- The worker has come to the end of the chunks: it says so, or goes without a failure. -/
def WorkerPc.Done : WorkerPc α → Prop
  | .next | .put _ _ => False
  | .sentinel _ _ | .exiting _ => True
  | .exited code => code = 0

/-- Wherever the end is signalled, no chunk is left. -/
structure World.Intact (w : World α) : Prop where
  worker : w.worker.Done → w.remaining = []
  queue : none ∈ w.queue → w.remaining = []
  parent : w.parent = .ended → w.remaining = []

theorem intact_takeChunk (hw : w.Intact) (hgives : ¬ GivesUp w .takeChunk)
    (h : Step maxsize timeoutS w .takeChunk w') : w'.Intact := by
  unfold Step step at h
  dsimp only at h
  split at h
  · rename_i hremaining
    split at h <;> obtain rfl := Option.some.inj h
    · exact ⟨fun _ => hremaining, hw.queue, hw.parent⟩
    · exact ⟨fun _ => hremaining, hw.queue, hw.parent⟩
  · rename_i chunk remaining hworker hremaining
    have hsome : w.remaining ≠ [] := by rw [hremaining]; exact List.cons_ne_nil _ _
    have hcancelled : ¬ w.cancelled = true := fun hc => hgives ⟨hworker, hsome, hc⟩
    rw [if_neg hcancelled] at h
    obtain rfl := Option.some.inj h
    exact ⟨fun h => h.elim, fun h => absurd (hw.queue h) hsome, fun h => absurd (hw.parent h) hsome⟩
  · cases h

theorem intact_put (hw : w.Intact) (h : Step maxsize timeoutS w .put w') : w'.Intact := by
  unfold Step step at h
  dsimp only at h
  split at h
  · split_ifs at h
    obtain rfl := Option.some.inj h
    refine ⟨fun h => h.elim, fun h => hw.queue ?_, hw.parent⟩
    simpa using h
  · rename_i hworker
    split_ifs at h
    obtain rfl := Option.some.inj h
    have hremaining := hw.worker (by rw [hworker]; trivial)
    exact ⟨fun _ => hremaining, fun _ => hremaining, hw.parent⟩
  · cases h

theorem intact_full (hw : w.Intact) (hgives : ¬ GivesUp w .full)
    (h : Step maxsize timeoutS w .full w') : w'.Intact := by
  unfold Step step at h
  dsimp only at h
  split_ifs at h
  split at h
  · rename_i chunk tries hworker
    have hlast : ¬ w.lastTry tries = true := fun hl => hgives ⟨chunk, tries, hworker, hl⟩
    rw [if_neg hlast, if_neg hlast] at h
    obtain rfl := Option.some.inj h
    exact ⟨fun h => h.elim, hw.queue, hw.parent⟩
  · rename_i hworker
    obtain rfl := Option.some.inj h
    have hremaining := hw.worker (by rw [hworker]; trivial)
    exact ⟨fun _ => hremaining, hw.queue, hw.parent⟩
  · cases h

/-- A worker that ends, of itself or not. -/
theorem World.Intact.exited (hw : w.Intact) (hremaining : w'.remaining = w.remaining)
    (hqueue : w'.queue ⊆ w.queue) (hparent : w'.parent = w.parent)
    (hworker : w'.worker.Done → w.worker.Done) : w'.Intact := by
  refine ⟨fun h => ?_, fun h => ?_, fun h => ?_⟩
  · exact hremaining.trans (hw.worker (hworker h))
  · exact hremaining.trans (hw.queue (hqueue h))
  · exact hremaining.trans (hw.parent (hparent.symm.trans h))

/-- The parent comes to the end by the sentinel or by the worker's. -/
theorem ended_of_step (h : Step maxsize timeoutS w e w') (he : ¬ e.OfWorker)
    (hended : w'.parent = .ended) : w.parent = .ended ∨ none ∈ w.queue ∨ w.worker.Done := by
  unfold Step step at h
  cases e with
  | send message =>
    obtain rfl := Option.some.inj h
    exact .inl hended
  | check expired =>
    dsimp only at h
    split at h
    · split_ifs at h
      · obtain rfl := Option.some.inj h
        cases hended
      · split at h <;> obtain rfl := Option.some.inj h <;> cases hended
    · cases h
  | receive =>
    dsimp only at h
    split at h
    · obtain rfl := Option.some.inj h
      cases hended
    · rename_i hqueue
      exact .inr (.inl (hqueue ▸ List.mem_cons_self))
    · cases h
  | empty =>
    dsimp only at h
    split at h
    · obtain rfl := Option.some.inj h
      cases hended
    · cases h
  | drain =>
    dsimp only at h
    split at h
    · rename_i hparent _
      obtain rfl := Option.some.inj h
      cases hparent.symm.trans hended
    · rename_i code _ hworker _
      split_ifs at h with hcode
      · obtain rfl := Option.some.inj h
        cases hended
      · refine .inr (.inr ?_)
        rw [hworker]
        exact not_not.1 hcode
    · cases h
  | abort exc =>
    dsimp only at h
    split at h
    · obtain rfl := Option.some.inj h
      cases hended
    · obtain rfl := Option.some.inj h
      cases hended
    · cases h
  | finish =>
    dsimp only at h
    split at h
    · cases h
    · rename_i hparent _
      exact .inl hparent
    · cases h
  | _ => exact absurd trivial he

/-- **While the worker does not give up, an end is signalled after the last chunk only.** -/
theorem intact_step (hw : w.Intact) (h : Step maxsize timeoutS w e w') (hgives : ¬ GivesUp w e) :
    w'.Intact := by
  by_cases he : e.OfWorker
  · cases e with
    | takeChunk => exact intact_takeChunk hw hgives h
    | put => exact intact_put hw h
    | full => exact intact_full hw hgives h
    | exit =>
      unfold Step step at h
      dsimp only at h
      split at h
      · rename_i hworker
        obtain rfl := Option.some.inj h
        exact hw.exited rfl (fun _ hmem => hmem) rfl fun _ => by rw [hworker]; trivial
      · cases h
    | fail text =>
      unfold Step step at h
      dsimp only at h
      split at h
      · cases h
      · cases h
      · obtain rfl := Option.some.inj h
        exact hw.exited rfl (fun _ hmem => hmem) rfl fun h => absurd h (by decide : (1 : ℤ) ≠ 0)
    | die signal lost =>
      unfold Step step at h
      dsimp only at h
      split at h
      · cases h
      · obtain rfl := Option.some.inj h
        have hkilled : (-(signal + 1 : ℤ)) ≠ 0 := by omega
        exact hw.exited rfl (List.take_subset _ _) rfl fun h => absurd h hkilled
    | _ => cases he
  · obtain ⟨hremaining, hworker, hqueue⟩ := parent_frame h he
    refine ⟨fun hdone => ?_, fun hmem => ?_, fun hended => ?_⟩
    · rw [hworker] at hdone
      exact hremaining.trans (hw.worker hdone)
    · exact hremaining.trans (hw.queue (hqueue hmem))
    · refine hremaining.trans ?_
      obtain hended | hmem | hdone := ended_of_step h he hended
      · exact hw.parent hended
      · exact hw.queue hmem
      · exact hw.worker hdone

/-! ## What is accepted -/

/-- What was accepted is what was yielded when the data ended. -/
def World.Accepted (w : World α) : Prop :=
  ∀ rows, w.dataset = some rows → w.parent = .ended ∧ rows = w.yielded

theorem accepted_step (hw : w.Accepted) (h : Step maxsize timeoutS w e w') : w'.Accepted := by
  by_cases he : e.OfWorker
  · obtain ⟨hparent, hyielded, hdataset⟩ := worker_frame h he
    rw [World.Accepted, hparent, hyielded, hdataset]
    exact hw
  unfold Step step at h
  intro rows hrows
  cases e with
  | send message =>
    obtain rfl := Option.some.inj h
    exact hw rows hrows
  | check expired =>
    dsimp only at h
    split at h
    · rename_i hparent
      have hnone : w.dataset ≠ some rows := fun hsome => by cases hparent.symm.trans (hw _ hsome).1
      split_ifs at h
      · obtain rfl := Option.some.inj h
        exact absurd hrows hnone
      · split at h <;> obtain rfl := Option.some.inj h <;> exact absurd hrows hnone
    · cases h
  | receive =>
    dsimp only at h
    split at h
    · rename_i hparent _
      obtain rfl := Option.some.inj h
      cases hparent.symm.trans (hw rows hrows).1
    · rename_i hparent _
      obtain rfl := Option.some.inj h
      cases hparent.symm.trans (hw rows hrows).1
    · cases h
  | empty =>
    dsimp only at h
    split at h
    · rename_i hparent
      obtain rfl := Option.some.inj h
      cases hparent.symm.trans (hw rows hrows).1
    · cases h
  | drain =>
    dsimp only at h
    split at h
    · rename_i hparent _
      obtain rfl := Option.some.inj h
      cases hparent.symm.trans (hw rows hrows).1
    · rename_i hparent _ _
      split_ifs at h <;> obtain rfl := Option.some.inj h <;>
        cases hparent.symm.trans (hw rows hrows).1
    · cases h
  | abort exc =>
    dsimp only at h
    split at h
    · rename_i hparent
      obtain rfl := Option.some.inj h
      cases hparent.symm.trans (hw rows hrows).1
    · rename_i hparent
      obtain rfl := Option.some.inj h
      cases hparent.symm.trans (hw rows hrows).1
    · cases h
  | finish =>
    dsimp only at h
    split at h
    · cases h
    · rename_i hparent _
      split_ifs at h
      obtain rfl := Option.some.inj h
      exact ⟨hparent, (Option.some.inj hrows).symm⟩
    · cases h
  | _ => exact absurd trivial he

/-- The worker has just been started on a file whose processor gives `chunks`, and then raises
    `failure` or not. -/
def start (chunks : List α) (failure : Option String) : World α :=
  { remaining := chunks, failure := failure }

theorem start_flow (chunks : List α) (failure : Option String) :
    Flow chunks (start chunks failure) [] false :=
  ⟨rfl, List.nil_prefix, fun _ => rfl, (fun h => by cases h), fun h => by cases h⟩

theorem start_intact (chunks : List α) (failure : Option String) :
    (start chunks failure).Intact :=
  ⟨fun h => h.elim, (fun h => by cases h), fun h => by cases h⟩

/-- At the end of the data the first chunks have been yielded, and the worker has the rest. -/
theorem yielded_of_ended {failure : Option String} {events : List Event}
    (h : Run (Step maxsize timeoutS) (start chunks failure) events w)
    (hended : w.parent = .ended) : w.worker.Past ∧ w.yielded ++ w.remaining = chunks := by
  have hstart : Flows chunks (start chunks failure) := ⟨[], false, start_flow chunks failure⟩
  have hflows : Flows chunks w := h.invariant flows_step hstart
  obtain ⟨items, sentinel, hflow⟩ := hflows
  exact hflow.ended hended

/-- **Where `iter_data` ends, all chunks were yielded and accepted if and only if the worker was
    neither cancelled with chunks to go nor gave up a put.** -/
theorem complete_iff_patient {failure : Option String} {events : List Event}
    (h : Run (Step maxsize timeoutS) (start chunks failure) events w)
    (hended : w.parent = .ended) :
    (w.yielded = chunks ∧ ∀ rows, w.dataset = some rows → rows = chunks) ↔
      Run (fun t e t' => Step maxsize timeoutS t e t' ∧ ¬ GivesUp t e) (start chunks failure)
        events w := by
  obtain ⟨hpast, hall⟩ := yielded_of_ended h hended
  constructor
  · rintro ⟨hyielded, -⟩
    refine patient_of_not_abandoned h fun habandoned => habandoned.1 ?_
    rw [hyielded] at hall
    exact List.append_right_eq_self.1 hall
  · intro hpatient
    have hintact : w.Intact :=
      hpatient.invariant (fun hs hstep => intact_step hs hstep.1 hstep.2)
        (start_intact chunks failure)
    have hyielded : w.yielded = chunks := by
      rw [hintact.parent hended, List.append_nil] at hall
      exact hall
    have haccepted : w.Accepted := h.invariant accepted_step fun rows hrows => by cases hrows
    exact ⟨hyielded, fun rows hrows => (haccepted rows hrows).2.trans hyielded⟩

/-- Two chunks that were read through a queue of one. -/
def bothRead : World ℕ where
  remaining := []
  worker := .exited 0
  progress := [.completed]
  parent := .ended
  yielded := [0, 1]
  dataset := some [0, 1]

theorem bothRead_patient :
    (bothRead.yielded = [0, 1] ∧ ∀ rows, bothRead.dataset = some rows → rows = [0, 1]) ↔
      Run (fun t e t' => Step 1 1800 t e t' ∧ ¬ GivesUp t e) (start [0, 1] none)
        [.takeChunk, .put, .takeChunk, .full, .check false, .receive, .put, .check false,
          .receive, .takeChunk, .put, .check false, .exit, .receive, .finish] bothRead :=
  complete_iff_patient (by
    repeat' first
      | exact .nil
      | refine .cons rfl ?_) rfl

/-- The worker has put a chunk on a queue of one, and has the next one at hand, when the consumer
    stalls; ten timeouts later it goes with code 0. -/
theorem prefix_accepted :
    Run (Step 1 1800) (start [0, 1] none)
      ([.takeChunk, .put, .takeChunk] ++ List.replicate 10 .full ++
        [.exit, .check false, .drain, .drain, .finish])
      { start [0, 1] none with
        remaining := [1]
        worker := .exited 0
        progress := [.cancelled]
        parent := .ended
        yielded := [0]
        dataset := some [0] } := by
  repeat' first
    | exact .nil
    | refine .cons rfl ?_

end

end Streaming

end AimData
