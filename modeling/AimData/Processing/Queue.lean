/-
  The processing queue: datasets that wait, the workers that process them, and the
  positions that are reported.

  All workers share one field for the item in processing, so it tells about the worker
  that took an item last, and nothing once any of them is done.  The reported positions
  are right in every state of a run just when no worker takes an item while another one
  is processing: `positions_exact_iff`.
-/
import AimData.Lib.Run

namespace AimData

namespace Processing

/-! ## The queue -/

structure Progress where
  phase : String
  progressPct : ℚ
  detail : String
  deriving DecidableEq

/-- The queue and its workers; a worker is at the dataset that it processes.  The
    semaphore has a permit for each worker, so that none of them waits for it. -/
structure Queue where
  concurrency : ℕ
  queue : List String
  current : Option String
  progress : String → Option Progress
  workers : ℕ → Option String

def Queue.start (concurrency : ℕ) : Queue := ⟨concurrency, [], none, fun _ => none, fun _ => none⟩

namespace Queue

variable (s : Queue)

def updateProgress (datasetId phase : String) (progressPct : ℚ) (detail : String) : Queue :=
  { s with progress :=
      Function.update s.progress datasetId (some ⟨phase, min progressPct 100, detail⟩) }

def clearProgress (datasetId : String) : Queue :=
  { s with progress := Function.update s.progress datasetId none }

/-- `submit`, with the depth that it returns. -/
def submit (datasetId : String) : ℕ × Queue :=
  let queue := s.queue ++ [datasetId]
  let depth := queue.length
  (depth, { s with queue := queue }.updateProgress datasetId "queued" 0
    ("Queue position #" ++ toString depth))

end Queue

/-- The loop of `get_position` over the waiting items. -/
def positionFrom (datasetId : String) (pos : ℕ) : List String → Option ℕ
  | [] => none
  | item :: items => if item = datasetId then some pos else positionFrom datasetId (pos + 1) items

def getPosition (s : Queue) (datasetId : String) : Option ℕ :=
  if s.current = some datasetId then some 0 else positionFrom datasetId 1 s.queue

/-- `worker_loop`, up to the call that processes the item. -/
def dequeue (s : Queue) (w : ℕ) (item : String) (items : List String) : Queue :=
  { s with
    queue := items
    current := some item
    workers := Function.update s.workers w (some item) }.updateProgress item "extracting" 0
      "Starting…"

/-- The `finally` block, after the call returned or raised. -/
def finish (s : Queue) (w : ℕ) (item : String) : Queue :=
  { s.clearProgress item with current := none, workers := Function.update s.workers w none }

inductive Event where
  | submit (datasetId : String)
  | dequeue (w : ℕ)
  | progress (datasetId : String)
  | finish (w : ℕ)

inductive Step : Queue → Event → Queue → Prop
  | submit {s : Queue} {datasetId : String} : Step s (.submit datasetId) (s.submit datasetId).2
  | dequeue {s : Queue} {w : ℕ} {item : String} {items : List String} : w < s.concurrency →
    s.workers w = none → s.queue = item :: items → Step s (.dequeue w) (dequeue s w item items)
  | progress {s : Queue} {w : ℕ} {item phase detail : String} {pct : ℚ} :
    s.workers w = some item →
    Step s (.progress item) (s.updateProgress item phase pct detail)
  | finish {s : Queue} {w : ℕ} {item : String} : s.workers w = some item →
    Step s (.finish w) (finish s w item)

/-! ## Positions -/

/-- A worker is processing the dataset. -/
def IsProcessed (s : Queue) (datasetId : String) : Prop := ∃ w, s.workers w = some datasetId

/-- The positions are 0 for what is processed, the place in the queue for what else waits,
    and absent for the rest; and no dataset is processed twice at a time. -/
structure Exact (s : Queue) : Prop where
  processed : ∀ datasetId, getPosition s datasetId = some 0 ↔ IsProcessed s datasetId
  waiting : ∀ datasetId, ¬ IsProcessed s datasetId → datasetId ∈ s.queue →
    getPosition s datasetId = some (s.queue.idxOf datasetId + 1)
  absent : ∀ datasetId, ¬ IsProcessed s datasetId → datasetId ∉ s.queue →
    getPosition s datasetId = none
  single : ∀ datasetId w w', s.workers w = some datasetId → s.workers w' = some datasetId → w = w'

/-- A worker takes an item only while no other is processing one. -/
def Alone (s : Queue) : Event → Prop
  | .dequeue _ => ∀ w, s.workers w = none
  | _ => True

section
variable {s s' : Queue} {e : Event} {es : List Event} {datasetId : String}

theorem positionFrom_of_mem {items : List String} {pos : ℕ} (h : datasetId ∈ items) :
    positionFrom datasetId pos items = some (items.idxOf datasetId + pos) := by
  induction items generalizing pos with
  | nil => cases h
  | cons item items ih =>
    rw [positionFrom]
    by_cases heq : item = datasetId
    · rw [if_pos heq, heq, List.idxOf_cons_self, Nat.zero_add]
    · have hmem := (List.mem_cons.1 h).resolve_left (Ne.symm heq)
      rw [if_neg heq, ih hmem, List.idxOf_cons_ne _ heq, Nat.succ_add_eq_add_succ]

theorem positionFrom_of_notMem {items : List String} {pos : ℕ} (h : datasetId ∉ items) :
    positionFrom datasetId pos items = none := by
  induction items generalizing pos with
  | nil => rfl
  | cons item items ih =>
    rw [List.mem_cons, not_or] at h
    rw [positionFrom, if_neg (Ne.symm h.1), ih h.2]

/-- Only the current item has position 0. -/
theorem getPosition_zero : getPosition s datasetId = some 0 ↔ s.current = some datasetId := by
  rw [getPosition]
  constructor
  · intro h
    by_contra hne
    rw [if_neg hne] at h
    by_cases hmem : datasetId ∈ s.queue
    · rw [positionFrom_of_mem hmem] at h
      cases h
    · rw [positionFrom_of_notMem hmem] at h
      cases h
  · exact fun h => if_pos h

/-- At most one worker is processing an item, and it is the current one. -/
structure Serial (s : Queue) : Prop where
  current : ∀ datasetId, s.current = some datasetId ↔ IsProcessed s datasetId
  single : ∀ w w' item item', s.workers w = some item → s.workers w' = some item' → w = w'

theorem Serial.exact (h : Serial s) : Exact s := by
  have hcurrent : ∀ datasetId, ¬ IsProcessed s datasetId → s.current ≠ some datasetId :=
    fun datasetId hnot heq => hnot ((h.current datasetId).1 heq)
  refine ⟨?_, ?_, ?_, ?_⟩
  · intro datasetId
    rw [getPosition_zero, h.current]
  · intro datasetId hnot hmem
    rw [getPosition, if_neg (hcurrent datasetId hnot), positionFrom_of_mem hmem]
  · intro datasetId hnot hmem
    rw [getPosition, if_neg (hcurrent datasetId hnot), positionFrom_of_notMem hmem]
  · exact fun datasetId w w' hw hw' => h.single w w' _ _ hw hw'

theorem serial_start {concurrency : ℕ} : Serial (.start concurrency) where
  current := by
    intro datasetId
    constructor
    · exact fun h => nomatch h
    · rintro ⟨_, h⟩
      exact nomatch h
  single := fun _ _ _ _ h => nomatch h

/-- What a worker does alone leaves the workers one at a time. -/
theorem Serial.step (h : Serial s) (hstep : Step s e s') (halone : Alone s e) : Serial s' := by
  cases hstep with
  | submit => exact ⟨h.current, h.single⟩
  | progress => exact ⟨h.current, h.single⟩
  | @dequeue w item items hw hidle hqueue =>
    have hworkers : ∀ w' item', Function.update s.workers w (some item) w' = some item' ↔
        w' = w ∧ item' = item := by
      intro w' item'
      by_cases heq : w' = w
      · rw [heq, Function.update_self, Option.some.injEq, eq_comm, and_iff_right rfl]
      · rw [Function.update_of_ne heq, halone w']
        simp [heq]
    refine ⟨?_, ?_⟩
    · intro datasetId
      change some item = some datasetId ↔ ∃ w', Function.update s.workers w (some item) w' = _
      simp only [hworkers, Option.some.injEq, exists_eq_left]
      exact eq_comm
    · intro w₁ w₂ item₁ item₂ h₁ h₂
      exact ((hworkers w₁ item₁).1 h₁).1.trans ((hworkers w₂ item₂).1 h₂).1.symm
  | @finish w item hw =>
    have hworkers : ∀ w', Function.update s.workers w none w' = none := by
      intro w'
      by_cases heq : w' = w
      · rw [heq, Function.update_self]
      · rw [Function.update_of_ne heq]
        cases hw' : s.workers w' with
        | none => rfl
        | some item' => exact absurd (h.single w' w item' item hw' hw) heq
    refine ⟨?_, ?_⟩
    · intro datasetId
      constructor
      · exact fun h => nomatch h
      · rintro ⟨w', hw'⟩
        exact nomatch (hworkers w').symm.trans hw'
    · intro w₁ w₂ item₁ item₂ h₁
      exact nomatch (hworkers w₁).symm.trans h₁

/-- A worker that is not alone is not reported, or processes the same dataset. -/
theorem Exact.alone (h : Exact s') (hstep : Step s e s') : Alone s e := by
  cases hstep with
  | submit => trivial
  | progress => trivial
  | finish => trivial
  | @dequeue w item items hw hidle hqueue =>
    intro w'
    by_contra hbusy
    obtain ⟨item', hw'⟩ := Option.ne_none_iff_exists'.1 hbusy
    have hne : w' ≠ w := by
      rintro rfl
      exact hbusy hidle
    have hself : (dequeue s w item items).workers w = some item := Function.update_self ..
    have hother : (dequeue s w item items).workers w' = some item' :=
      (Function.update_of_ne hne ..).trans hw'
    have hcurrent := getPosition_zero.1 ((h.processed item').2 ⟨w', hother⟩)
    have heq : item = item' := Option.some.inj hcurrent
    exact hne (h.single item w' w (heq ▸ hother) hself)

/-- With one worker, only worker 0 is ever busy. -/
structure OneWorker (s : Queue) : Prop where
  serial : Serial s
  concurrency : s.concurrency = 1
  busy : ∀ w item, s.workers w = some item → w = 0

theorem OneWorker.step (h : OneWorker s) (hstep : Step s e s') : OneWorker s' := by
  have halone : Alone s e := by
    cases hstep with
    | submit => trivial
    | progress => trivial
    | finish => trivial
    | @dequeue w item items hw hidle hqueue =>
      intro w'
      cases hw' : s.workers w' with
      | none => rfl
      | some item' =>
        have hzero := h.concurrency ▸ hw
        rw [h.busy w' item' hw', ← Nat.lt_one_iff.1 hzero, hidle] at hw'
        cases hw'
  refine ⟨h.serial.step hstep halone, ?_, ?_⟩
  · cases hstep <;> exact h.concurrency
  · cases hstep with
    | submit => exact h.busy
    | progress => exact h.busy
    | @dequeue w item items hw hidle hqueue =>
      intro w' item' hw'
      by_cases heq : w' = w
      · exact heq ▸ Nat.lt_one_iff.1 (h.concurrency ▸ hw)
      · exact h.busy w' item' ((Function.update_of_ne heq ..).symm.trans hw')
    | @finish w item hw =>
      intro w' item' hw'
      by_cases heq : w' = w
      · rw [heq, h.busy w item hw]
      · exact h.busy w' item' ((Function.update_of_ne heq ..).symm.trans hw')

/-- One worker is always reported right. -/
theorem exact_of_one (h : Run Step (.start 1) es s) : Exact s :=
  (Run.invariant (fun hone hstep => OneWorker.step hone hstep) h
    ⟨serial_start, rfl, fun _ _ hw => nomatch hw⟩).serial.exact

/-- **The positions are right throughout a run just when no worker of it takes an item
    while another one is processing.** -/
theorem positions_exact_iff {concurrency : ℕ} :
    Run (fun s e s' => Step s e s' ∧ Exact s') (.start concurrency) es s ↔
      Run (fun s e s' => Step s e s' ∧ Alone s e) (.start concurrency) es s := by
  constructor
  · intro h
    exact h.mono (fun _ hstep => ⟨trivial, hstep.1, hstep.2.alone hstep.1⟩) trivial
  · intro h
    exact h.mono (fun hserial hstep =>
      have hserial' := Serial.step hserial hstep.1 hstep.2
      ⟨hserial', hstep.1, hserial'.exact⟩) serial_start

end

/-- The datasets of two workers: the first one is processed and has no position. -/
theorem two_workers_unreported : ∃ s, Run Step (.start 2)
    [.submit "a", .submit "b", .dequeue 0, .dequeue 1] s ∧ IsProcessed s "a" ∧
      getPosition s "a" = none ∧ ¬ Exact s := by
  have hrun : Run Step (.start 2) [.submit "a", .submit "b", .dequeue 0, .dequeue 1] _ :=
    .cons .submit (.cons .submit (.cons (.dequeue (by decide) rfl rfl)
      (.cons (.dequeue (by decide) rfl rfl) .nil)))
  refine ⟨_, hrun, ⟨0, rfl⟩, by decide, ?_⟩
  intro h
  exact nomatch (h.processed "a").2 ⟨0, rfl⟩

end Processing

end AimData
