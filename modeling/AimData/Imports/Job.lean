/-
  An import job: its files are copied and queued one after the other.

  The job's status is written at the head of each round, where a cancel is seen, and after
  the last file, where nothing is written for a job that is cancelled (`runImport`).  What
  the files and the other requests do while a file is copied is its script.
-/
import Mathlib.Tactic

namespace AimData

namespace Imports

/-! ## Jobs -/

inductive JobStatus where
  | running
  | complete
  | cancelled
  | error
  deriving DecidableEq

inductive FileStatus where
  | pending
  | copying
  | processing
  | ready
  | error
  deriving DecidableEq

/-- `ImportFileEntry`; `queued` says whether its dataset was submitted for processing. -/
structure ImportFileEntry where
  relativePath : String
  sourcePath : String
  sizeBytes : ℕ
  status : FileStatus := .pending
  datasetId : Option String := none
  bytesCopied : ℕ := 0
  error : Option String := none
  queued : Bool := false

structure ImportJob where
  status : JobStatus := .running
  files : List ImportFileEntry := []
  totalBytes : ℕ := 0
  bytesCopied : ℕ := 0
  cancelled : Bool := false

/-! ## Starting a job -/

/-- What `validate_import_path` raises: a `ValueError`, or an exception of the file system. -/
inductive PathFailure where
  | valueError (message : String)
  | other (message : String)
  deriving DecidableEq

/-- A file that is asked for: the check of its path, whether it is a file, and its size. -/
structure Source where
  relativePath : String
  sourcePath : String
  validate : Option PathFailure
  isFile : Bool
  size : ℕ

def Source.entry (source : Source) : ImportFileEntry where
  relativePath := source.relativePath
  sourcePath := source.sourcePath
  sizeBytes := source.size

/-- The entries of the files that are asked for. -/
def buildEntries : List Source → Except PathFailure (List ImportFileEntry)
  | [] => .ok []
  | source :: sources =>
    match source.validate with
    | some e => .error e
    | none =>
      if source.isFile then do return source.entry :: (← buildEntries sources)
      else .error (.valueError ("Not a file: " ++ source.relativePath))

/-- A job of some files. -/
def ImportJob.ofSources (sources : List Source) : ImportJob where
  files := sources.map Source.entry
  totalBytes := (sources.map Source.size).sum

/-- `ImportService.start_import`, of the status of the current job; `insufficient` is the message
    where the disk has not the space with its margin. -/
def startImport (current : Option JobStatus) (base : Option PathFailure) (sources : List Source)
    (insufficient : ℕ → Option String) : Except PathFailure ImportJob :=
  if current = some .running then .error (.valueError "An import is already running")
  else
    match base with
    | some e => .error e
    | none => do
      let entries ← buildEntries sources
      let totalBytes := (entries.map ImportFileEntry.sizeBytes).sum
      match insufficient totalBytes with
      | some message => .error (.valueError message)
      | none => return { files := entries, totalBytes := totalBytes }

/-- `ImportService.cancel_job`, of a job that is there -/
def cancelJob (job : ImportJob) : ImportJob × Bool :=
  if job.status = .running then ({ job with cancelled := true }, true) else (job, false)

/-! ## Copying a file -/

/-- What happens while the copy waits: nothing, another request cancels the job, or the task that
    runs the import is cancelled. -/
inductive Event where
  | none
  | cancelJob
  | taskCancelled
  deriving DecidableEq

def copyChunk : ℕ := 64 * 1024 * 1024

/-- A read that gives bytes, and what happens at the wait after it. -/
structure Chunk where
  length : ℕ
  event : Event
  pos : 0 < length
  le : length ≤ copyChunk

/-- What is met while a file is imported: the check of its path, the message if it cannot be
    opened, the identifier of its record or the message if that fails, the message if the
    destination fails, what the reads give one after the other, the message if a read or a write
    then fails (or else the file ends), and the message if the submission fails. -/
structure Script where
  validate : Option PathFailure
  opened : Option String
  record : Except String String
  destination : Option String
  chunks : List Chunk
  failure : Option String
  submit : Option String

inductive CopyEnding where
  | done
  | failed (message : String)
  | taskCancelled
  deriving DecidableEq

structure Copy where
  copied : ℕ
  jobBytes : ℕ
  cancelled : Bool
  ending : CopyEnding

/-- The copy loop from some bytes on; a read gives at most what remains. -/
def copyLoop (maxBytes : ℕ) (failure : Option String) :
    List Chunk → ℕ → ℕ → Bool → Copy
  | [], copied, jobBytes, cancelled =>
    if maxBytes ≤ copied then ⟨copied, jobBytes, cancelled, .done⟩
    else ⟨copied, jobBytes, cancelled, (failure.map CopyEnding.failed).getD .done⟩
  | chunk :: chunks, copied, jobBytes, cancelled =>
    if maxBytes ≤ copied then ⟨copied, jobBytes, cancelled, .done⟩
    else
      let n := min chunk.length (maxBytes - copied)
      match chunk.event with
      | .none => copyLoop maxBytes failure chunks (copied + n) (jobBytes + n) cancelled
      | .cancelJob => copyLoop maxBytes failure chunks (copied + n) (jobBytes + n) true
      | .taskCancelled => ⟨copied + n, jobBytes + n, cancelled, .taskCancelled⟩

/-- An entry and the job after a round, and whether an exception leaves the loop. -/
structure Round where
  entry : ImportFileEntry
  job : ImportJob
  escaped : Bool := false

/-- The round from the record to the submission; `except Exception` takes every exception of it
    but the cancelled task's. -/
def copyFile (script : Script) (entry : ImportFileEntry) (job : ImportJob) : Round :=
  match script.record with
  | .error m => { entry := { entry with status := .error, error := some m }, job := job }
  | .ok id =>
    let entry := { entry with datasetId := some id }
    match script.destination with
    | some m => { entry := { entry with status := .error, error := some m }, job := job }
    | none =>
      let copy := copyLoop entry.sizeBytes script.failure script.chunks 0 job.bytesCopied
        job.cancelled
      let job := { job with bytesCopied := copy.jobBytes, cancelled := copy.cancelled }
      let entry := { entry with bytesCopied := copy.copied }
      match copy.ending with
      | .taskCancelled => { entry := entry, job := job, escaped := true }
      | .failed m => { entry := { entry with status := .error, error := some m }, job := job }
      | .done =>
        match script.submit with
        | some m => { entry := { entry with status := .error, error := some m }, job := job }
        | none => { entry := { entry with status := .processing, queued := true }, job := job }

/-- A round of the loop of `run_import`, of a job that is not cancelled. -/
def importFile (script : Script) (entry : ImportFileEntry) (job : ImportJob) : Round :=
  match script.validate with
  | some (.valueError _) =>
    { entry := { entry with status := .error
                            error := some "Security: path changed since import start" }
      job := job }
  | some (.other _) => { entry := { entry with status := .copying }, job := job, escaped := true }
  | none =>
    match script.opened with
    | some m =>
      { entry := { entry with status := .error, error := some ("Cannot open file: " ++ m) }
        job := job }
    | none => copyFile script { entry with status := .copying } job

/-! ## The run -/

/-- How the loop is left. -/
inductive LoopEnd where
  | finished
  | returned
  | escaped
  deriving DecidableEq

/-- The rounds: the entries and the job when the loop is left, and how. -/
def importFiles : List (ImportFileEntry × Script) → ImportJob →
    List ImportFileEntry × ImportJob × LoopEnd
  | [], job => ([], job, .finished)
  | (entry, script) :: files, job =>
    if job.cancelled then
      (entry :: files.map Prod.fst, { job with status := .cancelled }, .returned)
    else
      let round := importFile script entry job
      if round.escaped then (round.entry :: files.map Prod.fst, round.job, .escaped)
      else
        let (entries, job, ending) := importFiles files round.job
        (round.entry :: entries, job, ending)

/-- `ImportService.run_import`, of the script of each file; `setup` says that the service or the
    upload directory raises. -/
def runImport (setup : Bool) (job : ImportJob) (scripts : ℕ → Script) : ImportJob :=
  if setup then job
  else
    let (entries, job, ending) := importFiles (job.files.zipIdx.map fun p => (p.1, scripts p.2)) job
    let job := { job with files := entries }
    if ending = .finished ∧ job.cancelled = false then
      let allOk := entries.all fun e => e.status = .processing ∨ e.status = .ready
      { job with status := if allOk then .complete else .error }
    else job

/-! ## When a job is sound -/

/-- What is to hold of a job whose run has ended: its status is a final one, it is complete only
    if every file was copied whole and queued, and no file that was copied short is queued. -/
structure Sound (job : ImportJob) : Prop where
  ended : job.status ∈ [JobStatus.complete, .cancelled, .error]
  complete : job.status = .complete → ∀ e ∈ job.files, e.bytesCopied = e.sizeBytes ∧ e.queued = true
  short : ∀ e ∈ job.files, e.queued = true → e.bytesCopied = e.sizeBytes

/-- The reads that are made for some bytes. -/
def reached : ℕ → List Chunk → List Chunk
  | _, [] => []
  | 0, _ => []
  | remaining + 1, chunk :: chunks => chunk :: reached (remaining + 1 - chunk.length) chunks

namespace Script

variable (s : Script) (size : ℕ)

/-- The copy is begun. -/
def Copies : Prop :=
  s.validate = none ∧ s.opened = none ∧ (∃ id, s.record = .ok id) ∧ s.destination = none

/-- An exception leaves the loop: one of the file system from the check of the path, or that of the
    cancelled task. -/
def Escapes : Prop :=
  (∃ m, s.validate = some (.other m)) ∨
    s.Copies ∧ ∃ chunk ∈ reached size s.chunks, chunk.event = .taskCancelled

/-- The job is cancelled while the file is copied. -/
def Cancels : Prop := s.Copies ∧ ∃ chunk ∈ reached size s.chunks, chunk.event = .cancelJob

/-- The file ends before its recorded size, without an exception, and is submitted. -/
def EndsEarly : Prop :=
  s.Copies ∧ (s.chunks.map Chunk.length).sum < size ∧ s.failure = none ∧ s.submit = none

end Script

/-- A run of files from a job, cancelled or not: up to the first file that finds the job cancelled
    no exception leaves the loop and no file ends early, and no cancel comes after the last file
    was taken up. -/
def Settles : Bool → List (ℕ × Script) → Prop
  | cancelled, [] => cancelled = false
  | cancelled, (size, s) :: files => cancelled = true ∨
      ¬ s.Escapes size ∧ ¬ s.EndsEarly size ∧
        ((s.Cancels size → Settles true files) ∧ (¬ s.Cancels size → Settles false files))

/-! ## The copy loop -/

theorem exists_reached_cons {P : Chunk → Prop} {n : ℕ} (hn : 0 < n) {chunk : Chunk}
    {chunks : List Chunk} : (∃ c ∈ reached n (chunk :: chunks), P c) ↔
      P chunk ∨ ∃ c ∈ reached (n - chunk.length) chunks, P c := by
  obtain ⟨n, rfl⟩ := Nat.exists_eq_succ_of_ne_zero hn.ne'
  simp [reached]

/-- A copy that the task's end does not cut short. -/
theorem copyLoop_spec {maxBytes copied : ℕ} (failure : Option String) (chunks : List Chunk)
    (hle : copied ≤ maxBytes) (jobBytes : ℕ) (cancelled : Bool) :
    let copy := copyLoop maxBytes failure chunks copied jobBytes cancelled
    let cut := ∃ c ∈ reached (maxBytes - copied) chunks, c.event = .taskCancelled
    (copy.ending = .taskCancelled ↔ cut) ∧
    (¬ cut → (copy.cancelled = true ↔ cancelled = true ∨
        ∃ c ∈ reached (maxBytes - copied) chunks, c.event = .cancelJob) ∧
      copy.copied = min maxBytes (copied + (chunks.map Chunk.length).sum) ∧
      (copy.ending = .done ↔
        maxBytes ≤ copied + (chunks.map Chunk.length).sum ∨ failure = none)) := by
  induction chunks generalizing copied jobBytes cancelled with
  | nil =>
    by_cases h : maxBytes ≤ copied
    · simp [copyLoop, reached, le_antisymm hle h]
    · cases failure with
      | none => simp [copyLoop, h, reached, hle]
      | some m => simp [copyLoop, h, reached, hle]
  | cons chunk chunks ih =>
    by_cases h : maxBytes ≤ copied
    · obtain rfl := le_antisymm hle h
      have hnone : reached 0 (chunk :: chunks) = [] := rfl
      simp [copyLoop, hnone]
    · have hpos : 0 < maxBytes - copied := by omega
      have hrest : maxBytes - (copied + min chunk.length (maxBytes - copied)) =
          maxBytes - copied - chunk.length := by omega
      have hle' : copied + min chunk.length (maxBytes - copied) ≤ maxBytes := by omega
      simp only [copyLoop, if_neg h, exists_reached_cons hpos, List.map_cons, List.sum_cons]
      cases hevent : chunk.event with
      | taskCancelled => simp
      | none =>
        obtain ⟨hending, hcopy⟩ := ih hle' (jobBytes + min chunk.length (maxBytes - copied))
          cancelled
        rw [hrest] at hending hcopy
        simp only [reduceCtorEq, false_or]
        refine ⟨hending, fun hcut => ?_⟩
        obtain ⟨hflag, hcopied, hdone⟩ := hcopy hcut
        refine ⟨hflag, hcopied.trans (by omega), hdone.trans (or_congr_left ?_)⟩
        omega
      | cancelJob =>
        obtain ⟨hending, hcopy⟩ := ih hle' (jobBytes + min chunk.length (maxBytes - copied)) true
        rw [hrest] at hending hcopy
        simp only [reduceCtorEq, false_or, true_or, or_true, iff_true]
        refine ⟨hending, fun hcut => ?_⟩
        obtain ⟨hflag, hcopied, hdone⟩ := hcopy hcut
        refine ⟨hflag.2 (.inl rfl), hcopied.trans (by omega), hdone.trans (or_congr_left ?_)⟩
        omega

/-! ## A round -/

/-- What a round leaves, of an entry that has not been taken up. -/
structure Leaves (s : Script) (entry : ImportFileEntry) (job : ImportJob) (round : Round) :
    Prop where
  escaped : round.escaped = true ↔ s.Escapes entry.sizeBytes
  cancelled : round.escaped = false → (round.job.cancelled = true ↔ s.Cancels entry.sizeBytes)
  status : round.job.status = job.status
  queued : round.entry.queued = true → (round.entry.bytesCopied ≠ round.entry.sizeBytes ↔
    s.EndsEarly entry.sizeBytes)
  early : round.escaped = false → s.EndsEarly entry.sizeBytes → round.entry.queued = true
  processing : round.entry.status = .processing ∨ round.entry.status = .ready →
    round.entry.queued = true

section
variable {s : Script} {entry : ImportFileEntry} {job : ImportJob}

/-- A round that reaches the copy. -/
theorem copied_leaves (hcopies : s.Copies) (hqueued : entry.queued = false)
    (hcancelled : job.cancelled = false) (round : Round)
    (hround : copyFile s { entry with status := .copying } job = round) :
    Leaves s entry job round := by
  obtain ⟨hvalidate, hopened, ⟨id, hrecord⟩, hdestination⟩ := id hcopies
  have hspec := copyLoop_spec s.failure s.chunks (Nat.zero_le entry.sizeBytes) job.bytesCopied
    job.cancelled
  simp only [copyFile, hrecord, hdestination] at hround
  generalize copyLoop entry.sizeBytes s.failure s.chunks 0 job.bytesCopied job.cancelled = copy
    at hspec hround
  simp only [Nat.sub_zero, zero_add, hcancelled, Bool.false_eq_true, false_or] at hspec
  obtain ⟨hending, hcopy⟩ := hspec
  have hescapes : s.Escapes entry.sizeBytes ↔ copy.ending = .taskCancelled := by
    rw [hending, Script.Escapes]
    simp [hvalidate, hcopies]
  cases hcase : copy.ending with
  | taskCancelled =>
    simp only [hcase] at hround
    subst hround
    refine ⟨?_, fun h => ?_, rfl, fun h => ?_, fun h => ?_, fun h => ?_⟩
    · simp [hescapes, hcase]
    · cases h
    · exact absurd h (by simp [hqueued])
    · cases h
    · simp at h
  | failed m =>
    simp only [hcase] at hround
    subst hround
    obtain ⟨hflag, -, hdone⟩ := hcopy fun h => by rw [hending.2 h] at hcase; cases hcase
    refine ⟨?_, fun _ => ?_, rfl, fun h => ?_, fun _ h => ?_, fun h => ?_⟩
    · simp [hescapes, hcase]
    · exact hflag.trans (by simp [Script.Cancels, hcopies])
    · exact absurd h (by simp [hqueued])
    · rw [hdone.2 (.inr h.2.2.1)] at hcase
      cases hcase
    · simp at h
  | done =>
    obtain ⟨hflag, hcopied, hdone⟩ := hcopy fun h => by rw [hending.2 h] at hcase; cases hcase
    have hcancels : copy.cancelled = true ↔ s.Cancels entry.sizeBytes :=
      hflag.trans (by simp [Script.Cancels, hcopies])
    cases hsubmit : s.submit with
    | some m =>
      simp only [hcase, hsubmit] at hround
      subst hround
      refine ⟨?_, fun _ => hcancels, rfl, fun h => ?_, fun _ h => ?_, fun h => ?_⟩
      · simp [hescapes, hcase]
      · exact absurd h (by simp [hqueued])
      · have := h.2.2.2
        rw [hsubmit] at this
        cases this
      · simp at h
    | none =>
      simp only [hcase, hsubmit] at hround
      subst hround
      refine ⟨?_, fun _ => hcancels, rfl, fun _ => ?_, fun _ _ => rfl, fun _ => rfl⟩
      · simp [hescapes, hcase]
      · have hdone := hdone.1 hcase
        simp only [Script.EndsEarly, hcopies, hsubmit, true_and, and_true, hcopied, ne_eq]
        constructor
        · intro hne
          have hlt : (s.chunks.map Chunk.length).sum < entry.sizeBytes := by omega
          exact ⟨hlt, hdone.resolve_left (by omega)⟩
        · rintro ⟨hlt, -⟩
          omega

theorem importFile_leaves (hqueued : entry.queued = false)
    (hcancelled : job.cancelled = false) : Leaves s entry job (importFile s entry job) := by
  -- a round that stops before the copy
  have hstop : ∀ round : Round, ¬ s.Copies → (round.escaped = true ↔
      ∃ m, s.validate = some (.other m)) → round.job = job → round.entry.queued = false →
      round.entry.status ≠ .processing ∧ round.entry.status ≠ .ready →
      Leaves s entry job round := by
    intro round hcopies hescaped hjob hq hstatus
    refine ⟨hescaped.trans ?_, fun _ => ?_, by rw [hjob], fun h => ?_, fun _ h => ?_, fun h => ?_⟩
    · rw [Script.Escapes, or_iff_left fun h => hcopies h.1]
    · rw [hjob, hcancelled, Script.Cancels]
      simp [hcopies]
    · rw [hq] at h
      cases h
    · exact absurd h.1 hcopies
    · rcases h with h | h
      · exact absurd h hstatus.1
      · exact absurd h hstatus.2
  unfold importFile
  cases hvalidate : s.validate with
  | some e =>
    have hcopies : ¬ s.Copies := fun h => by simp [Script.Copies, hvalidate] at h
    cases e with
    | valueError m => exact hstop _ hcopies (by simp [hvalidate]) rfl hqueued (by simp)
    | other m => exact hstop _ hcopies (by simp [hvalidate]) rfl hqueued (by simp)
  | none =>
    cases hopened : s.opened with
    | some m =>
      have hcopies : ¬ s.Copies := fun h => by simp [Script.Copies, hopened] at h
      exact hstop _ hcopies (by simp [hvalidate]) rfl hqueued (by simp)
    | none =>
      simp only
      cases hrecord : s.record with
      | error m =>
        have hcopies : ¬ s.Copies := fun h => by simp [Script.Copies, hrecord] at h
        simp only [copyFile, hrecord]
        exact hstop _ hcopies (by simp [hvalidate]) rfl hqueued (by simp)
      | ok id =>
        cases hdestination : s.destination with
        | some m =>
          have hcopies : ¬ s.Copies := fun h => by simp [Script.Copies, hdestination] at h
          simp only [copyFile, hrecord, hdestination]
          exact hstop _ hcopies (by simp [hvalidate]) rfl hqueued (by simp)
        | none =>
          have hcopies : s.Copies := ⟨hvalidate, hopened, ⟨id, hrecord⟩, hdestination⟩
          exact copied_leaves hcopies hqueued hcancelled _ rfl

/-! ## The loop -/

/-- What a loop leaves. -/
structure Loop (files : List (ImportFileEntry × Script)) (job : ImportJob)
    (left : List ImportFileEntry × ImportJob × LoopEnd) : Prop where
  processing : left.2.2 = .finished → ∀ e ∈ left.1, e.status = .processing ∨ e.status = .ready →
    e.queued = true
  status : left.2.1.status = if left.2.2 = .returned then .cancelled else job.status
  settles : ((left.2.2 = .returned ∨ left.2.2 = .finished ∧ left.2.1.cancelled = false) ∧
      ∀ e ∈ left.1, e.queued = true → e.bytesCopied = e.sizeBytes) ↔
    Settles job.cancelled (files.map fun p => (p.1.sizeBytes, p.2))

theorem importFiles_loop {files : List (ImportFileEntry × Script)}
    (hfresh : ∀ p ∈ files, p.1.queued = false) (job : ImportJob) :
    Loop files job (importFiles files job) := by
  induction files generalizing job with
  | nil => exact ⟨fun _ e he => (by cases he), rfl, by simp [importFiles, Settles]⟩
  | cons p files ih =>
    obtain ⟨entry, s⟩ := p
    have hentry : entry.queued = false := hfresh _ List.mem_cons_self
    have hrest : ∀ p ∈ files, p.1.queued = false := fun p hp =>
      hfresh p (List.mem_cons_of_mem _ hp)
    rw [importFiles]
    by_cases hcancelled : job.cancelled = true
    · rw [if_pos hcancelled]
      refine ⟨fun h => (by cases h), by simp, ?_⟩
      have hnone : ∀ e ∈ entry :: files.map Prod.fst, e.queued = false := by
        intro e he
        rcases List.mem_cons.1 he with rfl | he
        · exact hentry
        · obtain ⟨p, hp, rfl⟩ := List.mem_map.1 he
          exact hrest p hp
      simp only [List.map_cons, Settles, hcancelled, true_or, true_and, iff_true]
      intro e he hq
      rw [hnone e he] at hq
      cases hq
    · rw [if_neg hcancelled]
      rw [Bool.not_eq_true] at hcancelled
      have hround := importFile_leaves (s := s) hentry hcancelled
      have hsteps : Settles job.cancelled
          (((entry, s) :: files).map fun p => (p.1.sizeBytes, p.2)) ↔
          ¬ s.Escapes entry.sizeBytes ∧ ¬ s.EndsEarly entry.sizeBytes ∧
            ((s.Cancels entry.sizeBytes → Settles true (files.map fun p => (p.1.sizeBytes, p.2))) ∧
            (¬ s.Cancels entry.sizeBytes →
              Settles false (files.map fun p => (p.1.sizeBytes, p.2)))) := by
        simp only [List.map_cons, Settles, hcancelled, Bool.false_eq_true, false_or]
      generalize importFile s entry job = round at hround ⊢
      cases hescaped : round.escaped with
      | true =>
        have hescapes := hround.escaped.1 hescaped
        simp only [hescaped, if_true]
        exact ⟨fun h => (by cases h), by simp [hround.status], by
          rw [hsteps]
          simp [hescapes]⟩
      | false =>
        simp only [hescaped, Bool.false_eq_true, if_false]
        have hescapes : ¬ s.Escapes entry.sizeBytes := fun h => by
          rw [hround.escaped.2 h] at hescaped
          cases hescaped
        obtain ⟨hprocessing, hstatus, hsettles⟩ := ih hrest round.job
        refine ⟨fun hend e he => ?_, by rw [hstatus, hround.status], ?_⟩
        · rcases List.mem_cons.1 he with rfl | he
          · exact hround.processing
          · exact hprocessing hend e he
        · have hexact : (round.entry.queued = true →
              round.entry.bytesCopied = round.entry.sizeBytes) ↔ ¬ s.EndsEarly entry.sizeBytes := by
            constructor
            · intro h hearly
              have hq := hround.early hescaped hearly
              exact (hround.queued hq).2 hearly (h hq)
            · intro h hq
              by_contra hne
              exact h ((hround.queued hq).1 hne)
          rw [hsteps, List.forall_mem_cons, hexact, and_left_comm, hsettles]
          simp only [hescapes, not_false_eq_true, true_and]
          refine and_congr_right fun _ => ?_
          by_cases hc : s.Cancels entry.sizeBytes
          · simp [hc, (hround.cancelled hescaped).2 hc]
          · have hflag : round.job.cancelled = false := by
              rw [← Bool.not_eq_true, hround.cancelled hescaped]
              exact hc
            simp [hc, hflag]

end

/-! ## Jobs that are sound when they end -/

theorem buildEntries_ok {sources : List Source} {entries : List ImportFileEntry}
    (h : buildEntries sources = .ok entries) : entries = sources.map Source.entry := by
  induction sources generalizing entries with
  | nil => exact (Except.ok.inj h).symm
  | cons source sources ih =>
    rw [buildEntries] at h
    split at h
    · cases h
    · split_ifs at h
      cases hrest : buildEntries sources with
      | error e => simp [hrest, bind, Except.bind] at h
      | ok rest =>
        simp only [hrest, bind, Except.bind, pure, Except.pure, Except.ok.injEq] at h
        rw [← h, ih hrest, List.map_cons]

/-- A job that is started is one of the files asked for, and no other was running. -/
theorem startImport_ok {current : Option JobStatus} {base : Option PathFailure}
    {sources : List Source} {insufficient : ℕ → Option String} {job : ImportJob}
    (h : startImport current base sources insufficient = .ok job) :
    current ≠ some .running ∧ job = ImportJob.ofSources sources := by
  unfold startImport at h
  split_ifs at h with hrunning
  split at h
  · cases h
  · cases hentries : buildEntries sources with
    | error e => simp [hentries, bind, Except.bind] at h
    | ok entries =>
      simp only [hentries, bind, Except.bind] at h
      obtain rfl := buildEntries_ok hentries
      split at h
      · cases h
      · refine ⟨hrunning, ?_⟩
        rw [← Except.ok.inj h, ImportJob.ofSources, List.map_map]
        rfl

/-- After a job of a final status another one may be started. -/
theorem startImport_after {status : JobStatus}
    (h : status ∈ [JobStatus.complete, .cancelled, .error]) (base : Option PathFailure)
    (sources : List Source) (insufficient : ℕ → Option String) :
    startImport (some status) base sources insufficient =
      startImport none base sources insufficient := by
  have hne : some status ≠ some JobStatus.running := by
    rintro ⟨⟩
    simp at h
  unfold startImport
  rw [if_neg hne, if_neg (by simp)]

/-- **A started job is sound when its run ends iff nothing raises before the loop, and up to the
    first file that finds the job cancelled no exception leaves the loop and no file ends early,
    and no cancel comes after the last file was taken up.** -/
theorem runImport_iff (setup : Bool) (sources : List Source) (cancelled : Bool)
    (scripts : ℕ → Script) :
    Sound (runImport setup { ImportJob.ofSources sources with cancelled := cancelled } scripts) ↔
      setup = false ∧ Settles cancelled (sources.zipIdx.map fun p => (p.1.size, scripts p.2)) := by
  cases setup with
  | true =>
    simp only [runImport, if_true, reduceCtorEq, false_and, iff_false]
    intro h
    simpa [ImportJob.ofSources] using h.ended
  | false =>
    let files := (sources.map Source.entry).zipIdx.map fun p => (p.1, scripts p.2)
    have hfresh : ∀ p ∈ files, p.1.queued = false := by
      intro p hp
      obtain ⟨q, hq, rfl⟩ := List.mem_map.1 hp
      obtain ⟨source, -, hsource⟩ := List.mem_map.1 (List.fst_mem_of_mem_zipIdx hq)
      rw [← hsource]
      rfl
    have hsizes : files.map (fun p => (p.1.sizeBytes, p.2)) =
        sources.zipIdx.map fun p => (p.1.size, scripts p.2) := by
      simp only [files, List.zipIdx_map, List.map_map]
      rfl
    obtain ⟨hprocessing, hstatus, hsettles⟩ := importFiles_loop hfresh
      { ImportJob.ofSources sources with cancelled := cancelled }
    rw [hsizes] at hsettles
    simp only [true_and, ← hsettles]
    have hrun : runImport false { ImportJob.ofSources sources with cancelled := cancelled }
        scripts =
        let left := importFiles files { ImportJob.ofSources sources with cancelled := cancelled }
        let job := { left.2.1 with files := left.1 }
        if left.2.2 = .finished ∧ job.cancelled = false then
          { job with status := if left.1.all fun e => e.status = .processing ∨ e.status = .ready
            then .complete else .error }
        else job := rfl
    rw [hrun]
    generalize importFiles files { ImportJob.ofSources sources with cancelled := cancelled } = left
      at hprocessing hstatus ⊢
    obtain ⟨entries, job, ending⟩ := left
    simp only at hprocessing hstatus ⊢
    by_cases hend : ending = .finished ∧ job.cancelled = false
    · rw [if_pos hend]
      simp only [hend, and_self, or_true, true_and]
      constructor
      · exact fun h => h.short
      · intro hexact
        refine ⟨?_, fun hcomplete e he => ?_, hexact⟩
        · split_ifs <;> simp
        · have hall : entries.all (fun e => e.status = .processing ∨ e.status = .ready) = true := by
            by_contra hnot
            rw [if_neg hnot] at hcomplete
            cases hcomplete
          have hq := hprocessing hend.1 e he (by simpa using List.all_eq_true.1 hall e he)
          exact ⟨hexact e he hq, hq⟩
    · rw [if_neg hend]
      simp only [hend, or_false]
      constructor
      · intro h
        refine ⟨?_, h.short⟩
        by_contra hreturned
        have := h.ended
        simp only [hstatus, if_neg hreturned, ImportJob.ofSources] at this
        simp at this
      · rintro ⟨rfl, hexact⟩
        refine ⟨by simp [hstatus], fun hcomplete => ?_, hexact⟩
        simp only [hstatus, if_true, reduceCtorEq] at hcomplete

/-! ## A job of one file -/

/-- A file of four bytes. -/
def oneFile : List Source := [⟨"a.csv", "/imports/a.csv", none, true, 4⟩]

/-- A file that is read in some pieces and is queued under an identifier. -/
def readIn (chunks : List Chunk) (_ : ℕ) : Script where
  validate := none
  opened := none
  record := .ok "3f2a9c1e"
  destination := none
  chunks := chunks
  failure := none
  submit := none

/-- A cancel while the last file is copied leaves the job running, and a file that has shrunk to
    two bytes is queued in a job that is complete. -/
theorem oneFile_not_sound :
    ¬ Sound (runImport false (ImportJob.ofSources oneFile)
      (readIn [⟨4, .cancelJob, by decide, by decide⟩])) ∧
    ¬ Sound (runImport false (ImportJob.ofSources oneFile)
      (readIn [⟨2, .none, by decide, by decide⟩])) := by
  constructor
  · intro h
    have hstatus := h.ended
    exact absurd hstatus (by decide)
  · intro h
    have hfiles := h.short
    exact absurd hfiles (by decide)

end Imports

end AimData
