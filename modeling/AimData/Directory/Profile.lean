/-
  `_process`: the data members of a directory are profiled one after the other, within the
  limits of the settings, and the profile is saved at the end, also when the run is cancelled.

  An await ends with a result, an exception, a timeout, or the cancellation of the run.  A
  cancelled run stops where it is, with the state it has, and goes on in `finally`.
-/
import AimData.Directory.Registration
import AimData.Lib.Numeral

namespace AimData

namespace Directory

namespace Profiling

/-! ## Profiles -/

/-- The settings `profile_max_members`, … -/
structure Limits where
  maxMembers : ℕ
  maxMemberBytes : ℕ
  maxTotalBytes : ℕ
  timeout : ℕ
  docsContextBytes : ℕ

/-- What `profile_member` returns: `str` of the sampled values, and `json.dumps` of the sampled
    rows, where it does not raise. -/
structure Result where
  columns : String
  rowCount : ℕ
  columnCount : ℕ
  sampleRows : List (List (Option String))
  dumps : Option String
  deriving DecidableEq

inductive OutcomeStatus where
  | pending
  | profiled
  | unsupportedType
  | parseFailed
  | tooLarge
  | timeout
  deriving DecidableEq

def OutcomeStatus.value : OutcomeStatus → String
  | pending => "pending"
  | profiled => "profiled"
  | unsupportedType => "unsupported_type"
  | parseFailed => "parse_failed"
  | tooLarge => "too_large"
  | timeout => "timeout"

structure Outcome where
  status : OutcomeStatus
  reason : Option String
  relativePath : String
  profile : Option Result
  deriving DecidableEq

inductive Pii where
  | scanned (scope : String) (privacyScore : Option ℚ)
  | timeout (reason : String)
  | failed (reason : String)
  deriving DecidableEq

inductive ProfileStatus where
  | running
  | completed
  | profilingSkipped
  deriving DecidableEq

/-- `directory_profile` -/
structure Profile where
  sourceKey : String
  status : ProfileStatus
  reason : Option String
  profiledMembers : ℕ
  totalDataMembers : ℕ
  profiledBytes : ℕ
  readBytes : ℕ
  members : List (String × Outcome)
  schemaCount : ℕ
  rowCount : Option ℕ
  columnCount : Option ℕ
  pii : Option Pii
  summary : Option String
  metadataReason : Option String
  deriving DecidableEq

structure Listing where
  title : String
  description : String
  tags : List String
  dataCategories : List String
  rowCount : ℕ
  columnCount : ℕ
  fileFormat : String
  sizeBytes : ℕ
  privacyScore : Option ℚ
  deriving DecidableEq

/-- `str(member["index"])` -/
def key (m : Member) : String := toString m.index

/-- An assignment in a dict. -/
def assign (k : String) (o : Outcome) : List (String × Outcome) → List (String × Outcome)
  | [] => [(k, o)]
  | (k', o') :: l => if k' = k then (k, o) :: l else (k', o') :: assign k o l

/-! ## The checks of a member -/

/-- Why a member is not read. -/
inductive Refused where
  | unsupportedType
  | missing
  | memberBytes
  | members
  | totalBytes
  | late
  deriving DecidableEq

def timeoutReason (limits : Limits) : String :=
  "timeout: PROFILE_TIMEOUT_S=" ++ toString limits.timeout

def Refused.reason (limits : Limits) : Refused → String
  | unsupportedType => "unsupported_type"
  | missing => "parse_failed"
  | memberBytes => "too_large: PROFILE_MAX_MEMBER_BYTES=" ++ toString limits.maxMemberBytes
  | members => "too_large: PROFILE_MAX_MEMBERS=" ++ toString limits.maxMembers
  | totalBytes => "too_large: PROFILE_MAX_TOTAL_BYTES=" ++ toString limits.maxTotalBytes
  | late => timeoutReason limits

/-- `reason.split(":")[0]` -/
def Refused.status : Refused → OutcomeStatus
  | unsupportedType => .unsupportedType
  | missing => .parseFailed
  | memberBytes | members | totalBytes => .tooLarge
  | late => .timeout

/-- The checks before a member is read; the last asks for the time. -/
def check (limits : Limits) (late : Bool) (attempted readBytes : ℕ) (m : Member) :
    Option Refused :=
  if m.detectedType ∉ processableTypes then some .unsupportedType
  else if m.status = .missing then some .missing
  else if m.sizeBytes > limits.maxMemberBytes then some .memberBytes
  else if attempted ≥ limits.maxMembers then some .members
  else if readBytes + m.sizeBytes > limits.maxTotalBytes then some .totalBytes
  else if late then some .late
  else none

/-! ## Runs -/

/-- How an await ends. -/
inductive Answer (α : Type) where
  | result (a : α)
  | failed
  | timedOut
  | cancelled

/-- What the provider writes about a directory. -/
structure Authored where
  title : Option String
  description : Option String
  tags : List String
  category : Option String

/-- What happens in a run: whether the deadline has passed when a member comes up, how its
    worker ends, and how the other awaits do. -/
structure Answers where
  late : ℕ → Bool
  member : ℕ → Answer Result
  documentLate : ℕ → Bool
  documentation : ℕ → Answer String
  pii : Answer (Option ℚ)
  remaining : Bool
  authored : Answer Authored

/-- The variables of `_process`; `reads` is history: what the workers were given to read. -/
structure State where
  profile : Profile
  attempted : ℕ
  results : List Result
  texts : List String
  documentation : List (String × String)
  schemas : List String
  docsLeft : ℕ
  reads : List (Member × ℕ)

namespace State

def put (s : State) (m : Member) (o : Outcome) : State :=
  { s with profile := { s.profile with members := assign (key m) o s.profile.members } }

/-- The counts of a read of a data member. -/
def reading (s : State) (m : Member) : State :=
  { s with
    attempted := s.attempted + 1
    profile := { s.profile with readBytes := s.profile.readBytes + m.sizeBytes }
    reads := s.reads ++ [(m, m.sizeBytes)] }

/-- The counts of a member whose worker has returned. -/
def counted (s : State) (m : Member) (r : Result) : State :=
  { s with
    results := s.results ++ [r]
    profile := { s.profile with
      profiledMembers := s.profile.profiledMembers + 1
      profiledBytes := s.profile.profiledBytes + m.sizeBytes }
    schemas := if r.columns ∈ s.schemas then s.schemas else s.schemas ++ [r.columns] }

/-- `docs_left` -/
def budgeted (s : State) (limits : Limits) : State :=
  { s with
    docsLeft := min limits.docsContextBytes (limits.maxTotalBytes - s.profile.readBytes) }

/-- The counts of a read of documentation. -/
def charged (s : State) (limit : ℕ) (documentation : List (String × String)) : State :=
  { s with
    documentation := documentation
    docsLeft := s.docsLeft - limit
    profile := { s.profile with readBytes := s.profile.readBytes + limit } }

end State

/-- `any(value is not None and str(value).strip() …)` -/
def Result.speaks (r : Result) : Bool :=
  r.sampleRows.any fun row => row.any fun value =>
    value.any fun text => PyText.strip text.toList ≠ []

/-- A computation that the cancellation of the run may end, with the state it has then. -/
abbrev Cancellable (α : Type) := Except State α

def extractionFailed : String := "parse_failed: Member extraction failed"

def interrupted : String :=
  "parse_failed: Profiling interrupted before extraction completed"

/-- `outcome = {"status": "pending", …}` -/
def pendingOutcome (m : Member) : Outcome := ⟨.pending, none, m.relativePath, none⟩

/-- The end of the `try` of a member: the sampled rows are kept, or `json.dumps` raises. -/
def profiledMember (s : State) (m : Member) (r : Result) : State :=
  let s := (s.put m { pendingOutcome m with status := .profiled, profile := some r }).counted m r
  if r.speaks then
    match r.dumps with
    | some text => { s with texts := s.texts ++ [String.ofList (text.toList.take 10000)] }
    | none => s.put m { pendingOutcome m with
        status := .parseFailed, reason := some extractionFailed, profile := some r }
  else s

/-- The body of the loop over the data members. -/
def profileMember (limits : Limits) (answers : Answers) (s : State) (m : Member) :
    Cancellable State :=
  let s := s.put m (pendingOutcome m)
  match check limits (answers.late m.index) s.attempted s.profile.readBytes m with
  | some refused => .ok (s.put m { pendingOutcome m with
      status := refused.status, reason := some (refused.reason limits) })
  | none =>
    let s := s.reading m
    match answers.member m.index with
    | .result r => .ok (profiledMember s m r)
    | .timedOut => .ok (s.put m { pendingOutcome m with
        status := .timeout, reason := some (timeoutReason limits) })
    | .failed => .ok (s.put m { pendingOutcome m with
        status := .parseFailed, reason := some extractionFailed })
    | .cancelled => .error s

/-- The body of the loop over the documentation; past the attempts the loop is left. -/
def quoteMember (limits : Limits) (answers : Answers) (s : State) (m : Member) :
    Cancellable State :=
  if s.attempted ≥ limits.maxMembers then .ok s
  else if m.role ≠ .documentation ∨ s.docsLeft = 0 ∨ answers.documentLate m.index = true then .ok s
  else if m.sizeBytes > limits.maxMemberBytes then .ok s
  else
    let limit := min s.docsLeft m.sizeBytes
    if limit = 0 then .ok s
    else
      let s := { s with attempted := s.attempted + 1, reads := s.reads ++ [(m, limit)] }
      match answers.documentation m.index with
      | .result text => .ok (s.charged limit (s.documentation ++ [(m.relativePath, text)]))
      | .failed | .timedOut => .ok (s.charged limit s.documentation)
      | .cancelled => .error s

/-- What the set shows as a whole, and the scan of the sampled rows. -/
def scanPii (limits : Limits) (answers : Answers) (s : State) : Cancellable State :=
  let counted : Profile := { s.profile with
    schemaCount := s.schemas.length
    rowCount := some (s.results.map Result.rowCount).sum
    columnCount := some ((s.results.map Result.columnCount).foldl max 0) }
  let reported (report : Pii) : State := { s with profile := { counted with pii := some report } }
  match answers.pii with
  | .result score => .ok (reported (.scanned
      "Bounded member previews only; not a whole-set clearance"
      (if s.profile.profiledMembers = 0 ∨ s.texts = [] then none else score)))
  | .timedOut => .ok (reported (.timeout ("PROFILE_TIMEOUT_S=" ++ toString limits.timeout)))
  | .failed => .ok (reported (.failed "PII scan unavailable"))
  | .cancelled => .error { s with profile := counted }

def Outcome.finished (o : Outcome) : Outcome :=
  if o.status = .pending then { o with status := .parseFailed, reason := some interrupted } else o

/-- `_finish` -/
def finish (p : Profile) : Profile :=
  { p with
    members := p.members.map fun entry => (entry.1, entry.2.finished)
    status := if p.profiledMembers = 0 then .profilingSkipped else .completed
    summary := some (if p.profiledMembers = 0 then
      s!"not profiled (0 of {p.totalDataMembers} files)"
      else s!"profiled on {p.profiledMembers} of {p.totalDataMembers} files")
    reason := if p.profiledMembers = 0 then
      some "No data member could be profiled within the configured limits; see member reasons"
      else none }

def privacyScore (p : Profile) : Option ℚ :=
  match p.pii with
  | some (.scanned _ score) => score
  | _ => none

def directoryMetadataFallback (record : Dataset.Row) (p : Profile) : Listing where
  title := record.originalFilename
  description := p.summary.getD "" ++ s!"; {p.schemaCount} distinct schemas found. " ++
    "Counts describe only profiled files. Listing is allowed without profiling."
  tags := []
  dataCategories := []
  rowCount := p.rowCount.getD 0
  columnCount := p.columnCount.getD 0
  fileFormat := "directory"
  sizeBytes := record.fileSizeBytes
  privacyScore := privacyScore p

def Listing.authored (listing : Listing) (a : Authored) : Listing :=
  { listing with
    title := match a.title with
      | some title => if title = "" then listing.title else title
      | none => listing.title
    description := match a.description with
      | some text =>
        if text = "" then listing.description else text ++ "\n\n" ++ listing.description
      | none => listing.description
    tags := a.tags
    dataCategories := match a.category with
      | some category => if category = "" then [] else [category]
      | none => [] }

/-- The last part of the `try`: the metadata is authored while there is time. -/
def author (record : Dataset.Row) (limits : Limits) (answers : Answers) (s : State) :
    Cancellable (State × Option Listing) :=
  let s := { s with profile := finish s.profile }
  let unavailable (reason : String) : State × Option Listing :=
    ({ s with profile := { s.profile with metadataReason := some reason } }, none)
  if answers.remaining = false then .ok (s, none)
  else
    match answers.authored with
    | .result a => .ok (s, some ((directoryMetadataFallback record s.profile).authored a))
    | .timedOut => .ok (unavailable (timeoutReason limits))
    | .failed => .ok (unavailable "Metadata authoring unavailable")
    | .cancelled => .error s

def start (sourceKey : String) (data : List Member) : Profile where
  sourceKey := sourceKey
  status := .running
  reason := none
  profiledMembers := 0
  totalDataMembers := data.length
  profiledBytes := 0
  readBytes := 0
  members := []
  schemaCount := 0
  rowCount := none
  columnCount := none
  pii := none
  summary := none
  metadataReason := none

def dataMembers (values : List Member) : List Member := values.filter fun m => m.role = .data

/-- The `try` of `_process`. -/
def body (record : Dataset.Row) (limits : Limits) (answers : Answers) (values : List Member)
    (s : State) : Cancellable (State × Option Listing) := do
  let s ← (dataMembers values).foldlM (profileMember limits answers) s
  let s ← values.foldlM (quoteMember limits answers) (s.budgeted limits)
  let s ← scanPii limits answers s
  author record limits answers s

/-- What a run leaves: the profile and the listing it has saved last, and what was read. -/
structure Ran where
  saved : Profile
  listing : Option Listing
  reads : List (Member × ℕ)

/-- `_save` does not raise. -/
def Profile.Storable (p : Profile) : Prop :=
  ∀ entry ∈ p.members, ∀ r, entry.2.profile = some r → r.dumps ≠ none

instance (p : Profile) : Decidable p.Storable :=
  decidable_of_iff (∀ entry ∈ p.members, (entry.2.profile.all fun r => r.dumps.isSome) = true) <| by
    refine forall₂_congr fun entry _ => ?_
    cases entry.2.profile with
    | none => simp
    | some r => simp [Option.isSome_iff_ne_none]

/-- The `finally` of `_process`. -/
def save (record : Dataset.Row) (first : Profile) (s : State) (listing : Option Listing) : Ran :=
  let p := finish s.profile
  if p.Storable then
    ⟨p, some (listing.getD (directoryMetadataFallback record p)), s.reads⟩
  else ⟨first, none, s.reads⟩

/-- A saved profile that a later call returns without a run. -/
def Reusable (sourceKey : String) (p : Profile) : Prop :=
  p.sourceKey = sourceKey ∧ (p.status = .completed ∨ p.status = .profilingSkipped)

instance (sourceKey : String) (p : Profile) : Decidable (Reusable sourceKey p) := by
  unfold Reusable
  infer_instance

/-- `ORDER BY sha256, relative_path`, where no digest comes first. -/
def precedes (a b : Member) : Prop :=
  match a.sha256, b.sha256 with
  | none, some _ => True
  | some _, none => False
  | none, none => a.relativePath ≤ b.relativePath
  | some x, some y => x < y ∨ x = y ∧ a.relativePath ≤ b.relativePath

instance : DecidableRel precedes := by
  intro a b
  unfold precedes
  split
  all_goals infer_instance

/-- The members that `_process` selects. -/
def selected (members : List Member) : List Member :=
  (members.filter fun m => m.status ≠ .removed).insertionSort precedes

/-- **`_process`** of a directory whose members have the source key; nothing is read where the
    previous profile is reused. -/
def process (directory : Registered) (limits : Limits) (sourceKey : String)
    (previous : Option Profile) (answers : Answers) : Option Ran :=
  if ∃ p ∈ previous, Reusable sourceKey p then none
  else
    let values := selected directory.members
    let first := start sourceKey (dataMembers values)
    some <| match body directory.record limits answers values
        ⟨first, 0, [], [], [], [], 0, []⟩ with
      | .ok (s, listing) => save directory.record first s listing
      | .error s => save directory.record first s none

/-! ## What a saved profile should say -/

/-- The outcomes of a member in a profile. -/
def Profile.outcomes (p : Profile) (m : Member) : List Outcome :=
  (p.members.filter fun entry => entry.1 = key m).map Prod.snd

/-- The members of the set whose outcome is that they were profiled. -/
def Profile.profiledOf (p : Profile) (data : List Member) : List Member :=
  data.filter fun m => ∃ o ∈ p.outcomes m, o.status = .profiled

/-- **What the profile saved last says**: one outcome for each data member, and none pending;
    the counts of the members profiled; reads within the limits; and a completed run has
    considered every data member, so that none has the outcome of an interruption. -/
structure Accounts (limits : Limits) (data : List Member) (ran : Ran) : Prop where
  outcome : ∀ m ∈ data, ∃ o, ran.saved.outcomes m = [o] ∧ o.status ≠ .pending
  profiledMembers : ran.saved.profiledMembers = (ran.saved.profiledOf data).length
  profiledBytes : ran.saved.profiledBytes =
    ((ran.saved.profiledOf data).map Member.sizeBytes).sum
  attempted : ran.reads.length ≤ limits.maxMembers
  memberBytes : ∀ read ∈ ran.reads, read.2 ≤ limits.maxMemberBytes
  totalBytes : (ran.reads.map Prod.snd).sum ≤ limits.maxTotalBytes
  readBytes : ran.saved.readBytes ≤ limits.maxTotalBytes
  considered : ran.saved.status = .completed →
    ∀ m ∈ data, ∃ o ∈ ran.saved.outcomes m, o.reason ≠ some interrupted

/-- The data members that the checks let through, from the members and bytes read before. -/
def attempts (limits : Limits) (late : ℕ → Bool) : List Member → ℕ → ℕ → List Member
  | [], _, _ => []
  | m :: ms, attempted, readBytes =>
    match check limits (late m.index) attempted readBytes m with
    | some _ => attempts limits late ms attempted readBytes
    | none => m :: attempts limits late ms (attempted + 1) (readBytes + m.sizeBytes)

/-- No worker of a data member is interrupted, but for the last member's where no worker has
    returned; and what the workers return can be dumped. -/
structure Undisturbed (limits : Limits) (answers : Answers) (data : List Member) : Prop where
  cancelled : ∀ m ∈ attempts limits answers.late data 0 0,
    answers.member m.index = .cancelled → data.getLast? = some m ∧
      ∀ m' ∈ attempts limits answers.late data 0 0, ∀ r, answers.member m'.index ≠ .result r
  dumps : ∀ m ∈ attempts limits answers.late data 0 0, ∀ r,
    answers.member m.index = .result r → r.dumps ≠ none

end Profiling

end Directory

end AimData
