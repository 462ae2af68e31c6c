/-
  What a run of `_process` saves last.

  The loop over the data members keeps the list of the members it has had, with their outcomes;
  a run that is cancelled in the loop leaves the members after that without any.
-/
import AimData.Directory.Profile

namespace AimData

namespace Directory

namespace Profiling

/-! ## Members by their keys -/

section
variable {limits : Limits} {answers : Answers}

theorem key_inj {m m' : Member} (h : key m = key m') : m.index = m'.index := by
  refine Numeral.toDigits_inj ?_
  simpa [key, Nat.repr] using congrArg String.toList h

theorem assign_new {k : String} (o : Outcome) {l : List (String × Outcome)}
    (h : k ∉ l.map Prod.fst) : assign k o l = l ++ [(k, o)] := by
  induction l with
  | nil => rfl
  | cons entry l ih =>
    rw [List.map_cons, List.mem_cons, not_or] at h
    rw [assign, if_neg (Ne.symm h.1), ih h.2]
    rfl

/-- The outcome of the member that came last is replaced. -/
theorem assign_last {k : String} (o o' : Outcome) {l : List (String × Outcome)}
    (h : k ∉ l.map Prod.fst) : assign k o (l ++ [(k, o')]) = l ++ [(k, o)] := by
  induction l with
  | nil => exact if_pos rfl
  | cons entry l ih =>
    rw [List.map_cons, List.mem_cons, not_or] at h
    rw [List.cons_append, assign, if_neg (Ne.symm h.1), ih h.2]
    rfl

theorem attempts_append (late : ℕ → Bool) (l l' : List Member) (attempted readBytes : ℕ) :
    attempts limits late (l ++ l') attempted readBytes =
      attempts limits late l attempted readBytes ++ attempts limits late l'
        (attempted + (attempts limits late l attempted readBytes).length)
        (readBytes + ((attempts limits late l attempted readBytes).map Member.sizeBytes).sum) := by
  induction l generalizing attempted readBytes with
  | nil => rfl
  | cons m l ih =>
    rw [List.cons_append, attempts, attempts]
    cases check limits (late m.index) attempted readBytes m with
    | some refused => exact ih attempted readBytes
    | none =>
      simp only
      rw [ih, List.cons_append, List.length_cons, List.map_cons, List.sum_cons,
        Nat.add_assoc attempted, Nat.add_comm 1, Nat.add_assoc readBytes]

theorem attempts_subset (late : ℕ → Bool) (l : List Member) (attempted readBytes : ℕ) :
    attempts limits late l attempted readBytes ⊆ l := by
  induction l generalizing attempted readBytes with
  | nil => exact List.Subset.refl _
  | cons m l ih =>
    rw [attempts]
    cases check limits (late m.index) attempted readBytes m with
    | some refused => exact List.subset_cons_of_subset m (ih attempted readBytes)
    | none => exact List.cons_subset_cons m (ih _ _)

/-- What the checks let through is within the limits. -/
theorem check_none {late : Bool} {attempted readBytes : ℕ} {m : Member}
    (h : check limits late attempted readBytes m = none) :
    m.sizeBytes ≤ limits.maxMemberBytes ∧ attempted < limits.maxMembers ∧
      readBytes + m.sizeBytes ≤ limits.maxTotalBytes := by
  rw [check] at h
  split_ifs at h with _ _ hmember hmembers htotal
  exact ⟨not_lt.1 hmember, not_le.1 hmembers, not_lt.1 htotal⟩

theorem takeWhile_colon {s status : String} (rest t : String)
    (hs : s.toList = status.toList ++ ':' :: rest.toList) (h : ':' ∉ status.toList) :
    (s ++ t).toList.takeWhile (· ≠ ':') = status.toList := by
  rw [String.toList_append, hs, List.append_assoc, List.takeWhile_append_of_pos]
  · simp
  · intro c hc
    rw [decide_eq_true_eq]
    rintro rfl
    exact h hc

/-- The status of a refused member is what its reason begins with. -/
theorem Refused.status_value (limits : Limits) (r : Refused) :
    (r.reason limits).toList.takeWhile (· ≠ ':') = r.status.value.toList := by
  cases r with
  | unsupportedType =>
    show "unsupported_type".toList.takeWhile (· ≠ ':') = "unsupported_type".toList
    decide
  | missing =>
    show "parse_failed".toList.takeWhile (· ≠ ':') = "parse_failed".toList
    decide
  | memberBytes =>
    exact takeWhile_colon " PROFILE_MAX_MEMBER_BYTES=" _ (by decide) (by decide)
  | members => exact takeWhile_colon " PROFILE_MAX_MEMBERS=" _ (by decide) (by decide)
  | totalBytes =>
    exact takeWhile_colon " PROFILE_MAX_TOTAL_BYTES=" _ (by decide) (by decide)
  | late => exact takeWhile_colon " PROFILE_TIMEOUT_S=" _ (by decide) (by decide)

/-- A refused member is told from an interrupted one. -/
theorem Refused.reason_ne (limits : Limits) (r : Refused) : r.reason limits ≠ interrupted := by
  intro h
  have hvalue := r.status_value limits
  rw [h] at hvalue
  cases r with
  | missing =>
    have hmissing : "parse_failed" = interrupted := h
    exact absurd hmissing (by decide)
  | _ => exact absurd hvalue (by decide)

theorem Refused.status_ne (r : Refused) : r.status ≠ .pending ∧ r.status ≠ .profiled := by
  cases r <;> decide

/-! ## The loop over the data members -/

/-- What holds after the first members of the loop, which have these outcomes. -/
structure Looped (limits : Limits) (answers : Answers) (l : List (Member × Outcome)) (s : State) :
    Prop where
  members : s.profile.members = l.map fun e => (key e.1, e.2)
  attempted : s.attempted = (attempts limits answers.late (l.map Prod.fst) 0 0).length
  readBytes : s.profile.readBytes =
    ((attempts limits answers.late (l.map Prod.fst) 0 0).map Member.sizeBytes).sum
  reads : s.reads =
    (attempts limits answers.late (l.map Prod.fst) 0 0).map fun m => (m, m.sizeBytes)
  maxMembers : s.attempted ≤ limits.maxMembers
  maxTotalBytes : s.profile.readBytes ≤ limits.maxTotalBytes
  maxMemberBytes : ∀ read ∈ s.reads, read.2 ≤ limits.maxMemberBytes
  decided : ∀ e ∈ l, e.2.status ≠ .pending ∧ e.2.reason ≠ some interrupted
  answered : ∀ m ∈ attempts limits answers.late (l.map Prod.fst) 0 0,
    answers.member m.index ≠ .cancelled
  profiles : ∀ r, (∃ e ∈ l, e.2.profile = some r) ↔
    ∃ m ∈ attempts limits answers.late (l.map Prod.fst) 0 0, answers.member m.index = .result r
  profiledMembers : s.profile.profiledMembers = 0 ↔
    ∀ m ∈ attempts limits answers.late (l.map Prod.fst) 0 0, ∀ r, answers.member m.index ≠ .result r
  counted : (∀ m ∈ attempts limits answers.late (l.map Prod.fst) 0 0, ∀ r,
      answers.member m.index = .result r → r.dumps ≠ none) →
    s.profile.profiledMembers = (l.filter fun e => e.2.status = .profiled).length ∧
    s.profile.profiledBytes =
      ((l.filter fun e => e.2.status = .profiled).map fun e => e.1.sizeBytes).sum

theorem attempts_snoc {l : List (Member × Outcome)} {s : State} (h : Looped limits answers l s)
    (m : Member) (o : Outcome) :
    attempts limits answers.late ((l ++ [(m, o)]).map Prod.fst) 0 0 =
      attempts limits answers.late (l.map Prod.fst) 0 0 ++
        if check limits (answers.late m.index) s.attempted s.profile.readBytes m = none then [m]
        else [] := by
  rw [List.map_append, attempts_append, Nat.zero_add, Nat.zero_add, ← h.attempted, ← h.readBytes,
    List.map_singleton, attempts]
  cases check limits (answers.late m.index) s.attempted s.profile.readBytes m with
  | some refused => rfl
  | none => rfl

/-- A member that is refused. -/
theorem Looped.refused {l : List (Member × Outcome)} {s s' : State} {m : Member} {o : Outcome}
    {refused : Refused} (h : Looped limits answers l s)
    (hcheck : check limits (answers.late m.index) s.attempted s.profile.readBytes m = some refused)
    (hs' : s' = { s with profile := { s.profile with
      members := s.profile.members ++ [(key m, o)] } })
    (hdecided : o.status ≠ .pending ∧ o.reason ≠ some interrupted)
    (hprofiled : o.status ≠ .profiled) (hprofile : o.profile = none) :
    Looped limits answers (l ++ [(m, o)]) s' := by
  have hattempts : attempts limits answers.late ((l ++ [(m, o)]).map Prod.fst) 0 0 =
      attempts limits answers.late (l.map Prod.fst) 0 0 := by
    rw [attempts_snoc h, hcheck, if_neg (Option.some_ne_none refused), List.append_nil]
  have hfilter : ((l ++ [(m, o)]).filter fun e => e.2.status = .profiled) =
      l.filter fun e => e.2.status = .profiled := by
    rw [List.filter_append, List.filter_cons_of_neg (by simpa using hprofiled), List.filter_nil,
      List.append_nil]
  subst hs'
  constructor
  · rw [List.map_append, ← h.members]
    rfl
  · rw [hattempts]
    exact h.attempted
  · rw [hattempts]
    exact h.readBytes
  · rw [hattempts]
    exact h.reads
  · exact h.maxMembers
  · exact h.maxTotalBytes
  · exact h.maxMemberBytes
  · intro e he
    rcases List.mem_append.1 he with he | he
    · exact h.decided e he
    · rw [List.mem_singleton.1 he]
      exact hdecided
  · rw [hattempts]
    exact h.answered
  · intro r
    rw [hattempts, ← h.profiles r]
    constructor
    · rintro ⟨e, he, hr⟩
      rcases List.mem_append.1 he with he | he
      · exact ⟨e, he, hr⟩
      · rw [List.mem_singleton.1 he, hprofile] at hr
        cases hr
    · rintro ⟨e, he, hr⟩
      exact ⟨e, List.mem_append_left _ he, hr⟩
  · rw [hattempts]
    exact h.profiledMembers
  · rw [hattempts, hfilter]
    exact h.counted

/-- How the outcome and the counts of a member follow from its worker. -/
inductive Told (answers : Answers) (m : Member) (o : Outcome) (p p' : Profile) : Prop
  | failed : (∀ r, answers.member m.index ≠ .result r) → o.profile = none → o.status ≠ .profiled →
    p'.profiledMembers = p.profiledMembers → p'.profiledBytes = p.profiledBytes →
    Told answers m o p p'
  | returned (r : Result) : answers.member m.index = .result r → o.profile = some r →
    (r.dumps ≠ none → o.status = .profiled) → p'.profiledMembers = p.profiledMembers + 1 →
    p'.profiledBytes = p.profiledBytes + m.sizeBytes → Told answers m o p p'

/-- A member that is read, and not interrupted. -/
theorem Looped.read {l : List (Member × Outcome)} {s s' : State} {m : Member} {o : Outcome}
    (h : Looped limits answers l s)
    (hcheck : check limits (answers.late m.index) s.attempted s.profile.readBytes m = none)
    (hmembers : s'.profile.members = s.profile.members ++ [(key m, o)])
    (hattempted : s'.attempted = s.attempted + 1)
    (hreadBytes : s'.profile.readBytes = s.profile.readBytes + m.sizeBytes)
    (hreads : s'.reads = s.reads ++ [(m, m.sizeBytes)])
    (hdecided : o.status ≠ .pending ∧ o.reason ≠ some interrupted)
    (hanswered : answers.member m.index ≠ .cancelled)
    (htold : Told answers m o s.profile s'.profile) :
    Looped limits answers (l ++ [(m, o)]) s' := by
  have hattempts : attempts limits answers.late ((l ++ [(m, o)]).map Prod.fst) 0 0 =
      attempts limits answers.late (l.map Prod.fst) 0 0 ++ [m] := by
    rw [attempts_snoc h, if_pos hcheck]
  obtain ⟨hmember, hbelow, htotal⟩ := check_none hcheck
  constructor
  · rw [hmembers, List.map_append, ← h.members]
    rfl
  · rw [hattempted, hattempts, List.length_append, h.attempted]
    rfl
  · rw [hreadBytes, hattempts, List.map_append, List.sum_append, h.readBytes]
    rfl
  · rw [hreads, hattempts, List.map_append, h.reads]
    rfl
  · rw [hattempted]
    exact hbelow
  · rw [hreadBytes]
    exact htotal
  · rw [hreads]
    intro read hread
    rcases List.mem_append.1 hread with hread | hread
    · exact h.maxMemberBytes read hread
    · rw [List.mem_singleton.1 hread]
      exact hmember
  · intro e he
    rcases List.mem_append.1 he with he | he
    · exact h.decided e he
    · rw [List.mem_singleton.1 he]
      exact hdecided
  · rw [hattempts]
    intro m' hm'
    rcases List.mem_append.1 hm' with hm' | hm'
    · exact h.answered m' hm'
    · rw [List.mem_singleton.1 hm']
      exact hanswered
  · intro r
    have hlast : o.profile = some r ↔ answers.member m.index = .result r := by
      cases htold with
      | failed hfailed hprofile =>
        rw [hprofile]
        constructor
        · intro hr
          cases hr
        · intro hr
          exact absurd hr (hfailed r)
      | returned r' hr' hprofile =>
        rw [hprofile, hr', Option.some_inj, Answer.result.injEq]
    rw [hattempts]
    simp only [List.mem_append, List.mem_singleton, or_and_right, exists_or, exists_eq_left,
      h.profiles r, hlast]
  · rw [hattempts]
    simp only [List.mem_append, List.mem_singleton, or_imp, forall_and, forall_eq,
      ← h.profiledMembers]
    cases htold with
    | failed hfailed _ _ hcount =>
      rw [hcount]
      exact ⟨fun hzero => ⟨hzero, hfailed⟩, fun hzero => hzero.1⟩
    | returned r hr _ _ hcount =>
      rw [hcount]
      exact ⟨fun hzero => absurd hzero (Nat.succ_ne_zero _), fun hzero => absurd hr (hzero.2 r)⟩
  · rw [hattempts]
    intro hdumps
    obtain ⟨hcount, hbytes⟩ := h.counted fun m' hm' => hdumps m' (List.mem_append_left _ hm')
    rw [List.filter_append]
    cases htold with
    | failed _ _ hprofiled hcount' hbytes' =>
      rw [List.filter_cons_of_neg (by simpa using hprofiled), List.filter_nil, List.append_nil,
        hcount', hbytes']
      exact ⟨hcount, hbytes⟩
    | returned r hr _ hprofiled hcount' hbytes' =>
      have hstatus :=
        hprofiled (hdumps m (List.mem_append_right _ (List.mem_singleton_self _)) r hr)
      rw [List.filter_cons_of_pos (by simpa using hstatus), List.filter_nil, List.length_append,
        List.map_append, List.sum_append, hcount', hbytes', hcount, hbytes]
      exact ⟨rfl, rfl⟩

/-- A run that is cancelled while it waits for the worker of a member. -/
structure Interrupted (limits : Limits) (answers : Answers) (s : State) (m : Member) (s' : State) :
    Prop where
  check : check limits (answers.late m.index) s.attempted s.profile.readBytes m = none
  cancelled : answers.member m.index = .cancelled
  members : s'.profile.members = s.profile.members ++ [(key m, pendingOutcome m)]
  profiledMembers : s'.profile.profiledMembers = s.profile.profiledMembers
  profiledBytes : s'.profile.profiledBytes = s.profile.profiledBytes
  readBytes : s'.profile.readBytes = s.profile.readBytes + m.sizeBytes
  reads : s'.reads = s.reads ++ [(m, m.sizeBytes)]
  sourceKey : s'.profile.sourceKey = s.profile.sourceKey

theorem assign_twice {k : String} (o o' : Outcome) {l : List (String × Outcome)}
    (h : k ∉ l.map Prod.fst) : assign k o (assign k o' l) = l ++ [(k, o)] := by
  rw [assign_new o' h, assign_last o o' h]

/-- The outcome of a member whose worker has returned. -/
theorem profiledMember_members (s : State) (m : Member) (r : Result)
    (hnew : key m ∉ s.profile.members.map Prod.fst) (o' : Outcome) :
    ∃ o, (profiledMember ((s.put m o').reading m) m r).profile.members =
        s.profile.members ++ [(key m, o)] ∧ o.profile = some r ∧
      (o.status = .profiled ∧ o.reason = none ∨
        r.dumps = none ∧ o.status = .parseFailed ∧ o.reason = some extractionFailed) := by
  rw [profiledMember]
  split_ifs with hspeaks
  · cases hdumps : r.dumps with
    | some text =>
      exact ⟨{ pendingOutcome m with status := .profiled, profile := some r },
        assign_twice _ o' hnew, rfl, Or.inl ⟨rfl, rfl⟩⟩
    | none =>
      refine ⟨{ pendingOutcome m with
        status := .parseFailed, reason := some extractionFailed, profile := some r },
        ?_, rfl, Or.inr ⟨rfl, rfl, rfl⟩⟩
      show assign _ _ (assign _ _ (assign _ o' s.profile.members)) = _
      rw [assign_twice _ o' hnew, assign_last _ _ hnew]
  · exact ⟨{ pendingOutcome m with status := .profiled, profile := some r },
      assign_twice _ o' hnew, rfl, Or.inl ⟨rfl, rfl⟩⟩

theorem profiledMember_counts (s : State) (m : Member) (r : Result) :
    (profiledMember s m r).attempted = s.attempted ∧
      (profiledMember s m r).profile.readBytes = s.profile.readBytes ∧
      (profiledMember s m r).reads = s.reads ∧
      (profiledMember s m r).profile.profiledMembers = s.profile.profiledMembers + 1 ∧
      (profiledMember s m r).profile.profiledBytes = s.profile.profiledBytes + m.sizeBytes ∧
      (profiledMember s m r).profile.sourceKey = s.profile.sourceKey := by
  rw [profiledMember]
  split_ifs
  · cases r.dumps with
    | some text => exact ⟨rfl, rfl, rfl, rfl, rfl, rfl⟩
    | none => exact ⟨rfl, rfl, rfl, rfl, rfl, rfl⟩
  · exact ⟨rfl, rfl, rfl, rfl, rfl, rfl⟩

/-- **One member more**: it has its outcome, or the run is cancelled at it. -/
theorem profileMember_step {l : List (Member × Outcome)} {s : State} {m : Member}
    (h : Looped limits answers l s) (hnew : key m ∉ s.profile.members.map Prod.fst) :
    (∃ o s', profileMember limits answers s m = .ok s' ∧
      Looped limits answers (l ++ [(m, o)]) s' ∧ s'.profile.sourceKey = s.profile.sourceKey) ∨
    ∃ s', profileMember limits answers s m = .error s' ∧ Interrupted limits answers s m s' := by
  have hextraction : some extractionFailed ≠ some interrupted := by decide
  have hfailed : OutcomeStatus.parseFailed ≠ .pending ∧ OutcomeStatus.parseFailed ≠ .profiled := by
    decide
  have htimeout : OutcomeStatus.timeout ≠ .pending ∧ OutcomeStatus.timeout ≠ .profiled := by decide
  unfold profileMember
  extract_lets s₁
  cases hcheck : check limits (answers.late m.index) s.attempted s.profile.readBytes m with
  | some refused =>
    have hcheck₁ : check limits (answers.late m.index) s₁.attempted s₁.profile.readBytes m =
      some refused := hcheck
    rw [hcheck₁]
    refine Or.inl ⟨{ pendingOutcome m with
      status := refused.status, reason := some (refused.reason limits) }, _, rfl, ?_, rfl⟩
    refine h.refused hcheck ?_ ⟨refused.status_ne.1, ?_⟩ refused.status_ne.2 rfl
    · rw [← assign_twice _ (pendingOutcome m) hnew]
      rfl
    · exact fun hreason => refused.reason_ne limits (Option.some.inj hreason)
  | none =>
    have hcheck₁ : check limits (answers.late m.index) s₁.attempted s₁.profile.readBytes m =
      none := hcheck
    rw [hcheck₁]
    cases hanswer : answers.member m.index with
    | result r =>
      obtain ⟨o, hmembers, hprofile, ho⟩ :=
        profiledMember_members s m r hnew (pendingOutcome m)
      obtain ⟨hattempted, hreadBytes, hreads, hcount, hbytes, hsourceKey⟩ :=
        profiledMember_counts ((s.put m (pendingOutcome m)).reading m) m r
      refine Or.inl ⟨o, _, rfl,
        h.read hcheck hmembers hattempted hreadBytes hreads ?_ ?_ ?_, hsourceKey⟩
      · rcases ho with ⟨hstatus, hreason⟩ | ⟨-, hstatus, hreason⟩
        · rw [hstatus, hreason]
          exact ⟨by decide, Option.some_ne_none _ |>.symm⟩
        · rw [hstatus, hreason]
          exact ⟨by decide, hextraction⟩
      · rw [hanswer]
        intro hcancelled
        cases hcancelled
      · refine .returned r hanswer hprofile ?_ hcount hbytes
        intro hdumps
        rcases ho with ⟨hstatus, -⟩ | ⟨hnone, -⟩
        · exact hstatus
        · exact absurd hnone hdumps
    | failed =>
      refine Or.inl ⟨{ pendingOutcome m with
        status := .parseFailed, reason := some extractionFailed }, _, rfl,
        h.read hcheck (assign_twice _ (pendingOutcome m) hnew) rfl rfl rfl
          ⟨hfailed.1, hextraction⟩ ?_ (.failed ?_ rfl hfailed.2 rfl rfl), rfl⟩
      · rw [hanswer]
        intro hcancelled
        cases hcancelled
      · rw [hanswer]
        intro r hr
        cases hr
    | timedOut =>
      refine Or.inl ⟨{ pendingOutcome m with
        status := .timeout, reason := some (timeoutReason limits) }, _, rfl,
        h.read hcheck (assign_twice _ (pendingOutcome m) hnew) rfl rfl rfl
          ⟨htimeout.1, ?_⟩ ?_ (.failed ?_ rfl htimeout.2 rfl rfl), rfl⟩
      · exact fun hreason => Refused.late.reason_ne limits (Option.some.inj hreason)
      · rw [hanswer]
        intro hcancelled
        cases hcancelled
      · rw [hanswer]
        intro r hr
        cases hr
    | cancelled =>
      exact Or.inr ⟨_, rfl, hcheck, hanswer, assign_new _ hnew, rfl, rfl, rfl, rfl, rfl⟩

theorem key_new {l : List (Member × Outcome)} {s : State} {m : Member}
    (h : Looped limits answers l s) (hnew : m.index ∉ (l.map Prod.fst).map Member.index) :
    key m ∉ s.profile.members.map Prod.fst := by
  rw [h.members, List.map_map]
  intro hmem
  obtain ⟨e, he, hkey⟩ := List.mem_map.1 hmem
  exact hnew (List.mem_map.2 ⟨e.1, List.mem_map_of_mem he, key_inj hkey⟩)

/-- **The loop**: every member has its outcome, or the run is cancelled at one of them, and the
    members after it have none. -/
theorem loop (rest : List Member) (l : List (Member × Outcome)) (s : State)
    (h : Looped limits answers l s) (hnodup : ((l.map Prod.fst ++ rest).map Member.index).Nodup) :
    (∃ l' s', rest.foldlM (profileMember limits answers) s = .ok s' ∧
      Looped limits answers l' s' ∧ s'.profile.sourceKey = s.profile.sourceKey ∧
      l'.map Prod.fst = l.map Prod.fst ++ rest) ∨
    ∃ l' s₁ m after s', rest.foldlM (profileMember limits answers) s = .error s' ∧
      Looped limits answers l' s₁ ∧ Interrupted limits answers s₁ m s' ∧
      s'.profile.sourceKey = s.profile.sourceKey ∧
      l.map Prod.fst ++ rest = l'.map Prod.fst ++ m :: after := by
  induction rest generalizing l s with
  | nil => exact Or.inl ⟨l, s, rfl, h, rfl, (List.append_nil _).symm⟩
  | cons m rest ih =>
    have hnew : m.index ∉ (l.map Prod.fst).map Member.index := by
      intro hmem
      rw [List.map_append, List.map_cons] at hnodup
      exact (List.nodup_append.1 hnodup).2.2 _ hmem _ List.mem_cons_self rfl
    rw [List.foldlM_cons]
    rcases profileMember_step h (key_new h hnew) with
      ⟨o, s', hs', h', hsourceKey⟩ | ⟨s', hs', hcancelled⟩
    · rw [hs', Except.ok_bind]
      have hsnoc : (l ++ [(m, o)]).map Prod.fst ++ rest = l.map Prod.fst ++ m :: rest := by
        rw [List.map_append, List.append_assoc]
        rfl
      rw [← hsnoc] at hnodup ⊢
      rw [← hsourceKey]
      exact ih _ _ h' hnodup
    · rw [hs', Except.error_bind]
      exact Or.inr ⟨l, s, m, rest, s', rfl, h, hcancelled, hcancelled.sourceKey, rfl⟩

/-! ## After the loop -/

/-- The reads are within the limits. -/
structure Within (limits : Limits) (s : State) : Prop where
  maxMembers : s.reads.length ≤ limits.maxMembers
  maxMemberBytes : ∀ read ∈ s.reads, read.2 ≤ limits.maxMemberBytes
  maxTotalBytes : (s.reads.map Prod.snd).sum ≤ limits.maxTotalBytes
  readBytes : s.profile.readBytes ≤ limits.maxTotalBytes

/-- The outcomes and the counts of the members stay, and the source key. -/
structure Kept (p p' : Profile) : Prop where
  members : p'.members = p.members
  profiledMembers : p'.profiledMembers = p.profiledMembers
  profiledBytes : p'.profiledBytes = p.profiledBytes
  sourceKey : p'.sourceKey = p.sourceKey

theorem Kept.trans {p p' p'' : Profile} (h : Kept p p') (h' : Kept p' p'') : Kept p p'' :=
  ⟨h'.members.trans h.members, h'.profiledMembers.trans h.profiledMembers,
    h'.profiledBytes.trans h.profiledBytes, h'.sourceKey.trans h.sourceKey⟩

/-- What holds while the documentation is read: there are bytes for what is left of it. -/
structure Quoting (limits : Limits) (s : State) : Prop where
  attempted : s.attempted = s.reads.length
  readBytes : s.profile.readBytes = (s.reads.map Prod.snd).sum
  maxMembers : s.attempted ≤ limits.maxMembers
  maxMemberBytes : ∀ read ∈ s.reads, read.2 ≤ limits.maxMemberBytes
  docsLeft : s.profile.readBytes + s.docsLeft ≤ limits.maxTotalBytes

theorem Quoting.within {s : State} (h : Quoting limits s) : Within limits s where
  maxMembers := h.attempted ▸ h.maxMembers
  maxMemberBytes := h.maxMemberBytes
  maxTotalBytes := h.readBytes ▸ (Nat.le_add_right _ _).trans h.docsLeft
  readBytes := (Nat.le_add_right _ _).trans h.docsLeft

/-- **One documentation member more**, also when the run is cancelled while it is read. -/
theorem quoteMember_step (answers : Answers) {s : State} (h : Quoting limits s) (m : Member) :
    (∀ s', quoteMember limits answers s m = .ok s' →
      Quoting limits s' ∧ Kept s.profile s'.profile) ∧
    ∀ s', quoteMember limits answers s m = .error s' →
      Within limits s' ∧ Kept s.profile s'.profile := by
  have hsame : Kept s.profile s.profile := ⟨rfl, rfl, rfl, rfl⟩
  have hskip : (∀ s', (.ok s : Cancellable State) = .ok s' →
      Quoting limits s' ∧ Kept s.profile s'.profile) ∧
      ∀ s', (.ok s : Cancellable State) = .error s' →
        Within limits s' ∧ Kept s.profile s'.profile := by
    constructor
    · intro s' hs'
      cases hs'
      exact ⟨h, hsame⟩
    · intro s' hs'
      cases hs'
  unfold quoteMember
  by_cases hattempted : s.attempted ≥ limits.maxMembers
  · rw [if_pos hattempted]
    exact hskip
  rw [if_neg hattempted]
  by_cases hrole : m.role ≠ .documentation ∨ s.docsLeft = 0 ∨ answers.documentLate m.index = true
  · rw [if_pos hrole]
    exact hskip
  rw [if_neg hrole]
  by_cases hsize : m.sizeBytes > limits.maxMemberBytes
  · rw [if_pos hsize]
    exact hskip
  rw [if_neg hsize]
  extract_lets limit s₁
  by_cases hlimit : limit = 0
  · rw [if_pos hlimit]
    exact hskip
  rw [if_neg hlimit]
  have hless : limit ≤ s.docsLeft := min_le_left _ _
  have hleft := h.docsLeft
  have hlength : s₁.attempted = s₁.reads.length := by
    show s.attempted + 1 = (s.reads ++ [(m, limit)]).length
    rw [List.length_append, h.attempted]
    rfl
  have hsum : s.profile.readBytes + limit = (s₁.reads.map Prod.snd).sum := by
    show s.profile.readBytes + limit = ((s.reads ++ [(m, limit)]).map Prod.snd).sum
    rw [List.map_append, List.sum_append, h.readBytes]
    rfl
  have hmembers : s₁.attempted ≤ limits.maxMembers := not_le.1 hattempted
  have hbytes : ∀ read ∈ s₁.reads, read.2 ≤ limits.maxMemberBytes := by
    intro read hread
    rcases List.mem_append.1 hread with hread | hread
    · exact h.maxMemberBytes read hread
    · rw [List.mem_singleton.1 hread]
      exact (min_le_right _ _).trans (not_lt.1 hsize)
  have hcharged : ∀ documentation, Quoting limits (s₁.charged limit documentation) ∧
      Kept s.profile (s₁.charged limit documentation).profile := by
    intro documentation
    refine ⟨⟨hlength, hsum, hmembers, hbytes, ?_⟩, rfl, rfl, rfl, rfl⟩
    show s.profile.readBytes + limit + (s.docsLeft - limit) ≤ limits.maxTotalBytes
    omega
  cases answers.documentation m.index with
  | result text =>
    constructor
    · intro s' hs'
      cases hs'
      exact hcharged _
    · intro s' hs'
      cases hs'
  | failed =>
    constructor
    · intro s' hs'
      cases hs'
      exact hcharged _
    · intro s' hs'
      cases hs'
  | timedOut =>
    constructor
    · intro s' hs'
      cases hs'
      exact hcharged _
    · intro s' hs'
      cases hs'
  | cancelled =>
    constructor
    · intro s' hs'
      cases hs'
    · intro s' hs'
      cases hs'
      refine ⟨⟨hlength ▸ hmembers, hbytes, ?_, ?_⟩, hsame⟩
      · rw [← hsum]
        omega
      · show s.profile.readBytes ≤ limits.maxTotalBytes
        omega

theorem quoteMembers (answers : Answers) (values : List Member) {s : State} (h : Quoting limits s) :
    (∀ s', values.foldlM (quoteMember limits answers) s = .ok s' →
      Within limits s' ∧ Kept s.profile s'.profile) ∧
    ∀ s', values.foldlM (quoteMember limits answers) s = .error s' →
      Within limits s' ∧ Kept s.profile s'.profile := by
  have hstep : ∀ s₁ m, (Quoting limits s₁ ∧ Kept s.profile s₁.profile) →
      (∀ s', quoteMember limits answers s₁ m = .ok s' →
        Quoting limits s' ∧ Kept s.profile s'.profile) ∧
      ∀ s', quoteMember limits answers s₁ m = .error s' →
        Within limits s' ∧ Kept s.profile s'.profile := by
    rintro s₁ m ⟨h₁, hkept⟩
    obtain ⟨hok, herror⟩ := quoteMember_step answers h₁ m
    exact ⟨fun s' hs' => ⟨(hok s' hs').1, hkept.trans (hok s' hs').2⟩,
      fun s' hs' => ⟨(herror s' hs').1, hkept.trans (herror s' hs').2⟩⟩
  obtain ⟨hok, herror⟩ := List.foldlM_invariant hstep values ⟨h, rfl, rfl, rfl, rfl⟩
  exact ⟨fun s' hs' => ⟨(hok s' hs').1.within, (hok s' hs').2⟩, herror⟩

theorem scanPii_kept (limits : Limits) (answers : Answers) (s : State) :
    (∀ s', scanPii limits answers s = .ok s' → s'.reads = s.reads ∧
      s'.profile.readBytes = s.profile.readBytes ∧ Kept s.profile s'.profile) ∧
    ∀ s', scanPii limits answers s = .error s' → s'.reads = s.reads ∧
      s'.profile.readBytes = s.profile.readBytes ∧ Kept s.profile s'.profile := by
  unfold scanPii
  cases answers.pii with
  | cancelled =>
    constructor
    · intro s' hs'
      cases hs'
    · intro s' hs'
      cases hs'
      exact ⟨rfl, rfl, rfl, rfl, rfl, rfl⟩
  | _ =>
    constructor
    · intro s' hs'
      cases hs'
      exact ⟨rfl, rfl, rfl, rfl, rfl, rfl⟩
    · intro s' hs'
      cases hs'

/-- No outcome is pending. -/
def Profile.Decided (p : Profile) : Prop := ∀ entry ∈ p.members, entry.2.status ≠ .pending

theorem finish_kept {p : Profile} (h : p.Decided) : Kept p (finish p) := by
  refine ⟨?_, rfl, rfl, rfl⟩
  show p.members.map _ = p.members
  refine (List.map_congr_left fun entry hentry => ?_).trans (List.map_id _)
  rw [Outcome.finished, if_neg (h entry hentry)]
  rfl

theorem author_kept (record : Dataset.Row) (limits : Limits) (answers : Answers) {s : State}
    (h : s.profile.Decided) :
    (∀ s' listing, author record limits answers s = .ok (s', listing) → s'.reads = s.reads ∧
      s'.profile.readBytes = s.profile.readBytes ∧ Kept s.profile s'.profile) ∧
    ∀ s', author record limits answers s = .error s' → s'.reads = s.reads ∧
      s'.profile.readBytes = s.profile.readBytes ∧ Kept s.profile s'.profile := by
  have hkept := finish_kept h
  have hkept' : ∀ reason, Kept s.profile { finish s.profile with metadataReason := some reason } :=
    fun reason => ⟨hkept.members, rfl, rfl, rfl⟩
  unfold author
  extract_lets s₁ unavailable
  by_cases hremaining : answers.remaining = false
  · rw [if_pos hremaining]
    constructor
    · intro s' listing hs'
      cases hs'
      exact ⟨rfl, rfl, hkept⟩
    · intro s' hs'
      cases hs'
  rw [if_neg hremaining]
  cases answers.authored with
  | result a =>
    constructor
    · intro s' listing hs'
      cases hs'
      exact ⟨rfl, rfl, hkept⟩
    · intro s' hs'
      cases hs'
  | failed =>
    constructor
    · intro s' listing hs'
      cases hs'
      exact ⟨rfl, rfl, hkept' _⟩
    · intro s' hs'
      cases hs'
  | timedOut =>
    constructor
    · intro s' listing hs'
      cases hs'
      exact ⟨rfl, rfl, hkept' _⟩
    · intro s' hs'
      cases hs'
  | cancelled =>
    constructor
    · intro s' listing hs'
      cases hs'
    · intro s' hs'
      cases hs'
      exact ⟨rfl, rfl, hkept⟩

theorem Kept.decided {p p' : Profile} (h : Kept p p') (hp : p.Decided) : p'.Decided := by
  intro entry hentry
  exact hp entry (h.members ▸ hentry)

theorem Within.of_reads {s s' : State} (h : Within limits s) (hreads : s'.reads = s.reads)
    (hreadBytes : s'.profile.readBytes = s.profile.readBytes) : Within limits s' where
  maxMembers := hreads ▸ h.maxMembers
  maxMemberBytes := hreads ▸ h.maxMemberBytes
  maxTotalBytes := hreads ▸ h.maxTotalBytes
  readBytes := hreadBytes ▸ h.readBytes

theorem Looped.decided_profile {l : List (Member × Outcome)} {s : State}
    (h : Looped limits answers l s) : s.profile.Decided := by
  intro entry hentry
  rw [h.members] at hentry
  obtain ⟨e, he, rfl⟩ := List.mem_map.1 hentry
  exact (h.decided e he).1

theorem Looped.sum_reads {l : List (Member × Outcome)} {s : State} (h : Looped limits answers l s) :
    (s.reads.map Prod.snd).sum = s.profile.readBytes := by
  rw [h.reads, h.readBytes, List.map_map]
  rfl

/-- After the loop nothing happens to the outcomes, however the run ends. -/
theorem body_ok (record : Dataset.Row) {values : List Member} {l : List (Member × Outcome)}
    {s₀ s : State} (hloop : (dataMembers values).foldlM (profileMember limits answers) s₀ = .ok s)
    (h : Looped limits answers l s) :
    ∃ t listing, (body record limits answers values s₀ = .ok (t, listing) ∨
        body record limits answers values s₀ = .error t ∧ listing = none) ∧
      Within limits t ∧ Kept s.profile t.profile := by
  have hquoting : Quoting limits (s.budgeted limits) := by
    refine ⟨?_, h.sum_reads.symm, h.maxMembers, h.maxMemberBytes, ?_⟩
    · show s.attempted = s.reads.length
      rw [h.reads, List.length_map]
      exact h.attempted
    · have hle := h.maxTotalBytes
      have hmin : min limits.docsContextBytes (limits.maxTotalBytes - s.profile.readBytes) ≤
        limits.maxTotalBytes - s.profile.readBytes := min_le_right _ _
      show s.profile.readBytes + min _ _ ≤ _
      omega
  obtain ⟨hquotes, hquotes'⟩ := quoteMembers answers values hquoting
  rw [body, hloop, Except.ok_bind]
  cases hquoted : values.foldlM (quoteMember limits answers) (s.budgeted limits) with
  | error t =>
    rw [Except.error_bind]
    exact ⟨t, none, Or.inr ⟨rfl, rfl⟩, hquotes' t hquoted⟩
  | ok s₁ =>
    obtain ⟨hwithin, hkept⟩ := hquotes s₁ hquoted
    obtain ⟨hpii, hpii'⟩ := scanPii_kept limits answers s₁
    rw [Except.ok_bind]
    cases hscanned : scanPii limits answers s₁ with
    | error t =>
      obtain ⟨hreads, hreadBytes, hkept'⟩ := hpii' t hscanned
      rw [Except.error_bind]
      exact ⟨t, none, Or.inr ⟨rfl, rfl⟩, hwithin.of_reads hreads hreadBytes, hkept.trans hkept'⟩
    | ok s₂ =>
      obtain ⟨hreads, hreadBytes, hkept'⟩ := hpii s₂ hscanned
      have hwithin₂ := hwithin.of_reads hreads hreadBytes
      have hkept₂ := hkept.trans hkept'
      obtain ⟨hauthor, hauthor'⟩ := author_kept record limits answers
        (hkept₂.decided h.decided_profile)
      rw [Except.ok_bind]
      cases hauthored : author record limits answers s₂ with
      | error t =>
        obtain ⟨hreads', hreadBytes', hkept''⟩ := hauthor' t hauthored
        exact ⟨t, none, Or.inr ⟨rfl, rfl⟩, hwithin₂.of_reads hreads' hreadBytes',
          hkept₂.trans hkept''⟩
      | ok r =>
        obtain ⟨t, listing⟩ := r
        obtain ⟨hreads', hreadBytes', hkept''⟩ := hauthor t listing hauthored
        exact ⟨t, listing, Or.inl rfl, hwithin₂.of_reads hreads' hreadBytes', hkept₂.trans hkept''⟩

/-! ## The profile that is saved -/

theorem outcomes_of_members {l : List (Member × Outcome)} {p : Profile}
    (hmembers : p.members = l.map fun e => (key e.1, e.2))
    (hnodup : ((l.map Prod.fst).map Member.index).Nodup) {e : Member × Outcome} (he : e ∈ l) :
    p.outcomes e.1 = [e.2] := by
  rw [Profile.outcomes, hmembers]
  clear hmembers
  induction l with
  | nil => cases he
  | cons f l ih =>
    have hfresh : f.1.index ∉ (l.map Prod.fst).map Member.index := (List.nodup_cons.1 hnodup).1
    have hrest := ih (List.nodup_cons.1 hnodup).2
    rw [List.map_cons]
    rcases List.mem_cons.1 he with rfl | he
    · have hnone :
          ((l.map fun f => (key f.1, f.2)).filter fun entry => entry.1 = key e.1) = [] := by
        rw [List.filter_eq_nil_iff]
        intro entry hentry
        obtain ⟨f, hf, rfl⟩ := List.mem_map.1 hentry
        rw [decide_eq_true_eq]
        intro hkey
        exact hfresh (List.mem_map.2 ⟨f.1, List.mem_map_of_mem hf, key_inj hkey⟩)
      rw [List.filter_cons_of_pos (by simp), hnone]
      rfl
    · have hother : ¬ key f.1 = key e.1 := by
        intro hkey
        exact hfresh (List.mem_map.2 ⟨e.1, List.mem_map_of_mem he, (key_inj hkey).symm⟩)
      rw [List.filter_cons_of_neg (by simpa using hother)]
      exact hrest he

theorem profiledOf_members {l : List (Member × Outcome)} {p : Profile}
    (hmembers : p.members = l.map fun e => (key e.1, e.2))
    (hnodup : ((l.map Prod.fst).map Member.index).Nodup) :
    p.profiledOf (l.map Prod.fst) =
      (l.filter fun e => e.2.status = .profiled).map Prod.fst := by
  rw [Profile.profiledOf, List.filter_map]
  refine congrArg (List.map Prod.fst) (List.filter_congr fun e he => ?_)
  simp only [Function.comp_apply, outcomes_of_members hmembers hnodup he, List.mem_singleton,
    exists_eq_left]

/-- **A profile that has the outcomes of all members accounts for them.** -/
theorem accounts_of_members {l : List (Member × Outcome)} {p : Profile} {listing : Option Listing}
    {t : State} (hmembers : p.members = l.map fun e => (key e.1, e.2))
    (hnodup : ((l.map Prod.fst).map Member.index).Nodup)
    (hdecided : ∀ e ∈ l, e.2.status ≠ .pending)
    (hcounted : p.profiledMembers = (l.filter fun e => e.2.status = .profiled).length ∧
      p.profiledBytes = ((l.filter fun e => e.2.status = .profiled).map fun e => e.1.sizeBytes).sum)
    (hwithin : Within limits t) (hreadBytes : p.readBytes = t.profile.readBytes)
    (hconsidered : p.status = .completed → ∀ e ∈ l, e.2.reason ≠ some interrupted) :
    Accounts limits (l.map Prod.fst) ⟨p, listing, t.reads⟩ := by
  have hprofiled := profiledOf_members hmembers hnodup
  constructor
  · intro m hm
    obtain ⟨e, he, rfl⟩ := List.mem_map.1 hm
    exact ⟨e.2, outcomes_of_members hmembers hnodup he, hdecided e he⟩
  · rw [hprofiled, List.length_map]
    exact hcounted.1
  · rw [hprofiled, List.map_map]
    exact hcounted.2
  · exact hwithin.maxMembers
  · exact hwithin.maxMemberBytes
  · exact hwithin.maxTotalBytes
  · exact hreadBytes ▸ hwithin.readBytes
  · intro hcompleted m hm
    obtain ⟨e, he, rfl⟩ := List.mem_map.1 hm
    refine ⟨e.2, ?_, hconsidered hcompleted e he⟩
    show e.2 ∈ p.outcomes e.1
    rw [outcomes_of_members hmembers hnodup he]
    exact List.mem_singleton_self _

/-- The profile that the run has saved at its start accounts for no member. -/
theorem not_accounts_start {sourceKey : String} {data : List Member} {m : Member} (hm : m ∈ data)
    {listing : Option Listing} {reads : List (Member × ℕ)} :
    ¬ Accounts limits data ⟨start sourceKey data, listing, reads⟩ := by
  intro h
  obtain ⟨o, ho, -⟩ := h.outcome m hm
  cases ho

theorem looped_nil (sourceKey : String) (data : List Member) : Looped limits answers []
    ⟨start sourceKey data, 0, [], [], [], [], 0, []⟩ where
  members := rfl
  attempted := rfl
  readBytes := rfl
  reads := rfl
  maxMembers := Nat.zero_le _
  maxTotalBytes := Nat.zero_le _
  maxMemberBytes := fun _ h => absurd h List.not_mem_nil
  decided := fun _ h => absurd h List.not_mem_nil
  answered := fun _ h => absurd h List.not_mem_nil
  profiles := fun r => by simp [attempts]
  profiledMembers := by simp [attempts, start]
  counted := fun _ => ⟨rfl, rfl⟩

/-- The profile can be saved iff what the workers have returned can be dumped. -/
theorem Looped.storable_iff {l : List (Member × Outcome)} {s : State} {p : Profile}
    (h : Looped limits answers l s) (hmembers : p.members = s.profile.members) :
    p.Storable ↔ ∀ m ∈ attempts limits answers.late (l.map Prod.fst) 0 0, ∀ r,
      answers.member m.index = .result r → r.dumps ≠ none := by
  rw [Profile.Storable, hmembers, h.members]
  constructor
  · intro hstorable m hm r hr
    obtain ⟨e, he, hprofile⟩ := (h.profiles r).2 ⟨m, hm, hr⟩
    exact hstorable _ (List.mem_map_of_mem he) r hprofile
  · intro hdumps entry hentry r hr
    obtain ⟨e, he, rfl⟩ := List.mem_map.1 hentry
    obtain ⟨m, hm, hanswer⟩ := (h.profiles r).1 ⟨e, he, hr⟩
    exact hdumps m hm r hanswer

/-- A run whose loop has ended. -/
theorem saved_iff (record : Dataset.Row) (sourceKey : String) {l : List (Member × Outcome)}
    {s t : State} (listing : Option Listing) (h : Looped limits answers l s)
    (hnodup : ((l.map Prod.fst).map Member.index).Nodup) (hwithin : Within limits t)
    (hkept : Kept s.profile t.profile) :
    Accounts limits (l.map Prod.fst)
        (save record (start sourceKey (l.map Prod.fst)) t listing) ↔
      Undisturbed limits answers (l.map Prod.fst) := by
  have hfinish := hkept.trans (finish_kept (hkept.decided h.decided_profile))
  have hstorable := h.storable_iff hfinish.members
  unfold save
  extract_lets p
  by_cases hp : p.Storable
  · rw [if_pos hp]
    have hdumps := hstorable.1 hp
    obtain ⟨hcount, hbytes⟩ := h.counted hdumps
    constructor
    · intro _
      exact ⟨fun m hm hcancelled => absurd hcancelled (h.answered m hm), hdumps⟩
    · intro _
      exact accounts_of_members (hfinish.members.trans h.members) hnodup
        (fun e he => (h.decided e he).1)
        ⟨hfinish.profiledMembers.trans hcount, hfinish.profiledBytes.trans hbytes⟩ hwithin rfl
        fun _ e he => (h.decided e he).2
  · rw [if_neg hp]
    constructor
    · intro haccounts
      obtain ⟨m, hm, -⟩ : ∃ m ∈ attempts limits answers.late (l.map Prod.fst) 0 0, ∃ r,
          answers.member m.index = .result r ∧ r.dumps = none := by
        by_contra hnone
        push Not at hnone
        exact hp (hstorable.2 hnone)
      exact absurd haccounts (not_accounts_start (attempts_subset _ _ _ _ hm))
    · intro hundisturbed
      exact absurd (hstorable.2 hundisturbed.dumps) hp

/-- The outcome of a member at which the run was cancelled. -/
def interruptedOutcome (m : Member) : Outcome :=
  { pendingOutcome m with status := .parseFailed, reason := some interrupted }

theorem Interrupted.members_finish {l : List (Member × Outcome)} {s s' : State} {m : Member}
    (h : Looped limits answers l s) (hcancelled : Interrupted limits answers s m s') :
    (finish s'.profile).members =
      (l ++ [(m, interruptedOutcome m)]).map fun e => (key e.1, e.2) := by
  have hfinished := (finish_kept h.decided_profile).members
  show s'.profile.members.map _ = _
  rw [hcancelled.members, List.map_append, List.map_append, ← h.members]
  exact congrArg (· ++ [(key m, interruptedOutcome m)]) hfinished

theorem Interrupted.within {l : List (Member × Outcome)} {s s' : State} {m : Member}
    (h : Looped limits answers l s) (hcancelled : Interrupted limits answers s m s') :
    Within limits s' := by
  obtain ⟨hmember, hbelow, htotal⟩ := check_none hcancelled.check
  have hlength : s.reads.length = s.attempted := by
    rw [h.reads, List.length_map, h.attempted]
  constructor
  · rw [hcancelled.reads, List.length_append, hlength]
    exact hbelow
  · rw [hcancelled.reads]
    intro read hread
    rcases List.mem_append.1 hread with hread | hread
    · exact h.maxMemberBytes read hread
    · rw [List.mem_singleton.1 hread]
      exact hmember
  · rw [hcancelled.reads, List.map_append, List.sum_append, h.sum_reads]
    exact htotal
  · rw [hcancelled.readBytes]
    exact htotal

theorem outcomes_eq_nil {l : List (Member × Outcome)} {p : Profile} {m : Member}
    (hmembers : p.members = l.map fun e => (key e.1, e.2))
    (hm : m.index ∉ (l.map Prod.fst).map Member.index) : p.outcomes m = [] := by
  rw [Profile.outcomes, hmembers, List.map_eq_nil_iff, List.filter_eq_nil_iff]
  intro entry hentry
  obtain ⟨e, he, rfl⟩ := List.mem_map.1 hentry
  rw [decide_eq_true_eq]
  intro hkey
  exact hm (List.mem_map.2 ⟨e.1, List.mem_map_of_mem he, key_inj hkey⟩)

theorem after_eq_nil {l after : List Member} {m : Member}
    (hnodup : ((l ++ m :: after).map Member.index).Nodup)
    (hlast : (l ++ m :: after).getLast? = some m) : after = [] := by
  by_contra hne
  rw [List.getLast?_append_of_ne_nil _ (List.cons_ne_nil _ _), List.getLast?_cons,
    List.getLast?_eq_some_getLast hne, Option.getD_some, Option.some_inj] at hlast
  rw [List.map_append, List.map_cons] at hnodup
  refine (List.nodup_cons.1 (List.nodup_append.1 hnodup).2.1).1 (List.mem_map_of_mem ?_)
  rw [← hlast]
  exact List.getLast_mem hne

/-- A run that is cancelled at a member. -/
theorem interrupted_iff (record : Dataset.Row) (sourceKey : String) {l : List (Member × Outcome)}
    {s s' : State} {m : Member} {after : List Member} (h : Looped limits answers l s)
    (hcancelled : Interrupted limits answers s m s')
    (hnodup : ((l.map Prod.fst ++ m :: after).map Member.index).Nodup) :
    Accounts limits (l.map Prod.fst ++ m :: after)
        (save record (start sourceKey (l.map Prod.fst ++ m :: after)) s' none) ↔
      Undisturbed limits answers (l.map Prod.fst ++ m :: after) := by
  have hattempts : attempts limits answers.late (l.map Prod.fst ++ m :: after) 0 0 =
      attempts limits answers.late (l.map Prod.fst) 0 0 ++ m :: attempts limits answers.late after
        (s.attempted + 1) (s.profile.readBytes + m.sizeBytes) := by
    rw [attempts_append, Nat.zero_add, Nat.zero_add, ← h.attempted, ← h.readBytes, attempts,
      hcancelled.check]
  have hm : m ∈ attempts limits answers.late (l.map Prod.fst ++ m :: after) 0 0 := by
    rw [hattempts]
    exact List.mem_append_right _ List.mem_cons_self
  have hmembers := Interrupted.members_finish h hcancelled
  have hfst : (l ++ [(m, interruptedOutcome m)]).map Prod.fst = l.map Prod.fst ++ [m] := by
    rw [List.map_append]
    rfl
  have hnodup' : ((l.map Prod.fst ++ [m]).map Member.index).Nodup := by
    refine hnodup.sublist (List.Sublist.map _ (List.Sublist.append_left ?_ _))
    exact List.cons_sublist_cons.2 (List.nil_sublist _)
  unfold save
  extract_lets p
  constructor
  · intro haccounts
    by_cases hp : p.Storable
    swap
    · rw [if_neg hp] at haccounts
      exact absurd haccounts (not_accounts_start (attempts_subset _ _ _ _ hm))
    rw [if_pos hp] at haccounts
    have hafter : after = [] := by
      rw [List.eq_nil_iff_forall_not_mem]
      intro x hx
      obtain ⟨o, ho, -⟩ := haccounts.outcome x (by simp [hx])
      have hnone : p.outcomes x = [] := by
        refine outcomes_eq_nil hmembers ?_
        rw [hfst]
        intro hmem
        have hsplit : l.map Prod.fst ++ m :: after = (l.map Prod.fst ++ [m]) ++ after := by simp
        rw [hsplit, List.map_append] at hnodup
        exact (List.nodup_append.1 hnodup).2.2 _ hmem _ (List.mem_map_of_mem hx) rfl
      rw [show p.outcomes x = [o] from ho] at hnone
      cases hnone
    subst hafter
    have hnone : s.profile.profiledMembers = 0 := by
      by_contra hne
      have hcompleted : p.status = .completed :=
        if_neg fun hzero => hne (hcancelled.profiledMembers.symm.trans hzero)
      obtain ⟨o, ho, hreason⟩ := haccounts.considered hcompleted m (by simp)
      have hinterrupted : p.outcomes m = [interruptedOutcome m] :=
        outcomes_of_members hmembers (hfst ▸ hnodup')
          (List.mem_append_right _ (List.mem_singleton_self (m, interruptedOutcome m)))
      rw [show o ∈ p.outcomes m ↔ o ∈ [interruptedOutcome m] by rw [hinterrupted],
        List.mem_singleton] at ho
      rw [ho] at hreason
      exact hreason rfl
    have hresults : ∀ m' ∈ attempts limits answers.late (l.map Prod.fst ++ [m]) 0 0, ∀ r,
        answers.member m'.index ≠ .result r := by
      intro m' hm' r hr
      rw [hattempts] at hm'
      rcases List.mem_append.1 hm' with hm' | hm'
      · exact h.profiledMembers.1 hnone m' hm' r hr
      · rw [attempts, List.mem_singleton] at hm'
        rw [hm', hcancelled.cancelled] at hr
        cases hr
    refine ⟨?_, fun m' hm' r hr => absurd hr (hresults m' hm' r)⟩
    intro m' hm' hcancelled'
    refine ⟨?_, hresults⟩
    rw [hattempts] at hm'
    rcases List.mem_append.1 hm' with hm' | hm'
    · exact absurd hcancelled' (h.answered m' hm')
    · rw [attempts, List.mem_singleton] at hm'
      rw [hm']
      exact List.getLast?_concat
  · intro hundisturbed
    obtain ⟨hlast, hresults⟩ := hundisturbed.cancelled m hm hcancelled.cancelled
    obtain rfl := after_eq_nil hnodup hlast
    have hresults' : ∀ m' ∈ attempts limits answers.late (l.map Prod.fst) 0 0, ∀ r,
        answers.member m'.index ≠ .result r := by
      intro m' hm'
      refine hresults m' ?_
      rw [hattempts]
      exact List.mem_append_left _ hm'
    have hnone := h.profiledMembers.2 hresults'
    have hp : p.Storable := by
      intro entry hentry r hr
      rw [hmembers] at hentry
      obtain ⟨e, he, rfl⟩ := List.mem_map.1 hentry
      rcases List.mem_append.1 he with he | he
      · obtain ⟨m', hm', hanswer⟩ := (h.profiles r).1 ⟨e, he, hr⟩
        exact absurd hanswer (hresults' m' hm' r)
      · rw [List.mem_singleton.1 he] at hr
        cases hr
    obtain ⟨hcount, hbytes⟩ := h.counted fun m' hm' r hr => absurd hr (hresults' m' hm' r)
    rw [if_pos hp, ← hfst]
    refine accounts_of_members hmembers (hfst ▸ hnodup') ?_ ?_ (Interrupted.within h hcancelled)
      rfl ?_
    · intro e he
      rcases List.mem_append.1 he with he | he
      · exact (h.decided e he).1
      · rw [List.mem_singleton.1 he]
        exact fun hstatus => by cases hstatus
    · rw [List.filter_append, List.filter_cons_of_neg (by simp [interruptedOutcome]),
        List.filter_nil, List.append_nil]
      exact ⟨hcancelled.profiledMembers.trans hcount, hcancelled.profiledBytes.trans hbytes⟩
    · intro hcompleted
      have hskipped : p.status = .profilingSkipped :=
        if_pos (hcancelled.profiledMembers.trans hnone)
      rw [hskipped] at hcompleted
      cases hcompleted

theorem nodup_dataMembers {members : List Member} (h : (members.map Member.index).Nodup) :
    ((dataMembers (selected members)).map Member.index).Nodup := by
  refine List.Nodup.sublist (List.Sublist.map _ List.filter_sublist) ?_
  refine ((List.perm_insertionSort precedes _).map Member.index).nodup_iff.2 ?_
  exact List.Nodup.sublist (List.Sublist.map _ List.filter_sublist) h

/-- How a run ends: with a state that it saves, and the profile accounts for the members iff the
    run is not disturbed. -/
theorem process_saves {directory : Registered} {sourceKey : String} {previous : Option Profile}
    {ran : Ran} (hindex : (directory.members.map Member.index).Nodup)
    (h : process directory limits sourceKey previous answers = some ran) :
    (∃ t listing, ran = save directory.record
        (start sourceKey (dataMembers (selected directory.members))) t listing ∧
      t.profile.sourceKey = sourceKey) ∧
    (Accounts limits (dataMembers (selected directory.members)) ran ↔
      Undisturbed limits answers (dataMembers (selected directory.members))) := by
  have hnodup := nodup_dataMembers hindex
  rw [process] at h
  split_ifs at h
  extract_lets values first at h
  rcases loop (dataMembers values) [] _ (looped_nil sourceKey (dataMembers values)) hnodup with
    ⟨l, s, hloop, hlooped, hsourceKey, hdata⟩ |
      ⟨l, s, m, after, s', hloop, hlooped, hcancelled, hsourceKey, hdata⟩
  · obtain ⟨t, listing, hbody, hwithin, hkept⟩ := body_ok directory.record hloop hlooped
    rw [List.map_nil, List.nil_append] at hdata
    have hran : ran = save directory.record (start sourceKey (dataMembers values)) t listing := by
      rcases hbody with hbody | ⟨hbody, rfl⟩
      · rw [hbody] at h
        exact (Option.some.inj h).symm
      · rw [hbody] at h
        exact (Option.some.inj h).symm
    refine ⟨⟨t, listing, hran, hkept.sourceKey.trans hsourceKey⟩, ?_⟩
    rw [hran]
    show Accounts limits (dataMembers values) _ ↔ Undisturbed limits answers (dataMembers values)
    rw [← hdata]
    exact saved_iff directory.record sourceKey listing hlooped (hdata ▸ hnodup) hwithin hkept
  · rw [List.map_nil, List.nil_append] at hdata
    have hbody : body directory.record limits answers values ⟨first, 0, [], [], [], [], 0, []⟩ =
        .error s' := by
      rw [body, show (dataMembers values).foldlM (profileMember limits answers)
        ⟨first, 0, [], [], [], [], 0, []⟩ = .error s' from hloop, Except.error_bind]
    rw [hbody] at h
    have hran : ran = save directory.record (start sourceKey (dataMembers values)) s' none :=
      (Option.some.inj h).symm
    refine ⟨⟨s', none, hran, hsourceKey⟩, ?_⟩
    rw [hran]
    show Accounts limits (dataMembers values) _ ↔ Undisturbed limits answers (dataMembers values)
    rw [hdata]
    exact interrupted_iff directory.record sourceKey hlooped hcancelled (hdata ▸ hnodup)

theorem save_sourceKey {record : Dataset.Row} {sourceKey : String} {data : List Member} {s : State}
    {listing : Option Listing} (h : s.profile.sourceKey = sourceKey) :
    (save record (start sourceKey data) s listing).saved.sourceKey = sourceKey := by
  unfold save
  extract_lets p
  by_cases hp : p.Storable
  · rw [if_pos hp]
    exact h
  · rw [if_neg hp]
    rfl

end

/-- **What a run saves last accounts for the data members** iff the run is not disturbed while it
    reads them; and what it saves as completed is all that later calls return. -/
theorem process_accounts_iff {directory : Registered} {limits : Limits} {sourceKey : String}
    {previous : Option Profile} {answers : Answers} {ran : Ran}
    (hindex : (directory.members.map Member.index).Nodup)
    (h : process directory limits sourceKey previous answers = some ran) :
    (Accounts limits (dataMembers (selected directory.members)) ran ↔
      Undisturbed limits answers (dataMembers (selected directory.members))) ∧
    (ran.saved.status = .completed → ∀ later,
      process directory limits sourceKey (some ran.saved) later = none) := by
  obtain ⟨⟨t, listing, hran, hsourceKey⟩, hiff⟩ := process_saves hindex h
  refine ⟨hiff, ?_⟩
  intro hcompleted later
  have hkey : ran.saved.sourceKey = sourceKey := hran ▸ save_sourceKey hsourceKey
  exact if_pos ⟨ran.saved, rfl, hkey, Or.inl hcompleted⟩

/-! ## A run that is cancelled -/

def csvMember (index : ℕ) (path : String) : Member where
  index := index
  relativePath := path
  sizeBytes := 4
  sha256 := some path
  detectedType := "csv"
  role := .data
  isSample := false
  status := .current
  reason := none
  mtime := none
  updatedAt := 0

/-- Three small files. -/
def threeFiles : Registered where
  record := newRecord ⟨"/data", "data"⟩ ""
  members := [csvMember 0 "a.csv", csvMember 1 "b.csv", csvMember 2 "c.csv"]

def defaults : Limits where
  maxMembers := 64
  maxMemberBytes := 268435456
  maxTotalBytes := 536870912
  timeout := 900
  docsContextBytes := 262144

/-- A file with a header and no rows. -/
def noRows : Result := ⟨"[]", 0, 1, [], some "[]"⟩

/-- Every worker returns. -/
def allReturned : Answers where
  late := fun _ => false
  member := fun _ => .result noRows
  documentLate := fun _ => false
  documentation := fun _ => .failed
  pii := .failed
  remaining := false
  authored := .failed

/-- The worker of the first file returns, and the run is cancelled at the second. -/
def cancelledAtSecond : Answers :=
  { allReturned with member := fun index => if index = 0 then .result noRows else .cancelled }

theorem process_accounts_iff_threeFiles :
    ∃ ran, process threeFiles defaults "key" none allReturned = some ran ∧
      Accounts defaults (dataMembers (selected threeFiles.members)) ran := by
  obtain ⟨ran, hran⟩ : ∃ ran, process threeFiles defaults "key" none allReturned = some ran :=
    ⟨_, rfl⟩
  refine ⟨ran, hran, (process_accounts_iff (by decide) hran).1.2 ⟨?_, ?_⟩⟩
  · intro m _ hcancelled
    cases hcancelled
  · intro m _ r hr
    cases hr
    exact Option.some_ne_none _

/-- The profile is saved as completed, and says nothing of the third file. -/
theorem cancelled_completed :
    ∃ ran, process threeFiles defaults "key" none cancelledAtSecond = some ran ∧
      ran.saved.status = .completed ∧ csvMember 2 "c.csv" ∈ threeFiles.members ∧
      ran.saved.outcomes (csvMember 2 "c.csv") = [] ∧
      ¬ Accounts defaults (dataMembers (selected threeFiles.members)) ran := by
  refine ⟨_, rfl, by decide, by decide, by decide, ?_⟩
  intro haccounts
  obtain ⟨o, ho, -⟩ := haccounts.outcome (csvMember 2 "c.csv") (by decide)
  cases ho

end Profiling

end Directory

end AimData
