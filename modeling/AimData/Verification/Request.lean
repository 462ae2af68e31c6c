/-
  The request that a verification run is started with: what its idempotency key
  stands for.

  The request is built from the row as a call has read it, so that all requests
  agree as long as nothing rewrites its part of the row once one is in hand.
-/
import AimData.Verification.Lease

namespace AimData

namespace Verification

open VerificationRun

/-! ## The request in hand -/

/-- The request that a call is about to send. -/
def StartPc.request : StartPc → Option Issue
  | .holding run => if run.reportIngest = none ∧ run.report = none then issueOf run else none
  | .claimingStart issue | .issuing issue => some issue
  | _ => none

/-- A request has been sent, or a call has read the row that its request is of. -/
def InHand (w : World) : Prop :=
  w.issues ≠ [] ∨ ∃ i c, w.calls i = some (.start c) ∧ c.pc.request ≠ none

/-- Once a request is in hand, no refresh of `prepare_quote` commits, nor the
    acknowledgements of a `start`. -/
def Settled (w : World) (e : Event) : Prop :=
  ∀ i, e = .step i → InHand w →
    (∀ d6 preview probe quote, w.calls i ≠ some (.prepare (.saving d6 preview probe quote))) ∧
      ∀ c, w.calls i = some (.start c) → c.pc ≠ .acknowledging

/-- Every request that is sent or in hand is the one of the row. -/
structure RequestInv (w : World) : Prop where
  calls : ∀ i c issue, w.calls i = some (.start c) → c.pc.request = some issue →
    issueOf w.row = some issue
  sent : ∀ issue ∈ w.issues, issueOf w.row = some issue

/-! ## What the row's request depends on -/

@[simp] theorem issueOf_synced (row run : VerificationRun) (status : Status) :
    issueOf (row.synced run status) = issueOf row := by
  rw [synced]
  split_ifs <;> rfl

@[simp] theorem issueOf_commanded (row run : VerificationRun) (action : Action) (status : Status)
    (serverDate : Option ℚ) :
    issueOf (commanded row run action status serverDate) = issueOf row := by
  rw [commanded]
  split_ifs <;> rfl

theorem Task.write_issueOf (task : Task) (row : VerificationRun) :
    issueOf (task.write row) = issueOf row := by
  cases task with
  | saveVerification => rfl
  | saveStatus => exact issueOf_synced ..
  | saveReport => rfl
  | saveIngest => rfl

/-! ## One step -/

section

variable {w v : World} {i : ℕ} {o : Option Call}

/-- A step that leaves the request of the row alone. -/
theorem RequestInv.put (h : RequestInv w) (hcalls : v.calls = w.calls)
    (hrow : issueOf v.row = issueOf w.row)
    (hsent : ∀ issue ∈ v.issues, issueOf w.row = some issue)
    (hown : ∀ c issue, o = some (.start c) → c.pc.request = some issue →
      issueOf w.row = some issue) : RequestInv (v.put i o) := by
  refine ⟨?_, ?_⟩
  · intro j d issue hj hd
    rcases World.put_calls.1 hj with ⟨-, ho⟩ | ⟨-, hj⟩
    · exact hrow.trans (hown d issue ho hd)
    · rw [hcalls] at hj
      exact hrow.trans (h.calls j d issue hj hd)
  · intro issue hissue
    exact hrow.trans (hsent issue hissue)

/-- A step that rewrites it, while nothing is in hand. -/
theorem RequestInv.of_notInHand (h : ¬ InHand w) (hcalls : v.calls = w.calls)
    (hissues : v.issues = w.issues) (hown : ∀ c, o = some (.start c) → c.pc.request = none) :
    RequestInv (v.put i o) := by
  refine ⟨?_, ?_⟩
  · intro j d issue hj hd
    rcases World.put_calls.1 hj with ⟨-, ho⟩ | ⟨-, hj⟩
    · rw [hown d ho] at hd
      cases hd
    · rw [hcalls] at hj
      refine absurd (Or.inr ⟨j, d, hj, ?_⟩) h
      rw [hd]
      exact Option.some_ne_none issue
  · intro issue hissue
    refine absurd (Or.inl ?_) h
    rw [← hissues]
    exact List.ne_nil_of_mem hissue

end

/-- **A step of a call** sends and keeps only the request of the row. -/
theorem StartStep.request {w w' : World} {c : StartCall} {o : Option Call}
    (h : StartStep w c w' o) (hpc : ∀ issue, c.pc.request = some issue → issueOf w.row = some issue)
    (hsent : ∀ issue ∈ w.issues, issueOf w.row = some issue) (hack : c.pc ≠ .acknowledging) :
    issueOf w'.row = issueOf w.row ∧ (∀ issue ∈ w'.issues, issueOf w.row = some issue) ∧
      ∀ c' issue, o = some (.start c') → c'.pc.request = some issue →
        issueOf w.row = some issue := by
  have hnone : ∀ {c : StartCall} {pc : StartPc}, pc.request = none → ∀ c' issue,
      c.goto pc = some (.start c') → c'.pc.request = some issue → issueOf w.row = some issue := by
    intro c pc hrequest c' issue h hissue
    cases h
    rw [hrequest] at hissue
    cases hissue
  have hafter : ∀ run, (c.afterStatus run).request = none := by
    intro run
    rw [StartCall.afterStatus]
    split_ifs <;> rfl
  cases h with
  | unready => exact ⟨rfl, hsent, fun c' issue h => by cases h⟩
  | ready =>
    refine ⟨rfl, hsent, hnone ?_⟩
    split_ifs <;> rfl
  | acknowledge hpc' => exact absurd hpc' hack
  | finished =>
    refine ⟨rfl, hsent, ?_⟩
    intro c' issue h
    split_ifs at h
    cases h
  | claim =>
    refine ⟨rfl, hsent, ?_⟩
    intro c' issue h hissue
    cases h
    cases hissue
  | hold =>
    refine ⟨rfl, hsent, ?_⟩
    intro c' issue h hissue
    cases h
    simp only [StartPc.request] at hissue
    split_ifs at hissue
    exact hissue
  | issue hpc' hingest hreport hissue =>
    refine ⟨rfl, hsent, ?_⟩
    intro c' issue' h hissue'
    have hrow := hpc _ (show c.pc.request = some _ by
      rw [hpc', StartPc.request, if_pos ⟨hingest, hreport⟩, hissue])
    cases h
    split_ifs at hissue'
    · cases hissue'
      exact hrow
    · cases hissue'
      exact hrow
  | @claimStart issue hpc' =>
    refine ⟨rfl, hsent, ?_⟩
    intro c' issue' h hissue
    cases h
    cases hissue
    exact hpc issue (by rw [hpc']; rfl)
  | @send issue hpc' =>
    refine ⟨rfl, ?_, hnone rfl⟩
    intro issue' hmem
    rcases List.mem_append.1 hmem with hmem | hmem
    · exact hsent issue' hmem
    · rw [List.mem_singleton.1 hmem]
      exact hpc issue (by rw [hpc']; rfl)
  | assert =>
    refine ⟨rfl, hsent, ?_⟩
    intro c' issue h hissue
    cases h
    cases hissue
  | @save task => exact ⟨task.write_issueOf w.row, hsent, hnone rfl⟩
  | unasked => exact ⟨rfl, hsent, hnone (hafter _)⟩
  | synced => exact ⟨rfl, hsent, hnone (hafter _)⟩
  | askFinal =>
    refine ⟨rfl, hsent, hnone ?_⟩
    split_ifs <;> rfl
  | release =>
    split_ifs
    · exact ⟨rfl, hsent, fun c' issue h => by cases h⟩
    · exact ⟨rfl, hsent, fun c' issue h => by cases h⟩
  | _ => exact ⟨rfl, hsent, hnone rfl⟩

theorem requestInv_step {w w' : World} {e : Event} (h : RequestInv w) (hstep : WorldStep w e w')
    (he : Settled w e) : RequestInv w' := by
  have hother : ∀ {w' : World} {i : ℕ} {o : Option Call}, (∀ c, o ≠ some (.start c)) →
      w'.calls = w.calls → issueOf w'.row = issueOf w.row → w'.issues = w.issues →
      RequestInv (w'.put i o) := by
    intro w' i o ho hcalls hrow hissues
    exact h.put hcalls hrow (hissues ▸ h.sent) fun c issue hc => absurd hc (ho c)
  cases hstep with
  | @begin i call hi hbegins =>
    refine h.put (v := { w with owners := call.owners ++ w.owners }) rfl rfl h.sent ?_
    intro c issue hc hissue
    cases hbegins with
    | start =>
      cases hc
      cases hissue
    | prepare => cases hc
    | sync => cases hc
    | command => cases hc
  | @prepare _ i c o hi hstep =>
    cases hstep with
    | quoted => exact hother (fun c h => by cases h) rfl rfl rfl
    | save =>
      refine .of_notInHand ?_ rfl rfl fun c h => by cases h
      intro hhand
      exact (he i rfl hhand).1 _ _ _ _ hi
  | @start _ i c o hi hstep =>
    by_cases hack : c.pc = .acknowledging
    · have hhand : ¬ InHand w := fun hhand => (he i rfl hhand).2 c hi hack
      cases hstep with
      | acknowledge =>
        refine .of_notInHand hhand rfl rfl ?_
        intro c' h
        cases h
        rfl
      | _ => simp_all
    · obtain ⟨hrow, hsent, hown⟩ := hstep.request (fun issue => h.calls i c issue hi) h.sent hack
      exact h.put hstep.frame.1 hrow hsent hown
  | sync hi hstep =>
    cases hstep with
    | answer => exact hother (fun c h => by cases h) rfl rfl rfl
    | save => exact hother (fun c h => by cases h) rfl (issueOf_synced ..) rfl
  | command hi hstep =>
    cases hstep with
    | record => exact hother (fun c h => by cases h) rfl rfl rfl
    | read => exact hother (fun c h => by cases h) rfl rfl rfl
    | answer => exact hother (fun c h => by cases h) rfl rfl rfl
    | save => exact hother (fun c h => by cases h) rfl (issueOf_commanded ..) rfl
  | raise hi _ =>
    refine h.put rfl rfl h.sent ?_
    intro c issue hc hissue
    cases hc
    cases hissue
  | @heartbeat i c now hi =>
    refine h.put (v := w.save (w.row.leased c.owner now)) rfl rfl h.sent ?_
    intro c' issue hc hissue
    cases hc
    exact h.calls i c issue hi hissue
  | @heartbeatLost i c hi =>
    refine h.put rfl rfl h.sent ?_
    intro c' issue hc hissue
    cases hc
    exact h.calls i c issue hi hissue
  | crash => exact hother (fun c h => by cases h) rfl rfl rfl
  | tick => exact ⟨h.calls, h.sent⟩
  | server => exact ⟨h.calls, h.sent⟩

/-! ## Whole runs -/

theorem requestInv_start (row : VerificationRun) (clock : ℚ) : RequestInv (.start row clock) :=
  ⟨fun _ _ _ h => (by cases h), fun _ h => absurd h List.not_mem_nil⟩

/-- **All requests of a run are identical**, and the row stays bound to them, if nothing
    rewrites the row's part of one that is in hand. -/
theorem issues_identical {row : VerificationRun} {clock : ℚ} {es : List Event} {w : World}
    (h : Run (fun w e w' => WorldStep w e w' ∧ Settled w e) (.start row clock) es w) :
    (∀ issue ∈ w.issues, issueOf w.row = some issue) ∧
      ∀ issue ∈ w.issues, ∀ issue' ∈ w.issues, issue = issue' := by
  have hinv : RequestInv w :=
    h.invariant (fun hinv hstep => requestInv_step hinv hstep.1 hstep.2)
      (requestInv_start row clock)
  refine ⟨hinv.sent, ?_⟩
  intro issue hissue issue' hissue'
  exact Option.some.inj ((hinv.sent issue hissue).symm.trans (hinv.sent issue' hissue'))

theorem settled_start {w : World} {i : ℕ} {c : StartCall} (pc : StartPc) (hpc : c.pc = pc)
    (hne : pc ≠ .acknowledging) : Settled (w.put i (some (.start c))) (.step i) := by
  rintro j ⟨⟩ -
  have hcall : (w.put i (some (.start c))).calls i = some (.start c) :=
    World.put_calls.2 (Or.inl ⟨rfl, rfl⟩)
  refine ⟨?_, ?_⟩
  · intro d6 preview probe quote h
    rw [hcall] at h
    cases h
  · intro c' h
    rw [hcall] at h
    cases h
    exact hpc ▸ hne

/-- A call sends the request of an acknowledged row. -/
theorem issues_identical_first : ∃ w : World, w.issues ≠ [] ∧
    (∀ issue ∈ w.issues, issueOf w.row = some issue) ∧
      ∀ issue ∈ w.issues, ∀ issue' ∈ w.issues, issue = issue' := by
  have hrun : Run (fun w e w' => WorldStep w e w' ∧ Settled w e)
      (.start (quotedRow.acknowledged 0) 0)
      [.begin 0, .step 0, .step 0, .step 0, .step 0, .step 0, .step 0, .step 0] _ :=
    .cons ⟨.begin rfl (@Begins.start _ "a" rfl List.not_mem_nil), fun _ h => by cases h⟩ <|
    .cons ⟨(StartStep.ready rfl).world 0, settled_start (.readiness _) rfl nofun⟩ <|
    .cons ⟨(@StartStep.poll _ _ 0 rfl le_rfl (Or.inl rfl)).world 0,
      settled_start .polling rfl nofun⟩ <|
    .cons ⟨(@StartStep.claim _ _ 0 rfl le_rfl ⟨rfl, Or.inl rfl⟩).world 0,
      settled_start .claiming rfl nofun⟩ <|
    .cons ⟨(StartStep.hold rfl).world 0, settled_start .claimed rfl nofun⟩ <|
    .cons ⟨(StartStep.issue rfl rfl rfl rfl).world 0, settled_start (.holding _) rfl nofun⟩ <|
    .cons ⟨(StartStep.claimStart rfl rfl).world 0, settled_start (.claimingStart _) rfl nofun⟩ <|
    .cons ⟨(StartStep.send rfl).world 0, settled_start (.issuing _) rfl nofun⟩ .nil
  exact ⟨_, List.cons_ne_nil _ _, issues_identical hrun⟩

/-! ### A quote refreshed after a failed start -/

/-- The request of a first `start` is sent and its call fails; then `prepare_quote`
    refreshes the quote with another preview choice, and a second `start` sends another
    request under the same key. -/
theorem refresh_changes_request : ∃ es w, Run WorldStep (.start quotedRow 0) es w ∧
    ∃ issue ∈ w.issues, ∃ issue' ∈ w.issues, issue.idempotencyKey = issue'.idempotencyKey ∧
      issue ≠ issue' := by
  have hfirst : Run WorldStep (.start quotedRow 0)
      [.begin 0, .step 0, .step 0, .step 0, .step 0, .step 0, .step 0, .step 0, .step 0] _ :=
    .cons (.begin rfl (@Begins.start _ "a" rfl List.not_mem_nil)) <|
    .cons ((StartStep.ready rfl).world 0) <|
    .cons ((@StartStep.acknowledge _ _ 0 rfl le_rfl).world 0) <|
    .cons ((@StartStep.poll _ _ 0 rfl le_rfl (Or.inl rfl)).world 0) <|
    .cons ((@StartStep.claim _ _ 0 rfl le_rfl ⟨rfl, Or.inl rfl⟩).world 0) <|
    .cons ((StartStep.hold rfl).world 0) <|
    .cons ((StartStep.issue rfl rfl rfl rfl).world 0) <|
    .cons ((StartStep.claimStart rfl rfl).world 0) <|
    .cons ((StartStep.send rfl).world 0) .nil
  have hrefresh := hfirst.append <|
    .cons (.raise (i := 0) rfl rfl) <|
    .cons (.start (i := 0) rfl (.release rfl)) <|
    .cons (.begin (i := 1) rfl (@Begins.prepare _ "d6" true rfl (by decide))) <|
    .cons (.prepare (i := 1) rfl (@PrepareStep.quoted _ _ "probe" _
      ⟨"second quote", "complete_standard_v1", "25.00"⟩)) <|
    .cons (.prepare (i := 1) rfl .save) .nil
  have hsecond := hrefresh.append <|
    .cons (.begin (i := 2) rfl (@Begins.start _ "b" rfl (by decide))) <|
    .cons ((StartStep.ready rfl).world 2) <|
    .cons ((@StartStep.acknowledge _ _ 0 rfl le_rfl).world 2) <|
    .cons ((@StartStep.poll _ _ 0 rfl le_rfl (Or.inl rfl)).world 2) <|
    .cons ((@StartStep.claim _ _ 0 rfl le_rfl ⟨rfl, Or.inl rfl⟩).world 2) <|
    .cons ((StartStep.hold rfl).world 2) <|
    .cons ((StartStep.issue rfl rfl rfl rfl).world 2) <|
    .cons ((StartStep.send rfl).world 2) .nil
  exact ⟨_, _, hsecond, _, List.mem_cons_self, _, List.mem_cons_of_mem _ List.mem_cons_self, rfl,
    by decide⟩

end Verification

end AimData
