/-
  The status of a verification run: each write replaces the stored one by an answer
  of the control plane, however old that answer is by then.
-/
import AimData.Verification.Lease

namespace AimData

namespace Verification

open VerificationRun

/-! ## Answers that are not stored yet -/

def Task.pending : Task → Option (ℕ × Status)
  | .saveStatus _ _ moment status => some (moment, status)
  | _ => none

def StartPc.pending : StartPc → Option (ℕ × Status)
  | .asserting task | .saving task => task.pending
  | _ => none

/-- The status, with its moment, that a call has been answered and has not stored. -/
def Call.pending : Call → Option (ℕ × Status)
  | .start c => c.pc.pending
  | .sync (.saving _ moment status) => some (moment, status)
  | .command (.saving _ _ moment status _) => some (moment, status)
  | _ => none

def StartPc.storing : StartPc → Option ℕ
  | .saving task => task.moment
  | _ => none

/-- The moment of the status that the next step of a call stores. -/
def Call.storing : Call → Option ℕ
  | .start c => c.pc.storing
  | .sync (.saving _ moment _) => some moment
  | .command (.saving _ _ moment _ _) => some moment
  | _ => none

/-- When a call stores a status, no other call still has an older one to store. -/
def InOrder (w : World) (e : Event) : Prop :=
  ∀ i call moment, e = .step i → w.calls i = some call → call.storing = some moment →
    ∀ j call' p, j ≠ i → w.calls j = some call' → call'.pending = some p → moment ≤ p.1

/-- The status is one that the control plane had, and is not older than the stored one. -/
def World.Current (w : World) (p : ℕ × Status) : Prop :=
  w.history[p.1]? = some p.2 ∧ ∀ k, w.stored = some k → k ≤ p.1

structure StatusInv (w : World) : Prop where
  pending : ∀ i call p, w.calls i = some call → call.pending = some p → w.Current p
  stored : ∀ k, w.stored = some k → ∃ status, w.history[k]? = some status ∧
    w.row.paymentStatus = some status ∧ w.row.state = status.state

/-- A stored status stays, or a newer one takes its place. -/
def NotOlder (w w' : World) : Prop :=
  ∀ k, w.stored = some k → ∃ k', w'.stored = some k' ∧ k ≤ k'

theorem NotOlder.of_eq {w w' : World} (h : w'.stored = w.stored) : NotOlder w w' :=
  fun k hk => ⟨k, h.trans hk, le_rfl⟩

/-! ## One step -/

@[simp] theorem synced_state (row run : VerificationRun) (status : Status) :
    (row.synced run status).state = status.state := by
  rw [synced]
  split_ifs <;> rfl

@[simp] theorem synced_paymentStatus (row run : VerificationRun) (status : Status) :
    (row.synced run status).paymentStatus = some status := by
  rw [synced]
  split_ifs <;> rfl

@[simp] theorem commanded_state (row run : VerificationRun) (action : Action) (status : Status)
    (serverDate : Option ℚ) : (commanded row run action status serverDate).state = status.state := by
  rw [commanded]
  split_ifs <;> rfl

@[simp] theorem commanded_paymentStatus (row run : VerificationRun) (action : Action)
    (status : Status) (serverDate : Option ℚ) :
    (commanded row run action status serverDate).paymentStatus = some status := by
  rw [commanded]
  split_ifs <;> rfl

/-- An answer is newer than everything stored. -/
theorem StatusInv.answered {w : World} (h : StatusInv w) {moment : ℕ} {status : Status}
    (ha : w.Answers moment status) : w.Current (moment, status) := by
  refine ⟨ha.2, ?_⟩
  intro k hk
  obtain ⟨_, hhistory, -⟩ := h.stored k hk
  obtain ⟨hlt, -⟩ := List.getElem?_eq_some_iff.1 hhistory
  have hlast := ha.1
  omega

section

variable {w v : World} {i : ℕ} {o : Option Call}

/-- A step that stores no status. -/
theorem StatusInv.put (h : StatusInv w) (hcalls : v.calls = w.calls)
    (hhistory : v.history = w.history) (hstored : v.stored = w.stored)
    (hstatus : v.row.paymentStatus = w.row.paymentStatus) (hstate : v.row.state = w.row.state)
    (hown : ∀ call p, o = some call → call.pending = some p → w.Current p) :
    StatusInv (v.put i o) ∧ NotOlder w (v.put i o) := by
  have hcurrent : ∀ p, w.Current p → (v.put i o).Current p := by
    rintro p ⟨hp, hnewer⟩
    refine ⟨?_, ?_⟩
    · show v.history[p.1]? = some p.2
      rw [hhistory]
      exact hp
    · intro k hk
      exact hnewer k (hstored.symm.trans hk)
  refine ⟨⟨?_, ?_⟩, .of_eq hstored⟩
  · intro j call p hj hp
    refine hcurrent p ?_
    rcases World.put_calls.1 hj with ⟨-, ho⟩ | ⟨-, hj⟩
    · exact hown call p ho hp
    · rw [hcalls] at hj
      exact h.pending j call p hj hp
  · intro k hk
    obtain ⟨status, hp, hpayment, hrow⟩ := h.stored k (hstored.symm.trans hk)
    refine ⟨status, ?_, hstatus.trans hpayment, hstate.trans hrow⟩
    show v.history[k]? = some status
    rw [hhistory]
    exact hp

/-- **A status is stored** in its order. -/
theorem StatusInv.store (h : StatusInv w) {moment : ℕ} {status : Status}
    (hcurrent : w.Current (moment, status))
    (horder : ∀ j call p, j ≠ i → w.calls j = some call → call.pending = some p → moment ≤ p.1)
    (hcalls : v.calls = w.calls) (hhistory : v.history = w.history)
    (hstored : v.stored = some moment) (hstatus : v.row.paymentStatus = some status)
    (hstate : v.row.state = status.state) (hown : ∀ call, o = some call → call.pending = none) :
    StatusInv (v.put i o) ∧ NotOlder w (v.put i o) := by
  refine ⟨⟨?_, ?_⟩, ?_⟩
  · intro j call p hj hp
    rcases World.put_calls.1 hj with ⟨-, ho⟩ | ⟨hji, hj⟩
    · rw [hown call ho] at hp
      cases hp
    · rw [hcalls] at hj
      refine ⟨?_, ?_⟩
      · show v.history[p.1]? = some p.2
        rw [hhistory]
        exact (h.pending j call p hj hp).1
      · intro k hk
        cases hstored.symm.trans hk
        exact horder j call p hji hj hp
  · intro k hk
    cases hstored.symm.trans hk
    refine ⟨status, ?_, hstatus, hstate⟩
    show v.history[moment]? = some status
    rw [hhistory]
    exact hcurrent.1
  · intro k hk
    exact ⟨moment, hstored, hcurrent.2 k hk⟩

end

theorem Task.write_status (task : Task) (row : VerificationRun) (h : task.pending = none) :
    (task.write row).paymentStatus = row.paymentStatus ∧ (task.write row).state = row.state ∧
      task.moment = none := by
  cases task with
  | saveVerification => exact ⟨rfl, rfl, rfl⟩
  | saveStatus => cases h
  | saveReport => exact ⟨rfl, rfl, rfl⟩
  | saveIngest => exact ⟨rfl, rfl, rfl⟩

/-- The steps of a `start` call that store no status. -/
theorem StartStep.status {w w' : World} {c : StartCall} {o : Option Call}
    (h : StartStep w c w' o) (hw : StatusInv w) (hpc : ∀ p, c.pc.pending = some p → w.Current p)
    (hsave : ∀ task, c.pc = .saving task → task.pending = none) :
    w'.stored = w.stored ∧ w'.row.paymentStatus = w.row.paymentStatus ∧
      w'.row.state = w.row.state ∧
      ∀ call p, o = some call → call.pending = some p → w.Current p := by
  have hnone : ∀ {c : StartCall} {pc : StartPc}, pc.pending = none → ∀ call p,
      c.goto pc = some call → call.pending = some p → w.Current p := by
    intro c pc hpending call p h hp
    cases h
    rw [Call.pending, hpending] at hp
    cases hp
  have hafter : ∀ run, (c.afterStatus run).pending = none := by
    intro run
    rw [StartCall.afterStatus]
    split_ifs <;> rfl
  cases h with
  | unready => exact ⟨rfl, rfl, rfl, fun call p h => by cases h⟩
  | ready =>
    refine ⟨rfl, rfl, rfl, hnone ?_⟩
    split_ifs <;> rfl
  | finished =>
    refine ⟨rfl, rfl, rfl, ?_⟩
    intro call p h hp
    split_ifs at h
    cases h
    cases hp
  | claim =>
    refine ⟨rfl, rfl, rfl, ?_⟩
    intro call p h hp
    cases h
    cases hp
  | issue =>
    refine ⟨rfl, rfl, rfl, hnone ?_⟩
    split_ifs <;> rfl
  | @assert task _ hpc' =>
    refine ⟨rfl, rfl, rfl, ?_⟩
    intro call p h hp
    cases h
    exact hpc p (by rw [hpc']; exact hp)
  | @save task hpc' =>
    obtain ⟨hstatus, hstate, hmoment⟩ := task.write_status w.row (hsave task hpc')
    refine ⟨?_, hstatus, hstate, hnone rfl⟩
    rw [World.perform, hmoment]
    rfl
  | unasked => exact ⟨rfl, rfl, rfl, hnone (hafter _)⟩
  | answer _ hanswers =>
    refine ⟨rfl, rfl, rfl, ?_⟩
    intro call p h hp
    cases h
    cases hp
    exact hw.answered hanswers
  | synced => exact ⟨rfl, rfl, rfl, hnone (hafter _)⟩
  | askFinal =>
    refine ⟨rfl, rfl, rfl, hnone ?_⟩
    split_ifs <;> rfl
  | release =>
    split_ifs
    · exact ⟨rfl, rfl, rfl, fun call p h => by cases h⟩
    · exact ⟨rfl, rfl, rfl, fun call p h => by cases h⟩
  | _ => exact ⟨rfl, rfl, rfl, hnone rfl⟩

/-- **A step** never puts an older status in the place of a newer one, in order. -/
theorem statusInv_step {w w' : World} {e : Event} (h : StatusInv w) (hstep : WorldStep w e w')
    (he : InOrder w e) : StatusInv w' ∧ NotOlder w w' := by
  have hother : ∀ {v : World} {i : ℕ} {o : Option Call}, v.calls = w.calls →
      v.history = w.history → v.stored = w.stored →
      v.row.paymentStatus = w.row.paymentStatus → v.row.state = w.row.state →
      (∀ call, o = some call → call.pending = none) →
      StatusInv (v.put i o) ∧ NotOlder w (v.put i o) := by
    intro v i o hcalls hhistory hstored hstatus hstate ho
    refine h.put hcalls hhistory hstored hstatus hstate ?_
    intro call p hcall hp
    rw [ho call hcall] at hp
    cases hp
  cases hstep with
  | @begin i call hi hbegins =>
    refine hother (v := { w with owners := call.owners ++ w.owners }) rfl rfl rfl rfl rfl ?_
    rintro call ⟨⟩
    cases hbegins with
    | start => rfl
    | prepare => rfl
    | sync => rfl
    | command => split_ifs <;> rfl
  | prepare hi hstep =>
    cases hstep with
    | quoted =>
      refine hother rfl rfl rfl rfl rfl ?_
      rintro call ⟨⟩
      rfl
    | save => exact hother rfl rfl rfl rfl rfl fun call h => by cases h
  | @start _ i c o hi hstep =>
    by_cases hsaving : ∃ run final moment status, c.pc = .saving (.saveStatus run final moment status)
    · obtain ⟨run, final, moment, status, hpc⟩ := hsaving
      have hcurrent := h.pending i (.start c) (moment, status) hi (by
        rw [Call.pending, hpc]
        rfl)
      have horder := he i (.start c) moment rfl hi (by
        rw [Call.storing, hpc]
        rfl)
      obtain ⟨rfl, rfl⟩ := hstep.saves hpc
      refine h.store hcurrent horder rfl rfl rfl (synced_paymentStatus ..) (synced_state ..) ?_
      rintro call ⟨⟩
      rfl
    · have hsave : ∀ task, c.pc = .saving task → task.pending = none := by
        intro task hpc
        cases task with
        | saveStatus run final moment status => exact absurd ⟨run, final, moment, status, hpc⟩ hsaving
        | _ => rfl
      obtain ⟨hcalls, -, -, hhistory⟩ := hstep.frame
      obtain ⟨hstored, hstatus, hstate, hown⟩ :=
        hstep.status h (fun p => h.pending i (.start c) p hi) hsave
      exact h.put hcalls hhistory hstored hstatus hstate hown
  | @sync _ i c o hi hstep =>
    cases hstep with
    | answer hanswers =>
      refine h.put rfl rfl rfl rfl rfl ?_
      rintro call p ⟨⟩ ⟨⟩
      exact h.answered hanswers
    | @save run moment status =>
      refine h.store (h.pending i _ (moment, status) hi rfl) (he i _ moment rfl hi rfl) rfl rfl rfl
        (synced_paymentStatus ..) (synced_state ..) fun call h => by cases h
  | @command _ i c o hi hstep =>
    cases hstep with
    | record =>
      refine hother rfl rfl rfl rfl rfl ?_
      rintro call ⟨⟩
      rfl
    | read =>
      refine hother rfl rfl rfl rfl rfl ?_
      rintro call ⟨⟩
      rfl
    | answer hanswers =>
      refine h.put rfl rfl rfl rfl rfl ?_
      rintro call p ⟨⟩ ⟨⟩
      exact h.answered hanswers
    | @save run action moment status serverDate =>
      refine h.store (h.pending i _ (moment, status) hi rfl) (he i _ moment rfl hi rfl) rfl rfl rfl
        (commanded_paymentStatus ..) (commanded_state ..) fun call h => by cases h
  | raise =>
    refine hother rfl rfl rfl rfl rfl ?_
    rintro call ⟨⟩
    rfl
  | @heartbeat i c now hi =>
    refine h.put (v := w.save (w.row.leased c.owner now)) rfl rfl rfl rfl rfl ?_
    rintro call p ⟨⟩ hp
    exact h.pending i (.start c) p hi hp
  | @heartbeatLost i c hi =>
    refine h.put rfl rfl rfl rfl rfl ?_
    rintro call p ⟨⟩ hp
    exact h.pending i (.start c) p hi hp
  | crash => exact hother rfl rfl rfl rfl rfl fun call h => by cases h
  | tick => exact ⟨⟨h.pending, h.stored⟩, .of_eq rfl⟩
  | @server status =>
    have hold : ∀ {k : ℕ} {s : Status}, w.history[k]? = some s →
        (w.history ++ [status])[k]? = some s := by
      intro k s hk
      obtain ⟨hlt, -⟩ := List.getElem?_eq_some_iff.1 hk
      rw [List.getElem?_append_left hlt]
      exact hk
    refine ⟨⟨?_, ?_⟩, .of_eq rfl⟩
    · intro i call p hi hp
      obtain ⟨hhistory, hnewer⟩ := h.pending i call p hi hp
      exact ⟨hold hhistory, hnewer⟩
    · intro k hk
      obtain ⟨s, hhistory, hstatus, hstate⟩ := h.stored k hk
      exact ⟨s, hold hhistory, hstatus, hstate⟩

/-! ## Whole runs -/

/-- The steps of runs in which statuses are stored in their order. -/
def OrderedStep (w : World) (e : Event) (w' : World) : Prop := WorldStep w e w' ∧ InOrder w e

theorem statusInv_start (row : VerificationRun) (clock : ℚ) : StatusInv (.start row clock) :=
  ⟨fun _ _ _ h => (by cases h), fun _ h => (by cases h)⟩

/-- **The stored status** is one of the control plane's, and in a run in which no status
    is stored in front of an older one it never goes back. -/
theorem status_monotone {row : VerificationRun} {clock : ℚ} {es : List Event} {w : World}
    (h : Run OrderedStep (.start row clock) es w) :
    (∀ k, w.stored = some k → ∃ status, w.history[k]? = some status ∧
      w.row.paymentStatus = some status ∧ w.row.state = status.state) ∧
    ∀ es' w', Run OrderedStep w es' w' → NotOlder w w' := by
  have hinv : StatusInv w :=
    h.invariant (fun hinv hstep => (statusInv_step hinv hstep.1 hstep.2).1)
      (statusInv_start row clock)
  refine ⟨hinv.stored, ?_⟩
  intro es' w' h'
  exact h'.relates (fun hinv hstep => statusInv_step hinv hstep.1 hstep.2)
    (fun _ => .of_eq rfl) (fun h₁ h₂ k hk => by
      obtain ⟨k', hk', hle⟩ := h₁ k hk
      obtain ⟨k'', hk'', hle'⟩ := h₂ k' hk'
      exact ⟨k'', hk'', hle.trans hle'⟩) hinv

theorem inOrder_alone {w : World} (hw : ∀ j, w.calls j = none) (i : ℕ) (o : Option Call)
    (e : Event) : InOrder (w.put i o) e := by
  have honly : ∀ {j call}, (w.put i o).calls j = some call → j = i := by
    intro j call hj
    rcases World.put_calls.1 hj with ⟨hji, -⟩ | ⟨-, hj⟩
    · exact hji
    · rw [hw j] at hj
      cases hj
  intro j call moment _ hj _ j' call' p hne hj' _
  exact absurd ((honly hj').trans (honly hj).symm) hne

/-- A refresh stores the first status. -/
theorem status_monotone_first : ∃ w : World, w.stored = some 0 ∧
    (∀ k, w.stored = some k → ∃ status, w.history[k]? = some status ∧
      w.row.paymentStatus = some status ∧ w.row.state = status.state) ∧
    ∀ es' w', Run OrderedStep w es' w' → NotOlder w w' := by
  have hrun : Run OrderedStep (.start { quotedRow with verificationId := some "v" } 0)
      [.server, .begin 0, .step 0, .step 0] _ :=
    .cons ⟨@WorldStep.server _ authorized, fun _ _ _ h => by cases h⟩ <|
    .cons ⟨.begin rfl (.sync rfl), fun _ _ _ h => by cases h⟩ <|
    .cons ⟨.sync rfl (@SyncStep.answer _ _ 0 authorized ⟨rfl, rfl⟩),
      inOrder_alone (fun _ => rfl) 0 _ _⟩ <|
    .cons ⟨.sync rfl .save, by
      rw [World.put_put]
      exact inOrder_alone (fun _ => rfl) 0 _ _⟩ .nil
  exact ⟨_, rfl, status_monotone hrun⟩

/-! ### An answer overtaken by a newer one -/

def cancelled : Status := ⟨.cancelledVoided, false, none, ""⟩

/-- A refresh is answered while the run is authorized, and stalls; another is answered
    when the run has been cancelled, and stores that; then the first stores its own. -/
theorem stalled_refresh_regresses : ∃ es w e w', Run WorldStep (.start quotedRow 0) es w ∧
    WorldStep w e w' ∧ ¬ NotOlder w w' := by
  have hstart : Run WorldStep (.start quotedRow 0)
      [.server, .begin 0, .step 0, .step 0, .step 0, .step 0, .step 0, .step 0, .step 0, .step 0,
        .step 0, .step 0, .step 0, .crash 0] _ :=
    .cons (@WorldStep.server _ authorized) <|
    .cons (.begin rfl (@Begins.start _ "a" rfl List.not_mem_nil)) <|
    .cons ((StartStep.ready rfl).world 0) <|
    .cons ((@StartStep.acknowledge _ _ 0 rfl le_rfl).world 0) <|
    .cons ((@StartStep.poll _ _ 0 rfl le_rfl (Or.inl rfl)).world 0) <|
    .cons ((@StartStep.claim _ _ 0 rfl le_rfl ⟨rfl, Or.inl rfl⟩).world 0) <|
    .cons ((StartStep.hold rfl).world 0) <|
    .cons ((StartStep.issue rfl rfl rfl rfl).world 0) <|
    .cons ((StartStep.claimStart rfl rfl).world 0) <|
    .cons ((StartStep.send rfl).world 0) <|
    .cons ((@StartStep.issued _ _ "v" rfl).world 0) <|
    .cons ((@StartStep.assert _ _ _ 0 rfl le_rfl rfl rfl).world 0) <|
    .cons ((StartStep.save rfl).world 0) <|
    .cons (.crash (i := 0) rfl) .nil
  have hovertaken := hstart.append <|
    .cons (.begin (i := 1) rfl (.sync rfl)) <|
    .cons (.sync (i := 1) rfl (@SyncStep.answer _ _ 0 authorized ⟨rfl, rfl⟩)) <|
    .cons (@WorldStep.server _ cancelled) <|
    .cons (.begin (i := 2) rfl (.sync rfl)) <|
    .cons (.sync (i := 2) rfl (@SyncStep.answer _ _ 1 cancelled ⟨rfl, rfl⟩)) <|
    .cons (.sync (i := 2) rfl .save) .nil
  refine ⟨_, _, .step 1, _, hovertaken, .sync rfl .save, ?_⟩
  intro hkept
  obtain ⟨k, hk, hle⟩ := hkept 1 rfl
  cases hk
  exact absurd hle (by decide)

end Verification

end AimData
