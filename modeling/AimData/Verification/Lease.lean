/-
  The start lease of a verification run: at most one call holds one that has not
  expired, and what the lease protects.

  A call asserts its lease in one transaction and writes in the next, so that the
  lease protects a write only where no other call takes the lease over in between.
-/
import AimData.Verification.Calls

namespace AimData

namespace Verification

open VerificationRun

/-! ## The lease -/

/-- What a call of its own knows of its lease, against the row. -/
structure LeaseInv (w : World) : Prop where
  drawn : ∀ i c, w.calls i = some (.start c) → c.owner ∈ w.owners
  apart : ∀ i j c d, w.calls i = some (.start c) → w.calls j = some (.start d) →
    c.owner = d.owner → i = j
  expires : ∀ i c t, w.calls i = some (.start c) → c.leaseUntil = some t →
    w.row.leaseOwner = some c.owner → w.row.leaseExpires = some t
  live : ∀ i c t, w.calls i = some (.start c) → c.leaseUntil = some t → w.clock < t →
    w.row.leaseOwner = some c.owner

/-- What a step of a `start` call does to the lease. -/
inductive LeaseMove (w : World) (c : StartCall) (row : VerificationRun) (o : Option Call) : Prop
  | keep : row.leaseOwner = w.row.leaseOwner → row.leaseExpires = w.row.leaseExpires →
    (∀ c', o = some (.start c') → c'.owner = c.owner ∧ c'.leaseUntil = c.leaseUntil) →
    LeaseMove w c row o
  | take (now : ℚ) (c' : StartCall) : now ≤ w.clock →
    w.row.leaseOwner = some c.owner ∨ w.row.claimable c.owner now →
    row.leaseOwner = some c.owner → row.leaseExpires = some (now + startLeaseSeconds) →
    o = some (.start c') → c'.owner = c.owner → c'.leaseUntil = some (now + startLeaseSeconds) →
    LeaseMove w c row o
  | release : w.row.leaseOwner = some c.owner → row.leaseOwner = none → o = none →
    LeaseMove w c row o

@[simp] theorem synced_leaseOwner (row run : VerificationRun) (status : Status) :
    (row.synced run status).leaseOwner = row.leaseOwner := by
  rw [synced]
  split_ifs <;> rfl

@[simp] theorem synced_leaseExpires (row run : VerificationRun) (status : Status) :
    (row.synced run status).leaseExpires = row.leaseExpires := by
  rw [synced]
  split_ifs <;> rfl

@[simp] theorem synced_report (row run : VerificationRun) (status : Status) :
    (row.synced run status).report = row.report := by
  rw [synced]
  split_ifs <;> rfl

@[simp] theorem commanded_leaseOwner (row run : VerificationRun) (action : Action)
    (status : Status) (serverDate : Option ℚ) :
    (commanded row run action status serverDate).leaseOwner = row.leaseOwner := by
  rw [commanded]
  split_ifs <;> rfl

@[simp] theorem commanded_leaseExpires (row run : VerificationRun) (action : Action)
    (status : Status) (serverDate : Option ℚ) :
    (commanded row run action status serverDate).leaseExpires = row.leaseExpires := by
  rw [commanded]
  split_ifs <;> rfl

@[simp] theorem commanded_report (row run : VerificationRun) (action : Action)
    (status : Status) (serverDate : Option ℚ) :
    (commanded row run action status serverDate).report = row.report := by
  rw [commanded]
  split_ifs <;> rfl

/-- A task leaves the lease alone. -/
theorem Task.write_lease (task : Task) (row : VerificationRun) :
    (task.write row).leaseOwner = row.leaseOwner ∧
      (task.write row).leaseExpires = row.leaseExpires := by
  cases task with
  | saveVerification => exact ⟨rfl, rfl⟩
  | saveStatus run final moment status => exact ⟨synced_leaseOwner .., synced_leaseExpires ..⟩
  | saveReport => exact ⟨rfl, rfl⟩
  | saveIngest => exact ⟨rfl, rfl⟩

/-- A step of a call leaves the table of the calls and the clock alone. -/
theorem StartStep.frame {w w' : World} {c : StartCall} {o : Option Call}
    (h : StartStep w c w' o) :
    w'.calls = w.calls ∧ w'.clock = w.clock ∧ w'.owners = w.owners ∧ w'.history = w.history := by
  cases h with
  | release =>
    split_ifs
    · exact ⟨rfl, rfl, rfl, rfl⟩
    · exact ⟨rfl, rfl, rfl, rfl⟩
  | _ => exact ⟨rfl, rfl, rfl, rfl⟩

theorem StartCall.goto_start {c c' : StartCall} {pc : StartPc} (h : c.goto pc = some (.start c')) :
    c'.owner = c.owner ∧ c'.leaseUntil = c.leaseUntil := by
  cases h
  exact ⟨rfl, rfl⟩

theorem StartStep.lease {w w' : World} {c : StartCall} {o : Option Call}
    (h : StartStep w c w' o) : LeaseMove w c w'.row o := by
  cases h with
  | unready => exact .keep rfl rfl fun c' h => (by cases h)
  | finished =>
    refine .keep rfl rfl ?_
    intro c' h
    split_ifs at h
    cases h
  | claim _ hnow hclaim => exact .take _ _ hnow (Or.inr hclaim) rfl rfl rfl rfl rfl
  | assert _ hnow _ howner => exact .take _ _ hnow (Or.inl howner) rfl rfl rfl rfl rfl
  | save =>
    obtain ⟨howner, hexpires⟩ := Task.write_lease _ w.row
    exact .keep howner hexpires fun c' h => StartCall.goto_start h
  | issue =>
    refine .keep rfl rfl ?_
    intro c' h
    cases h
    exact ⟨rfl, rfl⟩
  | release =>
    by_cases howner : w.row.leaseOwner = some c.owner
    · rw [if_pos howner]
      exact .release howner rfl rfl
    · rw [if_neg howner]
      exact .keep rfl rfl fun c' h => (by cases h)
  | _ => exact .keep rfl rfl fun c' h => StartCall.goto_start h

/-- What changes neither the lease nor what the calls know of it. -/
theorem LeaseInv.keep {w w' : World} (h : LeaseInv w)
    (howner : w'.row.leaseOwner = w.row.leaseOwner)
    (hexpires : w'.row.leaseExpires = w.row.leaseExpires) (hclock : w.clock ≤ w'.clock)
    (hdrawn : ∀ owner ∈ w.owners, owner ∈ w'.owners)
    (hcalls : ∀ j c', w'.calls j = some (.start c') → ∃ c, w.calls j = some (.start c) ∧
      c'.owner = c.owner ∧ c'.leaseUntil = c.leaseUntil) : LeaseInv w' := by
  refine ⟨?_, ?_, ?_, ?_⟩
  · intro i c' hi
    obtain ⟨c, hc, hown, -⟩ := hcalls i c' hi
    rw [hown]
    exact hdrawn _ (h.drawn i c hc)
  · intro i j c' d' hi hj heq
    obtain ⟨c, hc, hown, -⟩ := hcalls i c' hi
    obtain ⟨d, hd, hown', -⟩ := hcalls j d' hj
    exact h.apart i j c d hc hd (hown.symm.trans (heq.trans hown'))
  · intro i c' t hi ht hlease
    obtain ⟨c, hc, hown, huntil⟩ := hcalls i c' hi
    rw [howner, hown] at hlease
    rw [hexpires]
    exact h.expires i c t hc (huntil ▸ ht) hlease
  · intro i c' t hi ht hlive
    obtain ⟨c, hc, hown, huntil⟩ := hcalls i c' hi
    rw [howner, hown]
    exact h.live i c t hc (huntil ▸ ht) (hclock.trans_lt hlive)

/-- Where the lease can be taken, no other call holds a live one. -/
theorem LeaseInv.dead {w : World} (h : LeaseInv w) {i j : ℕ} {c d : StartCall} {now t : ℚ}
    (hi : w.calls i = some (.start c)) (hj : w.calls j = some (.start d)) (hij : j ≠ i)
    (hnow : now ≤ w.clock)
    (hfree : w.row.leaseOwner = some c.owner ∨ w.row.claimable c.owner now)
    (ht : d.leaseUntil = some t) : t ≤ w.clock := by
  by_contra hlive
  have howner := h.live j d t hj ht (not_le.1 hlive)
  have hexpires := h.expires j d t hj ht howner
  have hother : w.row.leaseOwner ≠ some c.owner := by
    intro howner'
    exact hij (h.apart j i d c hj hi (Option.some.inj (howner.symm.trans howner')))
  rcases hfree with hfree | ⟨-, hfree | hfree | hfree | hfree⟩
  · exact hother hfree
  · rw [howner] at hfree
    cases hfree
  · rw [hexpires] at hfree
    cases hfree
  · rw [hexpires] at hfree
    exact hlive ((of_decide_eq_true hfree).trans hnow)
  · exact hother hfree

/-- **A step of a call** keeps what the calls know of their leases. -/
theorem LeaseInv.move {w v : World} (h : LeaseInv w) {i : ℕ} {c : StartCall} {o : Option Call}
    (hi : w.calls i = some (.start c))
    (hframe : v.calls = w.calls ∧ v.clock = w.clock ∧ v.owners = w.owners)
    (hmove : LeaseMove w c v.row o) : LeaseInv (v.put i o) := by
  obtain ⟨hcalls, hclock, howners⟩ := hframe
  cases hmove with
  | keep howner hexpires hkeep =>
    refine h.keep howner hexpires hclock.ge (fun owner hown => howners ▸ hown) ?_
    intro j c' hj
    rcases World.put_calls.1 hj with ⟨rfl, rfl⟩ | ⟨-, hj⟩
    · exact ⟨c, hi, hkeep c' rfl⟩
    · rw [hcalls] at hj
      exact ⟨c', hj, rfl, rfl⟩
  | take now c' hnow hfree howner hexpires ho hown huntil =>
    subst ho
    have hother : ∀ {j d}, j ≠ i → v.calls j = some (.start d) → d.owner ≠ c.owner := by
      intro j d hji hj heq
      rw [hcalls] at hj
      exact hji (h.apart j i d c hj hi heq)
    refine ⟨?_, ?_, ?_, ?_⟩
    · intro j d hj
      rcases World.put_calls.1 hj with ⟨rfl, hd⟩ | ⟨-, hj⟩
      · cases hd
        show c'.owner ∈ v.owners
        rw [hown, howners]
        exact h.drawn j c hi
      · rw [hcalls] at hj
        show d.owner ∈ v.owners
        rw [howners]
        exact h.drawn j d hj
    · intro j k d e hj hk heq
      rcases World.put_calls.1 hj with ⟨hji, hd⟩ | ⟨hji, hj⟩
      · rcases World.put_calls.1 hk with ⟨hki, -⟩ | ⟨hki, hk⟩
        · exact hji.trans hki.symm
        · cases hd
          exact absurd (heq.symm.trans hown) (hother hki hk)
      · rcases World.put_calls.1 hk with ⟨hki, he⟩ | ⟨-, hk⟩
        · cases he
          exact absurd (heq.trans hown) (hother hji hj)
        · rw [hcalls] at hj hk
          exact h.apart j k d e hj hk heq
    · intro j d t hj ht hlease
      rcases World.put_calls.1 hj with ⟨-, hd⟩ | ⟨hji, hj⟩
      · cases hd
        exact hexpires.trans (huntil.symm.trans ht)
      · exact absurd (Option.some.inj (hlease.symm.trans howner)) (hother hji hj)
    · intro j d t hj ht hlive
      rcases World.put_calls.1 hj with ⟨-, hd⟩ | ⟨hji, hj⟩
      · cases hd
        exact howner.trans (congrArg some hown.symm)
      · rw [hcalls] at hj
        have hdead := h.dead hi hj hji hnow hfree ht
        have hlive' : w.clock < t := hclock ▸ hlive
        exact absurd hlive' (not_lt.2 hdead)
  | release howner hreleased ho =>
    subst ho
    have hold : ∀ j d, (v.put i none).calls j = some (.start d) →
        j ≠ i ∧ w.calls j = some (.start d) := by
      intro j d hj
      rcases World.put_calls.1 hj with ⟨-, hd⟩ | ⟨hji, hj⟩
      · cases hd
      · exact ⟨hji, hcalls ▸ hj⟩
    refine ⟨?_, ?_, ?_, ?_⟩
    · intro j d hj
      show d.owner ∈ v.owners
      rw [howners]
      exact h.drawn j d (hold j d hj).2
    · intro j k d e hj hk heq
      exact h.apart j k d e (hold j d hj).2 (hold k e hk).2 heq
    · intro j d t hj ht hlease
      have hlease' : v.row.leaseOwner = some d.owner := hlease
      rw [hreleased] at hlease'
      cases hlease'
    · intro j d t hj ht hlive
      obtain ⟨hji, hj⟩ := hold j d hj
      have hlive' : w.clock < t := hclock ▸ hlive
      have howner' := h.live j d t hj ht hlive'
      exact absurd (h.apart j i d c hj hi (Option.some.inj (howner'.symm.trans howner))) hji

/-- A step of another call leaves the lease alone. -/
theorem LeaseInv.other {w w' : World} (h : LeaseInv w) {i : ℕ} {o : Option Call}
    (ho : ∀ c, o ≠ some (.start c)) (howner : w'.row.leaseOwner = w.row.leaseOwner)
    (hexpires : w'.row.leaseExpires = w.row.leaseExpires)
    (hframe : w'.calls = w.calls ∧ w'.clock = w.clock ∧ w'.owners = w.owners) :
    LeaseInv (w'.put i o) := by
  obtain ⟨hcalls, hclock, howners⟩ := hframe
  refine h.keep howner hexpires hclock.ge (fun owner hown => howners ▸ hown) ?_
  intro j c hj
  rcases World.put_calls.1 hj with ⟨-, hc⟩ | ⟨-, hj⟩
  · exact absurd hc (ho c)
  · exact ⟨c, hcalls ▸ hj, rfl, rfl⟩

theorem leaseInv_step {w w' : World} {e : Event} (h : LeaseInv w) (hstep : WorldStep w e w') :
    LeaseInv w' := by
  cases hstep with
  | @begin i call hi hbegins =>
    cases hbegins with
    | @start owner hquote hfresh =>
      refine ⟨?_, ?_, ?_, ?_⟩
      · intro j d hj
        rcases World.put_calls.1 hj with ⟨-, hd⟩ | ⟨-, hj⟩
        · cases hd
          exact List.mem_cons_self
        · exact List.mem_cons_of_mem _ (h.drawn j d hj)
      · intro j k d e hj hk heq
        rcases World.put_calls.1 hj with ⟨hji, hd⟩ | ⟨hji, hj⟩
        · rcases World.put_calls.1 hk with ⟨hki, -⟩ | ⟨hki, hk⟩
          · exact hji.trans hki.symm
          · cases hd
            have howner : owner = e.owner := heq
            exact absurd (howner ▸ h.drawn k e hk) hfresh
        · rcases World.put_calls.1 hk with ⟨hki, he⟩ | ⟨-, hk⟩
          · cases he
            have howner : d.owner = owner := heq
            exact absurd (howner ▸ h.drawn j d hj) hfresh
          · exact h.apart j k d e hj hk heq
      · intro j d t hj ht hlease
        rcases World.put_calls.1 hj with ⟨-, hd⟩ | ⟨-, hj⟩
        · cases hd
          cases ht
        · exact h.expires j d t hj ht hlease
      · intro j d t hj ht hlive
        rcases World.put_calls.1 hj with ⟨-, hd⟩ | ⟨-, hj⟩
        · cases hd
          cases ht
        · exact h.live j d t hj ht hlive
    | prepare => exact h.other (fun c h => by cases h) rfl rfl ⟨rfl, rfl, rfl⟩
    | sync => exact h.other (fun c h => by cases h) rfl rfl ⟨rfl, rfl, rfl⟩
    | command => exact h.other (fun c h => by cases h) rfl rfl ⟨rfl, rfl, rfl⟩
  | prepare hi hstep =>
    cases hstep with
    | quoted => exact h.other (fun c h => by cases h) rfl rfl ⟨rfl, rfl, rfl⟩
    | save => exact h.other (fun c h => by cases h) rfl rfl ⟨rfl, rfl, rfl⟩
  | start hi hstep =>
    obtain ⟨hcalls, hclock, howners, -⟩ := hstep.frame
    exact h.move hi ⟨hcalls, hclock, howners⟩ hstep.lease
  | sync hi hstep =>
    cases hstep with
    | answer => exact h.other (fun c h => by cases h) rfl rfl ⟨rfl, rfl, rfl⟩
    | save =>
      exact h.other (fun c h => by cases h) (synced_leaseOwner ..) (synced_leaseExpires ..)
        ⟨rfl, rfl, rfl⟩
  | command hi hstep =>
    cases hstep with
    | record => exact h.other (fun c h => by cases h) rfl rfl ⟨rfl, rfl, rfl⟩
    | read => exact h.other (fun c h => by cases h) rfl rfl ⟨rfl, rfl, rfl⟩
    | answer => exact h.other (fun c h => by cases h) rfl rfl ⟨rfl, rfl, rfl⟩
    | save =>
      exact h.other (fun c h => by cases h) (commanded_leaseOwner ..) (commanded_leaseExpires ..)
        ⟨rfl, rfl, rfl⟩
  | raise hi _ =>
    exact h.move hi ⟨rfl, rfl, rfl⟩ (.keep rfl rfl fun c' h => StartCall.goto_start h)
  | @heartbeat i c now hi _ _ hnow howner =>
    exact h.move (v := w.save (w.row.leased c.owner now)) hi ⟨rfl, rfl, rfl⟩
      (.take now _ hnow (Or.inl howner) rfl rfl rfl rfl rfl)
  | heartbeatLost hi =>
    refine h.move hi ⟨rfl, rfl, rfl⟩ (.keep rfl rfl ?_)
    intro c' h
    cases h
    exact ⟨rfl, rfl⟩
  | crash => exact h.other (fun c h => by cases h) rfl rfl ⟨rfl, rfl, rfl⟩
  | tick hclock => exact h.keep rfl rfl hclock (fun _ h => h) fun j c hj => ⟨c, hj, rfl, rfl⟩
  | server => exact h.keep rfl rfl le_rfl (fun _ h => h) fun j c hj => ⟨c, hj, rfl, rfl⟩

/-- At most one call holds a lease that has not expired. -/
def LeaseExclusive (w : World) : Prop :=
  ∀ i j c d t t', w.calls i = some (.start c) → w.calls j = some (.start d) →
    c.leaseUntil = some t → d.leaseUntil = some t' → w.clock < t → w.clock < t' → i = j

theorem LeaseInv.exclusive {w : World} (h : LeaseInv w) : LeaseExclusive w := by
  intro i j c d t t' hi hj ht ht' hlive hlive'
  have howner := h.live i c t hi ht hlive
  have howner' := h.live j d t' hj ht' hlive'
  exact h.apart i j c d hi hj (Option.some.inj (howner.symm.trans howner'))

theorem leaseInv_start (row : VerificationRun) (clock : ℚ) : LeaseInv (.start row clock) :=
  ⟨fun _ _ h => (by cases h), fun _ _ _ _ h => (by cases h), fun _ _ _ h => (by cases h),
    fun _ _ _ h => (by cases h)⟩

/-! ## The report -/

/-- What is written before the report is. -/
def Task.early : Task → Bool
  | .saveVerification _ => true
  | .saveStatus _ final _ _ => !final
  | _ => false

def Task.isReport : Task → Bool
  | .saveReport _ _ => true
  | _ => false

/-- The call found no report in the row and has not stored its own. -/
def StartPc.beforeReport : StartPc → Bool
  | .claimingStart _ | .issuing _ | .issued | .claimingScan | .scanning => true
  | .asserting task | .saving task => task.early || task.isReport
  | .saved task => task.early
  | .syncing _ final => !final
  | _ => false

/-- What a call knows of the report: the one that it submits is stored; and while the
    lease is its own, it stays as the call has read it. -/
def Fits (row : VerificationRun) (owner : String) : StartPc → Prop
  | .holding run => (row.leaseOwner = some owner → row.report = run.report) ∧
      ∀ report, run.report = some report → row.report = some report
  | .submitting report => row.report = some report
  | pc => pc.beforeReport = true → row.leaseOwner = some owner → row.report = none

theorem Fits.of_row {row row' : VerificationRun} {owner : String} {pc : StartPc}
    (h : Fits row owner pc) (hreport : row'.report = row.report)
    (howner : row'.leaseOwner = some owner → row.leaseOwner = some owner) :
    Fits row' owner pc := by
  cases pc with
  | holding run =>
    refine ⟨?_, ?_⟩
    · intro hown
      exact hreport.trans (h.1 (howner hown))
    · intro report hrun
      exact hreport.trans (h.2 report hrun)
  | submitting report => exact hreport.trans h
  | _ => exact fun hbefore hown => hreport.trans (h hbefore (howner hown))

structure ReportInv (w : World) : Prop where
  fits : ∀ i c, w.calls i = some (.start c) → Fits w.row c.owner c.pc
  sent : ∀ report ∈ w.reports, w.row.report = some report

/-- No call takes the lease over between the assertion of a call and the report that it
    saves: the lease is still its own. -/
def OwnedSave (w : World) (e : Event) : Prop :=
  ∀ i c report d8, e = .step i → w.calls i = some (.start c) →
    c.pc = .saving (.saveReport report d8) → w.row.leaseOwner = some c.owner

/-- Only the task for it writes the report. -/
theorem Task.write_report (task : Task) (row : VerificationRun) (h : task.isReport = false) :
    (task.write row).report = row.report := by
  cases task with
  | saveVerification => rfl
  | saveStatus => exact synced_report ..
  | saveReport => cases h
  | saveIngest => rfl

theorem fits_afterStatus {row run : VerificationRun} {c : StartCall}
    (h : row.leaseOwner = some c.owner → row.report = none) :
    Fits row c.owner (c.afterStatus run) := by
  rw [StartCall.afterStatus]
  split_ifs
  · exact fun hbefore => by cases hbefore
  · exact fun _ => h
  · exact fun _ => h

/-- A step that saves no report keeps what its call knows. -/
theorem StartStep.fits {w w' : World} {c : StartCall} {o : Option Call}
    (h : StartStep w c w' o) (hfits : Fits w.row c.owner c.pc)
    (hsent : ∀ report ∈ w.reports, w.row.report = some report)
    (hsave : ∀ report d8, c.pc ≠ .saving (.saveReport report d8)) :
    w'.row.report = w.row.report ∧ (∀ report ∈ w'.reports, w.row.report = some report) ∧
      ∀ c', o = some (.start c') → Fits w'.row c'.owner c'.pc := by
  have hquiet : ∀ {row : VerificationRun} {c c' : StartCall} {pc : StartPc},
      Fits row c.owner pc → c.goto pc = some (.start c') → Fits row c'.owner c'.pc := by
    intro row c c' pc hpc h
    cases h
    exact hpc
  cases h with
  | unready => exact ⟨rfl, hsent, fun c' h => by cases h⟩
  | ready hpc =>
    refine ⟨rfl, hsent, fun c' => hquiet ?_⟩
    split_ifs
    · exact fun h => by cases h
    · exact fun h => by cases h
  | acknowledge hpc => exact ⟨rfl, hsent, fun c' => hquiet fun h => by cases h⟩
  | finished hpc =>
    refine ⟨rfl, hsent, ?_⟩
    intro c' h
    split_ifs at h
    cases h
  | poll hpc => exact ⟨rfl, hsent, fun c' => hquiet fun h => by cases h⟩
  | claim hpc =>
    refine ⟨rfl, hsent, ?_⟩
    intro c' h
    cases h
    exact fun h => by cases h
  | busy hpc => exact ⟨rfl, hsent, fun c' => hquiet fun h => by cases h⟩
  | hold hpc => exact ⟨rfl, hsent, fun c' => hquiet ⟨fun _ => rfl, fun _ => id⟩⟩
  | ingested hpc => exact ⟨rfl, hsent, fun c' => hquiet fun h => by cases h⟩
  | resume hpc hingest hreport =>
    rw [hpc] at hfits
    exact ⟨rfl, hsent, fun c' => hquiet (hfits.2 _ hreport)⟩
  | unaccepted hpc => exact ⟨rfl, hsent, fun c' => hquiet fun h => by cases h⟩
  | issue hpc hingest hreport =>
    rw [hpc] at hfits
    refine ⟨rfl, hsent, fun c' => hquiet ?_⟩
    split_ifs
    · exact fun _ howner => (hfits.1 howner).trans hreport
    · exact fun _ howner => (hfits.1 howner).trans hreport
  | claimStart hpc =>
    rw [hpc] at hfits
    exact ⟨rfl, hsent, fun c' => hquiet fun _ => hfits rfl⟩
  | startLost hpc => exact ⟨rfl, hsent, fun c' => hquiet fun h => by cases h⟩
  | send hpc =>
    rw [hpc] at hfits
    exact ⟨rfl, hsent, fun c' => hquiet fun _ => hfits rfl⟩
  | issued hpc =>
    rw [hpc] at hfits
    exact ⟨rfl, hsent, fun c' => hquiet fun _ => hfits rfl⟩
  | assert hpc hnow hlost howner =>
    rw [hpc] at hfits
    refine ⟨rfl, hsent, ?_⟩
    intro c' h
    cases h
    exact fun hbefore _ => hfits hbefore howner
  | assertLost hpc => exact ⟨rfl, hsent, fun c' => hquiet fun h => by cases h⟩
  | @save task hpc =>
    rw [hpc] at hfits
    have htask : task.isReport = false := by
      cases task with
      | saveReport report d8 => exact absurd hpc (hsave report d8)
      | _ => rfl
    have hwrite := task.write_report w.row htask
    refine ⟨hwrite, hsent, fun c' => hquiet ?_⟩
    intro hbefore howner
    rw [World.perform, (task.write_lease w.row).1] at howner
    refine hwrite.trans (hfits ?_ howner)
    show (task.early || task.isReport) = true
    rw [show task.early = true from hbefore, Bool.true_or]
  | ask hpc =>
    rw [hpc] at hfits
    exact ⟨rfl, hsent, fun c' => hquiet fun _ => hfits rfl⟩
  | unasked hpc =>
    rw [hpc] at hfits
    exact ⟨rfl, hsent, fun c' => hquiet (fits_afterStatus (hfits rfl))⟩
  | answer hpc =>
    rw [hpc] at hfits
    refine ⟨rfl, hsent, fun c' => hquiet ?_⟩
    intro hbefore
    refine hfits ?_
    simpa [StartPc.beforeReport, Task.early, Task.isReport] using hbefore
  | synced hpc =>
    rw [hpc] at hfits
    exact ⟨rfl, hsent, fun c' => hquiet (fits_afterStatus (hfits rfl))⟩
  | done hpc => exact ⟨rfl, hsent, fun c' => hquiet fun h => by cases h⟩
  | claimScan hpc =>
    rw [hpc] at hfits
    exact ⟨rfl, hsent, fun c' => hquiet fun _ => hfits rfl⟩
  | scanLost hpc => exact ⟨rfl, hsent, fun c' => hquiet fun h => by cases h⟩
  | scanned hpc =>
    rw [hpc] at hfits
    exact ⟨rfl, hsent, fun c' => hquiet fun _ => hfits rfl⟩
  | reported hpc hreport => exact ⟨rfl, hsent, fun c' => hquiet hreport⟩
  | unreported hpc => exact ⟨rfl, hsent, fun c' => hquiet fun h => by cases h⟩
  | submit hpc =>
    rw [hpc] at hfits
    refine ⟨rfl, ?_, fun c' => hquiet fun h => by cases h⟩
    intro report hmem
    rcases List.mem_append.1 hmem with hmem | hmem
    · exact hsent report hmem
    · rw [List.mem_singleton.1 hmem]
      exact hfits
  | submitted hpc => exact ⟨rfl, hsent, fun c' => hquiet fun h => by cases h⟩
  | askFinal hpc =>
    refine ⟨rfl, hsent, fun c' => hquiet ?_⟩
    split_ifs
    · exact fun h => by cases h
    · exact fun h => by cases h
  | release hpc =>
    split_ifs
    · exact ⟨rfl, hsent, fun c' h => by cases h⟩
    · exact ⟨rfl, hsent, fun c' h => by cases h⟩

/-- In front of a write, a call does nothing else. -/
theorem StartStep.saves {w w' : World} {c : StartCall} {o : Option Call} {task : Task}
    (h : StartStep w c w' o) (hpc : c.pc = .saving task) :
    w' = w.perform task ∧ o = c.goto (.saved task) := by
  cases h with
  | save hpc' =>
    rw [hpc] at hpc'
    cases hpc'
    exact ⟨rfl, rfl⟩
  | _ => simp_all

/-- A step of one call gives the lease to no other. -/
theorem LeaseMove.others {w : World} {row : VerificationRun} {i j : ℕ} {c d : StartCall}
    {o : Option Call} (hlease : LeaseInv w) (hi : w.calls i = some (.start c))
    (hj : w.calls j = some (.start d)) (hij : j ≠ i) (hmove : LeaseMove w c row o)
    (howner : row.leaseOwner = some d.owner) : w.row.leaseOwner = some d.owner := by
  cases hmove with
  | keep hkeep => exact hkeep ▸ howner
  | take now c' _ _ htake =>
    exact absurd (hlease.apart j i d c hj hi (Option.some.inj (howner.symm.trans htake))) hij
  | release _ hreleased =>
    rw [hreleased] at howner
    cases howner

/-- A step that leaves the report alone. -/
theorem ReportInv.put {w v : World} (h : ReportInv w) {i : ℕ}
    {o : Option Call} (hcalls : v.calls = w.calls) (hreport : v.row.report = w.row.report)
    (hsent : ∀ report ∈ v.reports, w.row.report = some report)
    (hown : ∀ c, o = some (.start c) → Fits v.row c.owner c.pc)
    (hothers : ∀ j d, w.calls j = some (.start d) → j ≠ i → v.row.leaseOwner = some d.owner →
      w.row.leaseOwner = some d.owner) : ReportInv (v.put i o) := by
  refine ⟨?_, ?_⟩
  · intro j d hj
    rcases World.put_calls.1 hj with ⟨-, hd⟩ | ⟨hij, hj⟩
    · exact hown d hd
    · rw [hcalls] at hj
      exact (h.fits j d hj).of_row hreport (hothers j d hj hij)
  · intro report hmem
    exact hreport.trans (hsent report hmem)

/-- A step that leaves the lease and the report alone. -/
theorem ReportInv.other {w w' : World} (h : ReportInv w) {i : ℕ}
    {o : Option Call} (ho : ∀ c, o ≠ some (.start c)) (hcalls : w'.calls = w.calls)
    (howner : w'.row.leaseOwner = w.row.leaseOwner) (hreport : w'.row.report = w.row.report)
    (hreports : w'.reports = w.reports) :
    ReportInv (w'.put i o) ∧ (w'.put i o).row.report = w.row.report := by
  refine ⟨?_, hreport⟩
  exact h.put hcalls hreport (hreports ▸ h.sent) (fun c hc => absurd hc (ho c))
    fun _ _ _ _ hown => howner ▸ hown

/-- A report that is stored stays as it is. -/
def ReportKept (w w' : World) : Prop :=
  ∀ report, w.row.report = some report → w'.row.report = some report

/-- **A step** keeps a stored report, if no lease is taken over in front of it. -/
theorem reportInv_step {w w' : World} {e : Event} (hlease : LeaseInv w) (h : ReportInv w)
    (hstep : WorldStep w e w') (he : OwnedSave w e) :
    ReportInv w' ∧ ReportKept w w' := by
  have hkept : ∀ {w' : World}, ReportInv w' ∧ w'.row.report = w.row.report →
      ReportInv w' ∧ ReportKept w w' :=
    fun h => ⟨h.1, fun _ hreport => h.2.trans hreport⟩
  cases hstep with
  | @begin i call hi hbegins =>
    refine hkept ⟨h.put (v := { w with owners := call.owners ++ w.owners }) rfl rfl h.sent
      ?_ (fun _ _ _ _ hown => hown), rfl⟩
    intro c hc
    cases hbegins with
    | start =>
      cases hc
      exact fun hbefore => by cases hbefore
    | prepare => cases hc
    | sync => cases hc
    | command => cases hc
  | prepare hi hstep =>
    cases hstep with
    | quoted => exact hkept (h.other (fun c h => by cases h) rfl rfl rfl rfl)
    | save => exact hkept (h.other (fun c h => by cases h) rfl rfl rfl rfl)
  | @start _ i c o hi hstep =>
    have hframe := hstep.frame
    by_cases hpc : ∃ report d8, c.pc = .saving (.saveReport report d8)
    · obtain ⟨report, d8, hpc⟩ := hpc
      have howner := he i c report d8 rfl hi hpc
      obtain ⟨rfl, rfl⟩ := hstep.saves hpc
      have hnone : w.row.report = none := by
        have hfits := h.fits i c hi
        rw [hpc] at hfits
        exact hfits rfl howner
      refine ⟨⟨?_, ?_⟩, ?_⟩
      · intro j d hj
        rcases World.put_calls.1 hj with ⟨-, hd⟩ | ⟨hij, hj⟩
        · cases hd
          exact fun hbefore => by cases hbefore
        · have hfits := h.fits j d hj
          have hother : w.row.leaseOwner ≠ some d.owner := by
            intro howner'
            exact hij (hlease.apart j i d c hj hi (Option.some.inj (howner'.symm.trans howner)))
          cases hd : d.pc with
          | holding run =>
            rw [hd] at hfits
            refine ⟨fun hown => absurd hown hother, ?_⟩
            intro report' hrun
            have hread := hfits.2 report' hrun
            rw [hnone] at hread
            cases hread
          | submitting report' =>
            rw [hd] at hfits
            rw [show w.row.report = some report' from hfits] at hnone
            cases hnone
          | _ => exact fun _ hown => absurd hown hother
      · intro report' hmem
        have hreport := h.sent report' hmem
        rw [hnone] at hreport
        cases hreport
      · intro report' hreport
        rw [hnone] at hreport
        cases hreport
    · have hsave : ∀ report d8, c.pc ≠ .saving (.saveReport report d8) :=
        fun report d8 heq => hpc ⟨report, d8, heq⟩
      obtain ⟨hreport, hsent, hown⟩ := hstep.fits (h.fits i c hi) h.sent hsave
      exact hkept ⟨h.put hframe.1 hreport hsent hown fun j d hj hij =>
        hstep.lease.others hlease hi hj hij, hreport⟩
  | sync hi hstep =>
    cases hstep with
    | answer => exact hkept (h.other (fun c h => by cases h) rfl rfl rfl rfl)
    | save =>
      exact hkept (h.other (fun c h => by cases h) rfl (synced_leaseOwner ..)
        (synced_report ..) rfl)
  | command hi hstep =>
    cases hstep with
    | record => exact hkept (h.other (fun c h => by cases h) rfl rfl rfl rfl)
    | read => exact hkept (h.other (fun c h => by cases h) rfl rfl rfl rfl)
    | answer => exact hkept (h.other (fun c h => by cases h) rfl rfl rfl rfl)
    | save =>
      exact hkept (h.other (fun c h => by cases h) rfl (commanded_leaseOwner ..)
        (commanded_report ..) rfl)
  | raise hi _ =>
    refine hkept ⟨h.put rfl rfl h.sent ?_ (fun _ _ _ _ hown => hown), rfl⟩
    intro c hc
    cases hc
    exact fun hbefore => by cases hbefore
  | @heartbeat i c now hi _ _ hnow howner =>
    have hmove : LeaseMove w c (w.row.leased c.owner now) (c.renewed now c.pc) :=
      .take now _ hnow (Or.inl howner) rfl rfl rfl rfl rfl
    refine hkept ⟨h.put (v := w.save (w.row.leased c.owner now)) rfl rfl h.sent ?_
      (fun j d hj hij => hmove.others hlease hi hj hij), rfl⟩
    intro c' hc'
    cases hc'
    exact (h.fits i c hi).of_row rfl fun _ => howner
  | @heartbeatLost i c hi =>
    refine hkept ⟨h.put rfl rfl h.sent ?_ (fun _ _ _ _ hown => hown), rfl⟩
    intro c' hc'
    cases hc'
    exact h.fits i c hi
  | crash => exact hkept (h.other (fun c h => by cases h) rfl rfl rfl rfl)
  | tick => exact hkept ⟨⟨h.fits, h.sent⟩, rfl⟩
  | server => exact hkept ⟨⟨h.fits, h.sent⟩, rfl⟩

/-! ## Whole runs -/

theorem reportInv_start (row : VerificationRun) (clock : ℚ) : ReportInv (.start row clock) :=
  ⟨fun _ _ h => (by cases h), fun _ h => absurd h List.not_mem_nil⟩

/-- The steps of runs in which a lease is not taken over in front of a report. -/
def OwnedStep (w : World) (e : Event) (w' : World) : Prop := WorldStep w e w' ∧ OwnedSave w e

/-- What holds in every state of such a run. -/
def Protected (w : World) : Prop := LeaseInv w ∧ ReportInv w

theorem ownedStep_inv {w w' : World} {e : Event} (h : Protected w) (hstep : OwnedStep w e w') :
    Protected w' ∧ ReportKept w w' := by
  obtain ⟨hreport, hkept⟩ := reportInv_step h.1 h.2 hstep.1 hstep.2
  exact ⟨⟨leaseInv_step h.1 hstep.1, hreport⟩, hkept⟩

/-- **The lease** is exclusive in every run; and where it is not taken over between an
    assertion and the report that is then saved, a stored report stays, and no two
    different reports are submitted. -/
theorem lease_protects (row : VerificationRun) (clock : ℚ) :
    (∀ es w, Run WorldStep (.start row clock) es w → LeaseExclusive w) ∧
    ∀ es w, Run OwnedStep (.start row clock) es w →
      (∀ es' w', Run OwnedStep w es' w' → ReportKept w w') ∧
      ∀ report ∈ w.reports, ∀ report' ∈ w.reports, report = report' := by
  constructor
  · intro es w h
    have hinv : LeaseInv w := h.invariant leaseInv_step (leaseInv_start row clock)
    exact hinv.exclusive
  · intro es w h
    have hinv : Protected w :=
      h.invariant (fun hinv hstep => (ownedStep_inv hinv hstep).1)
        ⟨leaseInv_start row clock, reportInv_start row clock⟩
    constructor
    · intro es' w' h'
      exact h'.relates ownedStep_inv (fun _ _ => id)
        (fun h₁ h₂ report hreport => h₂ report (h₁ report hreport)) hinv
    · intro report hmem report' hmem'
      exact Option.some.inj ((hinv.2.sent report hmem).symm.trans (hinv.2.sent report' hmem'))

/-! ### A lease taken over in front of a report -/

def quotedRow : VerificationRun :=
  inserted "listing" "source" "idem" "auth" "d6" "probe" false
    ⟨"quote", "complete_standard_v1", "25.00"⟩

def authorized : Status := ⟨.authorized, false, none, ""⟩

/-- The first call has asserted its lease and is about to save its report; the lease
    expires, and a second call takes it over and saves its own. -/
theorem takeover_replaces : ∃ es w e w', Run WorldStep (.start quotedRow 0) es w ∧
    WorldStep w e w' ∧ ¬ ReportKept w w' := by
  have hfirst : Run WorldStep (.start quotedRow 0)
      [.server, .begin 0, .step 0, .step 0, .step 0, .step 0, .step 0, .step 0, .step 0, .step 0,
        .step 0, .step 0, .step 0, .step 0] _ :=
    .cons (@WorldStep.server _ authorized) <|
    .cons (.begin rfl (@Begins.start _ "a" rfl List.not_mem_nil)) <|
    .cons ((StartStep.ready rfl).world 0) <|
    .cons ((@StartStep.acknowledge _ _ 0 rfl le_rfl).world 0) <|
    .cons ((@StartStep.poll _ _ 0 rfl le_rfl (Or.inl rfl)).world 0) <|
    .cons ((@StartStep.claim _ _ 0 rfl le_rfl ⟨rfl, Or.inl rfl⟩).world 0) <|
    .cons ((StartStep.hold rfl).world 0) <|
    .cons ((StartStep.issue rfl rfl rfl rfl).world 0) <|
    .cons ((StartStep.claimStart rfl rfl).world 0) <|
    .cons ((StartStep.send rfl).world 0) <|
    .cons ((@StartStep.issued _ _ "v" rfl).world 0) <|
    .cons ((@StartStep.assert _ _ _ 0 rfl le_rfl rfl rfl).world 0) <|
    .cons ((StartStep.save rfl).world 0) <|
    .cons ((StartStep.ask rfl (by decide)).world 0) .nil
  have hassert := hfirst.append <|
    .cons ((@StartStep.answer _ _ _ _ 0 authorized rfl ⟨rfl, rfl⟩).world 0) <|
    .cons ((@StartStep.assert _ _ _ 0 rfl le_rfl rfl rfl).world 0) <|
    .cons ((StartStep.save rfl).world 0) <|
    .cons ((StartStep.synced rfl).world 0) <|
    .cons ((StartStep.claimScan rfl rfl).world 0) <|
    .cons ((@StartStep.scanned _ _ "first" none rfl).world 0) <|
    .cons ((@StartStep.assert _ _ _ 0 rfl le_rfl rfl rfl).world 0) <|
    .cons (@WorldStep.tick _ 31 (show (0 : ℚ) ≤ 31 by norm_num)) .nil
  have hsecond := hassert.append <|
    .cons (.begin (i := 1) rfl (@Begins.start _ "b" rfl (by decide))) <|
    .cons ((StartStep.ready rfl).world 1) <|
    .cons ((@StartStep.poll _ _ 31 rfl le_rfl (Or.inl rfl)).world 1) <|
    .cons ((@StartStep.claim _ _ 31 rfl le_rfl
      ⟨rfl, Or.inr (Or.inr (Or.inl (by decide +kernel)))⟩).world 1) <|
    .cons ((StartStep.hold rfl).world 1) <|
    .cons ((StartStep.issue rfl rfl rfl rfl).world 1) <|
    .cons ((StartStep.send rfl).world 1) <|
    .cons ((@StartStep.issued _ _ "v" rfl).world 1) <|
    .cons ((@StartStep.assert _ _ _ 31 rfl le_rfl rfl rfl).world 1) <|
    .cons ((StartStep.save rfl).world 1) <|
    .cons ((StartStep.ask rfl (by decide)).world 1) <|
    .cons ((@StartStep.answer _ _ _ _ 0 authorized rfl ⟨rfl, rfl⟩).world 1) <|
    .cons ((@StartStep.assert _ _ _ 31 rfl le_rfl rfl rfl).world 1) <|
    .cons ((StartStep.save rfl).world 1) <|
    .cons ((StartStep.synced rfl).world 1) <|
    .cons ((@StartStep.scanned _ _ "second" none rfl).world 1) <|
    .cons ((@StartStep.assert _ _ _ 31 rfl le_rfl rfl rfl).world 1) <|
    .cons ((StartStep.save rfl).world 1) .nil
  refine ⟨_, _, .step 0, _, hsecond, .start rfl (.save rfl), ?_⟩
  intro hkept
  have hreport : some "first" = some "second" := hkept "second" rfl
  exact absurd hreport (by decide)

end Verification

end AimData
