/-
  What a preview build job keeps over every sequence of the seller's actions.

  One chain of rules carries two properties, each behind the condition under
  which it holds: that `submit` sends approvals only (`A`), and that one
  withdrawal is frozen and sent (`W`).
-/
import AimData.Lib.Run
import AimData.Preview.FrozenRequest

namespace AimData

namespace PreviewBuild

open Contract Lifecycle Program

/-! ## Rules for the primitives -/

section
variable {P : World → Prop} {α : Type}

theorem triple_lift {x : Except Raised α} : Triple P (lift x) (fun a w => x = .ok a ∧ P w) P :=
  triple_ofExcept (fun _ _ hx hw => ⟨hx, hw⟩) fun _ hw => hw

/-- A computation that may raise before the rest. -/
theorem triple_lift_bind {β : Type} {x : Except Raised α} {f : α → Build β} {Q : β → World → Prop}
    {E : World → Prop} (hE : ∀ w, P w → E w) (hf : ∀ a, x = .ok a → Triple P (f a) Q E) :
    Triple P (lift x >>= f) Q E := by
  cases x with
  | error e => exact fun w hw => hE w hw
  | ok a => exact hf a rfl

theorem triple_refuse {x : Except Raised α} {Q : α → World → Prop} (hx : ∀ a, x ≠ .ok a) :
    Triple P (lift x) Q P :=
  triple_ofExcept (fun _ a ha _ => absurd ha (hx a)) fun _ hw => hw

/-- What does not look at the faults to come. -/
def Faultless (P : World → Prop) : Prop :=
  ∀ ⦃w : World⦄ (fs : List (Option Raised)), P w → P { w with faults := fs }

theorem triple_nextFault (hP : Faultless P) : Triple P nextFault (fun _ => P) P :=
  fun _ hw => hP _ hw

theorem triple_database (hP : Faultless P) : Triple P database (fun _ => P) P := by
  refine (triple_nextFault hP).bind fun fault => ?_
  cases fault with
  | none => exact triple_pure fun _ hw => hw
  | some e => exact triple_throw fun _ hw => hw

theorem triple_save (hP : Faultless P) {Q : World → Prop} {job : Job}
    (h : ∀ {w : World}, P w → Q { w with job := job }) : Triple P (save job) (fun _ => Q) P :=
  (triple_database hP).bind fun _ => triple_modify fun _ hw => h hw

/-- A transaction that keeps the rows of the journal. -/
theorem triple_onJournal (hfaults : Faultless P)
    (hkeeps : ∀ {w : World} {j : Journal}, Kept w.journal j → P w → P { w with journal := j }) {Q : α → World → Prop}
    {op : Option Raised → Journal → Except Raised α × Journal}
    (hop : ∀ fault j, Kept j (op fault j).2)
    (h : ∀ {w : World} {fault : Option Raised} {a : α} {j : Journal}, P w →
      op fault w.journal = (.ok a, j) → P { w with journal := j } → Q a { w with journal := j }) :
    Triple P (onJournal op) Q P := by
  refine (triple_nextFault hfaults).bind fun fault => ?_
  intro w hw
  have hkept : P { w with journal := (op fault w.journal).2 } := hkeeps (hop fault w.journal) hw
  have hexec : exec (do
      let w ← world
      set { w with journal := (op fault w.journal).2 }
      lift (op fault w.journal).1) w =
      ((op fault w.journal).1, { w with journal := (op fault w.journal).2 }) := rfl
  rw [hexec]
  cases hrun : op fault w.journal with
  | mk r j =>
    rw [hrun] at hkept
    cases r with
    | ok a => exact h hw hrun hkept
    | error e => exact hkept

end

/-! ## Loading -/

/-- A loaded job is the saved one, but for what loading expires. -/
structure Reloaded (live : Worker) (job job' : Job) : Prop where
  candidate : job'.candidate = job.candidate
  journalKey : job'.journalKey = job.journalKey
  publicationJournalKey : job'.publicationJournalKey = job.publicationJournalKey
  state : job'.state = job.state ∨
    (job'.state = .expired ∧ (live = .running ∨ job.state ∈ reviewStates))

/-- What a load leaves. -/
structure Loads (w w' : World) : Prop where
  journal : w'.journal = w.journal
  trace : w'.trace = w.trace
  live : w'.live = w.live ∨ w'.live = .cancelled
  job : Reloaded w.live w.job w'.job

theorem faultless_loads (w : World) : Faultless (Loads w) :=
  fun _ _ h => ⟨h.journal, h.trace, h.live, h.job⟩

theorem compatible_fields (job : Job) : job.compatible.candidate = job.candidate ∧
    job.compatible.journalKey = job.journalKey ∧
    job.compatible.publicationJournalKey = job.publicationJournalKey ∧
    job.compatible.state = job.state := by
  rw [Job.compatible]
  split_ifs <;> exact ⟨rfl, rfl, rfl, rfl⟩

/-- A load before it interacts. -/
structure Upgraded (w : World) (current : Job) (w' : World) : Prop where
  loads : Loads w w'
  job : w'.job = current
  live : w'.live = w.live
  state : current.state = w.job.state

theorem triple_upgrade {w : World} {job : Job} :
    Triple (Upgraded w job) (upgrade job) (Upgraded w) (Loads w) := by
  refine triple_ite (fun _ => ?_) fun _ => triple_pure fun _ h => h
  obtain ⟨hcandidate, hkey, hpublication, hstate⟩ := compatible_fields job
  refine Triple.bind (R := fun _ => Upgraded w job.compatible) ?_
    fun _ => triple_pure fun _ h => h
  refine (triple_save (fun w' fs h => ⟨faultless_loads w fs h.loads, h.job, h.live, h.state⟩)
    (Q := Upgraded w job.compatible) ?_).imp (fun _ h => h) (fun _ _ h => h) fun _ h => h.loads
  intro w' h
  refine ⟨⟨h.loads.journal, h.loads.trace, h.loads.live, ?_⟩, rfl, h.live, hstate.trans h.state⟩
  have hjob := h.loads.job
  rw [h.job] at hjob
  exact ⟨hcandidate.trans hjob.candidate, hkey.trans hjob.journalKey,
    hpublication.trans hjob.publicationJournalKey, Or.inl (hstate.trans h.state)⟩

theorem triple_expire {w : World} {job : Job}
    (hexpires : w.live = .running ∨ w.job.state ∈ reviewStates) :
    Triple (Upgraded w job) (expire job) (fun job' w' => Loads w w' ∧ w'.job = job') (Loads w) := by
  refine Triple.bind (R := fun _ w' => Loads w w' ∧ w'.job = { job with state := .expired }) ?_
    fun _ => triple_pure fun _ h => h
  refine (triple_save (fun w' fs h => ⟨faultless_loads w fs h.loads, h.job, h.live, h.state⟩)
    ?_).imp (fun _ h => h) (fun _ _ h => h) fun _ h => h.loads
  intro w' h
  have hjob := h.loads.job
  rw [h.job] at hjob
  exact ⟨⟨h.loads.journal, h.loads.trace, h.loads.live, hjob.candidate, hjob.journalKey,
    hjob.publicationJournalKey, Or.inr ⟨rfl, hexpires⟩⟩, rfl⟩

theorem triple_interact {w : World} {c : LoadCall} {job : Job} :
    Triple (Upgraded w job) (interact c w.live job) (fun job' w' => Loads w w' ∧ w'.job = job')
      (Loads w) := by
  have hdone : ∀ w', Upgraded w job w' → Loads w w' ∧ w'.job = job :=
    fun w' h => ⟨h.loads, h.job⟩
  refine triple_ite (fun hrunning => ?_) fun _ => ?_
  · refine triple_ite (fun _ => ?_) fun _ => triple_pure hdone
    refine (triple_expire (Or.inl hrunning)).bind fun job' => ?_
    refine Triple.bind (R := fun _ w' => Loads w w' ∧ w'.job = job') ?_
      fun _ => triple_pure fun _ h => h
    refine triple_modify ?_
    rintro w' ⟨h, hjob⟩
    refine ⟨⟨h.journal, h.trace, ?_, h.job⟩, hjob⟩
    by_cases hnone : w'.live = .none
    · rw [if_pos hnone]
      rcases h.live with hl | hl
      · exact Or.inl (hnone.symm.trans hl)
      · rw [hnone] at hl
        cases hl
    · rw [if_neg hnone]
      exact Or.inr rfl
  · refine triple_ite (fun hreview => ?_) fun _ => triple_pure hdone
    intro w' h
    exact triple_expire (Or.inr (h.state ▸ hreview)) w' h

theorem triple_load (w : World) (c : LoadCall) :
    Triple (fun w' => w' = w) (load c) (fun job w' => Loads w w' ∧ w'.job = job) (Loads w) := by
  have hstart : Faultless fun w' => Upgraded w w.job w' :=
    fun w' fs h => ⟨faultless_loads w fs h.loads, h.job, h.live, h.state⟩
  have hself : ∀ w', w' = w → Upgraded w w.job w' := by
    rintro w' rfl
    exact ⟨⟨rfl, rfl, Or.inl rfl, rfl, rfl, rfl, Or.inl rfl⟩, rfl, rfl, rfl⟩
  refine Triple.bind (R := fun _ => Upgraded w w.job) ?_ fun _ => ?_
  · exact (triple_database hstart).imp hself (fun _ _ h => h) fun _ h => h.loads
  refine Triple.bind (R := fun w₁ w' => Upgraded w w.job w' ∧ w₁.job = w.job ∧ w₁.live = w.live) ?_
    fun w₁ => ?_
  · exact triple_get fun w' h => ⟨h, h.job, h.live⟩
  intro w' h
  obtain ⟨h, hjob, hlive⟩ := h
  rw [hjob, hlive]
  refine ((triple_upgrade (w := w)).bind fun job => ?_) w' h
  refine Triple.bind (R := fun _ => Upgraded w job) ?_ fun _ => triple_interact
  exact triple_lift.imp (fun _ h => h) (fun _ _ h => h.2) fun _ h => h.loads

/-- A load that keeps what every load keeps. -/
theorem triple_load_of {P : World → Prop} {Q : Job → World → Prop} {E : World → Prop} {c : LoadCall}
    (hQ : ∀ {w w' : World}, P w → Loads w w' → Q w'.job w')
    (hE : ∀ {w w' : World}, P w → Loads w w' → E w') : Triple P (load c) Q E := by
  intro w hw
  have h := triple_load w c w rfl
  revert h
  cases exec (load c) w with
  | mk r w' =>
    cases r with
    | ok job =>
      rintro ⟨h, rfl⟩
      exact hQ hw h
    | error e => exact fun h => hE hw h

/-! ## The invariant -/

/-- The withdrawals that were frozen. -/
def withdrawals (trace : List Event) : List Bytes :=
  trace.filterMap fun e => match e with
    | .frozen (some _) _ raw => some raw
    | _ => none

def withdrawnStates : List JobState := [.withdrawn, .retired]

section
variable (nfc : String → String) (validateUrl : String → Bool) (A W : Prop)

/-- What a job has that is saved, or in hand and about to be. -/
structure JobOk (job : Job) (w : World) : Prop where
  unpublished : job.candidate = none → job.publicationJournalKey = none
  key : job.candidate ≠ none → ∃ key, job.journalKey = some key ∧
    (FrozenAs w.journal key "approve" ∨
      FrozenAs w.journal key "withdraw" ∧ job.publicationJournalKey ≠ none)
  fresh : W → withdrawals w.trace = [] → job.publicationJournalKey = none

def Stopped (job : Job) (w : World) : Prop := job.state ∈ withdrawnStates → w.live ≠ .running

/-- The invariant but for the worker. -/
structure Core (w : World) : Prop where
  job : JobOk W w.job w
  approved : A → ∀ r, .sent .approve r ∈ w.trace → decisionOf r = .str "approve"
  once : W → (withdrawals w.trace).length ≤ 1
  resent : W → ∀ r, .sent .withdraw r ∈ w.trace →
    ∃ raw ∈ withdrawals w.trace, requestBytes nfc validateUrl r = .ok raw

/-- The invariant of a job at rest. -/
def Inv (w : World) : Prop := Core nfc validateUrl A W w ∧ Stopped w.job w

/-- The invariant with a job in hand. -/
def Held (job : Job) (w : World) : Prop :=
  Inv nfc validateUrl A W w ∧ JobOk W job w ∧ Stopped job w

end

section
variable {nfc : String → String} {validateUrl : String → Bool} {A W : Prop} {w : World}
  {job job' : Job}

theorem JobOk.kept {j : Journal} (hkept : Kept w.journal j) (h : JobOk W job w) :
    JobOk W job { w with journal := j } := by
  refine ⟨h.unpublished, fun hc => ?_, h.fresh⟩
  obtain ⟨key, hkey, hfrozen⟩ := h.key hc
  exact ⟨key, hkey, hfrozen.imp (·.kept hkept) fun hf => ⟨hf.1.kept hkept, hf.2⟩⟩

/-- The keys of a job are all that counts. -/
theorem JobOk.congr (h : JobOk W job w) (hcandidate : job'.candidate = job.candidate)
    (hkey : job'.journalKey = job.journalKey)
    (hpublication : job'.publicationJournalKey = job.publicationJournalKey) : JobOk W job' w := by
  refine ⟨?_, ?_, ?_⟩
  · rw [hcandidate, hpublication]
    exact h.unpublished
  · rw [hcandidate, hkey, hpublication]
    exact h.key
  · rw [hpublication]
    exact h.fresh

theorem Core.kept {j : Journal} (hkept : Kept w.journal j) (h : Core nfc validateUrl A W w) :
    Core nfc validateUrl A W { w with journal := j } :=
  ⟨h.job.kept hkept, h.approved, h.once, h.resent⟩

theorem Inv.kept {j : Journal} (hkept : Kept w.journal j) (h : Inv nfc validateUrl A W w) :
    Inv nfc validateUrl A W { w with journal := j } := ⟨h.1.kept hkept, h.2⟩

theorem Held.kept {j : Journal} (hkept : Kept w.journal j) (h : Held nfc validateUrl A W job w) :
    Held nfc validateUrl A W job { w with journal := j } :=
  ⟨h.1.kept hkept, h.2.1.kept hkept, h.2.2⟩

theorem faultless_core : Faultless (Core nfc validateUrl A W) :=
  fun _ _ h => ⟨⟨h.job.unpublished, h.job.key, h.job.fresh⟩, h.approved, h.once, h.resent⟩

theorem faultless_inv : Faultless (Inv nfc validateUrl A W) :=
  fun _ fs h => ⟨faultless_core fs h.1, h.2⟩

theorem faultless_held : Faultless (Held nfc validateUrl A W job) :=
  fun _ fs h => ⟨faultless_inv fs h.1, ⟨h.2.1.unpublished, h.2.1.key, h.2.1.fresh⟩, h.2.2⟩

/-- The job in hand is saved. -/
theorem Held.save (h : Held nfc validateUrl A W job w) : Inv nfc validateUrl A W { w with job := job } :=
  ⟨⟨⟨h.2.1.unpublished, h.2.1.key, h.2.1.fresh⟩, h.1.1.approved, h.1.1.once, h.1.1.resent⟩, h.2.2⟩

theorem Inv.held (h : Inv nfc validateUrl A W w) : Held nfc validateUrl A W w.job w :=
  ⟨h, h.1.job, h.2⟩

/-- The job in hand in another state. -/
theorem Held.inState {state : JobState} (hactive : state ∉ withdrawnStates)
    (h : Held nfc validateUrl A W job w) : Held nfc validateUrl A W { job with state := state } w :=
  ⟨h.1, h.2.1.congr rfl rfl rfl, fun hs => absurd hs hactive⟩

/-- A worker that does not run. -/
theorem Core.stopped {live : Worker} (h : Core nfc validateUrl A W w) (hlive : live ≠ .running) :
    Inv nfc validateUrl A W { w with live := live } :=
  ⟨⟨⟨h.job.unpublished, h.job.key, h.job.fresh⟩, h.approved, h.once, h.resent⟩, fun _ => hlive⟩

theorem Inv.loads {w' : World} (h : Inv nfc validateUrl A W w) (hloads : Loads w w') :
    Inv nfc validateUrl A W w' := by
  obtain ⟨hjournal, htrace, hlive, hjob⟩ := hloads
  have hok : JobOk W w'.job w := h.1.job.congr hjob.candidate hjob.journalKey hjob.publicationJournalKey
  refine ⟨⟨⟨hok.unpublished, ?_, ?_⟩, ?_, ?_, ?_⟩, ?_⟩
  · rw [hjournal]
    exact hok.key
  · rw [htrace]
    exact hok.fresh
  · rw [htrace]
    exact h.1.approved
  · rw [htrace]
    exact h.1.once
  · rw [htrace]
    exact h.1.resent
  · intro hstate
    rcases hjob.state with hs | ⟨hs, -⟩
    · rw [hs] at hstate
      rcases hlive with hl | hl
      · rw [hl]
        exact h.2 hstate
      · rw [hl]
        decide
    · rw [hs] at hstate
      exact absurd hstate (by decide)

/-! ## Rules for the parts of an action -/

section
variable {α : Type}

/-- A transaction of the journal with a job in hand. -/
theorem triple_journal {Q : α → World → Prop}
    {op : Option Raised → Journal → Except Raised α × Journal}
    (hop : ∀ fault j, Kept j (op fault j).2)
    (h : ∀ {w : World} {fault : Option Raised} {a : α} {j : Journal},
      Held nfc validateUrl A W job w → op fault w.journal = (.ok a, j) →
      Held nfc validateUrl A W job { w with journal := j } → Q a { w with journal := j }) :
    Triple (Held nfc validateUrl A W job) (onJournal op) Q (Inv nfc validateUrl A W) :=
  (triple_onJournal faultless_held (fun hkept hw => hw.kept hkept) hop h).imp (fun _ hw => hw)
    (fun _ _ hw => hw) fun _ hw => hw.1

variable (job') in
theorem triple_saveJob (hnext : ∀ {w}, Held nfc validateUrl A W job w → Held nfc validateUrl A W job' w) :
    Triple (Held nfc validateUrl A W job) (save job')
      (fun _ => Held nfc validateUrl A W job') (Inv nfc validateUrl A W) := by
  refine (triple_save faultless_held ?_).imp (fun _ hw => hw) (fun _ _ hw => hw) fun _ hw => hw.1
  intro w hw
  exact (hnext hw).save.held

theorem triple_refuseBuild {Q : α → World → Prop} (code : String) :
    Triple (Held nfc validateUrl A W job) (lift (refuseBuild code)) Q (Inv nfc validateUrl A W) :=
  triple_ofExcept (fun _ a h _ => by cases h) fun _ hw => hw.1

theorem triple_stop {E : World → Prop} : Triple (Core nfc validateUrl A W) stop
    (fun _ => Inv nfc validateUrl A W) E := by
  refine triple_modify fun w hw => hw.stopped ?_
  split_ifs <;> decide

theorem triple_release : Triple (Inv nfc validateUrl A W) release (fun _ => Inv nfc validateUrl A W)
    (Inv nfc validateUrl A W) := by
  refine Triple.bind (triple_get fun w hw => hw) fun w₀ => ?_
  refine triple_ite (fun _ => triple_pure fun _ hw => hw) fun _ => ?_
  refine (triple_database faultless_inv).bind fun _ => ?_
  refine triple_ite (fun _ => ?_) fun _ => triple_pure fun _ hw => hw
  exact triple_modify fun w hw => hw.1.stopped (by decide)

theorem triple_status (c : LoadCall) : Triple (Inv nfc validateUrl A W) (status c)
    (fun _ => Inv nfc validateUrl A W) (Inv nfc validateUrl A W) :=
  Triple.bind (R := fun _ => Inv nfc validateUrl A W)
    (triple_load_of (fun hw hloads => hw.loads hloads) fun hw hloads => hw.loads hloads)
    fun _ => triple_pure fun _ hw => hw

/-- A job that passes its check is active; the check leaves the journal alone. -/
theorem triple_checkSource {F : Journal → Prop} (version : Except Raised String) :
    Triple (fun w => Held nfc validateUrl A W job w ∧ F w.journal) (checkSource version job)
      (fun _ w => (Held nfc validateUrl A W job w ∧ F w.journal) ∧
        job.state ∉ .expired :: inactiveStates)
      (Inv nfc validateUrl A W) := by
  have hrefuse : ∀ {Q : Unit → World → Prop} (code : String),
      Triple (fun w => Held nfc validateUrl A W job w ∧ F w.journal) (lift (refuseBuild code)) Q
        (Inv nfc validateUrl A W) :=
    fun code => (triple_refuseBuild code).imp (fun _ h => h.1) (fun _ _ h => h) fun _ h => h
  refine triple_ite (fun _ => hrefuse _) fun hexpired => ?_
  refine triple_ite (fun _ => hrefuse _) fun hinactive => ?_
  refine triple_lift_bind (fun _ hw => hw.1.1) fun v _ => ?_
  refine triple_ite (fun _ => ?_) fun _ => ?_
  · refine Triple.bind (R := fun _ => Inv nfc validateUrl A W) ?_ fun _ => ?_
    · refine (triple_saveJob { job with state := .failed } ?_).imp (fun _ h => h.1)
        (fun _ _ h => h.1) fun _ h => h
      exact fun hw => hw.inState (by decide)
    refine Triple.bind (R := fun _ => Inv nfc validateUrl A W) ?_
      fun _ => triple_refuse fun a h => by cases h
    exact triple_stop.imp (fun _ h => h.1) (fun _ _ h => h) fun _ h => h
  · refine triple_pure fun w hw => ⟨hw, ?_⟩
    rw [List.mem_cons, not_or]
    exact ⟨hexpired, hinactive⟩

/-- What a frozen request that is read has. -/
theorem triple_readRequest {P : World → Prop} (hfaults : Faultless P)
    (hkept : ∀ {w : World} {j : Journal}, Kept w.journal j → P w → P { w with journal := j })
    (key : Key) : Triple P (readRequest key)
      (fun r w => P w ∧ ∀ d, FrozenAs w.journal key d → decisionOf r = .str d) P := by
  refine Triple.bind (R := fun row w => P w ∧ w.journal.candidates key = some row) ?_
    fun row => ?_
  · refine triple_onJournal hfaults hkept (fun fault j => kept_read fault key j) ?_
    intro w fault row j hw hrun hnext
    obtain ⟨hsame, hrow⟩ := read_ok hrun
    cases hsame
    exact ⟨hnext, hrow⟩
  · cases hrequest : row.request with
    | none =>
      exact (triple_refuse fun a h => by cases h).imp (fun _ h => h) (fun _ _ h => h) fun _ h => h.1
    | some raw =>
      refine triple_lift.imp (fun _ h => h) ?_ fun _ h => h.1
      rintro r w ⟨hr, hw, hrow⟩
      refine ⟨hw, fun d hfrozen => ?_⟩
      obtain ⟨row', raw', r', hrow', hraw', hloads, hdecision⟩ := hfrozen
      rw [hrow] at hrow'
      cases hrow'
      rw [hrequest] at hraw'
      cases hraw'
      rw [loadJson_ok hr] at hloads
      cases hloads
      exact hdecision

theorem triple_markSubmitted (key : Key) : Triple (Held nfc validateUrl A W job) (markSubmitted key)
    (fun _ => Held nfc validateUrl A W job) (Inv nfc validateUrl A W) := by
  refine Triple.bind (R := fun _ => Held nfc validateUrl A W job)
    (triple_journal (fun fault j => kept_read fault key j) fun _ _ hw => hw) fun row => ?_
  refine triple_ite (fun _ => ?_) fun _ => triple_pure fun _ hw => hw
  exact triple_journal (fun fault j => kept_transition fault key _ j) fun _ _ hw => hw

/-! ## Freezing -/

/-- What a request that is about to be frozen has. -/
structure Freezable (job : Job) (request : Json) : Prop where
  decision : decisionOf request = .str "approve" ∨
    decisionOf request = .str "withdraw" ∧ job.publicationJournalKey ≠ none
  binding : Dicts (get (asObj request) "binding")

/-- The world before a freeze: no withdrawal is frozen when one is at hand. -/
def Before (nfc : String → String) (validateUrl : String → Bool) (A W : Prop) (job : Job)
    (w : World) : Prop :=
  Inv nfc validateUrl A W w ∧
    (W → job.publicationJournalKey ≠ none → withdrawals w.trace = [])

/-- The world knows the request as a frozen withdrawal. -/
def FrozenIn (nfc : String → String) (validateUrl : String → Bool) (request : Json) (w : World) :
    Prop := ∃ raw ∈ withdrawals w.trace, requestBytes nfc validateUrl request = .ok raw

theorem withdrawals_append (trace : List Event) (e : Event) :
    withdrawals (trace ++ [e]) = withdrawals trace ++ withdrawals [e] := List.filterMap_append

theorem Before.kept {j : Journal} (hkept : Kept w.journal j)
    (h : Before nfc validateUrl A W job w) : Before nfc validateUrl A W job { w with journal := j } :=
  ⟨h.1.kept hkept, h.2⟩

theorem faultless_before : Faultless (Before nfc validateUrl A W job) :=
  fun _ fs h => ⟨faultless_inv fs h.1, h.2⟩

/-- The world after a freeze. -/
structure After (nfc : String → String) (validateUrl : String → Bool) (A W : Prop) (job : Job)
    (request : Json) (key : Key) (w : World) : Prop where
  inv : Inv nfc validateUrl A W w
  frozen : FrozenAs w.journal key "approve" ∨
    FrozenAs w.journal key "withdraw" ∧ job.publicationJournalKey ≠ none
  known : W → job.publicationJournalKey ≠ none → FrozenIn nfc validateUrl request w

/-- The event of a freeze is recorded. -/
theorem Before.record {request : Json} {key : Key} {raw : Bytes}
    (h : Before nfc validateUrl A W job w) (hraw : requestBytes nfc validateUrl request = .ok raw)
    (hfrozen : FrozenAs w.journal key "approve" ∨
      FrozenAs w.journal key "withdraw" ∧ job.publicationJournalKey ≠ none) :
    After nfc validateUrl A W job request key
      { w with trace := w.trace ++ [.frozen job.publicationJournalKey key raw] } := by
  obtain ⟨⟨hcore, hstopped⟩, hnone⟩ := h
  have hsub : ∀ b ∈ withdrawals w.trace,
      b ∈ withdrawals (w.trace ++ [.frozen job.publicationJournalKey key raw]) := by
    intro b hb
    rw [withdrawals_append]
    exact List.mem_append_left _ hb
  have hsent : ∀ {action : Action} {r : Json},
      .sent action r ∈ w.trace ++ [.frozen job.publicationJournalKey key raw] →
        .sent action r ∈ w.trace := by
    intro action r hr
    rcases List.mem_append.1 hr with hr | hr
    · exact hr
    · cases List.mem_singleton.1 hr
  refine ⟨⟨⟨⟨hcore.job.unpublished, hcore.job.key, ?_⟩, ?_, ?_, ?_⟩, hstopped⟩, hfrozen, ?_⟩
  · intro hW hempty
    rw [withdrawals_append] at hempty
    exact hcore.job.fresh hW (List.append_eq_nil_iff.1 hempty).1
  · exact fun hA r hr => hcore.approved hA r (hsent hr)
  · intro hW
    rw [withdrawals_append]
    cases hpublication : job.publicationJournalKey with
    | none => simpa [withdrawals] using hcore.once hW
    | some k =>
      rw [hnone hW (by rw [hpublication]; exact Option.some_ne_none k)]
      exact le_rfl
  · intro hW r hr
    obtain ⟨b, hb, hr⟩ := hcore.resent hW r (hsent hr)
    exact ⟨b, hsub b hb, hr⟩
  · intro hW hpublication
    obtain ⟨k, hk⟩ := Option.ne_none_iff_exists'.1 hpublication
    refine ⟨raw, ?_, hraw⟩
    rw [withdrawals_append, hk]
    exact List.mem_append_right _ List.mem_cons_self

theorem triple_journalFreeze {request : Json} (h : Freezable job request) (key : Key) :
    Triple (Before nfc validateUrl A W job)
      (journalFreeze nfc validateUrl job.publicationJournalKey key request)
      (fun _ => After nfc validateUrl A W job request key) (Inv nfc validateUrl A W) := by
  refine Triple.bind (R := fun frozen w => Before nfc validateUrl A W job w ∧
    requestBytes nfc validateUrl request = .ok frozen.1 ∧
    (FrozenAs w.journal key "approve" ∨
      FrozenAs w.journal key "withdraw" ∧ job.publicationJournalKey ≠ none)) ?_ fun frozen => ?_
  · refine (triple_onJournal faultless_before (fun hkept hw => hw.kept hkept)
      (fun fault j => kept_freeze fault key request j) ?_).imp (fun _ hw => hw)
      (fun _ _ hw => hw) fun _ hw => hw.1
    intro w fault frozen j hw hrun hnext
    refine ⟨hnext, (freeze_ok hrun).1, ?_⟩
    exact h.decision.imp (frozenAs_freeze hrun h.binding)
      fun hd => ⟨frozenAs_freeze hrun h.binding hd.1, hd.2⟩
  · exact triple_modify fun w hw => hw.1.record hw.2.1 hw.2.2

/-- **A freeze** leaves the job with the key of a frozen request. -/
theorem triple_freeze {request : Json} (h : Freezable job request) (candidate : LocalCandidate) :
    Triple (Before nfc validateUrl A W job) (freeze nfc validateUrl job candidate request)
      (fun job' w => Held nfc validateUrl A W job' w ∧
        (W → job.publicationJournalKey ≠ none → FrozenIn nfc validateUrl request w))
      (Inv nfc validateUrl A W) := by
  have hjournal : ∀ {α : Type} {op : Option Raised → Journal → Except Raised α × Journal},
      (∀ fault j, Kept j (op fault j).2) → Triple (Before nfc validateUrl A W job) (onJournal op)
        (fun _ => Before nfc validateUrl A W job) (Inv nfc validateUrl A W) := by
    intro α op hop
    exact (triple_onJournal faultless_before (fun hkept hw => hw.kept hkept) hop
      fun _ _ hw => hw).imp (fun _ hw => hw) (fun _ _ hw => hw) fun _ hw => hw.1
  refine (hjournal fun fault j => kept_start fault candidate j).bind fun key => ?_
  refine Triple.bind (R := fun _ => Before nfc validateUrl A W job) ?_ fun _ => ?_
  · exact triple_forM (fun state => hjournal fun fault j => kept_transition fault key _ j) _
  refine (triple_journalFreeze h key).bind fun _ => ?_
  refine Triple.bind (R := fun _ => After nfc validateUrl A W job request key) ?_ fun entry => ?_
  · exact triple_lift.imp (fun _ hw => hw) (fun _ _ hw => hw.2) fun _ hw => hw.inv
  refine Triple.bind (R := fun _ w => Held nfc validateUrl A W _ w ∧
    (W → job.publicationJournalKey ≠ none → FrozenIn nfc validateUrl request w)) ?_
    fun _ => triple_pure fun _ hw => hw
  refine (triple_save (P := After nfc validateUrl A W job request key) ?_ ?_).imp (fun _ hw => hw)
    (fun _ _ hw => hw) fun _ hw => hw.inv
  · exact fun w fs hw => ⟨faultless_inv fs hw.inv, hw.frozen, hw.known⟩
  · intro w hw
    refine ⟨(Held.save ⟨hw.inv, ⟨?_, ?_, ?_⟩, ?_⟩).held, hw.known⟩
    · exact fun hc => absurd hc (Option.some_ne_none entry)
    · exact fun _ => ⟨key, rfl, hw.frozen⟩
    · intro hW hempty
      by_contra hpublication
      obtain ⟨raw, hraw, -⟩ := hw.known hW hpublication
      rw [hempty] at hraw
      cases hraw
    · intro hs
      exact absurd hs (by decide : JobState.signedCandidate ∉ withdrawnStates)

/-! ## What goes to ai.market -/

/-- An event that is no freeze, and no send that breaks the invariant. -/
structure Harmless (nfc : String → String) (validateUrl : String → Bool) (A W : Prop) (w : World)
    (e : Event) : Prop where
  freezes : withdrawals [e] = []
  approves : A → ∀ r, e = .sent .approve r → decisionOf r = .str "approve"
  withdraws : W → ∀ r, e = .sent .withdraw r → FrozenIn nfc validateUrl r w

theorem Harmless.withdrawals {e : Event} (h : Harmless nfc validateUrl A W w e) :
    withdrawals (w.trace ++ [e]) = withdrawals w.trace := by
  rw [withdrawals_append, h.freezes, List.append_nil]

theorem JobOk.event {e : Event} (he : Harmless nfc validateUrl A W w e) (h : JobOk W job w) :
    JobOk W job { w with trace := w.trace ++ [e] } :=
  ⟨h.unpublished, h.key, fun hW hempty => h.fresh hW (he.withdrawals ▸ hempty)⟩

theorem Held.event {e : Event} (he : Harmless nfc validateUrl A W w e)
    (h : Held nfc validateUrl A W job w) :
    Held nfc validateUrl A W job { w with trace := w.trace ++ [e] } := by
  obtain ⟨⟨hcore, hsaved⟩, hok, hstopped⟩ := h
  refine ⟨⟨⟨hcore.job.event he, ?_, ?_, ?_⟩, hsaved⟩, hok.event he, hstopped⟩
  · intro hA r hr
    rcases List.mem_append.1 hr with hr | hr
    · exact hcore.approved hA r hr
    · exact he.approves hA r (List.mem_singleton.1 hr).symm
  · intro hW
    rw [he.withdrawals]
    exact hcore.once hW
  · intro hW r hr
    rw [he.withdrawals]
    rcases List.mem_append.1 hr with hr | hr
    · exact hcore.resent hW r hr
    · exact he.withdraws hW r (List.mem_singleton.1 hr).symm

theorem Held.allocated (binding : Json) (h : Held nfc validateUrl A W job w) :
    Held nfc validateUrl A W job { w with trace := w.trace ++ [.allocated binding] } := by
  refine h.event ⟨rfl, ?_, ?_⟩
  · exact fun _ r hr => by cases hr
  · exact fun _ r hr => by cases hr

theorem triple_allocate {P : World → Prop}
    (hP : ∀ {w} b, P w → P { w with trace := w.trace ++ [.allocated b] }) (binding : Json)
    (response : Except Raised (List (String × Json))) :
    Triple P (allocate binding response) (fun _ => P) P := by
  refine Triple.bind (R := fun _ => P) (triple_modify fun w hw => hP binding hw) fun _ => ?_
  refine triple_lift_bind (fun _ hw => hw) fun result _ => ?_
  cases result.lookup "binding" with
  | none => exact triple_refuse fun a h => by cases h
  | some b =>
    cases b with
    | obj b => exact triple_pure fun _ hw => hw
    | _ => exact triple_refuse fun a h => by cases h

theorem triple_send {action : Action} {request : Json} (response : Except Raised Unit)
    (happroves : A → action = .approve → decisionOf request = .str "approve") :
    Triple (fun w => Held nfc validateUrl A W job w ∧
        (W → action = .withdraw → FrozenIn nfc validateUrl request w))
      (send action request response) (fun _ => Held nfc validateUrl A W job)
      (Inv nfc validateUrl A W) := by
  refine Triple.bind (R := fun _ => Held nfc validateUrl A W job) ?_ fun _ =>
    triple_lift.imp (fun _ h => h) (fun _ _ h => h.2) fun _ h => h.1
  refine triple_modify fun w hw => hw.1.event ⟨rfl, ?_, ?_⟩
  · intro hA r hr
    cases hr
    exact happroves hA rfl
  · intro hW r hr
    cases hr
    exact hw.2 hW rfl

/-! ## The actions -/

theorem triple_releaseOnExit {P : World → Prop} {x : Build Unit}
    (hx : Triple P x (fun _ => Inv nfc validateUrl A W) (Inv nfc validateUrl A W)) :
    Triple P (releaseOnExit x) (fun _ => Inv nfc validateUrl A W) (Inv nfc validateUrl A W) :=
  hx.andFinally (fun _ => triple_release) triple_release

theorem triple_endStatus (c : LoadCall) : Triple (Held nfc validateUrl A W job) (status c)
    (fun _ => Inv nfc validateUrl A W) (Inv nfc validateUrl A W) :=
  (triple_status c).imp (fun _ hw => hw.1) (fun _ _ hw => hw) fun _ hw => hw

/-- A commitment that is signed is no null. -/
theorem proposal_commitment {c : CandidateCall} {listingId origin : String} {signer : Signer}
    {summary rights : List (String × Json)} {publication : Publication}
    {proofs : List (List (String × Json))} {out : Proposal}
    (h : proposal validateUrl job c listingId signer summary rights publication origin proofs =
      .ok out) : out.commitment ≠ .null := by
  obtain ⟨reference, -, h⟩ := Except.bind_eq_ok.1 h
  obtain ⟨p1, -, h⟩ := Except.bind_eq_ok.1 h
  obtain ⟨fields, -, h⟩ := Except.bind_eq_ok.1 h
  obtain ⟨attested, -, h⟩ := Except.bind_eq_ok.1 h
  obtain ⟨digest, -, h⟩ := Except.bind_eq_ok.1 h
  obtain ⟨records, -, h⟩ := Except.bind_eq_ok.1 h
  obtain ⟨signed, -, h⟩ := Except.bind_eq_ok.1 h
  obtain ⟨commitment, hcommitment, h⟩ := Except.bind_eq_ok.1 h
  obtain ⟨binding, -, h⟩ := Except.bind_eq_ok.1 h
  cases h
  obtain ⟨body, -, hcommitment⟩ := Except.bind_eq_ok.1 hcommitment
  obtain ⟨-, -, hcommitment⟩ := Except.bind_eq_ok.1 hcommitment
  obtain ⟨bytes, -, hcommitment⟩ := Except.bind_eq_ok.1 hcommitment
  obtain ⟨signature, -, hcommitment⟩ := Except.bind_eq_ok.1 hcommitment
  cases hcommitment
  exact fun h => by cases h

/-- **`candidate`** freezes an approval, if anything. -/
theorem triple_candidate (c : CandidateCall) :
    Triple (Inv nfc validateUrl A W) (candidate nfc validateUrl c)
      (fun _ => Inv nfc validateUrl A W) (Inv nfc validateUrl A W) := by
  refine triple_releaseOnExit ?_
  refine Triple.bind (R := fun job => Held nfc validateUrl A W job)
    (triple_load_of (fun hw hloads => (hw.loads hloads).held) fun hw hloads => hw.loads hloads)
    fun job => ?_
  refine Triple.bind (R := fun _ => Held nfc validateUrl A W job)
    ((triple_checkSource (F := fun _ => True) c.version).imp (fun _ h => ⟨h, trivial⟩)
      (fun _ _ h => h.1.1) fun _ h => h) fun _ => ?_
  have hE : ∀ w, Held nfc validateUrl A W job w → Inv nfc validateUrl A W w := fun _ hw => hw.1
  refine triple_lift_bind hE fun rights _ => triple_lift_bind hE fun listingId _ => ?_
  refine triple_ite (fun _ => triple_endStatus c.again) fun hcandidate => ?_
  have hnone : job.candidate = none := Option.not_isSome_iff_eq_none.1 hcandidate
  refine triple_lift_bind hE fun summary _ => triple_lift_bind hE fun signer _ => ?_
  refine triple_lift_bind hE fun publication _ => triple_lift_bind hE fun origin _ => ?_
  refine triple_lift_bind hE fun proofs _ => triple_lift_bind hE fun proposal hproposal => ?_
  refine triple_lift_bind hE fun proposed _ => triple_lift_bind hE fun binding _ => ?_
  refine Triple.bind (R := fun _ => Held nfc validateUrl A W job)
    ((triple_allocate (fun b hw => Held.allocated b hw) (.obj binding) c.allocate).imp
      (fun _ hw => hw) (fun _ _ hw => hw) hE) fun allocated => ?_
  refine triple_lift_bind hE fun candidate _ => triple_lift_bind hE fun p1 _ => ?_
  refine triple_lift_bind hE fun request hrequest => ?_
  obtain ⟨-, happrove, hdicts⟩ := constructRequest_decision hrequest
  have hfreezable : Freezable { job with proofs := some proofs } request :=
    ⟨Or.inl (happrove (proposal_commitment hproposal)), hdicts⟩
  refine Triple.bind (R := fun job' => Held nfc validateUrl A W job') ?_ fun job' => ?_
  · refine (triple_freeze hfreezable candidate).imp (fun w hw => ⟨hw.1, fun _ hpublication => ?_⟩)
      (fun _ _ hw => hw.1) fun _ hw => hw
    exact absurd (hw.2.1.unpublished hnone) hpublication
  · exact (triple_saveJob _ fun hw => hw).bind fun _ => triple_endStatus c.again

/-- A submission of what is no withdrawal, or of nothing. -/
def Settled (w : World) : Prop :=
  w.job.state ∈ .expired :: inactiveStates ∨
    ∀ key, w.job.journalKey = some key → ¬ FrozenAs w.journal key "withdraw"

/-- What the journal has for the job that is submitted. -/
def Sendable (job : Job) (j : Journal) : Prop :=
  job.state ∉ .expired :: inactiveStates → job.candidate ≠ none →
    ∃ key, job.journalKey = some key ∧ FrozenAs j key "approve"

theorem Settled.sendable {w' : World} (hsettled : Settled w) (h : JobOk W w.job w)
    (hloads : Loads w w') : Sendable w'.job w'.journal := by
  intro hactive hcandidate
  rw [hloads.job.candidate] at hcandidate
  rw [hloads.job.journalKey, hloads.journal]
  obtain ⟨key, hkey, hfrozen⟩ := h.key hcandidate
  refine ⟨key, hkey, hfrozen.resolve_right fun hwithdraw => ?_⟩
  rcases hsettled with hstate | hnot
  · rcases hloads.job.state with hs | ⟨hs, -⟩
    · exact hactive (hs ▸ hstate)
    · exact hactive (hs ▸ List.mem_cons_self)
  · exact hnot key hkey hwithdraw.1

theorem journalKeyOf_ok {key : Key} (h : journalKeyOf job = .ok key) : job.journalKey = some key := by
  rw [journalKeyOf] at h
  split at h
  · rename_i k hk
    cases h
    exact hk
  · cases h

/-- **`submit`** sends an approval, of a job that is settled. -/
theorem triple_submit (c : SubmitCall) :
    Triple (fun w => Inv nfc validateUrl A W w ∧ (A → Settled w)) (submit c)
      (fun _ => Inv nfc validateUrl A W) (Inv nfc validateUrl A W) := by
  refine triple_releaseOnExit ?_
  refine Triple.bind
    (R := fun job w => Held nfc validateUrl A W job w ∧ (A → Sendable job w.journal)) ?_
    fun job => ?_
  · refine triple_load_of (fun hw hloads => ⟨(hw.1.loads hloads).held, fun hA => ?_⟩)
      fun hw hloads => hw.1.loads hloads
    exact (hw.2 hA).sendable hw.1.1.job hloads
  refine (triple_checkSource (F := fun j => A → Sendable job j) c.version).bind fun _ => ?_
  refine Triple.of_pure fun hactive => ?_
  refine triple_ite (fun _ => ?_) fun hcandidate => ?_
  · exact (triple_refuseBuild _).imp (fun _ h => h.1) (fun _ _ h => h) fun _ h => h
  have hsome : job.candidate ≠ none := fun h => hcandidate (Option.isNone_iff_eq_none.2 h)
  refine triple_lift_bind (fun _ hw => hw.1.1) fun _ _ => ?_
  refine triple_lift_bind (fun _ hw => hw.1.1) fun key hkey => ?_
  have hfrozen : ∀ j, (A → Sendable job j) → A → FrozenAs j key "approve" := by
    intro j h hA
    obtain ⟨key', hkey', hfrozen⟩ := h hA hactive hsome
    rw [journalKeyOf_ok hkey] at hkey'
    cases hkey'
    exact hfrozen
  refine Triple.bind (R := fun frozen w => Held nfc validateUrl A W job w ∧
    (A → decisionOf frozen = .str "approve")) ?_ fun frozen => ?_
  · refine (triple_readRequest
      (P := fun w => Held nfc validateUrl A W job w ∧ (A → FrozenAs w.journal key "approve"))
      (fun _ fs hw => ⟨faultless_held fs hw.1, hw.2⟩)
      (fun hkept hw => ⟨hw.1.kept hkept, fun hA => (hw.2 hA).kept hkept⟩) key).imp
      (fun w hw => ⟨hw.1, hfrozen w.journal hw.2⟩) ?_ fun _ hw => hw.1.1
    exact fun r w hw => ⟨hw.1.1, fun hA => hw.2 "approve" (hw.1.2 hA)⟩
  refine Triple.of_pure fun hdecision => ?_
  refine Triple.bind (R := fun _ => Held nfc validateUrl A W job) ?_ fun _ => ?_
  · exact (triple_send c.response fun hA _ => hdecision hA).imp
      (fun _ hw => ⟨hw, fun _ h => by cases h⟩) (fun _ _ hw => hw) fun _ hw => hw
  refine Triple.bind (R := fun _ => Held nfc validateUrl A W job) ?_ fun _ => ?_
  · refine triple_ite (fun _ => ?_) fun _ => triple_pure fun _ hw => hw
    exact triple_lift.imp (fun _ h => h) (fun _ _ h => h.2) fun _ h => h.1
  refine triple_lift_bind (fun _ hw => hw.1) fun _ _ => ?_
  refine (triple_markSubmitted key).bind fun _ => ?_
  refine Triple.bind (triple_saveJob { job with state := .submitted } ?_)
    fun _ => triple_endStatus c.again
  exact fun hw => hw.inState (by decide)

/-! ### `withdraw` -/

/-- The world of a withdrawal that asks ai.market: none is frozen yet, and what the
    publication has frozen is an approval. -/
def Withdrawing (nfc : String → String) (validateUrl : String → Bool) (A W : Prop) (job : Job)
    (key : Key) (w : World) : Prop :=
  Held nfc validateUrl A W job w ∧
    (W → withdrawals w.trace = [] ∧ FrozenAs w.journal key "approve")

theorem Withdrawing.kept {key : Key} {j : Journal} (hkept : Kept w.journal j)
    (h : Withdrawing nfc validateUrl A W job key w) :
    Withdrawing nfc validateUrl A W job key { w with journal := j } :=
  ⟨h.1.kept hkept, fun hW => ⟨(h.2 hW).1, (h.2 hW).2.kept hkept⟩⟩

theorem Withdrawing.allocated {key : Key} (binding : Json)
    (h : Withdrawing nfc validateUrl A W job key w) :
    Withdrawing nfc validateUrl A W job key
      { w with trace := w.trace ++ [.allocated binding] } := by
  refine ⟨h.1.allocated binding, fun hW => ⟨?_, (h.2 hW).2⟩⟩
  rw [withdrawals_append, (h.2 hW).1]
  rfl

/-- Without the bound on withdrawals, the publication of a job may be noted. -/
theorem Held.published {key : Key} (hcandidate : job.candidate ≠ none) (hW : ¬ W)
    (h : Held nfc validateUrl A W job w) :
    Held nfc validateUrl A W { job with publicationJournalKey := some key } w := by
  refine ⟨h.1, ⟨fun hc => absurd hc hcandidate, fun hc => ?_, fun h => absurd h hW⟩, h.2.2⟩
  obtain ⟨k, hk, hfrozen⟩ := h.2.1.key hc
  exact ⟨k, hk, hfrozen.imp_right fun hf => ⟨hf.1, Option.some_ne_none key⟩⟩

theorem triple_withdrawalRequest (c : WithdrawCall) (key : Key) (hcandidate : job.candidate ≠ none) :
    Triple (Withdrawing nfc validateUrl A W job key)
      (withdrawalRequest nfc validateUrl c { job with publicationJournalKey := some key } key)
      (fun out w => Held nfc validateUrl A W out.1 w ∧
        (W → Action.withdraw = .withdraw → FrozenIn nfc validateUrl out.2 w))
      (Inv nfc validateUrl A W) := by
  have hE : ∀ w, Withdrawing nfc validateUrl A W job key w → Inv nfc validateUrl A W w :=
    fun _ hw => hw.1.1
  refine Triple.bind (R := fun old w => Withdrawing nfc validateUrl A W job key w ∧
    (W → decisionOf old = .str "approve")) ?_ fun old => ?_
  · refine (triple_readRequest (fun _ fs hw => ⟨faultless_held fs hw.1, hw.2⟩)
      (fun hkept hw => Withdrawing.kept hkept hw) key).imp (fun _ hw => hw) ?_ hE
    exact fun r w hw => ⟨hw.1, fun hW => hw.2 "approve" (hw.1.2 hW).2⟩
  refine Triple.of_pure fun hold => ?_
  refine triple_ite (fun hwithdraw => ?_) fun _ => ?_
  · have hW : ¬ W := by
      intro hW
      rw [hold hW] at hwithdraw
      exact absurd hwithdraw (by decide)
    exact triple_pure fun w hw => ⟨hw.1.published hcandidate hW, fun h => absurd h hW⟩
  refine triple_lift_bind hE fun proposed _ => triple_lift_bind hE fun binding _ => ?_
  refine Triple.bind (R := fun _ => Withdrawing nfc validateUrl A W job key)
    ((triple_allocate (fun b hw => Withdrawing.allocated b hw) (.obj binding) c.allocate).imp
      (fun _ hw => hw) (fun _ _ hw => hw) hE) fun allocated => ?_
  refine triple_lift_bind hE fun candidate _ => triple_lift_bind hE fun p1 _ => ?_
  refine triple_lift_bind hE fun signer _ => triple_lift_bind hE fun request hrequest => ?_
  obtain ⟨hdecision, -, hdicts⟩ := constructRequest_decision hrequest
  have hfreezable : Freezable { job with publicationJournalKey := some key } request :=
    ⟨hdecision.imp_right fun hd => ⟨hd, Option.some_ne_none key⟩, hdicts⟩
  refine Triple.bind ((triple_freeze hfreezable candidate).imp ?_ (fun _ _ hw => hw)
    fun _ hw => hw) fun job' => ?_
  · exact fun w hw => ⟨hw.1.1, fun hW _ => (hw.2 hW).1⟩
  · exact triple_pure fun w hw => ⟨hw.1, fun hW _ => hw.2 hW (Option.some_ne_none key)⟩

theorem triple_withdrawPublished (c : WithdrawCall) (key : Key) (hcandidate : job.candidate ≠ none) :
    Triple (Withdrawing nfc validateUrl A W job key)
      (withdrawPublished nfc validateUrl c job key)
      (fun job' => Held nfc validateUrl A W job') (Inv nfc validateUrl A W) := by
  refine (triple_withdrawalRequest c key hcandidate).bind fun out => ?_
  obtain ⟨job', request⟩ := out
  refine Triple.bind (R := fun _ => Held nfc validateUrl A W job') ?_ fun _ => ?_
  · exact triple_send c.response fun _ h => by cases h
  refine triple_lift_bind (fun _ hw => hw.1) fun key' _ => ?_
  exact (triple_markSubmitted key').bind fun _ => triple_pure fun _ hw => hw

/-- What `withdraw` finds: no withdrawal that is frozen, or one that was taken. -/
def Unasked (job : Job) (w : World) : Prop :=
  withdrawals w.trace = [] ∨ job.state ∈ withdrawnStates

theorem triple_withdrawnJob (c : WithdrawCall) {publicationKey : Option Key}
    (hkey : publicationKeyOf job = .ok publicationKey) :
    Triple (fun w => Held nfc validateUrl A W job w ∧ (W → Unasked job w))
      (withdrawnJob nfc validateUrl c job publicationKey)
      (fun job' => Held nfc validateUrl A W job') (Inv nfc validateUrl A W) := by
  cases publicationKey with
  | none => exact triple_pure fun _ hw => hw.1
  | some key =>
    refine triple_ite (fun _ => triple_pure fun _ hw => hw.1) fun hstate => ?_
    rw [publicationKeyOf] at hkey
    split_ifs at hkey with hnone
    · cases hkey
    have hcandidate : job.candidate ≠ none := fun h => hnone (Option.isNone_iff_eq_none.2 h)
    refine (triple_withdrawPublished c key hcandidate).imp (fun w hw => ⟨hw.1, fun hW => ?_⟩)
      (fun _ _ hw => hw) fun _ hw => hw
    have hempty := (hw.2 hW).resolve_right hstate
    refine ⟨hempty, ?_⟩
    have hpublication := hw.1.2.1.fresh hW hempty
    rw [hpublication] at hkey
    obtain ⟨own, hown, hkey⟩ := Except.bind_eq_ok.1 hkey
    cases hkey
    obtain ⟨k, hk, hfrozen⟩ := hw.1.2.1.key hcandidate
    rw [journalKeyOf_ok hown] at hk
    cases hk
    exact hfrozen.resolve_right fun hf => hf.2 hpublication

theorem triple_retirementReceipts (c : WithdrawCall) (publicationKey : Option Key)
    (publication : Publication) : Triple (Held nfc validateUrl A W job)
      (retirementReceipts validateUrl c job publicationKey publication)
      (fun _ => Held nfc validateUrl A W job) (Inv nfc validateUrl A W) := by
  have hlift : ∀ {x : Except Raised Json}, Triple (Held nfc validateUrl A W job) (lift x)
      (fun _ => Held nfc validateUrl A W job) (Inv nfc validateUrl A W) :=
    fun {x} => triple_lift.imp (fun _ hw => hw) (fun _ _ hw => hw.2) fun _ hw => hw.1
  have hfault : Triple (Held nfc validateUrl A W job) nextFault
      (fun _ => Held nfc validateUrl A W job) (Inv nfc validateUrl A W) :=
    (triple_nextFault faultless_held).imp (fun _ hw => hw) (fun _ _ hw => hw) fun _ hw => hw.1
  rw [retirementReceipts.eq_def]
  split
  · refine hfault.bind fun faultRead => hfault.bind fun faultPending => ?_
    exact triple_journal (fun fault j => kept_retire faultRead faultPending fault _ _ j)
      fun _ _ hw => hw
  · exact hlift
  · exact hlift

theorem triple_retireJob (c : WithdrawCall) (publicationKey : Option Key)
    (publication : Publication) : Triple (Held nfc validateUrl A W job)
      (retireJob validateUrl c job publicationKey publication)
      (fun _ => Inv nfc validateUrl A W) (Inv nfc validateUrl A W) := by
  refine Triple.bind (R := fun _ w => Core nfc validateUrl A W w ∧
    w.job = { job with state := .withdrawn, receipts := [] }) ?_ fun _ => ?_
  · refine (triple_save faultless_held ?_).imp (fun _ hw => hw) (fun _ _ hw => hw)
      fun _ hw => hw.1
    intro w hw
    exact ⟨⟨⟨hw.2.1.unpublished, hw.2.1.key, hw.2.1.fresh⟩, hw.1.1.approved, hw.1.1.once,
      hw.1.1.resent⟩, rfl⟩
  refine Triple.bind (R := fun _ => Held nfc validateUrl A W
    { job with state := .withdrawn, receipts := [] }) ?_ fun _ => ?_
  · refine triple_modify fun w hw => ?_
    rw [← hw.2]
    refine (hw.1.stopped ?_).held
    split_ifs <;> decide
  refine (triple_retirementReceipts c publicationKey publication).bind fun receipts => ?_
  refine Triple.bind (R := fun _ => Inv nfc validateUrl A W) ?_ fun _ => triple_status c.again
  rw [saveRetired.eq_def]
  split
  · refine (triple_save faultless_held ?_).imp (fun _ hw => hw) (fun _ _ hw => hw)
      fun _ hw => hw.1
    intro w hw
    refine ⟨⟨⟨hw.2.1.unpublished, hw.2.1.key, hw.2.1.fresh⟩, hw.1.1.approved, hw.1.1.once,
      hw.1.1.resent⟩, fun _ => ?_⟩
    exact hw.2.2 (by decide : JobState.withdrawn ∈ withdrawnStates)
  · exact triple_pure fun _ hw => hw.1

/-- **`withdraw`** freezes and sends one withdrawal, of a job that was not left halfway. -/
theorem triple_withdraw (c : WithdrawCall) :
    Triple (fun w => Inv nfc validateUrl A W w ∧ (W → Unasked w.job w)) (withdraw nfc validateUrl c)
      (fun _ => Inv nfc validateUrl A W) (Inv nfc validateUrl A W) := by
  refine triple_releaseOnExit ?_
  refine Triple.bind
    (R := fun job w => Held nfc validateUrl A W job w ∧ (W → Unasked job w)) ?_ fun job => ?_
  · refine triple_load_of (fun {w w'} hw hloads => ⟨(hw.1.loads hloads).held, fun hW => ?_⟩)
      fun hw hloads => hw.1.loads hloads
    rcases hw.2 hW with hempty | hstate
    · exact Or.inl (hloads.trace ▸ hempty)
    · refine Or.inr ?_
      rcases hloads.job.state with hs | ⟨-, hrunning | hreview⟩
      · exact hs ▸ hstate
      · exact absurd hrunning (hw.1.2 hstate)
      · exact absurd hreview (by
          intro hreview
          revert hstate hreview
          cases w.job.state <;> decide)
  refine triple_lift_bind (fun _ hw => hw.1.1) fun publication _ => ?_
  refine triple_lift_bind (fun _ hw => hw.1.1) fun publicationKey hkey => ?_
  exact (triple_withdrawnJob c hkey).bind fun job' => triple_retireJob c publicationKey publication

end

/-! ## Runs -/

/-- What the seller does with the job, and other jobs with the journal. -/
inductive SellerAction where
  | candidate (faults : List (Option Raised)) (c : CandidateCall)
  | submit (faults : List (Option Raised)) (c : SubmitCall)
  | withdraw (faults : List (Option Raised)) (c : WithdrawCall)
  | others (calls : List Lifecycle.Call)

variable (nfc validateUrl) in
/-- The world that an action leaves, however it ends. -/
def SellerAction.perform (w : World) : SellerAction → World
  | .candidate faults c => (exec (PreviewBuild.candidate nfc validateUrl c) { w with faults := faults }).2
  | .submit faults c => (exec (PreviewBuild.submit c) { w with faults := faults }).2
  | .withdraw faults c => (exec (PreviewBuild.withdraw nfc validateUrl c) { w with faults := faults }).2
  | .others calls => { w with journal := runCalls nfc validateUrl w.journal calls }

/-- A job that was created, or one whose candidate is frozen to be approved. -/
structure Fresh (w : World) : Prop where
  candidate : w.job.candidate ≠ none → ∃ key, w.job.journalKey = some key ∧
    FrozenAs w.journal key "approve"
  publication : w.job.publicationJournalKey = none
  state : w.job.state ∉ withdrawnStates
  trace : w.trace = []

/-- `submit` is not called while a frozen withdrawal of the job is not recorded. -/
def SubmitsSettled (w : World) (a : SellerAction) : Prop :=
  ∀ faults c, a = .submit faults c → Settled w

/-- `withdraw` is not called while a frozen withdrawal of the job is not recorded. -/
def WithdrawsUnasked (w : World) (a : SellerAction) : Prop :=
  ∀ faults c, a = .withdraw faults c → Unasked w.job w

theorem Fresh.inv (h : Fresh w) : Inv nfc validateUrl A W w := by
  have hkey : w.job.candidate ≠ none → ∃ key, w.job.journalKey = some key ∧
      (FrozenAs w.journal key "approve" ∨
        FrozenAs w.journal key "withdraw" ∧ w.job.publicationJournalKey ≠ none) := by
    intro hc
    obtain ⟨key, hkey, hfrozen⟩ := h.candidate hc
    exact ⟨key, hkey, Or.inl hfrozen⟩
  refine ⟨⟨⟨fun _ => h.publication, hkey, fun _ _ => h.publication⟩, ?_, ?_, ?_⟩,
    fun hs => absurd hs h.state⟩
  · intro _ r hr
    rw [h.trace] at hr
    cases hr
  · intro _
    rw [h.trace]
    exact Nat.zero_le 1
  · intro _ r hr
    rw [h.trace] at hr
    cases hr

theorem kept_runCalls : ∀ (calls : List Lifecycle.Call) (j : Journal),
    Kept j (runCalls nfc validateUrl j calls)
  | [], j => .refl j
  | c :: calls, j => (kept_changes (changes_call j c)).trans (kept_runCalls calls _)

/-- What a rule says of the world that is left. -/
theorem inv_of_triple {P : World → Prop} {x : Build Unit} (hx : Triple P x
    (fun _ => Inv nfc validateUrl A W) (Inv nfc validateUrl A W)) (hw : P w) :
    Inv nfc validateUrl A W (exec x w).2 := by
  have h := hx w hw
  revert h
  cases exec x w with
  | mk r w' =>
    cases r with
    | ok a => exact fun h => h
    | error e => exact fun h => h

/-- **An action keeps the invariant**, where it is called as it should. -/
theorem inv_perform (h : Inv nfc validateUrl A W w) (a : SellerAction)
    (hA : A → SubmitsSettled w a) (hW : W → WithdrawsUnasked w a) :
    Inv nfc validateUrl A W (a.perform nfc validateUrl w) := by
  cases a with
  | candidate faults c => exact inv_of_triple (triple_candidate c) (faultless_inv faults h)
  | submit faults c =>
    exact inv_of_triple (triple_submit c) ⟨faultless_inv faults h, fun ha => hA ha faults c rfl⟩
  | withdraw faults c =>
    exact inv_of_triple (triple_withdraw c) ⟨faultless_inv faults h, fun hw => hW hw faults c rfl⟩
  | others calls => exact h.kept (kept_runCalls calls w.journal)

end

end PreviewBuild

end AimData
