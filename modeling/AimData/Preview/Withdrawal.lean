/-
  A withdrawal that is frozen and not sent: what it leaves of a job, and what
  the seller's next action sends.

  The binding of a withdrawal is bare, whatever publication it withdraws, so
  `withdraw` gets it signed and frozen; when the send of it fails, the job holds
  the withdrawal under the key that `submit` reads, and the publication under
  the key that the next `withdraw` reads.
-/
import AimData.Preview.FlatBinding
import AimData.Preview.SellerRun

namespace AimData

namespace PreviewBuild

open Contract Lifecycle Program

/-! ## The binding of a withdrawal -/

/-- What a withdrawal sets, but for the nulls. -/
def withdrawalSets (old : List (String × Json)) (disclosureVersion requestId approvedAt : String) :
    List (String × Json) :=
  [("decision", .str "withdraw"), ("sample_decision", .str "none"),
    ("disclosure_version", .str disclosureVersion), ("request_id", .str requestId),
    ("approved_at", .str approvedAt), ("supersedes", get old "disclosure_version"),
    ("expected_current_disclosure_id", get old "disclosure_version")]

def withdrawalNulls : List (String × Json) :=
  grantNulls.map (fun key => (key, .null)) ++
    [("proof_ids", .arr []), ("schema_descriptors", .arr []), ("selected_fields", .arr [])]

section
variable {nfc : String → String} {validateUrl : String → Bool} {x : Json}
  {old : List (String × Json)} {v r t : String}

theorem get_inherit {candidate prior : List (String × Json)} {key : String}
    (hkey : key ≠ "aggregate_hash_profile") :
    get (inheritAggregateHashProfile candidate prior) key = get candidate key := by
  rw [inheritAggregateHashProfile]
  split
  · rw [get_setField, if_neg hkey]
  · have := lookup_filter_keys (fun k => decide (k ≠ "aggregate_hash_profile")) key candidate
    rw [Contract.get, this, if_pos (decide_eq_true hkey), ← Contract.get]

/-- A key of a binding that every dump has. -/
def Named (key : String) : Prop := key ∈ bindingNames ∧ key ≠ "aggregate_hash_profile"

theorem named_sets : ∀ p ∈ withdrawalSets old v r t, Named p.1 := by
  have hnames : ∀ key ∈ ["decision", "sample_decision", "disclosure_version", "request_id",
      "approved_at", "supersedes", "expected_current_disclosure_id"],
      key ∈ bindingNames ∧ key ≠ "aggregate_hash_profile" := by decide
  exact fun p hp => hnames p.1 (List.mem_map_of_mem hp)

theorem named_nulls : ∀ p ∈ withdrawalNulls, Named p.1 := by
  have hnames : ∀ key ∈ withdrawalNulls.map Prod.fst,
      key ∈ bindingNames ∧ key ≠ "aggregate_hash_profile" := by decide
  exact fun p hp => hnames p.1 (List.mem_map_of_mem hp)

theorem map_fst_inherit {candidate prior : List (String × Json)}
    (h : candidate.map Prod.fst = prior.map Prod.fst) :
    (inheritAggregateHashProfile candidate prior).map Prod.fst = prior.map Prod.fst := by
  rw [inheritAggregateHashProfile]
  split
  · rename_i p hp
    rw [map_fst_setField p, h]
    by_contra hmem
    rw [h, ← lookup_none_iff, hp] at hmem
    cases hmem
  · rename_i hp
    rw [lookup_none_iff, ← h] at hp
    rw [List.filter_eq_self.2, h]
    exact fun p hmem => decide_eq_true fun he => hp (he ▸ List.mem_map_of_mem hmem)

/-- A withdrawal has the names of its publication. -/
theorem withdrawalOf_names (h : disclosureBinding nfc x = some (.obj old)) :
    (withdrawalOf old v r t).map Prod.fst = old.map Prod.fst := by
  have hnamed : ∀ {key : String}, Named key → key ∈ old.map Prod.fst := fun hk => mem_names h hk.1 hk.2
  have hsets : (withFields (withdrawalSets old v r t) old).map Prod.fst = old.map Prod.fst :=
    map_fst_withFields fun p hp => hnamed (named_sets p hp)
  have hinherit := map_fst_inherit hsets
  refine (map_fst_withFields fun p hp => ?_).trans hinherit
  rw [show old.map Prod.fst = _ from hinherit.symm] at hnamed
  exact hnamed (named_nulls p hp)

/-- What a withdrawal sets to null or empties. -/
theorem get_withdrawal_null {key : String} {y : Json} (h : (key, y) ∈ withdrawalNulls) :
    get (withdrawalOf old v r t) key = y :=
  get_withFields_of_mem (by decide) h

theorem get_withdrawal_set {key : String} {y : Json} (h : (key, y) ∈ withdrawalSets old v r t)
    (hnull : key ∉ withdrawalNulls.map Prod.fst) : get (withdrawalOf old v r t) key = y := by
  have hset : get (withFields (withdrawalSets old v r t) old) key = y :=
    get_withFields_of_mem (show ["decision", "sample_decision", "disclosure_version", "request_id",
      "approved_at", "supersedes", "expected_current_disclosure_id"].Nodup by decide) h
  exact (get_withFields_of_notMem hnull).trans ((get_inherit (named_sets _ h).2).trans hset)

theorem get_withdrawal_kept {key : String} (hne : key ≠ "aggregate_hash_profile")
    (hset : key ∉ (withdrawalSets old v r t).map Prod.fst)
    (hnull : key ∉ withdrawalNulls.map Prod.fst) :
    get (withdrawalOf old v r t) key = get old key :=
  (get_withFields_of_notMem hnull).trans
    ((get_inherit hne).trans (get_withFields_of_notMem hset))

theorem get_withdrawal_profile :
    get (withdrawalOf old v r t) "aggregate_hash_profile" = get old "aggregate_hash_profile" := by
  refine (get_withFields_of_notMem (by decide)).trans ?_
  rw [inheritAggregateHashProfile]
  split
  · rename_i p hp
    rw [get_setField, if_pos rfl, get_of_lookup hp]
  · rename_i hp
    have := lookup_filter_keys (fun k => decide (k ≠ "aggregate_hash_profile"))
      "aggregate_hash_profile" (withFields (withdrawalSets old v r t) old)
    exact congrArg (fun o => Option.getD o Json.null)
      ((this.trans (if_neg (by simp))).trans hp.symm)

/-- The fields that a withdrawal sets. -/
def setFields : List Field :=
  [⟨"decision", literalField ["approve", "withdraw"], none⟩,
    ⟨"sample_decision", literalField ["none", "approved"], none⟩,
    ⟨"disclosure_version", uuidField, none⟩, ⟨"request_id", uuidField, none⟩,
    ⟨"approved_at", timestampField, none⟩, ⟨"supersedes", optional uuidField, none⟩,
    ⟨"expected_current_disclosure_id", optional uuidField, none⟩]

/-- The keys that a withdrawal does not keep. -/
def withdrawalKeys : List String :=
  "aggregate_hash_profile" :: setFields.map Field.name ++ withdrawalNulls.map Prod.fst

/-- What a withdrawal does with a field: it is kept, set to null or emptied, or set. -/
inductive Treated (f : Field) : Prop where
  | profile (h : f.name = "aggregate_hash_profile")
  | kept (default : f.default = none) (name : f.name ∉ withdrawalKeys)
  | null (h : (f.name, Json.null) ∈ withdrawalNulls) (type : f.type .null = some .null)
  | emptied (h : (f.name, Json.arr []) ∈ withdrawalNulls) (type : f.type (.arr []) = some (.arr []))
  | set (h : f ∈ setFields)

theorem treated_binding : ∀ f ∈ bindingFields, Treated f := by
  have hnil : ∀ f ∈ ([] : List Field), Treated f := fun f hf => by cases hf
  simp only [bindingFields, List.forall_mem_cons]
  exact ⟨.kept rfl (by decide),
    .set (by simp [setFields]),
    .kept rfl (by decide),
    .set (by simp [setFields]),
    .kept rfl (by decide),
    .kept rfl (by decide),
    .kept rfl (by decide),
    .kept rfl (by decide),
    .kept rfl (by decide),
    .kept rfl (by decide),
    .kept rfl (by decide),
    .kept rfl (by decide),
    .emptied (by decide) rfl,
    .null (by decide) rfl,
    .null (by decide) rfl,
    .set (by simp [setFields]),
    .null (by decide) rfl,
    .kept rfl (by decide),
    .profile rfl,
    .null (by decide) rfl,
    .null (by decide) rfl,
    .null (by decide) rfl,
    .emptied (by decide) rfl,
    .emptied (by decide) rfl,
    .null (by decide) rfl,
    .null (by decide) rfl,
    .null (by decide) rfl,
    .null (by decide) rfl,
    .null (by decide) rfl,
    .kept rfl (by decide),
    .set (by simp [setFields]),
    .kept rfl (by decide),
    .kept rfl (by decide),
    .kept rfl (by decide),
    .set (by simp [setFields]),
    .set (by simp [setFields]),
    .set (by simp [setFields]),
    .kept rfl (by decide),
    .kept rfl (by decide),
    .kept rfl (by decide),
    hnil⟩

/-- The publication that a withdrawal supersedes. -/
theorem disclosureVersion_uuid (h : disclosureBinding nfc x = some (.obj old)) :
    ∃ s, get old "disclosure_version" = .str s ∧ uuidField (.str s) = some (.str s) := by
  have hfield := disclosureBinding_field (f := ⟨"disclosure_version", uuidField, none⟩) h
    (by simp [bindingFields]) rfl (by decide)
  have hagain := (settles_uuid hfield).1
  dsimp only [asObj] at hagain
  cases hs : get old "disclosure_version" with
  | str s =>
    rw [hs] at hagain
    exact ⟨s, rfl, hagain⟩
  | _ =>
    rw [hs] at hagain
    cases hagain

theorem takes_set (h : disclosureBinding nfc x = some (.obj old))
    (hv : uuidField (.str v) = some (.str v)) (hr : uuidField (.str r) = some (.str r))
    (ht : timestampField (.str t) = some (.str t)) :
    ∀ f ∈ setFields, Takes f (withdrawalOf old v r t) := by
  obtain ⟨s, hs, hsuuid⟩ := disclosureVersion_uuid h
  have hset : ∀ (name : String) (type : Validator) {y : Json},
      (name, y) ∈ withdrawalSets old v r t → name ∉ withdrawalNulls.map Prod.fst →
      type y = some y → Flat y → Takes ⟨name, type, none⟩ (withdrawalOf old v r t) :=
    fun name type _ hy hnull htype hflat =>
      @Takes.of_get ⟨name, type, none⟩ _ _ (get_withdrawal_set hy hnull) htype hflat
  have hnil : ∀ f ∈ ([] : List Field), Takes f (withdrawalOf old v r t) := fun f hf => by cases hf
  simp only [setFields, List.forall_mem_cons]
  exact ⟨hset "decision" (literalField ["approve", "withdraw"]) (y := .str "withdraw")
      (by simp [withdrawalSets]) (by decide) (by decide) (by decide : 8 ≤ 255),
    hset "sample_decision" (literalField ["none", "approved"]) (y := .str "none")
      (by simp [withdrawalSets]) (by decide) (by decide) (by decide : 4 ≤ 255),
    hset "disclosure_version" uuidField (by simp [withdrawalSets]) (by decide) hv
      (settles_uuid hv).2,
    hset "request_id" uuidField (by simp [withdrawalSets]) (by decide) hr (settles_uuid hr).2,
    hset "approved_at" timestampField (by simp [withdrawalSets]) (by decide) ht
      (settles_timestamp ht).2,
    hset "supersedes" (optional uuidField) (by simp [withdrawalSets, hs]) (by decide)
      (optional_of hsuuid) (settles_uuid hsuuid).2,
    hset "expected_current_disclosure_id" (optional uuidField) (by simp [withdrawalSets, hs])
      (by decide) (optional_of hsuuid) (settles_uuid hsuuid).2, hnil⟩

/-- **A withdrawal's fields take their values as they are.** -/
theorem takes_withdrawal (h : disclosureBinding nfc x = some (.obj old))
    (hv : uuidField (.str v) = some (.str v)) (hr : uuidField (.str r) = some (.str r))
    (ht : timestampField (.str t) = some (.str t)) :
    ∀ f ∈ bindingFields, f.name ≠ "aggregate_hash_profile" → Takes f (withdrawalOf old v r t) := by
  intro f hf hne
  cases treated_binding f hf with
  | profile hname => exact absurd hname hne
  | kept hdef hname =>
    rw [withdrawalKeys, List.cons_append, List.mem_cons, List.mem_append, not_or, not_or] at hname
    have hlists : ∀ key ∈ listNames, key ∈ withdrawalNulls.map Prod.fst := by decide
    have hsettles := settles_binding f hf fun hmem => hname.2.2 (hlists _ hmem)
    obtain ⟨hagain, hflat⟩ := hsettles (disclosureBinding_field h hf hdef hne)
    exact .of_get (get_withdrawal_kept hne hname.2.1 hname.2.2) hagain hflat
  | null hnull htype => exact .of_get (get_withdrawal_null hnull) htype trivial
  | emptied hnull htype => exact .of_get (get_withdrawal_null hnull) htype rfl
  | set hset => exact takes_set h hv hr ht f hset

/-- **A withdrawal of a publication is bare.** -/
theorem withdrawal_bare (h : disclosureBinding nfc x = some (.obj old))
    (hv : uuidField (.str v) = some (.str v)) (hr : uuidField (.str r) = some (.str r))
    (ht : timestampField (.str t) = some (.str t)) (hne : get old "disclosure_version" ≠ .str v) :
    BareBinding nfc (withdrawalOf old v r t) := by
  have hset : ∀ (key : String) (y : Json), (key, y) ∈ withdrawalSets old v r t →
      key ∉ withdrawalNulls.map Prod.fst → get (withdrawalOf old v r t) key = y :=
    fun _ _ hy hnull => get_withdrawal_set hy hnull
  have hsample := hset "sample_decision" (.str "none") (by simp [withdrawalSets]) (by decide)
  refine ⟨⟨?_, ?_, ?_⟩, hsample⟩
  · rw [withdrawalOf_names h, get_withdrawal_profile]
    exact (binding_names h).imp (fun hn => ⟨hn.2.1, hn.2.2⟩) fun hn => hn.2
  · intro f hf hmem
    by_cases hname : f.name = "aggregate_hash_profile"
    · obtain rfl := field_unique hf (show (⟨"aggregate_hash_profile", optional (literalField
        ["aim-approved-aggregates-v1", "aim-approved-aggregates-v2"]), some .null⟩ : Field) ∈
          bindingFields by simp [bindingFields]) hname
      rw [withdrawalOf_names h] at hmem
      rcases binding_names h with ⟨-, -, hprofile⟩ | ⟨hnone, -⟩
      · rw [Takes, get_withdrawal_profile]
        exact takes_profile h hprofile
      · exact absurd hmem hnone
    · exact takes_withdrawal h hv hr ht f hf hname
  · obtain ⟨s, hs, -⟩ := disclosureVersion_uuid h
    have hgrants : grantKeys.all (fun key => isNull (get (withdrawalOf old v r t) key)) = true := by
      refine List.all_eq_true.2 fun key hkey => ?_
      rw [get_withdrawal_null (List.mem_append_left _ (List.mem_map_of_mem hkey))]
      rfl
    have hdecision := hset "decision" (.str "withdraw") (by simp [withdrawalSets]) (by decide)
    have hsupersedes := hset "supersedes" (.str s) (by simp [withdrawalSets, hs])
      (by decide)
    have hexpected := hset "expected_current_disclosure_id" (.str s)
      (by simp [withdrawalSets, hs]) (by decide)
    have hversion := hset "disclosure_version" (.str v) (by simp [withdrawalSets]) (by decide)
    have hempty : ∀ key ∈ ["proof_ids", "schema_descriptors", "selected_fields"],
        get (withdrawalOf old v r t) key = .arr [] := by
      intro key hkey
      refine get_withdrawal_null (List.mem_append_right _ ?_)
      simpa using hkey
    simp only [List.forall_mem_cons] at hempty
    rw [bindingRules, hdecision, hsupersedes, hexpected, hversion, hsample, hgrants, getList, getList,
      getList, hempty.1, hempty.2.1, hempty.2.2.1]
    rw [hs] at hne
    simpa using Ne.symm hne

end

/-! ## The steps of a freeze -/

section
variable {nfc : String → String} {validateUrl : String → Bool} {w : World} {d : List (String × Json)}
  {key : Key} {j : Journal} {row : Row}

/-- A transaction that does not fail. -/
theorem returns_onJournal {α : Type} {op : Option Raised → Journal → Except Raised α × Journal} {a : α}
    (hfaults : w.faults = []) (h : op none w.journal = (.ok a, j)) :
    Returns (onJournal op) w a { w with journal := j } := by
  have hexec : exec (onJournal op) w =
      ((op w.faults.head?.join w.journal).1,
        { w with faults := w.faults.tail, journal := (op w.faults.head?.join w.journal).2 }) := rfl
  rw [Returns, hexec, hfaults]
  have hop : op ([] : List (Option Raised)).head?.join w.journal = (.ok a, j) := h
  rw [hop]
  cases w
  cases hfaults
  rfl

/-- The row of one key is put, and the others stay. -/
structure Puts (j : Journal) (key : Key) (row : Row) (j' : Journal) : Prop where
  row : j'.candidates key = some row
  others : ∀ k ≠ key, j'.candidates k = j.candidates k

theorem Puts.trans {j' j'' : Journal} {row' : Row} (h : Puts j key row j')
    (h' : Puts j' key row' j'') : Puts j key row' j'' :=
  ⟨h'.row, fun k hk => (h'.others k hk).trans (h.others k hk)⟩

theorem puts_put (transitions : List Logged) :
    Puts j key row { j.put key row with transitions := transitions } :=
  ⟨Function.update_self .., fun _ hk => Function.update_of_ne hk ..⟩

theorem transaction_ok {α : Type} {body : Journal → Except Raised (α × Journal)} {a : α} {j' : Journal}
    (h : body j = .ok (a, j')) : transaction none body j = (.ok a, j') := by
  unfold transaction
  rw [h]

/-- A candidate of a new key is inserted. -/
theorem start_new {candidate : LocalCandidate} (hbinding : candidate.binding nfc = .ok d)
    (hkey : keyOf d = .ok key) (hnew : j.candidates key = none) :
    ∃ j', Lifecycle.start nfc none candidate j = (.ok key, j') ∧
      Puts j key { kind := candidate.kind, state := .building, candidate := candidate.bindingBytes } j' := by
  have hinsert : insertCandidate key candidate j = .ok (key, j.put key
      { kind := candidate.kind, state := .building, candidate := candidate.bindingBytes }) := by
    unfold insertCandidate
    rw [hnew]
  refine ⟨_, ?_, puts_put j.transitions⟩
  rw [Lifecycle.start, hbinding, Except.ok_bind, hkey]
  exact transaction_ok hinsert

/-- A row goes on to a state that follows. -/
theorem transitionRow_next {new : State} (hrow : j.candidates key = some row)
    (hnew : new ∈ transitions row.state) (hsigned : ¬ (new = .signedCandidate ∧ row.request = none)) :
    ∃ j', transitionRow key (some new) j = .ok ((), j') ∧ Puts j key { row with state := new } j' := by
  refine ⟨_, ?_, puts_put (j.transitions ++ [⟨key, row.state, new⟩])⟩
  unfold transitionRow
  rw [hrow]
  dsimp only
  rw [if_neg (not_not.2 hnew), if_neg hsigned]

theorem transition_next {new : State} (hrow : j.candidates key = some row)
    (hnew : new ∈ transitions row.state) (hne : new ∉ [State.signedCandidate, .retired]) :
    ∃ j', Lifecycle.transition none key (some new) j = (.ok (), j') ∧
      Puts j key { row with state := new } j' := by
  have hsome : some new ∉ [some State.signedCandidate, some .retired] := by
    simpa using hne
  have hsigned : ¬ (new = .signedCandidate ∧ row.request = none) := by
    rintro ⟨rfl, -⟩
    simp at hne
  obtain ⟨j', hnext, hputs⟩ := transitionRow_next hrow hnew hsigned
  refine ⟨j', ?_, hputs⟩
  rw [Lifecycle.transition, if_neg hsome]
  exact transaction_ok hnext

/-- The request of a row that is ready to sign is frozen. -/
theorem freeze_next {candidate : LocalCandidate} {request : Json} {raw : Bytes}
    (hraw : requestBytes nfc validateUrl request = .ok raw)
    (hkey : keyOf (asObj (get (asObj request) "binding")) = .ok key)
    (hcandidate : LocalCandidate.validate nfc (get (asObj request) "binding") = .ok candidate)
    (hrow : j.candidates key = some row) (hstate : row.state = .readyToSign)
    (hbytes : row.candidate = candidate.bindingBytes) (hnone : row.request = none) :
    ∃ j' digest, Lifecycle.freeze nfc validateUrl none key request j = (.ok (raw, digest), j') ∧
      Puts j key { row with state := .signedCandidate, request := some raw, digest := some digest } j' := by
  have hdigest : requestDigest nfc validateUrl request = .ok (hex (sha256 raw).1) := by
    rw [requestDigest, hraw]
    rfl
  generalize hex (sha256 raw).1 = digest at hdigest
  generalize hasked : { row with request := some raw, digest := some digest } = asked
  have hput : (j.put key asked).candidates key = some asked := Function.update_self ..
  have hnew : State.signedCandidate ∈ transitions asked.state := by
    rw [← hasked, hstate]
    decide
  obtain ⟨j', hnext, hputs⟩ := transitionRow_next hput hnew
    (fun h => by rw [← hasked] at h; cases h.2)
  have hfrozen : freezeRow nfc key (get (asObj request) "binding") raw digest j =
      .ok ((raw, digest), j') := by
    unfold freezeRow
    rw [hrow]
    dsimp only
    rw [hcandidate, Except.ok_bind, if_neg (not_not.2 hbytes), hnone]
    dsimp only
    rw [hasked, hnext]
    rfl
  have hfirst : Puts j key asked (j.put key asked) := puts_put j.transitions
  refine ⟨j', digest, ?_, ?_⟩
  · rw [Lifecycle.freeze, hraw, Except.ok_bind, hdigest, Except.ok_bind, hkey, Except.ok_bind,
      if_neg (not_not.2 rfl)]
    exact transaction_ok hfrozen
  · subst hasked
    exact hfirst.trans hputs

/-! ## The steps of an action -/

theorem returns_lift {α : Type} {x : Except Raised α} {a : α} (h : x = .ok a) :
    Returns (lift x) w a w := returns_ofExcept.2 ⟨h, rfl⟩

theorem returns_save {job : Job} (hfaults : w.faults = []) :
    Returns (save job) w () { w with job := job } := by
  cases w
  cases hfaults
  rfl

theorem returns_record (e : Event) : Returns (record e) w () { w with trace := w.trace ++ [e] } := rfl

/-- The states that a candidate goes through before it is frozen. -/
theorem returns_transitions (hfaults : w.faults = []) (hrow : w.journal.candidates key = some row)
    (hstate : row.state = .building) :
    ∃ j', Returns ([State.selected, .scanned, .hosted, .readyToSign].forM fun state =>
        onJournal fun fault => Lifecycle.transition fault key (some state)) w () { w with journal := j' } ∧
      Puts w.journal key { row with state := .readyToSign } j' := by
  obtain ⟨j₁, h1, hp1⟩ := transition_next hrow
    (show State.selected ∈ transitions row.state by rw [hstate]; decide) (by decide)
  obtain ⟨j₂, h2, hp2⟩ := transition_next hp1.row (show State.scanned ∈ transitions .selected by decide)
    (by decide)
  obtain ⟨j₃, h3, hp3⟩ := transition_next hp2.row (show State.hosted ∈ transitions .scanned by decide)
    (by decide)
  obtain ⟨j₄, h4, hp4⟩ := transition_next hp3.row (show State.readyToSign ∈ transitions .hosted by decide)
    (by decide)
  refine ⟨j₄, ?_, hp1.trans (hp2.trans (hp3.trans hp4))⟩
  refine returns_forM_cons.2 ⟨_, returns_onJournal hfaults h1, ?_⟩
  refine returns_forM_cons.2 ⟨_, returns_onJournal hfaults h2, ?_⟩
  refine returns_forM_cons.2 ⟨_, returns_onJournal hfaults h3, ?_⟩
  exact returns_forM_cons.2 ⟨_, returns_onJournal hfaults h4, returns_forM_nil.2 rfl⟩

/-- The job after a freeze. -/
def frozenJob (job : Job) (key : Key) (entry : Candidate) : Job :=
  { job with state := .signedCandidate, journalKey := some key, candidate := some entry }

/-- **A candidate of a new key is frozen.** -/
theorem returns_freeze (job : Job) {candidate : LocalCandidate} {request : Json} {raw : Bytes}
    (hfaults : w.faults = []) (hnew : w.journal.candidates key = none)
    (hvalidate : LocalCandidate.validate nfc (.obj d) = .ok candidate)
    (hbinding : candidate.binding nfc = .ok d) (hkey : keyOf d = .ok key)
    (hrequest : get (asObj request) "binding" = .obj d)
    (hraw : requestBytes nfc validateUrl request = .ok raw) :
    ∃ j' entry row', Returns (freeze nfc validateUrl job candidate request) w (frozenJob job key entry)
        { w with
          journal := j'
          job := frozenJob job key entry
          trace := w.trace ++ [.frozen job.publicationJournalKey key raw] } ∧
      Puts w.journal key row' j' ∧ row'.request = some raw := by
  obtain ⟨j₁, h1, hp1⟩ := start_new hbinding hkey hnew
  obtain ⟨j₂, h2, hp2⟩ := returns_transitions (w := { w with journal := j₁ }) hfaults hp1.row rfl
  obtain ⟨j₃, digest, h3, hp3⟩ := freeze_next hraw
    (by rw [hrequest]; exact hkey) (by rw [hrequest]; exact hvalidate) hp2.row rfl rfl rfl
  obtain ⟨entry, hentry⟩ : ∃ entry, candidateOf nfc validateUrl request = .ok entry := by
    rw [candidateOf, requestDigest, hraw]
    exact ⟨_, rfl⟩
  refine ⟨j₃, entry, _, ?_, hp1.trans (hp2.trans hp3), rfl⟩
  refine returns_bind.2 ⟨key, _, returns_onJournal hfaults h1, ?_⟩
  refine returns_bind.2 ⟨(), _, h2, ?_⟩
  refine returns_bind.2 ⟨(), { w with
    journal := j₃
    trace := w.trace ++ [.frozen job.publicationJournalKey key raw] }, ?_, ?_⟩
  · exact returns_bind.2 ⟨(raw, digest), _, returns_onJournal hfaults h3, returns_record _⟩
  · refine returns_bind.2 ⟨entry, _, returns_lift hentry, ?_⟩
    exact returns_bind.2 ⟨(), _, returns_save hfaults, returns_pure.2 ⟨rfl, rfl⟩⟩

/-- An action that leaves no worker. -/
theorem exec_releaseOnExit {α : Type} {x : Build α} {r : Except Raised α} {w' : World}
    (h : exec x w = (r, w')) (hlive : w'.live = .none) : exec (releaseOnExit x) w = (r, w') := by
  have hworld : Returns world w' w' w' := rfl
  have hrelease : exec release w' = (.ok (), w') := by
    rw [release, hworld.exec_bind, if_pos hlive]
    rfl
  rw [releaseOnExit, exec_andFinally, h]
  dsimp only
  rw [hrelease]

/-- A job at rest whose publication is under `key`. -/
structure Offered (w : World) (key : Key) : Prop where
  faults : w.faults = []
  live : w.live = .none
  scan : w.job.legacyScan = false
  state : w.job.state = .signedCandidate
  candidate : w.job.candidate ≠ none
  publication : w.job.publication ≠ none
  key : publicationKeyOf w.job = .ok (some key)

theorem Offered.load (h : Offered w key) {c : LoadCall} (howned : c.owned = .ok ()) :
    Returns (load c) w w.job w := by
  have hdatabase : Returns database w () w := by
    have hfaults := h.faults
    cases w
    cases hfaults
    rfl
  have hworld : Returns world w w w := rfl
  have hupgrade : Returns (upgrade w.job) w w.job w := by
    rw [upgrade, h.scan, if_neg Bool.false_ne_true]
    rfl
  have hinteract : Returns (interact c w.live w.job) w w.job w := by
    rw [interact, h.live, h.state, if_neg (by decide), if_neg (by decide)]
    rfl
  refine returns_bind.2 ⟨(), w, hdatabase, returns_bind.2 ⟨w, w, hworld, ?_⟩⟩
  refine returns_bind.2 ⟨w.job, w, hupgrade, ?_⟩
  exact returns_bind.2 ⟨(), w, returns_lift howned, hinteract⟩

/-- The request that is frozen under a key. -/
theorem returns_readRequest {raw : Bytes} {r : Json} (hfaults : w.faults = [])
    (hrow : w.journal.candidates key = some row) (hraw : row.request = some raw)
    (hloads : loads raw = some r) : Returns (readRequest key) w r w := by
  have hread : Lifecycle.read none key w.journal = (.ok row, w.journal) := by
    refine transaction_ok ?_
    rw [hrow]
  refine returns_bind.2 ⟨row, w, returns_onJournal hfaults hread, ?_⟩
  rw [hraw]
  refine returns_lift ?_
  rw [loadJson, hloads]

/-! ## A withdrawal that is not sent -/

/-- A publication under a key: its request is frozen, and names the binding. -/
structure Publishes (nfc : String → String) (w : World) (key : Key) (old : List (String × Json)) :
    Prop where
  frozen : ∃ row raw r, w.journal.candidates key = some row ∧ row.request = some raw ∧
    loads raw = some r ∧ decisionOf r = .str "approve" ∧
    disclosureBinding nfc (.obj (bindingOf r)) = some (.obj old)

/-- A call of `withdraw` whose send fails, and what ai.market allocates for it. -/
structure Unsent (nfc : String → String) (old : List (String × Json)) (c : WithdrawCall)
    (answer : List (String × Json)) (key' : Key) : Prop where
  owned : c.load.owned = .ok ()
  disclosureVersion : uuidField (.str c.disclosureVersion) = some (.str c.disclosureVersion)
  requestId : uuidField (.str c.requestId) = some (.str c.requestId)
  approvedAt : timestampField (.str c.approvedAt) = some (.str c.approvedAt)
  fresh : get old "disclosure_version" ≠ .str c.disclosureVersion
  allocate : c.allocate = .ok [("binding", .obj answer)]
  bare : BareBinding nfc answer
  signer : ∃ signer, c.signer = .ok signer ∧ Signs signer answer
  key : keyOf answer = .ok key'
  response : ∃ e, c.response = .error e

/-- The world after a withdrawal that is frozen and not sent. -/
structure LeftUnsent (nfc : String → String) (validateUrl : String → Bool) (w : World) (key : Key)
    (old answer : List (String × Json)) (c : WithdrawCall) (key' : Key) (w' : World) : Prop where
  offered : Offered w' key
  journalKey : w'.job.journalKey = some key'
  sourceVersion : w'.job.sourceVersion = w.job.sourceVersion
  others : ∀ k ≠ key', w'.journal.candidates k = w.journal.candidates k
  frozen : ∃ signature raw row, w'.journal.candidates key' = some row ∧ row.request = some raw ∧
    requestBytes nfc validateUrl (bareRequest answer signature) = .ok raw ∧
    w'.trace = w.trace ++ [.allocated (.obj (withdrawalOf old c.disclosureVersion c.requestId
      c.approvedAt)), .frozen (some key) key' raw, .sent .withdraw (bareRequest answer signature)]

variable (validateUrl) in
/-- What `withdraw` asks ai.market for, gets and freezes. -/
theorem returns_withdrawalRequest {old answer : List (String × Json)} {c : WithdrawCall} {key' : Key}
    (job : Job) (hfaults : w.faults = []) (hpublication : job.publicationJournalKey = some key)
    (hpublishes : Publishes nfc w key old) (hcall : Unsent nfc old c answer key')
    (hnew : w.journal.candidates key' = none) :
    ∃ signature raw j' entry row,
      Returns (withdrawalRequest nfc validateUrl c job key) w
        (frozenJob job key' entry, bareRequest answer signature)
        { w with
          journal := j'
          job := frozenJob job key' entry
          trace := w.trace ++ [.allocated (.obj (withdrawalOf old c.disclosureVersion c.requestId
            c.approvedAt)), .frozen (some key) key' raw] } ∧
      Puts w.journal key' row j' ∧ row.request = some raw ∧
      requestBytes nfc validateUrl (bareRequest answer signature) = .ok raw := by
  obtain ⟨row, raw, r, hrow, hraw, hloads, hdecision, hold⟩ := hpublishes.frozen
  obtain ⟨signer, hsigner, hsigns⟩ := hcall.signer
  have hproposed := (withdrawal_bare hold hcall.disclosureVersion hcall.requestId hcall.approvedAt
    hcall.fresh).flat.candidate
  have hanswer := hcall.bare.flat.candidate
  obtain ⟨signature, hsignature, hrequest⟩ :=
    constructRequest_bare validateUrl hanswer.2 hcall.bare hsigns
  have hbytes := bareRequest_bytes validateUrl hcall.bare hsignature
  generalize hwd : withdrawalOf old c.disclosureVersion c.requestId c.approvedAt = wd at hproposed
  generalize Utf8.encode (Json.obj (bareNormal answer signature)).dumps = frozen at hbytes
  have hcandidate : withdrawalCandidate nfc (.obj (bindingOf r)) c.disclosureVersion c.requestId
      c.approvedAt = .ok ⟨bindingBytes wd, "marketplace_candidate"⟩ := by
    rw [withdrawalCandidate, closed, hold, Except.ok_bind, asObj, hwd]
    exact hproposed.1
  have hallocate : Returns (allocate (.obj wd) c.allocate) w answer
      { w with trace := w.trace ++ [.allocated (.obj wd)] } := by
    refine returns_bind.2 ⟨(), _, returns_record _, ?_⟩
    refine returns_bind.2 ⟨[("binding", .obj answer)], _, returns_lift ?_, returns_pure.2 ⟨rfl, rfl⟩⟩
    rw [hcall.allocate]
    rfl
  obtain ⟨j', entry, row', hfreeze, hputs, hrow'⟩ := returns_freeze
    (w := { w with trace := w.trace ++ [.allocated (.obj wd)] }) job hfaults hnew hanswer.1 hanswer.2
    hcall.key rfl hbytes
  refine ⟨signature, frozen, j', entry, row', ?_, hputs, hrow', hbytes⟩
  refine returns_bind.2 ⟨r, w, returns_readRequest hfaults hrow hraw hloads, ?_⟩
  rw [if_neg (by rw [hdecision]; decide)]
  refine returns_bind.2 ⟨_, w, returns_lift hcandidate, ?_⟩
  refine returns_bind.2 ⟨wd, w, returns_lift hproposed.2, ?_⟩
  refine returns_bind.2 ⟨answer, _, hallocate, ?_⟩
  refine returns_bind.2 ⟨_, _, returns_lift hanswer.1, ?_⟩
  refine returns_bind.2 ⟨_, _, returns_lift (p1Of_flat hcall.bare.flat), ?_⟩
  refine returns_bind.2 ⟨signer, _, returns_lift hsigner, ?_⟩
  refine returns_bind.2 ⟨_, _, returns_lift hrequest, ?_⟩
  refine returns_bind.2 ⟨_, _, hfreeze, ?_⟩
  rw [returns_pure, hpublication, List.append_assoc, ← hwd]
  exact ⟨rfl, rfl⟩

/-- A send that fails. -/
theorem fails_send (w : World) (action : Action) (request : Json) {response : Except Raised Unit}
    {e : Raised} (h : response = .error e) : ∃ e', Fails (send action request response) w e'
      { w with trace := w.trace ++ [.sent action request] } := by
  obtain ⟨e', he⟩ : ∃ e', transportError response = .error e' := by
    rw [h]
    exact ⟨_, rfl⟩
  refine ⟨e', ?_⟩
  rw [Fails, send, (returns_record (.sent action request)).exec_bind, he]
  rfl

/-- **`withdraw` whose send fails** leaves the withdrawal frozen under the job's key. -/
theorem withdraw_unsent {old answer : List (String × Json)} {c : WithdrawCall} {key' : Key}
    (hoffered : Offered w key) (hpublishes : Publishes nfc w key old)
    (hcall : Unsent nfc old c answer key') (hnew : w.journal.candidates key' = none) :
    LeftUnsent nfc validateUrl w key old answer c key' (exec (withdraw nfc validateUrl c) w).2 := by
  obtain ⟨e, hresponse⟩ := hcall.response
  obtain ⟨publication, hpublication⟩ := Option.ne_none_iff_exists'.1 hoffered.publication
  obtain ⟨signature, raw, j', entry, row, hrequest, hputs, hrow, hraw⟩ :=
    returns_withdrawalRequest validateUrl { w.job with publicationJournalKey := some key }
      hoffered.faults rfl hpublishes hcall hnew
  generalize hw₁ : ({ w with
    journal := j'
    job := frozenJob { w.job with publicationJournalKey := some key } key' entry
    trace := w.trace ++ [.allocated (.obj (withdrawalOf old c.disclosureVersion c.requestId
      c.approvedAt)), .frozen (some key) key' raw] } : World) = w₁ at hrequest
  obtain ⟨e', hsend⟩ := fails_send w₁ .withdraw (bareRequest answer signature) hresponse
  have hpublished : Fails (withdrawPublished nfc validateUrl c w.job key) w e'
      { w₁ with trace := w₁.trace ++ [.sent .withdraw (bareRequest answer signature)] } := by
    rw [Fails, withdrawPublished, hrequest.exec_bind]
    exact hsend.bind _
  have hlive : w₁.live = .none := by
    rw [← hw₁]
    exact hoffered.live
  have hrun : exec (withdraw nfc validateUrl c) w = (.error e',
      { w₁ with trace := w₁.trace ++ [.sent .withdraw (bareRequest answer signature)] }) := by
    refine exec_releaseOnExit ?_ hlive
    rw [(hoffered.load hcall.owned).exec_bind]
    have hpackaged : packaged w.job = .ok publication := by
      rw [packaged, hpublication]
    rw [(returns_lift hpackaged).exec_bind, (returns_lift hoffered.key).exec_bind]
    refine Fails.bind ?_ _
    rw [withdrawnJob, if_neg (by rw [hoffered.state]; decide)]
    exact hpublished
  rw [hrun, ← hw₁]
  refine ⟨⟨hoffered.faults, hoffered.live, hoffered.scan, rfl, Option.some_ne_none _,
    hoffered.publication, rfl⟩, rfl, rfl, hputs.others, signature, raw, row, hputs.row, hrow, hraw, ?_⟩
  rw [List.append_assoc]
  rfl

/-- A publication stays under its key. -/
theorem LeftUnsent.publishes {old answer : List (String × Json)} {c : WithdrawCall} {key' : Key}
    {w' : World} (h : LeftUnsent nfc validateUrl w key old answer c key' w')
    (hpublishes : Publishes nfc w key old) (hnew : w.journal.candidates key' = none) :
    Publishes nfc w' key old := by
  obtain ⟨row, raw, r, hrow, hrest⟩ := hpublishes.frozen
  refine ⟨row, raw, r, ?_, hrest⟩
  rw [h.others key fun he => ?_]
  · exact hrow
  · rw [he, hnew] at hrow
    cases hrow

/-- **`submit` sends what is frozen under the job's key**, whatever it is. -/
theorem submit_sends {c : SubmitCall} {key' : Key} {raw : Bytes} {r : Json} {e : Raised}
    (hoffered : Offered w key) (hkey : w.job.journalKey = some key')
    (hrow : w.journal.candidates key' = some row) (hraw : row.request = some raw)
    (hloads : loads raw = some r) (hload : c.load.owned = .ok ()) (howned : c.owned = .ok ())
    (hversion : c.version = .ok w.job.sourceVersion) (hresponse : c.response = .error e) :
    (exec (submit c) w).2.trace = w.trace ++ [.sent .approve r] := by
  obtain ⟨e', hsend⟩ := fails_send w .approve r hresponse
  obtain ⟨entry, hentry⟩ := Option.ne_none_iff_exists'.1 hoffered.candidate
  have hcheck : Returns (checkSource c.version w.job) w () w := by
    rw [checkSource, hoffered.state, if_neg (by decide), if_neg (by decide)]
    refine returns_bind.2 ⟨w.job.sourceVersion, w, returns_lift hversion, ?_⟩
    rw [if_neg (not_not.2 rfl)]
    exact returns_pure.2 ⟨rfl, rfl⟩
  have hjournalKey : journalKeyOf w.job = .ok key' := by
    rw [journalKeyOf, hkey]
  have hrun : exec (submit c) w = (.error e', { w with trace := w.trace ++ [.sent .approve r] }) := by
    refine exec_releaseOnExit ?_ hoffered.live
    rw [(hoffered.load hload).exec_bind, hcheck.exec_bind, hentry,
      if_neg (show ¬ (some entry).isNone = true from Bool.false_ne_true),
      (returns_lift howned).exec_bind, (returns_lift hjournalKey).exec_bind,
      (returns_readRequest hoffered.faults hrow hraw hloads).exec_bind]
    exact hsend.bind _
  rw [hrun]

end

end PreviewBuild

end AimData
