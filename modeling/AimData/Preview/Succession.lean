/-
  The candidates that follow a publication: its withdrawal, its refresh, and the
  binding that supersedes it.

  A dump takes its own values (`dump_own`), so what a candidate keeps of the
  publication is dumped as it was.
-/
import AimData.Preview.SellerOrder

namespace AimData

namespace PreviewBuild

open Contract Lifecycle

/-! ## Candidates -/

/-- What a refresh sets. -/
def refreshSets (old : List (String × Json)) (disclosureVersion requestId attestedAt : String)
    (cadenceDays : Json) : List (String × Json) :=
  [("decision", .str "approve"), ("disclosure_version", .str disclosureVersion),
    ("request_id", .str requestId), ("approved_at", .str attestedAt),
    ("last_attested_by_seller_at", .str attestedAt), ("update_cadence_days", cadenceDays),
    ("supersedes", get old "disclosure_version"),
    ("expected_current_disclosure_id", get old "disclosure_version")]

/-- What `refresh_candidate` makes of the binding of a publication. -/
def refreshOf (old : List (String × Json)) (disclosureVersion requestId attestedAt : String)
    (cadenceDays : Json) : List (String × Json) :=
  inheritAggregateHashProfile
    (withFields (refreshSets old disclosureVersion requestId attestedAt cadenceDays) old) old

/-- What `supersession_candidate` makes of a replacement. -/
def supersessionOf (old b : List (String × Json)) : List (String × Json) :=
  inheritAggregateHashProfile
    (withFields [("supersedes", get old "disclosure_version"),
      ("expected_current_disclosure_id", get old "disclosure_version")] b) old

section
variable (nfc : String → String)

/-- `refresh_candidate`; the times are compared as texts. -/
def refreshCandidate (prior : Json) (disclosureVersion requestId attestedAt : String)
    (cadenceDays : Json) : Except Raised LocalCandidate := do
  let old := asObj (← closed (disclosureBinding nfc) prior)
  if get old "sample_decision" ≠ .str "approved" then
    Lifecycle.refuse "refresh_requires_approval"
  else
    let b := refreshOf old disclosureVersion requestId attestedAt cadenceDays
    if codePoints (getStr b "last_attested_by_seller_at") ≤
        codePoints (getStr old "last_attested_by_seller_at") then
      Lifecycle.refuse "refresh_time_not_new"
    else LocalCandidate.validate nfc (.obj b)

/-- `supersession_candidate` -/
def supersessionCandidate (prior replacement : Json) : Except Raised LocalCandidate := do
  let old := asObj (← closed (disclosureBinding nfc) prior)
  let b := asObj (← closed (disclosureBinding nfc) replacement)
  if get b "seller_id" ≠ get old "seller_id" ∨ get b "listing_id" ≠ get old "listing_id" ∨
      get b "request_id" = get old "request_id" ∨ get b "sample_decision" ≠ .str "approved" then
    Lifecycle.refuse "supersession_mismatch"
  else LocalCandidate.validate nfc (.obj (supersessionOf old b))

end

/-! ## A dump takes its own values -/

theorem mapM_again {f : Validator} (hf : ∀ v w, f v = some w → f w = some w) :
    ∀ {l m : List Json}, l.mapM f = some m → m.mapM f = some m ∧ m.length = l.length := by
  intro l
  induction l with
  | nil =>
    intro m h
    cases h
    exact ⟨rfl, rfl⟩
  | cons v l ih =>
    intro m h
    simp only [List.mapM_cons, Option.bind_eq_bind, Option.bind_eq_some_iff] at h
    obtain ⟨w, hw, m', hm, h⟩ := h
    cases h
    obtain ⟨hagain, hlength⟩ := ih hm
    refine ⟨?_, by simp [hlength]⟩
    rw [List.mapM_cons, hf v w hw, hagain]
    rfl

theorem listField_again {f : Validator} (hf : ∀ v w, f v = some w → f w = some w) {min max : ℕ}
    {v w : Json} (h : listField f min max v = some w) : listField f min max w = some w := by
  cases v with
  | arr l =>
    rw [listField] at h
    split_ifs at h with hl
    obtain ⟨m, hm, rfl⟩ := Option.map_eq_some_iff.1 h
    obtain ⟨hagain, hlength⟩ := mapM_again hf hm
    rw [listField, hlength, if_pos hl, hagain]
    rfl
  | _ => cases h

theorem anyList_again {max : ℕ} {v w : Json} (h : anyList max v = some w) :
    anyList max w = some w := by
  cases v with
  | arr l =>
    rw [anyList] at h
    split_ifs at h with hl
    cases h
    rw [anyList, if_pos hl]
  | _ => cases h

/-- A list of a binding is dumped again as it is. -/
theorem type_again : ∀ f ∈ bindingFields, f.name ∈ listNames →
    ∀ {v w : Json}, f.type v = some w → f.type w = some w := by
  intro f hf hlist v w h
  rw [listNames] at hlist
  simp only [List.mem_cons, List.not_mem_nil, or_false] at hlist
  rcases hlist with hname | hname | hname
  · obtain rfl := field_unique hf (show (⟨"selected_fields",
      listField (textWhere fun s => 1 ≤ s.length ∧ s.length ≤ 255) 0 25, none⟩ : Field) ∈
        bindingFields by simp [bindingFields]) hname
    exact listField_again (fun v w hv => (settles_textWhere (fun hs => by simpa using
      (of_decide_eq_true hs).2) hv).1) h
  · obtain rfl := field_unique hf (show (⟨"schema_descriptors", anyList 500, none⟩ : Field) ∈
      bindingFields by simp [bindingFields]) hname
    exact anyList_again h
  · obtain rfl := field_unique hf (show (⟨"proof_ids", listField uuidField 0 100, none⟩ : Field) ∈
      bindingFields by simp [bindingFields]) hname
    exact listField_again (fun v w hv => (settles_uuid hv).1) h

theorem default_none : ∀ f ∈ bindingFields, f.name ≠ "aggregate_hash_profile" →
    f.default = none := by
  simp [bindingFields]

section
variable {nfc : String → String} {x : Json} {old b d : List (String × Json)} {key : String}

/-- **A dump takes its own values**, and meets the rules. -/
theorem dump_own (h : disclosureBinding nfc x = some (.obj d)) : OwnDump nfc d := by
  refine ⟨(binding_names h).imp (fun hn => ⟨hn.2.1, hn.2.2⟩) fun hn => hn.2, ?_, ?_⟩
  · intro f hf hmem
    by_cases hname : f.name = "aggregate_hash_profile"
    · obtain rfl := field_unique hf (show (⟨"aggregate_hash_profile", optional (literalField
        ["aim-approved-aggregates-v1", "aim-approved-aggregates-v2"]), some .null⟩ : Field) ∈
          bindingFields by simp [bindingFields]) hname
      rcases binding_names h with ⟨-, -, hprofile⟩ | ⟨hnone, -⟩
      · exact (takes_profile h hprofile).1
      · exact absurd hmem hnone
    · have hfield := disclosureBinding_field h hf (default_none f hf hname) hname
      by_cases hlist : f.name ∈ listNames
      · exact type_again f hf hlist hfield
      · exact (settles_binding f hf hlist hfield).1
  · obtain ⟨_, r, -, hr, -, hrules⟩ := disclosureBinding_some h
    cases hr
    exact (bindingRules_congr fun key _ => get_dropLegacyProfile r key).trans hrules

/-- A key that is no name has no value. -/
theorem OwnDump.get_of_notMem (h : OwnDump nfc d) (hkey : key ∉ bindingNames) :
    get d key = .null := by
  rw [Contract.get, lookup_none_iff.2 fun hmem => hkey (h.named hmem)]
  rfl

theorem OwnDump.type (h : OwnDump nfc d) {f : Field} (hf : f ∈ bindingFields)
    (hname : f.name ≠ "aggregate_hash_profile") : f.type (get d f.name) = some (get d f.name) := by
  refine h.types f hf ?_
  rcases h.names with ⟨hnames, -⟩ | hnames
  · exact hnames ▸ List.mem_map_of_mem hf
  · rw [hnames]
    exact List.mem_filter.2 ⟨List.mem_map_of_mem hf, decide_eq_true hname⟩

/-- **A value that a candidate keeps** of a dump is dumped as it was. -/
theorem get_kept (hold : OwnDump nfc old) (h : disclosureBinding nfc (.obj b) = some (.obj d))
    (hne : key ≠ "aggregate_hash_profile") (hkey : get b key = get old key) :
    get d key = get old key := by
  by_cases hmem : key ∈ bindingNames
  · obtain ⟨f, hf, rfl⟩ := List.mem_map.1 hmem
    have hfield := disclosureBinding_field h hf (default_none f hf hne) hne
    rw [show asObj (.obj b) = b from rfl, hkey, hold.type hf hne] at hfield
    exact (Option.some.inj hfield).symm
  · rw [(dump_own h).get_of_notMem hmem, hold.get_of_notMem hmem]

theorem lookup_setField_self (key : String) (y : Json) : ∀ c : List (String × Json),
    (Json.setField key y c).lookup key = some y := by
  intro c
  induction c with
  | nil => simp [Json.setField]
  | cons p c ih =>
    obtain ⟨k, v⟩ := p
    rw [Json.setField]
    split_ifs with hk
    · simp
    · simp [List.lookup_cons, beq_eq_false_iff_ne.2 (Ne.symm hk), ih]

/-- The profile that a candidate inherits. -/
theorem get_inherited {c : List (String × Json)} (hold : disclosureBinding nfc x = some (.obj old))
    (h : disclosureBinding nfc (.obj (inheritAggregateHashProfile c old)) = some (.obj d)) :
    get d "aggregate_hash_profile" = get old "aggregate_hash_profile" := by
  have hprofile := binding_profile h
  rw [inheritAggregateHashProfile] at hprofile
  cases hl : old.lookup "aggregate_hash_profile" with
  | none =>
    have hdropped : (c.filter fun p => p.1 ≠ "aggregate_hash_profile").lookup
        "aggregate_hash_profile" = none :=
      (lookup_filter_keys (fun k => decide (k ≠ "aggregate_hash_profile")) _ c).trans
        (if_neg (by simp))
    simp only [hl, hdropped, true_and, reduceCtorEq, false_and, exists_false, or_false] at hprofile
    rw [hprofile, Contract.get, hl]
    rfl
  | some y =>
    have hne : get old "aggregate_hash_profile" ≠ .null := by
      rcases binding_names hold with ⟨-, -, hne⟩ | ⟨hnone, -⟩
      · exact hne
      · rw [lookup_none_iff.2 hnone] at hl
        cases hl
    have htype := (takes_profile hold hne).1
    rw [get_of_lookup hl] at htype ⊢
    have hset : (Json.setField "aggregate_hash_profile" y c).lookup "aggregate_hash_profile" =
        some y := lookup_setField_self _ _ _
    simp only [hl, hset, reduceCtorEq, false_and, false_or, Option.some.injEq,
      exists_eq_left'] at hprofile
    exact (Option.some.inj (htype.symm.trans hprofile)).symm

/-! ## What candidates carry -/

/-- A candidate carries a binding that meets all the rules. -/
structure Carries (nfc : String → String) (c : LocalCandidate) (d : List (String × Json)) :
    Prop where
  kind : c.kind = "marketplace_candidate"
  bytes : canonicalJsonBytes (.obj d) = .ok c.bindingBytes
  own : OwnDump nfc d

/-- A binding names another as its predecessor and as the head. -/
structure Follows (old d : List (String × Json)) : Prop where
  supersedes : get d "supersedes" = get old "disclosure_version"
  expected : get d "expected_current_disclosure_id" = get old "disclosure_version"

theorem validate_carries {c : LocalCandidate} (h : LocalCandidate.validate nfc (.obj b) = .ok c) :
    ∃ d, disclosureBinding nfc (.obj b) = some (.obj d) ∧ Carries nfc c d := by
  obtain ⟨bytes, hbytes, h⟩ := Except.bind_eq_ok.1 h
  cases h
  obtain ⟨dump, hdump, hbytes⟩ := Except.bind_eq_ok.1 hbytes
  have hclosed := closed_ok hdump
  obtain ⟨_, r, -, rfl, -, -⟩ := disclosureBinding_some hclosed
  refine ⟨_, hclosed, rfl, ?_, dump_own hclosed⟩
  rw [signingJsonBytes] at hbytes
  split at hbytes
  · rename_i raw hraw
    cases hbytes
    exact hraw
  · cases hbytes

theorem FlatBinding.carries (h : FlatBinding nfc d) :
    Carries nfc ⟨bindingBytes d, "marketplace_candidate"⟩ d :=
  ⟨rfl, h.bytes, h.own⟩

theorem FlatBinding.validate (h : FlatBinding nfc d)
    (hd : disclosureBinding nfc (.obj b) = some (.obj d)) :
    LocalCandidate.validate nfc (.obj b) = .ok ⟨bindingBytes d, "marketplace_candidate"⟩ := by
  have hserialize : AimData.serialize (disclosureBinding nfc) (.obj b) = .ok (bindingBytes d) := by
    rw [AimData.serialize, closed, hd]
    show signingJsonBytes (.obj d) = _
    rw [signingJsonBytes, h.bytes]
  rw [LocalCandidate.validate, hserialize]
  rfl

/-- The predecessor that a candidate is given is the one it names. -/
theorem follows_of (hold : disclosureBinding nfc x = some (.obj old))
    (h : disclosureBinding nfc (.obj b) = some (.obj d))
    (hsupersedes : get b "supersedes" = get old "disclosure_version")
    (hexpected : get b "expected_current_disclosure_id" = get old "disclosure_version") :
    Follows old d := by
  obtain ⟨s, hs, huuid⟩ := disclosureVersion_uuid hold
  have hnamed : ∀ key ∈ ["supersedes", "expected_current_disclosure_id"],
      get b key = get old "disclosure_version" → get d key = get old "disclosure_version" := by
    intro key hkey hb
    have hfield : optional uuidField (get b key) = some (get d key) :=
      disclosureBinding_field (f := ⟨key, optional uuidField, none⟩) h
      (by
        simp only [List.mem_cons, List.not_mem_nil, or_false] at hkey
        rcases hkey with rfl | rfl <;> simp [bindingFields]) rfl
      (by
        simp only [List.mem_cons, List.not_mem_nil, or_false] at hkey
        rcases hkey with rfl | rfl <;> decide)
    rw [hb, hs, optional_of huuid] at hfield
    exact hs ▸ (Option.some.inj hfield).symm
  exact ⟨hnamed "supersedes" (by simp) hsupersedes,
    hnamed "expected_current_disclosure_id" (by simp) hexpected⟩

/-! ## Withdrawals -/

/-- A text that a field reads as another, and that passes among metadata. -/
structure Reads (type : Validator) (raw read : String) : Prop where
  type : type (.str raw) = some (.str read)
  length : raw.length ≤ maxMetadataString

/-- The keys whose texts a withdrawal is given. -/
def givenKeys : List String := ["disclosure_version", "request_id", "approved_at"]

variable {v v' r r' t t' : String}

theorem get_withdrawal_congr (hkey : key ∉ givenKeys) :
    get (withdrawalOf old v r t) key = get (withdrawalOf old v' r' t') key := by
  by_cases hprofile : key = "aggregate_hash_profile"
  · rw [hprofile, get_withdrawal_profile, get_withdrawal_profile]
  by_cases hnull : key ∈ withdrawalNulls.map Prod.fst
  · obtain ⟨⟨k, y⟩, hp, rfl⟩ := List.mem_map.1 hnull
    rw [get_withdrawal_null hp, get_withdrawal_null hp]
  by_cases hset : key ∈ (withdrawalSets old v r t).map Prod.fst
  · simp only [withdrawalSets, List.map_cons, List.map_nil, List.mem_cons, List.not_mem_nil,
      or_false] at hset
    simp only [givenKeys, List.mem_cons, List.not_mem_nil, or_false, not_or] at hkey
    obtain ⟨hversion, hrequest, happroved⟩ := hkey
    rcases hset with rfl | rfl | rfl | rfl | rfl | rfl | rfl
    · rw [get_withdrawal_set (y := .str "withdraw") (by simp [withdrawalSets]) hnull,
        get_withdrawal_set (y := .str "withdraw") (by simp [withdrawalSets]) hnull]
    · rw [get_withdrawal_set (y := .str "none") (by simp [withdrawalSets]) hnull,
        get_withdrawal_set (y := .str "none") (by simp [withdrawalSets]) hnull]
    · exact absurd rfl hversion
    · exact absurd rfl hrequest
    · exact absurd rfl happroved
    · rw [get_withdrawal_set (y := get old "disclosure_version") (by simp [withdrawalSets]) hnull,
        get_withdrawal_set (y := get old "disclosure_version") (by simp [withdrawalSets]) hnull]
    · rw [get_withdrawal_set (y := get old "disclosure_version") (by simp [withdrawalSets]) hnull,
        get_withdrawal_set (y := get old "disclosure_version") (by simp [withdrawalSets]) hnull]
  · have hset' : key ∉ (withdrawalSets old v' r' t').map Prod.fst := by
      simpa [withdrawalSets] using hset
    rw [get_withdrawal_kept hprofile hset hnull, get_withdrawal_kept hprofile hset' hnull]

/-- What a withdrawal is given. -/
theorem get_withdrawal_given :
    get (withdrawalOf old v r t) "disclosure_version" = .str v ∧
      get (withdrawalOf old v r t) "request_id" = .str r ∧
      get (withdrawalOf old v r t) "approved_at" = .str t :=
  ⟨get_withdrawal_set (by simp [withdrawalSets]) (by decide),
    get_withdrawal_set (by simp [withdrawalSets]) (by decide),
    get_withdrawal_set (by simp [withdrawalSets]) (by decide)⟩

theorem type_of_get {f : Field} {n : List (String × Json)} {type : Validator} {y z : Json}
    (hf : f ∈ bindingFields) (hg : (⟨key, type, none⟩ : Field) ∈ bindingFields) (hname : f.name = key)
    (hn : get n key = y) (hd : get d key = z) (htype : type y = some z) :
    f.type (get n f.name) = some (get d f.name) := by
  obtain rfl := field_unique hf hg hname
  rw [hn, hd]
  exact htype

/-- A withdrawal is dumped with the texts that its fields read. -/
theorem withdrawal_dump (h : disclosureBinding nfc x = some (.obj old)) (hv : Reads uuidField v v')
    (hr : Reads uuidField r r') (ht : Reads timestampField t t')
    (hbare : BareBinding nfc (withdrawalOf old v' r' t')) :
    disclosureBinding nfc (.obj (withdrawalOf old v r t)) =
      some (.obj (withdrawalOf old v' r' t')) := by
  have hnames : (withdrawalOf old v r t).map Prod.fst = (withdrawalOf old v' r' t').map Prod.fst :=
    (withdrawalOf_names h).trans (withdrawalOf_names h).symm
  have hnodup : ((withdrawalOf old v r t).map Prod.fst).Nodup := hnames ▸ hbare.flat.nodup
  obtain ⟨hversion, hrequest, happroved⟩ := @get_withdrawal_given old v r t
  obtain ⟨hversion', hrequest', happroved'⟩ := @get_withdrawal_given old v' r' t'
  have hpasses : ∀ p ∈ withdrawalOf old v r t,
      safeMetadata p.2 = true ∧ metadataOnly p.2 1 = true := by
    intro p hp
    have htext : ∀ raw : String, raw.length ≤ maxMetadataString →
        safeMetadata (.str raw) = true ∧ metadataOnly (.str raw) 1 = true :=
      fun raw hraw => ⟨rfl, by simpa [metadataOnly, maxMetadataDepth] using hraw⟩
    rw [← get_of_mem hnodup hp]
    by_cases hgiven : p.1 ∈ givenKeys
    · simp only [givenKeys, List.mem_cons, List.not_mem_nil, or_false] at hgiven
      rcases hgiven with hname | hname | hname
      · rw [hname, hversion]
        exact htext v hv.length
      · rw [hname, hrequest]
        exact htext r hr.length
      · rw [hname, happroved]
        exact htext t ht.length
    · rw [show get (withdrawalOf old v r t) p.1 = get (withdrawalOf old v' r' t') p.1 from
        get_withdrawal_congr hgiven]
      have hmem : p.1 ∈ (withdrawalOf old v' r' t').map Prod.fst :=
        hnames ▸ List.mem_map_of_mem hp
      obtain ⟨q, hq, hname⟩ := List.mem_map.1 hmem
      have hflat := hbare.flat.flat q hq
      rw [← hname, get_of_mem hbare.flat.nodup hq]
      exact ⟨hflat.safeMetadata, hflat.metadataOnly (by decide)⟩
  refine hbare.flat.own.dump_of (fun key => by rw [hnames]) (fun f hf hmem => ?_)
    (safeMetadataFields_iff.2 fun p hp => (hpasses p hp).1) ?_
  · by_cases hgiven : f.name ∈ givenKeys
    · simp only [givenKeys, List.mem_cons, List.not_mem_nil, or_false] at hgiven
      rcases hgiven with hname | hname | hname
      · exact type_of_get hf (by simp [bindingFields]) hname hversion hversion' hv.type
      · exact type_of_get hf (by simp [bindingFields]) hname hrequest hrequest' hr.type
      · exact type_of_get hf (by simp [bindingFields]) hname happroved happroved' ht.type
    · rw [show get (withdrawalOf old v r t) f.name = get (withdrawalOf old v' r' t') f.name from
        get_withdrawal_congr hgiven]
      exact hbare.flat.own.types f hf hmem
  · rw [metadataOnly, Bool.and_eq_true]
    refine ⟨by decide, metadataOnlyFields_iff.2 fun p hp => ⟨?_, (hpasses p hp).2⟩⟩
    exact contentKey_bindingNames _ (hbare.flat.named (hnames ▸ List.mem_map_of_mem hp))

/-- Nothing that a publication grants is left. -/
structure Bare (d : List (String × Json)) : Prop where
  sample : get d "sample_decision" = .str "none"
  grants : ∀ key ∈ grantKeys, get d key = .null
  lists : ∀ key ∈ listNames, get d key = .arr []

theorem bare_withdrawal : Bare (withdrawalOf old v r t) := by
  refine ⟨get_withdrawal_set (by simp [withdrawalSets]) (by decide), fun key hkey => ?_,
    fun key hkey => ?_⟩
  · have hnull : key ∈ grantNulls := hkey
    have hmem : (key, Json.null) ∈ withdrawalNulls :=
      List.mem_append_left _ (List.mem_map_of_mem hnull)
    exact get_withdrawal_null hmem
  · have hnull : (key, Json.arr []) ∈ withdrawalNulls := by
      simp only [listNames, List.mem_cons, List.not_mem_nil, or_false] at hkey
      rcases hkey with rfl | rfl | rfl <;> simp [withdrawalNulls]
    exact get_withdrawal_null hnull

theorem follows_withdrawal : Follows old (withdrawalOf old v r t) := by
  have hsupersedes : ("supersedes", get old "disclosure_version") ∈ withdrawalSets old v r t := by
    simp [withdrawalSets]
  have hexpected : ("expected_current_disclosure_id", get old "disclosure_version") ∈
      withdrawalSets old v r t := by simp [withdrawalSets]
  exact ⟨get_withdrawal_set hsupersedes (by decide), get_withdrawal_set hexpected (by decide)⟩

/-- **A withdrawal can always be made**, of what is not withdrawn already. -/
theorem withdrawalCandidate_carries (h : disclosureBinding nfc x = some (.obj old))
    (hv : Reads uuidField v v') (hr : Reads uuidField r r') (ht : Reads timestampField t t')
    (hne : get old "disclosure_version" ≠ .str v') :
    ∃ c d, withdrawalCandidate nfc x v r t = .ok c ∧ Carries nfc c d ∧ Follows old d ∧ Bare d := by
  have hbare := withdrawal_bare h (settles_uuid hv.type).1 (settles_uuid hr.type).1
    (settles_timestamp ht.type).1 hne
  have hdump := withdrawal_dump h hv hr ht hbare
  refine ⟨_, _, ?_, hbare.flat.carries, follows_withdrawal, bare_withdrawal⟩
  have hprior : closed (disclosureBinding nfc) x = .ok (.obj old) := by rw [closed, h]
  rw [withdrawalCandidate, hprior, Except.ok_bind, asObj]
  exact hbare.flat.validate hdump

/-! ## Refreshes and supersessions -/

/-- The keys that a refresh sets. -/
def refreshKeys : List String :=
  ["decision", "disclosure_version", "request_id", "approved_at", "last_attested_by_seller_at",
    "update_cadence_days", "supersedes", "expected_current_disclosure_id"]

variable {cadenceDays : Json}

theorem get_refresh_set {y : Json} (h : (key, y) ∈ refreshSets old v r t cadenceDays) :
    get (refreshOf old v r t cadenceDays) key = y := by
  have hnodup : refreshKeys.Nodup := by decide
  have hprofile : "aggregate_hash_profile" ∉ refreshKeys := by decide
  have hmem : key ∈ refreshKeys := List.mem_map_of_mem (f := Prod.fst) h
  exact (get_inherit (ne_of_mem_of_not_mem hmem hprofile)).trans (get_withFields_of_mem hnodup h)

/-- **A refresh changes what it sets, and nothing else.** -/
theorem refreshCandidate_carries {c : LocalCandidate}
    (hold : disclosureBinding nfc x = some (.obj old))
    (h : refreshCandidate nfc x v r t cadenceDays = .ok c) :
    ∃ d, Carries nfc c d ∧ Follows old d ∧ ∀ key ∉ refreshKeys, get d key = get old key := by
  rw [refreshCandidate, closed, hold, Except.ok_bind] at h
  dsimp only [asObj] at h
  split_ifs at h
  · cases h
  · cases h
  obtain ⟨d, hd, hcarries⟩ := validate_carries h
  refine ⟨d, hcarries, follows_of hold hd (get_refresh_set (by simp [refreshSets]))
    (get_refresh_set (by simp [refreshSets])), fun key hkey => ?_⟩
  by_cases hprofile : key = "aggregate_hash_profile"
  · subst hprofile
    exact get_inherited hold hd
  · exact get_kept (dump_own hold) hd hprofile
      ((get_inherit hprofile).trans (get_withFields_of_notMem hkey))

/-- **A binding that supersedes another names it.** -/
theorem supersessionCandidate_carries {replacement : Json} {c : LocalCandidate}
    (hold : disclosureBinding nfc x = some (.obj old))
    (h : supersessionCandidate nfc x replacement = .ok c) :
    ∃ d, Carries nfc c d ∧ Follows old d := by
  rw [supersessionCandidate, closed, hold, Except.ok_bind] at h
  dsimp only [asObj] at h
  obtain ⟨b, -, h⟩ := Except.bind_eq_ok.1 h
  split_ifs at h
  · cases h
  obtain ⟨d, hd, hcarries⟩ := validate_carries h
  have hset : ∀ {key : String}, key ∈ ["supersedes", "expected_current_disclosure_id"] →
      get (supersessionOf old (asObj b)) key = get old "disclosure_version" := by
    intro key hkey
    simp only [List.mem_cons, List.not_mem_nil, or_false] at hkey
    rcases hkey with rfl | rfl <;>
      exact (get_inherit (by decide)).trans (get_withFields_of_mem
        (show ["supersedes", "expected_current_disclosure_id"].Nodup by decide) (by simp))
  exact ⟨d, hcarries, follows_of hold hd (hset (by simp)) (hset (by simp))⟩

/-- **Every candidate made from a publication meets the rules of a binding and names
    the publication** as its predecessor and as the head: its withdrawal, which is
    always made and keeps no grant; its refresh, which changes what it sets only; and
    what supersedes it. -/
theorem candidates_follow (hold : disclosureBinding nfc x = some (.obj old)) :
    (∀ v v' r r' t t', Reads uuidField v v' → Reads uuidField r r' → Reads timestampField t t' →
      get old "disclosure_version" ≠ .str v' →
      ∃ c d, withdrawalCandidate nfc x v r t = .ok c ∧ Carries nfc c d ∧ Follows old d ∧ Bare d) ∧
    (∀ v r t cadenceDays c, refreshCandidate nfc x v r t cadenceDays = .ok c →
      ∃ d, Carries nfc c d ∧ Follows old d ∧ ∀ key ∉ refreshKeys, get d key = get old key) ∧
    ∀ replacement c, supersessionCandidate nfc x replacement = .ok c →
      ∃ d, Carries nfc c d ∧ Follows old d :=
  ⟨fun _ _ _ _ _ _ hv hr ht hne => withdrawalCandidate_carries hold hv hr ht hne,
    fun _ _ _ _ _ h => refreshCandidate_carries hold h,
    fun _ _ h => supersessionCandidate_carries hold h⟩

end

/-- The candidates made from a publication of one row. -/
theorem candidates_follow_approved :
    (∀ v v' r r' t t', Reads uuidField v v' → Reads uuidField r r' → Reads timestampField t t' →
      get approved "disclosure_version" ≠ .str v' →
      ∃ c d, withdrawalCandidate id (.obj (sortKeys approved)) v r t = .ok c ∧ Carries id c d ∧
        Follows approved d ∧ Bare d) ∧
    (∀ v r t cadenceDays c, refreshCandidate id (.obj (sortKeys approved)) v r t cadenceDays = .ok c →
      ∃ d, Carries id c d ∧ Follows approved d ∧ ∀ key ∉ refreshKeys, get d key = get approved key) ∧
    ∀ replacement c, supersessionCandidate id (.obj (sortKeys approved)) replacement = .ok c →
      ∃ d, Carries id c d ∧ Follows approved d :=
  candidates_follow approved_dump

end PreviewBuild

end AimData
