/-
  Bindings of flat values: they are dumped as they are, in any order of their
  keys, and `construct_request` signs one that has no sample.
-/
import AimData.Contract.Flat
import AimData.Preview.FrozenRequest

namespace AimData

namespace PreviewBuild

open Contract Lifecycle

/-! ## Dicts and their fields -/

theorem lookup_none_iff {d : List (String × Json)} {key : String} :
    d.lookup key = none ↔ key ∉ d.map Prod.fst := by
  rw [List.lookup_eq_none_iff, List.mem_map]
  constructor
  · rintro h ⟨p, hp, rfl⟩
    exact bne_iff_ne.1 (h p hp) rfl
  · intro h p hp
    exact bne_iff_ne.2 fun he => h ⟨p, hp, he.symm⟩

theorem eq_map_get : ∀ {d : List (String × Json)}, (d.map Prod.fst).Nodup →
    d = (d.map Prod.fst).map fun k => (k, get d k)
  | [], _ => rfl
  | (k, v) :: d, h => by
    rw [List.map_cons, List.nodup_cons] at h
    have hhead : get ((k, v) :: d) k = v := get_of_lookup (by simp)
    have htail : ∀ j ∈ d.map Prod.fst, get ((k, v) :: d) j = get d j := by
      intro j hj
      have hne : j ≠ k := fun he => h.1 (he ▸ hj)
      rw [Contract.get, Contract.get, List.lookup_cons, beq_eq_false_iff_ne.2 hne]
    rw [List.map_cons, List.map_cons, hhead, List.map_congr_left fun j hj =>
      congrArg (Prod.mk j) (htail j hj), ← eq_map_get h.2]

theorem get_setField (key k : String) (x : Json) (d : List (String × Json)) :
    get (Json.setField key x d) k = if k = key then x else get d k := by
  split_ifs with h
  · subst h
    refine get_of_lookup ?_
    induction d with
    | nil => simp [Json.setField]
    | cons p d ih =>
      obtain ⟨j, y⟩ := p
      rw [Json.setField]
      split_ifs with hj
      · simp
      · rw [List.lookup_cons, beq_eq_false_iff_ne.2 (Ne.symm hj)]
        exact ih
  · rw [Contract.get, Contract.get, lookup_setField_of_ne h]

theorem map_fst_setField {key : String} (x : Json) : ∀ {d : List (String × Json)},
    key ∈ d.map Prod.fst → (Json.setField key x d).map Prod.fst = d.map Prod.fst
  | (k, v) :: d, h => by
    rw [Json.setField]
    split_ifs with hk
    · rw [List.map_cons, List.map_cons, hk]
    · rw [List.map_cons, List.mem_cons] at h
      rw [List.map_cons, List.map_cons, map_fst_setField x (h.resolve_left fun he => hk he.symm)]

section
variable {changes d : List (String × Json)} {key : String}

theorem map_fst_withFields (h : ∀ p ∈ changes, p.1 ∈ d.map Prod.fst) :
    (withFields changes d).map Prod.fst = d.map Prod.fst := by
  induction changes generalizing d with
  | nil => rfl
  | cons p changes ih =>
    have hset := map_fst_setField p.2 (h p List.mem_cons_self)
    rw [withFields, List.foldl_cons, ← withFields, ih, hset]
    intro q hq
    rw [hset]
    exact h q (List.mem_cons_of_mem _ hq)

theorem get_withFields_of_notMem (h : key ∉ changes.map Prod.fst) :
    get (withFields changes d) key = get d key := by
  induction changes generalizing d with
  | nil => rfl
  | cons p changes ih =>
    rw [List.map_cons, List.mem_cons, not_or] at h
    rw [withFields, List.foldl_cons, ← withFields, ih h.2, get_setField, if_neg h.1]

theorem get_withFields_of_mem {x : Json} (hnd : (changes.map Prod.fst).Nodup)
    (h : (key, x) ∈ changes) : get (withFields changes d) key = x := by
  induction changes generalizing d with
  | nil => cases h
  | cons p changes ih =>
    rw [List.map_cons, List.nodup_cons] at hnd
    rw [withFields, List.foldl_cons, ← withFields]
    rcases List.mem_cons.1 h with rfl | h
    · rw [get_withFields_of_notMem hnd.1, get_setField, if_pos rfl]
    · exact ih hnd.2 h

end

/-! ## Flat bindings -/

def bindingNames : List String := bindingFields.map Field.name

/-- A field that takes its value as it is, and a flat one. -/
def Takes (f : Field) (d : List (String × Json)) : Prop :=
  f.type (get d f.name) = some (get d f.name) ∧ Flat (get d f.name)

theorem Takes.of_get {f : Field} {d : List (String × Json)} {y : Json} (h : get d f.name = y)
    (htype : f.type y = some y) (hflat : Flat y) : Takes f d := by
  rw [Takes, h]
  exact ⟨htype, hflat⟩

theorem optional_of {f : Validator} {y : Json} (h : f y = some y) : optional f y = some y := by
  cases y with
  | null => rfl
  | _ => exact h

/-- The full dump of a binding. -/
def fullDump (d : List (String × Json)) : List (String × Json) :=
  bindingFields.map fun f => (f.name, get d f.name)

/-- The keys whose values the rules look at. -/
def ruleKeys : List String :=
  grantKeys ++ ["decision", "supersedes", "expected_current_disclosure_id", "disclosure_version",
    "sample_decision", "proof_ids", "schema_descriptors", "selected_fields",
    "public_preview_permission", "schema_digest"]

theorem ruleKeys_named : ∀ key ∈ ruleKeys, key ∈ bindingNames := by decide

theorem bindingRules_congr {nfc : String → String} {b d : List (String × Json)}
    (h : ∀ key ∈ ruleKeys, get b key = get d key) : bindingRules nfc b = bindingRules nfc d := by
  have hgrants : ∀ p : Json → Bool,
      grantKeys.all (fun k => p (get b k)) = grantKeys.all fun k => p (get d k) := by
    intro p
    rw [Bool.eq_iff_iff, List.all_eq_true, List.all_eq_true]
    refine forall₂_congr fun key hkey => ?_
    rw [h key (List.mem_append_left _ hkey)]
  have hget : ∀ key ∈ ["decision", "supersedes", "expected_current_disclosure_id",
      "disclosure_version", "sample_decision", "proof_ids", "schema_descriptors",
      "selected_fields", "public_preview_permission", "schema_digest"], get b key = get d key :=
    fun key hkey => h key (List.mem_append_right _ hkey)
  simp only [List.forall_mem_cons] at hget
  obtain ⟨h1, h2, h3, h4, h5, h6, h7, h8, h9, h10, -⟩ := hget
  have hnull := hgrants isNull
  have hsome := hgrants fun v => !isNull v
  unfold bindingRules descriptorRules getList
  rw [h1, h2, h3, h4, h5, h6, h7, h8, h9, h10, hnull, hsome]

/-- A binding whose fields take their values as they are. -/
structure OwnDump (nfc : String → String) (d : List (String × Json)) : Prop where
  names : (d.map Prod.fst = bindingNames ∧ get d "aggregate_hash_profile" ≠ .null) ∨
    d.map Prod.fst = bindingNames.filter (· ≠ "aggregate_hash_profile")
  types : ∀ f ∈ bindingFields, f.name ∈ d.map Prod.fst → f.type (get d f.name) = some (get d f.name)
  rules : bindingRules nfc d = true

section
variable {nfc : String → String} {d n : List (String × Json)}

theorem nodup_bindingNames : bindingNames.Nodup := by decide

theorem OwnDump.nodup (h : OwnDump nfc d) : (d.map Prod.fst).Nodup := by
  rcases h.names with ⟨hnames, -⟩ | hnames
  · rw [hnames]
    exact nodup_bindingNames
  · rw [hnames]
    exact nodup_bindingNames.filter _

theorem OwnDump.named (h : OwnDump nfc d) {key : String} (hkey : key ∈ d.map Prod.fst) :
    key ∈ bindingNames := by
  rcases h.names with ⟨hnames, -⟩ | hnames
  · rwa [hnames] at hkey
  · rw [hnames] at hkey
    exact List.mem_of_mem_filter hkey

theorem get_of_mem {p : String × Json} (hnd : (d.map Prod.fst).Nodup) (hp : p ∈ d) :
    get d p.1 = p.2 := get_of_lookup ((lookup_iff_mem hnd).2 hp)

theorem get_perm (hnd : (d.map Prod.fst).Nodup) (hperm : n.Perm d) (key : String) :
    get n key = get d key := by
  have hnd' : (n.map Prod.fst).Nodup := (hperm.map Prod.fst).nodup_iff.2 hnd
  have hlookup : n.lookup key = d.lookup key := by
    refine Option.ext fun v => ?_
    rw [lookup_iff_mem hnd, lookup_iff_mem hnd', hperm.mem_iff]
  rw [Contract.get, Contract.get, hlookup]

theorem field_unique {f g : Field} (hf : f ∈ bindingFields) (hg : g ∈ bindingFields)
    (h : f.name = g.name) : f = g :=
  List.inj_on_of_nodup_map nodup_bindingNames hf hg h

theorem get_fullDump {key : String} (hkey : key ∈ bindingNames) :
    get (fullDump d) key = get d key := by
  obtain ⟨f, hf, rfl⟩ := List.mem_map.1 hkey
  have hnames : (fullDump d).map Prod.fst = bindingNames := by
    rw [fullDump, List.map_map]
    rfl
  have hmem : (f.name, get d f.name) ∈ fullDump d :=
    List.mem_map_of_mem (f := fun f => (f.name, get d f.name)) hf
  exact get_of_mem (hnames ▸ nodup_bindingNames) hmem

theorem mapM_some {α β : Type} {f : α → Option β} {g : α → β} : ∀ {l : List α},
    (∀ a ∈ l, f a = some (g a)) → l.mapM f = some (l.map g)
  | [], _ => rfl
  | a :: l, h => by
    rw [List.mapM_cons, h a List.mem_cons_self, mapM_some fun b hb => h b (List.mem_cons_of_mem _ hb)]
    rfl

/-- What is dumped as such a binding: its keys, with values that the fields make it of. -/
theorem OwnDump.mapM_dump (h : OwnDump nfc d)
    (hkeys : ∀ key, key ∈ n.map Prod.fst ↔ key ∈ d.map Prod.fst)
    (htypes : ∀ f ∈ bindingFields, f.name ∈ d.map Prod.fst →
      f.type (get n f.name) = some (get d f.name)) :
    bindingFields.mapM (·.dump n) = some (fullDump d) := by
  have hdump : ∀ f ∈ bindingFields, f.dump n = some (f.name, get d f.name) := by
    intro f hf
    rw [Field.dump]
    cases hl : n.lookup f.name with
    | some y =>
      have hmem : f.name ∈ d.map Prod.fst := by
        rw [← hkeys]
        by_contra hnone
        rw [lookup_none_iff.2 hnone] at hl
        cases hl
      have htype := htypes f hf hmem
      rw [get_of_lookup hl] at htype
      simp only [htype, Option.map_some]
    | none =>
      have hmem : f.name ∉ d.map Prod.fst := by
        rw [← hkeys]
        exact lookup_none_iff.1 hl
      have hprofile : f.name = "aggregate_hash_profile" := by
        by_contra hne
        rcases h.names with ⟨hnames, -⟩ | hnames
        · rw [hnames] at hmem
          exact hmem (List.mem_map_of_mem hf)
        · rw [hnames] at hmem
          exact hmem (List.mem_filter.2 ⟨List.mem_map_of_mem hf, decide_eq_true hne⟩)
      have hfield : f = ⟨"aggregate_hash_profile", optional (literalField
          ["aim-approved-aggregates-v1", "aim-approved-aggregates-v2"]), some .null⟩ :=
        field_unique hf (by simp [bindingFields]) hprofile
      rw [Contract.get, lookup_none_iff.2 hmem, hfield]
      rfl
  exact mapM_some hdump

/-- The full dump, without a profile that is not given. -/
theorem OwnDump.dropLegacyProfile (h : OwnDump nfc d) : dropLegacyProfile (fullDump d) = d := by
  have hmap : fullDump d = bindingNames.map fun k => (k, get d k) := by
    rw [fullDump, bindingNames, List.map_map]
    rfl
  have hd := eq_map_get h.nodup
  rw [Contract.dropLegacyProfile, get_fullDump (by decide)]
  rcases h.names with ⟨hnames, hprofile⟩ | hnames
  · rw [if_neg hprofile, hmap, ← hnames]
    exact hd.symm
  · have hnull : get d "aggregate_hash_profile" = .null := by
      rw [Contract.get, lookup_none_iff.2]
      · rfl
      · rw [hnames]
        exact fun hmem => of_decide_eq_true (List.mem_filter.1 hmem).2 rfl
    rw [if_pos hnull, hmap, List.filter_map]
    refine Eq.trans ?_ hd.symm
    rw [hnames]
    rfl

/-- **What is dumped as such a binding.** -/
theorem OwnDump.dump_of (h : OwnDump nfc d)
    (hkeys : ∀ key, key ∈ n.map Prod.fst ↔ key ∈ d.map Prod.fst)
    (htypes : ∀ f ∈ bindingFields, f.name ∈ d.map Prod.fst →
      f.type (get n f.name) = some (get d f.name))
    (hsafe : safeMetadata (.obj n) = true) (hmetadata : metadataOnly (.obj n) 0 = true) :
    disclosureBinding nfc (.obj n) = some (.obj d) := by
  have hall : n.all (fun p => p.1 ∈ bindingFields.map Field.name) = true :=
    List.all_eq_true.2 fun p hp =>
      decide_eq_true (h.named ((hkeys p.1).1 (List.mem_map_of_mem hp)))
  have hmodel : closedModel bindingFields (bindingRules nfc) (.obj n) = some (.obj (fullDump d)) := by
    have hrules : bindingRules nfc (fullDump d) = true :=
      (bindingRules_congr fun key hkey => get_fullDump (ruleKeys_named key hkey)).trans h.rules
    rw [closedModel, if_pos hall, h.mapM_dump hkeys htypes]
    exact if_pos hrules
  rw [disclosureBinding, wireModel, hsafe, hmetadata, Bool.true_and, if_pos rfl, hmodel,
    Option.map_some, asObj, h.dropLegacyProfile]

/-- **Such a binding is dumped as it is**, in any order of its keys. -/
theorem OwnDump.dump (h : OwnDump nfc d) (hperm : n.Perm d) (hsafe : safeMetadata (.obj n) = true)
    (hmetadata : metadataOnly (.obj n) 0 = true) :
    disclosureBinding nfc (.obj n) = some (.obj d) := by
  refine h.dump_of (fun key => (hperm.map Prod.fst).mem_iff) (fun f hf hmem => ?_) hsafe hmetadata
  rw [get_perm h.nodup hperm]
  exact h.types f hf hmem

end

theorem settles_base64 {chars size : ℕ} (h : chars ≤ 255) : Settles (base64Field chars size) :=
  settles_textWhere fun hs => by
    rw [Bool.and_eq_true, decide_eq_true_eq] at hs
    omega

theorem settles_bool : Settles boolField := by
  intro v w h
  cases v with
  | bool b =>
    cases h
    exact ⟨rfl, trivial⟩
  | _ => cases h

/-- The fields of a binding that take lists. -/
def listNames : List String := ["selected_fields", "schema_descriptors", "proof_ids"]

/-- **The other fields settle**: their values are flat, and taken again as they are. -/
theorem settles_binding : ∀ f ∈ bindingFields, f.name ∉ listNames → Settles f.type := by
  have hdigest : Settles hexDigestField := settles_pattern 64 (by norm_num) _
  have hcode : Settles codeField := settles_pattern 1 (by norm_num) _
  have hbase : Settles digestField := settles_base64 (by norm_num)
  have hnil : ∀ f ∈ ([] : List Field), f.name ∉ listNames → Settles f.type :=
    fun f hf => by cases hf
  simp only [bindingFields, List.forall_mem_cons]
  exact ⟨fun _ => settles_literal (by decide), fun _ => settles_literal (by decide),
    fun _ => settles_uuid, fun _ => settles_uuid, fun _ => settles_uuid, fun _ => settles_uuid,
    fun _ => settles_optional settles_uuid, fun _ => settles_uuid, fun _ => hdigest,
    fun _ => settles_uuid, fun _ => hdigest, fun _ => hdigest, fun h => absurd (by decide) h,
    fun _ => settles_optional (settles_literal (by decide)),
    fun _ => settles_optional (settles_literal (by decide)), fun _ => settles_literal (by decide),
    fun _ => settles_optional hdigest, fun _ => hdigest,
    fun _ => settles_optional (settles_literal (by decide)),
    fun _ => settles_optional settles_uuid, fun _ => settles_optional hbase,
    fun _ => settles_optional hcode, fun h => absurd (by decide) h, fun h => absurd (by decide) h,
    fun _ => settles_optional hbase, fun _ => settles_optional hdigest,
    fun _ => settles_optional hdigest, fun _ => settles_optional (settles_literal (by decide)),
    fun _ => settles_optional settles_bool, fun _ => settles_uuid, fun _ => settles_timestamp,
    fun _ => settles_timestamp, fun _ => settles_optional (settles_int (by decide) (by decide)),
    fun _ => settles_optional settles_timestamp, fun _ => settles_optional settles_uuid,
    fun _ => settles_uuid, fun _ => settles_optional settles_uuid, fun _ => settles_signerReference,
    fun _ => settles_literal (by decide), fun _ => settles_literal (by decide), hnil⟩

/-- A binding of flat values that is dumped as it is. -/
structure FlatBinding (nfc : String → String) (d : List (String × Json)) : Prop where
  names : (d.map Prod.fst = bindingNames ∧ get d "aggregate_hash_profile" ≠ .null) ∨
    d.map Prod.fst = bindingNames.filter (· ≠ "aggregate_hash_profile")
  takes : ∀ f ∈ bindingFields, f.name ∈ d.map Prod.fst → Takes f d
  rules : bindingRules nfc d = true

section
variable {nfc : String → String} {validateUrl : String → Bool} {d n : List (String × Json)}

theorem FlatBinding.own (h : FlatBinding nfc d) : OwnDump nfc d :=
  ⟨h.names, fun f hf hmem => (h.takes f hf hmem).1, h.rules⟩

theorem FlatBinding.nodup (h : FlatBinding nfc d) : (d.map Prod.fst).Nodup := h.own.nodup

theorem FlatBinding.named (h : FlatBinding nfc d) {key : String} (hkey : key ∈ d.map Prod.fst) :
    key ∈ bindingNames := h.own.named hkey

theorem contentKey_bindingNames : ∀ key ∈ bindingNames, contentKey key = false := by decide

theorem FlatBinding.flat (h : FlatBinding nfc d) : ∀ p ∈ d, Flat p.2 := by
  intro p hp
  have hkey : p.1 ∈ d.map Prod.fst := List.mem_map_of_mem hp
  obtain ⟨f, hf, hname⟩ := List.mem_map.1 (h.named hkey)
  have := (h.takes f hf (hname ▸ hkey)).2
  rwa [hname, get_of_mem h.nodup hp] at this

/-- **A flat binding is dumped as it is**, in any order of its keys. -/
theorem FlatBinding.dump (h : FlatBinding nfc d) (hperm : n.Perm d) :
    disclosureBinding nfc (.obj n) = some (.obj d) := by
  have hnames : ∀ p ∈ n, p.1 ∈ bindingNames := fun p hp =>
    h.named (List.mem_map_of_mem (hperm.subset hp))
  have hflat : ∀ p ∈ n, Flat p.2 := fun p hp => h.flat p (hperm.subset hp)
  refine h.own.dump hperm (safeMetadataFields_iff.2 fun p hp => (hflat p hp).safeMetadata) ?_
  rw [metadataOnly, Bool.and_eq_true]
  exact ⟨by decide, metadataOnlyFields_iff.2 fun p hp =>
    ⟨contentKey_bindingNames _ (hnames p hp), (hflat p hp).metadataOnly (by decide)⟩⟩

theorem plainKeys_bindingNames : PlainKeys bindingNames := by decide

/-- The bytes of a flat binding. -/
def bindingBytes (d : List (String × Json)) : Bytes := Utf8.encode (Json.obj (sortKeys d)).dumps

theorem FlatBinding.normal (h : FlatBinding nfc d) :
    normalize (.obj d) = .ok (.obj (sortKeys d)) := by
  refine normalize_normalValues (fun k hk => plainKeys_bindingNames k (h.named hk)) fun p hp => ?_
  exact (h.flat p hp).normalize

theorem FlatBinding.bytes (h : FlatBinding nfc d) :
    canonicalJsonBytes (.obj d) = .ok (bindingBytes d) := by
  rw [canonicalJsonBytes, h.normal]
  rfl

theorem FlatBinding.loads (h : FlatBinding nfc d) :
    loads (bindingBytes d) = some (.obj (sortKeys d)) :=
  loads_canonicalJsonBytes (dicts_flat h.nodup h.flat) h.normal h.bytes

theorem FlatBinding.serialize (h : FlatBinding nfc d) :
    serialize (disclosureBinding nfc) (.obj d) = .ok (bindingBytes d) := by
  rw [AimData.serialize, closed, h.dump (.refl d)]
  show signingJsonBytes (.obj d) = _
  rw [signingJsonBytes, h.bytes]

/-- **A flat binding is a candidate** that gives the binding back. -/
theorem FlatBinding.candidate (h : FlatBinding nfc d) :
    LocalCandidate.validate nfc (.obj d) = .ok ⟨bindingBytes d, "marketplace_candidate"⟩ ∧
      LocalCandidate.binding nfc ⟨bindingBytes d, "marketplace_candidate"⟩ = .ok d := by
  constructor
  · rw [LocalCandidate.validate, h.serialize]
    rfl
  · have hload : loadJson (bindingBytes d) = .ok (.obj (sortKeys d)) := by rw [loadJson, h.loads]
    rw [LocalCandidate.binding, if_neg (by simp), hload, Except.ok_bind, closed,
      h.dump (sortKeys_perm d), Except.ok_bind, h.serialize, Except.ok_bind, if_neg (by simp)]
    rfl

end

/-! ## The request of a withdrawal -/

/-- A binding without a sample, which needs no commitment. -/
structure BareBinding (nfc : String → String) (d : List (String × Json)) : Prop where
  flat : FlatBinding nfc d
  sample : get d "sample_decision" = .str "none"

/-- The request of a bare binding. -/
def bareRequest (d : List (String × Json)) (signature : Json) : Json :=
  .obj [("profile", get d "profile"), ("summary_id", get d "summary_id"), ("binding", .obj d),
    ("seller_signature", signature), ("commitment", .null), ("proofs", .arr [])]

section
variable {nfc : String → String} {validateUrl : String → Bool} {d : List (String × Json)}
  {signature : Json}

theorem FlatBinding.takes_named (h : FlatBinding nfc d) {f : Field} (hf : f ∈ bindingFields)
    (hne : f.name ≠ "aggregate_hash_profile") : Takes f d := by
  refine h.takes f hf ?_
  rcases h.names with ⟨hnames, -⟩ | hnames
  · rw [hnames]
    exact List.mem_map_of_mem hf
  · rw [hnames]
    exact List.mem_filter.2 ⟨List.mem_map_of_mem hf, decide_eq_true hne⟩

/-- What a request signs. -/
theorem settles_signature : Settles signatureField := settles_base64 (by norm_num)

theorem FlatBinding.length (h : FlatBinding nfc d) : d.length ≤ 40 := by
  have hlength : d.length = (d.map Prod.fst).length := (List.length_map _).symm
  have hnames : bindingNames.length = 40 := rfl
  rcases h.names with ⟨hkeys, -⟩ | hkeys
  · rw [hlength, hkeys, hnames]
  · rw [hlength, hkeys, ← hnames]
    exact List.length_filter_le _ _

theorem FlatBinding.size (h : FlatBinding nfc d) :
    (Utf8.encode (Json.obj (sortKeys d)).dumps).length ≤ 71042 := by
  have hkeys : ∀ k ∈ bindingNames, k.toList.length ≤ 40 := by decide
  have hsub : ∀ p ∈ sortKeys d, p ∈ d := (sortKeys_perm d).subset
  have hsize := size_flat (d := sortKeys d)
    (fun p hp => hkeys _ (h.named (List.mem_map_of_mem (hsub p hp)))) fun p hp => h.flat p (hsub p hp)
  have hlength : (sortKeys d).length = d.length := (sortKeys_perm d).length_eq
  have := h.length
  omega

/-- The keys of a request, numbered. -/
def requestKeys : List (String × ℕ) :=
  ["profile", "summary_id", "binding", "seller_signature", "commitment", "proofs"].zipIdx

/-- The normal form of the request of a bare binding. -/
def bareNormal (d : List (String × Json)) (signature : Json) : List (String × Json) :=
  [("binding", .obj (sortKeys d)), ("commitment", .null), ("profile", get d "profile"),
    ("proofs", .arr []), ("seller_signature", signature), ("summary_id", get d "summary_id")]

section
variable (h : BareBinding nfc d) (hsignature : signatureField signature = some signature)
include h hsignature

theorem bareRequest_normal :
    normalize (bareRequest d signature) = .ok (.obj (bareNormal d signature)) := by
  have hflat : ∀ {f : Field}, f ∈ bindingFields → f.name ≠ "aggregate_hash_profile" →
      normalize (get d f.name) = .ok (get d f.name) :=
    fun hf hne => (h.flat.takes_named hf hne).2.normalize
  have hprofile : normalize (get d "profile") = .ok (get d "profile") :=
    hflat (f := ⟨"profile", literalField ["aim-preview-disclosure-v1"], none⟩) (by simp [bindingFields])
      (by decide)
  have hsummary : normalize (get d "summary_id") = .ok (get d "summary_id") :=
    hflat (f := ⟨"summary_id", uuidField, none⟩) (by simp [bindingFields]) (by decide)
  have hsort : sortKeys requestKeys = [("binding", 2), ("commitment", 4), ("profile", 0),
      ("proofs", 5), ("seller_signature", 3), ("summary_id", 1)] := by decide
  have h16 : (sortKeys requestKeys).map Prod.fst = (sortKeys16 requestKeys).map Prod.fst := by
    decide
  have hsig := (settles_signature hsignature).2.normalize
  have := normalize_fields (l := requestKeys)
    (v := fun i => [get d "profile", get d "summary_id", .obj d, signature, .null, .arr []].getD i .null)
    (w := fun i => [get d "profile", get d "summary_id", .obj (sortKeys d), signature, .null,
      .arr []].getD i .null) ?_ h16
  · rw [hsort] at this
    exact this
  · intro p hp
    simp only [requestKeys, List.zipIdx_cons, List.zipIdx_nil, List.mem_cons, List.not_mem_nil,
      or_false] at hp
    rcases hp with rfl | rfl | rfl | rfl | rfl | rfl
    · exact hprofile
    · exact hsummary
    · exact h.flat.normal
    · exact hsig
    · rfl
    · rfl

theorem bareRequest_canonical : canonicalJsonBytes (bareRequest d signature) =
    .ok (Utf8.encode (Json.obj (bareNormal d signature)).dumps) := by
  rw [canonicalJsonBytes, bareRequest_normal h hsignature]
  rfl

theorem bareNormal_size : (Utf8.encode (Json.obj (bareNormal d signature)).dumps).length ≤ 262144 := by
  have hflat : ∀ {f : Field}, f ∈ bindingFields → f.name ≠ "aggregate_hash_profile" →
      (Utf8.encode (get d f.name).dumps).length ≤ 1532 :=
    fun hf hne => (h.flat.takes_named hf hne).2.size
  have hprofile : (Utf8.encode (get d "profile").dumps).length ≤ 1532 :=
    hflat (f := ⟨"profile", literalField ["aim-preview-disclosure-v1"], none⟩) (by simp [bindingFields])
      (by decide)
  have hsummary : (Utf8.encode (get d "summary_id").dumps).length ≤ 1532 :=
    hflat (f := ⟨"summary_id", uuidField, none⟩) (by simp [bindingFields]) (by decide)
  have hsig := (settles_signature hsignature).2.size
  have hbinding := h.flat.size
  have hnull : (Utf8.encode Json.null.dumps).length = 4 := by decide
  have hnil : (Utf8.encode (Json.arr []).dumps).length = 2 := by decide
  have hkeys : ["binding", "commitment", "profile", "proofs", "seller_signature", "summary_id"].map
      (fun k => k.toList.length) = [7, 10, 7, 6, 16, 10] := by decide
  simp only [List.map_cons, List.map_nil, List.cons.injEq, and_true] at hkeys
  refine le_trans (Json.length_encode_obj _) ?_
  simp only [bareNormal, List.map_cons, List.map_nil, List.sum_cons, List.sum_nil]
  omega

variable (validateUrl) in
/-- **The request of a bare binding is dumped as it is.** -/
theorem bareRequest_dump : previewDisclosureRequest nfc validateUrl (bareRequest d signature) =
    some (bareRequest d signature) := by
  have hprofile := h.flat.takes_named (f := ⟨"profile", literalField ["aim-preview-disclosure-v1"], none⟩)
    (by simp [bindingFields]) (by decide)
  have hsummary := h.flat.takes_named (f := ⟨"summary_id", uuidField, none⟩) (by simp [bindingFields])
    (by decide)
  have hsig := (settles_signature hsignature).2
  have hbinding := h.flat.dump (.refl d)
  have hsafe : safeMetadata (bareRequest d signature) = true := by
    refine safeMetadataFields_iff.2 ?_
    simp only [List.forall_mem_cons]
    exact ⟨hprofile.2.safeMetadata, hsummary.2.safeMetadata,
      safeMetadataFields_iff.2 fun p hp => (h.flat.flat p hp).safeMetadata, hsig.safeMetadata, rfl,
      rfl, fun p hp => by cases hp⟩
  have hmetadata : metadataOnly (bareRequest d signature) 0 = true := by
    have hobj : metadataOnly (.obj d) 1 = true := by
      rw [metadataOnly, Bool.and_eq_true]
      exact ⟨by decide, metadataOnlyFields_iff.2 fun p hp =>
        ⟨contentKey_bindingNames _ (h.flat.named (List.mem_map_of_mem hp)),
          (h.flat.flat p hp).metadataOnly (by decide)⟩⟩
    rw [bareRequest, metadataOnly, Bool.and_eq_true]
    refine ⟨by decide, metadataOnlyFields_iff.2 ?_⟩
    simp only [List.forall_mem_cons]
    exact ⟨⟨by decide, hprofile.2.metadataOnly (by decide)⟩,
      ⟨by decide, hsummary.2.metadataOnly (by decide)⟩, ⟨by decide, hobj⟩,
      ⟨by decide, hsig.metadataOnly (by decide)⟩, ⟨by decide, by decide⟩,
      ⟨by decide, by decide⟩, fun p hp => by cases hp⟩
  have hrules : requestRules validateUrl (asObj (bareRequest d signature)) = true := by
    have hsize : canonicalSizeAtMost (bareRequest d signature) 262144 = true := by
      rw [canonicalSizeAtMost, bareRequest_canonical h hsignature]
      exact decide_eq_true (bareNormal_size h hsignature)
    have hsample : get d "sample_decision" = .str "none" := h.sample
    have hbare : (decide (get d "summary_id" = get d "summary_id") &&
        if get d "sample_decision" = .str "none" then
          decide (Json.null = .null) && decide (([] : List Json) = [])
        else false) = true := by
      rw [hsample]
      simp
    rw [requestRules, Bool.and_eq_true]
    refine ⟨?_, hsize⟩
    rw [if_pos hsample] at hbare
    exact (if_pos hsample).symm ▸ hbare
  have hall : (asObj (bareRequest d signature)).all
      (fun p => p.1 ∈ (requestFields nfc validateUrl).map Field.name) = true := by
    simp [bareRequest, asObj, requestFields]
  have hdump : ∀ (name : String) (type : Validator) {y : Json},
      (asObj (bareRequest d signature)).lookup name = some y → type y = some y →
      (⟨name, type, none⟩ : Field).dump (asObj (bareRequest d signature)) = some (name, y) := by
    intro name type y hlookup htype
    rw [Field.dump, hlookup]
    show (type y).map _ = _
    rw [htype]
    rfl
  have hmodel : closedModel (requestFields nfc validateUrl) (requestRules validateUrl)
      (bareRequest d signature) = some (bareRequest d signature) := by
    have h1 := hdump "profile" _ rfl hprofile.1
    have h2 := hdump "summary_id" _ rfl hsummary.1
    have h3 := hdump "binding" _ rfl hbinding
    have h4 := hdump "seller_signature" _ rfl hsignature
    have h5 := hdump "commitment" (optional (datasetCommitmentContract validateUrl)) rfl rfl
    have h6 := hdump "proofs" (listField (datasetPreviewProofContract validateUrl) 0 100) rfl rfl
    have hmapM : (requestFields nfc validateUrl).mapM (·.dump (asObj (bareRequest d signature))) =
        some (asObj (bareRequest d signature)) := by
      rw [requestFields, List.mapM_cons, h1, List.mapM_cons, h2, List.mapM_cons, h3, List.mapM_cons, h4,
        List.mapM_cons, h5, List.mapM_cons, h6, List.mapM_nil]
      rfl
    rw [show bareRequest d signature = .obj (asObj (bareRequest d signature)) from rfl, closedModel,
      if_pos hall, hmapM]
    exact if_pos hrules
  rw [previewDisclosureRequest, wireModel, hsafe, hmetadata, hmodel]
  rfl

variable (validateUrl) in
theorem bareRequest_bytes : requestBytes nfc validateUrl (bareRequest d signature) =
    .ok (Utf8.encode (Json.obj (bareNormal d signature)).dumps) := by
  rw [requestBytes, serialize, closed, bareRequest_dump validateUrl h hsignature]
  show signingJsonBytes (bareRequest d signature) = _
  rw [signingJsonBytes, bareRequest_canonical h hsignature]

end

theorem textWhere_of {p : String → Bool} {s : String} (h : p s = true) :
    textWhere p (.str s) = some (.str s) := by
  show Option.map Json.str (if p s then some s else none) = _
  rw [if_pos h, Option.map_some]

/-- A signature of 64 bytes is one of the contract. -/
theorem signatureField_encode {bytes : Bytes} (h : bytes.length = 64) :
    signatureField (.str (encodeBase64url bytes)) = some (.str (encodeBase64url bytes)) := by
  have hne : bytes ≠ [] := fun h0 => by
    rw [h0] at h
    cases h
  have hlength : (encodeBase64url bytes).length = 86 := by
    rw [← String.length_toList, encodeBase64url, Base64Url.encode, String.toList_ofList,
      Base64Url.encodeChars_eq, List.length_map, Base64Url.length_toSextets, h]
  rw [signatureField, base64Field]
  refine textWhere_of ?_
  rw [Bool.and_eq_true, decodeBase64url_encode hne]
  exact ⟨decide_eq_true hlength, decide_eq_true h⟩

/-- A keystore that signs as the install that a binding names. -/
structure Signs (signer : Signer) (d : List (String × Json)) : Prop where
  seller : get d "seller_id" = .str signer.sellerId
  reference : ∃ reference, signer.reference = .ok reference ∧ get d "signer_reference" = .str reference
  sign : ∀ preimage, ∃ bytes, signer.sign preimage = .ok bytes ∧ bytes.length = 64

theorem signDisclosure_flat {signer : Signer} (h : FlatBinding nfc d) (hsigns : Signs signer d) :
    ∃ signature, signDisclosure nfc signer (.obj d) = .ok signature ∧
      signatureField signature = some signature := by
  obtain ⟨reference, href, hd⟩ := hsigns.reference
  obtain ⟨bytes, hbytes, hlength⟩ := hsigns.sign (disclosureTag ++ bindingBytes d)
  refine ⟨.str (encodeBase64url bytes), ?_, signatureField_encode hlength⟩
  have hpreimage : disclosureBytes nfc (.obj d) = .ok (disclosureTag ++ bindingBytes d) := by
    rw [disclosureBytes, h.serialize]
    rfl
  rw [signDisclosure, closed, h.dump (.refl d), Except.ok_bind, asObj, hsigns.seller,
    if_neg (by simp), hpreimage, Except.ok_bind, Signer.signBytes, href, Except.ok_bind, hd,
    if_neg (by simp), hbytes]
  rfl

/-- What an allocated flat binding gives `construct_request` to compare with. -/
def allocatedP1 (d : List (String × Json)) : List (String × Json) := p1Fields.map fun k => (k, get d k)

theorem mapM_ok {α β : Type} {f : α → Except Raised β} {g : α → β} : ∀ {l : List α},
    (∀ a ∈ l, f a = .ok (g a)) → l.mapM f = .ok (l.map g)
  | [], _ => rfl
  | a :: l, h => by
    rw [List.mapM_cons, h a List.mem_cons_self, mapM_ok fun b hb => h b (List.mem_cons_of_mem _ hb)]
    rfl

theorem p1Of_flat (h : FlatBinding nfc d) : p1Of d = .ok (allocatedP1 d) := by
  have hnamed : ∀ key ∈ p1Fields, key ∈ bindingNames ∧ key ≠ "aggregate_hash_profile" := by
    decide
  refine mapM_ok fun key hkey => ?_
  have hmem : key ∈ d.map Prod.fst := by
    rcases h.names with ⟨hnames, -⟩ | hnames
    · rw [hnames]
      exact (hnamed key hkey).1
    · rw [hnames]
      exact List.mem_filter.2 ⟨(hnamed key hkey).1, decide_eq_true (hnamed key hkey).2⟩
  rw [atKey, Contract.get]
  cases hl : d.lookup key with
  | none => exact absurd hmem (lookup_none_iff.1 hl)
  | some y => rfl

theorem allocatedP1_agrees : Lifecycle.sameKeys (allocatedP1 d) p1Fields ∧
    p1Fields.all fun key => get (allocatedP1 d) key = get d key := by
  have hnames : (allocatedP1 d).map Prod.fst = p1Fields := by
    rw [allocatedP1, List.map_map]
    exact List.map_id _
  constructor
  · rw [Lifecycle.sameKeys, Bool.and_eq_true, List.all_eq_true, List.all_eq_true, hnames]
    refine ⟨fun p hp => decide_eq_true ?_, fun key hkey => decide_eq_true hkey⟩
    rw [← hnames]
    exact List.mem_map_of_mem hp
  · refine List.all_eq_true.2 fun key hkey => decide_eq_true ?_
    have hnd : ((allocatedP1 d).map Prod.fst).Nodup := by
      rw [hnames]
      decide
    exact get_of_mem hnd (List.mem_map_of_mem (f := fun k => (k, get d k)) hkey)

variable (validateUrl) in
/-- **What is asked for a bare binding is signed.** -/
theorem constructRequest_bare {candidate : LocalCandidate} {signer : Signer}
    (hcandidate : candidate.binding nfc = .ok d) (h : BareBinding nfc d) (hsigns : Signs signer d) :
    ∃ signature, signatureField signature = some signature ∧
      constructRequest nfc validateUrl candidate .null [] signer (allocatedP1 d) =
        .ok (bareRequest d signature) := by
  obtain ⟨signature, hsign, hsignature⟩ := signDisclosure_flat h.flat hsigns
  refine ⟨signature, hsignature, ?_⟩
  have hdummy : signatureField dummySignature = some dummySignature :=
    signatureField_encode (by simp)
  have hunsigned : closed (previewDisclosureRequest nfc validateUrl) (unsignedRequest d .null []) =
      .ok (bareRequest d dummySignature) := by
    rw [show unsignedRequest d .null [] = bareRequest d dummySignature from rfl, closed,
      bareRequest_dump validateUrl h hdummy]
  have hsigned : closed (previewDisclosureRequest nfc validateUrl) (bareRequest d signature) =
      .ok (bareRequest d signature) := by rw [closed, bareRequest_dump validateUrl h hsignature]
  have hnull : ∀ s : Json, get (asObj (bareRequest d s)) "commitment" = .null := fun _ => rfl
  have hbudget : manifestBudget nfc validateUrl (bareRequest d signature) =
      .ok (Utf8.encode (Json.obj (bareNormal d signature)).dumps).length := by
    rw [manifestBudget, hsigned, Except.ok_bind, hnull signature, bareRequest_bytes validateUrl h hsignature]
    rfl
  have hcheck : checkRequestSignatures validateUrl signer (asObj (bareRequest d dummySignature)) =
      .ok () := by
    unfold checkRequestSignatures
    rw [hnull dummySignature]
    rfl
  have hfield : withField "seller_signature" signature (bareRequest d dummySignature) =
      bareRequest d signature := rfl
  rw [constructRequest, hcandidate, Except.ok_bind, if_neg (not_not.2 allocatedP1_agrees), hunsigned,
    Except.ok_bind, hcheck, Except.ok_bind, hsign, Except.ok_bind, hfield]
  show (manifestBudget nfc validateUrl (bareRequest d signature) >>= fun _ => _) = _
  rw [hbudget, Except.ok_bind, hsigned]

end

/-! ## The names of a dump -/

section
variable {nfc : String → String} {x : Json} {old : List (String × Json)}

/-- The names of a dump: all, or all but that of a profile that is not given. -/
theorem binding_names (h : disclosureBinding nfc x = some (.obj old)) :
    ("aggregate_hash_profile" ∈ old.map Prod.fst ∧ old.map Prod.fst = bindingNames ∧
        get old "aggregate_hash_profile" ≠ .null) ∨
      ("aggregate_hash_profile" ∉ old.map Prod.fst ∧
        old.map Prod.fst = bindingNames.filter (· ≠ "aggregate_hash_profile")) := by
  obtain ⟨d, b, rfl, hb, hmodel, -⟩ := disclosureBinding_some h
  obtain ⟨b', hb', hkeys, -⟩ := closedModel_keys hmodel
  cases hb'
  cases hb
  have hnames : b.map Prod.fst = bindingNames := hkeys
  rw [dropLegacyProfile]
  split_ifs with hprofile
  · refine Or.inr ⟨fun hmem => ?_, ?_⟩
    · obtain ⟨p, hp, hname⟩ := List.mem_map.1 hmem
      exact of_decide_eq_true (List.mem_filter.1 hp).2 hname
    · rw [← hnames, List.filter_map]
      rfl
  · refine Or.inl ⟨?_, hnames, hprofile⟩
    rw [hnames]
    decide

theorem mem_names (h : disclosureBinding nfc x = some (.obj old)) {key : String}
    (hkey : key ∈ bindingNames) (hne : key ≠ "aggregate_hash_profile") : key ∈ old.map Prod.fst := by
  rcases binding_names h with ⟨-, hnames, -⟩ | ⟨-, hnames⟩
  · rw [hnames]
    exact hkey
  · rw [hnames]
    exact List.mem_filter.2 ⟨hkey, decide_eq_true hne⟩

theorem mem_of_mapM {α β : Type} {f : α → Option β} {a : α} : ∀ {l : List α} {bs : List β},
    l.mapM f = some bs → a ∈ l → ∃ b ∈ bs, f a = some b
  | c :: l, bs, h, ha => by
    simp only [List.mapM_cons, Option.bind_eq_bind, Option.bind_eq_some_iff] at h
    obtain ⟨b, hb, bs', hbs, h⟩ := h
    cases h
    rcases List.mem_cons.1 ha with rfl | ha
    · exact ⟨b, List.mem_cons_self, hb⟩
    · obtain ⟨b', hb', hf⟩ := mem_of_mapM hbs ha
      exact ⟨b', List.mem_cons_of_mem _ hb', hf⟩

theorem get_dropLegacyProfile (b : List (String × Json)) (key : String) :
    get (dropLegacyProfile b) key = get b key := by
  by_cases hkey : key = "aggregate_hash_profile"
  · subst hkey
    rw [dropLegacyProfile]
    split_ifs with hnull
    · have := lookup_filter_keys (fun k => decide (k ≠ "aggregate_hash_profile"))
        "aggregate_hash_profile" b
      rw [hnull]
      exact congrArg (fun o => Option.getD o Json.null) (this.trans (if_neg (by simp)))
    · rfl
  · rw [Contract.get, lookup_dropLegacyProfile hkey, ← Contract.get]

/-- The profile of a dump: none where none is given. -/
theorem binding_profile {b : List (String × Json)}
    (h : disclosureBinding nfc (.obj b) = some (.obj old)) :
    (b.lookup "aggregate_hash_profile" = none ∧ get old "aggregate_hash_profile" = .null) ∨
      ∃ y, b.lookup "aggregate_hash_profile" = some y ∧
        optional (literalField ["aim-approved-aggregates-v1", "aim-approved-aggregates-v2"]) y =
          some (get old "aggregate_hash_profile") := by
  obtain ⟨d, r, hd, hr, hmodel, -⟩ := disclosureBinding_some h
  cases hd
  cases hr
  rw [get_dropLegacyProfile]
  rw [closedModel] at hmodel
  split_ifs at hmodel
  obtain ⟨b', hmapM, hmodel⟩ := Option.bind_eq_some_iff.1 hmodel
  split_ifs at hmodel
  cases hmodel
  have hkeys : r.map Prod.fst = bindingNames := lookup_of_mapM_dump hmapM
  obtain ⟨p, hp, hdump⟩ := mem_of_mapM (a := ⟨"aggregate_hash_profile", optional (literalField
    ["aim-approved-aggregates-v1", "aim-approved-aggregates-v2"]), some .null⟩) hmapM
    (by simp [bindingFields])
  have hget := get_of_mem (hkeys ▸ nodup_bindingNames) hp
  rw [Field.dump] at hdump
  cases hl : b.lookup "aggregate_hash_profile" with
  | none =>
    rw [hl] at hdump
    cases hdump
    exact Or.inl ⟨rfl, hget⟩
  | some y =>
    rw [hl] at hdump
    obtain ⟨w, hw, rfl⟩ := Option.map_eq_some_iff.1 hdump
    refine Or.inr ⟨y, rfl, ?_⟩
    rw [show get r "aggregate_hash_profile" = w from hget]
    exact hw

/-- A profile that a publication names. -/
theorem takes_profile (h : disclosureBinding nfc x = some (.obj old))
    (hne : get old "aggregate_hash_profile" ≠ .null) :
    optional (literalField ["aim-approved-aggregates-v1", "aim-approved-aggregates-v2"])
        (get old "aggregate_hash_profile") = some (get old "aggregate_hash_profile") ∧
      Flat (get old "aggregate_hash_profile") := by
  have hsettles : Settles
      (optional (literalField ["aim-approved-aggregates-v1", "aim-approved-aggregates-v2"])) :=
    settles_optional (settles_literal (by decide))
  obtain ⟨b, -, rfl, -, -, -⟩ := disclosureBinding_some h
  rcases binding_profile h with ⟨-, hnull⟩ | ⟨y, -, hy⟩
  · exact absurd hnull hne
  · exact hsettles hy

end

end PreviewBuild

end AimData
