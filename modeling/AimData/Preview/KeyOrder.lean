/-
  An envelope read back has its keys in another order, and no check of
  `validate_envelope` sees the order of keys (`Blind`).
-/
import AimData.Preview.Package

namespace AimData

open Contract

/-! ## Functions that do not see the order of keys -/

/-- The function takes one value on a dict and on its normal form. -/
def Blind {α : Type} (f : Json → α) : Prop :=
  ∀ ⦃v w⦄, Dicts v → normalize v = .ok w → f w = f v

theorem blind_of_containers {α : Type} {f : Json → α}
    (harr : ∀ l l', DictsList l → normalizeList l = .ok l' → f (.arr l') = f (.arr l))
    (hobj : ∀ l l', Dicts (.obj l) → normalize (.obj l) = .ok (.obj l') →
      f (.obj l') = f (.obj l)) : Blind f := by
  intro v w hd h
  cases v with
  | arr l =>
    obtain ⟨l', rfl, hl⟩ := normalize_arr_ok h
    exact harr l l' hd hl
  | obj l =>
    obtain ⟨l', rfl, -, -⟩ := normalize_obj_ok h
    exact hobj l l' hd h
  | int i =>
    rw [normalize] at h
    split_ifs at h
    · cases h
    · cases h; rfl
  | float _ => cases h
  | _ => cases h; rfl

theorem blind_of_heads {α : Type} {f : Json → α} (harr : ∀ l l', f (.arr l') = f (.arr l))
    (hobj : ∀ l l', f (.obj l') = f (.obj l)) : Blind f :=
  blind_of_containers (fun l l' _ _ => harr l l') fun l l' _ _ => hobj l l'

theorem get_normalize {l l' : List (String × Json)} (h : normalize (.obj l) = .ok (.obj l'))
    (hnd : (l.map Prod.fst).Nodup) (key : String) :
    normalize (Contract.get l key) = .ok (Contract.get l' key) := by
  rcases lookup_normalize h hnd key with ⟨hl, hl'⟩ | ⟨v, v', hl, hl', hv⟩
  · rw [Contract.get, Contract.get, hl, hl']
    rfl
  · rw [Contract.get, Contract.get, hl, hl']
    exact hv

/-- A function of a field of a dict. -/
theorem Blind.get {α : Type} {f : Json → α} (hf : Blind f) (key : String) :
    Blind fun v => f (Contract.get (asObj v) key) :=
  blind_of_containers (fun _ _ _ _ => rfl) fun _ _ hd h =>
    hf (dicts_get hd.2 key) (get_normalize h hd.1 key)

theorem Blind.mapM {f : Validator} (hf : Blind f) : ∀ {l l' : List Json}, DictsList l →
    normalizeList l = .ok l' → l'.mapM f = l.mapM f := by
  intro l
  induction l with
  | nil =>
    intro l' _ h
    cases h
    rfl
  | cons v l ih =>
    intro l' hd h
    obtain ⟨v', hv, h⟩ := Except.bind_eq_ok.1 h
    obtain ⟨l'', hl, h⟩ := Except.bind_eq_ok.1 h
    cases h
    rw [List.mapM_cons, List.mapM_cons, hf hd.1 hv, ih hd.2 hl]

theorem blind_text (f : String → Option String) : Blind (text f) :=
  blind_of_heads (fun _ _ => rfl) fun _ _ => rfl

theorem blind_intField (min max : ℤ) : Blind (intField min max) :=
  blind_of_heads (fun _ _ => rfl) fun _ _ => rfl

theorem normalizeList_length : ∀ {l l' : List Json}, normalizeList l = .ok l' →
    l'.length = l.length := by
  intro l
  induction l with
  | nil =>
    intro l' h
    cases h
    rfl
  | cons v l ih =>
    intro l' h
    obtain ⟨v', -, h⟩ := Except.bind_eq_ok.1 h
    obtain ⟨l'', hl, h⟩ := Except.bind_eq_ok.1 h
    cases h
    rw [List.length_cons, List.length_cons, ih hl]

theorem blind_listField {f : Validator} (hf : Blind f) (min max : ℕ) :
    Blind (listField f min max) := by
  refine blind_of_containers (fun l l' hd hl => ?_) fun _ _ _ _ => rfl
  rw [listField, listField, normalizeList_length hl, hf.mapM hd hl]

/-- One dict has the normal forms of the fields of the other. -/
structure NormalDict (d d' : List (String × Json)) : Prop where
  keys : (d'.map Prod.fst).Perm (d.map Prod.fst)
  lookup : ∀ key, (d.lookup key = none ∧ d'.lookup key = none) ∨
    ∃ v v', d.lookup key = some v ∧ d'.lookup key = some v' ∧ Dicts v ∧ normalize v = .ok v'

theorem NormalDict.of_normalize {l l' : List (String × Json)} (hd : Dicts (.obj l))
    (h : normalize (.obj l) = .ok (.obj l')) : NormalDict l l' := by
  refine ⟨normalize_obj_keys h, fun key => (lookup_normalize h hd.1 key).imp_right ?_⟩
  rintro ⟨v, v', hl, hl', hv⟩
  exact ⟨v, v', hl, hl', dicts_lookup hd.2 hl, hv⟩

theorem NormalDict.filter {d d' : List (String × Json)} (h : NormalDict d d')
    (p : String → Bool) : NormalDict (d.filter fun f => p f.1) (d'.filter fun f => p f.1) := by
  refine ⟨?_, fun key => ?_⟩
  · have hp := h.keys.filter p
    rw [List.filter_map, List.filter_map] at hp
    exact hp
  · rw [lookup_filter_keys, lookup_filter_keys]
    by_cases hp : p key = true
    · rw [if_pos hp, if_pos hp]
      exact h.lookup key
    · rw [if_neg hp, if_neg hp]
      exact Or.inl ⟨rfl, rfl⟩

theorem NormalDict.dump {d d' : List (String × Json)} (h : NormalDict d d') {f : Field}
    (hf : Blind f.type) : f.dump d' = f.dump d := by
  rcases h.lookup f.name with ⟨hl, hl'⟩ | ⟨v, v', hl, hl', hd, hv⟩
  · rw [Field.dump, Field.dump, hl, hl']
  · rw [Field.dump, Field.dump, hl, hl']
    simp only [hf hd hv]

/-- **A model of such fields** takes one value on both. -/
theorem NormalDict.closedModel {d d' : List (String × Json)} (h : NormalDict d d')
    {fields : List Field} (hf : ∀ f ∈ fields, Blind f.type)
    (rules : List (String × Json) → Bool) :
    closedModel fields rules (.obj d') = closedModel fields rules (.obj d) := by
  have hdump : ∀ fs : List Field, (∀ f ∈ fs, Blind f.type) →
      fs.mapM (·.dump d') = fs.mapM (·.dump d) := by
    intro fs hfs
    induction fs with
    | nil => rfl
    | cons f fs ih =>
      rw [List.mapM_cons, List.mapM_cons, h.dump (hfs f (by simp)),
        ih fun g hg => hfs g (by simp [hg])]
  have hall : (d'.all fun p => p.1 ∈ fields.map Field.name) =
      d.all fun p => p.1 ∈ fields.map Field.name := by
    have hp := h.keys.all_eq (f := fun k => decide (k ∈ fields.map Field.name))
    rw [List.all_map, List.all_map] at hp
    exact hp
  rw [Contract.closedModel, Contract.closedModel, hall, hdump fields hf]

theorem blind_closedModel {fields : List Field} (hf : ∀ f ∈ fields, Blind f.type)
    (rules : List (String × Json) → Bool) : Blind (closedModel fields rules) :=
  blind_of_containers (fun _ _ _ _ => rfl) fun _ _ hd h =>
    (NormalDict.of_normalize hd h).closedModel hf rules

mutual
/-- What has a normal form has safe integers only. -/
theorem safeMetadata_of_normalize : ∀ {v w : Json}, normalize v = .ok w → safeMetadata v = true
  | .null, _, _ => rfl
  | .bool _, _, _ => rfl
  | .int i, w, h => by
    rw [normalize] at h
    split_ifs at h with hi
    · cases h
    · rw [safeMetadata, decide_eq_true_eq]
      exact not_lt.1 hi
  | .float _, _, _ => rfl
  | .str _, _, _ => rfl
  | .arr l, w, h => by
    obtain ⟨l', rfl, hl⟩ := normalize_arr_ok h
    exact safeMetadataList_of_normalize hl
  | .obj l, w, h => by
    obtain ⟨l', rfl, hl, -⟩ := normalize_obj_ok h
    refine safeMetadataFields_of_normalize fun f hf => ?_
    have hm : (f.1, normalize f.2) ∈ sortKeys (normalizeFields l) := by
      refine (List.perm_insertionSort _ _).symm.subset ?_
      rw [normalizeFields_eq]
      exact List.mem_map_of_mem hf
    rw [hl] at hm
    obtain ⟨g, -, hg⟩ := List.mem_map.1 hm
    exact ⟨g.2, (Prod.mk.inj hg).2.symm⟩

theorem safeMetadataList_of_normalize : ∀ {l l' : List Json}, normalizeList l = .ok l' →
    safeMetadataList l = true
  | [], _, _ => rfl
  | v :: l, l', h => by
    obtain ⟨v', hv, h⟩ := Except.bind_eq_ok.1 h
    obtain ⟨l'', hl, h⟩ := Except.bind_eq_ok.1 h
    rw [safeMetadataList, safeMetadata_of_normalize hv, safeMetadataList_of_normalize hl]
    rfl

theorem safeMetadataFields_of_normalize : ∀ {l : List (String × Json)},
    (∀ f ∈ l, ∃ w, normalize f.2 = .ok w) → safeMetadataFields l = true
  | [], _ => rfl
  | (k, v) :: l, h => by
    obtain ⟨w, hw⟩ := h (k, v) (by simp)
    rw [safeMetadataFields, safeMetadata_of_normalize hw,
      safeMetadataFields_of_normalize fun f hf => h f (by simp [hf])]
    rfl
end

theorem blind_closedMetadata {f : Validator} (hf : Blind f) : Blind (closedMetadata f) := by
  intro v w hd h
  rw [closedMetadata, closedMetadata, safeMetadata_of_normalize h,
    safeMetadata_of_normalize (normalize_normal h), hf hd h]

theorem blind_proofSibling : Blind proofSibling := by
  refine blind_closedMetadata (blind_closedModel ?_ _)
  intro f hf
  rcases List.mem_pair.1 hf with rfl | rfl <;> exact blind_text _

theorem blind_proofFields :
    ∀ f ∈ (⟨"base_row_digest", digestTextField, none⟩ :: positionFields : List Field),
      Blind f.type := by
  intro f hf
  simp only [positionFields, List.mem_cons, List.not_mem_nil, or_false] at hf
  rcases hf with rfl | rfl | rfl | rfl | rfl
  · exact blind_text _
  · exact blind_intField _ _
  · exact blind_intField _ _
  · exact blind_intField _ _
  · exact blind_listField blind_proofSibling _ _

theorem entryProof_normalize {e e' : List (String × Json)} (hd : Dicts (.obj e))
    (h : normalize (.obj e) = .ok (.obj e')) : entryProof e' = entryProof e := by
  have hsafe : ∀ {l l' : List (String × Json)}, normalize (.obj l) = .ok (.obj l') →
      safeMetadata (.obj (l.filter fun p => p.1 ≠ "row" ∧ p.1 ≠ "proof_id")) = true := by
    intro l l' hl
    refine safeMetadataFields_of_normalize fun f hf => ?_
    have hm : (f.1, normalize f.2) ∈ l.map fun f => (f.1, normalize f.2) :=
      List.mem_map_of_mem (List.mem_of_mem_filter hf)
    obtain ⟨g, -, hg⟩ := List.mem_map.1 ((normalize_obj_perm hl).symm.subset hm)
    exact ⟨g.2, (Prod.mk.inj hg).2.symm⟩
  have hmodel := ((NormalDict.of_normalize hd h).filter fun k => k ≠ "row" ∧ k ≠ "proof_id").closedModel
    blind_proofFields validPositions
  rw [entryProof, entryProof, commitmentProof, closedMetadata, closedMetadata, hsafe h,
    hsafe (normalize_normal h)]
  simp only [if_true]
  rw [hmodel]

/-! ## Rows -/

open CanonicalSchema

section
variable {nfc : String → String} {text : Bool} {offset : Option String}

/-- What `_record` makes of the names of a JSON object. -/
theorem normalizeKeys_ofJson : ∀ (l : List (String × Json)) (names : List String),
    normalizeKeys nfc (PyValue.ofJsonFields l) names =
      if (l.map fun f => nfc f.1).Nodup ∧ ∀ f ∈ l, nfc f.1 ∉ names then
        .ok (l.map fun f => (nfc f.1, PyValue.ofJson f.2))
      else refuse "duplicate_field"
  | [], names => by simp [PyValue.ofJsonFields, normalizeKeys]
  | (k, v) :: l, names => by
    rw [PyValue.ofJsonFields, normalizeKeys, normalizeKeys_ofJson l]
    by_cases hk : nfc k ∈ names
    · rw [if_pos hk, if_neg fun h => h.2 (k, v) (by simp) hk]
    · rw [if_neg hk]
      by_cases hl : (l.map fun f => nfc f.1).Nodup ∧ ∀ f ∈ l, nfc f.1 ∉ nfc k :: names
      · have hall : ((((k, v) :: l).map fun f => nfc f.1).Nodup ∧
            ∀ f ∈ (k, v) :: l, nfc f.1 ∉ names) := by
          refine ⟨List.nodup_cons.2 ⟨fun h => ?_, hl.1⟩, fun f hf => ?_⟩
          · obtain ⟨f, hf, he⟩ := List.mem_map.1 h
            exact hl.2 f hf (by rw [he]; exact List.mem_cons_self)
          · rcases List.mem_cons.1 hf with rfl | hf
            · exact hk
            · exact fun h => hl.2 f hf (List.mem_cons_of_mem _ h)
        rw [if_pos hl, if_pos hall]
        rfl
      · rw [if_neg hl, if_neg]
        · rfl
        · rintro ⟨hnd, hnames⟩
          rw [List.map_cons, List.nodup_cons] at hnd
          refine hl ⟨hnd.2, fun f hf h => ?_⟩
          rcases List.mem_cons.1 h with he | h
          · exact hnd.1 (he ▸ List.mem_map_of_mem hf)
          · exact hnames f (List.mem_cons_of_mem _ hf) h

theorem lookup_eq (normalized : List (String × PyValue)) (name : String) :
    CanonicalSchema.lookup normalized name = normalized.lookup name := by
  induction normalized with
  | nil => rfl
  | cons f l ih =>
    obtain ⟨k, v⟩ := f
    rw [CanonicalSchema.lookup] at ih ⊢
    by_cases hk : k = name
    · subst hk
      simp
    · rw [List.find?_cons_of_neg (by simpa using hk), ih, List.lookup_cons,
        beq_eq_false_iff_ne.2 (Ne.symm hk)]

/-- The record read under declared fields: the head and the loop of `_record`. -/
def recordRows (nfc : String → String) (text : Bool) (offset : Option String) (fields : Fields)
    (v : PyValue) (depth count : ℕ) : Except CommitmentValidationError (List Json × ℕ) := do
  let normalized ← recordOf nfc fields.names v
  record nfc text offset fields normalized depth count

/-- The loop sees of the names what it finds under each. -/
theorem record_congr {normalized normalized' : List (String × PyValue)}
    (h : ∀ (name tag : String) (type : LogicalType) (nullable : Bool) (depth count : ℕ),
      fieldValue name tag nullable depth (CanonicalSchema.lookup normalized' name)
          (fun v count => value nfc text offset type v depth count) count =
        fieldValue name tag nullable depth (CanonicalSchema.lookup normalized name)
          (fun v count => value nfc text offset type v depth count) count) :
    ∀ (fields : Fields) (depth count : ℕ),
      record nfc text offset fields normalized' depth count =
        record nfc text offset fields normalized depth count
  | .nil, _, _ => rfl
  | .cons name type nullable rest, depth, count => by
    rw [record, record, h]
    simp only [record_congr h rest]

/-- The order of the fields does not matter. -/
theorem recordRows_perm {l m : List (String × Json)} (hp : m.Perm l) (fields : Fields)
    (depth count : ℕ) :
    recordRows nfc text offset fields (.dict (PyValue.ofJsonFields m)) depth count =
      recordRows nfc text offset fields (.dict (PyValue.ofJsonFields l)) depth count := by
  have hnames := hp.map fun f => nfc f.1
  rw [recordRows, recordRows, recordOf, recordOf, normalizeKeys_ofJson, normalizeKeys_ofJson]
  by_cases hl : (l.map fun f => nfc f.1).Nodup ∧ ∀ f ∈ l, nfc f.1 ∉ ([] : List String)
  · have hm : (m.map fun f => nfc f.1).Nodup ∧ ∀ f ∈ m, nfc f.1 ∉ ([] : List String) :=
      ⟨hnames.nodup_iff.2 hl.1, fun f _ => List.not_mem_nil⟩
    rw [if_pos hl, if_pos hm, Except.ok_bind, Except.ok_bind]
    have hpairs := hp.map fun f => (nfc f.1, PyValue.ofJson f.2)
    rw [hpairs.all_eq]
    split_ifs with hall
    · rw [Except.pure_eq_ok, Except.pure_eq_ok, Except.ok_bind, Except.ok_bind]
      refine record_congr (fun name tag type nullable depth count => ?_) fields depth count
      have hnd : ((l.map fun f => (nfc f.1, PyValue.ofJson f.2)).map Prod.fst).Nodup := by
        rw [List.map_map]
        exact hl.1
      have hlookup : (m.map fun f => (nfc f.1, PyValue.ofJson f.2)).lookup name =
          (l.map fun f => (nfc f.1, PyValue.ofJson f.2)).lookup name := by
        refine Option.ext fun v => ?_
        rw [lookup_iff_mem hnd, lookup_iff_mem ((hpairs.map Prod.fst).nodup_iff.2 hnd),
          hpairs.mem_iff]
      rw [lookup_eq, lookup_eq, hlookup]
    · rfl
  · rw [if_neg hl, if_neg fun hm => hl ⟨hnames.nodup_iff.1 hm.1, fun f _ => List.not_mem_nil⟩]

/-- Two values that every type reads alike. -/
structure ReadAlike (nfc : String → String) (text : Bool) (offset : Option String) (v w : Json) :
    Prop where
  null : v = .null ↔ w = .null
  value : ∀ (type : LogicalType) (depth count : ℕ),
    value nfc text offset type (PyValue.ofJson w) depth count =
      value nfc text offset type (PyValue.ofJson v) depth count

theorem ofJson_none {v : Json} : PyValue.ofJson v = .none ↔ v = .null := by
  cases v <;> simp [PyValue.ofJson]

/-- A field is found with values that read alike. -/
theorem fieldValue_pointwise (name tag : String) (type : LogicalType) (nullable : Bool)
    (depth count : ℕ) : ∀ {l l' : List (String × Json)},
    List.Forall₂ (fun f g => f.1 = g.1 ∧ ReadAlike nfc text offset f.2 g.2) l l' →
    fieldValue name tag nullable depth
        ((l'.map fun f => (nfc f.1, PyValue.ofJson f.2)).lookup name)
        (fun v count => value nfc text offset type v depth count) count =
      fieldValue name tag nullable depth
        ((l.map fun f => (nfc f.1, PyValue.ofJson f.2)).lookup name)
        (fun v count => value nfc text offset type v depth count) count
  | _, _, .nil => rfl
  | f :: _, g :: _, .cons ⟨hk, hread⟩ h => by
    rw [List.map_cons, List.map_cons, List.lookup_cons, List.lookup_cons, hk]
    by_cases hname : name = nfc g.1
    · rw [hname, beq_self_eq_true]
      by_cases hv : f.2 = .null
      · rw [hread.null.1 hv, hv]
      · have hw := fun h => hv (hread.null.2 h)
        rw [fieldValue_some (mt ofJson_none.1 hv), fieldValue_some (mt ofJson_none.1 hw),
          hread.value]
    · rw [beq_eq_false_iff_ne.2 hname]
      exact fieldValue_pointwise name tag type nullable depth count h

theorem forall₂_keys {P : Json → Json → Prop} : ∀ {l l' : List (String × Json)},
    List.Forall₂ (fun f g => f.1 = g.1 ∧ P f.2 g.2) l l' → l'.map Prod.fst = l.map Prod.fst
  | _, _, .nil => rfl
  | _, _, .cons ⟨hk, _⟩ h => by rw [List.map_cons, List.map_cons, forall₂_keys h, hk]

/-- Fields whose values read alike. -/
theorem recordRows_pointwise {l l' : List (String × Json)}
    (h : List.Forall₂ (fun f g => f.1 = g.1 ∧ ReadAlike nfc text offset f.2 g.2) l l')
    (fields : Fields) (depth count : ℕ) :
    recordRows nfc text offset fields (.dict (PyValue.ofJsonFields l')) depth count =
      recordRows nfc text offset fields (.dict (PyValue.ofJsonFields l)) depth count := by
  have hnames : (l'.map fun f => nfc f.1) = l.map fun f => nfc f.1 := by
    have := congrArg (List.map nfc) (forall₂_keys h)
    rwa [List.map_map, List.map_map] at this
  have hall : ((l'.map fun f => (nfc f.1, PyValue.ofJson f.2)).all fun f => f.1 ∈ fields.names) =
      (l.map fun f => (nfc f.1, PyValue.ofJson f.2)).all fun f => f.1 ∈ fields.names := by
    have h := congrArg (fun l => l.all fun k => decide (k ∈ fields.names)) hnames
    rw [List.all_map, List.all_map] at h
    rw [List.all_map, List.all_map]
    exact h
  rw [recordRows, recordRows, recordOf, recordOf, normalizeKeys_ofJson, normalizeKeys_ofJson, hnames]
  simp only [List.not_mem_nil, not_false_eq_true, implies_true, and_true]
  split_ifs with hnd
  · rw [Except.ok_bind, Except.ok_bind, hall]
    split_ifs
    · rw [Except.pure_eq_ok, Except.pure_eq_ok, Except.ok_bind, Except.ok_bind]
      refine record_congr (fun name tag type nullable depth count => ?_) fields depth count
      rw [lookup_eq, lookup_eq]
      exact fieldValue_pointwise name tag type nullable depth count h
    · rfl
  · rfl

theorem arrayValue_alike {type : LogicalType} {depth : ℕ} : ∀ {l l' : List Json},
    List.Forall₂ (ReadAlike nfc text offset) l l' → ∀ count : ℕ,
      arrayValue (fun v count => value nfc text offset type v depth count)
          (PyValue.ofJsonList l') count =
        arrayValue (fun v count => value nfc text offset type v depth count)
          (PyValue.ofJsonList l) count
  | _, _, .nil, _ => rfl
  | _, _, .cons h hs, count => by
    rw [PyValue.ofJsonList, PyValue.ofJsonList, arrayValue, arrayValue, h.value]
    simp only [arrayValue_alike hs]

theorem value_object (fields : Fields) (l : List (PyKey × PyValue)) (depth count : ℕ) :
    value nfc text offset (.object fields) (.dict l) depth count = do
      let count ← countValue depth count
      let (js, count) ← recordRows nfc text offset fields (.dict l) (depth + 1) count
      return (.arr js, count) := by
  rw [value, counted]
  refine bind_congr fun count => ?_
  rw [recordRows, bind_assoc]

/-- **A value and its normal form read alike.** -/
theorem readAlike_normalize {v w : Json} (hd : Dicts v) (h : normalize v = .ok w) :
    ReadAlike nfc text offset v w := by
  refine normalize_induction (P := ReadAlike nfc text offset) ?_ ?_ ?_ hd h
  · intro v _ _
    exact ⟨Iff.rfl, fun _ _ _ => rfl⟩
  · intro l l' hl
    refine ⟨by simp, fun type depth count => ?_⟩
    cases type with
    | array element =>
      rw [PyValue.ofJson, PyValue.ofJson, value, value, counted, counted]
      simp only [arrayValue_alike hl]
    | _ => rfl
  · intro l l' hnd hl
    refine ⟨by simp, fun type depth count => ?_⟩
    cases type with
    | object fields =>
      have hsort : (sortKeys l).Perm l := List.perm_insertionSort _ l
      rw [PyValue.ofJson, PyValue.ofJson, value_object, value_object]
      simp only [recordRows_pointwise hl, recordRows_perm hsort]
    | _ => rfl

/-- **The canonical row of a row and of its normal form.** -/
theorem blind_canonicalRow (schema : CanonicalSchema) :
    Blind fun row => schema.canonicalRow nfc text offset (PyValue.ofJson row) := by
  refine blind_of_containers (fun _ _ _ _ => rfl) fun l l' hd h => ?_
  have hfields : List.Forall₂ (fun f g => f.1 = g.1 ∧ ReadAlike nfc text offset f.2 g.2)
      (sortKeys l) l' := by
    have hf := List.forall₂_iff_get.1 (normalize_obj_fields h)
    refine List.forall₂_iff_get.2 ⟨hf.1, fun i hi hi' => ?_⟩
    obtain ⟨hk, hv⟩ := hf.2 i hi hi'
    have hmem := (List.perm_insertionSort (fun a b => codePoints a.1 ≤ codePoints b.1) l).subset
      (List.get_mem (sortKeys l) ⟨i, hi⟩)
    exact ⟨hk, readAlike_normalize (dictsFields_mem hd.2 hmem) hv⟩
  have hsort : (sortKeys l).Perm l := List.perm_insertionSort _ l
  have hrow : ∀ v : PyValue, schema.canonicalRow nfc text offset v = do
      let (js, _) ← recordRows nfc text offset schema.descriptors v 0 0
      let encoded ← canonicalJsonBytes (.arr js)
      if encoded.length > maxRecordBytes then refuse "record_resource_limit" else return encoded := by
    intro v
    rw [canonicalRow, recordRows, bind_assoc]
  simp only [PyValue.ofJson, hrow, recordRows_pointwise hfields, recordRows_perm hsort]

/-! ### Rows are dicts -/

theorem scalar_ok {r : Except CommitmentValidationError Json} {v : PyValue} {depth count : ℕ}
    {out : Json × ℕ} (h : counted v depth count (scalar r) = .ok out) :
    v = .none ∨ ∃ j, r = .ok j := by
  rcases counted_ok h with ⟨hv, -⟩ | ⟨-, count, h⟩
  · exact Or.inl hv
  · obtain ⟨j, hj, -⟩ := Except.bind_eq_ok.1 h
    exact Or.inr ⟨j, hj⟩

/-- A value that is no container is a dict at every depth. -/
theorem dicts_of_scalar {v : Json} (harr : ∀ l, v ≠ .arr l) (hobj : ∀ l, v ≠ .obj l) : Dicts v := by
  cases v with
  | arr l => exact absurd rfl (harr l)
  | obj l => exact absurd rfl (hobj l)
  | _ => trivial

theorem dicts_of_scalarValue {r : PyValue → Except CommitmentValidationError Json} {v : Json}
    {depth count : ℕ} {out : Json × ℕ}
    (h : counted (PyValue.ofJson v) depth count (scalar (r (PyValue.ofJson v))) = .ok out)
    (hlist : ∀ l j, r (.list l) ≠ .ok j) (hdict : ∀ l j, r (.dict l) ≠ .ok j) : Dicts v := by
  rcases scalar_ok h with hv | ⟨j, hj⟩
  · rw [ofJson_none.1 hv]
    trivial
  · refine dicts_of_scalar ?_ ?_
    · rintro l rfl
      exact hlist _ j hj
    · rintro l rfl
      exact hdict _ j hj

theorem dictsList_of_forall : ∀ {l : List Json}, (∀ v ∈ l, Dicts v) → DictsList l
  | [], _ => trivial
  | _ :: _, h => ⟨h _ (by simp), dictsList_of_forall fun v hv => h v (by simp [hv])⟩

theorem dictsFields_of_forall : ∀ {l : List (String × Json)}, (∀ f ∈ l, Dicts f.2) → DictsFields l
  | [], _ => trivial
  | _ :: _, h => ⟨h _ (by simp), dictsFields_of_forall fun f hf => h f (by simp [hf])⟩

/-- The elements of a written list are written. -/
theorem arrayValue_written {body : PyValue → ℕ → Except CommitmentValidationError (Json × ℕ)} :
    ∀ {l : List Json} {count : ℕ} {out : List Json × ℕ},
      arrayValue body (PyValue.ofJsonList l) count = .ok out →
      ∀ v ∈ l, ∃ count r, body (PyValue.ofJson v) count = .ok r
  | [], _, _, _ => by simp
  | v :: l, count, out, h => by
    obtain ⟨r, hr, h⟩ := Except.bind_eq_ok.1 h
    obtain ⟨rs, hrs, h⟩ := Except.bind_eq_ok.1 h
    intro u hu
    rcases List.mem_cons.1 hu with rfl | hu
    · exact ⟨count, r, hr⟩
    · exact arrayValue_written hrs u hu

/-- A record whose declared fields are dicts. -/
theorem dicts_of_record {names : List String} {v : Json} {normalized : List (String × PyValue)}
    (hn : recordOf nfc names (PyValue.ofJson v) = .ok normalized)
    (hfields : ∀ name (u : Json), CanonicalSchema.lookup normalized name = some (PyValue.ofJson u) →
      name ∈ names → Dicts u) : Dicts v := by
  cases v with
  | obj l =>
    obtain ⟨m, hm, hn⟩ := Except.bind_eq_ok.1 hn
    rw [normalizeKeys_ofJson] at hm
    split_ifs at hm with hnd
    · cases hm
      split_ifs at hn with hall
      · cases hn
        have hkeys : ((l.map fun f => (nfc f.1, PyValue.ofJson f.2)).map Prod.fst).Nodup := by
          rw [List.map_map]
          exact hnd.1
        refine ⟨List.Nodup.of_map nfc (by rw [List.map_map]; exact hnd.1),
          dictsFields_of_forall fun f hf => ?_⟩
        have hmem : (nfc f.1, PyValue.ofJson f.2) ∈
            l.map fun f => (nfc f.1, PyValue.ofJson f.2) := List.mem_map_of_mem hf
        refine hfields (nfc f.1) f.2 ?_ ?_
        · rw [lookup_eq]
          exact (lookup_iff_mem hkeys).2 hmem
        · exact of_decide_eq_true (List.all_eq_true.1 hall _ hmem)
      · cases hn
    · cases hm
  | _ => cases hn

mutual
/-- **A written value is a dict** at every depth. -/
theorem dicts_of_value : ∀ (type : LogicalType) {v : Json} {depth count : ℕ} {out : Json × ℕ},
    value nfc text offset type (PyValue.ofJson v) depth count = .ok out → Dicts v
  | .string, v, depth, count, out, h =>
    dicts_of_scalarValue h (fun _ _ h => by cases h) fun _ _ h => by cases h
  | .boolean, v, depth, count, out, h =>
    dicts_of_scalarValue (r := booleanValue text) h
      (fun _ _ h => by rw [booleanValue] at h; split_ifs at h <;> cases h)
      fun _ _ h => by rw [booleanValue] at h; split_ifs at h <;> cases h
  | .signedInteger, v, depth, count, out, h =>
    dicts_of_scalarValue h (fun _ _ h => by cases h) fun _ _ h => by cases h
  | .decimal params, v, depth, count, out, h =>
    dicts_of_scalarValue (r := decimalValue params) h (fun _ _ h => by cases h)
      fun _ _ h => by cases h
  | .date, v, depth, count, out, h =>
    dicts_of_scalarValue h (fun _ _ h => by cases h) fun _ _ h => by cases h
  | .timestamp p, v, depth, count, out, h =>
    dicts_of_scalarValue (r := timestampValue p offset) h (fun _ _ h => by cases h)
      fun _ _ h => by cases h
  | .binary, v, depth, count, out, h =>
    dicts_of_scalarValue h (fun _ _ h => by cases h) fun _ _ h => by cases h
  | .array element, v, depth, count, out, h => by
    rcases counted_ok h with ⟨hv, -⟩ | ⟨-, count, h⟩
    · rw [ofJson_none.1 hv]
      trivial
    · cases v with
      | arr l =>
        obtain ⟨rs, hrs, -⟩ := Except.bind_eq_ok.1 h
        refine dictsList_of_forall fun u hu => ?_
        obtain ⟨count, r, hr⟩ := arrayValue_written hrs u hu
        exact dicts_of_value element hr
      | _ => cases h
  | .object fields, v, depth, count, out, h => by
    rcases counted_ok h with ⟨hv, -⟩ | ⟨-, count, h⟩
    · rw [ofJson_none.1 hv]
      trivial
    · obtain ⟨normalized, hn, h⟩ := Except.bind_eq_ok.1 h
      obtain ⟨rs, hrs, -⟩ := Except.bind_eq_ok.1 h
      exact dicts_of_record hn fun name u hl hname => dicts_of_fields fields hrs hl hname

/-- What is found under a declared name is a dict. -/
theorem dicts_of_fields : ∀ (fields : Fields) {normalized : List (String × PyValue)}
    {depth count : ℕ} {out : List Json × ℕ},
    record nfc text offset fields normalized depth count = .ok out → ∀ {name : String} {v : Json},
      CanonicalSchema.lookup normalized name = some (PyValue.ofJson v) → name ∈ fields.names →
      Dicts v
  | .nil, _, _, _, _, _, name, v, _, hname => by cases hname
  | .cons field type nullable rest, normalized, depth, count, out, h, name, v, hl, hname => by
    obtain ⟨r, hr, h⟩ := Except.bind_eq_ok.1 h
    obtain ⟨rs, hrs, -⟩ := Except.bind_eq_ok.1 h
    rcases List.mem_cons.1 hname with rfl | hname
    · rw [hl] at hr
      rcases fieldValue_cases hr with ⟨hf, -⟩ | ⟨hf, -⟩ | ⟨u, c, x, hf, -, hx, -⟩
      · cases hf
      · rw [ofJson_none.1 (Option.some.inj hf)]
        trivial
      · cases hf
        exact dicts_of_value type hx
    · exact dicts_of_fields rest hrs hl hname
end

/-- **A row that has a canonical text is a dict** at every depth. -/
theorem dicts_of_canonicalRow {schema : CanonicalSchema} {row : Json} {rowBytes : Bytes}
    (h : schema.canonicalRow nfc text offset (PyValue.ofJson row) = .ok rowBytes) : Dicts row := by
  obtain ⟨normalized, hn, h⟩ := Except.bind_eq_ok.1 h
  obtain ⟨rs, hrs, -⟩ := Except.bind_eq_ok.1 h
  exact dicts_of_record hn fun name u hl hname => dicts_of_fields schema.descriptors hrs hl hname

end

/-! ## The value budget -/

mutual
/-- The containers and scalars of a value. -/
def nodeCount : Json → ℕ
  | .arr l => nodeCountList l + 1
  | .obj l => nodeCountFields l + 1
  | _ => 1

def nodeCountList : List Json → ℕ
  | [] => 0
  | v :: l => nodeCount v + nodeCountList l

def nodeCountFields : List (String × Json) → ℕ
  | [] => 0
  | (_, v) :: l => nodeCount v + nodeCountFields l
end

mutual
/-- No float, and nothing nested deeper than 16 levels. -/
def Shallow : ℕ → Json → Prop
  | depth, .arr l => depth ≤ 16 ∧ ShallowList (depth + 1) l
  | depth, .obj l => depth ≤ 16 ∧ ShallowFields (depth + 1) l
  | _, .float _ => False
  | depth, _ => depth ≤ 16

def ShallowList : ℕ → List Json → Prop
  | _, [] => True
  | depth, v :: l => Shallow depth v ∧ ShallowList depth l

def ShallowFields : ℕ → List (String × Json) → Prop
  | _, [] => True
  | depth, (_, v) :: l => Shallow depth v ∧ ShallowFields depth l
end

theorem nodeCountList_eq : ∀ l : List Json, nodeCountList l = (l.map fun v => nodeCount v).sum
  | [] => rfl
  | v :: l => by rw [nodeCountList, nodeCountList_eq l, List.map_cons, List.sum_cons]

theorem nodeCountFields_eq : ∀ l : List (String × Json),
    nodeCountFields l = (l.map fun f => nodeCount f.2).sum
  | [] => rfl
  | (k, v) :: l => by rw [nodeCountFields, nodeCountFields_eq l, List.map_cons, List.sum_cons]

theorem shallowList_iff {depth : ℕ} : ∀ {l : List Json},
    ShallowList depth l ↔ ∀ v ∈ l, Shallow depth v
  | [] => by simp [ShallowList]
  | v :: l => by rw [ShallowList, shallowList_iff, List.forall_mem_cons]

theorem shallowFields_iff {depth : ℕ} : ∀ {l : List (String × Json)},
    ShallowFields depth l ↔ ∀ f ∈ l, Shallow depth f.2
  | [] => by simp [ShallowFields]
  | (k, v) :: l => by rw [ShallowFields, shallowFields_iff, List.forall_mem_cons]

theorem valueBudgetFrom_succ (left depth : ℕ) (v : Json) (stack : List (Json × ℕ)) :
    valueBudgetFrom (left + 1) ((v, depth) :: stack) = limit "depth" depth >>= fun _ =>
      match v with
      | .obj l => valueBudgetFrom left ((l.map fun p => (p.2, depth + 1)).reverse ++ stack)
      | .arr l => valueBudgetFrom left ((l.map fun v => (v, depth + 1)).reverse ++ stack)
      | .float _ => refuseEnvelope "invalid_value"
      | _ => valueBudgetFrom left stack := rfl

theorem limit_depth {depth : ℕ} {u : Unit} : limit "depth" depth = .ok u ↔ depth ≤ 16 := by
  rw [limit, show (caps.lookup "depth").getD 0 = 16 from rfl]
  by_cases hd : depth ≤ 16
  · rw [if_neg (by omega)]
    simp [hd]
  · rw [if_pos (by omega)]
    simp [hd, refuseEnvelope, raise]

theorem Shallow.depth_le {depth : ℕ} {v : Json} (h : Shallow depth v) : depth ≤ 16 := by
  cases v with
  | arr l => exact h.1
  | obj l => exact h.1
  | float t => exact h.elim
  | _ => exact h

/-- **When the budget of a stack suffices.** -/
theorem valueBudgetFrom_ok_iff : ∀ {left : ℕ} {stack : List (Json × ℕ)},
    (∃ n, valueBudgetFrom left stack = .ok n) ↔
      (stack.map fun p => nodeCount p.1).sum ≤ left ∧ ∀ p ∈ stack, Shallow p.2 p.1
  | left, [] => by simp [valueBudgetFrom]
  | 0, (v, depth) :: stack => by
    have hpos : 0 < nodeCount v := by cases v <;> simp [nodeCount]
    simp only [valueBudgetFrom, refuseEnvelope, raise, List.map_cons, List.sum_cons]
    constructor
    · rintro ⟨n, h⟩
      cases h
    · rintro ⟨h, -⟩
      omega
  | left + 1, (v, depth) :: stack => by
    rw [valueBudgetFrom_succ, List.map_cons, List.sum_cons, List.forall_mem_cons]
    by_cases hd : depth ≤ 16
    · rw [(limit_depth (u := ())).2 hd, Except.ok_bind]
      cases v with
      | arr l =>
        dsimp only
        rw [valueBudgetFrom_ok_iff, List.forall_mem_append, List.map_append, List.sum_append,
          List.map_reverse, List.sum_reverse, List.map_map, nodeCount, nodeCountList_eq, Shallow,
          shallowList_iff]
        simp only [List.mem_reverse, List.forall_mem_map, Function.comp_def]
        constructor
        · rintro ⟨h1, h2, h3⟩
          exact ⟨by omega, ⟨hd, h2⟩, h3⟩
        · rintro ⟨h1, ⟨-, h2⟩, h3⟩
          exact ⟨by omega, h2, h3⟩
      | obj l =>
        dsimp only
        rw [valueBudgetFrom_ok_iff, List.forall_mem_append, List.map_append, List.sum_append,
          List.map_reverse, List.sum_reverse, List.map_map, nodeCount, nodeCountFields_eq, Shallow,
          shallowFields_iff]
        simp only [List.mem_reverse, List.forall_mem_map, Function.comp_def]
        constructor
        · rintro ⟨h1, h2, h3⟩
          exact ⟨by omega, ⟨hd, h2⟩, h3⟩
        · rintro ⟨h1, ⟨-, h2⟩, h3⟩
          exact ⟨by omega, h2, h3⟩
      | float t => simp [refuseEnvelope, raise, Shallow]
      | _ =>
        dsimp only
        rw [valueBudgetFrom_ok_iff]
        simp only [nodeCount, Shallow]
        constructor
        · rintro ⟨h1, h2⟩
          exact ⟨by omega, hd, h2⟩
        · rintro ⟨h1, -, h2⟩
          exact ⟨by omega, h2⟩
    · constructor
      · rintro ⟨n, h⟩
        obtain ⟨u, hu, -⟩ := Except.bind_eq_ok.1 h
        exact absurd (limit_depth.1 hu) hd
      · rintro ⟨-, h, -⟩
        exact absurd h.depth_le hd

theorem shallowFields_pointwise (depth : ℕ) : ∀ {l l' : List (String × Json)},
    List.Forall₂ (fun f g => f.1 = g.1 ∧ nodeCount g.2 = nodeCount f.2 ∧
      ∀ depth, Shallow depth f.2 → Shallow depth g.2) l l' →
    nodeCountFields l' = nodeCountFields l ∧ (ShallowFields depth l → ShallowFields depth l')
  | _, _, .nil => ⟨rfl, id⟩
  | _, _, .cons ⟨_, hcount, hs⟩ h => by
    obtain ⟨ihcount, ihs⟩ := shallowFields_pointwise depth h
    exact ⟨by rw [nodeCountFields, nodeCountFields, hcount, ihcount],
      fun h => ⟨hs _ h.1, ihs h.2⟩⟩

theorem shallowList_pointwise (depth : ℕ) : ∀ {l l' : List Json},
    List.Forall₂ (fun v w => nodeCount w = nodeCount v ∧
      ∀ depth, Shallow depth v → Shallow depth w) l l' →
    nodeCountList l' = nodeCountList l ∧ (ShallowList depth l → ShallowList depth l')
  | _, _, .nil => ⟨rfl, id⟩
  | _, _, .cons ⟨hcount, hs⟩ h => by
    obtain ⟨ihcount, ihs⟩ := shallowList_pointwise depth h
    exact ⟨by rw [nodeCountList, nodeCountList, hcount, ihcount], fun h => ⟨hs _ h.1, ihs h.2⟩⟩

/-- A value and its normal form have as many nodes, as deep. -/
theorem budget_normalize {v w : Json} (hd : Dicts v) (h : normalize v = .ok w) :
    nodeCount w = nodeCount v ∧ ∀ depth, Shallow depth v → Shallow depth w := by
  refine normalize_induction
    (P := fun v w => nodeCount w = nodeCount v ∧ ∀ depth, Shallow depth v → Shallow depth w)
    (fun v _ _ => ⟨rfl, fun _ h => h⟩) ?_ ?_ hd h
  · intro l l' hl
    refine ⟨by rw [nodeCount, nodeCount, (shallowList_pointwise 0 hl).1], ?_⟩
    rintro depth ⟨hdepth, hs⟩
    exact ⟨hdepth, (shallowList_pointwise _ hl).2 hs⟩
  · intro l l' _ hl
    have hsort : (sortKeys l).Perm l := List.perm_insertionSort _ l
    have hperm : nodeCountFields (sortKeys l) = nodeCountFields l := by
      rw [nodeCountFields_eq, nodeCountFields_eq]
      exact (hsort.map _).sum_eq
    refine ⟨by rw [nodeCount, nodeCount, (shallowFields_pointwise 0 hl).1, hperm], ?_⟩
    rintro depth ⟨hdepth, hs⟩
    refine ⟨hdepth, (shallowFields_pointwise _ hl).2 ?_⟩
    exact shallowFields_iff.2 fun f hf => shallowFields_iff.1 hs f (hsort.subset hf)

/-- **The budget suffices for a normal form** if it does for the value. -/
theorem valueBudget_normalize {v w : Json} {n : ℕ} (hd : Dicts v) (h : normalize v = .ok w)
    (hv : valueBudget v = .ok n) : ∃ m, valueBudget w = .ok m := by
  obtain ⟨hcount, hs⟩ := budget_normalize hd h
  obtain ⟨h1, h2⟩ := valueBudgetFrom_ok_iff.1 ⟨n, hv⟩
  refine valueBudgetFrom_ok_iff.2 ⟨?_, ?_⟩
  · simpa [hcount] using h1
  · intro p hp
    obtain rfl := List.mem_singleton.1 hp
    exact hs 0 (h2 (v, 0) (by simp))

end AimData
