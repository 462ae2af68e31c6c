/-
  What a record means, and its canonical text as a complete invariant.

  `meaning` is the logical value of a source value under its declared type;
  `Writes` relates a logical value to its canonical form, one to one.  What
  `canonicalRow` accepts it writes canonically exactly when the digits it
  copies, those of integer texts and of timestamp fractions, are ASCII
  (`canonicalRow_complete_invariant_iff`).
-/
import AimData.Canonical.Row

namespace AimData

/-! ## Logical values -/

inductive LogicalValue where
  | missing
  | null
  | boolean (b : Bool)
  | integer (i : ℤ)
  | decimal (q : ℚ)
  | text (s : String)
  | date (d : Calendar.Day)
  | instant (ns : ℤ)
  | bytes (b : Bytes)
  | list (l : List LogicalValue)
  | record (l : List LogicalValue)

section
variable (nfc : String → String) (offset : Option String)

/-- The field of a dict under a normalized name. -/
def fieldNamed (name : String) : List (PyKey × PyValue) → Option PyValue
  | [] => none
  | (.text key, v) :: l => if nfc key = name then some v else fieldNamed name l
  | (.broken, _) :: l => fieldNamed name l

mutual
/-- The logical value of a source value under a type (`missing` for a value
    that the type does not admit). -/
def meaning : LogicalType → PyValue → LogicalValue
  | .string, v => match v with
    | .none => .null
    | .str s => .text (nfc s)
    | _ => .missing
  | .boolean, v => match v with
    | .none => .null
    | .bool b => .boolean b
    | .str s => .boolean (s = "true")
    | _ => .missing
  | .signedInteger, v => match v with
    | .none => .null
    | .int i => .integer i
    | .str s => .integer (integerValue s)
    | _ => .missing
  | .decimal _, v => match v with
    | .none => .null
    | v => ((decimalOf v).map fun d => LogicalValue.decimal d.value).getD .missing
  | .date, v => match v with
    | .none => .null
    | .date d => .date d.1
    | .str s => ((dateFromIsoformat s.toList).map fun d => LogicalValue.date d.1).getD .missing
    | _ => .missing
  | .timestamp _, v => match v with
    | .none => .null
    | v => (((timestampOf v).bind (timestampInstant offset)).map LogicalValue.instant).getD .missing
  | .binary, v => match v with
    | .none => .null
    | .bytes b => .bytes b
    | _ => .missing
  | .array element, v => match v with
    | .none => .null
    | .list l => .list (l.map fun v => meaning element v)
    | _ => .missing
  | .object fields, v => match v with
    | .none => .null
    | .dict l => .record (fieldMeanings fields l)
    | _ => .missing

/-- The logical values of the declared fields. -/
def fieldMeanings : Fields → List (PyKey × PyValue) → List LogicalValue
  | .nil, _ => []
  | .cons name type _ rest, l =>
    (match fieldNamed nfc name l with
      | none => .missing
      | some v => meaning type v) :: fieldMeanings rest l
end

mutual
/-- The digits that are copied are ASCII: those of the integer texts and of the
    fractions of timestamps. -/
def AsciiDigits : LogicalType → PyValue → Prop
  | .signedInteger, v => match v with
    | .str s => Ascii s.toList
    | _ => True
  | .timestamp _, v => ∀ s, timestampOf v = some s → Ascii (timestampFraction s)
  | .array element, v => match v with
    | .list l => ∀ v ∈ l, AsciiDigits element v
    | _ => True
  | .object fields, v => match v with
    | .dict l => AsciiFields fields l
    | _ => True
  | _, _ => True

def AsciiFields : Fields → List (PyKey × PyValue) → Prop
  | .nil, _ => True
  | .cons name type _ rest, l =>
    (∀ v, fieldNamed nfc name l = some v → AsciiDigits type v) ∧ AsciiFields rest l
end

end

/-! ## Canonical forms -/

/-- `null` is written `null`, another value by its type. -/
def OrNull (writes : LogicalValue → Json → Prop) (v : LogicalValue) (j : Json) : Prop :=
  (v = .null ∧ j = .null) ∨ writes v j

/-- A field is missing, null or a value. -/
def WritesField (name tag : String) (writes : LogicalValue → Json → Prop) (v : LogicalValue)
    (j : Json) : Prop :=
  (v = .missing ∧ j = CanonicalSchema.fieldJson name "missing" .null) ∨
    (v = .null ∧ j = CanonicalSchema.fieldJson name "null" .null) ∨
    ∃ j', j = CanonicalSchema.fieldJson name tag j' ∧ writes v j'

mutual
/-- The canonical form of a logical value of a type, `null` apart. -/
def Writes : LogicalType → LogicalValue → Json → Prop
  | .string, v, j => ∃ s, v = .text s ∧ j = .str s
  | .boolean, v, j => ∃ b, v = .boolean b ∧ j = .bool b
  | .signedInteger, v, j => ∃ i, v = .integer i ∧ j = .str (integerStr i)
  | .decimal _, v, j => ∃ q t, v = .decimal q ∧ j = .str t ∧ WritesDecimal q t
  | .date, v, j => ∃ d, v = .date d ∧ j = .str (String.ofList (isoDate d)) ∧ d.Valid
  | .timestamp p, v, j => ∃ ns t, v = .instant ns ∧ j = .str t ∧ WritesInstant p.1 ns t
  | .binary, v, j => ∃ b, v = .bytes b ∧ j = .str (encodeBase64url b)
  | .array element, v, j => ∃ vs js, v = .list vs ∧ j = .arr js ∧
    List.Forall₂ (OrNull (Writes element)) vs js
  | .object fields, v, j => ∃ vs js, v = .record vs ∧ j = .arr js ∧ WritesFields fields vs js

def WritesFields : Fields → List LogicalValue → List Json → Prop
  | .nil, vs, js => vs = [] ∧ js = []
  | .cons name type _ rest, vs, js => ∃ v vs' j js', vs = v :: vs' ∧ js = j :: js' ∧
    WritesField name type.tag (Writes type) v j ∧ WritesFields rest vs' js'
end

/-! ## One to one -/

theorem LogicalType.tag_ne (type : LogicalType) : type.tag ≠ "missing" ∧ type.tag ≠ "null" := by
  cases type <;> exact ⟨by simp [tag], by simp [tag]⟩

theorem Writes.not_null {type : LogicalType} {v : LogicalValue} {j : Json} (h : Writes type v j) :
    v ≠ .null ∧ v ≠ .missing ∧ j ≠ .null := by
  cases type with
  | string => obtain ⟨s, rfl, rfl⟩ := h; simp
  | boolean => obtain ⟨b, rfl, rfl⟩ := h; simp
  | signedInteger => obtain ⟨i, rfl, rfl⟩ := h; simp
  | decimal => obtain ⟨q, t, rfl, rfl, -⟩ := h; simp
  | date => obtain ⟨d, rfl, rfl, -⟩ := h; simp
  | timestamp => obtain ⟨ns, t, rfl, rfl, -⟩ := h; simp
  | binary => obtain ⟨b, rfl, rfl⟩ := h; simp
  | array => obtain ⟨vs, js, rfl, rfl, -⟩ := h; simp
  | object => obtain ⟨vs, js, rfl, rfl, -⟩ := h; simp

/-- A relation is one to one. -/
def OneToOne (writes : LogicalValue → Json → Prop) : Prop :=
  (∀ v j j', writes v j → writes v j' → j = j') ∧ ∀ v v' j, writes v j → writes v' j → v = v'

theorem OrNull.oneToOne {type : LogicalType} (h : OneToOne (Writes type)) :
    OneToOne (OrNull (Writes type)) := by
  constructor
  · rintro v j j' (⟨rfl, rfl⟩ | h1) (⟨h2, rfl⟩ | h2)
    · rfl
    · exact absurd rfl h2.not_null.1
    · exact absurd h2 h1.not_null.1
    · exact h.1 v j j' h1 h2
  · rintro v v' j (⟨rfl, rfl⟩ | h1) (⟨rfl, h2⟩ | h2)
    · rfl
    · exact absurd rfl h2.not_null.2.2
    · exact absurd h2 h1.not_null.2.2
    · exact h.2 v v' j h1 h2

theorem OneToOne.forall₂_left {writes : LogicalValue → Json → Prop} (h : OneToOne writes) :
    ∀ {vs : List LogicalValue} {js js' : List Json}, List.Forall₂ writes vs js →
      List.Forall₂ writes vs js' → js = js'
  | _, _, _, .nil, .nil => rfl
  | _, _, _, .cons h1 hs, .cons h1' hs' => by
    rw [h.1 _ _ _ h1 h1', forall₂_left h hs hs']

theorem OneToOne.forall₂_right {writes : LogicalValue → Json → Prop} (h : OneToOne writes) :
    ∀ {vs vs' : List LogicalValue} {js : List Json}, List.Forall₂ writes vs js →
      List.Forall₂ writes vs' js → vs = vs'
  | _, _, _, .nil, .nil => rfl
  | _, _, _, .cons h1 hs, .cons h1' hs' => by
    rw [h.2 _ _ _ h1 h1', forall₂_right h hs hs']

theorem fieldJson_inj {name tag tag' : String} {j j' : Json}
    (h : CanonicalSchema.fieldJson name tag j = CanonicalSchema.fieldJson name tag' j') :
    tag = tag' ∧ j = j' := by
  simpa [CanonicalSchema.fieldJson] using h

theorem WritesField.oneToOne {name : String} {type : LogicalType} (h : OneToOne (Writes type)) :
    OneToOne (WritesField name type.tag (Writes type)) := by
  obtain ⟨hm, hn⟩ := type.tag_ne
  constructor
  · rintro v j j' (⟨rfl, rfl⟩ | ⟨rfl, rfl⟩ | ⟨k, rfl, h1⟩) (⟨h2, rfl⟩ | ⟨h2, rfl⟩ | ⟨k', rfl, h2⟩)
    · rfl
    · cases h2
    · exact absurd rfl h2.not_null.2.1
    · cases h2
    · rfl
    · exact absurd rfl h2.not_null.1
    · exact absurd h2 h1.not_null.2.1
    · exact absurd h2 h1.not_null.1
    · rw [h.1 v k k' h1 h2]
  · rintro v v' j (⟨rfl, rfl⟩ | ⟨rfl, rfl⟩ | ⟨k, rfl, h1⟩) (⟨rfl, h2⟩ | ⟨rfl, h2⟩ | ⟨k', h2, h3⟩)
    · rfl
    · exact absurd (fieldJson_inj h2).1 (by decide)
    · exact absurd (fieldJson_inj h2).1.symm hm
    · exact absurd (fieldJson_inj h2).1 (by decide)
    · rfl
    · exact absurd (fieldJson_inj h2).1.symm hn
    · exact absurd (fieldJson_inj h2).1 hm
    · exact absurd (fieldJson_inj h2).1 hn
    · obtain ⟨-, rfl⟩ := fieldJson_inj h2
      exact h.2 v v' k h1 h3

mutual
/-- **A type's logical values and canonical forms correspond one to one.** -/
theorem writes_oneToOne : ∀ type : LogicalType, OneToOne (Writes type)
  | .string => by
    constructor
    · rintro v j j' ⟨s, rfl, rfl⟩ ⟨s', h, rfl⟩; cases h; rfl
    · rintro v v' j ⟨s, rfl, rfl⟩ ⟨s', rfl, h⟩; cases h; rfl
  | .boolean => by
    constructor
    · rintro v j j' ⟨b, rfl, rfl⟩ ⟨b', h, rfl⟩; cases h; rfl
    · rintro v v' j ⟨b, rfl, rfl⟩ ⟨b', rfl, h⟩; cases h; rfl
  | .signedInteger => by
    constructor
    · rintro v j j' ⟨i, rfl, rfl⟩ ⟨i', h, rfl⟩; cases h; rfl
    · rintro v v' j ⟨i, rfl, rfl⟩ ⟨i', rfl, h⟩
      rw [integerStr_inj (Json.str.inj h)]
  | .decimal _ => by
    constructor
    · rintro v j j' ⟨q, t, rfl, rfl, h⟩ ⟨q', t', hq, rfl, h'⟩
      cases hq
      rw [h.text_unique h']
    · rintro v v' j ⟨q, t, rfl, rfl, h⟩ ⟨q', t', rfl, ht, h'⟩
      cases ht
      rw [h.value_unique h']
  | .date => by
    constructor
    · rintro v j j' ⟨d, rfl, rfl, -⟩ ⟨d', h, rfl, -⟩; cases h; rfl
    · rintro v v' j ⟨d, rfl, rfl, hd⟩ ⟨d', rfl, h, hd'⟩
      rw [isoDate_inj hd hd' (String.ofList_injective (Json.str.inj h))]
  | .timestamp p => by
    constructor
    · rintro v j j' ⟨ns, t, rfl, rfl, h⟩ ⟨ns', t', hns, rfl, h'⟩
      cases hns
      rw [h.text_unique (Nat.lt_succ_iff.1 p.2) h']
    · rintro v v' j ⟨ns, t, rfl, rfl, h⟩ ⟨ns', t', rfl, ht, h'⟩
      cases ht
      rw [h.instant_unique h']
  | .binary => by
    constructor
    · rintro v j j' ⟨b, rfl, rfl⟩ ⟨b', h, rfl⟩; cases h; rfl
    · rintro v v' j ⟨b, rfl, rfl⟩ ⟨b', rfl, h⟩
      rw [Base64Url.encode_inj (Json.str.inj h)]
  | .array element => by
    have ih := OrNull.oneToOne (writes_oneToOne element)
    constructor
    · rintro v j j' ⟨vs, js, rfl, rfl, h⟩ ⟨vs', js', hv, rfl, h'⟩
      cases hv
      rw [ih.forall₂_left h h']
    · rintro v v' j ⟨vs, js, rfl, rfl, h⟩ ⟨vs', js', rfl, hj, h'⟩
      cases hj
      rw [ih.forall₂_right h h']
  | .object fields => by
    constructor
    · rintro v j j' ⟨vs, js, rfl, rfl, h⟩ ⟨vs', js', hv, rfl, h'⟩
      cases hv
      rw [(writesFields_oneToOne fields).1 vs js js' h h']
    · rintro v v' j ⟨vs, js, rfl, rfl, h⟩ ⟨vs', js', rfl, hj, h'⟩
      cases hj
      rw [(writesFields_oneToOne fields).2 vs vs' js h h']

theorem writesFields_oneToOne : ∀ fields : Fields,
    (∀ vs js js', WritesFields fields vs js → WritesFields fields vs js' → js = js') ∧
      ∀ vs vs' js, WritesFields fields vs js → WritesFields fields vs' js → vs = vs'
  | .nil => by
    constructor
    · rintro vs js js' ⟨-, rfl⟩ ⟨-, rfl⟩; rfl
    · rintro vs vs' js ⟨rfl, -⟩ ⟨rfl, -⟩; rfl
  | .cons name type _ rest => by
    have ih : OneToOne (WritesField name type.tag (Writes type)) :=
      WritesField.oneToOne (writes_oneToOne type)
    constructor
    · rintro vs js js' ⟨v, vs, j, js, rfl, rfl, h1, hs⟩ ⟨v', vs', j', js', hv, rfl, h1', hs'⟩
      cases hv
      rw [ih.1 v j j' h1 h1', (writesFields_oneToOne rest).1 vs js js' hs hs']
    · rintro vs vs' js ⟨v, vs, j, js, rfl, rfl, h1, hs⟩ ⟨v', vs', j', js', rfl, hj, h1', hs'⟩
      cases hj
      rw [ih.2 v v' j h1 h1', (writesFields_oneToOne rest).2 vs vs' js hs hs']
end

/-! ## Canonical forms are normal -/

mutual
/-- Built of texts, Booleans, nulls and lists only. -/
def Plain : Json → Prop
  | .null => True
  | .bool _ => True
  | .str _ => True
  | .arr l => PlainList l
  | _ => False

def PlainList : List Json → Prop
  | [] => True
  | j :: js => Plain j ∧ PlainList js
end

mutual
theorem Plain.normal : ∀ {j : Json}, Plain j → normalize j = .ok j ∧ Dicts j
  | .null, _ => ⟨rfl, trivial⟩
  | .bool _, _ => ⟨rfl, trivial⟩
  | .str _, _ => ⟨rfl, trivial⟩
  | .arr l, h => by
    obtain ⟨hn, hd⟩ := PlainList.normal (show PlainList l from h)
    refine ⟨?_, hd⟩
    rw [normalize, hn]
    rfl

theorem PlainList.normal : ∀ {js : List Json}, PlainList js →
    normalizeList js = .ok js ∧ DictsList js
  | [], _ => ⟨rfl, trivial⟩
  | j :: js, h => by
    obtain ⟨hn, hd⟩ := Plain.normal h.1
    obtain ⟨hns, hds⟩ := PlainList.normal h.2
    refine ⟨?_, hd, hds⟩
    rw [normalizeList, hn, hns]
    rfl
end

/-- **The bytes of a plain value determine it.** -/
theorem canonicalJsonBytes_plain {j j' : Json} {b : Bytes} (hj : Plain j) (hj' : Plain j')
    (h : canonicalJsonBytes j = .ok b) (h' : canonicalJsonBytes j' = .ok b) : j = j' :=
  canonicalJsonBytes_inj hj.normal.2 hj'.normal.2 hj.normal.1 hj'.normal.1 h h'

theorem plainList_of_forall₂ {writes : LogicalValue → Json → Prop}
    (h : ∀ v j, writes v j → Plain j) : ∀ {vs : List LogicalValue} {js : List Json},
      List.Forall₂ writes vs js → PlainList js
  | _, _, .nil => trivial
  | _, _, .cons h1 hs => ⟨h _ _ h1, plainList_of_forall₂ h hs⟩

theorem plain_fieldJson {name tag : String} {j : Json} (h : Plain j) :
    Plain (CanonicalSchema.fieldJson name tag j) := ⟨trivial, trivial, h, trivial⟩

mutual
theorem Writes.plain : ∀ {type : LogicalType} {v : LogicalValue} {j : Json}, Writes type v j →
    Plain j
  | .string, v, j, h => by obtain ⟨s, -, rfl⟩ := h; trivial
  | .boolean, v, j, h => by obtain ⟨b, -, rfl⟩ := h; trivial
  | .signedInteger, v, j, h => by obtain ⟨i, -, rfl⟩ := h; trivial
  | .decimal _, v, j, h => by obtain ⟨q, t, -, rfl, -⟩ := h; trivial
  | .date, v, j, h => by obtain ⟨d, -, rfl, -⟩ := h; trivial
  | .timestamp _, v, j, h => by obtain ⟨ns, t, -, rfl, -⟩ := h; trivial
  | .binary, v, j, h => by obtain ⟨b, -, rfl⟩ := h; trivial
  | .array element, v, j, h => by
    obtain ⟨vs, js, -, rfl, h⟩ := h
    refine plainList_of_forall₂ ?_ h
    rintro v j (⟨-, rfl⟩ | h)
    · trivial
    · exact Writes.plain h
  | .object fields, v, j, h => by
    obtain ⟨vs, js, -, rfl, h⟩ := h
    exact WritesFields.plain h

theorem WritesFields.plain : ∀ {fields : Fields} {vs : List LogicalValue} {js : List Json},
    WritesFields fields vs js → PlainList js
  | .nil, vs, js, h => by obtain ⟨-, rfl⟩ := h; trivial
  | .cons name type _ rest, vs, js, h => by
    obtain ⟨v, vs', j, js', -, rfl, h1, hs⟩ := h
    refine ⟨?_, WritesFields.plain hs⟩
    rcases h1 with ⟨-, rfl⟩ | ⟨-, rfl⟩ | ⟨j', rfl, h1⟩
    · exact plain_fieldJson trivial
    · exact plain_fieldJson trivial
    · exact plain_fieldJson (Writes.plain h1)
end

/-! ## What a value is written as -/

open CanonicalSchema

theorem counted_ok {v : PyValue} {depth count : ℕ}
    {body : ℕ → Except CommitmentValidationError (Json × ℕ)} {r : Json × ℕ}
    (h : counted v depth count body = .ok r) :
    (v = .none ∧ r.1 = .null) ∨ (v ≠ .none ∧ ∃ count, body count = .ok r) := by
  obtain ⟨count, -, h⟩ := Except.bind_eq_ok.1 h
  by_cases hv : v = .none
  · subst hv
    cases h
    exact Or.inl ⟨rfl, rfl⟩
  · refine Or.inr ⟨hv, count, ?_⟩
    cases v <;> first | exact absurd rfl hv | exact h

section
variable {nfc : String → String} {text : Bool} {offset : Option String}

/-- What a value of a type is written as: plain, and the canonical form of its
    meaning iff the digits it copies are ASCII. -/
structure Specified (nfc : String → String) (offset : Option String) (type : LogicalType)
    (v : PyValue) (j : Json) : Prop where
  plain : Plain j
  writes_iff : OrNull (Writes type) (meaning nfc offset type v) j ↔ AsciiDigits nfc type v
  not_null : v ≠ .none → meaning nfc offset type v ≠ .null

/-- A value that is not `None` is specified by its normalizer. -/
theorem specified_of_counted {type : LogicalType} {v : PyValue} {depth count : ℕ}
    {body : ℕ → Except CommitmentValidationError (Json × ℕ)} {out : Json × ℕ}
    (h : counted v depth count body = .ok out)
    (hnone : meaning nfc offset type .none = .null) (hdig : AsciiDigits nfc type .none)
    (hbody : ∀ count, v ≠ .none → body count = .ok out → Plain out.1 ∧
      (Writes type (meaning nfc offset type v) out.1 ↔ AsciiDigits nfc type v) ∧
      meaning nfc offset type v ≠ .null) : Specified nfc offset type v out.1 := by
  rcases counted_ok h with ⟨rfl, hj⟩ | ⟨hv, count, h⟩
  · rw [hj]
    exact ⟨trivial, ⟨fun _ => hdig, fun _ => Or.inl ⟨hnone, rfl⟩⟩, fun h => absurd rfl h⟩
  · obtain ⟨hp, hw, hm⟩ := hbody count hv h
    refine ⟨hp, ?_, fun _ => hm⟩
    rw [← hw]
    exact ⟨fun h => h.resolve_left fun h => hm h.1, Or.inr⟩

theorem specified_of_scalar {type : LogicalType} {v : PyValue} {depth count : ℕ}
    {r : Except CommitmentValidationError Json} {out : Json × ℕ}
    (h : counted v depth count (scalar r) = .ok out)
    (hnone : meaning nfc offset type .none = .null) (hdig : AsciiDigits nfc type .none)
    (hr : ∀ {j}, v ≠ .none → r = .ok j → Plain j ∧
      (Writes type (meaning nfc offset type v) j ↔ AsciiDigits nfc type v) ∧
      meaning nfc offset type v ≠ .null) : Specified nfc offset type v out.1 := by
  refine specified_of_counted h hnone hdig fun count hv h => ?_
  obtain ⟨j, hj, h⟩ := Except.bind_eq_ok.1 h
  cases h
  exact hr hv hj

theorem stringValue_spec {v : PyValue} {j : Json} (hv : v ≠ .none)
    (h : stringValue nfc v = .ok j) :
    Plain j ∧ (Writes .string (meaning nfc offset .string v) j ↔ AsciiDigits nfc .string v) ∧
      meaning nfc offset .string v ≠ .null := by
  cases v <;> cases h
  exact ⟨trivial, ⟨fun _ => trivial, fun _ => ⟨_, rfl, rfl⟩⟩, nofun⟩

theorem booleanValue_spec {v : PyValue} {j : Json} (hv : v ≠ .none)
    (h : booleanValue text v = .ok j) :
    Plain j ∧ (Writes .boolean (meaning nfc offset .boolean v) j ↔ AsciiDigits nfc .boolean v) ∧
      meaning nfc offset .boolean v ≠ .null := by
  cases v with
  | bool b =>
    cases h
    exact ⟨trivial, ⟨fun _ => trivial, fun _ => ⟨_, rfl, rfl⟩⟩, nofun⟩
  | str s =>
    by_cases hs : text = true ∧ s ∈ ["true", "false"]
    · rw [booleanValue, if_pos hs] at h
      cases h
      exact ⟨trivial, ⟨fun _ => trivial, fun _ => ⟨_, rfl, rfl⟩⟩, nofun⟩
    · rw [booleanValue, if_neg hs] at h
      cases h
  | list l => unfold booleanValue at h; split_ifs at h <;> cases h
  | dict l => unfold booleanValue at h; split_ifs at h <;> cases h
  | none => exact absurd rfl hv
  | int _ => cases h
  | decimal _ => cases h
  | bytes _ => cases h
  | date _ => cases h
  | datetime _ => cases h
  | other => cases h

theorem signedIntegerValue_spec {v : PyValue} {j : Json} (hv : v ≠ .none)
    (h : signedIntegerValue v = .ok j) :
    Plain j ∧ (Writes .signedInteger (meaning nfc offset .signedInteger v) j ↔
      AsciiDigits nfc .signedInteger v) ∧ meaning nfc offset .signedInteger v ≠ .null := by
  cases v with
  | int i =>
    obtain ⟨t, ht, h⟩ := Except.bind_eq_ok.1 h
    cases h
    rw [normalizeInteger_spec ht]
    exact ⟨trivial, ⟨fun _ => trivial, fun _ => ⟨i, rfl, rfl⟩⟩, nofun⟩
  | str s =>
    obtain ⟨t, ht, h⟩ := Except.bind_eq_ok.1 h
    cases h
    have hs := normalizeIntegerText_spec ht
    refine ⟨trivial, ⟨?_, fun ha => ⟨_, rfl, by rw [hs.2 ha]⟩⟩, nofun⟩
    rintro ⟨i, hi, hj⟩
    refine hs.1 ?_
    rw [LogicalValue.integer.inj hi]
    exact Json.str.inj hj
  | none => exact absurd rfl hv
  | _ => cases h

theorem decimalValue_spec {params : DecimalParameters} {v : PyValue} {j : Json} (hv : v ≠ .none)
    (h : decimalValue params v = .ok j) :
    Plain j ∧ (Writes (.decimal params) (meaning nfc offset (.decimal params) v) j ↔
      AsciiDigits nfc (.decimal params) v) ∧ meaning nfc offset (.decimal params) v ≠ .null := by
  unfold decimalValue at h
  split at h
  · rename_i d hd
    obtain ⟨t, ht, h⟩ := Except.bind_eq_ok.1 h
    cases h
    have hmap : meaning nfc offset (.decimal params) v =
        ((decimalOf v).map fun d => LogicalValue.decimal d.value).getD .missing := by
      cases v <;> first | exact absurd rfl hv | rfl
    have hm : meaning nfc offset (.decimal params) v = .decimal d.value := by
      rw [hmap, hd]
      rfl
    rw [hm]
    exact ⟨trivial, ⟨fun _ => trivial, fun _ => ⟨_, t, rfl, rfl, normalizeDecimal_spec ht⟩⟩, by simp⟩
  · cases h

theorem dateValue_spec {v : PyValue} {j : Json} (hv : v ≠ .none) (h : dateValue v = .ok j) :
    Plain j ∧ (Writes .date (meaning nfc offset .date v) j ↔ AsciiDigits nfc .date v) ∧
      meaning nfc offset .date v ≠ .null := by
  cases v with
  | date d =>
    cases h
    exact ⟨trivial, ⟨fun _ => trivial, fun _ => ⟨d.1, rfl, rfl, d.2⟩⟩, nofun⟩
  | str s =>
    obtain ⟨t, ht, h⟩ := Except.bind_eq_ok.1 h
    cases h
    obtain ⟨d, hd, rfl⟩ := normalizeDateText_spec ht
    have hm : meaning nfc offset .date (.str s) = .date d.1 :=
      congrArg (fun o => (o.map fun d => LogicalValue.date d.1).getD .missing) hd
    rw [hm]
    exact ⟨trivial, ⟨fun _ => trivial, fun _ => ⟨d.1, rfl, rfl, d.2⟩⟩, by simp⟩
  | none => exact absurd rfl hv
  | _ => cases h

theorem timestampValue_spec {p : Fin 10} {v : PyValue} {j : Json} (hv : v ≠ .none)
    (h : timestampValue p offset v = .ok j) :
    Plain j ∧ (Writes (.timestamp p) (meaning nfc offset (.timestamp p) v) j ↔
      AsciiDigits nfc (.timestamp p) v) ∧ meaning nfc offset (.timestamp p) v ≠ .null := by
  unfold timestampValue at h
  split at h
  · rename_i s hs
    obtain ⟨t, ht, h⟩ := Except.bind_eq_ok.1 h
    cases h
    obtain ⟨ns, hns, hw⟩ := normalizeTimestamp_spec (Nat.lt_succ_iff.1 p.2) ht
    have hmap : meaning nfc offset (.timestamp p) v =
        (((timestampOf v).bind (timestampInstant offset)).map LogicalValue.instant).getD
          .missing := by
      cases v <;> first | exact absurd rfl hv | rfl
    have hm : meaning nfc offset (.timestamp p) v = .instant ns := by
      rw [hmap, hs, Option.bind_some, hns]
      rfl
    have ha : AsciiDigits nfc (.timestamp p) v ↔ Ascii (timestampFraction s) :=
      ⟨fun h => h s hs, fun h s' hs' => by rw [hs] at hs'; cases hs'; exact h⟩
    rw [hm, ha, ← hw]
    refine ⟨trivial, ⟨?_, fun h => ⟨ns, t, rfl, rfl, h⟩⟩, by simp⟩
    rintro ⟨ns', t', hn, hj, h⟩
    cases hn
    cases hj
    exact h
  · cases h

theorem binaryValue_spec {v : PyValue} {j : Json} (hv : v ≠ .none) (h : binaryValue v = .ok j) :
    Plain j ∧ (Writes .binary (meaning nfc offset .binary v) j ↔ AsciiDigits nfc .binary v) ∧
      meaning nfc offset .binary v ≠ .null := by
  cases v <;> cases h
  exact ⟨trivial, ⟨fun _ => trivial, fun _ => ⟨_, rfl, rfl⟩⟩, nofun⟩

/-- A list is specified by its elements. -/
theorem arrayValue_spec {element : LogicalType}
    {body : PyValue → ℕ → Except CommitmentValidationError (Json × ℕ)}
    (hbody : ∀ v count out, body v count = .ok out → Specified nfc offset element v out.1) :
    ∀ {l : List PyValue} {count : ℕ} {out : List Json × ℕ}, arrayValue body l count = .ok out →
      PlainList out.1 ∧ (List.Forall₂ (OrNull (Writes element))
        (l.map fun v => meaning nfc offset element v) out.1 ↔ ∀ v ∈ l, AsciiDigits nfc element v)
  | [], count, out, h => by
    cases h
    exact ⟨trivial, by simp⟩
  | v :: l, count, out, h => by
    obtain ⟨⟨j, c⟩, hj, h⟩ := Except.bind_eq_ok.1 h
    obtain ⟨⟨js, c'⟩, hjs, h⟩ := Except.bind_eq_ok.1 h
    cases h
    have hv := hbody v count _ hj
    obtain ⟨hps, hws⟩ := arrayValue_spec hbody hjs
    refine ⟨⟨hv.plain, hps⟩, ?_⟩
    rw [List.map_cons, List.forall₂_cons, hv.writes_iff, hws, List.forall_mem_cons]

theorem lookup_normalizeKeys (name : String) : ∀ {l : List (PyKey × PyValue)} {names : List String}
    {normalized : List (String × PyValue)}, normalizeKeys nfc l names = .ok normalized →
      lookup normalized name = fieldNamed nfc name l
  | [], names, normalized, h => by cases h; rfl
  | (.broken, _) :: l, names, normalized, h => by cases h
  | (.text key, v) :: l, names, normalized, h => by
    unfold normalizeKeys at h
    split_ifs at h
    · cases h
    · obtain ⟨rest, hrest, h⟩ := Except.bind_eq_ok.1 h
      cases h
      have ih := lookup_normalizeKeys name hrest
      unfold lookup at ih ⊢
      unfold fieldNamed
      by_cases hk : nfc key = name
      · rw [List.find?_cons_of_pos (by simp [hk]), if_pos hk]
        rfl
      · rw [List.find?_cons_of_neg (by simp [hk]), if_neg hk, ih]

theorem recordOf_ok {names : List String} {v : PyValue} {normalized : List (String × PyValue)}
    (h : recordOf nfc names v = .ok normalized) :
    ∃ l, v = .dict l ∧ ∀ name, lookup normalized name = fieldNamed nfc name l := by
  unfold recordOf at h
  split at h
  · rename_i l
    obtain ⟨normalized', hn, h⟩ := Except.bind_eq_ok.1 h
    split_ifs at h
    · cases h
      exact ⟨l, rfl, fun name => lookup_normalizeKeys name hn⟩
    · cases h
  · cases h

/-- The meaning of a field that may be missing. -/
def foundMeaning (nfc : String → String) (offset : Option String) (type : LogicalType) :
    Option PyValue → LogicalValue
  | none => .missing
  | some v => meaning nfc offset type v

/-- How a field with a value is written. -/
theorem fieldValue_some {name tag : String} {nullable : Bool} {depth count : ℕ} {v : PyValue}
    {body : PyValue → ℕ → Except CommitmentValidationError (Json × ℕ)} (hv : v ≠ .none) :
    fieldValue name tag nullable depth (some v) body count = do
      let (j, count) ← body v count
      return (fieldJson name tag j, count) := by
  cases v <;> first | exact absurd rfl hv | rfl

/-- A field is specified by its value. -/
theorem fieldValue_spec {name : String} {type : LogicalType} {nullable : Bool} {depth : ℕ}
    {found : Option PyValue} {body : PyValue → ℕ → Except CommitmentValidationError (Json × ℕ)}
    (hbody : ∀ v count out, body v count = .ok out → Specified nfc offset type v out.1)
    (hnone : meaning nfc offset type .none = .null) (hdig : AsciiDigits nfc type .none)
    {count : ℕ} {out : Json × ℕ}
    (h : fieldValue name type.tag nullable depth found body count = .ok out) :
    Plain out.1 ∧ (WritesField name type.tag (Writes type) (foundMeaning nfc offset type found) out.1
      ↔ ∀ v, found = some v → AsciiDigits nfc type v) := by
  obtain ⟨htm, htn⟩ := type.tag_ne
  rcases found with _ | v
  · obtain ⟨c, -, h⟩ := Except.bind_eq_ok.1 h
    cases h
    exact ⟨plain_fieldJson trivial, fun _ v hv => (by cases hv), fun _ => Or.inl ⟨rfl, rfl⟩⟩
  · by_cases hv : v = .none
    · subst hv
      obtain ⟨c, -, h⟩ := Except.bind_eq_ok.1 h
      split_ifs at h
      · cases h
        refine ⟨plain_fieldJson trivial, fun _ v hv => ?_, fun _ => Or.inr (Or.inl ⟨hnone, rfl⟩)⟩
        cases hv
        exact hdig
      · cases h
    · rw [fieldValue_some hv] at h
      obtain ⟨⟨j, c⟩, hj, h⟩ := Except.bind_eq_ok.1 h
      cases h
      have hs := hbody v count _ hj
      refine ⟨plain_fieldJson hs.plain, ?_, ?_⟩
      · rintro (⟨-, hj⟩ | ⟨-, hj⟩ | ⟨j', hj, hw⟩) v' hv'
        · exact absurd (fieldJson_inj hj).1 htm
        · exact absurd (fieldJson_inj hj).1 htn
        · cases hv'
          obtain ⟨-, rfl⟩ := fieldJson_inj hj
          exact hs.writes_iff.1 (Or.inr hw)
      · intro ha
        refine Or.inr (Or.inr ⟨j, rfl, ?_⟩)
        exact (hs.writes_iff.2 (ha v rfl)).resolve_left fun h => hs.not_null hv h.1

theorem meaning_none (type : LogicalType) : meaning nfc offset type .none = .null := by
  cases type <;> rfl

theorem asciiDigits_none (type : LogicalType) : AsciiDigits nfc type .none := by
  cases type <;> first | trivial | exact fun s h => by cases h

mutual
/-- **What an accepted value is written as.** -/
theorem value_spec : ∀ (type : LogicalType) {v : PyValue} {depth count : ℕ} {out : Json × ℕ},
    value nfc text offset type v depth count = .ok out → Specified nfc offset type v out.1
  | .string, v, depth, count, out, h =>
    specified_of_scalar h rfl trivial stringValue_spec
  | .boolean, v, depth, count, out, h =>
    specified_of_scalar h rfl trivial booleanValue_spec
  | .signedInteger, v, depth, count, out, h =>
    specified_of_scalar h rfl trivial signedIntegerValue_spec
  | .decimal _, v, depth, count, out, h =>
    specified_of_scalar h rfl trivial decimalValue_spec
  | .date, v, depth, count, out, h =>
    specified_of_scalar h rfl trivial dateValue_spec
  | .timestamp p, v, depth, count, out, h =>
    specified_of_scalar h rfl (asciiDigits_none _) timestampValue_spec
  | .binary, v, depth, count, out, h =>
    specified_of_scalar h rfl trivial binaryValue_spec
  | .array element, v, depth, count, out, h => by
    refine specified_of_counted h rfl trivial fun count hv h => ?_
    cases v with
    | list l =>
      obtain ⟨⟨js, c⟩, hjs, h⟩ := Except.bind_eq_ok.1 h
      cases h
      obtain ⟨hp, hw⟩ := arrayValue_spec (fun v count out h => value_spec element h) hjs
      refine ⟨hp, ?_, by simp [meaning]⟩
      rw [show AsciiDigits nfc (.array element) (.list l) ↔ ∀ v ∈ l, AsciiDigits nfc element v from
        Iff.rfl, ← hw]
      constructor
      · rintro ⟨vs, js', hv, hj, hf⟩
        cases hv
        cases hj
        exact hf
      · exact fun hf => ⟨_, js, rfl, rfl, hf⟩
    | none => exact absurd rfl hv
    | _ => cases h
  | .object fields, v, depth, count, out, h => by
    refine specified_of_counted h rfl trivial fun count hv h => ?_
    obtain ⟨normalized, hn, h⟩ := Except.bind_eq_ok.1 h
    obtain ⟨⟨js, c⟩, hjs, h⟩ := Except.bind_eq_ok.1 h
    cases h
    obtain ⟨l, rfl, hl⟩ := recordOf_ok hn
    obtain ⟨hp, hw⟩ := record_spec fields hl hjs
    refine ⟨hp, ?_, by simp [meaning]⟩
    rw [show AsciiDigits nfc (.object fields) (.dict l) ↔ AsciiFields nfc fields l from Iff.rfl,
      ← hw]
    constructor
    · rintro ⟨vs, js', hv, hj, hf⟩
      cases hv
      cases hj
      exact hf
    · exact fun hf => ⟨_, js, rfl, rfl, hf⟩

/-- **What an accepted record is written as.** -/
theorem record_spec : ∀ (fields : Fields) {l : List (PyKey × PyValue)}
    {normalized : List (String × PyValue)} {depth count : ℕ} {out : List Json × ℕ},
    (∀ name, lookup normalized name = fieldNamed nfc name l) →
    record nfc text offset fields normalized depth count = .ok out →
    PlainList out.1 ∧
      (WritesFields fields (fieldMeanings nfc offset fields l) out.1 ↔ AsciiFields nfc fields l)
  | .nil, l, normalized, depth, count, out, _, h => by
    cases h
    exact ⟨trivial, fun _ => trivial, fun _ => ⟨rfl, rfl⟩⟩
  | .cons name type nullable rest, l, normalized, depth, count, out, hl, h => by
    obtain ⟨⟨j, c⟩, hj, h⟩ := Except.bind_eq_ok.1 h
    obtain ⟨⟨js, c'⟩, hjs, h⟩ := Except.bind_eq_ok.1 h
    cases h
    rw [hl] at hj
    obtain ⟨hp, hw⟩ := fieldValue_spec (fun v count out h => value_spec type h)
      (meaning_none type) (asciiDigits_none type) hj
    obtain ⟨hps, hws⟩ := record_spec rest hl hjs
    refine ⟨⟨hp, hps⟩, ?_⟩
    have hm : fieldMeanings nfc offset (.cons name type nullable rest) l =
        foundMeaning nfc offset type (fieldNamed nfc name l) :: fieldMeanings nfc offset rest l := rfl
    rw [hm, show AsciiFields nfc (.cons name type nullable rest) l ↔
      (∀ v, fieldNamed nfc name l = some v → AsciiDigits nfc type v) ∧ AsciiFields nfc rest l from
        Iff.rfl, ← hw, ← hws]
    constructor
    · rintro ⟨v, vs, j', js', hv, hj, hwf, hwfs⟩
      cases hv
      cases hj
      exact ⟨hwf, hwfs⟩
    · exact fun h => ⟨_, _, j, js, rfl, rfl, h.1, h.2⟩
end

/-! ## Canonical rows -/

/-- The logical values of the declared fields of a record. -/
def CanonicalSchema.meaning (nfc : String → String) (offset : Option String)
    (schema : CanonicalSchema) : PyValue → List LogicalValue
  | .dict l => fieldMeanings nfc offset schema.descriptors l
  | _ => []

/-- The digits a record's row copies are ASCII. -/
def CanonicalSchema.AsciiDigits (nfc : String → String) (schema : CanonicalSchema) :
    PyValue → Prop
  | .dict l => AsciiFields nfc schema.descriptors l
  | _ => True

/-- The canonical text of the logical values of a schema's fields. -/
def CanonicalSchema.Writes (schema : CanonicalSchema) (vs : List LogicalValue) (b : Bytes) :
    Prop :=
  ∃ js, WritesFields schema.descriptors vs js ∧ canonicalJsonBytes (.arr js) = .ok b

/-- Logical records and their canonical texts correspond one to one. -/
theorem CanonicalSchema.writes_iff {schema : CanonicalSchema} {vs vs' : List LogicalValue}
    {b b' : Bytes} (h : schema.Writes vs b) (h' : schema.Writes vs' b') : b = b' ↔ vs = vs' := by
  obtain ⟨js, hw, hb⟩ := h
  obtain ⟨js', hw', hb'⟩ := h'
  have hone := writesFields_oneToOne schema.descriptors
  constructor
  · rintro rfl
    have hj : Json.arr js = .arr js' :=
      canonicalJsonBytes_plain (show PlainList js from hw.plain) (show PlainList js' from hw'.plain)
        hb hb'
    cases hj
    exact hone.2 vs vs' js hw hw'
  · rintro rfl
    rw [hone.1 vs js js' hw hw', hb'] at hb
    exact (Except.ok.inj hb).symm

theorem canonicalRow_writes_iff {schema : CanonicalSchema} {v : PyValue} {b : Bytes}
    (h : canonicalRow nfc text offset schema v = .ok b) :
    schema.Writes (schema.meaning nfc offset v) b ↔ schema.AsciiDigits nfc v := by
  obtain ⟨normalized, hn, h⟩ := Except.bind_eq_ok.1 h
  obtain ⟨⟨js, c⟩, hjs, h⟩ := Except.bind_eq_ok.1 h
  obtain ⟨encoded, hb, h⟩ := Except.bind_eq_ok.1 h
  split_ifs at h
  · cases h
  · cases h
    obtain ⟨l, rfl, hl⟩ := recordOf_ok hn
    obtain ⟨hp, hw⟩ := record_spec schema.descriptors hl hjs
    rw [show schema.AsciiDigits nfc (.dict l) ↔ AsciiFields nfc schema.descriptors l from Iff.rfl,
      ← hw]
    constructor
    · rintro ⟨js', hw', hb'⟩
      have hj : Json.arr js = .arr js' :=
        canonicalJsonBytes_plain (show PlainList js from hp) (show PlainList js' from hw'.plain) hb hb'
      cases hj
      exact hw'
    · exact fun hw => ⟨js, hw, hb⟩

end

/-- **Canonical rows are a complete invariant of logical records, written in
    canonical text, exactly when the digits they copy are ASCII.**  Of two
    accepted records, however their sources are read: the rows are equal iff the
    logical records are, and each row is the canonical text of its record, iff
    the integer texts and the fractions of the timestamps have ASCII digits. -/
theorem canonicalRow_complete_invariant_iff {nfc : String → String} {schema : CanonicalSchema}
    {v v' : PyValue} {text text' : Bool} {offset offset' : Option String} {b b' : Bytes}
    (h : CanonicalSchema.canonicalRow nfc text offset schema v = .ok b)
    (h' : CanonicalSchema.canonicalRow nfc text' offset' schema v' = .ok b') :
    ((b = b' ↔ schema.meaning nfc offset v = schema.meaning nfc offset' v') ∧
        schema.Writes (schema.meaning nfc offset v) b ∧
        schema.Writes (schema.meaning nfc offset' v') b') ↔
      schema.AsciiDigits nfc v ∧ schema.AsciiDigits nfc v' := by
  have hw := canonicalRow_writes_iff h
  have hw' := canonicalRow_writes_iff h'
  constructor
  · rintro ⟨-, h1, h2⟩
    exact ⟨hw.1 h1, hw'.1 h2⟩
  · rintro ⟨h1, h2⟩
    exact ⟨CanonicalSchema.writes_iff (hw.2 h1) (hw'.2 h2), hw.2 h1, hw'.2 h2⟩

/-- One integer and one timestamp of a tenth of a second. -/
def readingSchema : CanonicalSchema where
  descriptors := .cons "at" (.timestamp 1) false (.cons "n" .signedInteger false .nil)
  sourceNames := ["n", "at"]
  bytes := ascii ("[[\"at\",\"timestamp\",false,\x7b\"timestamp_precision\":1\x7d]," ++
    "[\"n\",\"signed_integer\",false,\x7b\x7d]]")
  canonical := by decide +kernel

/-- A record of `readingSchema`. -/
def reading (n : PyValue) (stamp : String) : PyValue :=
  .dict [(.text "n", n), (.text "at", .str stamp)]

/-- The row of `12` at half a second. -/
def twelveRow : Bytes :=
  ascii ("[[\"at\",\"timestamp\",\"2024-01-01T00:00:00.5Z\"]," ++
    "[\"n\",\"signed_integer\",\"12\"]]")

/-- An integer text that ends in a digit of another script has a row of its own. -/
theorem canonicalRow_splits_record :
    CanonicalSchema.canonicalRow id false none readingSchema
        (reading (.int 12) "2024-01-01T00:00:00.5Z") = .ok twelveRow ∧
      ∃ b, CanonicalSchema.canonicalRow id false none readingSchema
          (reading (.str "1٢") "2024-01-01T00:00:00.5Z") = .ok b ∧
        readingSchema.meaning id none (reading (.int 12) "2024-01-01T00:00:00.5Z") =
          readingSchema.meaning id none (reading (.str "1٢") "2024-01-01T00:00:00.5Z") ∧
        twelveRow ≠ b := by
  refine ⟨by decide +kernel, Utf8.encode ("[[\"at\",\"timestamp\",\"2024-01-01T00:00:00.5Z\"]," ++
    "[\"n\",\"signed_integer\",\"1٢\"]]").toList, by decide +kernel, ?_, by decide +kernel⟩
  show [_, LogicalValue.integer 12] = [_, LogicalValue.integer (integerValue "1٢")]
  rw [show integerValue "1٢" = 12 by decide +kernel]
  rfl

theorem canonicalRow_complete_invariant_iff_twelve :
    ((twelveRow = twelveRow ↔
          readingSchema.meaning id none (reading (.int 12) "2024-01-01T00:00:00.50Z") =
            readingSchema.meaning id (some "+05:30")
              (reading (.str "12") "2024-01-01 05:30:00.500")) ∧
        readingSchema.Writes
          (readingSchema.meaning id none (reading (.int 12) "2024-01-01T00:00:00.50Z")) twelveRow ∧
        readingSchema.Writes
          (readingSchema.meaning id (some "+05:30") (reading (.str "12") "2024-01-01 05:30:00.500"))
          twelveRow) ↔
      readingSchema.AsciiDigits id (reading (.int 12) "2024-01-01T00:00:00.50Z") ∧
        readingSchema.AsciiDigits id (reading (.str "12") "2024-01-01 05:30:00.500") :=
  canonicalRow_complete_invariant_iff
    (show CanonicalSchema.canonicalRow id false none readingSchema
      (reading (.int 12) "2024-01-01T00:00:00.50Z") = .ok twelveRow by decide +kernel)
    (show CanonicalSchema.canonicalRow id true (some "+05:30") readingSchema
      (reading (.str "12") "2024-01-01 05:30:00.500") = .ok twelveRow by decide +kernel)

end AimData
