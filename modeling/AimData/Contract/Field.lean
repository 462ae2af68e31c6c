/-
  Closed wire models: what `model_validate(value).model_dump(mode="json")` gives.

  A model is a list of declared fields, each with the validator of its type,
  and rules about the whole (`closedModel`).  A model that fails is refused
  with one code wherever it is used, so a validator is a partial function from
  values to what they are dumped as.
-/
import AimData.Canonical.Schema
import AimData.Canonical.Timestamp
import AimData.Lib.PyText

namespace AimData

instance texts_lawful : LawfulBEq (String × String) := inferInstance

/-- The dumped value of an accepted value. -/
abbrev Validator := Json → Option Json

namespace Contract

/-! ## Metadata -/

mutual
/-- `safe_metadata`: no integer is out of the safe range. -/
def safeMetadata : Json → Bool
  | .int i => i.natAbs ≤ safeInteger
  | .arr l => safeMetadataList l
  | .obj l => safeMetadataFields l
  | _ => true

def safeMetadataList : List Json → Bool
  | [] => true
  | v :: l => safeMetadata v && safeMetadataList l

def safeMetadataFields : List (String × Json) → Bool
  | [] => true
  | (_, v) :: l => safeMetadata v && safeMetadataFields l
end

/-- `str.lower`, as far as its result is ASCII. -/
def lower (s : String) : List Char :=
  s.toList.map fun c => if c = '\u212a' then 'k' else c.toLower

def contentKeys : List (List Char) :=
  ["row", "rows", "sample_values", "approved_sample", "approved_rows", "rights_basis_text",
    "rights_prose", "scan_notes", "notes", "reason_text", "source_path", "credentials", "token",
    "attachments", "content"].map String.toList

def contentKey (key : String) : Bool :=
  "raw_".toList.isPrefixOf (lower key) || lower key ∈ contentKeys

def maxMetadataDepth : ℕ := 32
def maxMetadataString : ℕ := 2048

mutual
/-- `reject_content` lets the value pass. -/
def metadataOnly : Json → ℕ → Bool
  | .obj l, depth => depth ≤ maxMetadataDepth && metadataOnlyFields l (depth + 1)
  | .arr l, depth => depth ≤ maxMetadataDepth && metadataOnlyList l (depth + 1)
  | .str s, depth => depth ≤ maxMetadataDepth && s.length ≤ maxMetadataString
  | _, depth => depth ≤ maxMetadataDepth

def metadataOnlyList : List Json → ℕ → Bool
  | [], _ => true
  | v :: l, depth => metadataOnly v depth && metadataOnlyList l depth

def metadataOnlyFields : List (String × Json) → ℕ → Bool
  | [], _ => true
  | (key, v) :: l, depth => !contentKey key && metadataOnly v depth && metadataOnlyFields l depth
end

/-! ## Identifiers -/

/-- `str.replace(pattern, "")`; the number counts the characters of a match
    still to be dropped. -/
def removeText (pattern : List Char) : ℕ → List Char → List Char
  | _, [] => []
  | k + 1, _ :: cs => removeText pattern k cs
  | 0, c :: cs =>
    if pattern.isPrefixOf (c :: cs) then removeText pattern (pattern.length - 1) cs
    else c :: removeText pattern 0 cs

/-- `str.strip` of the characters of a kind. -/
def strip (kind : Char → Bool) (cs : List Char) : List Char :=
  ((cs.dropWhile kind).reverse.dropWhile kind).reverse

/-- `str.isspace` -/
def whitespace (c : Char) : Bool :=
  let n := c.toNat
  9 ≤ n ∧ n ≤ 13 ∨ 28 ≤ n ∧ n ≤ 32 ∨ n = 0x85 ∨ n = 0xa0 ∨ n = 0x1680 ∨ 0x2000 ≤ n ∧ n ≤ 0x200a ∨
    n = 0x2028 ∨ n = 0x2029 ∨ n = 0x202f ∨ n = 0x205f ∨ n = 0x3000

/-- A digit of `int(text, 16)`. -/
def digit16 (c : Char) : Option ℕ :=
  match Numeral.digit c with
  | some d => some d
  | none =>
    if 'a' ≤ c ∧ c ≤ 'f' then some (c.toNat - 87)
    else if 'A' ≤ c ∧ c ≤ 'F' then some (c.toNat - 55)
    else none

/-- Digits with single underscores between them. -/
def digits16 : List Char → ℕ → Option ℕ
  | [], _ => none
  | [c], n => (digit16 c).map (n * 16 + ·)
  | c :: '_' :: cs, n => do digits16 cs (n * 16 + (← digit16 c))
  | c :: cs, n => do digits16 cs (n * 16 + (← digit16 c))

/-- `int(text, 16)` of a text without minus signs. -/
def int16 (cs : List Char) : Option ℕ :=
  let cs := strip whitespace cs
  let cs := match cs with
    | '+' :: cs => cs
    | cs => cs
  match cs with
  | '0' :: 'x' :: '_' :: cs => digits16 cs 0
  | '0' :: 'X' :: '_' :: cs => digits16 cs 0
  | '0' :: 'x' :: cs => digits16 cs 0
  | '0' :: 'X' :: cs => digits16 cs 0
  | cs => digits16 cs 0

/-- `UUID(text)` -/
def uuid (s : String) : Option ℕ :=
  let cs := removeText "uuid:".toList 0 (removeText "urn:".toList 0 s.toList)
  let cs := (strip (fun c => c = '{' || c = '}') cs).filter (· ≠ '-')
  if cs.length = 32 then int16 cs else none

/-- The last `w` hexadecimal digits of a number. -/
def hexDigits : ℕ → ℕ → List Char
  | 0, _ => []
  | w + 1, n => hexDigits w (n / 16) ++ [Nat.digitChar (n % 16)]

/-- `str(UUID)` -/
def uuidText (n : ℕ) : String :=
  let cs := hexDigits 32 n
  String.ofList (cs.take 8 ++ '-' :: (cs.drop 8).take 4 ++ '-' :: (cs.drop 12).take 4 ++
    '-' :: (cs.drop 16).take 4 ++ '-' :: cs.drop 20)

/-! ## Timestamps -/

/-- The microseconds of the fraction of a timestamp. -/
def microseconds : List Char → Option ℕ
  | [] => some 0
  | '.' :: ds =>
    if 1 ≤ ds.length ∧ ds.length ≤ 6 ∧ ds.all Char.isDigit then
      some (Numeral.value ds * 10 ^ (6 - ds.length))
    else none
  | _ => none

/-- `canonical_rfc3339_utc` of a text. -/
def canonicalRfc3339Utc (s : String) : Option String :=
  let body := s.toList.dropLast
  match s.toList.getLast?, body.drop 10 with
  | some 'Z', 'T' :: rest => do
    let date ← dateFromIsoformat (body.take 10)
    let clock ← clockFromIsoformat (rest.take 8)
    let micros ← microseconds (rest.drop 8)
    some (String.ofList (isoDate date.1 ++ 'T' :: isoClock clock ++ '.' :: Numeral.pad 6 micros ++ ['Z']))
  | _, _ => none

/-! ## Validators of field types -/

/-- A text validator. -/
def text (f : String → Option String) : Validator
  | .str s => (f s).map .str
  | _ => none

/-- A text that satisfies a predicate. -/
def textWhere (p : String → Bool) : Validator := text fun s => if p s then some s else none

/-- `UUIDText`; no other value than a text is one. -/
def uuidField : Validator := text fun s => (uuid s).map uuidText

def timestampField : Validator := text canonicalRfc3339Utc

/-- A text of `min` to `max` characters of a class. -/
def patternField (min max : ℕ) (chars : Char → Bool) : Validator :=
  textWhere fun s => min ≤ s.length ∧ s.length ≤ max ∧ s.toList.all chars

def alphanumeric (c : Char) : Bool :=
  'A' ≤ c ∧ c ≤ 'Z' ∨ 'a' ≤ c ∧ c ≤ 'z' ∨ '0' ≤ c ∧ c ≤ '9'

def codeField : Validator :=
  patternField 1 255 fun c => alphanumeric c || c ∈ ['.', '_', ':', '-']

def lowerHex (c : Char) : Bool := '0' ≤ c ∧ c ≤ '9' ∨ 'a' ≤ c ∧ c ≤ 'f'

def hexDigestField : Validator := patternField 64 64 lowerHex

/-- `b64_size` -/
def base64Field (chars size : ℕ) : Validator := textWhere fun s =>
  s.length = chars && match decodeBase64url (.text s) with
    | .ok b => b.length = size
    | .error _ => false

/-- `Digest` -/
def digestField : Validator := base64Field 43 32

/-- `Signature` -/
def signatureField : Validator := base64Field 86 64

/-- A text that `decode_digest` takes. -/
def digestTextField : Validator := textWhere fun s =>
  match decodeDigest (.text s) with
  | .ok _ => true
  | .error _ => false

def signerReferenceField : Validator := textWhere fun s =>
  s.length = 101 ∧ s.toList.zipIdx.all fun (c, i) =>
    if i ∈ [8, 13, 18, 23] then c = '-' else if i = 36 then c = ':' else lowerHex c

def literalField (values : List String) : Validator := textWhere (· ∈ values)

def trueField : Validator
  | .bool true => some (.bool true)
  | _ => none

def boolField : Validator
  | .bool b => some (.bool b)
  | _ => none

/-- `int = Field(ge=min, le=max)` -/
def intField (min max : ℤ) : Validator
  | .int i => if min ≤ i ∧ i ≤ max then some (.int i) else none
  | _ => none

/-- `T | None` -/
def optional (v : Validator) : Validator
  | .null => some .null
  | j => v j

/-- `list[T] = Field(min_length=min, max_length=max)` -/
def listField (v : Validator) (min max : ℕ) : Validator
  | .arr l => if min ≤ l.length ∧ l.length ≤ max then (l.mapM v).map .arr else none
  | _ => none

/-- A list whose elements are not looked at. -/
def anyList (max : ℕ) : Validator
  | .arr l => if l.length ≤ max then some (.arr l) else none
  | _ => none

/-! ## Models -/

/-- A declared field. -/
structure Field where
  name : String
  type : Validator
  default : Option Json := none

/-- The dumped value of one declared field. -/
def Field.dump (f : Field) (d : List (String × Json)) : Option (String × Json) :=
  match d.lookup f.name with
  | some v => (f.type v).map (f.name, ·)
  | none => f.default.map (f.name, ·)

/-- The declared fields in their order, none else, and the rules of the model. -/
def closedModel (fields : List Field) (rules : List (String × Json) → Bool) : Validator
  | .obj d =>
    if d.all (fun p => p.1 ∈ fields.map Field.name) then do
      let r ← fields.mapM (·.dump d)
      if rules r then some (.obj r) else none
    else none
  | _ => none

/-- A `ClosedModel`. -/
def closedMetadata (m : Validator) : Validator := fun v => if safeMetadata v then m v else none

/-- A `WireModel`. -/
def wireModel (fields : List Field) (rules : List (String × Json) → Bool) : Validator := fun v =>
  if safeMetadata v && metadataOnly v 0 then closedModel fields rules v else none

/-! ### Reading a dump -/

def get (d : List (String × Json)) (key : String) : Json := (d.lookup key).getD .null

def getStr (d : List (String × Json)) (key : String) : String :=
  match get d key with
  | .str s => s
  | _ => ""

def getInt (d : List (String × Json)) (key : String) : ℤ :=
  match get d key with
  | .int i => i
  | _ => 0

def getList (d : List (String × Json)) (key : String) : List Json :=
  match get d key with
  | .arr l => l
  | _ => []

def getObj (d : List (String × Json)) (key : String) : List (String × Json) :=
  match get d key with
  | .obj l => l
  | _ => []

/-- The fields of an object. -/
def asObj : Json → List (String × Json)
  | .obj l => l
  | _ => []

/-- A filter of the keys. -/
theorem lookup_filter_keys (p : String → Bool) (key : String) : ∀ l : List (String × Json),
    (l.filter fun f => p f.1).lookup key = if p key then l.lookup key else none
  | [] => by simp
  | (k, v) :: l => by
    have ih := lookup_filter_keys p key l
    by_cases hk : key = k
    · subst hk
      by_cases hp : p key = true
      · rw [List.filter_cons_of_pos (p := fun f : String × Json => p f.1) hp, if_pos hp, List.lookup_cons, List.lookup_cons]
        simp
      · rw [List.filter_cons_of_neg (p := fun f : String × Json => p f.1) hp, ih, if_neg hp, if_neg hp]
    · have hne : (key == k) = false := beq_eq_false_iff_ne.2 hk
      by_cases hp : p k = true
      · rw [List.filter_cons_of_pos (p := fun f : String × Json => p f.1) hp, List.lookup_cons, List.lookup_cons, hne, ih]
      · rw [List.filter_cons_of_neg (p := fun f : String × Json => p f.1) hp, List.lookup_cons, hne, ih]

/-! ## What a model accepts -/

theorem lookup_of_mapM_dump {d : List (String × Json)} : ∀ {fields : List Field}
    {r : List (String × Json)}, fields.mapM (·.dump d) = some r →
    r.map Prod.fst = fields.map Field.name
  | [], r, h => by
    simp only [List.mapM_nil] at h
    cases h; rfl
  | f :: fields, r, h => by
    simp only [List.mapM_cons, Option.bind_eq_bind, Option.bind_eq_some_iff] at h
    obtain ⟨p, hp, r', hr, h⟩ := h
    cases h
    have hname : p.1 = f.name := by
      rw [Field.dump] at hp
      cases hd : d.lookup f.name with
      | none =>
        rw [hd] at hp
        obtain ⟨v, -, rfl⟩ := Option.map_eq_some_iff.1 hp
        rfl
      | some v =>
        rw [hd] at hp
        obtain ⟨w, -, rfl⟩ := Option.map_eq_some_iff.1 hp
        rfl
    rw [List.map_cons, List.map_cons, hname, lookup_of_mapM_dump hr]

/-- **The dump of a model has its declared fields, in their order.** -/
theorem closedModel_keys {fields : List Field} {rules : List (String × Json) → Bool} {v w : Json}
    (h : closedModel fields rules v = some w) :
    ∃ r, w = .obj r ∧ r.map Prod.fst = fields.map Field.name ∧ rules r = true := by
  cases v with
  | obj d =>
    rw [closedModel] at h
    split_ifs at h
    obtain ⟨r, hr, h⟩ := Option.bind_eq_some_iff.1 h
    split_ifs at h with hrules
    cases h
    exact ⟨r, rfl, lookup_of_mapM_dump hr, hrules⟩
  | _ => cases h

/-- The dumped value of a declared field without default. -/
theorem mapM_dump_lookup {d : List (String × Json)} {f : Field} (hdef : f.default = none) :
    ∀ {fields : List Field} {r : List (String × Json)}, (fields.map Field.name).Nodup →
      fields.mapM (·.dump d) = some r → f ∈ fields →
      ∃ v w, d.lookup f.name = some v ∧ f.type v = some w ∧ r.lookup f.name = some w
  | g :: fields, r, hnd, h, hf => by
    have hkeys := lookup_of_mapM_dump h
    simp only [List.mapM_cons, Option.bind_eq_bind, Option.bind_eq_some_iff] at h
    obtain ⟨p, hp, r', hr, h⟩ := h
    cases h
    rw [List.map_cons, List.map_cons] at hkeys
    obtain ⟨hname, -⟩ := List.cons.inj hkeys
    rw [List.map_cons, List.nodup_cons] at hnd
    rcases List.mem_cons.1 hf with rfl | hf
    · rw [Field.dump] at hp
      cases hd : d.lookup f.name with
      | none =>
        rw [hd, hdef] at hp
        cases hp
      | some v =>
        rw [hd] at hp
        obtain ⟨w, hw, rfl⟩ := Option.map_eq_some_iff.1 hp
        exact ⟨v, w, rfl, hw, by simp⟩
    · obtain ⟨v, w, hv, hw, hl⟩ := mapM_dump_lookup hdef hnd.2 hr hf
      refine ⟨v, w, hv, hw, ?_⟩
      have hne : f.name ≠ p.1 := by
        rw [hname]
        rintro he
        exact hnd.1 (he ▸ List.mem_map_of_mem hf)
      obtain ⟨k, x⟩ := p
      rw [List.lookup_cons, beq_eq_false_iff_ne.2 hne]
      exact hl

/-- **The dump of a field** is what its type makes of the value given. -/
theorem closedModel_get {fields : List Field} {rules : List (String × Json) → Bool}
    {d r : List (String × Json)} (h : closedModel fields rules (.obj d) = some (.obj r))
    (hnd : (fields.map Field.name).Nodup) {f : Field} (hf : f ∈ fields) (hdef : f.default = none) :
    ∃ v w, d.lookup f.name = some v ∧ f.type v = some w ∧ r.lookup f.name = some w := by
  rw [closedModel] at h
  split_ifs at h
  obtain ⟨r', hr, h⟩ := Option.bind_eq_some_iff.1 h
  split_ifs at h
  cases h
  exact mapM_dump_lookup hdef hnd hr hf

theorem intField_some {min max : ℤ} {v w : Json} (h : intField min max v = some w) :
    w = v ∧ ∃ i, v = .int i := by
  cases v with
  | int i =>
    rw [intField] at h
    split_ifs at h
    cases h
    exact ⟨rfl, i, rfl⟩
  | _ => cases h

theorem textWhere_some {p : String → Bool} {v w : Json} (h : textWhere p v = some w) :
    w = v ∧ ∃ s, v = .str s ∧ p s = true := by
  cases v with
  | str s =>
    obtain ⟨t, ht, rfl⟩ := Option.map_eq_some_iff.1 h
    dsimp only at ht
    split_ifs at ht with hp
    cases ht
    exact ⟨rfl, s, rfl, hp⟩
  | _ => cases h

theorem wireModel_keys {fields : List Field} {rules : List (String × Json) → Bool} {v w : Json}
    (h : wireModel fields rules v = some w) :
    ∃ r, w = .obj r ∧ r.map Prod.fst = fields.map Field.name ∧ rules r = true := by
  rw [wireModel] at h
  split_ifs at h
  exact closedModel_keys h

/-! ## Dumps of dicts -/

/-- The dump of a dict is a dict. -/
def KeepsDicts (v : Validator) : Prop := ∀ ⦃j w⦄, Dicts j → v j = some w → Dicts w

theorem keepsDicts_text (f : String → Option String) : KeepsDicts (text f) := by
  intro j w _ h
  cases j with
  | str s =>
    obtain ⟨t, -, rfl⟩ := Option.map_eq_some_iff.1 h
    trivial
  | _ => cases h

theorem keepsDicts_true : KeepsDicts trueField := by
  intro j w _ h
  rw [trueField.eq_def] at h
  split at h
  · cases h; trivial
  · cases h

theorem keepsDicts_bool : KeepsDicts boolField := by
  intro j w _ h
  cases j with
  | bool b => cases h; trivial
  | _ => cases h

theorem keepsDicts_int (min max : ℤ) : KeepsDicts (intField min max) := by
  intro j w _ h
  cases j with
  | int i =>
    rw [intField] at h
    split_ifs at h
    cases h; trivial
  | _ => cases h

theorem keepsDicts_optional {v : Validator} (hv : KeepsDicts v) : KeepsDicts (optional v) := by
  intro j w hj h
  cases j with
  | null => cases h; trivial
  | _ => exact hv hj h

theorem dictsList_mapM {v : Validator} (hv : KeepsDicts v) : ∀ {l r : List Json}, DictsList l →
    l.mapM v = some r → DictsList r
  | [], r, _, h => by
    simp only [List.mapM_nil] at h
    cases h; trivial
  | j :: l, r, hl, h => by
    simp only [List.mapM_cons, Option.bind_eq_bind, Option.bind_eq_some_iff] at h
    obtain ⟨w, hw, r', hr, h⟩ := h
    cases h
    exact ⟨hv hl.1 hw, dictsList_mapM hv hl.2 hr⟩

theorem keepsDicts_list {v : Validator} (hv : KeepsDicts v) (min max : ℕ) :
    KeepsDicts (listField v min max) := by
  intro j w hj h
  cases j with
  | arr l =>
    rw [listField] at h
    split_ifs at h
    obtain ⟨r, hr, rfl⟩ := Option.map_eq_some_iff.1 h
    exact dictsList_mapM hv hj hr
  | _ => cases h

theorem keepsDicts_anyList (max : ℕ) : KeepsDicts (anyList max) := by
  intro j w hj h
  cases j with
  | arr l =>
    rw [anyList] at h
    split_ifs at h
    cases h; exact hj
  | _ => cases h

theorem dicts_lookup {key : String} {v : Json} : ∀ {d : List (String × Json)}, DictsFields d →
    d.lookup key = some v → Dicts v
  | (k, w) :: d, hd, h => by
    rw [List.lookup_cons] at h
    split at h
    · cases h; exact hd.1
    · exact dicts_lookup hd.2 h

theorem dicts_get {d : List (String × Json)} (hd : DictsFields d) (key : String) :
    Dicts (get d key) := by
  rw [get]
  cases h : d.lookup key with
  | none => trivial
  | some v => exact dicts_lookup hd h

/-- Every declared type keeps dicts, and the defaults are. -/
def KeepsFields (fields : List Field) : Prop :=
  ∀ f ∈ fields, KeepsDicts f.type ∧ ∀ d ∈ f.default, Dicts d

theorem dictsFields_dump {d : List (String × Json)} (hd : DictsFields d) : ∀ {fields : List Field}
    {r : List (String × Json)}, KeepsFields fields → fields.mapM (·.dump d) = some r → DictsFields r
  | [], r, _, h => by
    simp only [List.mapM_nil] at h
    cases h; trivial
  | f :: fields, r, hf, h => by
    simp only [List.mapM_cons, Option.bind_eq_bind, Option.bind_eq_some_iff] at h
    obtain ⟨p, hp, r', hr, h⟩ := h
    cases h
    refine ⟨?_, dictsFields_dump hd (fun f hm => hf f (by simp [hm])) hr⟩
    obtain ⟨htype, hdefault⟩ := hf f (by simp)
    rw [Field.dump] at hp
    cases hl : d.lookup f.name with
    | none =>
      rw [hl] at hp
      obtain ⟨v, hv, rfl⟩ := Option.map_eq_some_iff.1 hp
      exact hdefault v hv
    | some v =>
      rw [hl] at hp
      obtain ⟨w, hw, rfl⟩ := Option.map_eq_some_iff.1 hp
      exact htype (dicts_lookup hd hl) hw

theorem keepsDicts_model {fields : List Field} {rules : List (String × Json) → Bool}
    (hn : (fields.map Field.name).Nodup) (hf : KeepsFields fields) :
    KeepsDicts (closedModel fields rules) := by
  intro j w hj h
  cases j with
  | obj d =>
    obtain ⟨r, rfl, hkeys, -⟩ := closedModel_keys h
    rw [closedModel] at h
    split_ifs at h
    obtain ⟨r', hr, h⟩ := Option.bind_eq_some_iff.1 h
    split_ifs at h
    cases h
    exact ⟨by rw [hkeys]; exact hn, dictsFields_dump hj.2 hf hr⟩
  | _ => cases h

theorem keepsDicts_closed {v : Validator} (hv : KeepsDicts v) : KeepsDicts (closedMetadata v) := by
  intro j w hj h
  rw [closedMetadata] at h
  split_ifs at h
  exact hv hj h

theorem keepsDicts_wire {fields : List Field} {rules : List (String × Json) → Bool}
    (hn : (fields.map Field.name).Nodup) (hf : KeepsFields fields) :
    KeepsDicts (wireModel fields rules) := by
  intro j w hj h
  rw [wireModel] at h
  split_ifs at h
  exact keepsDicts_model hn hf hj h

@[simp] theorem keepsDicts_uuid : KeepsDicts uuidField := keepsDicts_text _
@[simp] theorem keepsDicts_timestamp : KeepsDicts timestampField := keepsDicts_text _
@[simp] theorem keepsDicts_textWhere (p : String → Bool) : KeepsDicts (textWhere p) := keepsDicts_text _
@[simp] theorem keepsDicts_pattern (min max : ℕ) (chars : Char → Bool) :
    KeepsDicts (patternField min max chars) := keepsDicts_text _
@[simp] theorem keepsDicts_code : KeepsDicts codeField := keepsDicts_text _
@[simp] theorem keepsDicts_hexDigest : KeepsDicts hexDigestField := keepsDicts_text _
@[simp] theorem keepsDicts_digest : KeepsDicts digestField := keepsDicts_text _
@[simp] theorem keepsDicts_signature : KeepsDicts signatureField := keepsDicts_text _
@[simp] theorem keepsDicts_digestText : KeepsDicts digestTextField := keepsDicts_text _
@[simp] theorem keepsDicts_signerReference : KeepsDicts signerReferenceField := keepsDicts_text _
@[simp] theorem keepsDicts_literal (values : List String) : KeepsDicts (literalField values) :=
  keepsDicts_text _

attribute [simp] keepsDicts_true keepsDicts_bool keepsDicts_int keepsDicts_anyList
  keepsDicts_optional keepsDicts_list

/-! ### Dumps that are dicts -/

/-- Every dump is a dict, of whatever it is the dump. -/
def MakesDicts (v : Validator) : Prop := ∀ ⦃j w⦄, v j = some w → Dicts w

@[simp] theorem makesDicts_text (f : String → Option String) : MakesDicts (text f) := by
  intro j w h
  cases j with
  | str s =>
    obtain ⟨t, -, rfl⟩ := Option.map_eq_some_iff.1 h
    trivial
  | _ => cases h

@[simp] theorem makesDicts_int (min max : ℤ) : MakesDicts (intField min max) := by
  intro j w h
  obtain ⟨rfl, i, rfl⟩ := intField_some h
  trivial

@[simp] theorem makesDicts_optional {v : Validator} (hv : MakesDicts v) :
    MakesDicts (optional v) := by
  intro j w h
  cases j with
  | null => cases h; trivial
  | _ => exact hv h

@[simp] theorem makesDicts_list {v : Validator} (hv : MakesDicts v) (min max : ℕ) :
    MakesDicts (listField v min max) := by
  have hlist : ∀ {l r : List Json}, l.mapM v = some r → DictsList r := by
    intro l
    induction l with
    | nil =>
      intro r h
      rw [List.mapM_nil] at h
      cases h; trivial
    | cons j l ih =>
      intro r h
      simp only [List.mapM_cons, Option.bind_eq_bind, Option.bind_eq_some_iff] at h
      obtain ⟨w, hw, r', hr, h⟩ := h
      cases h
      exact ⟨hv hw, ih hr⟩
  intro j w h
  cases j with
  | arr l =>
    rw [listField] at h
    split_ifs at h
    obtain ⟨r, hr, rfl⟩ := Option.map_eq_some_iff.1 h
    exact hlist hr
  | _ => cases h

/-- Every declared type makes dicts, and the defaults are. -/
def MakesFields (fields : List Field) : Prop :=
  ∀ f ∈ fields, MakesDicts f.type ∧ ∀ d ∈ f.default, Dicts d

theorem makesDicts_fields {d : List (String × Json)} : ∀ {fields : List Field}
    {r : List (String × Json)}, MakesFields fields → fields.mapM (·.dump d) = some r → DictsFields r
  | [], r, _, h => by
    simp only [List.mapM_nil] at h
    cases h; trivial
  | f :: fields, r, hf, h => by
    simp only [List.mapM_cons, Option.bind_eq_bind, Option.bind_eq_some_iff] at h
    obtain ⟨p, hp, r', hr, h⟩ := h
    cases h
    refine ⟨?_, makesDicts_fields (fun f hm => hf f (List.mem_cons_of_mem _ hm)) hr⟩
    obtain ⟨htype, hdefault⟩ := hf f List.mem_cons_self
    rw [Field.dump] at hp
    cases hl : d.lookup f.name with
    | none =>
      rw [hl] at hp
      obtain ⟨v, hv, rfl⟩ := Option.map_eq_some_iff.1 hp
      exact hdefault v hv
    | some v =>
      rw [hl] at hp
      obtain ⟨w, hw, rfl⟩ := Option.map_eq_some_iff.1 hp
      exact htype hw

theorem makesDicts_model {fields : List Field} {rules : List (String × Json) → Bool}
    (hn : (fields.map Field.name).Nodup) (hf : MakesFields fields) :
    MakesDicts (closedModel fields rules) := by
  intro j w h
  cases j with
  | obj d =>
    obtain ⟨r, rfl, hkeys, -⟩ := closedModel_keys h
    rw [closedModel] at h
    split_ifs at h
    obtain ⟨r', hr, h⟩ := Option.bind_eq_some_iff.1 h
    split_ifs at h
    cases h
    exact ⟨by rw [hkeys]; exact hn, makesDicts_fields hf hr⟩
  | _ => cases h

theorem makesDicts_closed {v : Validator} (hv : MakesDicts v) : MakesDicts (closedMetadata v) := by
  intro j w h
  rw [closedMetadata] at h
  split_ifs at h
  exact hv h

theorem makesDicts_wire {fields : List Field} {rules : List (String × Json) → Bool}
    (hn : (fields.map Field.name).Nodup) (hf : MakesFields fields) :
    MakesDicts (wireModel fields rules) := by
  intro j w h
  rw [wireModel] at h
  split_ifs at h
  exact makesDicts_model hn hf h

@[simp] theorem makesDicts_uuid : MakesDicts uuidField := makesDicts_text _
@[simp] theorem makesDicts_timestamp : MakesDicts timestampField := makesDicts_text _
@[simp] theorem makesDicts_textWhere (p : String → Bool) : MakesDicts (textWhere p) :=
  makesDicts_text _
@[simp] theorem makesDicts_pattern (min max : ℕ) (chars : Char → Bool) :
    MakesDicts (patternField min max chars) := makesDicts_text _
@[simp] theorem makesDicts_code : MakesDicts codeField := makesDicts_text _
@[simp] theorem makesDicts_digest : MakesDicts digestField := makesDicts_text _
@[simp] theorem makesDicts_signature : MakesDicts signatureField := makesDicts_text _
@[simp] theorem makesDicts_digestText : MakesDicts digestTextField := makesDicts_text _
@[simp] theorem makesDicts_signerReference : MakesDicts signerReferenceField := makesDicts_text _
@[simp] theorem makesDicts_literal (values : List String) : MakesDicts (literalField values) :=
  makesDicts_text _

end Contract

end AimData
