/-
  `canonical_json_bytes`: the safe-integer subset of canonical JSON.

  `normalize` sorts the keys of every object and refuses what the subset
  excludes; the bytes are the compact text of the normal form.  They determine
  it (`canonicalJsonBytes_inj`) and load back to it (`loads_canonicalJsonBytes`).
-/
import AimData.Lib.Except
import AimData.Lib.Json
import AimData.Merkle.Hash

namespace AimData

/-- `SAFE_INTEGER` -/
def safeInteger : ℤ := 2 ^ 53 - 1

/-! ## Key orders -/

def codePoints (s : String) : List ℕ := s.toList.map Char.toNat

/-- The UTF-16 code units of a text. -/
def utf16Units (s : String) : List ℕ :=
  s.toList.flatMap fun c =>
    if c.toNat < 0x10000 then [c.toNat]
    else [0xD800 + (c.toNat - 0x10000) / 0x400, 0xDC00 + (c.toNat - 0x10000) % 0x400]

/-- `sorted(item)`, with the values of the keys. -/
def sortKeys {α : Type} (l : List (String × α)) : List (String × α) :=
  l.insertionSort fun a b => codePoints a.1 ≤ codePoints b.1

/-- `sorted(item, key=lambda k: k.encode("utf-16-be"))`, with the values. -/
def sortKeys16 {α : Type} (l : List (String × α)) : List (String × α) :=
  l.insertionSort fun a b => utf16Units a.1 ≤ utf16Units b.1

/-- The values of a dict, in its order; the first failure ends it. -/
def sequenceFields {α : Type} : List (String × Except CommitmentValidationError α) →
    Except CommitmentValidationError (List (String × α))
  | [] => .ok []
  | (k, v) :: l => do
    let v ← v
    let l ← sequenceFields l
    return (k, v) :: l

/-! ## Normal forms -/

mutual
def normalize : Json → Except CommitmentValidationError Json
  | .null => .ok .null
  | .bool b => .ok (.bool b)
  | .int i => if i.natAbs > safeInteger then refuse "unsafe_integer" else .ok (.int i)
  | .float _ => refuse "invalid_metadata"
  | .str s => .ok (.str s)
  | .arr l => do return .arr (← normalizeList l)
  | .obj l =>
    let fields := sortKeys (normalizeFields l)
    if fields.map Prod.fst ≠ (sortKeys16 (normalizeFields l)).map Prod.fst then
      refuse "noncanonical_key_order"
    else do return .obj (← sequenceFields fields)

def normalizeList : List Json → Except CommitmentValidationError (List Json)
  | [] => .ok []
  | v :: l => do
    let v ← normalize v
    let l ← normalizeList l
    return v :: l

/-- Every field with the normal form of its value, or its failure. -/
def normalizeFields : List (String × Json) →
    List (String × Except CommitmentValidationError Json)
  | [] => []
  | (k, v) :: l => (k, normalize v) :: normalizeFields l
end

def canonicalJsonBytes (value : Json) : Except CommitmentValidationError Bytes := do
  return Utf8.encode (← normalize value).dumps

/-- `json.loads` of UTF-8 bytes. -/
def loads (raw : Bytes) : Option Json := do Json.parse (← Utf8.decode raw)

mutual
/-- The objects of a value are dicts. -/
def Dicts : Json → Prop
  | .arr l => DictsList l
  | .obj l => (l.map Prod.fst).Nodup ∧ DictsFields l
  | _ => True

def DictsList : List Json → Prop
  | [] => True
  | v :: l => Dicts v ∧ DictsList l

def DictsFields : List (String × Json) → Prop
  | [] => True
  | (_, v) :: l => Dicts v ∧ DictsFields l
end

theorem normalizeFields_keys : ∀ l : List (String × Json),
    (normalizeFields l).map Prod.fst = l.map Prod.fst
  | [] => rfl
  | (k, v) :: l => by rw [normalizeFields, List.map_cons, List.map_cons, normalizeFields_keys l]

theorem sequenceFields_ok {α : Type} : ∀ {l : List (String × Except CommitmentValidationError α)}
    {r : List (String × α)}, sequenceFields l = .ok r →
      l = r.map fun f => (f.1, .ok f.2)
  | [], r, h => by cases h; rfl
  | (k, v) :: l, r, h => by
    obtain ⟨v', hv, h⟩ := Except.bind_eq_ok.1 h
    obtain ⟨l', hl, h⟩ := Except.bind_eq_ok.1 h
    cases h
    rw [hv, sequenceFields_ok hl]
    rfl

theorem properFields_of_forall : ∀ {l : List (String × Json)}, (∀ f ∈ l, Json.Proper f.2) →
    Json.ProperFields l
  | [], _ => trivial
  | _ :: _, h => ⟨h _ (by simp), properFields_of_forall fun f hf => h f (by simp [hf])⟩

theorem dictsFields_mem {f : String × Json} : ∀ {l : List (String × Json)}, DictsFields l → f ∈ l →
    Dicts f.2
  | _ :: _, h, hf => by
    rcases List.mem_cons.1 hf with rfl | hf
    · exact h.1
    · exact dictsFields_mem h.2 hf

mutual
/-- A normal form has integers only and distinct keys. -/
theorem proper_normalize : ∀ {v w : Json}, Dicts v → normalize v = .ok w → w.Proper
  | .null, w, _, h => by cases h; trivial
  | .bool _, w, _, h => by cases h; trivial
  | .int i, w, _, h => by
    rw [normalize] at h
    split_ifs at h
    · cases h
    · cases h; trivial
  | .float _, w, _, h => by cases h
  | .str _, w, _, h => by cases h; trivial
  | .arr l, w, hd, h => by
    obtain ⟨l', hl, h⟩ := Except.bind_eq_ok.1 h
    cases h
    exact proper_normalizeList hd hl
  | .obj l, w, hd, h => by
    rw [normalize] at h
    split_ifs at h with hk
    · cases h
    · obtain ⟨l', hl, h⟩ := Except.bind_eq_ok.1 h
      cases h
      have hp := List.perm_insertionSort (fun a b => codePoints a.1 ≤ codePoints b.1)
        (normalizeFields l)
      have hl := sequenceFields_ok hl
      have hkeys : (l'.map Prod.fst).Perm (l.map Prod.fst) := by
        have := hp.map Prod.fst
        rw [normalizeFields_keys, show List.insertionSort _ _ = sortKeys _ from rfl, hl,
          List.map_map] at this
        exact this
      refine ⟨hkeys.nodup_iff.2 hd.1, properFields_of_forall fun f hf => ?_⟩
      have hmem : (f.1, Except.ok f.2) ∈ normalizeFields l := by
        refine hp.subset ?_
        rw [show List.insertionSort _ _ = sortKeys _ from rfl, hl]
        exact List.mem_map_of_mem hf
      exact proper_normalizeFields hd.2 hmem

theorem proper_normalizeList : ∀ {l l' : List Json}, DictsList l → normalizeList l = .ok l' →
    Json.ProperList l'
  | [], l', _, h => by cases h; trivial
  | v :: l, l', hd, h => by
    obtain ⟨v', hv, h⟩ := Except.bind_eq_ok.1 h
    obtain ⟨l'', hl, h⟩ := Except.bind_eq_ok.1 h
    cases h
    exact ⟨proper_normalize hd.1 hv, proper_normalizeList hd.2 hl⟩

theorem proper_normalizeFields : ∀ {l : List (String × Json)} {k : String} {w : Json},
    DictsFields l → (k, Except.ok w) ∈ normalizeFields l → w.Proper
  | (k', v') :: l, k, w, hd, h => by
    rcases List.mem_cons.1 h with h | h
    · have := (Prod.mk.inj h).2
      exact proper_normalize hd.1 this.symm
    · exact proper_normalizeFields hd.2 h
end

theorem loads_dumps {v : Json} (h : v.Proper) : loads (Utf8.encode v.dumps) = some v := by
  rw [loads, Utf8.decode_encode]
  exact Json.parse_dumps h

/-- **Canonical bytes load back** to the normal form. -/
theorem loads_canonicalJsonBytes {v w : Json} {b : Bytes} (hd : Dicts v)
    (hw : normalize v = .ok w) (h : canonicalJsonBytes v = .ok b) : loads b = some w := by
  rw [canonicalJsonBytes, hw] at h
  cases h
  exact loads_dumps (proper_normalize hd hw)

/-- **Canonical bytes determine the normal form.** -/
theorem canonicalJsonBytes_inj {v v' w w' : Json} {b : Bytes} (hd : Dicts v) (hd' : Dicts v')
    (hw : normalize v = .ok w) (hw' : normalize v' = .ok w') (h : canonicalJsonBytes v = .ok b)
    (h' : canonicalJsonBytes v' = .ok b) : w = w' := by
  have := (loads_canonicalJsonBytes hd hw h).symm.trans (loads_canonicalJsonBytes hd' hw' h')
  exact Option.some.inj this

/-! ## Dicts of a load -/

theorem mem_setField {k : String} {v : Json} {f : String × Json} : ∀ {l : List (String × Json)},
    f ∈ Json.setField k v l → f = (k, v) ∨ f ∈ l
  | [], h => Or.inl (List.mem_singleton.1 h)
  | (k', v') :: l, h => by
    rw [Json.setField] at h
    split_ifs at h with hk
    · rcases List.mem_cons.1 h with rfl | h
      · exact Or.inl rfl
      · exact Or.inr (List.mem_cons_of_mem _ h)
    · rcases List.mem_cons.1 h with rfl | h
      · exact Or.inr List.mem_cons_self
      · exact (mem_setField h).imp_right (List.mem_cons_of_mem _)

theorem nodup_setField {k : String} {v : Json} : ∀ {l : List (String × Json)},
    (l.map Prod.fst).Nodup → ((Json.setField k v l).map Prod.fst).Nodup
  | [], _ => by simp [Json.setField]
  | (k', v') :: l, h => by
    rw [List.map_cons, List.nodup_cons] at h
    rw [Json.setField]
    split_ifs with hk
    · subst hk
      exact List.nodup_cons.2 h
    · refine List.nodup_cons.2 ⟨?_, nodup_setField h.2⟩
      intro hmem
      obtain ⟨f, hf, hfk⟩ := List.mem_map.1 hmem
      rcases mem_setField hf with rfl | hf
      · exact hk hfk.symm
      · exact h.1 (hfk ▸ List.mem_map_of_mem hf)

theorem dictsFields_iff : ∀ {l : List (String × Json)}, DictsFields l ↔ ∀ f ∈ l, Dicts f.2
  | [] => by simp [DictsFields]
  | f :: l => by
    rw [DictsFields, dictsFields_iff, List.forall_mem_cons]

/-- A dict made of fields. -/
theorem dicts_dictOf {l : List (String × Json)} (h : DictsFields l) : Dicts (.obj (Json.dictOf l)) := by
  have hfold : ∀ (l d : List (String × Json)), DictsFields l → Dicts (.obj d) →
      Dicts (.obj (l.foldl (fun d f => Json.setField f.1 f.2 d) d)) := by
    intro l
    induction l with
    | nil => exact fun d _ hd => hd
    | cons f l ih =>
      intro d hl hd
      refine ih _ hl.2 ⟨nodup_setField hd.1, dictsFields_iff.2 fun g hg => ?_⟩
      rcases mem_setField hg with rfl | hg
      · exact hl.1
      · exact dictsFields_iff.1 hd.2 g hg
  exact hfold l [] h ⟨List.nodup_nil, trivial⟩

/-- What `json.loads` builds holds dicts, at every depth. -/
structure ParsesDicts (fuel : ℕ) : Prop where
  value : ∀ {cs rest : List Char} {v : Json}, Json.parseValue Json.dict fuel cs = some (v, rest) → Dicts v
  tail : ∀ {cs rest : List Char} {l : List Json}, Json.parseTail Json.dict fuel cs = some (l, rest) →
    DictsList l
  field : ∀ {cs rest : List Char} {f : String × Json}, Json.parseField Json.dict fuel cs = some (f, rest) →
    Dicts f.2
  fields : ∀ {cs rest : List Char} {l : List (String × Json)},
    Json.parseFields Json.dict fuel cs = some (l, rest) → DictsFields l

theorem dicts_parseNumber {negative : Bool} {cs rest : List Char} {v : Json}
    (h : Json.parseNumber negative cs = some (v, rest)) : Dicts v := by
  unfold Json.parseNumber at h
  generalize Json.spanDigits cs = span at h
  obtain ⟨ds, rest₀⟩ := span
  dsimp only at h
  by_cases hds : ds = [] ∨ (ds.length > 1 ∧ ds.head? = some '0')
  · rw [if_pos hds] at h
    cases h
  · rw [if_neg hds] at h
    obtain ⟨⟨fraction, rest₁⟩, -, h⟩ := Option.bind_eq_some_iff.1 h
    obtain ⟨⟨exponent, rest₂⟩, -, h⟩ := Option.bind_eq_some_iff.1 h
    dsimp only at h
    by_cases hint : fraction = [] ∧ exponent = []
    · rw [if_pos hint] at h
      cases h
      trivial
    · rw [if_neg hint] at h
      cases h
      trivial

theorem parsesDicts : ∀ fuel, ParsesDicts fuel
  | 0 => ⟨fun h => by simp [Json.parseValue] at h, fun h => by simp [Json.parseTail] at h,
      fun h => by simp [Json.parseField] at h, fun h => by simp [Json.parseFields] at h⟩
  | fuel + 1 => by
    have ih := parsesDicts fuel
    refine ⟨?_, ?_, ?_, ?_⟩
    · intro cs rest v h
      unfold Json.parseValue at h
      split at h
      · cases h; trivial
      · cases h; trivial
      · cases h; trivial
      · obtain ⟨⟨s, cs⟩, -, h⟩ := Option.bind_eq_some_iff.1 h
        cases h; trivial
      · split at h
        · cases h; trivial
        · obtain ⟨⟨w, cs₁⟩, hw, h⟩ := Option.bind_eq_some_iff.1 h
          obtain ⟨⟨l, cs₂⟩, hl, h⟩ := Option.bind_eq_some_iff.1 h
          cases h
          exact ⟨ih.value hw, ih.tail hl⟩
      · split at h
        · cases h
          exact ⟨List.nodup_nil, trivial⟩
        · obtain ⟨⟨f, cs₁⟩, hf, h⟩ := Option.bind_eq_some_iff.1 h
          obtain ⟨⟨l, cs₂⟩, hl, h⟩ := Option.bind_eq_some_iff.1 h
          cases h
          exact dicts_dictOf ⟨ih.field hf, ih.fields hl⟩
      · exact dicts_parseNumber h
      · exact dicts_parseNumber h
    · intro cs rest l h
      unfold Json.parseTail at h
      split at h
      · cases h; trivial
      · obtain ⟨⟨w, cs₁⟩, hw, h⟩ := Option.bind_eq_some_iff.1 h
        obtain ⟨⟨l, cs₂⟩, hl, h⟩ := Option.bind_eq_some_iff.1 h
        cases h
        exact ⟨ih.value hw, ih.tail hl⟩
      · cases h
    · intro cs rest f h
      unfold Json.parseField at h
      split at h
      · obtain ⟨⟨k, cs₁⟩, -, h⟩ := Option.bind_eq_some_iff.1 h
        dsimp only at h
        split at h
        · obtain ⟨⟨w, cs₂⟩, hw, h⟩ := Option.bind_eq_some_iff.1 h
          cases h
          exact ih.value hw
        · cases h
      · cases h
    · intro cs rest l h
      unfold Json.parseFields at h
      split at h
      · cases h; trivial
      · obtain ⟨⟨f, cs₁⟩, hf, h⟩ := Option.bind_eq_some_iff.1 h
        obtain ⟨⟨l, cs₂⟩, hl, h⟩ := Option.bind_eq_some_iff.1 h
        cases h
        exact ⟨ih.field hf, ih.fields hl⟩
      · cases h

/-- **What loads is a dict at every depth.** -/
theorem dicts_loads {raw : Bytes} {v : Json} (h : loads raw = some v) : Dicts v := by
  obtain ⟨cs, -, h⟩ := Option.bind_eq_some_iff.1 h
  rw [Json.parse, Json.parseWith] at h
  split at h
  · rename_i w rest hw
    split_ifs at h
    cases h
    exact (parsesDicts _).value hw
  · cases h

/-! ## Objects with fixed keys -/

theorem normalizeFields_map {α : Type} (v : α → Json) : ∀ l : List (String × α),
    normalizeFields (l.map fun p => (p.1, v p.2)) = l.map fun p => (p.1, normalize (v p.2))
  | [] => rfl
  | p :: l => by rw [List.map_cons, List.map_cons, normalizeFields, normalizeFields_map v l]

theorem sequenceFields_map {α : Type} (w : α → Json) : ∀ l : List (String × α),
    sequenceFields (l.map fun p => (p.1, (.ok (w p.2) : Except CommitmentValidationError Json))) =
      .ok (l.map fun p => (p.1, w p.2))
  | [] => rfl
  | p :: l => by rw [List.map_cons, sequenceFields, sequenceFields_map w l]; rfl

theorem sortKeys_map {α β : Type} (f : α → β) (l : List (String × α)) :
    sortKeys (l.map fun p => (p.1, f p.2)) = (sortKeys l).map fun p => (p.1, f p.2) :=
  (List.map_insertionSort (fun a b : String × α => codePoints a.1 ≤ codePoints b.1)
    (fun a b : String × β => codePoints a.1 ≤ codePoints b.1) (fun p => (p.1, f p.2)) l
    fun _ _ _ _ => Iff.rfl).symm

theorem sortKeys16_map {α β : Type} (f : α → β) (l : List (String × α)) :
    sortKeys16 (l.map fun p => (p.1, f p.2)) = (sortKeys16 l).map fun p => (p.1, f p.2) :=
  (List.map_insertionSort (fun a b : String × α => utf16Units a.1 ≤ utf16Units b.1)
    (fun a b : String × β => utf16Units a.1 ≤ utf16Units b.1) (fun p => (p.1, f p.2)) l
    fun _ _ _ _ => Iff.rfl).symm

/-- **The normal form of an object whose keys are given**, with their values by
    position. -/
theorem normalize_fields {l : List (String × ℕ)} {v w : ℕ → Json}
    (hv : ∀ p ∈ l, normalize (v p.2) = .ok (w p.2))
    (hl : (sortKeys l).map Prod.fst = (sortKeys16 l).map Prod.fst) :
    normalize (.obj (l.map fun p => (p.1, v p.2))) =
      .ok (.obj ((sortKeys l).map fun p => (p.1, w p.2))) := by
  have hfields : normalizeFields (l.map fun p => (p.1, v p.2)) =
      l.map fun p => (p.1, (.ok (w p.2) : Except CommitmentValidationError Json)) := by
    rw [normalizeFields_map]
    exact List.map_congr_left fun p hp => by rw [hv p hp]
  have hkeys : ∀ m : List (String × ℕ),
      (m.map fun p => (p.1, (.ok (w p.2) : Except CommitmentValidationError Json))).map Prod.fst =
        m.map Prod.fst := fun m => by rw [List.map_map]; rfl
  rw [normalize, hfields, sortKeys_map fun i => (.ok (w i) : Except CommitmentValidationError Json),
    sortKeys16_map fun i => (.ok (w i) : Except CommitmentValidationError Json), hkeys, hkeys,
    if_neg (not_not.2 hl), sequenceFields_map]
  rfl

end AimData
