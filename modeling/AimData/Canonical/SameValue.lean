/-
  `canonical_json_bytes` up to equality of values: two values have the same bytes
  iff they are equal, whatever the order in which the keys of their objects were
  inserted.
-/
import AimData.Canonical.NormalForm

namespace AimData

/-! ## Equality of values -/

mutual
/-- `==` of two values: objects are compared by their keys, in any order. -/
def Same : Json → Json → Prop
  | .null, .null => True
  | .bool b, .bool c => b = c
  | .int i, .int j => i = j
  | .float s, .float t => s = t
  | .str s, .str t => s = t
  | .arr l, .arr m => SameList l m
  | .obj l, .obj m => (l.map Prod.fst).Perm (m.map Prod.fst) ∧ SameFields l m
  | _, _ => False

def SameList : List Json → List Json → Prop
  | [], [] => True
  | v :: l, w :: m => Same v w ∧ SameList l m
  | _, _ => False

/-- Every field has an equal one under its key. -/
def SameFields : List (String × Json) → List (String × Json) → Prop
  | [], _ => True
  | (k, v) :: l, m => (∃ w, (k, w) ∈ m ∧ Same v w) ∧ SameFields l m
end

/-! ## Equal normal forms -/

theorem mem_of_normalize_eq {l m n : List (String × Json)} {k : String} {v : Json}
    (hl : normalize (.obj l) = .ok (.obj n)) (hm : normalize (.obj m) = .ok (.obj n))
    (hv : (k, v) ∈ l) : ∃ w u, (k, w) ∈ m ∧ normalize v = .ok u ∧ normalize w = .ok u := by
  have hlperm := normalize_obj_perm hl
  have hmperm := normalize_obj_perm hm
  obtain ⟨⟨k₁, u⟩, hu, he⟩ := List.mem_map.1 (hlperm.symm.subset (List.mem_map_of_mem hv))
  obtain ⟨rfl, hnormal⟩ := Prod.mk.inj he
  obtain ⟨⟨k₂, w⟩, hw, he⟩ := List.mem_map.1 (hmperm.subset (List.mem_map_of_mem hu))
  obtain ⟨rfl, hnormal'⟩ := Prod.mk.inj he
  exact ⟨w, u, hw, hnormal.symm, hnormal'⟩

theorem normalize_eq_scalar {w u : Json} (h : normalize w = .ok u) (harr : ∀ n, u ≠ .arr n)
    (hobj : ∀ n, u ≠ .obj n) : w = u := by
  cases w with
  | arr m =>
    obtain ⟨n, rfl, -⟩ := normalize_arr_ok h
    exact absurd rfl (harr n)
  | obj m =>
    obtain ⟨n, rfl, -⟩ := normalize_obj_ok h
    exact absurd rfl (hobj n)
  | int i =>
    rw [normalize] at h
    split_ifs at h
    · cases h
    · cases h
      rfl
  | float t => cases h
  | _ =>
    cases h
    rfl

theorem normalize_eq_arr {w : Json} {n : List Json} (h : normalize w = .ok (.arr n)) :
    ∃ m, w = .arr m ∧ normalizeList m = .ok n := by
  cases w with
  | arr m =>
    obtain ⟨n', hn, hm⟩ := normalize_arr_ok h
    cases hn
    exact ⟨m, rfl, hm⟩
  | obj m =>
    obtain ⟨n', hn, -⟩ := normalize_obj_ok h
    cases hn
  | int i =>
    rw [normalize] at h
    split_ifs at h
    · cases h
    · cases h
  | _ => cases h

theorem normalize_eq_obj {w : Json} {n : List (String × Json)} (h : normalize w = .ok (.obj n)) :
    ∃ m, w = .obj m := by
  cases w with
  | obj m => exact ⟨m, rfl⟩
  | arr m =>
    obtain ⟨n', hn, -⟩ := normalize_arr_ok h
    cases hn
  | int i =>
    rw [normalize] at h
    split_ifs at h
    · cases h
    · cases h
  | _ => cases h

mutual
/-- **Values of one normal form are equal.** -/
theorem same_of_normalize : ∀ {v w u : Json}, normalize v = .ok u → normalize w = .ok u → Same v w
  | .arr l, w, u, hv, hw => by
    obtain ⟨n, rfl, hl⟩ := normalize_arr_ok hv
    obtain ⟨m, rfl, hm⟩ := normalize_eq_arr hw
    exact sameList_of_normalize hl hm
  | .obj l, w, u, hv, hw => by
    obtain ⟨n, rfl, -, -⟩ := normalize_obj_ok hv
    obtain ⟨m, rfl⟩ := normalize_eq_obj hw
    refine ⟨(normalize_obj_keys hv).symm.trans (normalize_obj_keys hw), ?_⟩
    exact sameFields_of_normalize fun f hf => mem_of_normalize_eq hv hw hf
  | .int i, w, u, hv, hw => by
    rw [normalize] at hv
    split_ifs at hv
    · cases hv
    · cases hv
      obtain rfl := normalize_eq_scalar hw (fun n => by simp) (fun n => by simp)
      rfl
  | .float t, w, u, hv, hw => by cases hv
  | .null, w, u, hv, hw => by
    cases hv
    obtain rfl := normalize_eq_scalar hw (fun n => by simp) (fun n => by simp)
    trivial
  | .bool b, w, u, hv, hw => by
    cases hv
    obtain rfl := normalize_eq_scalar hw (fun n => by simp) (fun n => by simp)
    rfl
  | .str s, w, u, hv, hw => by
    cases hv
    obtain rfl := normalize_eq_scalar hw (fun n => by simp) (fun n => by simp)
    rfl

theorem sameList_of_normalize : ∀ {l m n : List Json}, normalizeList l = .ok n →
    normalizeList m = .ok n → SameList l m
  | [], [], n, _, _ => trivial
  | [], w :: m, n, hl, hm => by
    cases hl
    obtain ⟨w', -, hm⟩ := Except.bind_eq_ok.1 hm
    obtain ⟨m', -, hm⟩ := Except.bind_eq_ok.1 hm
    cases hm
  | v :: l, [], n, hl, hm => by
    cases hm
    obtain ⟨v', -, hl⟩ := Except.bind_eq_ok.1 hl
    obtain ⟨l', -, hl⟩ := Except.bind_eq_ok.1 hl
    cases hl
  | v :: l, w :: m, n, hl, hm => by
    obtain ⟨v', hv, hl⟩ := Except.bind_eq_ok.1 hl
    obtain ⟨l', hl', hl⟩ := Except.bind_eq_ok.1 hl
    cases hl
    obtain ⟨w', hw, hm⟩ := Except.bind_eq_ok.1 hm
    obtain ⟨m', hm', hm⟩ := Except.bind_eq_ok.1 hm
    cases hm
    exact ⟨same_of_normalize hv hw, sameList_of_normalize hl' hm'⟩

theorem sameFields_of_normalize : ∀ {l m : List (String × Json)},
    (∀ f ∈ l, ∃ w u, (f.1, w) ∈ m ∧ normalize f.2 = .ok u ∧ normalize w = .ok u) → SameFields l m
  | [], _, _ => trivial
  | (k, v) :: l, m, h => by
    obtain ⟨w, u, hmem, hv, hw⟩ := h (k, v) List.mem_cons_self
    exact ⟨⟨w, hmem, same_of_normalize hv hw⟩,
      sameFields_of_normalize fun f hf => h f (List.mem_cons_of_mem _ hf)⟩
end

/-! ## Equal values -/

theorem codePoints_injective : Function.Injective codePoints := by
  intro s t h
  have hchars : Function.Injective (List.map Char.toNat) :=
    List.map_injective_iff.2 fun c d hcd => Char.toNat_inj.1 hcd
  exact String.toList_inj.1 (hchars h)

/-- The code units of one character. -/
theorem utf16Units_cons (c : Char) (cs : List Char) :
    utf16Units (String.ofList (c :: cs)) =
      (if c.toNat < 0x10000 then [c.toNat]
        else [0xD800 + (c.toNat - 0x10000) / 0x400, 0xDC00 + (c.toNat - 0x10000) % 0x400]) ++
        utf16Units (String.ofList cs) := by
  simp [utf16Units]

/-- No surrogate is a character. -/
theorem char_bounds (c : Char) : c.toNat < 0xD800 ∨ 0xDFFF < c.toNat ∧ c.toNat < 0x110000 := by
  have h := c.valid
  rw [UInt32.isValidChar, Nat.isValidChar] at h
  exact h

theorem utf16Units_ofList_inj : ∀ {cs ds : List Char},
    utf16Units (String.ofList cs) = utf16Units (String.ofList ds) → cs = ds := by
  intro cs
  induction cs with
  | nil =>
    intro ds h
    cases ds with
    | nil => rfl
    | cons d ds =>
      rw [utf16Units_cons] at h
      split_ifs at h <;> simp [utf16Units] at h
  | cons c cs ih =>
    intro ds h
    cases ds with
    | nil =>
      rw [utf16Units_cons] at h
      split_ifs at h <;> simp [utf16Units] at h
    | cons d ds =>
      have hc := char_bounds c
      have hd := char_bounds d
      rw [utf16Units_cons, utf16Units_cons] at h
      have hcd : c.toNat = d.toNat ∧
          utf16Units (String.ofList cs) = utf16Units (String.ofList ds) := by
        split_ifs at h <;> simp only [List.cons_append, List.nil_append, List.cons.injEq] at h <;>
          refine ⟨?_, ?_⟩ <;> first | omega | exact h.2 | exact h.2.2
      rw [Char.toNat_inj.1 hcd.1, ih hcd.2]

theorem utf16Units_injective : Function.Injective utf16Units := by
  intro s t h
  have hchars := @utf16Units_ofList_inj s.toList t.toList
  simp only [String.ofList_toList] at hchars
  exact String.toList_inj.1 (hchars h)

/-- Fields with distinct keys have one order by their keys. -/
theorem sorted_unique {α : Type} {le : String → String → Prop}
    (hle : ∀ ⦃a b⦄, le a b → le b a → a = b) {l m : List (String × α)}
    (hnodup : (l.map Prod.fst).Nodup) (hl : l.Pairwise fun a b => le a.1 b.1)
    (hm : m.Pairwise fun a b => le a.1 b.1) (h : l.Perm m) : l = m := by
  refine h.eq_of_pairwise (fun a b ha hb hab hba => ?_) hl hm
  exact List.inj_on_of_nodup_map hnodup ha (h.symm.subset hb) (hle hab hba)

theorem sortKeys_unique {α : Type} {l m : List (String × α)} (hnodup : (l.map Prod.fst).Nodup)
    (h : l.Perm m) : sortKeys l = sortKeys m :=
  sorted_unique (fun _ _ hab hba => codePoints_injective (le_antisymm hab hba))
    (((sortKeys_perm l).map Prod.fst).nodup_iff.2 hnodup)
    (List.pairwise_insertionSort _ l) (List.pairwise_insertionSort _ m)
    ((sortKeys_perm l).trans (h.trans (sortKeys_perm m).symm))

theorem sortKeys16_unique {α : Type} {l m : List (String × α)} (hnodup : (l.map Prod.fst).Nodup)
    (h : l.Perm m) : sortKeys16 l = sortKeys16 m :=
  sorted_unique (fun _ _ hab hba => utf16Units_injective (le_antisymm hab hba))
    (((sortKeys16_perm l).map Prod.fst).nodup_iff.2 hnodup)
    (List.pairwise_insertionSort _ l) (List.pairwise_insertionSort _ m)
    ((sortKeys16_perm l).trans (h.trans (sortKeys16_perm m).symm))

/-- The order of its fields does not matter to an object. -/
theorem normalize_obj_congr {l m : List (String × Json)} (hnodup : (l.map Prod.fst).Nodup)
    (h : (normalizeFields l).Perm (normalizeFields m)) :
    normalize (.obj l) = normalize (.obj m) := by
  rw [← normalizeFields_keys] at hnodup
  rw [normalize, normalize, sortKeys_unique hnodup h, sortKeys16_unique hnodup h]

mutual
/-- **Equal values have one normal form**, or fail alike. -/
theorem normalize_same : ∀ {v w : Json}, Dicts v → Dicts w → Same v w → normalize v = normalize w
  | .arr l, .arr m, hv, hw, h => by
    rw [normalize, normalize, normalizeList_same hv hw h]
  | .obj l, .obj m, hv, hw, h => by
    refine normalize_obj_congr hv.1 ?_
    have hnodup : (normalizeFields l).Nodup := by
      refine List.Nodup.of_map Prod.fst ?_
      rw [normalizeFields_keys]
      exact hv.1
    have hlength : (normalizeFields m).length ≤ (normalizeFields l).length := by
      have hkeys := h.1.length_eq
      simp only [List.length_map] at hkeys
      simp [normalizeFields_eq, hkeys]
    exact (List.subperm_of_subset hnodup (normalizeFields_same hv.2 hw.2 h.2)).perm_of_length_le
      hlength
  | .null, .null, _, _, _ => rfl
  | .bool b, .bool c, _, _, h => by
    cases h
    rfl
  | .int i, .int j, _, _, h => by
    cases h
    rfl
  | .float s, .float t, _, _, h => by
    cases h
    rfl
  | .str s, .str t, _, _, h => by
    cases h
    rfl

theorem normalizeList_same : ∀ {l m : List Json}, DictsList l → DictsList m → SameList l m →
    normalizeList l = normalizeList m
  | [], [], _, _, _ => rfl
  | v :: l, w :: m, hl, hm, h => by
    rw [normalizeList, normalizeList, normalize_same hl.1 hm.1 h.1, normalizeList_same hl.2 hm.2 h.2]

theorem normalizeFields_same : ∀ {l m : List (String × Json)}, DictsFields l → DictsFields m →
    SameFields l m → ∀ f ∈ normalizeFields l, f ∈ normalizeFields m
  | [], _, _, _, _, f, hf => by cases hf
  | (k, v) :: l, m, hl, hm, h, f, hf => by
    obtain ⟨⟨w, hw, hsame⟩, hrest⟩ := h
    rcases List.mem_cons.1 hf with rfl | hf
    · rw [normalize_same hl.1 (dictsFields_mem hm hw) hsame, normalizeFields_eq]
      exact List.mem_map_of_mem (f := fun f => (f.1, normalize f.2)) hw
    · exact normalizeFields_same hl.2 hm hrest f hf
end

/-! ## Canonical bytes -/

theorem canonicalJsonBytes_same {v w : Json} (hv : Dicts v) (hw : Dicts w) (h : Same v w) :
    canonicalJsonBytes v = canonicalJsonBytes w := by
  rw [canonicalJsonBytes, canonicalJsonBytes, normalize_same hv hw h]

/-- **Canonical bytes say what the value is, and nothing else**: another value has
    them iff it is equal, and they load back to an equal one. -/
theorem canonicalJsonBytes_determines {v : Json} {b : Bytes} (hv : Dicts v)
    (h : canonicalJsonBytes v = .ok b) :
    (∀ w, Dicts w → (canonicalJsonBytes w = .ok b ↔ Same v w)) ∧
      ∃ w, loads b = some w ∧ Same v w := by
  obtain ⟨u, hu, -⟩ := canonicalJsonBytes_ok h
  refine ⟨fun w hw => ⟨fun hb => ?_, fun hsame => ?_⟩, u, loads_canonicalJsonBytes hv hu h, ?_⟩
  · obtain ⟨u', hu', -⟩ := canonicalJsonBytes_ok hb
    obtain rfl := canonicalJsonBytes_inj hv hw hu hu' h hb
    exact same_of_normalize hu hu'
  · rw [← canonicalJsonBytes_same hv hw hsame, h]
  · exact same_of_normalize hu (normalize_normal hu)

/-- An object of two fields, in either order. -/
theorem canonicalJsonBytes_determines_pair :
    (∀ w, Dicts w → (canonicalJsonBytes w = .ok (Utf8.encode "\x7b\"a\":1,\"b\":[true]\x7d".toList) ↔
        Same (.obj [("b", .arr [.bool true]), ("a", .int 1)]) w)) ∧
      ∃ w, loads (Utf8.encode "\x7b\"a\":1,\"b\":[true]\x7d".toList) = some w ∧
        Same (.obj [("b", .arr [.bool true]), ("a", .int 1)]) w :=
  canonicalJsonBytes_determines ⟨by decide, ⟨trivial, trivial⟩, trivial, trivial⟩ rfl

end AimData
