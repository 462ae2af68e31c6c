/-
  Values and their normal forms: a normal form is its own, it has the fields of
  the value in another order, and it is what the canonical text is read as.
-/
import AimData.Lib.JsonBytes
import AimData.Merkle.CanonicalJson

namespace AimData

/-! ## Lists of fields -/

section
variable {α : Type}

instance : Std.Total fun a b : String × α => codePoints a.1 ≤ codePoints b.1 :=
  ⟨fun _ _ => le_total _ _⟩

instance : IsTrans (String × α) fun a b => codePoints a.1 ≤ codePoints b.1 :=
  ⟨fun _ _ _ => le_trans⟩

instance : Std.Total fun a b : String × α => utf16Units a.1 ≤ utf16Units b.1 :=
  ⟨fun _ _ => le_total _ _⟩

instance : IsTrans (String × α) fun a b => utf16Units a.1 ≤ utf16Units b.1 :=
  ⟨fun _ _ _ => le_trans⟩

theorem sortKeys_perm (l : List (String × α)) : (sortKeys l).Perm l := List.perm_insertionSort _ l

theorem sortKeys16_perm (l : List (String × α)) : (sortKeys16 l).Perm l := List.perm_insertionSort _ l

/-- A key of a dict is found with its value. -/
theorem lookup_iff_mem {key : String} {v : α} : ∀ {l : List (String × α)},
    (l.map Prod.fst).Nodup → (l.lookup key = some v ↔ (key, v) ∈ l)
  | [], _ => by simp
  | (k, x) :: l, hnd => by
    rw [List.map_cons, List.nodup_cons] at hnd
    have ih : l.lookup key = some v ↔ (key, v) ∈ l := lookup_iff_mem hnd.2
    by_cases hk : key = k
    · subst hk
      have hnot : (key, v) ∉ l := fun h => hnd.1 (List.mem_map.2 ⟨_, h, rfl⟩)
      simp [hnot, eq_comm]
    · rw [List.lookup_cons, beq_eq_false_iff_ne.2 hk]
      simp [ih, hk]

end

theorem normalizeFields_eq : ∀ l : List (String × Json),
    normalizeFields l = l.map fun f => (f.1, normalize f.2)
  | [] => rfl
  | (k, v) :: l => by rw [normalizeFields, List.map_cons, normalizeFields_eq l]

/-! ## Normal forms of containers -/

theorem normalize_arr_ok {l : List Json} {w : Json} (h : normalize (.arr l) = .ok w) :
    ∃ l', w = .arr l' ∧ normalizeList l = .ok l' := by
  obtain ⟨l', hl, h⟩ := Except.bind_eq_ok.1 h
  cases h
  exact ⟨l', rfl, hl⟩

theorem normalize_obj_ok {l : List (String × Json)} {w : Json} (h : normalize (.obj l) = .ok w) :
    ∃ l', w = .obj l' ∧ sortKeys (normalizeFields l) = l'.map (fun f => (f.1, .ok f.2)) ∧
      l'.map Prod.fst = (sortKeys16 (normalizeFields l)).map Prod.fst := by
  rw [normalize] at h
  split_ifs at h with hk
  · cases h
  · obtain ⟨l', hl, h⟩ := Except.bind_eq_ok.1 h
    cases h
    have hl := sequenceFields_ok hl
    refine ⟨l', rfl, hl, ?_⟩
    rw [not_not] at hk
    rw [← hk, hl, List.map_map]
    rfl

/-- The fields of a normal form are the normal forms of the fields. -/
theorem normalize_obj_perm {l l' : List (String × Json)} (h : normalize (.obj l) = .ok (.obj l')) :
    (l'.map fun f => (f.1, (.ok f.2 : Except CommitmentValidationError Json))).Perm
      (l.map fun f => (f.1, normalize f.2)) := by
  obtain ⟨m, hm, hl, -⟩ := normalize_obj_ok h
  cases hm
  rw [← hl, ← normalizeFields_eq]
  exact List.perm_insertionSort _ _

theorem normalize_obj_keys {l l' : List (String × Json)} (h : normalize (.obj l) = .ok (.obj l')) :
    (l'.map Prod.fst).Perm (l.map Prod.fst) := by
  have hp := (normalize_obj_perm h).map Prod.fst
  rw [List.map_map, List.map_map] at hp
  exact hp

/-- **A field of a normal form** is there iff it is in the value, and is its
    normal form. -/
theorem lookup_normalize {l l' : List (String × Json)} (h : normalize (.obj l) = .ok (.obj l'))
    (hnd : (l.map Prod.fst).Nodup) (key : String) :
    (l.lookup key = none ∧ l'.lookup key = none) ∨
      ∃ v v', l.lookup key = some v ∧ l'.lookup key = some v' ∧ normalize v = .ok v' := by
  have hp := normalize_obj_perm h
  have hkeys := normalize_obj_keys h
  cases hl : l.lookup key with
  | none =>
    have hl' : l'.lookup key = none := by
      rw [List.lookup_eq_none_iff] at hl ⊢
      intro f hf
      obtain ⟨g, hg, he⟩ := List.mem_map.1 (hkeys.subset (List.mem_map_of_mem hf))
      rw [← he]
      exact hl g hg
    exact Or.inl ⟨rfl, hl'⟩
  | some v =>
    have hm := (lookup_iff_mem hnd).1 hl
    obtain ⟨⟨k, v'⟩, hf, he⟩ := List.mem_map.1 (hp.symm.subset (List.mem_map_of_mem hm))
    obtain ⟨rfl, hv⟩ := Prod.mk.inj he
    exact Or.inr ⟨v, v', rfl, (lookup_iff_mem (hkeys.nodup_iff.2 hnd)).2 hf, hv.symm⟩

mutual
/-- **A normal form is its own.** -/
theorem normalize_normal : ∀ {v w : Json}, normalize v = .ok w → normalize w = .ok w
  | .null, w, h => by cases h; rfl
  | .bool _, w, h => by cases h; rfl
  | .int i, w, h => by
    have hi := h
    rw [normalize] at h
    split_ifs at h
    · cases h
    · cases h; exact hi
  | .float _, w, h => by cases h
  | .str _, w, h => by cases h; rfl
  | .arr l, w, h => by
    obtain ⟨l', rfl, hl⟩ := normalize_arr_ok h
    rw [normalize, normalizeList_normal hl]
    rfl
  | .obj l, w, h => by
    obtain ⟨l', rfl, hl, hkeys⟩ := normalize_obj_ok h
    have hperm := normalize_obj_perm h
    have hfields : normalizeFields l' = l'.map fun f => (f.1, .ok f.2) := by
      rw [normalizeFields_eq]
      refine List.map_congr_left fun f hf => ?_
      have hm : (f.1, (.ok f.2 : Except CommitmentValidationError Json)) ∈ normalizeFields l := by
        rw [normalizeFields_eq]
        exact hperm.subset (List.mem_map.2 ⟨f, hf, rfl⟩)
      rw [normalizeFields_normal hm]
    have hsorted : sortKeys (normalizeFields l') = normalizeFields l' := by
      rw [hfields, ← hl]
      exact (List.pairwise_insertionSort _ _).insertionSort_eq
    have hsorted16 : sortKeys16 (normalizeFields l') = normalizeFields l' := by
      refine List.Pairwise.insertionSort_eq ?_
      have hp : ((sortKeys16 (normalizeFields l)).map Prod.fst).Pairwise
          fun a b => utf16Units a ≤ utf16Units b :=
        List.pairwise_map.2 (List.pairwise_insertionSort _ _)
      rw [← hkeys, List.pairwise_map] at hp
      rw [hfields, List.pairwise_map]
      exact hp
    have hseq : sequenceFields (normalizeFields l') = .ok l' := by
      rw [hfields]
      have := sequenceFields_map id l'
      simpa using this
    rw [normalize, if_neg (by rw [hsorted, hsorted16]; simp), hsorted, hseq]
    rfl

theorem normalizeList_normal : ∀ {l l' : List Json}, normalizeList l = .ok l' →
    normalizeList l' = .ok l'
  | [], l', h => by cases h; rfl
  | v :: l, l', h => by
    obtain ⟨v', hv, h⟩ := Except.bind_eq_ok.1 h
    obtain ⟨l'', hl, h⟩ := Except.bind_eq_ok.1 h
    cases h
    rw [normalizeList, normalize_normal hv, normalizeList_normal hl]
    rfl

theorem normalizeFields_normal : ∀ {l : List (String × Json)} {k : String} {w : Json},
    (k, Except.ok w) ∈ normalizeFields l → normalize w = .ok w
  | (k', v') :: l, k, w, h => by
    rcases List.mem_cons.1 h with h | h
    · exact normalize_normal (Prod.mk.inj h).2.symm
    · exact normalizeFields_normal h
end

/-- The fields of a normal form, pointwise. -/
theorem normalize_obj_fields {l l' : List (String × Json)} (h : normalize (.obj l) = .ok (.obj l')) :
    List.Forall₂ (fun f g => f.1 = g.1 ∧ normalize f.2 = .ok g.2) (sortKeys l) l' := by
  obtain ⟨m, hm, hl, -⟩ := normalize_obj_ok h
  cases hm
  rw [normalizeFields_eq, sortKeys_map normalize, ← List.forall₂_eq_eq_eq,
    List.forall₂_map_left_iff, List.forall₂_map_right_iff] at hl
  exact hl.imp fun f g h => Prod.mk.inj h

/-! ### Induction -/

section
variable {P : Json → Json → Prop}

mutual
/-- **Induction over a value and its normal form.** -/
theorem normalize_induction
    (scalar : ∀ v, (∀ l, v ≠ .arr l) → (∀ l, v ≠ .obj l) → P v v)
    (arr : ∀ l l', List.Forall₂ P l l' → P (.arr l) (.arr l'))
    (obj : ∀ l l', (l.map Prod.fst).Nodup →
      List.Forall₂ (fun f g => f.1 = g.1 ∧ P f.2 g.2) (sortKeys l) l' → P (.obj l) (.obj l')) :
    ∀ {v w : Json}, Dicts v → normalize v = .ok w → P v w
  | .null, w, _, h => by
    cases h
    exact scalar _ (by simp) (by simp)
  | .bool _, w, _, h => by
    cases h
    exact scalar _ (by simp) (by simp)
  | .int i, w, _, h => by
    rw [normalize] at h
    split_ifs at h
    · cases h
    · cases h
      exact scalar _ (by simp) (by simp)
  | .float _, w, _, h => by cases h
  | .str _, w, _, h => by
    cases h
    exact scalar _ (by simp) (by simp)
  | .arr l, w, hd, h => by
    obtain ⟨l', rfl, hl⟩ := normalize_arr_ok h
    exact arr l l' (normalizeList_induction scalar arr obj hd hl)
  | .obj l, w, hd, h => by
    obtain ⟨l', rfl, -, -⟩ := normalize_obj_ok h
    refine obj l l' hd.1 ?_
    have hfields := List.forall₂_iff_get.1 (normalize_obj_fields h)
    refine List.forall₂_iff_get.2 ⟨hfields.1, fun i hi hi' => ?_⟩
    obtain ⟨hk, hv⟩ := hfields.2 i hi hi'
    have hmem : (sortKeys l).get ⟨i, hi⟩ ∈ l :=
      (List.perm_insertionSort _ l).subset (List.get_mem _ _)
    exact ⟨hk, normalizeFields_induction scalar arr obj hd.2 _ hmem hv⟩

theorem normalizeList_induction
    (scalar : ∀ v, (∀ l, v ≠ .arr l) → (∀ l, v ≠ .obj l) → P v v)
    (arr : ∀ l l', List.Forall₂ P l l' → P (.arr l) (.arr l'))
    (obj : ∀ l l', (l.map Prod.fst).Nodup →
      List.Forall₂ (fun f g => f.1 = g.1 ∧ P f.2 g.2) (sortKeys l) l' → P (.obj l) (.obj l')) :
    ∀ {l l' : List Json}, DictsList l → normalizeList l = .ok l' → List.Forall₂ P l l'
  | [], l', _, h => by
    cases h
    exact .nil
  | v :: l, l', hd, h => by
    obtain ⟨v', hv, h⟩ := Except.bind_eq_ok.1 h
    obtain ⟨l'', hl, h⟩ := Except.bind_eq_ok.1 h
    cases h
    exact .cons (normalize_induction scalar arr obj hd.1 hv)
      (normalizeList_induction scalar arr obj hd.2 hl)

theorem normalizeFields_induction
    (scalar : ∀ v, (∀ l, v ≠ .arr l) → (∀ l, v ≠ .obj l) → P v v)
    (arr : ∀ l l', List.Forall₂ P l l' → P (.arr l) (.arr l'))
    (obj : ∀ l l', (l.map Prod.fst).Nodup →
      List.Forall₂ (fun f g => f.1 = g.1 ∧ P f.2 g.2) (sortKeys l) l' → P (.obj l) (.obj l')) :
    ∀ {l : List (String × Json)}, DictsFields l → ∀ f ∈ l, ∀ {w : Json},
      normalize f.2 = .ok w → P f.2 w
  | (k, v) :: l, hd, f, hf, w, h => by
    rcases List.mem_cons.1 hf with rfl | hf
    · exact normalize_induction scalar arr obj hd.1 h
    · exact normalizeFields_induction scalar arr obj hd.2 f hf h
end

end

/-! ## Canonical texts -/

theorem canonicalJsonBytes_ok {v : Json} {b : Bytes} (h : canonicalJsonBytes v = .ok b) :
    ∃ w, normalize v = .ok w ∧ b = Utf8.encode w.dumps := by
  obtain ⟨w, hw, h⟩ := Except.bind_eq_ok.1 h
  cases h
  exact ⟨w, hw, rfl⟩

/-- A value and its normal form have one canonical text. -/
theorem canonicalJsonBytes_normal {v w : Json} (h : normalize v = .ok w) :
    canonicalJsonBytes w = canonicalJsonBytes v := by
  rw [canonicalJsonBytes, canonicalJsonBytes, h, normalize_normal h]

/-- **The canonical bytes of a container load back** to its normal form. -/
theorem loadBytes_canonicalJsonBytes {hook : List (String × Json) → Option (List (String × Json))}
    (hhook : Json.KeepsDistinct hook) {v w : Json} {b : Bytes} (hd : Dicts v)
    (hc : (∃ l, v = .arr l) ∨ ∃ l, v = .obj l) (hw : normalize v = .ok w)
    (h : canonicalJsonBytes v = .ok b) : Json.loadBytes hook b = some w := by
  obtain ⟨w', hw', rfl⟩ := canonicalJsonBytes_ok h
  obtain rfl := Except.ok.inj (hw.symm.trans hw')
  refine Json.loadBytes_dumps hhook (proper_normalize hd hw) ?_
  rcases hc with ⟨l, rfl⟩ | ⟨l, rfl⟩
  · obtain ⟨l', rfl, -⟩ := normalize_arr_ok hw
    exact Or.inl ⟨l', rfl⟩
  · obtain ⟨l', rfl, -⟩ := normalize_obj_ok hw
    exact Or.inr ⟨l', rfl⟩

theorem keepsDistinct_dict : Json.KeepsDistinct Json.dict := fun l hl => by
  rw [Json.dict, Json.dictOf_of_nodup hl]

end AimData
