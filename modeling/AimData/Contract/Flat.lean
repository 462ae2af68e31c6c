/-
  Flat values, and the fields of a contract that take what they dump as it is.

  A flat value has no parts; every check of a contract lets it pass, it is its
  own normal form, and its text is short.  The identifiers, timestamps and codes
  of a contract dump flat values and settle on them (`Settles`).
-/
import AimData.Canonical.Again
import AimData.Canonical.NormalForm
import AimData.Contract.Disclosure

namespace AimData.Contract

open Numeral

/-! ## Flat values -/

def Flat : Json → Prop
  | .null => True
  | .bool _ => True
  | .int i => 0 ≤ i ∧ i ≤ safeInteger
  | .str s => s.length ≤ 255
  | .arr l => l = []
  | _ => False

section
variable {v : Json}

theorem Flat.normalize (h : Flat v) : normalize v = .ok v := by
  cases v with
  | int i =>
    rw [AimData.normalize, if_neg]
    obtain ⟨h0, hi⟩ := h
    omega
  | arr l =>
    cases h
    rfl
  | float _ => exact h.elim
  | obj _ => exact h.elim
  | _ => rfl

theorem Flat.dicts (h : Flat v) : Dicts v := by
  cases v with
  | arr l =>
    cases h
    trivial
  | obj _ => exact h.elim
  | _ => trivial

theorem Flat.safeMetadata (h : Flat v) : safeMetadata v = true := by
  cases v with
  | int i =>
    obtain ⟨h0, hi⟩ := h
    rw [Contract.safeMetadata, decide_eq_true_eq]
    omega
  | arr l =>
    cases h
    rfl
  | obj _ => exact h.elim
  | _ => rfl

theorem Flat.metadataOnly (h : Flat v) {depth : ℕ} (hdepth : depth ≤ maxMetadataDepth) :
    metadataOnly v depth = true := by
  cases v with
  | str s =>
    rw [Contract.metadataOnly, decide_eq_true hdepth, Bool.true_and, decide_eq_true_eq]
    exact le_trans h (by decide)
  | arr l =>
    cases h
    rw [Contract.metadataOnly, decide_eq_true hdepth]
    rfl
  | float _ => exact h.elim
  | obj _ => exact h.elim
  | _ => exact decide_eq_true hdepth

/-- The text of a flat value is short. -/
theorem Flat.size (h : Flat v) : (Utf8.encode v.dumps).length ≤ 1532 := by
  cases v with
  | null => decide
  | bool b => cases b <;> decide
  | int i =>
    obtain ⟨n, rfl⟩ := Int.eq_ofNat_of_zero_le h.1
    have hn : n < 10 ^ 16 := by
      have := h.2
      unfold safeInteger at this
      omega
    have := Json.length_encode_nat (by norm_num) hn
    omega
  | str s =>
    have := Json.length_encode_dumpsStr s
    have hs : s.toList.length ≤ 255 := by
      rw [String.length_toList]
      exact h
    rw [Json.dumps]
    omega
  | arr l =>
    cases h
    decide
  | float _ => exact h.elim
  | obj _ => exact h.elim

end

/-! ## Dicts of flat values -/

theorem metadataOnlyFields_iff {depth : ℕ} : ∀ {l : List (String × Json)},
    metadataOnlyFields l depth = true ↔
      ∀ p ∈ l, contentKey p.1 = false ∧ metadataOnly p.2 depth = true
  | [] => by simp [metadataOnlyFields]
  | (k, v) :: l => by
    rw [metadataOnlyFields, Bool.and_eq_true, Bool.and_eq_true, metadataOnlyFields_iff,
      List.forall_mem_cons, Bool.not_eq_true']

theorem safeMetadataFields_iff : ∀ {l : List (String × Json)},
    safeMetadataFields l = true ↔ ∀ p ∈ l, safeMetadata p.2 = true
  | [] => by simp [safeMetadataFields]
  | (k, v) :: l => by
    rw [safeMetadataFields, Bool.and_eq_true, safeMetadataFields_iff, List.forall_mem_cons]

/-- Keys whose order is the same by code points and by UTF-16 units. -/
def PlainKeys (keys : List String) : Prop := ∀ k ∈ keys, utf16Units k = codePoints k

instance (keys : List String) : Decidable (PlainKeys keys) :=
  inferInstanceAs (Decidable (∀ k ∈ keys, _))

theorem sortKeys16_eq {α : Type} : ∀ {l : List (String × α)}, PlainKeys (l.map Prod.fst) →
    sortKeys16 l = sortKeys l
  | [], _ => rfl
  | f :: l, h => by
    have hl : PlainKeys (l.map Prod.fst) := fun k hk => h k (List.mem_cons_of_mem _ hk)
    have hinsert : ∀ {m : List (String × α)}, (∀ p ∈ m, utf16Units p.1 = codePoints p.1) →
        m.orderedInsert (fun a b => utf16Units a.1 ≤ utf16Units b.1) f =
          m.orderedInsert (fun a b => codePoints a.1 ≤ codePoints b.1) f := by
      intro m hm
      induction m with
      | nil => rfl
      | cons p m ih =>
        rw [List.orderedInsert, List.orderedInsert, h f.1 List.mem_cons_self,
          hm p List.mem_cons_self, ih fun q hq => hm q (List.mem_cons_of_mem _ hq)]
    show (sortKeys16 l).orderedInsert _ f = (sortKeys l).orderedInsert _ f
    rw [sortKeys16_eq hl]
    refine hinsert fun p hp => hl p.1 (List.mem_map_of_mem ?_)
    exact (List.perm_insertionSort _ l).subset hp

section
variable {d : List (String × Json)}

theorem normalizeFields_normal : ∀ {l : List (String × Json)},
    (∀ p ∈ l, normalize p.2 = .ok p.2) → normalizeFields l = l.map fun p => (p.1, .ok p.2)
  | [], _ => rfl
  | (k, v) :: l, h => by
    rw [normalizeFields, h (k, v) List.mem_cons_self,
      normalizeFields_normal fun p hp => h p (List.mem_cons_of_mem _ hp)]
    rfl

/-- **The normal form of a dict of normal values** is the dict with sorted keys. -/
theorem normalize_normalValues (hkeys : PlainKeys (d.map Prod.fst))
    (hd : ∀ p ∈ d, normalize p.2 = .ok p.2) : normalize (.obj d) = .ok (.obj (sortKeys d)) := by
  have h16 := sortKeys16_map (fun v => (.ok v : Except CommitmentValidationError Json)) d
  have hsort := sortKeys_map (fun v => (.ok v : Except CommitmentValidationError Json)) d
  have hseq := sequenceFields_map (fun v : Json => v) (sortKeys d)
  rw [normalize, normalizeFields_normal hd, h16, hsort, sortKeys16_eq hkeys, if_neg (not_not.2 rfl),
    hseq, List.map_id']
  rfl

theorem dicts_flat (hkeys : (d.map Prod.fst).Nodup) (hd : ∀ p ∈ d, Flat p.2) : Dicts (.obj d) :=
  ⟨hkeys, dictsFields_iff.2 fun p hp => (hd p hp).dicts⟩

/-- The text of a dict of flat values under short keys. -/
theorem size_flat (hkeys : ∀ p ∈ d, p.1.toList.length ≤ 40) (hd : ∀ p ∈ d, Flat p.2) :
    (Utf8.encode (Json.obj d).dumps).length ≤ d.length * 1776 + 2 := by
  refine le_trans (Json.length_encode_obj d) (Nat.add_le_add_right ?_ 2)
  have hle : ∀ x ∈ d.map fun p => 6 * p.1.toList.length + (Utf8.encode p.2.dumps).length + 4,
      x ≤ 1776 := by
    intro x hx
    obtain ⟨p, hp, rfl⟩ := List.mem_map.1 hx
    have h1 := hkeys p hp
    have h2 := (hd p hp).size
    omega
  have := List.sum_le_card_nsmul _ 1776 hle
  rwa [List.length_map, smul_eq_mul] at this

end

/-! ## Identifiers -/

theorem removeText_of_notMem {c : Char} {pattern : List Char} : ∀ {cs : List Char}, c ∉ cs →
    removeText (c :: pattern) 0 cs = cs
  | [], _ => rfl
  | d :: cs, h => by
    rw [List.mem_cons, not_or] at h
    have hne : (c :: pattern).isPrefixOf (d :: cs) = false := by
      rw [List.isPrefixOf, beq_eq_false_iff_ne.2 h.1, Bool.false_and]
    rw [removeText, hne, if_neg Bool.false_ne_true, removeText_of_notMem h.2]

theorem strip_of_forall {kind : Char → Bool} {cs : List Char} (h : ∀ c ∈ cs, kind c = false) :
    strip kind cs = cs := by
  have hdrop : ∀ {ds : List Char}, (∀ c ∈ ds, kind c = false) → ds.dropWhile kind = ds := by
    intro ds hds
    cases ds with
    | nil => rfl
    | cons c ds => rw [List.dropWhile_cons_of_neg (by rw [hds c List.mem_cons_self]; decide)]
  rw [strip, hdrop h, hdrop fun c hc => h c (List.mem_reverse.1 hc), List.reverse_reverse]

theorem lowerHex_digitChar {n : ℕ} (h : n < 16) : lowerHex (Nat.digitChar n) = true := by
  have key : ∀ n : Fin 16, lowerHex (Nat.digitChar n) = true := by decide
  exact key ⟨n, h⟩

theorem digit16_digitChar {n : ℕ} (h : n < 16) : digit16 (Nat.digitChar n) = some n := by
  have key : ∀ n : Fin 16, digit16 (Nat.digitChar n) = some n.1 := by decide
  exact key ⟨n, h⟩

theorem length_hexDigits : ∀ w n : ℕ, (hexDigits w n).length = w
  | 0, _ => rfl
  | w + 1, n => by rw [hexDigits, List.length_append, length_hexDigits w, List.length_singleton]

theorem lowerHex_hexDigits : ∀ {w n : ℕ}, ∀ c ∈ hexDigits w n, lowerHex c = true
  | w + 1, n, c, hc => by
    rw [hexDigits, List.mem_append, List.mem_singleton] at hc
    rcases hc with hc | rfl
    · exact lowerHex_hexDigits c hc
    · exact lowerHex_digitChar (Nat.mod_lt _ (by norm_num))

/-- The characters that a lower-case hexadecimal digit is not. -/
theorem lowerHex_ne {c d : Char} (hc : lowerHex c = true) (hd : lowerHex d = false) : c ≠ d := by
  rintro rfl
  rw [hc] at hd
  cases hd

theorem digits16_cons {c : Char} {cs : List Char} {d n : ℕ} (hc : digit16 c = some d)
    (hcs : cs ≠ []) (hunder : '_' ∉ cs) : digits16 (c :: cs) n = digits16 cs (n * 16 + d) := by
  cases cs with
  | nil => exact absurd rfl hcs
  | cons e cs =>
    rw [digits16.eq_4, hc]
    · rfl
    · exact fun h => by cases h
    · intro ds hds
      exact hunder (hds ▸ List.mem_cons_self)

theorem digits16_append {c : Char} {d : ℕ} (hc : digit16 c = some d) : ∀ {cs : List Char} {n m : ℕ},
    '_' ∉ cs → c ≠ '_' → digits16 cs n = some m → digits16 (cs ++ [c]) n = some (m * 16 + d)
  | [], n, m, _, _, h => by cases h
  | [e], n, m, hu, hne, h => by
    obtain ⟨x, hx, rfl⟩ := Option.map_eq_some_iff.1 h
    rw [List.singleton_append, digits16_cons hx (by simp) (by simpa using Ne.symm hne), digits16, hc]
    rfl
  | e :: f :: cs, n, m, hu, hne, h => by
    rw [List.mem_cons, not_or] at hu
    cases he : digit16 e with
    | none =>
      rw [digits16.eq_4, he] at h
      · cases h
      · exact fun h => by cases h
      · intro ds hds
        exact hu.2 (hds ▸ List.mem_cons_self)
    | some x =>
      rw [digits16_cons he (by simp) hu.2] at h
      rw [List.cons_append, digits16_cons he (by simp) ?_]
      · exact digits16_append hc hu.2 hne h
      · rw [List.mem_append, List.mem_singleton, not_or]
        exact ⟨hu.2, Ne.symm hne⟩

/-- The hexadecimal digits of a number read as it. -/
theorem digits16_hexDigits : ∀ {w n : ℕ}, n < 16 ^ (w + 1) →
    digits16 (hexDigits (w + 1) n) 0 = some n
  | 0, n, h => by
    rw [pow_one] at h
    show digits16 [Nat.digitChar (n % 16)] 0 = some n
    rw [digits16, digit16_digitChar (Nat.mod_lt _ (by norm_num)), Nat.mod_eq_of_lt h]
    simp
  | w + 1, n, h => by
    have hdiv : n / 16 < 16 ^ (w + 1) := by
      rw [pow_succ] at h
      omega
    have hmod : n % 16 < 16 := Nat.mod_lt _ (by norm_num)
    have hunder : ∀ c : Char, lowerHex c = true → c ≠ '_' := fun c hc => lowerHex_ne hc (by decide)
    rw [hexDigits, digits16_append (digit16_digitChar hmod) ?_ ?_ (digits16_hexDigits hdiv)]
    · rw [Nat.div_add_mod']
    · exact fun hmem => hunder _ (lowerHex_hexDigits _ hmem) rfl
    · exact hunder _ (lowerHex_digitChar hmod)

theorem lowerHex_bounds {c : Char} (h : lowerHex c = true) :
    48 ≤ c.toNat ∧ c.toNat ≤ 57 ∨ 97 ≤ c.toNat ∧ c.toNat ≤ 102 := by
  have hle : ∀ a b : Char, a ≤ b → a.toNat ≤ b.toNat := fun _ _ h =>
    UInt32.le_iff_toNat_le.1 (Char.le_def.1 h)
  rw [lowerHex, decide_eq_true_eq] at h
  exact h.imp (fun h => ⟨hle '0' c h.1, hle c '9' h.2⟩) fun h => ⟨hle 'a' c h.1, hle c 'f' h.2⟩

theorem int16_of_lowerHex {cs : List Char} (h : ∀ c ∈ cs, lowerHex c = true) :
    int16 cs = digits16 cs 0 := by
  have hspace : ∀ c ∈ cs, whitespace c = false := by
    intro c hc
    have hc := lowerHex_bounds (h c hc)
    rw [whitespace, decide_eq_false_iff_not]
    omega
  have hne : ∀ c ∈ cs, c ≠ '+' ∧ c ≠ 'x' ∧ c ≠ 'X' := fun c hc =>
    ⟨lowerHex_ne (h c hc) (by decide), lowerHex_ne (h c hc) (by decide),
      lowerHex_ne (h c hc) (by decide)⟩
  rw [int16, strip_of_forall hspace]
  cases cs with
  | nil => rfl
  | cons c cs =>
    cases cs with
    | nil =>
      have := (hne c (by simp)).1
      split <;> simp_all
    | cons d cs =>
      have h1 := (hne c (by simp)).1
      have h2 := (hne d (by simp)).2
      split <;> simp_all

/-- **A canonical identifier reads as its number.** -/
theorem uuid_uuidText {n : ℕ} (h : n < 16 ^ 32) : uuid (uuidText n) = some n := by
  generalize hcs : hexDigits 32 n = cs
  have hhex : ∀ c ∈ cs, lowerHex c = true := hcs ▸ lowerHex_hexDigits
  have htext : (uuidText n).toList = cs.take 8 ++ '-' :: (cs.drop 8).take 4 ++
      '-' :: (cs.drop 12).take 4 ++ '-' :: (cs.drop 16).take 4 ++ '-' :: cs.drop 20 := by
    rw [uuidText, String.toList_ofList, hcs]
  have hmem : ∀ c ∈ (uuidText n).toList, c = '-' ∨ lowerHex c = true := by
    intro c hc
    have hpart : ∀ {i j : ℕ}, c ∈ (cs.drop i).take j → lowerHex c = true :=
      fun h => hhex c (List.mem_of_mem_drop (List.mem_of_mem_take h))
    rw [htext] at hc
    simp only [List.mem_append, List.mem_cons] at hc
    rcases hc with (((hc | hc | hc) | hc | hc) | hc | hc) | hc | hc
    · exact Or.inr (hhex c (List.mem_of_mem_take hc))
    · exact Or.inl hc
    · exact Or.inr (hpart hc)
    · exact Or.inl hc
    · exact Or.inr (hpart hc)
    · exact Or.inl hc
    · exact Or.inr (hpart hc)
    · exact Or.inl hc
    · exact Or.inr (hhex c (List.mem_of_mem_drop hc))
  have hnot : ∀ d : Char, d ≠ '-' → lowerHex d = false → d ∉ (uuidText n).toList := by
    intro d hd hl hc
    rcases hmem d hc with rfl | hc
    · exact hd rfl
    · exact lowerHex_ne hc hl rfl
  have hfilter : (uuidText n).toList.filter (· ≠ '-') = cs := by
    have hkeep : ∀ {ds : List Char}, (∀ c ∈ ds, lowerHex c = true) → ds.filter (· ≠ '-') = ds :=
      fun hds => List.filter_eq_self.2 fun c hc => decide_eq_true (lowerHex_ne (hds c hc) (by decide))
    have hpart : ∀ i j : ℕ, ((cs.drop i).take j).filter (· ≠ '-') = (cs.drop i).take j :=
      fun i j => hkeep fun c hc => hhex c (List.mem_of_mem_drop (List.mem_of_mem_take hc))
    have hdash : ∀ ds : List Char, ('-' :: ds).filter (· ≠ '-') = ds.filter (· ≠ '-') :=
      fun ds => List.filter_cons_of_neg (by simp)
    have hnext : ∀ i : ℕ, (cs.drop i).take 4 ++ cs.drop (i + 4) = cs.drop i := by
      intro i
      rw [← List.drop_drop]
      exact List.take_append_drop 4 (cs.drop i)
    rw [htext, List.filter_append, List.filter_append, List.filter_append, List.filter_append, hdash,
      hdash, hdash, hdash, hpart, hpart, hpart, hkeep fun c hc => hhex c (List.mem_of_mem_take hc),
      hkeep fun c hc => hhex c (List.mem_of_mem_drop hc)]
    rw [List.append_assoc, hnext 16, List.append_assoc, hnext 12, List.append_assoc, hnext 8,
      List.take_append_drop]
  have hbrace : ∀ c ∈ (uuidText n).toList, (decide (c = '{') || decide (c = '}')) = false := by
    intro c hc
    rw [Bool.or_eq_false_iff, decide_eq_false_iff_not, decide_eq_false_iff_not]
    constructor
    · rintro rfl
      exact hnot '{' (by decide) (by decide) hc
    · rintro rfl
      exact hnot '}' (by decide) (by decide) hc
  have hlength : cs.length = 32 := hcs ▸ length_hexDigits 32 n
  have hread : int16 cs = some n := by
    rw [int16_of_lowerHex hhex, ← hcs]
    exact digits16_hexDigits h
  have hurn : removeText "urn:".toList 0 (uuidText n).toList = (uuidText n).toList :=
    removeText_of_notMem (hnot 'u' (by decide) (by decide))
  have huuid : removeText "uuid:".toList 0 (uuidText n).toList = (uuidText n).toList :=
    removeText_of_notMem (hnot 'u' (by decide) (by decide))
  rw [uuid, hurn, huuid, strip_of_forall hbrace, hfilter, if_pos hlength, hread]

theorem digit16_lt {c : Char} {d : ℕ} (h : digit16 c = some d) : d < 16 := by
  rw [digit16] at h
  split at h
  · rename_i e he
    cases h
    exact lt_trans (digit_lt he) (by norm_num)
  · have hle : ∀ a b : Char, a ≤ b → a.toNat ≤ b.toNat := fun _ _ h =>
      UInt32.le_iff_toNat_le.1 (Char.le_def.1 h)
    split_ifs at h with h1 h2
    · cases h
      have := hle c 'f' h1.2
      rw [show 'f'.toNat = 102 from rfl] at this
      omega
    · cases h
      have := hle c 'F' h2.2
      rw [show 'F'.toNat = 70 from rfl] at this
      omega

theorem digits16_lt {cs : List Char} {n m : ℕ} (h : digits16 cs n = some m) :
    m < (n + 1) * 16 ^ cs.length := by
  have hstep : ∀ {n d k l : ℕ}, d < 16 → k < l → m < (n * 16 + d + 1) * 16 ^ k →
      m < (n + 1) * 16 ^ l := by
    intro n d k l hd hk hm
    calc m < (n * 16 + d + 1) * 16 ^ k := hm
      _ ≤ (n + 1) * 16 * 16 ^ k := Nat.mul_le_mul_right _ (by omega)
      _ = (n + 1) * 16 ^ (k + 1) := by rw [pow_succ]; ring
      _ ≤ (n + 1) * 16 ^ l := Nat.mul_le_mul_left _ (Nat.pow_le_pow_right (by norm_num) hk)
  induction cs, n using digits16.induct with
  | case1 n => cases h
  | case2 n c =>
    obtain ⟨d, hd, rfl⟩ := Option.map_eq_some_iff.1 h
    have := digit16_lt hd
    rw [List.length_singleton, pow_one]
    omega
  | case3 c cs n ih =>
    obtain ⟨d, hd, h⟩ := Option.bind_eq_some_iff.1 h
    exact hstep (digit16_lt hd) (by simp) (ih d h)
  | case4 c cs n h1 h2 ih =>
    rw [digits16.eq_4 _ _ _ h1 h2] at h
    obtain ⟨d, hd, h⟩ := Option.bind_eq_some_iff.1 h
    exact hstep (digit16_lt hd) (by simp) (ih d h)

theorem length_strip_le (kind : Char → Bool) (cs : List Char) : (strip kind cs).length ≤ cs.length := by
  rw [strip, List.length_reverse]
  refine le_trans (List.length_dropWhile_le _ _) ?_
  rw [List.length_reverse]
  exact List.length_dropWhile_le _ _

theorem int16_lt {cs : List Char} {n : ℕ} (h : int16 cs = some n) : n < 16 ^ cs.length := by
  have hread : ∀ {ds : List Char}, digits16 ds 0 = some n → ds.length ≤ cs.length →
      n < 16 ^ cs.length := by
    intro ds hds hle
    have := digits16_lt hds
    rw [zero_add, one_mul] at this
    exact lt_of_lt_of_le this (Nat.pow_le_pow_right (by norm_num) hle)
  have hstrip := length_strip_le whitespace cs
  rw [int16] at h
  split at h <;> refine hread h (le_trans ?_ hstrip)
  case h_5 =>
    split
    · next ds hds =>
      rw [hds]
      exact Nat.le_succ _
    · exact le_rfl
  all_goals
    rename_i heq
    split at heq
    · next ds hds =>
      rw [hds, heq]
      simp only [List.length_cons]
      omega
    · rw [heq]
      simp only [List.length_cons]
      omega

theorem uuid_lt {s : String} {n : ℕ} (h : uuid s = some n) : n < 16 ^ 32 := by
  rw [uuid] at h
  split_ifs at h with hlength
  exact hlength ▸ int16_lt h

/-! ## Timestamps -/

theorem microseconds_lt {cs : List Char} {n : ℕ} (h : microseconds cs = some n) : n < 10 ^ 6 := by
  unfold microseconds at h
  split at h
  · cases h
    norm_num
  · split_ifs at h with hds
    cases h
    rename_i ds
    calc value ds * 10 ^ (6 - ds.length) < 10 ^ ds.length * 10 ^ (6 - ds.length) :=
          Nat.mul_lt_mul_of_pos_right (value_lt ds) (by positivity)
      _ = 10 ^ 6 := by rw [← pow_add, Nat.add_sub_cancel' hds.2.1]
  · cases h

theorem microseconds_pad {n : ℕ} (h : n < 10 ^ 6) : microseconds ('.' :: pad 6 n) = some n := by
  have hall : (pad 6 n).all Char.isDigit = true := List.all_eq_true.2 isDigit_pad
  have hlength : (pad 6 n).length = 6 := length_pad 6 n
  rw [microseconds, if_pos ⟨by omega, by omega, hall⟩, value_pad h, hlength, Nat.sub_self, pow_zero,
    mul_one]

/-- **A canonical timestamp is canonical.** -/
theorem canonicalRfc3339Utc_settles {s t : String} (h : canonicalRfc3339Utc s = some t) :
    canonicalRfc3339Utc t = some t ∧ t.length ≤ 255 := by
  obtain ⟨d, clock, micros, hd, hclock, hmicros, rfl⟩ : ∃ (d : Calendar.Day) (clock micros : ℕ),
      d.Valid ∧ clock < 86400 ∧ micros < 10 ^ 6 ∧
        t = String.ofList (isoDate d ++ 'T' :: isoClock clock ++ '.' :: pad 6 micros ++ ['Z']) := by
    unfold canonicalRfc3339Utc at h
    dsimp only at h
    split at h
    · obtain ⟨d, -, h⟩ := Option.bind_eq_some_iff.1 h
      obtain ⟨clock, hclock, h⟩ := Option.bind_eq_some_iff.1 h
      obtain ⟨micros, hmicros, h⟩ := Option.bind_eq_some_iff.1 h
      cases h
      exact ⟨d.1, clock, micros, d.2, clockFromIsoformat_lt hclock, microseconds_lt hmicros, rfl⟩
    · cases h
  generalize hbody : isoDate d ++ 'T' :: isoClock clock ++ '.' :: pad 6 micros = body
  have hrest : body = isoDate d ++ ('T' :: (isoClock clock ++ '.' :: pad 6 micros)) := by
    rw [← hbody, List.append_assoc]
    rfl
  constructor
  · have hdate : body.take 10 = isoDate d := by rw [hrest, List.take_left' (isoDate_length d)]
    have hdrop : body.drop 10 = 'T' :: (isoClock clock ++ '.' :: pad 6 micros) := by
      rw [hrest, List.drop_left' (isoDate_length d)]
    unfold canonicalRfc3339Utc
    rw [String.toList_ofList, List.dropLast_concat, List.getLast?_concat]
    simp only [hdrop, hdate, dateFromIsoformat_isoDate hd, List.take_left' (isoClock_length clock),
      List.drop_left' (isoClock_length clock), clockFromIsoformat_isoClock hclock,
      microseconds_pad hmicros, Option.bind_eq_bind, Option.bind_some]
    exact congrArg (fun b => some (String.ofList (b ++ ['Z']))) hbody
  · have hlength : (body ++ ['Z']).length = 27 := by
      rw [hrest]
      simp [isoDate_length, isoClock_length]
    rw [← String.length_toList, String.toList_ofList, hlength]
    norm_num

/-! ## Fields that settle -/

/-- What the field dumps is flat, and is dumped as it is. -/
def Settles (f : Validator) : Prop := ∀ ⦃v w⦄, f v = some w → f w = some w ∧ Flat w

theorem settles_text {f : String → Option String}
    (hf : ∀ {s t}, f s = some t → f t = some t ∧ t.length ≤ 255) : Settles (text f) := by
  intro v w h
  cases v with
  | str s =>
    obtain ⟨t, ht, rfl⟩ := Option.map_eq_some_iff.1 h
    obtain ⟨hagain, hlength⟩ := hf ht
    exact ⟨by rw [text, hagain]; rfl, hlength⟩
  | _ => cases h

theorem settles_textWhere {p : String → Bool} (hp : ∀ {s}, p s = true → s.length ≤ 255) :
    Settles (textWhere p) := by
  refine settles_text fun {s t} h => ?_
  split_ifs at h with hs
  cases h
  exact ⟨if_pos hs, hp hs⟩

theorem settles_uuid : Settles uuidField := by
  refine settles_text fun {s t} h => ?_
  obtain ⟨n, hn, rfl⟩ := Option.map_eq_some_iff.1 h
  refine ⟨by rw [uuid_uuidText (uuid_lt hn)]; rfl, ?_⟩
  have hlength := length_hexDigits 32 n
  rw [← String.length_toList, uuidText, String.toList_ofList]
  simp [hlength]

theorem settles_timestamp : Settles timestampField := settles_text canonicalRfc3339Utc_settles

theorem settles_pattern (min : ℕ) {max : ℕ} (hmax : max ≤ 255) (chars : Char → Bool) :
    Settles (patternField min max chars) :=
  settles_textWhere fun h => le_trans (of_decide_eq_true h).2.1 hmax

theorem settles_signerReference : Settles signerReferenceField :=
  settles_textWhere fun h => by rw [(of_decide_eq_true h).1]; norm_num

theorem settles_literal {values : List String} (h : ∀ s ∈ values, s.length ≤ 255) :
    Settles (literalField values) := settles_textWhere fun hs => h _ (of_decide_eq_true hs)

theorem settles_int {min max : ℤ} (hmin : 0 ≤ min) (hmax : max ≤ safeInteger) :
    Settles (intField min max) := by
  intro v w h
  obtain ⟨rfl, i, rfl⟩ := intField_some h
  refine ⟨h, ?_⟩
  rw [intField] at h
  split_ifs at h with hi
  exact ⟨le_trans hmin hi.1, le_trans hi.2 hmax⟩

theorem settles_optional {f : Validator} (hf : Settles f) : Settles (optional f) := by
  intro v w h
  cases v with
  | null =>
    cases h
    exact ⟨rfl, trivial⟩
  | _ =>
    obtain ⟨hagain, hflat⟩ := hf h
    refine ⟨?_, hflat⟩
    cases w with
    | null => rfl
    | _ => exact hagain

end AimData.Contract
