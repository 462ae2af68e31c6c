/-
  Which committed rows can be disclosed.

  A committed row is an array of triples; an entry carries it as an object, and
  an envelope has a canonical text only if the names of every object stand in
  one order by code points and by UTF-16 units.  So `prepare` refuses, of the
  selections within the caps, those with another row (`prepare_capsOnly_iff`).
-/
import AimData.Preview.LeafEntry

namespace AimData

open Contract
open Merkle (Side)
open Program

/-! ## Numbers of a value -/

mutual
/-- No float stands in the value, and its integers satisfy `P`. -/
def Integers (P : ℤ → Prop) : Json → Prop
  | .int i => P i
  | .float _ => False
  | .arr l => IntegersList P l
  | .obj l => IntegersFields P l
  | _ => True

def IntegersList (P : ℤ → Prop) : List Json → Prop
  | [] => True
  | v :: l => Integers P v ∧ IntegersList P l

def IntegersFields (P : ℤ → Prop) : List (String × Json) → Prop
  | [] => True
  | (_, v) :: l => Integers P v ∧ IntegersFields P l
end

section
variable {P Q : ℤ → Prop}

theorem integersList_iff {l : List Json} : IntegersList P l ↔ ∀ v ∈ l, Integers P v := by
  induction l with
  | nil => simp [IntegersList]
  | cons v l ih => rw [IntegersList, ih, List.forall_mem_cons]

theorem integersFields_iff {l : List (String × Json)} :
    IntegersFields P l ↔ ∀ f ∈ l, Integers P f.2 := by
  induction l with
  | nil => simp [IntegersFields]
  | cons f l ih => rw [IntegersFields, ih, List.forall_mem_cons]

mutual
theorem Integers.mono (h : ∀ i, P i → Q i) : ∀ {v : Json}, Integers P v → Integers Q v
  | .int i, hv => h i hv
  | .float _, hv => hv
  | .arr _, hv => IntegersList.mono h hv
  | .obj _, hv => IntegersFields.mono h hv
  | .null, _ => trivial
  | .bool _, _ => trivial
  | .str _, _ => trivial

theorem IntegersList.mono (h : ∀ i, P i → Q i) : ∀ {l : List Json}, IntegersList P l →
    IntegersList Q l
  | [], _ => trivial
  | _ :: _, ⟨hv, hl⟩ => ⟨Integers.mono h hv, IntegersList.mono h hl⟩

theorem IntegersFields.mono (h : ∀ i, P i → Q i) : ∀ {l : List (String × Json)},
    IntegersFields P l → IntegersFields Q l
  | [], _ => trivial
  | _ :: _, ⟨hv, hl⟩ => ⟨Integers.mono h hv, IntegersFields.mono h hl⟩
end

mutual
/-- A plain value has no numbers. -/
theorem Plain.integers : ∀ {v : Json}, Plain v → Integers P v
  | .null, _ => trivial
  | .bool _, _ => trivial
  | .str _, _ => trivial
  | .arr _, h => PlainList.integers h

theorem PlainList.integers : ∀ {l : List Json}, PlainList l → IntegersList P l
  | [], _ => trivial
  | _ :: _, ⟨hv, hl⟩ => ⟨Plain.integers hv, PlainList.integers hl⟩
end

theorem items_integers {v : Json} {l : List Json} (h : items v = .ok l) (hv : Integers P v) :
    IntegersList P l := by
  cases v with
  | arr l' =>
    cases h
    exact hv
  | obj fs =>
    cases h
    exact integersList_iff.2 fun w hw => by
      obtain ⟨f, -, rfl⟩ := List.mem_map.1 hw
      trivial
  | str s =>
    cases h
    exact integersList_iff.2 fun w hw => by
      obtain ⟨c, -, rfl⟩ := List.mem_map.1 hw
      trivial
  | _ => cases h

theorem logicalBranch_ok {tag value w : Json} {object array : Json → Except Raised Json}
    (h : logicalBranch tag value object array = .ok w) :
    w = value ∨ object value = .ok w ∨ array value = .ok w := by
  rw [logicalBranch] at h
  split_ifs at h with hbinary hnull hobject harray
  · cases h
  · cases h
    exact Or.inl hnull.symm
  · exact Or.inr (Or.inl h)
  · exact Or.inr (Or.inr h)
  · cases h
    exact Or.inl rfl

theorem scalar_integers {tag v w : Json} (hv : Integers P v)
    (h : logicalBranch tag v (noParameter "object_fields") (noParameter "element_type") = .ok w) :
    Integers P w := by
  rcases logicalBranch_ok h with rfl | h | h
  · exact hv
  · cases h
  · cases h

theorem setField_integers {k : String} {v : Json} {l : List (String × Json)}
    (hv : Integers P v) (hl : IntegersFields P l) : IntegersFields P (Json.setField k v l) := by
  induction l with
  | nil => exact ⟨hv, trivial⟩
  | cons f l ih =>
    rw [Json.setField]
    split_ifs
    · exact ⟨hv, hl.2⟩
    · exact ⟨hl.1, ih hl.2⟩

theorem dictOf_integers {l : List (String × Json)} (h : IntegersFields P l) :
    IntegersFields P (Json.dictOf l) := by
  have hfold : ∀ (l d : List (String × Json)), IntegersFields P l → IntegersFields P d →
      IntegersFields P (l.foldl (fun d f => Json.setField f.1 f.2 d) d) := by
    intro l
    induction l with
    | nil => exact fun d _ hd => hd
    | cons f l ih => exact fun d hl hd => ih _ hl.2 (setField_integers hl.1 hd)
  exact hfold l [] h trivial

theorem mapM_integers {f : Json → Except Raised Json} {l ws : List Json}
    (hf : ∀ {v w}, Integers P v → f v = .ok w → Integers P w) (h : l.mapM f = .ok ws)
    (hl : IntegersList P l) : IntegersList P ws := by
  induction l generalizing ws with
  | nil =>
    cases h
    trivial
  | cons v l ih =>
    obtain ⟨w, ws', hw, hws, rfl⟩ := List.mapM_cons_ok.1 h
    exact ⟨hf hl.1 hw, ih hws hl.2⟩

mutual
/-- A logical value has no other numbers than the value it is read from. -/
theorem logicalValue_integers : ∀ {type : LogicalType} {tag v w : Json}, Integers P v →
    logicalValue type tag v = .ok w → Integers P w
  | .object fields, tag, v, w, hv, h => by
    rw [logicalValue] at h
    rcases logicalBranch_ok h with rfl | h | h
    · exact hv
    · obtain ⟨triples, htriples, h⟩ := Except.bind_eq_ok.1 h
      obtain ⟨l, hl, h⟩ := Except.bind_eq_ok.1 h
      cases h
      exact dictOf_integers (logicalFields_integers (items_integers htriples hv) hl)
    · cases h
  | .array element, tag, v, w, hv, h => by
    rw [logicalValue] at h
    rcases logicalBranch_ok h with rfl | h | h
    · exact hv
    · cases h
    · obtain ⟨l, hl, h⟩ := Except.bind_eq_ok.1 h
      obtain ⟨ws, hws, h⟩ := Except.bind_eq_ok.1 h
      cases h
      have helement : ∀ {v w : Json}, Integers P v →
          logicalValue element (.str element.tag) v = .ok w → Integers P w :=
        fun hv hw => logicalValue_integers hv hw
      exact mapM_integers helement hws (items_integers hl hv)
  | .string, tag, v, w, hv, h => scalar_integers hv h
  | .boolean, tag, v, w, hv, h => scalar_integers hv h
  | .signedInteger, tag, v, w, hv, h => scalar_integers hv h
  | .decimal _, tag, v, w, hv, h => scalar_integers hv h
  | .date, tag, v, w, hv, h => scalar_integers hv h
  | .timestamp _, tag, v, w, hv, h => scalar_integers hv h
  | .binary, tag, v, w, hv, h => scalar_integers hv h

theorem logicalFields_integers : ∀ {fields : Fields} {l : List Json} {w : List (String × Json)},
    IntegersList P l → logicalFields fields l = .ok w → IntegersFields P w
  | .nil, [], w, _, h => by
    cases h
    trivial
  | .nil, _ :: _, w, _, h => by cases h
  | .cons _ _ _ _, [], w, _, h => by cases h
  | .cons name type nullable rest, triple :: l, w, hl, h => by
    rw [logicalFields] at h
    obtain ⟨parts, hparts, h⟩ := Except.bind_eq_ok.1 h
    have htriple := items_integers hparts hl.1
    split at h
    · rename_i found tag v
      split_ifs at h with hname hmissing
      · cases h
      · exact logicalFields_integers hl.2 h
      · obtain ⟨x, hx, h⟩ := Except.bind_eq_ok.1 h
        obtain ⟨l', hl', h⟩ := Except.bind_eq_ok.1 h
        cases h
        exact ⟨logicalValue_integers htriple.2.2.1 hx, logicalFields_integers hl.2 hl'⟩
    · cases h
end

end

/-! ## The order of names -/

/-- The names stand in one order by code points and by UTF-16 units. -/
def SortsAlike {α : Type} (l : List (String × α)) : Prop :=
  (sortKeys l).map Prod.fst = (sortKeys16 l).map Prod.fst

theorem sortsAlike_map {α β : Type} (f : α → β) (l : List (String × α)) :
    SortsAlike (l.map fun p => (p.1, f p.2)) ↔ SortsAlike l := by
  rw [SortsAlike, SortsAlike, sortKeys_map, sortKeys16_map, List.map_map, List.map_map]
  rfl

instance {α : Type} (l : List (String × α)) : Decidable (SortsAlike l) :=
  inferInstanceAs (Decidable ((sortKeys l).map Prod.fst = (sortKeys16 l).map Prod.fst))

/-- Only the names matter. -/
theorem sortsAlike_of_keys {α : Type} {l : List (String × α)} (keys : List String)
    (hl : l.map Prod.fst = keys) (h : SortsAlike (keys.map fun k => (k, ()))) : SortsAlike l := by
  rw [← sortsAlike_map (fun _ => ())]
  rwa [← hl, List.map_map] at h

mutual
/-- So do the names of every object in the value. -/
def KeyOrdered : Json → Prop
  | .arr l => KeyOrderedList l
  | .obj l => SortsAlike l ∧ KeyOrderedFields l
  | _ => True

def KeyOrderedList : List Json → Prop
  | [] => True
  | v :: l => KeyOrdered v ∧ KeyOrderedList l

def KeyOrderedFields : List (String × Json) → Prop
  | [] => True
  | (_, v) :: l => KeyOrdered v ∧ KeyOrderedFields l
end

theorem keyOrderedList_iff {l : List Json} : KeyOrderedList l ↔ ∀ v ∈ l, KeyOrdered v := by
  induction l with
  | nil => simp [KeyOrderedList]
  | cons v l ih => rw [KeyOrderedList, ih, List.forall_mem_cons]

/-- An integer of the safe range. -/
def SafeInteger (i : ℤ) : Prop := (i.natAbs : ℤ) ≤ safeInteger

theorem sequenceFields_exists {α : Type} {l : List (String × Except CommitmentValidationError α)} :
    (∃ r, sequenceFields l = .ok r) ↔ ∀ f ∈ l, ∃ v, f.2 = .ok v := by
  induction l with
  | nil => simp [sequenceFields]
  | cons f l ih =>
    obtain ⟨k, v⟩ := f
    rw [List.forall_mem_cons, ← ih]
    constructor
    · rintro ⟨r, hr⟩
      obtain ⟨w, hw, hr⟩ := Except.bind_eq_ok.1 hr
      obtain ⟨r', hr', -⟩ := Except.bind_eq_ok.1 hr
      exact ⟨⟨w, hw⟩, r', hr'⟩
    · rintro ⟨⟨w, rfl⟩, r', hr'⟩
      refine ⟨(k, w) :: r', ?_⟩
      rw [sequenceFields, Except.ok_bind, hr']
      rfl

mutual
/-- **A value with safe integers has a normal form** exactly if the names of its
    objects sort alike. -/
theorem normalize_exists_iff : ∀ {v : Json}, Integers SafeInteger v →
    ((∃ w, normalize v = .ok w) ↔ KeyOrdered v)
  | .null, _ => by simp [normalize, KeyOrdered]
  | .bool _, _ => by simp [normalize, KeyOrdered]
  | .str _, _ => by simp [normalize, KeyOrdered]
  | .int i, h => by
    rw [normalize, if_neg (not_lt.2 h)]
    simp [KeyOrdered]
  | .float _, h => h.elim
  | .arr l, h => by
    rw [normalize, KeyOrdered, ← normalizeList_exists_iff (l := l) h]
    constructor
    · rintro ⟨w, hw⟩
      obtain ⟨l', hl', -⟩ := Except.bind_eq_ok.1 hw
      exact ⟨l', hl'⟩
    · rintro ⟨l', hl'⟩
      exact ⟨.arr l', by rw [hl']; rfl⟩
  | .obj l, h => by
    have hsort : SortsAlike (normalizeFields l) ↔ SortsAlike l := by
      rw [normalizeFields_eq]
      exact sortsAlike_map normalize l
    rw [normalize, KeyOrdered, ← normalizeFields_exists_iff (l := l) h, ← hsort]
    by_cases hkeys : SortsAlike (normalizeFields l)
    · have hkeys' := hkeys
      rw [SortsAlike] at hkeys'
      rw [if_neg (not_not.2 hkeys')]
      have hseq := sequenceFields_exists (l := sortKeys (normalizeFields l))
      simp only [(sortKeys_perm _).mem_iff] at hseq
      rw [← hseq]
      constructor
      · rintro ⟨w, hw⟩
        obtain ⟨r, hr, -⟩ := Except.bind_eq_ok.1 hw
        exact ⟨hkeys, r, hr⟩
      · rintro ⟨-, r, hr⟩
        exact ⟨.obj r, by rw [hr]; rfl⟩
    · have hkeys' := hkeys
      rw [SortsAlike] at hkeys'
      rw [if_pos hkeys']
      simp [refuse, hkeys]

theorem normalizeList_exists_iff : ∀ {l : List Json}, IntegersList SafeInteger l →
    ((∃ l', normalizeList l = .ok l') ↔ KeyOrderedList l)
  | [], _ => by simp [normalizeList, KeyOrderedList]
  | v :: l, ⟨hv, hl⟩ => by
    rw [normalizeList, KeyOrderedList, ← normalize_exists_iff hv, ← normalizeList_exists_iff hl]
    constructor
    · rintro ⟨l', h⟩
      obtain ⟨w, hw, h⟩ := Except.bind_eq_ok.1 h
      obtain ⟨l'', hl'', -⟩ := Except.bind_eq_ok.1 h
      exact ⟨⟨w, hw⟩, l'', hl''⟩
    · rintro ⟨⟨w, hw⟩, l'', hl''⟩
      exact ⟨w :: l'', by rw [hw, hl'']; rfl⟩

theorem normalizeFields_exists_iff : ∀ {l : List (String × Json)}, IntegersFields SafeInteger l →
    ((∀ f ∈ normalizeFields l, ∃ w, f.2 = .ok w) ↔ KeyOrderedFields l)
  | [], _ => by simp [normalizeFields, KeyOrderedFields]
  | (k, v) :: l, ⟨hv, hl⟩ => by
    rw [normalizeFields, KeyOrderedFields, List.forall_mem_cons, ← normalize_exists_iff hv,
      ← normalizeFields_exists_iff hl]
end

/-- So has it a canonical text. -/
theorem canonicalJsonBytes_exists_iff {v : Json} (h : Integers SafeInteger v) :
    (∃ b, canonicalJsonBytes v = .ok b) ↔ KeyOrdered v := by
  rw [← normalize_exists_iff h]
  constructor
  · rintro ⟨b, hb⟩
    obtain ⟨w, hw, -⟩ := Except.bind_eq_ok.1 hb
    exact ⟨w, hw⟩
  · rintro ⟨w, hw⟩
    exact ⟨Utf8.encode w.dumps, by rw [canonicalJsonBytes, hw]; rfl⟩

/-! ## Cap limits -/

/-- The codes of the cap limits. -/
def capCodes : List String := caps.map fun p => p.1 ++ "_limit"

/-- Every package error of the check is a cap limit. -/
def CapsOnly {α : Type} (r : Except Raised α) : Prop :=
  ∀ code, r = refuseEnvelope code → code ∈ capCodes

/-- Every error of the check is a cap limit. -/
def Capped {α : Type} (r : Except Raised α) : Prop :=
  ∀ e, r = .error e → ∃ code ∈ capCodes, e = ⟨"PackageError", code⟩

section
variable {α β : Type}

theorem Capped.capsOnly {r : Except Raised α} (h : Capped r) : CapsOnly r := by
  intro code hr
  obtain ⟨code', hcode, he⟩ := h _ hr
  cases he
  exact hcode

theorem capsOnly_ok (a : α) : CapsOnly (.ok a) := fun _ h => by cases h

theorem capped_ok (a : α) : Capped (.ok a) := fun _ h => by cases h

theorem CapsOnly.bind {r : Except Raised α} {f : α → Except Raised β} (hr : CapsOnly r)
    (hf : ∀ a, r = .ok a → CapsOnly (f a)) : CapsOnly (r >>= f) := by
  cases r with
  | ok a => exact hf a rfl
  | error e =>
    intro code h
    exact hr code (by cases h; rfl)

theorem Capped.bind {r : Except Raised α} {f : α → Except Raised β} (hr : Capped r)
    (hf : ∀ a, r = .ok a → Capped (f a)) : Capped (r >>= f) := by
  cases r with
  | ok a => exact hf a rfl
  | error e =>
    intro e' h
    cases h
    exact hr e rfl

/-- An error of another kind is no package error. -/
theorem capsOnly_raise {type message : String} (h : type ≠ "PackageError") :
    CapsOnly (raise type message : Except Raised α) := by
  intro code hr
  cases hr
  exact absurd rfl h

theorem capsOnly_commitmentErrors (r : Except CommitmentValidationError α) :
    CapsOnly (commitmentErrors r) := by
  cases r with
  | ok a => exact capsOnly_ok a
  | error e => exact capsOnly_raise (by decide)

theorem capped_refuse {code : String} (h : code ∈ capCodes) :
    Capped (refuseEnvelope code : Except Raised α) := by
  intro e he
  cases he
  exact ⟨code, h, rfl⟩

theorem capped_limit {kind : String} (h : kind ∈ caps.map Prod.fst) (amount : ℤ) :
    Capped (limit kind amount) := by
  rw [limit]
  split_ifs
  · refine capped_refuse ?_
    obtain ⟨p, hp, rfl⟩ := List.mem_map.1 h
    exact List.mem_map_of_mem hp
  · exact capped_ok ()

theorem capsOnly_mapM {f : α → Except Raised β} {l : List α} (h : ∀ a ∈ l, CapsOnly (f a)) :
    CapsOnly (l.mapM f) := by
  induction l with
  | nil => exact capsOnly_ok []
  | cons a l ih =>
    rw [List.mapM_cons]
    exact (h a List.mem_cons_self).bind fun _ _ =>
      (ih fun b hb => h b (List.mem_cons_of_mem _ hb)).bind fun _ _ => capsOnly_ok _

theorem capsOnly_foldlM {f : β → α → Except Raised β} (h : ∀ b a, CapsOnly (f b a))
    (l : List α) (b : β) : CapsOnly (l.foldlM f b) := by
  induction l generalizing b with
  | nil => exact capsOnly_ok b
  | cons a l ih =>
    rw [List.foldlM_cons]
    exact (h b a).bind fun b _ => ih b

end

/-- **Without a float the budget fails at a cap.** -/
theorem capped_valueBudgetFrom {P : ℤ → Prop} : ∀ {left : ℕ} {stack : List (Json × ℕ)},
    (∀ p ∈ stack, Integers P p.1) → Capped (valueBudgetFrom left stack)
  | left, [], _ => by
    rw [valueBudgetFrom]
    exact capped_ok _
  | 0, _ :: _, _ => capped_refuse (by decide)
  | left + 1, (v, depth) :: stack, h => by
    rw [List.forall_mem_cons] at h
    obtain ⟨hv, hstack⟩ := h
    rw [valueBudgetFrom_succ]
    refine (capped_limit (by decide) _).bind fun _ _ => ?_
    cases v with
    | arr l =>
      refine capped_valueBudgetFrom (P := P) fun p hp => ?_
      rcases List.mem_append.1 hp with hp | hp
      · obtain ⟨w, hw, rfl⟩ := List.mem_map.1 (List.mem_reverse.1 hp)
        exact integersList_iff.1 hv w hw
      · exact hstack p hp
    | obj l =>
      refine capped_valueBudgetFrom (P := P) fun p hp => ?_
      rcases List.mem_append.1 hp with hp | hp
      · obtain ⟨f, hf, rfl⟩ := List.mem_map.1 (List.mem_reverse.1 hp)
        exact integersFields_iff.1 hv f hf
      · exact hstack p hp
    | float t => exact hv.elim
    | _ => exact capped_valueBudgetFrom hstack

/-! ## The envelope of committed leaves -/

/-- The entries of selected leaves. -/
def chosenEntries (ls : List Digest) (cs : List Chosen) : List Json :=
  cs.map fun c => .obj (c.entry ls)

/-- The envelope of selected leaves, with the digest of its sample. -/
def chosenEnvelope (schema : CanonicalSchema) (ls : List Digest) (cs : List Chosen)
    (commitmentId disclosureVersion digest : String) : Json :=
  .obj [("package_profile", .str packageProfile), ("commitment_id", .str commitmentId),
    ("schema_digest", .str (encodeBase64url schema.digest.1)),
    ("disclosure_version", .str disclosureVersion), ("sample_hash", .str digest),
    ("entries", .arr (chosenEntries ls cs))]

section
variable {nfc : String → String} {schema : CanonicalSchema} {ls : List Digest} {cs : List Chosen}
  {commitmentId disclosureVersion digest : String}

theorem entry_eq_fields (c : Chosen) : c.entry ls = ("proof_id", .str c.proofId) ::
    ("row", c.row) :: c.proofFields ls := Chosen.entry_eq

/-- The nodes of an entry: seven of its own, those of the row, three for a sibling. -/
theorem nodeCount_entry (c : Chosen) : nodeCount (.obj (c.entry ls)) =
    7 + nodeCount c.row + 3 * (Merkle.path nodeHash ls c.index).length := by
  have hsteps : ∀ p : List (Side × Digest), nodeCountList (p.map stepJson) = 3 * p.length := by
    intro p
    induction p with
    | nil => rfl
    | cons s p ih =>
      rw [List.map_cons, nodeCountList, ih, List.length_cons]
      simp only [stepJson, nodeCount, nodeCountFields]
      omega
  rw [entry_eq_fields]
  simp only [Chosen.proofFields, nodeCount, nodeCountFields, hsteps]
  omega

theorem nodeCount_envelope : nodeCount
    (chosenEnvelope schema ls cs commitmentId disclosureVersion digest) = 7 + (cs.map fun c =>
      7 + nodeCount c.row + 3 * (Merkle.path nodeHash ls c.index).length).sum := by
  have hentries : nodeCountList (chosenEntries ls cs) = (cs.map fun c =>
      7 + nodeCount c.row + 3 * (Merkle.path nodeHash ls c.index).length).sum := by
    rw [chosenEntries, nodeCountList_eq, List.map_map]
    exact congrArg List.sum (List.map_congr_left fun c _ => nodeCount_entry c)
  simp only [chosenEnvelope, nodeCount, nodeCountFields, hentries]
  omega

/-- Only a row makes an entry deep. -/
theorem shallow_entry (c : Chosen) : Shallow 2 (.obj (c.entry ls)) ↔ Shallow 3 c.row := by
  have hsteps : ∀ p : List (Side × Digest), ShallowList 4 (p.map stepJson) := by
    intro p
    rw [shallowList_iff]
    intro v hv
    obtain ⟨s, -, rfl⟩ := List.mem_map.1 hv
    simp [stepJson, Shallow, ShallowFields]
  rw [entry_eq_fields]
  simp [Chosen.proofFields, Shallow, ShallowFields, hsteps]

theorem shallow_envelope :
    Shallow 0 (chosenEnvelope schema ls cs commitmentId disclosureVersion digest) ↔
      ∀ c ∈ cs, Shallow 3 c.row := by
  have hentries : ShallowList 2 (chosenEntries ls cs) ↔ ∀ c ∈ cs, Shallow 3 c.row := by
    rw [shallowList_iff, chosenEntries, List.forall_mem_map]
    exact forall₂_congr fun c _ => shallow_entry c
  rw [← hentries]
  simp [chosenEnvelope, Shallow, ShallowFields]

theorem integers_steps {P : ℤ → Prop} (p : List (Side × Digest)) :
    IntegersList P (p.map stepJson) := by
  rw [integersList_iff]
  intro v hv
  obtain ⟨s, -, rfl⟩ := List.mem_map.1 hv
  simp [stepJson, Integers, IntegersFields]

/-- The integers of an envelope are the positions of its leaves. -/
theorem integers_envelope {P : ℤ → Prop} (hrow : ∀ c ∈ cs, Integers P c.row)
    (hordinal : ∀ c ∈ cs, P c.leaf.2) (hindex : ∀ c ∈ cs, P c.index) (hsize : P ls.length) :
    Integers P (chosenEnvelope schema ls cs commitmentId disclosureVersion digest) := by
  have hentries : IntegersList P (chosenEntries ls cs) := by
    rw [integersList_iff, chosenEntries, List.forall_mem_map]
    intro c hc
    rw [entry_eq_fields]
    exact ⟨trivial, hrow c hc, trivial, hordinal c hc, hindex c hc, hsize, integers_steps _, trivial⟩
  exact ⟨trivial, trivial, trivial, trivial, trivial, hentries, trivial⟩

/-- **The names that the rows have decide the order of names of the envelope.** -/
theorem keyOrdered_envelope :
    KeyOrdered (chosenEnvelope schema ls cs commitmentId disclosureVersion digest) ↔
      ∀ c ∈ cs, KeyOrdered c.row := by
  have hsteps : ∀ p : List (Side × Digest), KeyOrderedList (p.map stepJson) := by
    intro p
    rw [keyOrderedList_iff]
    intro v hv
    obtain ⟨s, -, rfl⟩ := List.mem_map.1 hv
    exact ⟨sortsAlike_of_keys ["hash", "direction"] rfl (by decide), trivial, trivial, trivial⟩
  have hentry : ∀ c : Chosen, KeyOrdered (.obj (c.entry ls)) ↔ KeyOrdered c.row := by
    intro c
    have hsort : SortsAlike (c.entry ls) := sortsAlike_of_keys entryKeys rfl (by decide)
    rw [KeyOrdered, and_iff_right hsort, entry_eq_fields]
    simp [Chosen.proofFields, KeyOrdered, KeyOrderedFields, hsteps]
  have hentries : KeyOrderedList (chosenEntries ls cs) ↔ ∀ c ∈ cs, KeyOrdered c.row := by
    rw [keyOrderedList_iff, chosenEntries, List.forall_mem_map]
    exact forall₂_congr fun c _ => hentry c
  have hsort : SortsAlike
      (asObj (chosenEnvelope schema ls cs commitmentId disclosureVersion digest)) :=
    sortsAlike_of_keys envelopeKeys rfl (by decide)
  rw [← hentries]
  constructor
  · rintro ⟨-, -, -, -, -, -, h, -⟩
    exact h
  · intro h
    exact ⟨hsort, trivial, trivial, trivial, trivial, trivial, h, trivial⟩

/-- The loop has seen the identities, the indices and the size of the leaves. -/
theorem foldl_sees (seen : Seen) : (cs.foldl (Chosen.sees ls) seen).indices =
      seen.indices ++ cs.map (fun c => (c.index : ℤ)) ∧
    (cs.foldl (Chosen.sees ls) seen).sizes =
      List.replicate cs.length (ls.length : ℤ) ++ seen.sizes := by
  induction cs generalizing seen with
  | nil => simp
  | cons c cs ih =>
    obtain ⟨hindices, hsizes⟩ := ih (c.sees ls seen)
    rw [List.foldl_cons, hindices, hsizes]
    simp [Chosen.sees, List.replicate_succ', List.append_assoc]

/-- An increasing list is its own sorted set. -/
theorem increasing_eq_sorted_set {l : List ℤ} (h : l.Pairwise (· < ·)) :
    l = l.dedup.insertionSort (· ≤ ·) := by
  have hnd : l.Nodup := h.imp fun h => h.ne
  rw [hnd.dedup, (h.imp fun h => h.le).insertionSort_eq]

theorem dedup_replicate {α : Type} [DecidableEq α] (a : α) (n : ℕ) :
    (List.replicate (n + 1) a).dedup = [a] := by
  induction n with
  | zero => rfl
  | succ n ih => rw [List.replicate_succ, List.dedup_cons_of_mem (by simp), ih]

/-- The digest of the sample. -/
theorem sampleValueOf_entry {c : Chosen} (h : canonicalUuid c.proofId = true) :
    sampleValueOf (c.entry ls) = .ok (.arr [.str c.proofId, .str (hex c.leaf.1.base.1),
      .int c.leaf.2, .int c.index]) := by
  have hpid : get (c.entry ls) "proof_id" = .str c.proofId := rfl
  have hbase : get (c.entry ls) "base_row_digest" = .str (encodeBase64url c.leaf.1.base.1) := rfl
  have hordinal : get (c.entry ls) "duplicate_ordinal" = .int c.leaf.2 := rfl
  have hindex : get (c.entry ls) "leaf_index" = .int c.index := rfl
  rw [sampleValueOf, hpid, hbase, hordinal, hindex, canonicalUuidOf, if_pos h, Except.ok_bind,
    hashValue, decodeDigest_encode]
  rfl

theorem sampleValues_entries (h : ∀ c ∈ cs, canonicalUuid c.proofId = true) :
    (chosenEntries ls cs).mapM (fun e => sampleValueOf (asObj e)) =
      .ok (cs.map fun c => .arr [.str c.proofId, .str (hex c.leaf.1.base.1),
        .int c.leaf.2, .int c.index]) := by
  rw [chosenEntries]
  induction cs with
  | nil => rfl
  | cons c cs ih =>
    rw [List.map_cons, List.mapM_cons, ih fun c' hc' => h c' (List.mem_cons_of_mem _ hc'), asObj,
      sampleValueOf_entry (h c List.mem_cons_self)]
    rfl

theorem safeMetadataList_mem {l : List Json} {v : Json} (h : safeMetadataList l = true)
    (hv : v ∈ l) : safeMetadata v = true := by
  induction l with
  | nil => cases hv
  | cons w l ih =>
    rw [safeMetadataList, Bool.and_eq_true] at h
    rcases List.mem_cons.1 hv with rfl | hv
    · exact h.1
    · exact ih h.2 hv

/-- **A sample has a digest** exactly if its positions are safe integers. -/
theorem sampleHashOf_exists_iff (h : ∀ c ∈ cs, canonicalUuid c.proofId = true)
    (hordinal : ∀ c ∈ cs, c.leaf.2 ≤ c.index) :
    (∃ digest, sampleHashOf (chosenEntries ls cs) = .ok digest) ↔
      ∀ c ∈ cs, (c.index : ℤ) ≤ safeInteger := by
  have hbytes : (∃ digest, sampleHashOf (chosenEntries ls cs) = .ok digest) ↔
      ∃ b, canonicalJsonBytes (.arr (cs.map fun c => .arr [.str c.proofId,
        .str (hex c.leaf.1.base.1), .int c.leaf.2, .int c.index])) = .ok b := by
    rw [sampleHashOf, sampleValues_entries h, Except.ok_bind]
    constructor
    · rintro ⟨digest, hd⟩
      obtain ⟨b, hb, -⟩ := Except.bind_eq_ok.1 hd
      exact ⟨b, commitmentErrors_ok.1 hb⟩
    · rintro ⟨b, hb⟩
      exact ⟨_, by rw [hb, commitmentErrors, Except.ok_bind]; rfl⟩
  rw [hbytes]
  constructor
  · rintro ⟨b, hb⟩ c hc
    obtain ⟨w, hw, -⟩ := Except.bind_eq_ok.1 hb
    have hsafe := safeMetadataList_mem (safeMetadata_of_normalize hw) (List.mem_map_of_mem hc)
    simp only [safeMetadata, safeMetadataList, Bool.true_and, Bool.and_true, Bool.and_eq_true,
      decide_eq_true_eq, Int.natAbs_natCast] at hsafe
    exact hsafe.2
  · intro hsafe
    refine (canonicalJsonBytes_exists_iff ?_).2 ?_
    · refine integersList_iff.2 fun v hv => ?_
      obtain ⟨c, hc, rfl⟩ := List.mem_map.1 hv
      have := hsafe c hc
      have := hordinal c hc
      refine ⟨trivial, trivial, ?_, ?_, trivial⟩
      · show ((c.leaf.2 : ℤ).natAbs : ℤ) ≤ safeInteger
        omega
      · show ((c.index : ℤ).natAbs : ℤ) ≤ safeInteger
        omega
    · refine keyOrderedList_iff.2 fun v hv => ?_
      obtain ⟨c, hc, rfl⟩ := List.mem_map.1 hv
      exact ⟨trivial, trivial, trivial, trivial, trivial⟩

/-! ## The checks of the envelope -/

/-- What is checked before the entries. -/
theorem envelopeEntries_chosen (hcommitment : canonicalUuid commitmentId = true)
    (hdisclosure : canonicalUuid disclosureVersion = true) (hne : cs ≠ []) (hrows : cs.length ≤ 100)
    (manifestBytes : ℤ) :
    envelopeEntries (chosenEnvelope schema ls cs commitmentId disclosureVersion digest) schema
        manifestBytes = do
      limit "fields" schema.descriptors.names.length
      limit "manifest_bytes" manifestBytes
      let _ ← valueBudget (chosenEnvelope schema ls cs commitmentId disclosureVersion digest)
      return chosenEntries ls cs := by
  obtain ⟨c, cs, rfl⟩ := List.exists_cons_of_ne_nil hne
  have hlimit : limit "rows" ((cs.map fun c => Json.obj (c.entry ls)).length + 1) = .ok () := by
    rw [List.length_map]
    exact Chosen.limit_of_le (by omega) (by exact_mod_cast hrows)
  have hentries : chosenEntries ls (c :: cs) =
      .obj (c.entry ls) :: cs.map fun c => .obj (c.entry ls) := rfl
  rw [chosenEnvelope, envelopeEntries, if_pos ⟨rfl, rfl⟩]
  simp only [Contract.get, List.lookup_cons, String.reduceBEq, Option.getD_some, canonicalUuidOf,
    hcommitment, hdisclosure, if_true, Except.ok_bind, ne_eq, not_true_eq_false, if_false, hentries,
    hlimit]

theorem limit_ok_iff {kind : String} {amount : ℤ} {u : Unit} :
    limit kind amount = .ok u ↔ 0 ≤ amount ∧ amount ≤ (caps.lookup kind).getD 0 := by
  rw [limit]
  split_ifs with h
  · simp only [refuseEnvelope, raise, reduceCtorEq, false_iff]
    omega
  · simp only [true_iff]
    omega

/-- The selection is within the caps that are checked before the entries. -/
structure WithinHead (schema : CanonicalSchema) (ls : List Digest) (cs : List Chosen)
    (manifestBytes : ℤ) : Prop where
  fields : schema.descriptors.names.length ≤ 25
  manifest : 0 ≤ manifestBytes ∧ manifestBytes ≤ 262144
  nodes : 7 + (cs.map fun c =>
    7 + nodeCount c.row + 3 * (Merkle.path nodeHash ls c.index).length).sum ≤ 10000
  depth : ∀ c ∈ cs, Shallow 3 c.row

/-- **The head of the checks fails at a cap**, or is passed within them. -/
theorem envelopeEntries_cases (schema : CanonicalSchema) (ls : List Digest) (digest : String)
    (hcommitment : canonicalUuid commitmentId = true)
    (hdisclosure : canonicalUuid disclosureVersion = true) (hne : cs ≠ []) (hrows : cs.length ≤ 100)
    (hnumbers : ∀ c ∈ cs, Integers (fun _ => True) c.row) (manifestBytes : ℤ) :
    (WithinHead schema ls cs manifestBytes → envelopeEntries (chosenEnvelope schema ls cs
      commitmentId disclosureVersion digest) schema manifestBytes = .ok (chosenEntries ls cs)) ∧
    (¬ WithinHead schema ls cs manifestBytes → ∃ code ∈ capCodes, envelopeEntries (chosenEnvelope
      schema ls cs commitmentId disclosureVersion digest) schema manifestBytes =
        refuseEnvelope code) := by
  have hbudget : (∃ n, valueBudget
      (chosenEnvelope schema ls cs commitmentId disclosureVersion digest) = .ok n) ↔
      (7 + (cs.map fun c =>
        7 + nodeCount c.row + 3 * (Merkle.path nodeHash ls c.index).length).sum ≤ 10000) ∧
        ∀ c ∈ cs, Shallow 3 c.row := by
    rw [valueBudget, valueBudgetFrom_ok_iff]
    simp only [List.map_cons, List.map_nil, List.sum_cons, List.sum_nil, Nat.add_zero,
      nodeCount_envelope, List.forall_mem_singleton, shallow_envelope]
  rw [envelopeEntries_chosen hcommitment hdisclosure hne hrows]
  constructor
  · intro h
    obtain ⟨n, hn⟩ := hbudget.2 ⟨h.nodes, h.depth⟩
    have hfields : limit "fields" schema.descriptors.names.length = .ok () :=
      limit_ok_iff.2 ⟨by omega, by exact_mod_cast h.fields⟩
    have hmanifest : limit "manifest_bytes" manifestBytes = .ok () := limit_ok_iff.2 h.manifest
    rw [hfields, hmanifest, hn]
    rfl
  · intro h
    have hcapped : Capped (do
        limit "fields" schema.descriptors.names.length
        limit "manifest_bytes" manifestBytes
        let _ ← valueBudget (chosenEnvelope schema ls cs commitmentId disclosureVersion digest)
        return chosenEntries ls cs) := by
      refine (capped_limit (by decide) _).bind fun _ _ =>
        (capped_limit (by decide) _).bind fun _ _ => Capped.bind ?_ fun _ _ => capped_ok _
      exact capped_valueBudgetFrom (P := fun _ => True) (List.forall_mem_singleton.2
        (integers_envelope hnumbers (fun _ _ => trivial) (fun _ _ => trivial) trivial))
    cases hr : (do
        limit "fields" schema.descriptors.names.length
        limit "manifest_bytes" manifestBytes
        let _ ← valueBudget (chosenEnvelope schema ls cs commitmentId disclosureVersion digest)
        return chosenEntries ls cs) with
    | ok es =>
      obtain ⟨u, hfields, hr⟩ := Except.bind_eq_ok.1 hr
      obtain ⟨u', hmanifest, hr⟩ := Except.bind_eq_ok.1 hr
      obtain ⟨n, hn, -⟩ := Except.bind_eq_ok.1 hr
      obtain ⟨hnodes, hdepth⟩ := hbudget.1 ⟨n, hn⟩
      exact absurd ⟨by exact_mod_cast (limit_ok_iff.1 hfields).2, limit_ok_iff.1 hmanifest, hnodes,
        hdepth⟩ h
    | error e =>
      obtain ⟨code, hcode, rfl⟩ := hcapped e hr
      exact ⟨code, hcode, rfl⟩

/-- The selected leaves of a committed tree, in the order of their indices. -/
structure Selection (nfc : String → String) (schema : CanonicalSchema) (ls : List Digest)
    (cs : List Chosen) : Prop where
  nonempty : cs ≠ []
  committed : ∀ c ∈ cs, c.Committed nfc schema ls
  increasing : (cs.map Chosen.index).Pairwise (· < ·)
  identities : (cs.map Chosen.proofId).Nodup
  numberless : ∀ c ∈ cs, Integers (fun _ => False) c.row
  size : ls.length ≤ maxTreeSize

/-- The indices and the sizes that the loop has seen are as they must be. -/
theorem Selection.shape (h : Selection nfc schema ls cs) :
    ¬ ((cs.foldl (Chosen.sees ls) {}).sizes.dedup.length ≠ 1 ∨
      (cs.foldl (Chosen.sees ls) {}).indices ≠
        (cs.foldl (Chosen.sees ls) {}).indices.dedup.insertionSort (· ≤ ·)) := by
  obtain ⟨hindices, hsizes⟩ : (cs.foldl (Chosen.sees ls) {}).indices = _ ∧
    (cs.foldl (Chosen.sees ls) {}).sizes = _ := foldl_sees {}
  obtain ⟨c, cs', rfl⟩ := List.exists_cons_of_ne_nil h.nonempty
  rw [hindices, hsizes, not_or, not_not, not_not]
  constructor
  · rw [List.append_nil, List.length_cons, dedup_replicate]
    rfl
  · refine increasing_eq_sorted_set ?_
    have hincreasing := h.increasing
    rw [List.pairwise_map] at hincreasing
    rw [List.nil_append, List.pairwise_map]
    exact hincreasing.imp fun hlt => by exact_mod_cast hlt

/-- **What becomes of the envelope of a selection** within the head's caps. -/
theorem Selection.validateBody (h : Selection nfc schema ls cs)
    (hcommitment : canonicalUuid commitmentId = true)
    (hdisclosure : canonicalUuid disclosureVersion = true) (hrows : cs.length ≤ 100)
    {manifestBytes : ℤ} (hhead : WithinHead schema ls cs manifestBytes)
    (hdigest : sampleHashOf (chosenEntries ls cs) = .ok digest) :
    AimData.validateBody nfc
        (chosenEnvelope schema ls cs commitmentId disclosureVersion digest) schema
        (.ofDigest (Merkle.mth nodeHash ls)) manifestBytes =
      if (ls.length : ℤ) ≤ safeInteger then
        if (cs.map fun c => c.leaf.1.row.length).sum ≤ 250000 then do
          let encoded ← commitmentErrors (canonicalJsonBytes
            (chosenEnvelope schema ls cs commitmentId disclosureVersion digest))
          limit "envelope_bytes" encoded.length
          return encoded
        else refuseEnvelope "canonical_bytes_limit"
      else raise "ValidationError" "CommitmentProof" := by
  have hnumbers : ∀ c ∈ cs, Integers (fun _ => True) c.row :=
    fun c hc => (h.numberless c hc).mono fun _ hf => hf.elim
  have hentries : envelopeEntries (chosenEnvelope schema ls cs commitmentId disclosureVersion
      digest) schema manifestBytes = .ok (chosenEntries ls cs) :=
    (envelopeEntries_cases schema ls digest hcommitment hdisclosure h.nonempty hrows hnumbers manifestBytes).1 hhead
  rw [AimData.validateBody, hentries, Except.ok_bind]
  by_cases hsafe : (ls.length : ℤ) ≤ safeInteger
  · rw [if_pos hsafe, chosenEntries, Chosen.validateEntries_committed h.committed h.size hsafe
      hhead.fields h.identities (fun c _ => List.not_mem_nil)]
    have hsum : ({} : Seen).canonicalBytes + (cs.map fun c => c.leaf.1.row.length).sum =
        (cs.map fun c => c.leaf.1.row.length).sum := Nat.zero_add _
    by_cases hfit : (cs.map fun c => c.leaf.1.row.length).sum ≤ 250000
    · have hsample : Contract.get (asObj (chosenEnvelope schema ls cs commitmentId
          disclosureVersion digest)) "sample_hash" = .str digest := rfl
      rw [if_pos (Or.inl (hsum.le.trans hfit)), if_pos hfit, Except.ok_bind, if_neg h.shape]
      rw [chosenEntries] at hdigest
      rw [hdigest, Except.ok_bind, hsample, if_neg (not_not.2 rfl)]
    · rw [if_neg (by rintro (hle | hnil); exacts [hfit (hsum.ge.trans hle), h.nonempty hnil]), if_neg hfit]
      rfl
  · obtain ⟨c, cs', rfl⟩ := List.exists_cons_of_ne_nil h.nonempty
    rw [if_neg hsafe, chosenEntries, List.map_cons, List.foldlM_cons,
      (h.committed c List.mem_cons_self).validateEntry h.size hhead.fields List.not_mem_nil,
      if_neg hsafe]
    rfl

end

/-! ## Preparing a selection -/

/-- A sample without a digest is no package error. -/
theorem capsOnly_sampleHashOf (ls : List Digest) {cs : List Chosen}
    (h : ∀ c ∈ cs, canonicalUuid c.proofId = true) :
    CapsOnly (sampleHashOf (chosenEntries ls cs)) := by
  rw [sampleHashOf, sampleValues_entries h, Except.ok_bind]
  exact (capsOnly_commitmentErrors _).bind fun _ _ => capsOnly_ok _

/-- A loop whose every step succeeds or fails in one way fails in that way. -/
theorem mapM_error {α β : Type} {f : α → Except Raised β} {l : List α} {P : Raised → Prop}
    (h : ∀ a ∈ l, (∃ b, f a = .ok b) ∨ ∃ e, P e ∧ f a = .error e)
    (hne : ¬ ∀ a ∈ l, ∃ b, f a = .ok b) : ∃ e, P e ∧ l.mapM f = .error e := by
  induction l with
  | nil => exact absurd (by simp) hne
  | cons a l ih =>
    rw [List.forall_mem_cons] at h hne
    rcases h.1 with ⟨b, hb⟩ | ⟨e, he, ha⟩
    · obtain ⟨e, he, hl⟩ := ih h.2 fun hl => hne ⟨⟨b, hb⟩, hl⟩
      exact ⟨e, he, by rw [List.mapM_cons, hb, Except.ok_bind, hl]; rfl⟩
    · exact ⟨e, he, by rw [List.mapM_cons, ha]; rfl⟩

namespace CommitmentPreviewBuilder

section
variable {nfc : String → String} {validateUrl : String → Except Raised Unit}
  {builder : CommitmentPreviewBuilder} {ps : List (Record × ℕ)} {ls : List Digest}
  {cs : List Chosen} {commitmentId disclosureVersion : String}

/-- **An entry is read, or its offset is out of range.** -/
theorem entry_leaf (hrep : builder.tree.Represents builder.files ps ls)
    (hmax : ls.length ≤ maxTreeSize) {c : Chosen} (hleaf : ps[c.index]? = some c.leaf)
    (hreads : ReadsLeaf nfc builder.schema c.leaf.1 c.row) :
    (leafOffset ps c.index < 2 ^ 63 →
      builder.entry nfc c.index = .ok (entryFields c.row (leafProof ls c.leaf c.index))) ∧
    (¬ leafOffset ps c.index < 2 ^ 63 →
      builder.entry nfc c.index = raise "OverflowError" "Python int too large to convert to C long") := by
  obtain ⟨hi, hget⟩ := List.getElem?_eq_some_iff.1 hleaf
  have hbody := entryBody_leaf hrep hmax hi (by rw [hget]; exact hreads)
  rw [hget] at hbody
  constructor
  · intro hlt
    rw [entry, hbody, seekable, if_pos hlt]
    rfl
  · intro hlt
    rw [entry, hbody, seekable, if_neg hlt]
    rfl

theorem selection_chosen (hne : cs ≠ []) (hincreasing : (cs.map Chosen.index).Pairwise (· < ·)) :
    selection (cs.map fun c => .int c.index) (cs.map fun c => .str c.proofId) =
      .ok (cs.map fun c => ((c.index : ℤ), .str c.proofId)) := by
  have hmap : ∀ f : Json → Option ℤ, (∀ i, f (.int i) = some i) →
      (cs.map fun c : Chosen => Json.int c.index).mapM f =
        some (cs.map fun c => (c.index : ℤ)) := by
    clear hne hincreasing
    intro f hf
    induction cs with
    | nil => rfl
    | cons c cs ih =>
      rw [List.map_cons, List.mapM_cons, ih, hf]
      rfl
  have hsorted : (cs.map fun c => (c.index : ℤ)) =
      (cs.map fun c => (c.index : ℤ)).dedup.insertionSort (· ≤ ·) := by
    refine increasing_eq_sorted_set ?_
    rw [List.pairwise_map] at hincreasing ⊢
    exact hincreasing.imp fun hlt => by exact_mod_cast hlt
  rw [selection, hmap _ fun _ => rfl]
  simp only
  rw [if_neg]
  · rw [List.zip_map']
  · rintro (hnil | hsort | hlen)
    · exact hne (List.map_eq_nil_iff.1 hnil)
    · exact hsort hsorted
    · exact hlen (by rw [List.length_map, List.length_map])

/-- The selection can be read, and its positions are safe integers. -/
structure Readable (ps : List (Record × ℕ)) (cs : List Chosen) : Prop where
  rows : cs.length ≤ 100
  offsets : ∀ c ∈ cs, leafOffset ps c.index < 2 ^ 63
  positions : ∀ c ∈ cs, (c.index : ℤ) ≤ safeInteger

/-- **The envelope that is built** of a selection; it is not built of one that
    cannot be read, and then no package error but a cap limit is raised. -/
theorem envelope_cases (h : Selection nfc builder.schema ls cs) (commitmentId : String)
    (disclosureVersion : String)
    (hrep : builder.tree.Represents builder.files ps ls)
    (hleaf : ∀ c ∈ cs, ps[c.index]? = some c.leaf) :
    (Readable ps cs → ∃ digest, sampleHashOf (chosenEntries ls cs) = .ok digest ∧
      builder.envelope nfc (cs.map fun c => .int c.index) (cs.map fun c => .str c.proofId)
        (.str commitmentId) (.str disclosureVersion) =
          .ok (chosenEnvelope builder.schema ls cs commitmentId disclosureVersion digest)) ∧
    (¬ Readable ps cs → ∃ e, (e.type = "PackageError" → e.message ∈ capCodes) ∧
      builder.envelope nfc (cs.map fun c => .int c.index) (cs.map fun c => .str c.proofId)
        (.str commitmentId) (.str disclosureVersion) = .error e) := by
  have hentry := fun c hc => entry_leaf hrep h.size (hleaf c hc) (h.committed c hc).reads
  have hids : ∀ c ∈ cs, canonicalUuid c.proofId = true := fun c hc => (h.committed c hc).identity
  have hordinal : ∀ c ∈ cs, c.leaf.2 ≤ c.index := fun c hc => (h.committed c hc).ordinal
  have hsample : (∃ digest, sampleHashOf (chosenEntries ls cs) = .ok digest) ↔
    ∀ c ∈ cs, (c.index : ℤ) ≤ safeInteger := sampleHashOf_exists_iff hids hordinal
  -- the loop over the selection, and over its leaves
  have hloop : ∀ f : ℤ × Json → Except Raised Json, (∀ c ∈ cs, f (c.index, .str c.proofId) =
      builder.entry nfc c.index >>= fun e => .ok (.obj (("proof_id", .str c.proofId) :: e))) →
      ((∀ c ∈ cs, leafOffset ps c.index < 2 ^ 63) →
        (cs.map fun c => ((c.index : ℤ), Json.str c.proofId)).mapM f = .ok (chosenEntries ls cs)) ∧
      (¬ (∀ c ∈ cs, leafOffset ps c.index < 2 ^ 63) →
        ∃ e, e.type ≠ "PackageError" ∧
          (cs.map fun c => ((c.index : ℤ), Json.str c.proofId)).mapM f = .error e) := by
    intro f hf
    rw [List.mapM_map]
    constructor
    · intro hoffsets
      exact List.mapM_ok_map fun c hc => by
        rw [Function.comp_apply, hf c hc, (hentry c hc).1 (hoffsets c hc)]
        rfl
    · intro hoffsets
      refine mapM_error (P := fun e => e.type ≠ "PackageError") (fun c hc => ?_) fun hall => ?_
      · rw [Function.comp_apply, hf c hc]
        by_cases hlt : leafOffset ps c.index < 2 ^ 63
        · rw [(hentry c hc).1 hlt]
          exact Or.inl ⟨_, rfl⟩
        · rw [(hentry c hc).2 hlt]
          exact Or.inr ⟨⟨"OverflowError", _⟩, by decide, rfl⟩
      · refine hoffsets fun c hc => ?_
        by_contra hlt
        obtain ⟨b, hb⟩ := hall c hc
        rw [Function.comp_apply, hf c hc, (hentry c hc).2 hlt] at hb
        cases hb
  have hlimit : limit "rows" (cs.map fun c => ((c.index : ℤ), Json.str c.proofId)).length =
      limit "rows" cs.length := by rw [List.length_map]
  rw [envelope, selection_chosen h.nonempty h.increasing, Except.ok_bind, hlimit]
  constructor
  · intro hr
    obtain ⟨digest, hdigest⟩ := hsample.2 hr.positions
    refine ⟨digest, hdigest, ?_⟩
    have hrows : limit "rows" cs.length = .ok () :=
      limit_ok_iff.2 ⟨by omega, by exact_mod_cast hr.rows⟩
    rw [hrows, Except.ok_bind, (hloop _ fun _ _ => rfl).1 hr.offsets, Except.ok_bind, hdigest]
    rfl
  · intro hr
    by_cases hrows : cs.length ≤ 100
    · rw [(limit_ok_iff (u := ())).2 ⟨by omega, by exact_mod_cast hrows⟩, Except.ok_bind]
      by_cases hoffsets : ∀ c ∈ cs, leafOffset ps c.index < 2 ^ 63
      · rw [(hloop _ fun _ _ => rfl).1 hoffsets, Except.ok_bind]
        cases hdigest : sampleHashOf (chosenEntries ls cs) with
        | ok digest => exact absurd ⟨hrows, hoffsets, hsample.1 ⟨digest, hdigest⟩⟩ hr
        | error e =>
          refine ⟨e, fun htype => capsOnly_sampleHashOf ls hids e.message ?_, rfl⟩
          rw [hdigest, refuseEnvelope, raise, ← htype]
      · have hfails : ∀ (f : ℤ × Json → Except Raised Json) (g : List Json → Except Raised Json),
            (∀ c ∈ cs, f (c.index, .str c.proofId) = builder.entry nfc c.index >>= fun e =>
              .ok (.obj (("proof_id", .str c.proofId) :: e))) →
            ∃ e, (e.type = "PackageError" → e.message ∈ capCodes) ∧
              ((cs.map fun c => ((c.index : ℤ), Json.str c.proofId)).mapM f >>= g) = .error e := by
          intro f g hf
          obtain ⟨e, he, herror⟩ := (hloop f hf).2 hoffsets
          exact ⟨e, fun htype => absurd htype he, by rw [herror]; rfl⟩
        exact hfails _ _ fun _ _ => rfl
    · refine ⟨⟨"PackageError", "rows_limit"⟩, fun _ => by decide, ?_⟩
      rw [Chosen.limit_of_gt (by exact_mod_cast not_le.1 hrows)]
      rfl

/-- Reading the rows of a selection again raises no package error. -/
theorem capsOnly_scanRows (h : ∀ c ∈ cs, ReadsLeaf nfc builder.schema c.leaf.1 c.row) :
    CapsOnly (builder.scanRows nfc (chosenEntries ls cs)) := by
  refine capsOnly_mapM fun e he => ?_
  obtain ⟨c, hc, rfl⟩ := List.mem_map.1 he
  have hrow : get (asObj (.obj (c.entry ls))) "row" = c.row := rfl
  obtain ⟨triples, htriples, hrecord⟩ := (h c hc).loads
  rw [hrow, (h c hc).again, commitmentErrors, Except.ok_bind, htriples, Except.ok_bind, hrecord]
  exact capsOnly_ok _

theorem capsOnly_refusePolicy {α : Type} (code : String) :
    CapsOnly (refusePolicy code : Except Raised α) := capsOnly_raise (by decide)

theorem capsOnly_walkScalar {v : Json} {depth nodes : ℕ} (harr : ∀ l, v ≠ .arr l)
    (hobj : ∀ l, v ≠ .obj l) : CapsOnly (walk v depth nodes) := by
  rw [walk]
  · split_ifs
    · exact capsOnly_refusePolicy _
    · exact capsOnly_refusePolicy _
    · exact capsOnly_ok _
  · exact hobj
  · exact harr

mutual
theorem capsOnly_walk : ∀ (v : Json) (depth nodes : ℕ), CapsOnly (walk v depth nodes)
  | .arr l, depth, nodes => by
    rw [walk]
    split_ifs
    · exact capsOnly_refusePolicy _
    · exact capsOnly_refusePolicy _
    · exact capsOnly_walkList l _ _
  | .obj l, depth, nodes => by
    rw [walk]
    split_ifs
    · exact capsOnly_refusePolicy _
    · exact capsOnly_refusePolicy _
    · exact capsOnly_walkFields l _ _
  | .null, depth, nodes => capsOnly_walkScalar (by simp) (by simp)
  | .bool _, depth, nodes => capsOnly_walkScalar (by simp) (by simp)
  | .int _, depth, nodes => capsOnly_walkScalar (by simp) (by simp)
  | .float _, depth, nodes => capsOnly_walkScalar (by simp) (by simp)
  | .str _, depth, nodes => capsOnly_walkScalar (by simp) (by simp)

theorem capsOnly_walkList : ∀ (l : List Json) (depth nodes : ℕ),
    CapsOnly (walkList l depth nodes)
  | [], _, _ => capsOnly_ok _
  | v :: l, depth, nodes => (capsOnly_walk v depth nodes).bind fun _ _ => capsOnly_walkList l _ _

theorem capsOnly_walkFields : ∀ (l : List (String × Json)) (depth nodes : ℕ),
    CapsOnly (walkFields l depth nodes)
  | [], _, _ => capsOnly_ok _
  | (_, v) :: l, depth, nodes =>
    (capsOnly_walk v depth nodes).bind fun _ _ => capsOnly_walkFields l _ _
end

theorem capsOnly_scanSelection (rows entries : List Json) (scannedAt : String)
    (consent : Consent) : CapsOnly (scanSelection rows entries scannedAt consent) := by
  have hwalk : CapsOnly (walkSelection rows) := by
    rw [walkSelection]
    split_ifs
    · refine capsOnly_foldlM (fun nodes row => ?_) rows 0
      cases row with
      | obj fs => exact capsOnly_walk _ _ _
      | _ => exact capsOnly_refusePolicy _
    · exact capsOnly_refusePolicy _
  have hdigest : CapsOnly (sampledLeafListDigestOf entries) :=
    (capsOnly_mapM fun _ _ => capsOnly_commitmentErrors _).bind fun _ _ =>
      (capsOnly_commitmentErrors _).bind fun _ _ => capsOnly_ok _
  rw [scanSelection]
  split_ifs
  · refine hwalk.bind fun _ _ => ?_
    split
    · exact capsOnly_raise (by decide)
    · exact hdigest.bind fun _ _ => capsOnly_ok _
  · exact capsOnly_refusePolicy _

/-- An error that is no package error leaves as an invalid package. -/
theorem ofPackageError_other {α : Type} {type message : String} (h : type ≠ "PackageError") :
    ofPackageError (packageErrors (raise type message : Except Raised α)) =
      refuseEnvelope "invalid_package" := by
  rw [raise, packageErrors, if_neg h]
  rfl

theorem ofPackageError_refuse {α : Type} (code : String) :
    ofPackageError (packageErrors (refuseEnvelope code : Except Raised α)) =
      refuseEnvelope code := by
  rw [refuseEnvelope, raise, packageErrors, if_pos rfl]
  rfl

/-- **When a selection is refused otherwise than at a cap**: it can be read and its
    head is within the caps, and then the tree has too many leaves, or the rows
    fit and the names of one of them do not sort alike. -/
theorem prepare_chosen_iff (h : Selection nfc builder.schema ls cs)
    (hrep : builder.tree.Represents builder.files ps ls)
    (hleaf : ∀ c ∈ cs, ps[c.index]? = some c.leaf)
    (hcommitment : canonicalUuid commitmentId = true)
    (hdisclosure : canonicalUuid disclosureVersion = true) {packageUrl : String}
    (hurl : CapsOnly (validateUrl packageUrl)) (scannedAt : String) (consent : Consent)
    (manifestBytes : ℤ) :
    CapsOnly (builder.prepare nfc validateUrl (cs.map fun c => .int c.index)
        (cs.map fun c => .str c.proofId) (.str commitmentId) (.str disclosureVersion) scannedAt
        consent manifestBytes packageUrl) ↔
      (Readable ps cs → WithinHead builder.schema ls cs manifestBytes →
        (ls.length : ℤ) ≤ safeInteger ∧
          ((cs.map fun c => c.leaf.1.row.length).sum ≤ 250000 → ∀ c ∈ cs, KeyOrdered c.row)) := by
  have henvelope := envelope_cases h commitmentId disclosureVersion hrep hleaf
  have hnumbers : ∀ c ∈ cs, Integers (fun _ => True) c.row :=
    fun c hc => (h.numberless c hc).mono fun _ hf => hf.elim
  have hreads : ∀ c ∈ cs, ReadsLeaf nfc builder.schema c.leaf.1 c.row :=
    fun c hc => (h.committed c hc).reads
  by_cases hr : Readable ps cs
  · obtain ⟨digest, hdigest, henv⟩ := henvelope.1 hr
    obtain ⟨hwithin, hbeyond⟩ := envelopeEntries_cases builder.schema ls digest hcommitment
      hdisclosure h.nonempty hr.rows hnumbers manifestBytes
    have hentries : getList (asObj (chosenEnvelope builder.schema ls cs commitmentId
        disclosureVersion digest)) "entries" = chosenEntries ls cs := rfl
    have hroot : HashValue.bytes builder.tree.root = .ofDigest (Merkle.mth nodeHash ls) := by
      rw [hrep.root]
      rfl
    -- what follows the checks of the envelope raises no other package error
    have htail : ∀ payload : Bytes, CapsOnly (do
        let fixture ← expectedManifestFixture validateUrl (chosenEntries ls cs)
          builder.schema.descriptors packageUrl
        limit "manifest_bytes" fixture.length
        let rows ← builder.scanRows nfc (chosenEntries ls cs)
        let scan ← scanSelection rows (chosenEntries ls cs) scannedAt consent
        return (⟨payload, scan⟩ : Prepared)) := fun payload => by
      refine (hurl.bind fun _ _ => capsOnly_commitmentErrors _).bind fun _ _ => ?_
      refine (capped_limit (by decide) _).capsOnly.bind fun _ _ => ?_
      refine (capsOnly_scanRows hreads).bind fun _ _ => ?_
      exact (capsOnly_scanSelection _ _ _ _).bind fun _ _ => capsOnly_ok _
    rw [prepare, henv, Except.ok_bind, hentries, hroot, validateEnvelope]
    by_cases hhead : WithinHead builder.schema ls cs manifestBytes
    · rw [h.validateBody hcommitment hdisclosure hr.rows hhead hdigest, forall_prop_of_true hr,
        forall_prop_of_true hhead]
      by_cases hsafe : (ls.length : ℤ) ≤ safeInteger
      · rw [if_pos hsafe, and_iff_right hsafe]
        by_cases hfit : (cs.map fun c => c.leaf.1.row.length).sum ≤ 250000
        · rw [if_pos hfit, forall_prop_of_true hfit]
          have hsafeInts : Integers SafeInteger (chosenEnvelope builder.schema ls cs commitmentId
              disclosureVersion digest) := by
            refine integers_envelope (fun c hc => (h.numberless c hc).mono fun _ hf => hf.elim)
              (fun c hc => ?_) (fun c hc => ?_) ?_
            · have := (h.committed c hc).ordinal
              have := hr.positions c hc
              show ((c.leaf.2 : ℤ).natAbs : ℤ) ≤ safeInteger
              omega
            · have := hr.positions c hc
              show ((c.index : ℤ).natAbs : ℤ) ≤ safeInteger
              omega
            · show ((ls.length : ℤ).natAbs : ℤ) ≤ safeInteger
              omega
          have hbytes := canonicalJsonBytes_exists_iff hsafeInts
          rw [keyOrdered_envelope] at hbytes
          rw [← hbytes]
          cases hencoded : canonicalJsonBytes (chosenEnvelope builder.schema ls cs commitmentId
              disclosureVersion digest) with
          | ok encoded =>
            refine iff_of_true ?_ ⟨encoded, rfl⟩
            rw [commitmentErrors, Except.ok_bind]
            by_cases hlimit : (encoded.length : ℤ) ≤ 1048576
            · have hok : limit "envelope_bytes" encoded.length = .ok () :=
                limit_ok_iff.2 ⟨by omega, hlimit⟩
              rw [hok]
              exact htail encoded
            · have hover : limit "envelope_bytes" encoded.length =
                  refuseEnvelope "envelope_bytes_limit" := Chosen.limit_of_gt (not_le.1 hlimit)
              rw [hover]
              exact (capped_refuse (by decide)).capsOnly
          | error e =>
            refine iff_of_false (fun hcaps => ?_) (by rintro ⟨b, hb⟩; cases hb)
            exact absurd (hcaps "invalid_package" rfl) (by decide)
        · rw [if_neg hfit, ofPackageError_refuse]
          refine iff_of_true ?_ fun hle => absurd hle hfit
          exact (capped_refuse (by decide)).capsOnly
      · rw [if_neg hsafe, ofPackageError_other (by decide)]
        refine iff_of_false (fun hcaps => ?_) fun hle => hsafe hle.1
        exact absurd (hcaps "invalid_package" rfl) (by decide)
    · obtain ⟨code, hcode, hrefuse⟩ := hbeyond hhead
      rw [AimData.validateBody, hrefuse]
      refine iff_of_true ?_ fun _ hhead' => absurd hhead' hhead
      exact (capped_refuse hcode).capsOnly
  · obtain ⟨e, he, henv⟩ := henvelope.2 hr
    rw [iff_true_right fun hr' => absurd hr' hr, prepare, henv]
    intro code hcode
    cases hcode
    exact he rfl

end

end CommitmentPreviewBuilder

/-! ## Committed rows -/

/-- The row of a leaf. -/
def rowAt (ps : List Record) (i : ℕ) : Bytes := (ps[i]?.map Record.row).getD []

/-- The record that a row stands for. -/
def leafRecord (schema : CanonicalSchema) (row : Bytes) : Json :=
  match (do logicalRecord (← jsonLoads row) schema.descriptors : Except Raised Json) with
  | .ok record => record
  | .error _ => .null

/-- The caps on a selection that are checked before its proofs. -/
structure WithinCaps (schema : CanonicalSchema) (ps : List Record) (indices : List ℕ)
    (manifestBytes : ℤ) : Prop where
  rows : indices.length ≤ 100
  fields : schema.descriptors.names.length ≤ 25
  manifest : 0 ≤ manifestBytes ∧ manifestBytes ≤ 262144
  nodes : 7 + (indices.map fun i => 7 + nodeCount (leafRecord schema (rowAt ps i)) +
    3 * (Merkle.sides i ps.length).length).sum ≤ 10000
  depth : ∀ i ∈ indices, Shallow 3 (leafRecord schema (rowAt ps i))
  -- no cap: offsets that `seek` takes, and positions with a canonical text
  offsets : ∀ i ∈ indices, (encodeRecords (ps.take i)).length < 2 ^ 63
  positions : ∀ i ∈ indices, (i : ℤ) ≤ safeInteger

theorem numberedFrom_le {α : Type} [LinearOrder α] {i : ℕ} {x : α × ℕ} : ∀ {seen l : List α},
    (KWay.numberedFrom seen l)[i]? = some x → x.2 ≤ seen.length + i := by
  induction i with
  | zero =>
    intro seen l h
    cases l with
    | nil => cases h
    | cons a l =>
      cases h
      exact List.count_le_length
  | succ i ih =>
    intro seen l h
    cases l with
    | nil => cases h
    | cons a l =>
      have hle : x.2 ≤ (seen ++ [a]).length + i := ih h
      rw [List.length_append, List.length_singleton] at hle
      omega

/-- Leaves chosen by their indices, with identities. -/
theorem exists_chosen {P : ℕ → Record × ℕ → Json → Prop} : ∀ {indices : List ℕ}
    {proofIds : List String}, proofIds.length = indices.length →
    (∀ i ∈ indices, ∃ leaf row, P i leaf row) → ∃ cs : List Chosen,
      cs.map Chosen.index = indices ∧ cs.map Chosen.proofId = proofIds ∧
      ∀ c ∈ cs, P c.index c.leaf c.row
  | [], [], _, _ => ⟨[], rfl, rfl, by simp⟩
  | [], _ :: _, hlen, _ => by cases hlen
  | _ :: _, [], hlen, _ => by cases hlen
  | i :: indices, pid :: proofIds, hlen, h => by
    rw [List.forall_mem_cons] at h
    obtain ⟨leaf, row, hp⟩ := h.1
    obtain ⟨cs, hindices, hids, hall⟩ := exists_chosen (Nat.succ.inj hlen) h.2
    refine ⟨⟨i, pid, leaf, row⟩ :: cs, ?_, ?_, ?_⟩
    · rw [List.map_cons, hindices]
    · rw [List.map_cons, hids]
    · exact List.forall_mem_cons.2 ⟨hp, hall⟩

section
variable {nfc : String → String} {schema : CanonicalSchema}

/-- A committed row is read back. -/
theorem readsLeaf_of_committed (hnfc : ∀ s, nfc (nfc s) = nfc s) {descriptors : Json}
    (hschema : canonicalSchema nfc descriptors = .ok schema)
    (hbinary : schema.descriptors.hasBinary = false) {p : Record}
    (hrow : ∃ text offset v, schema.canonicalRow nfc text offset v = .ok p.row)
    (hbase : computeBaseRowDigest (.ofDigest schema.digest) p.row = .ok p.base) :
    ReadsLeaf nfc schema p (leafRecord schema p.row) ∧
      Integers (fun _ => False) (leafRecord schema p.row) := by
  obtain ⟨text, offset, v, hv⟩ := hrow
  obtain ⟨triples, row, htriples, hrecord, hagain⟩ := canonicalRow_readBack hnfc hschema hbinary hv
  have hleaf : leafRecord schema p.row = row := by
    rw [leafRecord, htriples, Except.ok_bind, hrecord]
  rw [hleaf]
  refine ⟨⟨⟨triples, htriples, hrecord⟩, hagain, hbase⟩, ?_⟩
  obtain ⟨n, hn, hv⟩ := Except.bind_eq_ok.1 hv
  obtain ⟨⟨js, c⟩, hjs, hv⟩ := Except.bind_eq_ok.1 hv
  obtain ⟨encoded, hb, hv⟩ := Except.bind_eq_ok.1 hv
  split_ifs at hv
  · cases hv
  cases hv
  obtain ⟨hplain, hloads⟩ := loadBytes_record hn hjs hb
  rw [jsonLoads, hloads] at htriples
  cases htriples
  rw [logicalRecord, items, Except.ok_bind] at hrecord
  obtain ⟨l, hl, hrecord⟩ := Except.bind_eq_ok.1 hrecord
  cases hrecord
  exact dictOf_integers (logicalFields_integers (PlainList.integers hplain) hl)

/-- The records of a tree are those of its rows. -/
theorem sortedPairs_mem {digest : HashValue} {rows : List Bytes} {ps : List Record}
    (h : sortedPairs digest rows = .ok ps) {p : Record} (hp : p ∈ ps) :
    p.row ∈ rows ∧ computeBaseRowDigest digest p.row = .ok p.base := by
  obtain ⟨l, hl, h⟩ := Except.bind_eq_ok.1 h
  cases h
  have hmem : p ∈ l := (List.perm_insertionSort _ _).subset hp
  obtain ⟨i, hi, rfl⟩ := List.getElem_of_mem hmem
  have hlen := List.mapM_ok_length hl
  have hpair := List.mapM_ok_get hl i (by omega) hi
  obtain ⟨base, hbase, hpair⟩ := Except.bind_eq_ok.1 hpair
  have hpair : (⟨base, rows[i]⟩ : Record) = l[i] := Except.ok.inj hpair
  rw [← hpair]
  exact ⟨List.getElem_mem _, hbase⟩

end

theorem commitmentPreviewBuilder_ok {nfc : String → String} {tree : DiskTree} {files : Files}
    {descriptors : Json} {builder : CommitmentPreviewBuilder}
    (h : commitmentPreviewBuilder nfc tree files descriptors = .ok builder) :
    builder.tree = tree ∧ builder.files = files ∧
      canonicalSchema nfc descriptors = .ok builder.schema := by
  obtain ⟨schema, hschema, h⟩ := Except.bind_eq_ok.1 h
  split_ifs at h
  · cases h
    exact ⟨rfl, rfl, commitmentErrors_ok.1 hschema⟩
  · cases h

theorem take_numbered (ps : List Record) (i : ℕ) :
    ((KWay.numbered ps).take i).map Prod.fst = ps.take i := by
  rw [List.map_take, KWay.numbered, KWay.numberedFrom_fst]

/-- **Which committed rows can be disclosed**: of a strictly increasing selection
    of leaves, under well-formed identities, `prepare` raises no package error
    but a cap limit exactly if the selection exceeds a cap, or the tree has no
    more leaves than there are safe integers and the names of the objects in
    every selected row sort alike by code points and by UTF-16 units. -/
theorem prepare_capsOnly_iff {nfc : String → String} (hnfc : ∀ s, nfc (nfc s) = nfc s)
    {validateUrl : String → Except Raised Unit} {env : Env} {budget : Option WorkerBudget}
    {rows : List Bytes} {tree : DiskTree} {w w' : World} {descriptors : Json}
    {builder : CommitmentPreviewBuilder}
    (hbuilder : commitmentPreviewBuilder nfc tree w'.files descriptors = .ok builder)
    (htree : Returns (buildDiskTree env budget rows (.ofDigest builder.schema.digest)) w tree w')
    (hrows : ∀ row ∈ rows, ∃ text offset v,
      builder.schema.canonicalRow nfc text offset v = .ok row)
    (hbinary : builder.schema.descriptors.hasBinary = false) {ps : List Record}
    (hps : sortedPairs (.ofDigest builder.schema.digest) rows = .ok ps) {indices : List ℕ}
    {proofIds : List String} (hne : indices ≠ []) (hincreasing : indices.Pairwise (· < ·))
    (hexist : ∀ i ∈ indices, i < tree.count) (hlen : proofIds.length = indices.length)
    (hids : ∀ pid ∈ proofIds, canonicalUuid pid = true) (hnodup : proofIds.Nodup)
    {commitmentId disclosureVersion packageUrl : String}
    (hcommitment : canonicalUuid commitmentId = true)
    (hdisclosure : canonicalUuid disclosureVersion = true)
    (hurl : ∀ code, validateUrl packageUrl ≠ refuseEnvelope code) (scannedAt : String)
    (consent : Consent) (manifestBytes : ℤ) :
    (∀ code, builder.prepare nfc validateUrl (indices.map fun i : ℕ => .int i) (proofIds.map .str)
        (.str commitmentId) (.str disclosureVersion) scannedAt consent manifestBytes packageUrl =
          refuseEnvelope code → code ∈ capCodes) ↔
      (WithinCaps builder.schema ps indices manifestBytes → (ps.length : ℤ) ≤ safeInteger ∧
        ((indices.map fun i => (rowAt ps i).length).sum ≤ 250000 →
          ∀ i ∈ indices, KeyOrdered (leafRecord builder.schema (rowAt ps i)))) := by
  obtain ⟨rfl, hfiles, hschema⟩ := commitmentPreviewBuilder_ok hbuilder
  obtain ⟨ps', ls, hps', hcount, hmax, hrep⟩ := represents_buildDiskTree htree
  rw [← hfiles] at hrep
  obtain rfl : ps' = ps := Except.ok.inj (hps'.symm.trans hps)
  have hnumbered : (KWay.numbered ps').length = ps'.length := by
    rw [KWay.numbered, KWay.length_numberedFrom]
  have hls : ls.length = ps'.length := (List.mapM_ok_length hrep.leaves).trans hnumbered
  have hlsne : ls ≠ [] := hrep.nonempty
  -- the leaf at every index, and its record
  obtain ⟨cs, rfl, rfl, hcs⟩ := exists_chosen (P := fun i leaf row =>
      (KWay.numbered ps')[i]? = some leaf ∧ rowAt ps' i = leaf.1.row ∧
        row = leafRecord builder.schema leaf.1.row) hlen fun i hi => by
    have hi' : i < (KWay.numbered ps').length := by
      have := hexist i hi
      rw [hrep.count] at this
      omega
    refine ⟨_, _, List.getElem?_eq_getElem hi', ?_, rfl⟩
    have hfst : ((KWay.numbered ps').map Prod.fst)[i]? = ps'[i]? := by
      rw [KWay.numbered, KWay.numberedFrom_fst]
    rw [rowAt, ← hfst, List.getElem?_map, List.getElem?_eq_getElem hi']
    rfl
  have hreads : ∀ c ∈ cs, ReadsLeaf nfc builder.schema c.leaf.1 c.row ∧
      Integers (fun _ => False) c.row := by
    intro c hc
    obtain ⟨hleaf, -, hrow⟩ := hcs c hc
    have hmem : c.leaf.1 ∈ ps' := by
      have := List.mem_map_of_mem (f := Prod.fst) (List.mem_of_getElem? hleaf)
      rwa [KWay.numbered, KWay.numberedFrom_fst] at this
    obtain ⟨hin, hbase⟩ := sortedPairs_mem hps hmem
    rw [hrow]
    exact readsLeaf_of_committed hnfc hschema hbinary (hrows _ hin) hbase
  have hselection : Selection nfc builder.schema ls cs := by
    refine ⟨fun hnil => hne (by rw [hnil]; rfl), fun c hc => ?_, hincreasing, hnodup,
      fun c hc => (hreads c hc).2, by omega⟩
    obtain ⟨hleaf, -, -⟩ := hcs c hc
    refine ⟨hids _ (List.mem_map_of_mem hc), (hreads c hc).1, ?_, ?_⟩
    · obtain ⟨hi, hget⟩ := List.getElem?_eq_some_iff.1 hleaf
      have hpair := List.mapM_ok_get hrep.leaves c.index hi (by omega)
      rw [hget] at hpair
      exact ⟨_, hpair, List.getElem?_eq_getElem (by omega)⟩
    · simpa using @numberedFrom_le _ _ _ _ [] _ hleaf
  have hurl' : CapsOnly (validateUrl packageUrl) := fun code hcode => absurd hcode (hurl code)
  have hprepare := CommitmentPreviewBuilder.prepare_chosen_iff hselection hrep
    (fun c hc => (hcs c hc).1) hcommitment hdisclosure hurl' scannedAt consent manifestBytes
  -- the conditions on the leaves are those on the rows
  have hrow : ∀ c ∈ cs, leafRecord builder.schema (rowAt ps' c.index) = c.row := fun c hc => by
    rw [(hcs c hc).2.1, (hcs c hc).2.2]
  have hnodes : ((cs.map Chosen.index).map fun i => 7 +
      nodeCount (leafRecord builder.schema (rowAt ps' i)) +
        3 * (Merkle.sides i ps'.length).length) =
      cs.map fun c => 7 + nodeCount c.row + 3 * (Merkle.path nodeHash ls c.index).length := by
    rw [List.map_map]
    refine List.map_congr_left fun c hc => ?_
    rw [Function.comp_apply, hrow c hc, length_path hlsne, hls]
  have hbytes : ((cs.map Chosen.index).map fun i => (rowAt ps' i).length) =
      cs.map fun c => c.leaf.1.row.length := by
    rw [List.map_map]
    exact List.map_congr_left fun c hc => by rw [Function.comp_apply, (hcs c hc).2.1]
  have hwithin : WithinCaps builder.schema ps' (cs.map Chosen.index) manifestBytes ↔
      CommitmentPreviewBuilder.Readable (KWay.numbered ps') cs ∧
        WithinHead builder.schema ls cs manifestBytes := by
    constructor
    · rintro ⟨h1, h2, h3, h4, h5, h6, h7⟩
      rw [hnodes] at h4
      rw [List.forall_mem_map] at h5 h6 h7
      refine ⟨⟨by simpa using h1, fun c hc => ?_, h7⟩, h2, h3, h4, fun c hc => ?_⟩
      · rw [CommitmentPreviewBuilder.leafOffset, take_numbered]
        exact h6 c hc
      · rw [← hrow c hc]
        exact h5 c hc
    · rintro ⟨⟨h1, h6, h7⟩, h2, h3, h4, h5⟩
      rw [← hnodes] at h4
      refine ⟨by simpa using h1, h2, h3, h4, ?_, ?_, ?_⟩ <;> rw [List.forall_mem_map]
      · intro c hc
        rw [hrow c hc]
        exact h5 c hc
      · intro c hc
        have := h6 c hc
        rwa [CommitmentPreviewBuilder.leafOffset, take_numbered] at this
      · exact h7
  have hkeys : (∀ i ∈ cs.map Chosen.index, KeyOrdered (leafRecord builder.schema (rowAt ps' i))) ↔
      ∀ c ∈ cs, KeyOrdered c.row := by
    rw [List.forall_mem_map]
    exact forall₂_congr fun c hc => by rw [hrow c hc]
  rw [hbytes, hkeys, hwithin, and_imp, ← hls, List.map_map, List.map_map]
  exact hprepare

/-! ### A row whose names do not sort alike -/

/-- A name of the private use area and one beyond it: the first comes first by
    code points, and last by UTF-16 units. -/
def astralDescriptors : Json :=
  .arr [.arr [.str "\ue000", .str "string", .bool false, .obj []],
    .arr [.str "𐀀", .str "string", .bool false, .obj []]]

def astralRecord : PyValue := .dict [(.text "\ue000", .str "a"), (.text "𐀀", .str "b")]

/-- The record committed, alone in its tree. -/
def astralBuilder : Except Raised CommitmentPreviewBuilder := do
  let schema ← commitmentErrors (canonicalSchema id astralDescriptors)
  let row ← commitmentErrors (schema.canonicalRow id false none astralRecord)
  match exec (buildDiskTree .ample none [row] (.ofDigest schema.digest)) ⟨∅, 0, 0, 0, 0⟩ with
  | (.ok tree, w) => commitmentPreviewBuilder id tree w.files astralDescriptors
  | (.error _, _) => raise "OSError" "No such file or directory"

/-- Its only leaf selected. -/
def astralPrepare (builder : CommitmentPreviewBuilder) :
    Except Raised CommitmentPreviewBuilder.Prepared :=
  builder.prepare id (fun _ => .ok ()) [.int (0 : ℕ)]
    [.str "00000000-0000-0000-0000-000000000003"] (.str "00000000-0000-0000-0000-000000000001")
    (.str "00000000-0000-0000-0000-000000000002") "2026-09-17T12:00:00.000000Z"
    ⟨true, true, true⟩ 1000 "https://origin.example/preview"

theorem astral_refused : ∃ builder, astralBuilder = .ok builder ∧
    astralPrepare builder = refuseEnvelope "invalid_package" := by
  have hrun : (match astralBuilder with
      | .ok builder => (match astralPrepare builder with
        | .ok _ => false
        | .error e => e = ⟨"PackageError", "invalid_package"⟩)
      | .error _ => false) = true := by decide +kernel
  cases hbuilder : astralBuilder with
  | error e =>
    rw [hbuilder] at hrun
    cases hrun
  | ok builder =>
    rw [hbuilder] at hrun
    refine ⟨builder, rfl, ?_⟩
    cases hprepare : astralPrepare builder with
    | ok p =>
      simp only [hprepare] at hrun
      cases hrun
    | error e =>
      simp only [hprepare, decide_eq_true_eq] at hrun
      rw [hrun]
      rfl

/-- What is known of the tree. -/
theorem astral_built {builder : CommitmentPreviewBuilder} (h : astralBuilder = .ok builder) :
    ∃ (row : Bytes) (tree : DiskTree) (w' : World) (ps : List Record),
      commitmentPreviewBuilder id tree w'.files astralDescriptors = .ok builder ∧
      Returns (buildDiskTree .ample none [row] (.ofDigest builder.schema.digest))
        ⟨∅, 0, 0, 0, 0⟩ tree w' ∧
      builder.schema.canonicalRow id false none astralRecord = .ok row ∧
      builder.schema.descriptors.hasBinary = false ∧
      sortedPairs (.ofDigest builder.schema.digest) [row] = .ok ps ∧ 0 < tree.count := by
  obtain ⟨schema, hschema, hrest⟩ := Except.bind_eq_ok.1 h
  obtain ⟨row, hrow, hbuilder⟩ := Except.bind_eq_ok.1 hrest
  rw [commitmentErrors_ok] at hschema hrow
  split at hbuilder
  · rename_i tree w' hexec
    obtain ⟨-, -, hschema'⟩ := commitmentPreviewBuilder_ok hbuilder
    obtain rfl : schema = builder.schema := Except.ok.inj (hschema.symm.trans hschema')
    have hreturns : Returns (buildDiskTree .ample none [row] (.ofDigest builder.schema.digest))
        ⟨∅, 0, 0, 0, 0⟩ tree w' := hexec
    obtain ⟨ps, ls, hps, -, -, hrep⟩ := represents_buildDiskTree hreturns
    have hbinary : builder.schema.descriptors.hasBinary = false := by
      have hall : (canonicalSchema id astralDescriptors).toOption.any
          (fun s => !s.descriptors.hasBinary) = true := by decide
      rw [hschema] at hall
      simpa [Except.toOption, Option.any] using hall
    refine ⟨row, tree, w', ps, hbuilder, hreturns, hrow, hbinary, hps, ?_⟩
    rw [hrep.count]
    exact List.length_pos_iff.2 hrep.nonempty
  · cases hbuilder

/-- **A committed row that cannot be disclosed**: it fits every cap, and is refused
    as an invalid package. -/
theorem prepare_invalid_package_astral :
    ∃ (row : Bytes) (tree : DiskTree) (w' : World) (builder : CommitmentPreviewBuilder),
      commitmentPreviewBuilder id tree w'.files astralDescriptors = .ok builder ∧
      Returns (buildDiskTree .ample none [row] (.ofDigest builder.schema.digest))
        ⟨∅, 0, 0, 0, 0⟩ tree w' ∧
      builder.schema.canonicalRow id false none astralRecord = .ok row ∧
      builder.schema.descriptors.hasBinary = false ∧ 0 < tree.count ∧
      astralPrepare builder = refuseEnvelope "invalid_package" := by
  obtain ⟨builder, hbuilder, hprepare⟩ := astral_refused
  obtain ⟨row, tree, w', ps, h, hreturns, hrow, hbinary, -, hcount⟩ := astral_built hbuilder
  exact ⟨row, tree, w', builder, h, hreturns, hrow, hbinary, hcount, hprepare⟩

theorem prepare_capsOnly_iff_astral :
    ∃ (builder : CommitmentPreviewBuilder) (ps : List Record),
      (∀ code, astralPrepare builder = refuseEnvelope code → code ∈ capCodes) ↔
        (WithinCaps builder.schema ps [0] 1000 → (ps.length : ℤ) ≤ safeInteger ∧
          (([0].map fun i => (rowAt ps i).length).sum ≤ 250000 →
            ∀ i ∈ [0], KeyOrdered (leafRecord builder.schema (rowAt ps i)))) := by
  obtain ⟨builder, hbuilder, -⟩ := astral_refused
  obtain ⟨row, tree, w', ps, h, hreturns, hrow, hbinary, hps, hcount⟩ := astral_built hbuilder
  have hrows : ∀ r ∈ [row], ∃ text offset v,
      builder.schema.canonicalRow id text offset v = .ok r := by
    rw [List.forall_mem_singleton]
    exact ⟨false, none, astralRecord, hrow⟩
  have hexist : ∀ i ∈ [0], i < tree.count := List.forall_mem_singleton.2 hcount
  have hlen : ["00000000-0000-0000-0000-000000000003"].length = [0].length := rfl
  exact ⟨builder, ps, prepare_capsOnly_iff (fun _ => rfl) h hreturns hrows hbinary hps
    (List.cons_ne_nil 0 []) (List.pairwise_singleton _ 0) hexist hlen (by decide) (by decide)
    (by decide) (by decide) (fun _ h => by cases h) _ _ _⟩

end AimData
