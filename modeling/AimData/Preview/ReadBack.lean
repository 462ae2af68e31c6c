/-
  A canonical row read back is the row of the same bytes.

  `_logical_record` turns the triples of a row into a record, and the record is
  accepted under the same schema and written as the same triples, with as many
  values counted.
-/
import AimData.Canonical.Again
import AimData.Canonical.Permuted
import AimData.Preview.KeyOrder

namespace AimData

open CanonicalSchema

/-! ## Names of a schema -/

mutual
/-- The names of the fields are normalized and distinct, at every depth. -/
def LogicalType.NormalNames (nfc : String → String) : LogicalType → Prop
  | .array e => e.NormalNames nfc
  | .object fs => fs.NormalNames nfc
  | _ => True

def Fields.NormalNames (nfc : String → String) : Fields → Prop
  | .nil => True
  | .cons name type _ rest =>
    (nfc name = name ∧ name ∉ rest.names) ∧ type.NormalNames nfc ∧ rest.NormalNames nfc
end

section
variable {nfc : String → String}

theorem names_ofList (l : List (String × LogicalType × Bool)) :
    (Fields.ofList l).names = l.map Prod.fst := by
  induction l with
  | nil => rfl
  | cons f l ih => rw [Fields.ofList, Fields.names, ih, List.map_cons]

theorem normalNames_ofList {l : List (String × LogicalType × Bool)}
    (h : ∀ f ∈ l, nfc f.1 = f.1 ∧ f.2.1.NormalNames nfc) (hnodup : (l.map Prod.fst).Nodup) :
    (Fields.ofList l).NormalNames nfc := by
  induction l with
  | nil => trivial
  | cons f l ih =>
    rw [List.map_cons, List.nodup_cons] at hnodup
    obtain ⟨hname, htype⟩ := h f List.mem_cons_self
    refine ⟨⟨hname, ?_⟩, htype, ih (fun g hg => h g (List.mem_cons_of_mem _ hg)) hnodup.2⟩
    rw [names_ofList]
    exact hnodup.1

theorem DeclaresAll.normalNames (hnfc : ∀ s, nfc (nfc s) = nfc s)
    {D : String → Json → LogicalType → Prop}
    (hD : ∀ {tag params type}, D tag params type → type.NormalNames nfc) {l : List Json}
    {out : List (String × LogicalType × Bool)} (h : DeclaresAll nfc D l out) :
    (Fields.ofList (sortFields out)).NormalNames nfc := by
  have hperm := sortFields_perm out
  refine normalNames_ofList (fun f hf => ?_) (((hperm.map Prod.fst).nodup_iff).2 h.nodup)
  obtain ⟨d, -, hd⟩ := forall₂_mem_right h.fields (hperm.subset hf)
  obtain ⟨-, htype⟩ := hd
  exact ⟨hnfc _, hD htype⟩

theorem describes_normalNames (hnfc : ∀ s, nfc (nfc s) = nfc s) (levels : ℕ) {tag : String}
    {params : Json} {type : LogicalType} (h : Describes nfc levels tag params type) :
    type.NormalNames nfc := by
  induction levels generalizing tag params type with
  | zero => exact h.elim
  | succ levels ih =>
    cases h with
    | array _ _ _ _ _ htype =>
      have helement := ih htype
      exact helement
    | object _ _ _ hd => exact hd.normalNames hnfc ih
    | _ => trivial

/-- **The names of a schema are normalized and distinct.** -/
theorem canonicalSchema_normalNames (hnfc : ∀ s, nfc (nfc s) = nfc s) {descriptors : Json}
    {schema : CanonicalSchema} (h : canonicalSchema nfc descriptors = .ok schema) :
    schema.descriptors.NormalNames nfc := by
  obtain ⟨⟨fs, n⟩, hfs, -⟩ := Except.bind_eq_ok.1 h
  obtain ⟨l, -, rfl, -⟩ := (fields_ok (typeOf_counts _) (Nat.zero_le _)).1 hfs
  obtain ⟨out, hd, hsort, -⟩ := canonicalSchema_ok h
  rw [hsort]
  exact hd.normalNames hnfc (describes_normalNames hnfc _)

end

/-! ## Values -/

section
variable {nfc : String → String} {text : Bool} {offset : Option String}

theorem tag_ne_binary {type : LogicalType} (h : type.hasBinary = false) :
    Json.str type.tag ≠ .str "binary" := by
  cases type <;> simp [LogicalType.tag, LogicalType.hasBinary] at h ⊢

/-- `null` is its own logical value. -/
theorem logicalValue_null (type : LogicalType) {tag : Json} (htag : tag ≠ .str "binary") :
    logicalValue type tag .null = .ok .null := by
  cases type <;> rw [logicalValue, logicalBranch, if_neg htag, if_pos rfl] <;> simp

/-- The value of a scalar type is its own logical value. -/
theorem logicalValue_scalar {type : LogicalType} {v : Json} (harray : ∀ e, type ≠ .array e)
    (hobject : ∀ fs, type ≠ .object fs) (hbinary : type ≠ .binary) :
    logicalValue type (.str type.tag) v = .ok v := by
  cases type with
  | array e => exact absurd rfl (harray e)
  | object fs => exact absurd rfl (hobject fs)
  | binary => exact absurd rfl hbinary
  | _ =>
    rw [logicalValue, logicalBranch, if_neg (by simp [LogicalType.tag]),
      if_neg (c := Json.str _ = .str "object") (by simp [LogicalType.tag]),
      if_neg (c := Json.str _ = .str "array") (by simp [LogicalType.tag])]
    · split_ifs with hv
      · rw [hv]
      · rfl
    · simp
    · simp

/-- What is written for a value is read back, and written again. -/
structure ReadsBack (nfc : String → String) (type : LogicalType) (v : PyValue) (j : Json)
    (depth count c : ℕ) : Prop where
  null : v = .none ↔ j = .null
  again : ∃ w, logicalValue type (.str type.tag) j = .ok w ∧ (w = .null ↔ j = .null) ∧
    value nfc false none type (PyValue.ofJson w) depth count = .ok (j, c)

theorem counted_none {depth count : ℕ} {body : ℕ → Except CommitmentValidationError (Json × ℕ)}
    {c : ℕ} (h : countValue depth count = .ok c) : counted .none depth count body = .ok (.null, c) := by
  rw [counted, h]
  rfl

theorem counted_some {v : PyValue} (hv : v ≠ .none) {depth count : ℕ}
    {body : ℕ → Except CommitmentValidationError (Json × ℕ)} {c : ℕ}
    (h : countValue depth count = .ok c) : counted v depth count body = body c := by
  rw [counted, h, Except.ok_bind]
  cases v <;> first | exact absurd rfl hv | rfl

/-- A scalar that is written is read back. -/
theorem readsBack_scalar {type : LogicalType} (hbinary : type.hasBinary = false)
    (harray : ∀ e, type ≠ .array e) (hobject : ∀ fs, type ≠ .object fs)
    {r r' : PyValue → Except CommitmentValidationError Json}
    (hvalue' : ∀ v depth count, value nfc false none type v depth count =
      counted v depth count (scalar (r' v)))
    (hagain : ∀ {v j}, r v = .ok j → j ≠ .null ∧ r' (PyValue.ofJson j) = .ok j)
    {v : PyValue} {j : Json} {depth count c : ℕ}
    (h : counted v depth count (scalar (r v)) = .ok (j, c)) :
    ReadsBack nfc type v j depth count c := by
  obtain ⟨n, hn, h⟩ := Except.bind_eq_ok.1 h
  by_cases hv : v = .none
  · subst hv
    cases h
    refine ⟨by simp, .null, logicalValue_null type (tag_ne_binary hbinary), by simp, ?_⟩
    rw [hvalue']
    exact counted_none hn
  · have h : scalar (r v) n = .ok (j, c) := by
      cases v <;> first | exact absurd rfl hv | exact h
    obtain ⟨j', hj, h⟩ := Except.bind_eq_ok.1 h
    cases h
    obtain ⟨hne, hj'⟩ := hagain hj
    have hscalar : logicalValue type (.str type.tag) j = .ok j :=
      logicalValue_scalar harray hobject fun h => by rw [h] at hbinary; cases hbinary
    refine ⟨⟨fun h => absurd h hv, fun h => absurd h hne⟩, j, hscalar, by simp, ?_⟩
    have hsome : PyValue.ofJson j ≠ .none := by
      intro hnone
      cases j <;> first | exact absurd rfl hne | cases hnone
    rw [hvalue', counted_some hsome hn, hj']
    rfl

/-- The elements of a list are read back one by one. -/
theorem arrayValue_readBack {element : LogicalType} {depth : ℕ}
    (helement : ∀ v j count c, value nfc text offset element v depth count = .ok (j, c) →
      ReadsBack nfc element v j depth count c) :
    ∀ {l : List PyValue} {js : List Json} {count c : ℕ},
      arrayValue (fun v count => value nfc text offset element v depth count) l count =
        .ok (js, c) → ∃ ws, js.mapM (fun v => logicalValue element (.str element.tag) v) = .ok ws ∧
        arrayValue (fun v count => value nfc false none element v depth count)
          (PyValue.ofJsonList ws) count = .ok (js, c)
  | [], js, count, c, h => by
    cases h
    exact ⟨[], rfl, rfl⟩
  | v :: l, js, count, c, h => by
    obtain ⟨⟨j, m⟩, hj, h⟩ := Except.bind_eq_ok.1 h
    obtain ⟨⟨js', m'⟩, hjs, h⟩ := Except.bind_eq_ok.1 h
    cases h
    obtain ⟨w, hw, -, hagain⟩ := (helement v j count m hj).again
    obtain ⟨ws, hws, hagains⟩ := arrayValue_readBack helement hjs
    refine ⟨w :: ws, List.mapM_cons_ok.2 ⟨w, ws, hw, hws, rfl⟩, ?_⟩
    rw [PyValue.ofJsonList, arrayValue, hagain, Except.ok_bind]
    dsimp only
    rw [hagains]
    rfl

/-- What `_record` finds in a record read back. -/
def Finds (n : List (String × PyValue)) (l : List (String × Json)) (names : List String) : Prop :=
  ∀ name ∈ names, CanonicalSchema.lookup n name = (l.lookup name).map PyValue.ofJson

/-- The record of what is written has the names it found, and is written again. -/
structure RecordReadsBack (nfc : String → String) (fields : Fields) (js : List Json)
    (depth count c : ℕ) : Prop where
  again : ∃ l, logicalFields fields js = .ok l ∧ (l.map Prod.fst).Sublist fields.names ∧
    ∀ n, Finds n l fields.names → record nfc false none fields n depth count = .ok (js, c)

theorem logicalFields_step {name tag : String} {type : LogicalType} {nullable : Bool}
    {rest : Fields} {j w : Json} {js : List Json} {l : List (String × Json)}
    (htag : tag ≠ "missing") (hw : logicalValue type (.str tag) j = .ok w)
    (hl : logicalFields rest js = .ok l) :
    logicalFields (.cons name type nullable rest) (fieldJson name tag j :: js) =
      .ok ((name, w) :: l) := by
  have hne : Json.str tag ≠ .str "missing" := fun h => htag (Json.str.inj h)
  rw [logicalFields, fieldJson, items, Except.ok_bind]
  simp only
  rw [if_neg (not_not.2 rfl), if_neg hne, hw, Except.ok_bind, hl]
  rfl

/-- One more field that is read back. -/
theorem RecordReadsBack.cons {name : String} {type : LogicalType} {nullable : Bool} {rest : Fields}
    {depth count m c : ℕ} {j : Json} {js : List Json} {found : Option PyValue}
    (hname : name ∉ rest.names)
    (hj : fieldValue name type.tag nullable depth found
      (fun v count => value nfc text offset type v depth count) count = .ok (j, m))
    (hvalue : ∀ v j count c, value nfc text offset type v depth count = .ok (j, c) →
      ReadsBack nfc type v j depth count c)
    (hrest : RecordReadsBack nfc rest js depth m c) :
    RecordReadsBack nfc (.cons name type nullable rest) (j :: js) depth count c := by
  obtain ⟨l, hl, hnames, hagain⟩ := hrest
  have hl' : l.lookup name = none := by
    rw [List.lookup_eq_none_iff]
    refine fun f hf => bne_iff_ne.2 fun he => hname (hnames.subset ?_)
    exact he ▸ List.mem_map_of_mem hf
  have hskip : ∀ {w : Json} {name' : String}, name' ∈ rest.names →
      ((name, w) :: l).lookup name' = l.lookup name' := fun {w name'} h => by
    have hne : name' ≠ name := fun he => hname (he ▸ h)
    rw [List.lookup_cons, beq_eq_false_iff_ne.2 hne]
  cases found with
  | none =>
    obtain ⟨m', hm, hj⟩ := Except.bind_eq_ok.1 hj
    cases hj
    refine ⟨l, ?_, hnames.cons _, fun n hn => ?_⟩
    · rw [logicalFields, fieldJson, items, Except.ok_bind]
      simp only [ne_eq, not_true_eq_false, if_false, if_true]
      exact hl
    · rw [record, hn name List.mem_cons_self, hl', Option.map_none, fieldValue, hm, Except.ok_bind,
        Except.pure_eq_ok, Except.ok_bind]
      simp only
      rw [hagain n fun name' h => hn name' (List.mem_cons_of_mem _ h)]
      rfl
  | some v =>
    have hfound : ∀ {w : Json} {n : List (String × PyValue)},
        Finds n ((name, w) :: l) (name :: rest.names) →
        CanonicalSchema.lookup n name = some (PyValue.ofJson w) ∧ Finds n l rest.names := by
      intro w n hn
      refine ⟨?_, fun name' h => ?_⟩
      · rw [hn name List.mem_cons_self, List.lookup_cons_self]
        rfl
      · rw [hn name' (List.mem_cons_of_mem _ h), hskip h]
    by_cases hv : v = .none
    · subst hv
      obtain ⟨m', hm, hj⟩ := Except.bind_eq_ok.1 hj
      split_ifs at hj with hnull
      · cases hj
        refine ⟨(name, .null) :: l, ?_, hnames.cons_cons _, fun n hn => ?_⟩
        · rw [logicalFields, fieldJson, items, Except.ok_bind]
          simp only [ne_eq, not_true_eq_false, if_false, Json.str.injEq]
          rw [if_neg (by decide), logicalValue_null type (by simp), hl]
          rfl
        · obtain ⟨hlookup, hfinds⟩ := hfound hn
          rw [record, hlookup, PyValue.ofJson, fieldValue, hm, Except.ok_bind, if_pos hnull,
            Except.pure_eq_ok, Except.ok_bind]
          simp only
          rw [hagain n hfinds]
          rfl
      · cases hj
    · rw [fieldValue_some hv] at hj
      obtain ⟨⟨j', m'⟩, hj', hj⟩ := Except.bind_eq_ok.1 hj
      cases hj
      obtain ⟨hnull, w, hw, hwnull, hagainw⟩ := hvalue v j' count m hj'
      have hsome : PyValue.ofJson w ≠ .none := fun h =>
        hv (hnull.2 (hwnull.1 (ofJson_none.1 h)))
      refine ⟨(name, w) :: l, logicalFields_step type.tag_ne.1 hw hl, hnames.cons_cons _,
        fun n hn => ?_⟩
      obtain ⟨hlookup, hfinds⟩ := hfound hn
      rw [record, hlookup, fieldValue_some hsome, hagainw, Except.ok_bind]
      simp only [Except.pure_eq_ok, Except.ok_bind]
      rw [hagain n hfinds]
      rfl

theorem Fields.NormalNames.names : ∀ {fields : Fields}, fields.NormalNames nfc →
    fields.names.Nodup ∧ ∀ name ∈ fields.names, nfc name = name
  | .nil, _ => ⟨.nil, by simp [Fields.names]⟩
  | .cons name _ _ rest, ⟨⟨hname, hnew⟩, _, hrest⟩ => by
    obtain ⟨hnodup, hnormal⟩ := Fields.NormalNames.names hrest
    rw [Fields.names]
    exact ⟨List.nodup_cons.2 ⟨hnew, hnodup⟩, List.forall_mem_cons.2 ⟨hname, hnormal⟩⟩

theorem lookup_map_values {α β : Type} (f : α → β) (l : List (String × α)) (name : String) :
    (l.map fun p => (p.1, f p.2)).lookup name = (l.lookup name).map f := by
  induction l with
  | nil => rfl
  | cons p l ih =>
    rw [List.map_cons, List.lookup_cons, List.lookup_cons, ih]
    by_cases h : name = p.1
    · rw [beq_iff_eq.2 h]
      rfl
    · rw [beq_eq_false_iff_ne.2 h]

/-- A record is read back with what its loop finds. -/
theorem recordOf_readBack {fields : Fields} {l : List (String × Json)}
    (hnormal : fields.NormalNames nfc) (hnames : (l.map Prod.fst).Sublist fields.names) :
    ∃ n, recordOf nfc fields.names (.dict (PyValue.ofJsonFields l)) = .ok n ∧
      Finds n l fields.names := by
  obtain ⟨hnodup, hfixed⟩ := hnormal.names
  have hkeys : (l.map fun f => nfc f.1) = l.map Prod.fst :=
    List.map_congr_left fun f hf => hfixed _ (hnames.subset (List.mem_map_of_mem hf))
  have hpairs : (l.map fun f => (nfc f.1, PyValue.ofJson f.2)) =
      l.map fun f => (f.1, PyValue.ofJson f.2) :=
    List.map_congr_left fun f hf => by rw [hfixed _ (hnames.subset (List.mem_map_of_mem hf))]
  refine ⟨l.map fun f => (f.1, PyValue.ofJson f.2), ?_, fun name _ => ?_⟩
  · rw [recordOf, normalizeKeys_ofJson, hkeys, hpairs,
      if_pos ⟨hnames.nodup hnodup, fun _ _ => List.not_mem_nil⟩, Except.ok_bind, if_pos]
    · rfl
    · rw [List.all_map, List.all_eq_true]
      exact fun f hf => decide_eq_true (hnames.subset (List.mem_map_of_mem hf))
  · rw [lookup_eq, lookup_map_values]

mutual
/-- **A value that is written is read back**, and written again. -/
theorem value_readBack (hnfc : ∀ s, nfc (nfc s) = nfc s) : ∀ (type : LogicalType) {v : PyValue}
    {j : Json} {depth count c : ℕ}, type.hasBinary = false → type.NormalNames nfc →
    value nfc text offset type v depth count = .ok (j, c) → ReadsBack nfc type v j depth count c
  | .string, v, j, depth, count, c, hbinary, _, h => by
    refine readsBack_scalar hbinary nofun nofun (fun _ _ _ => rfl) (fun {v j} hj => ?_) h
    obtain ⟨s, rfl, hagain⟩ := stringValue_again hnfc hj
    exact ⟨by simp, hagain⟩
  | .boolean, v, j, depth, count, c, hbinary, _, h => by
    refine readsBack_scalar hbinary nofun nofun (fun _ _ _ => rfl) (fun {v j} hj => ?_) h
    obtain ⟨b, rfl, hagain⟩ := booleanValue_again hj
    exact ⟨by simp, hagain⟩
  | .signedInteger, v, j, depth, count, c, hbinary, _, h => by
    refine readsBack_scalar hbinary nofun nofun (fun _ _ _ => rfl) (fun {v j} hj => ?_) h
    obtain ⟨s, rfl, hagain⟩ := signedIntegerValue_again hj
    exact ⟨by simp, hagain⟩
  | .decimal params, v, j, depth, count, c, hbinary, _, h => by
    refine readsBack_scalar hbinary nofun nofun (fun _ _ _ => rfl) (fun {v j} hj => ?_) h
    obtain ⟨s, rfl, hagain⟩ := decimalValue_again hj
    exact ⟨by simp, hagain⟩
  | .date, v, j, depth, count, c, hbinary, _, h => by
    refine readsBack_scalar hbinary nofun nofun (fun _ _ _ => rfl) (fun {v j} hj => ?_) h
    obtain ⟨s, rfl, hagain⟩ := dateValue_again hj
    exact ⟨by simp, hagain⟩
  | .timestamp p, v, j, depth, count, c, hbinary, _, h => by
    refine readsBack_scalar hbinary nofun nofun (fun _ _ _ => rfl) (fun {v j} hj => ?_) h
    obtain ⟨s, rfl, hagain⟩ := timestampValue_again hj
    exact ⟨by simp, hagain⟩
  | .binary, v, j, depth, count, c, hbinary, _, h => by cases hbinary
  | .array element, v, j, depth, count, c, hbinary, hnormal, h => by
    obtain ⟨n, hn, h⟩ := Except.bind_eq_ok.1 h
    cases v with
    | none =>
      cases h
      refine ⟨by simp, .null, logicalValue_null _ (tag_ne_binary hbinary), by simp, ?_⟩
      rw [value]
      exact counted_none hn
    | list l =>
      obtain ⟨⟨js, m⟩, hjs, h⟩ := Except.bind_eq_ok.1 h
      cases h
      obtain ⟨ws, hws, hagain⟩ := arrayValue_readBack
        (fun v j count c hj => value_readBack hnfc element hbinary hnormal hj) hjs
      refine ⟨by simp, .arr ws, ?_, by simp, ?_⟩
      · rw [logicalValue, logicalBranch, if_neg (tag_ne_binary hbinary), if_neg (by simp),
          if_neg (by simp [LogicalType.tag]), if_pos (by rfl), items, Except.ok_bind, hws]
        rfl
      · rw [value, PyValue.ofJson, counted_some (by simp) hn]
        dsimp only
        rw [hagain]
        rfl
    | _ => cases h
  | .object fields, v, j, depth, count, c, hbinary, hnormal, h => by
    obtain ⟨n, hn, h⟩ := Except.bind_eq_ok.1 h
    cases v with
    | none =>
      cases h
      refine ⟨by simp, .null, logicalValue_null _ (tag_ne_binary hbinary), by simp, ?_⟩
      rw [value]
      exact counted_none hn
    | dict l =>
      obtain ⟨normalized, hnormalized, h⟩ := Except.bind_eq_ok.1 h
      obtain ⟨⟨js, m⟩, hjs, h⟩ := Except.bind_eq_ok.1 h
      cases h
      obtain ⟨l', hl', hnames, hagain⟩ := record_readBack hnfc fields hbinary hnormal hjs
      obtain ⟨n', hn', hfinds⟩ := recordOf_readBack hnormal hnames
      have hdict : Json.dictOf l' = l' :=
        Json.dictOf_of_nodup (hnames.nodup (Fields.NormalNames.names hnormal).1)
      refine ⟨by simp, .obj l', ?_, by simp, ?_⟩
      · rw [logicalValue, logicalBranch, if_neg (tag_ne_binary hbinary), if_neg (by simp),
          if_pos (by rfl), items, Except.ok_bind, hl', Except.ok_bind, hdict]
        rfl
      · rw [value, PyValue.ofJson, counted_some (by simp) hn, hn', Except.ok_bind,
          hagain n' hfinds]
        rfl
    | _ => cases h

/-- **A record that is written is read back**, and written again. -/
theorem record_readBack (hnfc : ∀ s, nfc (nfc s) = nfc s) : ∀ (fields : Fields)
    {n : List (String × PyValue)} {js : List Json} {depth count c : ℕ},
    fields.hasBinary = false → fields.NormalNames nfc →
    record nfc text offset fields n depth count = .ok (js, c) →
    RecordReadsBack nfc fields js depth count c
  | .nil, n, js, depth, count, c, _, _, h => by
    cases h
    exact ⟨[], rfl, .slnil, fun _ _ => rfl⟩
  | .cons name type nullable rest, n, js, depth, count, c, hbinary, hnormal, h => by
    rw [Fields.hasBinary, Bool.or_eq_false_iff] at hbinary
    obtain ⟨⟨hname, hnew⟩, htype, hrest⟩ := hnormal
    obtain ⟨⟨j, m⟩, hj, h⟩ := Except.bind_eq_ok.1 h
    obtain ⟨⟨js', m'⟩, hjs, h⟩ := Except.bind_eq_ok.1 h
    cases h
    exact .cons hnew hj (fun v j count c hv => value_readBack hnfc type hbinary.1 htype hv)
      (record_readBack hnfc rest hbinary.2 hrest hjs)
end

end

/-! ## Rows -/

/-- The bytes of the triples of a record are read as them. -/
theorem loadBytes_record {nfc : String → String} {text : Bool} {offset : Option String}
    {fields : Fields} {v : PyValue} {n : List (String × PyValue)} {js : List Json} {c : ℕ}
    {b : Bytes} (hn : recordOf nfc fields.names v = .ok n)
    (hjs : record nfc text offset fields n 0 0 = .ok (js, c))
    (hb : canonicalJsonBytes (.arr js) = .ok b) :
    Plain (.arr js) ∧ Json.loadBytes Json.dict b = some (.arr js) := by
  obtain ⟨l, rfl, hl⟩ := recordOf_ok hn
  have hplain : Plain (.arr js) := (record_spec fields hl hjs).1
  exact ⟨hplain, loadBytes_canonicalJsonBytes keepsDistinct_dict hplain.normal.2 (Or.inl ⟨js, rfl⟩)
    hplain.normal.1 hb⟩

/-- **A canonical row is read back and written again**: its bytes parse, the
    package decoder makes a record of the triples, and the record has the same
    canonical row. -/
theorem canonicalRow_readBack {nfc : String → String} (hnfc : ∀ s, nfc (nfc s) = nfc s)
    {descriptors : Json} {schema : CanonicalSchema}
    (hschema : canonicalSchema nfc descriptors = .ok schema)
    (hbinary : schema.descriptors.hasBinary = false) {text : Bool} {offset : Option String}
    {v : PyValue} {b : Bytes} (h : schema.canonicalRow nfc text offset v = .ok b) :
    ∃ triples row, jsonLoads b = .ok triples ∧ logicalRecord triples schema.descriptors = .ok row ∧
      schema.canonicalRow nfc false none (PyValue.ofJson row) = .ok b := by
  obtain ⟨n, hn, h⟩ := Except.bind_eq_ok.1 h
  obtain ⟨⟨js, c⟩, hjs, h⟩ := Except.bind_eq_ok.1 h
  obtain ⟨encoded, hb, h⟩ := Except.bind_eq_ok.1 h
  split_ifs at h with hlimit
  · cases h
  cases h
  have hnormal := canonicalSchema_normalNames hnfc hschema
  obtain ⟨-, hloads⟩ := loadBytes_record hn hjs hb
  obtain ⟨l', hl', hnames, hagain⟩ := record_readBack hnfc schema.descriptors hbinary hnormal hjs
  obtain ⟨n', hn', hfinds⟩ := recordOf_readBack hnormal hnames
  have hdict : Json.dictOf l' = l' := Json.dictOf_of_nodup (hnames.nodup hnormal.names.1)
  refine ⟨.arr js, .obj l', ?_, ?_, ?_⟩
  · rw [jsonLoads, hloads]
  · rw [logicalRecord, items, Except.ok_bind, hl', Except.ok_bind, hdict]
    rfl
  · rw [CanonicalSchema.canonicalRow, PyValue.ofJson, hn', Except.ok_bind, hagain n' hfinds,
      Except.ok_bind]
    simp only
    rw [hb, Except.ok_bind, if_neg hlimit]
    rfl

/-- A text, and an object without one of its texts. -/
def pairRecord : PyValue :=
  .dict [(.text "b", .dict [(.text "y", .str "1")]), (.text "a", .str "0")]

theorem canonicalRow_readBack_pair : ∃ schema b triples row,
    canonicalSchema id (.arr [outerText, textAndPair [innerText "x", innerText "y"]]) = .ok schema ∧
    schema.canonicalRow id false none pairRecord = .ok b ∧ jsonLoads b = .ok triples ∧
    logicalRecord triples schema.descriptors = .ok row ∧
    schema.canonicalRow id false none (PyValue.ofJson row) = .ok b := by
  have hok : (canonicalSchema id
      (.arr [outerText, textAndPair [innerText "x", innerText "y"]]) >>= fun schema =>
        if schema.descriptors.hasBinary then refuse "binary"
        else schema.canonicalRow id false none pairRecord).isOk = true := by decide
  obtain ⟨b, hb⟩ := Except.exists_of_isOk hok
  obtain ⟨schema, hschema, hb⟩ := Except.bind_eq_ok.1 hb
  split_ifs at hb with hbinary
  · cases hb
  · obtain ⟨triples, row, htriples, hrow, hagain⟩ :=
      canonicalRow_readBack (fun _ => rfl) hschema (by simpa using hbinary) hb
    exact ⟨schema, b, triples, row, hschema, hb, htriples, hrow, hagain⟩

end AimData
