/-
  The order of fields does not matter to a schema.

  `Describes` says which type a tag and its parameters stand for, without the
  counters of `_type`: the constructor accepts what is described and has few
  enough types (`typeOf_counts`).  What is described is the same when the
  fields of an object are reordered, and when they are already in canonical
  order.
-/
import AimData.Canonical.SameValue
import AimData.Canonical.Row
import AimData.Lib.Rearranged

namespace AimData

/-! ## Descriptions -/

mutual
/-- The types that `_type` counts. -/
def LogicalType.size : LogicalType → ℕ
  | .array e => e.size + 1
  | .object fs => fs.size + 1
  | _ => 1

def Fields.size : Fields → ℕ
  | .nil => 0
  | .cons _ type _ rest => type.size + rest.size
end

section
variable (nfc : String → String) (D : String → Json → LogicalType → Prop)

/-- A descriptor declares a field, with its type described by `D`. -/
inductive Declares : Json → String × LogicalType × Bool → Prop
  | field {name tag : String} {nullable : Bool} {params : Json} {type : LogicalType}
      (length : 1 ≤ (nfc name).length ∧ (nfc name).length ≤ 255) (type_ok : D tag params type) :
      Declares (.arr [.str name, .str tag, .bool nullable, params]) (nfc name, type, nullable)

/-- A list of descriptors declares the fields, up to their order. -/
structure DeclaresAll (l : List Json) (out : List (String × LogicalType × Bool)) : Prop where
  nonempty : l ≠ []
  limit : l.length ≤ maxFields
  fields : List.Forall₂ (Declares nfc D) l out
  nodup : (out.map Prod.fst).Nodup

/-- One level of `_type`, its inner types described by `D`. -/
inductive TypeStep : String → Json → LogicalType → Prop
  | boolean : TypeStep "boolean" (.obj []) .boolean
  | signedInteger : TypeStep "signed_integer" (.obj []) .signedInteger
  | string : TypeStep "string" (.obj []) .string
  | date : TypeStep "date" (.obj []) .date
  | binary : TypeStep "binary" (.obj []) .binary
  | decimal {l : List (String × Json)} {p : DecimalParameters}
      (params : decimalParameters l = some p) : TypeStep "decimal" (.obj l) (.decimal p)
  | timestamp {l : List (String × Json)} {p : Fin 10} (params : timestampPrecision l = some p) :
      TypeStep "timestamp" (.obj l) (.timestamp p)
  | array {l e : List (String × Json)} {tag : String} {params : Json} {element : LogicalType}
      (keys : keysAre l ["element_type"] = true) (found : field? l "element_type" = some (.obj e))
      (inner : keysAre e ["type", "type_parameters"] = true)
      (tag_ok : field? e "type" = some (.str tag))
      (params_ok : field? e "type_parameters" = some params) (type_ok : D tag params element) :
      TypeStep "array" (.obj l) (.array element)
  | object {l : List (String × Json)} {raw descriptors : List Json}
      {out : List (String × LogicalType × Bool)}
      (keys : keysAre l ["object_fields"] = true) (found : field? l "object_fields" = some (.arr raw))
      (dicts : raw.mapM objectField = some descriptors) (declares : DeclaresAll nfc D descriptors out) :
      TypeStep "object" (.obj l) (.object (Fields.ofList (sortFields out)))

end

/-- The tag and the parameters describe the type, within some levels. -/
def Describes (nfc : String → String) : ℕ → String → Json → LogicalType → Prop
  | 0 => fun _ _ _ => False
  | levels + 1 => TypeStep nfc (Describes nfc levels)

/-! ## What the constructor accepts -/

theorem sortFields_perm (l : List (String × LogicalType × Bool)) : (sortFields l).Perm l :=
  List.perm_insertionSort _ l

theorem size_ofList (l : List (String × LogicalType × Bool)) :
    (Fields.ofList l).size = (l.map fun f => f.2.1.size).sum := by
  induction l with
  | nil => rfl
  | cons f l ih => rw [Fields.ofList, Fields.size, ih, List.map_cons, List.sum_cons]

theorem size_sortFields (l : List (String × LogicalType × Bool)) :
    (Fields.ofList (sortFields l)).size = (l.map fun f => f.2.1.size).sum := by
  rw [size_ofList]
  exact ((sortFields_perm l).map _).sum_eq

theorem LogicalType.size_pos (type : LogicalType) : 0 < type.size := by
  cases type <;> simp [size]

theorem countNode_ok {nodes n : ℕ} : countNode nodes = .ok n ↔ n = nodes + 1 ∧ n ≤ maxNodes := by
  rw [countNode]
  split_ifs with h
  · simp only [refuse, reduceCtorEq, false_iff]
    omega
  · simp only [Except.ok.injEq]
    omega

/-- The checker accepts what is described, and counts its types. -/
structure Counts
    (typeOf : String → Json → ℕ → Except CommitmentValidationError (LogicalType × ℕ))
    (D : String → Json → LogicalType → Prop) : Prop where
  ok_iff : ∀ {tag : String} {params : Json} {nodes n : ℕ} {type : LogicalType}, nodes ≤ maxNodes →
    (typeOf tag params nodes = .ok (type, n) ↔
      D tag params type ∧ n = nodes + type.size ∧ n ≤ maxNodes)

section
variable {nfc : String → String} {D : String → Json → LogicalType → Prop}
  {checker : String → Json → ℕ → Except CommitmentValidationError (LogicalType × ℕ)}

/-- The first descriptor of an accepted list. -/
theorem fieldsOf_cons_ok {d : Json} {l : List Json} {names : List String} {nodes n : ℕ}
    {out : List (String × LogicalType × Bool)} :
    fieldsOf nfc checker (d :: l) names nodes = .ok (out, n) ↔
      ∃ name tag nullable params type m rest,
        d = .arr [.str name, .str tag, .bool nullable, params] ∧
        (1 ≤ (nfc name).length ∧ (nfc name).length ≤ 255) ∧ nfc name ∉ names ∧
        checker tag params nodes = .ok (type, m) ∧
        fieldsOf nfc checker l (nfc name :: names) m = .ok (rest, n) ∧
        out = (nfc name, type, nullable) :: rest := by
  constructor
  · intro h
    unfold fieldsOf at h
    split at h
    · rename_i heq
      cases heq
    · rename_i names nodes _ _ _ name tag nullable params rest heq
      cases heq
      obtain ⟨s, hs, h⟩ := Except.bind_eq_ok.1 h
      cases name with
      | str name =>
        cases hs
        by_cases hlen : 1 ≤ (nfc name).length ∧ (nfc name).length ≤ 255
        · rw [if_neg (not_not.2 hlen)] at h
          by_cases hname : nfc name ∈ names
          · rw [if_pos hname] at h
            cases h
          · rw [if_neg hname] at h
            cases tag with
            | str tag =>
              cases nullable with
              | bool nullable =>
                obtain ⟨⟨type, m⟩, htype, h⟩ := Except.bind_eq_ok.1 h
                obtain ⟨⟨rest, k⟩, hrest, h⟩ := Except.bind_eq_ok.1 h
                cases h
                exact ⟨name, tag, nullable, params, type, m, rest, rfl, hlen, hname, htype, hrest,
                  rfl⟩
              | _ => cases h
            | _ => cases h
        · rw [if_pos hlen] at h
          cases h
      | _ => cases hs
    · cases h
  · rintro ⟨name, tag, nullable, params, type, m, rest, rfl, hlen, hname, htype, hrest, rfl⟩
    rw [fieldsOf, nfcJson, Except.ok_bind, if_neg (not_not.2 hlen), if_neg hname]
    dsimp only
    rw [htype, Except.ok_bind]
    dsimp only
    rw [hrest]
    rfl

theorem fieldsOf_ok (h : Counts checker D) {l : List Json} {names : List String} {nodes n : ℕ}
    {out : List (String × LogicalType × Bool)} (hn : nodes ≤ maxNodes) :
    fieldsOf nfc checker l names nodes = .ok (out, n) ↔
      List.Forall₂ (Declares nfc D) l out ∧ (out.map Prod.fst).Nodup ∧
        (∀ f ∈ out, f.1 ∉ names) ∧ n = nodes + (out.map fun f => f.2.1.size).sum ∧
        n ≤ maxNodes := by
  induction l generalizing names nodes n out with
  | nil =>
    simp only [fieldsOf, Except.ok.injEq, Prod.mk.injEq, List.forall₂_nil_left_iff]
    constructor
    · rintro ⟨rfl, rfl⟩
      simp [hn]
    · rintro ⟨rfl, -, -, rfl, -⟩
      simp
  | cons d l ih =>
    rw [fieldsOf_cons_ok]
    constructor
    · rintro ⟨name, tag, nullable, params, type, m, rest, rfl, hlen, hname, htype, hrest, rfl⟩
      obtain ⟨hD, rfl, hm⟩ := (h.ok_iff hn).1 htype
      obtain ⟨hl, hnodup, hnames, rfl, hle⟩ := (ih hm).1 hrest
      refine ⟨.cons (.field hlen hD) hl, ?_, ?_, ?_, hle⟩
      · rw [List.map_cons, List.nodup_cons, List.mem_map]
        refine ⟨?_, hnodup⟩
        rintro ⟨f, hf, he⟩
        exact hnames f hf (by simp [he])
      · intro f hf
        rcases List.mem_cons.1 hf with rfl | hf
        · exact hname
        · exact fun hmem => hnames f hf (List.mem_cons_of_mem _ hmem)
      · rw [List.map_cons, List.sum_cons]
        dsimp only
        omega
    · rintro ⟨hall, hnodup, hnames, rfl, hle⟩
      cases hall with
      | @cons _ f _ rest hd hl =>
        obtain ⟨hlen, hD⟩ := hd
        rename_i name tag nullable params type
        rw [List.map_cons, List.sum_cons] at hle
        rw [List.map_cons, List.nodup_cons] at hnodup
        dsimp only at hle
        refine ⟨name, tag, nullable, params, type, nodes + type.size, rest, rfl, hlen,
          hnames _ List.mem_cons_self, (h.ok_iff hn).2 ⟨hD, rfl, by omega⟩, ?_, rfl⟩
        refine (ih (by omega)).2 ⟨hl, hnodup.2, fun f hf => ?_, ?_, ?_⟩
        · rw [List.mem_cons, not_or]
          refine ⟨fun he => hnodup.1 ?_, hnames f (List.mem_cons_of_mem _ hf)⟩
          exact List.mem_map.2 ⟨f, hf, he⟩
        · rw [List.map_cons, List.sum_cons]
          dsimp only
          omega
        · rw [List.map_cons, List.sum_cons]
          dsimp only
          omega

theorem fields_ok (h : Counts checker D) {raw : Json} {nodes n : ℕ} {fs : Fields}
    (hn : nodes ≤ maxNodes) :
    fields nfc checker raw nodes = .ok (fs, n) ↔
      ∃ l out, raw = .arr l ∧ DeclaresAll nfc D l out ∧ fs = Fields.ofList (sortFields out) ∧
        n = nodes + fs.size ∧ n ≤ maxNodes := by
  constructor
  · intro hok
    unfold fields at hok
    split at hok
    · cases hok
    · rename_i l hne
      split_ifs at hok with hlimit
      · cases hok
      · obtain ⟨⟨out, m⟩, hout, hok⟩ := Except.bind_eq_ok.1 hok
        cases hok
        obtain ⟨hl, hnodup, -, rfl, hle⟩ := (fieldsOf_ok h hn).1 hout
        exact ⟨l, out, rfl, ⟨hne, not_lt.1 hlimit, hl, hnodup⟩, rfl, by rw [size_sortFields], hle⟩
    · cases hok
  · rintro ⟨l, out, rfl, hd, rfl, rfl, hle⟩
    rw [size_sortFields] at hle ⊢
    have hout : fieldsOf nfc checker l [] nodes = .ok (out, nodes + (out.map fun f => f.2.1.size).sum) :=
      (fieldsOf_ok h hn).2 ⟨hd.fields, hd.nodup, fun _ _ => List.not_mem_nil, rfl, hle⟩
    cases l with
    | nil => exact absurd rfl hd.nonempty
    | cons d l =>
      rw [fields, if_neg (not_lt.2 hd.limit), hout]
      · rfl
      · simp

theorem sourceNames_ok {l : List Json} {out : List (String × LogicalType × Bool)}
    (h : List.Forall₂ (Declares nfc D) l out) : ∃ names, l.mapM (sourceName nfc) = .ok names := by
  induction h with
  | nil => exact ⟨[], rfl⟩
  | cons hd hl ih =>
    obtain ⟨names, hnames⟩ := ih
    obtain ⟨hlen, hD⟩ := hd
    rename_i name _ _ _ _
    refine ⟨nfc name :: names, List.mapM_cons_ok.2 ⟨nfc name, names, rfl, hnames, rfl⟩⟩

/-- **The constructor counts what is described**: one level. -/
theorem Counts.succ {levels : ℕ} (ih : Counts (typeOf nfc levels) (Describes nfc levels)) :
    Counts (typeOf nfc (levels + 1)) (Describes nfc (levels + 1)) := by
  refine ⟨fun {tag params nodes n type} hn => ⟨fun h => ?_, ?_⟩⟩
  · unfold typeOf at h
    obtain ⟨m, hm, h⟩ := Except.bind_eq_ok.1 h
    obtain ⟨rfl, hle⟩ := countNode_ok.1 hm
    split at h
    · rename_i l
      split at h
      · rename_i p hp
        cases h
        exact ⟨.decimal hp, rfl, hle⟩
      · cases h
    · rename_i l
      split at h
      · rename_i p hp
        cases h
        exact ⟨.timestamp hp, rfl, hle⟩
      · cases h
    · rename_i l
      split at h
      · rename_i e hkeys hfound
        by_cases hinner : keysAre e ["type", "type_parameters"] = true
        · rw [if_pos hinner] at h
          split at h
          · rename_i tag params htag hparams
            obtain ⟨⟨element, m⟩, helement, h⟩ := Except.bind_eq_ok.1 h
            cases h
            obtain ⟨hD, rfl, hle⟩ := (ih.ok_iff hle).1 helement
            refine ⟨.array hkeys hfound hinner htag hparams hD, ?_, hle⟩
            rw [LogicalType.size]
            omega
          · obtain ⟨_, _, h⟩ := Except.bind_eq_ok.1 h
            by_cases hlevels : levels = 0
            · rw [if_pos hlevels] at h
              cases h
            · rw [if_neg hlevels] at h
              cases h
        · rw [if_neg hinner] at h
          cases h
      · cases h
    · rename_i l
      split at h
      · rename_i raw hkeys hfound
        split at h
        · rename_i descriptors hdicts
          obtain ⟨⟨fs, m⟩, hfs, h⟩ := Except.bind_eq_ok.1 h
          cases h
          obtain ⟨l, out, hl, hd, rfl, rfl, hle⟩ := (fields_ok ih hle).1 hfs
          cases hl
          refine ⟨.object hkeys hfound hdicts hd, ?_, hle⟩
          rw [LogicalType.size]
          omega
        · cases h
      · cases h
    · cases h; exact ⟨.boolean, rfl, hle⟩
    · cases h; exact ⟨.signedInteger, rfl, hle⟩
    · cases h; exact ⟨.string, rfl, hle⟩
    · cases h; exact ⟨.date, rfl, hle⟩
    · cases h; exact ⟨.binary, rfl, hle⟩
    · split_ifs at h
      · cases h
      · cases h
    · split_ifs at h
      · cases h
      · cases h
  · rintro ⟨hD, rfl, hle⟩
    have hpos := type.size_pos
    have hcount : countNode nodes = .ok (nodes + 1) := countNode_ok.2 ⟨rfl, by omega⟩
    rw [typeOf, hcount, Except.ok_bind]
    cases hD with
    | boolean => rfl
    | signedInteger => rfl
    | string => rfl
    | date => rfl
    | binary => rfl
    | decimal hp =>
      simp only [hp]
      rfl
    | timestamp hp =>
      simp only [hp]
      rfl
    | @array l e tag params element hkeys hfound hinner htag hparams hD =>
      rw [LogicalType.size] at hle ⊢
      simp only
      rw [hkeys, hfound]
      dsimp only
      rw [if_pos hinner, htag, hparams]
      dsimp only
      rw [(ih.ok_iff (by omega)).2 ⟨hD, rfl, by omega⟩, Except.ok_bind, Except.pure_eq_ok]
      congr 2
      omega
    | @object l raw descriptors out hkeys hfound hdicts hd =>
      rw [LogicalType.size] at hle ⊢
      simp only
      rw [hkeys, hfound]
      dsimp only
      rw [hdicts]
      dsimp only
      rw [(fields_ok ih (by omega)).2 ⟨descriptors, out, rfl, hd, rfl, rfl, by omega⟩,
        Except.ok_bind, Except.pure_eq_ok]
      congr 2
      omega

/-- **The constructor accepts what is described** and has few enough types. -/
theorem typeOf_counts (levels : ℕ) : Counts (typeOf nfc levels) (Describes nfc levels) := by
  induction levels with
  | zero =>
    refine ⟨fun hn => ⟨fun h => ?_, fun h => h.1.elim⟩⟩
    obtain ⟨m, -, h⟩ := Except.bind_eq_ok.1 h
    cases h
  | succ levels ih => exact ih.succ

/-! ## Reordered fields -/

/-- The same parameters with the lists in them, at every depth, in any order. -/
inductive Reordered : Json → Json → Prop
  | same (v : Json) : Reordered v v
  | list {l m l' : List Json} (items : List.Forall₂ Reordered l m) (order : m.Perm l') :
      Reordered (.arr l) (.arr l')
  | dict {l l' : List (String × Json)} (keys : l.map Prod.fst = l'.map Prod.fst)
      (values : List.Forall₂ Reordered (l.map Prod.snd) (l'.map Prod.snd)) :
      Reordered (.obj l) (.obj l')

/-- The same descriptor with the fields of its type reordered. -/
inductive ReorderedField : Json → Json → Prop
  | field {name tag nullable params params' : Json} (inner : Reordered params params') :
      ReorderedField (.arr [name, tag, nullable, params]) (.arr [name, tag, nullable, params'])

/-- **The declared fields permuted**, and the fields of nested objects at every
    depth. -/
def Permuted (l l' : List Json) : Prop := Rearranged ReorderedField l l'

theorem Reordered.str {s : String} {w : Json} (h : Reordered (.str s) w) : w = .str s := by
  cases h
  rfl

theorem Reordered.int {i : ℤ} {w : Json} (h : Reordered (.int i) w) : w = .int i := by
  cases h
  rfl

theorem Reordered.arr {l : List Json} {w : Json} (h : Reordered (.arr l) w) :
    ∃ l', w = .arr l' ∧ Rearranged Reordered l l' := by
  cases h with
  | same => exact ⟨l, rfl, l, List.forall₂_same.2 fun v _ => .same v, .refl _⟩
  | list items order => exact ⟨_, rfl, _, items, order⟩

/-- The items of two dicts correspond. -/
def ReorderedItems (l l' : List (String × Json)) : Prop :=
  List.Forall₂ (fun f g => f.1 = g.1 ∧ Reordered f.2 g.2) l l'

theorem Reordered.obj {l : List (String × Json)} {w : Json} (h : Reordered (.obj l) w) :
    ∃ l', w = .obj l' ∧ ReorderedItems l l' := by
  cases h with
  | same => exact ⟨l, rfl, List.forall₂_same.2 fun f _ => ⟨rfl, .same f.2⟩⟩
  | dict keys values => exact ⟨_, rfl, forall₂_items.2 ⟨keys, values⟩⟩

theorem ReorderedItems.keysAre {l l' : List (String × Json)} (h : ReorderedItems l l')
    (keys : List String) : keysAre l' keys = keysAre l keys := by
  have hkeys := (forall₂_items.1 h).1
  have hall : ∀ m : List (String × Json),
      (m.all fun f => decide (f.1 ∈ keys)) = (m.map Prod.fst).all fun k => decide (k ∈ keys) :=
    fun m => by rw [List.all_map]; rfl
  rw [AimData.keysAre, AimData.keysAre, hall, hall, hkeys]

theorem ReorderedItems.field? {l l' : List (String × Json)} {key : String} {v : Json}
    (h : ReorderedItems l l') (hv : field? l key = some v) :
    ∃ v', AimData.field? l' key = some v' ∧ Reordered v v' := by
  induction h with
  | nil => cases hv
  | @cons f g l l' hf _ ih =>
    rw [AimData.field?] at hv ih ⊢
    by_cases hkey : f.1 = key
    · rw [List.find?_cons_of_pos (by simpa using hkey)] at hv
      rw [List.find?_cons_of_pos (by simpa [← hf.1] using hkey)]
      cases hv
      exact ⟨g.2, rfl, hf.2⟩
    · rw [List.find?_cons_of_neg (by simpa using hkey)] at hv
      rw [List.find?_cons_of_neg (by simpa [← hf.1] using hkey)]
      exact ih hv

theorem decimalParameters_some {l : List (String × Json)} {p : DecimalParameters}
    (h : decimalParameters l = some p) : keysAre l ["precision", "scale"] = true ∧
      ∃ precision scale, field? l "precision" = some (.int precision) ∧
        field? l "scale" = some (.int scale) := by
  unfold decimalParameters at h
  split at h
  · rename_i hkeys
    split at h
    · rename_i precision scale hp hs
      exact ⟨hkeys, precision, scale, hp, hs⟩
    · cases h
  · cases h

theorem timestampPrecision_some {l : List (String × Json)} {p : Fin 10}
    (h : timestampPrecision l = some p) : keysAre l ["timestamp_precision"] = true ∧
      ∃ precision, field? l "timestamp_precision" = some (.int precision) := by
  unfold timestampPrecision at h
  split at h
  · rename_i hkeys
    split at h
    · rename_i precision hp
      exact ⟨hkeys, precision, hp⟩
    · cases h
  · cases h

theorem ReorderedItems.int {l l' : List (String × Json)} {key : String} {i : ℤ}
    (h : ReorderedItems l l') (hi : AimData.field? l key = some (.int i)) :
    AimData.field? l' key = AimData.field? l key := by
  obtain ⟨v, hv, hr⟩ := h.field? hi
  rw [hv, hi, hr.int]

theorem ReorderedItems.decimalParameters {l l' : List (String × Json)} {p : DecimalParameters}
    (h : ReorderedItems l l') (hp : decimalParameters l = some p) :
    AimData.decimalParameters l' = some p := by
  obtain ⟨-, precision, scale, hprecision, hscale⟩ := decimalParameters_some hp
  rw [← hp, AimData.decimalParameters, AimData.decimalParameters, h.keysAre, h.int hprecision,
    h.int hscale]

theorem ReorderedItems.timestampPrecision {l l' : List (String × Json)} {p : Fin 10}
    (h : ReorderedItems l l') (hp : timestampPrecision l = some p) :
    AimData.timestampPrecision l' = some p := by
  obtain ⟨-, precision, hprecision⟩ := timestampPrecision_some hp
  rw [← hp, AimData.timestampPrecision, AimData.timestampPrecision, h.keysAre, h.int hprecision]

theorem ReorderedItems.nil {l' : List (String × Json)} (h : ReorderedItems [] l') : l' = [] := by
  cases h
  rfl

theorem objectField_some {v d : Json} (h : objectField v = some d) : ∃ l name tag nullable params,
    v = .obj l ∧ keysAre l ["name", "type", "nullable", "type_parameters"] = true ∧
      field? l "name" = some name ∧ field? l "type" = some tag ∧
      field? l "nullable" = some nullable ∧ field? l "type_parameters" = some params ∧
      d = .arr [name, tag, nullable, params] := by
  unfold objectField at h
  split at h
  · rename_i l
    split at h
    · rename_i hkeys
      simp only [Option.bind_eq_bind, Option.bind_eq_some_iff, Option.pure_def,
        Option.some.injEq] at h
      obtain ⟨name, hname, tag, htag, nullable, hnullable, params, hparams, rfl⟩ := h
      exact ⟨l, name, tag, nullable, params, rfl, hkeys, hname, htag, hnullable, hparams, rfl⟩
    · cases h
  · cases h

/-- A relation of tags, parameters and types that does not see the order of
    fields. -/
def Orderless (D : String → Json → LogicalType → Prop) : Prop :=
  ∀ ⦃tag params params' type⦄, Reordered params params' → D tag params type → D tag params' type

section
variable {D : String → Json → LogicalType → Prop}

theorem Orderless.declares (hD : Orderless D) {d d' : Json} {f : String × LogicalType × Bool}
    (h : ReorderedField d d') (hd : Declares nfc D d f) : Declares nfc D d' f := by
  obtain ⟨hinner⟩ := h
  obtain ⟨hlen, htype⟩ := hd
  exact .field hlen (hD hinner htype)

/-- A field of an object type, with its descriptor reordered. -/
theorem Orderless.objectField (hD : Orderless D) {v w : Json} {f : String × LogicalType × Bool}
    (h : Reordered v w) (hv : ∃ d, objectField v = some d ∧ Declares nfc D d f) :
    ∃ d, objectField w = some d ∧ Declares nfc D d f := by
  obtain ⟨d, hd, hf⟩ := hv
  obtain ⟨l, name, tag, nullable, params, rfl, hkeys, hname, htag, hnullable, hparams, rfl⟩ :=
    objectField_some hd
  obtain ⟨l', rfl, hitems⟩ := h.obj
  obtain ⟨hlen, htype⟩ := hf
  obtain ⟨name, hname', hrname⟩ := hitems.field? hname
  obtain ⟨tag, htag', hrtag⟩ := hitems.field? htag
  obtain ⟨nullable, hnullable', hrnullable⟩ := hitems.field? hnullable
  obtain ⟨params, hparams', hinner⟩ := hitems.field? hparams
  obtain rfl := hrname.str
  obtain rfl := hrtag.str
  cases hrnullable
  refine ⟨_, ?_, .field hlen (hD hinner htype)⟩
  rw [AimData.objectField, if_pos ((hitems.keysAre _).trans hkeys), hname', htag', hnullable',
    hparams']
  rfl

theorem DeclaresAll.perm {l l' : List Json} {out out' : List (String × LogicalType × Bool)}
    (h : DeclaresAll nfc D l out) (hlength : l.length = l'.length)
    (hfields : List.Forall₂ (Declares nfc D) l' out') (hout : out.Perm out') :
    DeclaresAll nfc D l' out' := by
  refine ⟨fun hl => h.nonempty ?_, hlength ▸ h.limit, hfields,
    ((hout.map Prod.fst).nodup_iff).1 h.nodup⟩
  rw [hl] at hlength
  exact List.length_eq_zero_iff.1 hlength

/-- The order of names by their UTF-8 bytes. -/
theorem encode_le_antisymm {a b : String} (h : Utf8.encode a.toList ≤ Utf8.encode b.toList)
    (h' : Utf8.encode b.toList ≤ Utf8.encode a.toList) : a = b :=
  String.toList_inj.1 (Utf8.encode_inj (List.le_antisymm h h'))

theorem sortFields_unique {l m : List (String × LogicalType × Bool)}
    (hnodup : (l.map Prod.fst).Nodup) (h : l.Perm m) : sortFields l = sortFields m :=
  sorted_unique (fun _ _ => encode_le_antisymm)
    (((sortFields_perm l).map Prod.fst).nodup_iff.2 hnodup)
    (List.pairwise_insertionSort _ l) (List.pairwise_insertionSort _ m)
    ((sortFields_perm l).trans (h.trans (sortFields_perm m).symm))

/-- The permuted descriptors declare the permuted fields. -/
theorem DeclaresAll.permuted (hD : Orderless D) {l l' : List Json}
    {out : List (String × LogicalType × Bool)} (h : DeclaresAll nfc D l out)
    (hl : Permuted l l') : ∃ out', DeclaresAll nfc D l' out' ∧ sortFields out' = sortFields out := by
  obtain ⟨out', hfields, hout⟩ := Rearranged.transport hl h.fields fun d d' f hd hf =>
    ⟨f, hD.declares hd hf, rfl⟩
  have hperm := rearranged_eq hout
  exact ⟨out', h.perm hl.length hfields hperm, (sortFields_unique h.nodup hperm).symm⟩

/-- **One level does not see the order of fields.** -/
theorem Orderless.step (hD : Orderless D) : Orderless (TypeStep nfc D) := by
  intro tag params params' type hr h
  cases h with
  | boolean | signedInteger | string | date | binary =>
    obtain ⟨l', rfl, hitems⟩ := hr.obj
    obtain rfl := hitems.nil
    constructor
  | decimal hp =>
    obtain ⟨l', rfl, hitems⟩ := hr.obj
    exact .decimal (hitems.decimalParameters hp)
  | timestamp hp =>
    obtain ⟨l', rfl, hitems⟩ := hr.obj
    exact .timestamp (hitems.timestampPrecision hp)
  | array hkeys hfound hinner htag hparams htype =>
    obtain ⟨l', rfl, hitems⟩ := hr.obj
    obtain ⟨v, hfound', hv⟩ := hitems.field? hfound
    obtain ⟨e', rfl, he⟩ := hv.obj
    obtain ⟨t, htag', ht⟩ := he.field? htag
    obtain rfl := ht.str
    obtain ⟨p, hparams', hp⟩ := he.field? hparams
    exact .array ((hitems.keysAre _).trans hkeys) hfound' ((he.keysAre _).trans hinner) htag'
      hparams' (hD hp htype)
  | @object l raw descriptors out hkeys hfound hdicts hd =>
    obtain ⟨l', rfl, hitems⟩ := hr.obj
    obtain ⟨v, hfound', hv⟩ := hitems.field? hfound
    obtain ⟨raw', rfl, hraw⟩ := hv.arr
    have hboth := forall₂_comp.2 ⟨descriptors, mapM_forall₂.1 hdicts, hd.fields⟩
    obtain ⟨out', hboth', hout⟩ := hraw.transport hboth fun v w f hvw hf =>
      ⟨f, hD.objectField hvw hf, rfl⟩
    obtain ⟨descriptors', hdicts', hfields⟩ := forall₂_comp.1 hboth'
    have hperm := rearranged_eq hout
    have hlength : descriptors.length = descriptors'.length := by
      rw [hd.fields.length_eq, hperm.length_eq, hfields.length_eq]
    rw [sortFields_unique hd.nodup hperm]
    exact .object ((hitems.keysAre _).trans hkeys) hfound' (mapM_forall₂.2 hdicts')
      (hd.perm hlength hfields hperm)

end

theorem orderless_describes (levels : ℕ) : Orderless (Describes nfc levels) := by
  induction levels with
  | zero => exact fun _ _ _ _ _ h => h
  | succ levels ih => exact ih.step

/-! ## Normalized descriptors -/

/-- The descriptor of a field. -/
def descriptorOf (f : String × LogicalType × Bool) : Json :=
  .arr [.str f.1, .str f.2.1.tag, .bool f.2.2, f.2.1.parameters]

/-- The item of `object_fields` of a field. -/
def objectOf (f : String × LogicalType × Bool) : Json :=
  .obj [("name", .str f.1), ("type", .str f.2.1.tag), ("nullable", .bool f.2.2),
    ("type_parameters", f.2.1.parameters)]

theorem descriptors_ofList (l : List (String × LogicalType × Bool)) :
    (Fields.ofList l).descriptors = l.map descriptorOf := by
  induction l with
  | nil => rfl
  | cons f l ih => rw [Fields.ofList, Fields.descriptors, ih]; rfl

theorem objects_ofList (l : List (String × LogicalType × Bool)) :
    (Fields.ofList l).objects = l.map objectOf := by
  induction l with
  | nil => rfl
  | cons f l ih => rw [Fields.ofList, Fields.objects, ih]; rfl

theorem decimalParameters_own (p : DecimalParameters) :
    decimalParameters [("precision", .int p.precision), ("scale", .int p.scale)] = some p := by
  obtain ⟨precision, scale, hpos, hle, hscale⟩ := p
  have hbounds : ((1 : ℤ) ≤ precision ∧ (precision : ℤ) ≤ 1000) ∧ (0 : ℤ) ≤ scale ∧
      (scale : ℤ) ≤ precision := by omega
  simp [decimalParameters, keysAre, field?, hbounds]

theorem timestampPrecision_own (p : Fin 10) :
    timestampPrecision [("timestamp_precision", .int p.1)] = some p := by
  have hbounds : (0 : ℤ) ≤ p.1 ∧ (p.1 : ℤ) ≤ 9 := by omega
  simp [timestampPrecision, keysAre, field?, hbounds]

section
variable {D : String → Json → LogicalType → Prop}

/-- What is described is described by its own tag and parameters. -/
def Own (D : String → Json → LogicalType → Prop) : Prop :=
  ∀ ⦃tag params type⦄, D tag params type → D type.tag type.parameters type

theorem Own.declares (hD : Own D) (hnfc : ∀ s, nfc (nfc s) = nfc s) {d : Json}
    {f : String × LogicalType × Bool} (hd : Declares nfc D d f) :
    Declares nfc D (descriptorOf f) f := by
  cases hd with
  | @field name tag nullable params type hlen htype =>
    have hown := @Declares.field nfc D (nfc name) type.tag nullable type.parameters type
      (by rwa [hnfc]) (hD htype)
    rwa [hnfc] at hown

/-- Fields in canonical order declare themselves. -/
theorem Own.declaresAll (hD : Own D) (hnfc : ∀ s, nfc (nfc s) = nfc s) {l : List Json}
    {out : List (String × LogicalType × Bool)} (h : DeclaresAll nfc D l out) :
    DeclaresAll nfc D ((sortFields out).map descriptorOf) (sortFields out) := by
  have hperm := sortFields_perm out
  have hlength : l.length = ((sortFields out).map descriptorOf).length := by
    rw [List.length_map, hperm.length_eq, h.fields.length_eq]
  refine h.perm hlength ?_ hperm.symm
  rw [List.forall₂_map_left_iff, List.forall₂_same]
  intro f hf
  obtain ⟨d, -, hd⟩ := forall₂_mem_right h.fields (hperm.subset hf)
  exact hD.declares hnfc hd

theorem objectField_objectOf (f : String × LogicalType × Bool) :
    objectField (objectOf f) = some (descriptorOf f) := by
  simp [objectOf, objectField, keysAre, field?, descriptorOf]

theorem sortFields_sorted (l : List (String × LogicalType × Bool)) :
    sortFields (sortFields l) = sortFields l :=
  (List.pairwise_insertionSort _ l).insertionSort_eq

/-- **One level describes its own parameters.** -/
theorem Own.step (hD : Own D) (hnfc : ∀ s, nfc (nfc s) = nfc s) : Own (TypeStep nfc D) := by
  intro tag params type h
  cases h with
  | boolean => exact .boolean
  | signedInteger => exact .signedInteger
  | string => exact .string
  | date => exact .date
  | binary => exact .binary
  | decimal => exact .decimal (decimalParameters_own _)
  | timestamp => exact .timestamp (timestampPrecision_own _)
  | array _ _ _ _ _ htype =>
    refine .array ?_ rfl ?_ rfl rfl (hD htype)
    · simp [keysAre]
    · simp [keysAre]
  | @object l raw descriptors out _ _ _ hd =>
    rw [LogicalType.parameters, objects_ofList]
    have hdicts : ((sortFields out).map objectOf).mapM objectField =
        some ((sortFields out).map descriptorOf) := by
      rw [mapM_forall₂, List.forall₂_map_left_iff, List.forall₂_map_right_iff, List.forall₂_same]
      exact fun f _ => objectField_objectOf f
    have hown : TypeStep nfc D "object"
        (.obj [("object_fields", .arr ((sortFields out).map objectOf))])
        (.object (Fields.ofList (sortFields (sortFields out)))) :=
      .object (by simp [keysAre]) rfl hdicts (hD.declaresAll hnfc hd)
    rw [sortFields_sorted] at hown
    exact hown

end

theorem own_describes (hnfc : ∀ s, nfc (nfc s) = nfc s) (levels : ℕ) :
    Own (Describes nfc levels) := by
  induction levels with
  | zero => exact fun _ _ _ h => h
  | succ levels ih => exact ih.step hnfc

/-! ## Schemas -/

theorem canonicalSchema_ok {l : List Json} {schema : CanonicalSchema}
    (h : canonicalSchema nfc (.arr l) = .ok schema) :
    ∃ out, DeclaresAll nfc (Describes nfc (maxDepth + 1)) l out ∧
      schema.descriptors = Fields.ofList (sortFields out) ∧ schema.descriptors.size ≤ maxNodes := by
  obtain ⟨⟨fs, n⟩, hfs, h⟩ := Except.bind_eq_ok.1 h
  obtain ⟨names, -, h⟩ := Except.bind_eq_ok.1 h
  obtain ⟨l', out, hl, hd, hsort, hn, hle⟩ := (fields_ok (typeOf_counts _) (Nat.zero_le _)).1 hfs
  cases hl
  dsimp only at h
  split at h
  · cases h
    exact ⟨out, hd, hsort, by dsimp only; omega⟩
  · cases h

/-- **A schema of what is declared**, if it is small enough and has a text. -/
theorem canonicalSchema_of_declares {l : List Json} {out : List (String × LogicalType × Bool)}
    {schema : CanonicalSchema} (h : DeclaresAll nfc (Describes nfc (maxDepth + 1)) l out)
    (hsort : schema.descriptors = Fields.ofList (sortFields out))
    (hsize : schema.descriptors.size ≤ maxNodes) :
    ∃ schema', canonicalSchema nfc (.arr l) = .ok schema' ∧
      schema'.descriptors = schema.descriptors ∧ schema'.digest = schema.digest := by
  obtain ⟨names, hnames⟩ := sourceNames_ok h.fields
  have hfs : fields nfc (typeOf nfc (maxDepth + 1)) (.arr l) 0 =
      .ok (schema.descriptors, schema.descriptors.size) :=
    (fields_ok (typeOf_counts _) (Nat.zero_le _)).2 ⟨l, out, rfl, h, hsort, by omega, hsize⟩
  refine ⟨⟨schema.descriptors, names, schema.bytes, schema.canonical⟩, ?_, rfl, rfl⟩
  rw [canonicalSchema, hfs, Except.ok_bind]
  dsimp only
  rw [hnames, Except.ok_bind]
  split
  · rename_i bytes hbytes
    have hsame : bytes = schema.bytes := Except.ok.inj (hbytes.symm.trans schema.canonical)
    subst hsame
    rfl
  · rename_i e he
    rw [schema.canonical] at he
    cases he

end

/-! ## Records with their keys in another order -/

open CanonicalSchema

/-- The same value with the keys of its dicts, at every depth, in any order. -/
inductive Rekeyed : PyValue → PyValue → Prop
  | same (v : PyValue) : Rekeyed v v
  | list {l l' : List PyValue} (items : List.Forall₂ Rekeyed l l') : Rekeyed (.list l) (.list l')
  | dict {l m l' : List (PyKey × PyValue)} (keys : l.map Prod.fst = m.map Prod.fst)
      (values : List.Forall₂ Rekeyed (l.map Prod.snd) (m.map Prod.snd)) (order : m.Perm l') :
      Rekeyed (.dict l) (.dict l')

/-- Two keys with the same value up to the order of keys in it. -/
def SameItem {κ : Type} (f g : κ × PyValue) : Prop := f.1 = g.1 ∧ Rekeyed f.2 g.2

theorem Rekeyed.of_rearranged {l l' : List (PyKey × PyValue)} (h : Rearranged SameItem l l') :
    Rekeyed (.dict l) (.dict l') := by
  obtain ⟨m, hm, hperm⟩ := h
  obtain ⟨hkeys, hvalues⟩ := forall₂_items.1 hm
  exact .dict hkeys hvalues hperm

theorem Rekeyed.symm {v w : PyValue} (h : Rekeyed v w) : Rekeyed w v := by
  refine @Rekeyed.rec (fun v w _ => Rekeyed w v) (fun l l' _ => List.Forall₂ Rekeyed l' l)
    ?same ?list ?dict ?nil ?cons v w h
  case same => exact fun v => .same v
  case list => exact fun _ ih => .list ih
  case dict =>
    intro l m l' hkeys _ hperm ih
    obtain ⟨k, hk, hperm'⟩ := List.perm_comp_forall₂ hperm.symm
      (forall₂_items.2 ⟨hkeys.symm, ih⟩ : List.Forall₂ SameItem m l)
    exact .of_rearranged ⟨k, hk, hperm'⟩
  case nil => exact .nil
  case cons => exact fun _ _ ih ihs => .cons ih ihs

section
variable {nfc : String → String} {text : Bool} {offset : Option String}

/-- A key with its normalized name. -/
def Named (nfc : String → String) (f : PyKey × PyValue) (g : String × PyValue) : Prop :=
  ∃ key, f.1 = .text key ∧ g = (nfc key, f.2)

theorem normalizeKeys_ok {l : List (PyKey × PyValue)} {names : List String}
    {n : List (String × PyValue)} : normalizeKeys nfc l names = .ok n ↔
      List.Forall₂ (Named nfc) l n ∧ (n.map Prod.fst).Nodup ∧ ∀ g ∈ n, g.1 ∉ names := by
  induction l generalizing names n with
  | nil =>
    rw [normalizeKeys, List.forall₂_nil_left_iff, Except.ok.injEq]
    constructor
    · rintro rfl
      simp
    · rintro ⟨rfl, -⟩
      rfl
  | cons f l ih =>
    obtain ⟨key, v⟩ := f
    cases key with
    | broken =>
      rw [normalizeKeys]
      constructor
      · intro h
        cases h
      · rintro ⟨h, -⟩
        cases h with
        | cons hf _ =>
          obtain ⟨key, hkey, -⟩ := hf
          cases hkey
    | text key =>
      rw [normalizeKeys]
      constructor
      · intro h
        split_ifs at h with hmem
        · cases h
        · obtain ⟨rest, hrest, h⟩ := Except.bind_eq_ok.1 h
          cases h
          obtain ⟨hl, hnodup, hnames⟩ := ih.1 hrest
          refine ⟨.cons ⟨key, rfl, rfl⟩ hl, ?_, ?_⟩
          · rw [List.map_cons, List.nodup_cons, List.mem_map]
            refine ⟨?_, hnodup⟩
            rintro ⟨g, hg, he⟩
            exact hnames g hg (by simp [he])
          · intro g hg
            rcases List.mem_cons.1 hg with rfl | hg
            · exact hmem
            · exact fun h => hnames g hg (List.mem_cons_of_mem _ h)
      · rintro ⟨h, hnodup, hnames⟩
        cases h with
        | @cons _ g _ rest hf hl =>
          obtain ⟨key', hkey, rfl⟩ := hf
          cases hkey
          rw [List.map_cons, List.nodup_cons] at hnodup
          rw [if_neg (hnames _ List.mem_cons_self), ih.2 ⟨hl, hnodup.2, fun g hg => ?_⟩]
          · rfl
          · rw [List.mem_cons, not_or]
            refine ⟨fun he => hnodup.1 (List.mem_map.2 ⟨g, hg, he⟩),
              hnames g (List.mem_cons_of_mem _ hg)⟩

theorem lookup_some_iff {n : List (String × PyValue)} (hnodup : (n.map Prod.fst).Nodup)
    {name : String} {v : PyValue} : CanonicalSchema.lookup n name = some v ↔ (name, v) ∈ n := by
  induction n with
  | nil => simp [CanonicalSchema.lookup]
  | cons f n ih =>
    obtain ⟨k, w⟩ := f
    rw [List.map_cons, List.nodup_cons] at hnodup
    have ih := ih hnodup.2
    rw [CanonicalSchema.lookup] at ih ⊢
    by_cases hk : k = name
    · subst hk
      rw [List.find?_cons_of_pos (by simp), List.mem_cons]
      simp only [Option.map_some, Option.some.injEq, Prod.mk.injEq, true_and]
      refine ⟨fun h => Or.inl h.symm, ?_⟩
      rintro (rfl | h)
      · rfl
      · exact absurd (List.mem_map.2 ⟨_, h, rfl⟩) hnodup.1
    · rw [List.find?_cons_of_neg (by simpa using hk), ih, List.mem_cons]
      simp [Ne.symm hk]

/-- The same names, with the same values up to the order of keys in them. -/
def Alike (n n' : List (String × PyValue)) : Prop :=
  ∀ name, Option.Rel Rekeyed (CanonicalSchema.lookup n name) (CanonicalSchema.lookup n' name)

theorem alike_of_rearranged {n n' : List (String × PyValue)} (h : Rearranged SameItem n n')
    (hnodup : (n.map Prod.fst).Nodup) (hnodup' : (n'.map Prod.fst).Nodup) : Alike n n' := by
  obtain ⟨m, hm, hperm⟩ := h
  intro name
  cases hl : CanonicalSchema.lookup n name with
  | some v =>
    have hmem := (lookup_some_iff hnodup).1 hl
    obtain ⟨⟨k, w⟩, hw, hk, hvw⟩ := forall₂_mem_right hm.flip hmem
    dsimp only at hk
    subst hk
    rw [(lookup_some_iff hnodup').2 (hperm.subset hw)]
    exact .some hvw
  | none =>
    cases hl' : CanonicalSchema.lookup n' name with
    | none => exact .none
    | some w =>
      have hmem := hperm.symm.subset ((lookup_some_iff hnodup').1 hl')
      obtain ⟨⟨k, v⟩, hv, hk, -⟩ := forall₂_mem_right hm hmem
      dsimp only at hk
      subst hk
      rw [(lookup_some_iff hnodup).2 hv] at hl
      cases hl

/-- **The names of a record** are normalized alike. -/
theorem recordOf_rekeyed {names : List String} {v v' : PyValue} {n : List (String × PyValue)}
    (h : Rekeyed v v') (hn : recordOf nfc names v = .ok n) :
    ∃ n', recordOf nfc names v' = .ok n' ∧ Alike n n' := by
  cases h with
  | same =>
    refine ⟨n, hn, fun name => ?_⟩
    cases CanonicalSchema.lookup n name with
    | none => exact .none
    | some v => exact .some (.same v)
  | list => cases hn
  | @dict l m l' hkeys hvalues hperm =>
    obtain ⟨k, hk, hn⟩ := Except.bind_eq_ok.1 hn
    split_ifs at hn with hall
    · cases hn
      obtain ⟨hl, hnodup, -⟩ := normalizeKeys_ok.1 hk
      have hitems : Rearranged SameItem l l' := ⟨m, forall₂_items.2 ⟨hkeys, hvalues⟩, hperm⟩
      have hstep : ∀ f f' g, SameItem f f' → Named nfc f g → ∃ g', Named nfc f' g' ∧
          SameItem g g' := by
        rintro f f' g ⟨hkey, hvalue⟩ ⟨key, hname, rfl⟩
        exact ⟨(nfc key, f'.2), ⟨key, hkey.symm.trans hname, rfl⟩, rfl, hvalue⟩
      obtain ⟨n', hl', hn'⟩ := hitems.transport hl hstep
      have hnames : (n.map Prod.fst).Perm (n'.map Prod.fst) := by
        obtain ⟨j, hj, hperm'⟩ := hn'
        rw [(forall₂_items.1 hj).1]
        exact hperm'.map _
      have hnodup' := hnames.nodup_iff.1 hnodup
      have hall' : (n'.all fun f => decide (f.1 ∈ names)) = true := by
        rw [List.all_eq_true] at hall ⊢
        intro g hg
        obtain ⟨f, hf, he⟩ := List.mem_map.1 (hnames.symm.subset (List.mem_map_of_mem hg))
        rw [← he]
        exact hall f hf
      refine ⟨n', ?_, alike_of_rearranged hn' hnodup hnodup'⟩
      rw [recordOf, normalizeKeys_ok.2 ⟨hl', hnodup', fun _ _ => List.not_mem_nil⟩, Except.ok_bind,
        if_pos hall']
      rfl
    · cases hn

/-- A scalar type refuses lists and dicts. -/
theorem scalar_rekeyed {r : PyValue → Except CommitmentValidationError Json} {v v' : PyValue}
    {depth count : ℕ} {out : Json × ℕ} (hlist : ∀ l j, r (.list l) ≠ .ok j)
    (hdict : ∀ l j, r (.dict l) ≠ .ok j) (h : Rekeyed v v')
    (hv : counted v depth count (scalar (r v)) = .ok out) :
    counted v' depth count (scalar (r v')) = .ok out := by
  cases h with
  | same => exact hv
  | list =>
    obtain ⟨count, -, hv⟩ := Except.bind_eq_ok.1 hv
    obtain ⟨j, hj, -⟩ := Except.bind_eq_ok.1 hv
    exact absurd hj (hlist _ j)
  | dict =>
    obtain ⟨count, -, hv⟩ := Except.bind_eq_ok.1 hv
    obtain ⟨j, hj, -⟩ := Except.bind_eq_ok.1 hv
    exact absurd hj (hdict _ j)

theorem arrayValue_rekeyed {element : PyValue → ℕ → Except CommitmentValidationError (Json × ℕ)}
    (helement : ∀ v v' count out, Rekeyed v v' → element v count = .ok out →
      element v' count = .ok out) {l l' : List PyValue} {count : ℕ} {out : List Json × ℕ}
    (h : List.Forall₂ Rekeyed l l') (hl : arrayValue element l count = .ok out) :
    arrayValue element l' count = .ok out := by
  induction h generalizing count out with
  | nil => exact hl
  | cons hv _ ih =>
    obtain ⟨⟨j, c⟩, hj, hl⟩ := Except.bind_eq_ok.1 hl
    obtain ⟨⟨js, c'⟩, hjs, hl⟩ := Except.bind_eq_ok.1 hl
    cases hl
    rw [arrayValue, helement _ _ _ _ hv hj, Except.ok_bind]
    dsimp only
    rw [ih hjs]
    rfl

theorem fieldValue_rekeyed {name tag : String} {nullable : Bool} {depth count : ℕ}
    {body : PyValue → ℕ → Except CommitmentValidationError (Json × ℕ)}
    (hbody : ∀ v v' count out, Rekeyed v v' → body v count = .ok out → body v' count = .ok out)
    {found found' : Option PyValue} {out : Json × ℕ} (h : Option.Rel Rekeyed found found')
    (hf : fieldValue name tag nullable depth found body count = .ok out) :
    fieldValue name tag nullable depth found' body count = .ok out := by
  cases h with
  | none => exact hf
  | some hv =>
    cases hv with
    | same => exact hf
    | list items =>
      obtain ⟨⟨j, c⟩, hj, hf⟩ := Except.bind_eq_ok.1 hf
      rw [fieldValue, hbody _ _ _ _ (.list items) hj]
      · exact hf
      · simp
    | dict keys values order =>
      obtain ⟨⟨j, c⟩, hj, hf⟩ := Except.bind_eq_ok.1 hf
      rw [fieldValue, hbody _ _ _ _ (.dict keys values order) hj]
      · exact hf
      · simp

mutual
/-- **A value is written alike** with its keys in another order. -/
theorem value_rekeyed : ∀ (type : LogicalType) {v v' : PyValue} {depth count : ℕ} {out : Json × ℕ},
    Rekeyed v v' → value nfc text offset type v depth count = .ok out →
      value nfc text offset type v' depth count = .ok out
  | .string, v, v', depth, count, out, h, hv =>
    scalar_rekeyed (fun _ _ h => by cases h) (fun _ _ h => by cases h) h hv
  | .boolean, v, v', depth, count, out, h, hv => by
    refine scalar_rekeyed (fun _ _ h => ?_) (fun _ _ h => ?_) h hv
    · cases text <;> cases h
    · cases text <;> cases h
  | .signedInteger, v, v', depth, count, out, h, hv =>
    scalar_rekeyed (fun _ _ h => by cases h) (fun _ _ h => by cases h) h hv
  | .decimal _, v, v', depth, count, out, h, hv =>
    scalar_rekeyed (fun _ _ h => by cases h) (fun _ _ h => by cases h) h hv
  | .date, v, v', depth, count, out, h, hv =>
    scalar_rekeyed (fun _ _ h => by cases h) (fun _ _ h => by cases h) h hv
  | .timestamp _, v, v', depth, count, out, h, hv =>
    scalar_rekeyed (fun _ _ h => by cases h) (fun _ _ h => by cases h) h hv
  | .binary, v, v', depth, count, out, h, hv =>
    scalar_rekeyed (fun _ _ h => by cases h) (fun _ _ h => by cases h) h hv
  | .array element, v, v', depth, count, out, h, hv => by
    cases h with
    | same => exact hv
    | list items =>
      obtain ⟨c, hc, hv⟩ := Except.bind_eq_ok.1 hv
      obtain ⟨⟨js, c'⟩, hjs, hv⟩ := Except.bind_eq_ok.1 hv
      cases hv
      have helement : ∀ v v' count out, Rekeyed v v' →
          value nfc text offset element v (depth + 1) count = .ok out →
          value nfc text offset element v' (depth + 1) count = .ok out :=
        fun _ _ _ _ hr hj => value_rekeyed element hr hj
      have hlist := arrayValue_rekeyed helement items hjs
      rw [value, counted, hc, Except.ok_bind]
      dsimp only
      rw [hlist]
      rfl
    | dict =>
      obtain ⟨c, -, hv⟩ := Except.bind_eq_ok.1 hv
      cases hv
  | .object fields, v, v', depth, count, out, h, hv => by
    cases h with
    | same => exact hv
    | list =>
      obtain ⟨c, -, hv⟩ := Except.bind_eq_ok.1 hv
      cases hv
    | dict keys values order =>
      obtain ⟨c, hc, hv⟩ := Except.bind_eq_ok.1 hv
      obtain ⟨n, hn, hv⟩ := Except.bind_eq_ok.1 hv
      obtain ⟨⟨js, c'⟩, hjs, hv⟩ := Except.bind_eq_ok.1 hv
      cases hv
      obtain ⟨n', hn', halike⟩ := recordOf_rekeyed (.dict keys values order) hn
      rw [value, counted, hc, Except.ok_bind]
      dsimp only
      rw [hn', Except.ok_bind, record_alike fields halike hjs]
      rfl

theorem record_alike : ∀ (fields : Fields) {n n' : List (String × PyValue)} {depth count : ℕ}
    {out : List Json × ℕ}, Alike n n' → record nfc text offset fields n depth count = .ok out →
      record nfc text offset fields n' depth count = .ok out
  | .nil, n, n', depth, count, out, _, hr => hr
  | .cons name type nullable rest, n, n', depth, count, out, h, hr => by
    obtain ⟨⟨j, c⟩, hj, hr⟩ := Except.bind_eq_ok.1 hr
    obtain ⟨⟨js, c'⟩, hjs, hr⟩ := Except.bind_eq_ok.1 hr
    cases hr
    have hbody : ∀ v v' count out, Rekeyed v v' →
        value nfc text offset type v depth count = .ok out →
        value nfc text offset type v' depth count = .ok out :=
      fun _ _ _ _ hv hok => value_rekeyed type hv hok
    have hfield := fieldValue_rekeyed hbody (h name) hj
    rw [record, hfield, Except.ok_bind]
    dsimp only
    rw [record_alike rest h hjs]
    rfl
end

/-- **The canonical row does not see the order of keys.** -/
theorem canonicalRow_rekeyed {schema schema' : CanonicalSchema}
    (hschema : schema'.descriptors = schema.descriptors) {v v' : PyValue} (h : Rekeyed v v')
    {b : Bytes} (hb : schema.canonicalRow nfc text offset v = .ok b) :
    schema'.canonicalRow nfc text offset v' = .ok b := by
  obtain ⟨n, hn, hb⟩ := Except.bind_eq_ok.1 hb
  obtain ⟨⟨js, c⟩, hjs, hb⟩ := Except.bind_eq_ok.1 hb
  obtain ⟨n', hn', halike⟩ := recordOf_rekeyed h hn
  rw [CanonicalSchema.canonicalRow, hschema, hn', Except.ok_bind,
    record_alike schema.descriptors halike hjs, Except.ok_bind]
  exact hb

end

/-- **Permuted descriptors build the same schema**, and so do its own
    normalized descriptors. -/
theorem canonicalSchema_permuted {nfc : String → String} (hnfc : ∀ s, nfc (nfc s) = nfc s)
    {descriptors : List Json} {schema : CanonicalSchema}
    (h : canonicalSchema nfc (.arr descriptors) = .ok schema) :
    (∀ permuted, Permuted descriptors permuted → ∃ schema',
      canonicalSchema nfc (.arr permuted) = .ok schema' ∧
      schema'.descriptors = schema.descriptors ∧ schema'.digest = schema.digest ∧
      ∀ (text : Bool) (offset : Option String) (v v' : PyValue), Rekeyed v v' → ∀ b : Bytes,
        schema'.canonicalRow nfc text offset v' = .ok b ↔
          schema.canonicalRow nfc text offset v = .ok b) ∧
    ∃ schema', canonicalSchema nfc (.arr schema.descriptors.descriptors) = .ok schema' ∧
      schema'.descriptors = schema.descriptors ∧ schema'.digest = schema.digest := by
  obtain ⟨out, hd, hsort, hsize⟩ := canonicalSchema_ok h
  constructor
  · intro permuted hp
    obtain ⟨out', hd', hsort'⟩ := hd.permuted (orderless_describes _) hp
    obtain ⟨schema', hok, hdescriptors, hdigest⟩ :=
      canonicalSchema_of_declares hd' (by rw [hsort, hsort']) hsize
    refine ⟨schema', hok, hdescriptors, hdigest, fun text offset v v' hv b => ?_⟩
    exact ⟨canonicalRow_rekeyed hdescriptors.symm hv.symm, canonicalRow_rekeyed hdescriptors hv⟩
  · have hown := (own_describes hnfc _).declaresAll hnfc hd
    have hlist : schema.descriptors.descriptors = (sortFields out).map descriptorOf := by
      rw [hsort, descriptors_ofList]
    rw [hlist]
    exact canonicalSchema_of_declares hown (by rw [hsort, sortFields_sorted]) hsize

/-- A text and an object of two texts, the fields of the object in some order. -/
def textAndPair (inner : List Json) : Json :=
  .arr [.str "b", .str "object", .bool false, .obj [("object_fields", .arr inner)]]

def innerText (name : String) : Json :=
  .obj [("name", .str name), ("type", .str "string"), ("nullable", .bool true),
    ("type_parameters", .obj [])]

def outerText : Json := .arr [.str "a", .str "string", .bool true, .obj []]

theorem permuted_textAndPair :
    Permuted [outerText, textAndPair [innerText "x", innerText "y"]]
      [textAndPair [innerText "y", innerText "x"], outerText] := by
  refine ⟨[outerText, textAndPair [innerText "y", innerText "x"]], ?_, .swap _ _ _⟩
  refine .cons (.field (.same _)) (.cons (.field (.dict rfl (.cons ?_ .nil))) .nil)
  exact .list (.cons (.same _) (.cons (.same _) .nil)) (.swap _ _ _)

theorem canonicalSchema_permuted_textAndPair : ∃ schema schema',
    canonicalSchema id (.arr [outerText, textAndPair [innerText "x", innerText "y"]]) = .ok schema ∧
    canonicalSchema id (.arr [textAndPair [innerText "y", innerText "x"], outerText]) = .ok schema' ∧
    schema'.digest = schema.digest := by
  have hok : (canonicalSchema id
      (.arr [outerText, textAndPair [innerText "x", innerText "y"]])).isOk = true := by decide
  obtain ⟨schema, hschema⟩ := Except.exists_of_isOk hok
  obtain ⟨schema', hok', -, hdigest, -⟩ :=
    (canonicalSchema_permuted (fun _ => rfl) hschema).1 _ permuted_textAndPair
  exact ⟨schema, schema', hschema, hok', hdigest⟩

end AimData
