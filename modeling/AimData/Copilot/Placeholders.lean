/-
  Placeholders for UUIDs while a text is redacted.

  A rule does to both readings of the tokens what its pass does to the tokens (`apply_view`).  The
  UUIDs are replaced where they were found (`protect_view`), and put back there
  (`restore_render`), so that the rules see through the placeholders (`redactForLlm_eq`).
-/
import AimData.Copilot.Readings

namespace AimData

namespace OutputRedaction

open Regex (Re)

/-! ## The passes -/

/-- A token has a character at least. -/
theorem Sound.read_pos {t : Token} {T : List Token} (hT : Sound (t :: T)) (b : Bool) :
    0 < (t.read b).length := by
  cases t with
  | char c => exact Nat.one_pos
  | uuid i u =>
    have := (hT.block (List.mem_cons_self ..) fun _ => b).long
    exact lt_of_lt_of_le (by decide) this

/-- What a match has taken is passed over. -/
theorem pass_skip (rule : Rule) {A B : List Token} (hA : Sound A) :
    pass rule (view true A).length (A ++ B) = pass rule 0 B := by
  induction A with
  | nil => rfl
  | cons t A ih =>
    have hpos := hA.read_pos true
    rw [view_cons, List.length_append]
    obtain ⟨n, hn⟩ : ∃ n, (t.read true).length + (view true A).length = n + 1 :=
      ⟨(t.read true).length + (view true A).length - 1, by omega⟩
    rw [hn, List.cons_append, pass, ← ih hA.tail]
    congr 1
    change n + 1 - (t.read true).length = _
    omega

theorem mem_of_pass {rule : Rule} : ∀ {T T' : List Token} {skip : ℕ},
    pass rule skip T = some T' → ∀ {i u}, .uuid i u ∈ T' → .uuid i u ∈ T := by
  intro T
  induction T with
  | nil =>
    intro T' skip h i u hmem
    have : T' = [] := by
      cases skip <;> simpa [pass] using h.symm
    rw [this] at hmem
    cases hmem
  | cons t T ih =>
    intro T' skip h i u hmem
    cases skip with
    | succ skip =>
      rw [pass] at h
      exact List.mem_cons_of_mem _ (ih h hmem)
    | zero =>
      cases t with
      | char c =>
        rw [pass] at h
        split at h
        · obtain ⟨after, hafter, rfl⟩ := Option.map_eq_some_iff.1 h
          rcases List.mem_cons.1 hmem with hmem | hmem
          · cases hmem
          · exact List.mem_cons_of_mem _ (ih hafter hmem)
        · split_ifs at h
          obtain ⟨after, hafter, rfl⟩ := Option.map_eq_some_iff.1 h
          rcases List.mem_append.1 hmem with hmem | hmem
          · obtain ⟨_, -, hc⟩ := List.mem_map.1 hmem
            cases hc
          · exact List.mem_cons_of_mem _ (ih hafter hmem)
      | uuid j v =>
        rw [pass] at h
        split_ifs at h
        obtain ⟨after, hafter, rfl⟩ := Option.map_eq_some_iff.1 h
        rcases List.mem_cons.1 hmem with hmem | hmem
        · exact hmem ▸ List.mem_cons_self ..
        · exact List.mem_cons_of_mem _ (ih hafter hmem)

theorem Rule.Fair.taken_ne_nil {rule : Rule} (hfair : rule.Fair) {text : Text} {m : Regex.Match}
    (h : rule.pattern.match? text = some m) : m.taken ≠ [] := by
  intro he
  have := (Re.shape_of_lang (Re.match?_some h).2).empty he
  rw [hfair.nonempty] at this
  cases this

/-- A match that a rule prefers is replaced. -/
theorem Rule.apply_hit {rule : Rule} (hfair : rule.Fair) {text : Text} {m : Regex.Match}
    (h : rule.pattern.match? text = some m) :
    rule.apply text = rule.replacement m.group ++ rule.apply m.rest := by
  have hne := hfair.taken_ne_nil h
  cases text with
  | nil => exact absurd (List.append_eq_nil_iff.1 (Re.match?_some h).1.symm).1 hne
  | cons c text =>
    rcases Regex.scan_cases rule.pattern c text with ⟨m', hm', -, -, -, hscan⟩ | ⟨hnone, -⟩
    · obtain rfl := Option.some.inj (h.symm.trans hm')
      exact Regex.sub_hit hscan
    · rw [h, Option.filter_some, if_pos (by simpa using hne)] at hnone
      cases hnone

theorem Rule.apply_plain {rule : Rule} {c : Char} {text : Text}
    (h : rule.pattern.match? (c :: text) = none) : rule.apply (c :: text) = c :: rule.apply text :=
  Regex.sub_plain (by rw [Regex.scan, h]; rfl)

/-- No match begins inside a placeholder. -/
theorem Rule.Fair.notFound {rule : Rule} (hfair : rule.Fair) {i : ℕ} {y : Text} (hy : y ≠ [])
    (hsuf : y <:+ placeholder i) (text : Text) : rule.pattern.match? (y ++ text) = none := by
  cases y with
  | nil => exact absurd rfl hy
  | cons c y =>
    have hc := List.all_eq_true.1 hfair.starts c (mem_placeholder (hsuf.subset (by simp)))
    rw [Re.match?, List.cons_append, Re.run_eq_nil hfair.nonempty (by simpa using hc),
      List.head?_nil]

/-- **A rule does to both readings what the pass does to the tokens.** -/
theorem apply_view {rule : Rule} (hfair : rule.Fair) {T : List Token} : ∀ {T' : List Token},
    Sound T → pass rule 0 T = some T' → ∀ b, rule.apply (view b T) = view b T' := by
  induction hn : T.length using Nat.strong_induction_on generalizing T with
  | _ n ih =>
    intro T' hT hpass b
    cases T with
    | nil =>
      obtain rfl := Option.some.inj hpass
      rfl
    | cons t T =>
      cases t with
      | char c =>
        rw [pass] at hpass
        split at hpass
        · rename_i hnone
          obtain ⟨after, hafter, rfl⟩ := Option.map_eq_some_iff.1 hpass
          obtain ⟨part, -, hmatch⟩ := hfair.agrees (.char c :: T) hT fun _ => by
            rw [whole, hnone]
            rfl
          have htrue := hmatch true
          rw [hnone] at htrue
          obtain rfl := Option.map_eq_none_iff.1 htrue.symm
          have hb := hmatch b
          rw [view_char] at hb
          rw [view_char, view_char, Rule.apply_plain hb,
            ih T.length (by simp at hn; omega) rfl hT.tail hafter b]
        · rename_i m hm
          split_ifs at hpass with hkey
          obtain ⟨after, hafter, rfl⟩ := Option.map_eq_some_iff.1 hpass
          obtain ⟨part, hpart, hmatch⟩ := hfair.agrees (.char c :: T) hT fun h => by
            simpa [h] using hkey
          have htrue := hmatch true
          rw [hm] at htrue
          obtain ⟨x, rfl, hx⟩ := Option.map_eq_some_iff.1 htrue.symm
          have hT' := hpart x rfl
          obtain ⟨A, hA, rfl⟩ : ∃ A, x.taken = .char c :: A ∧ A ++ x.rest = T := by
            cases hx' : x.taken with
            | nil =>
              refine absurd ?_ (hfair.taken_ne_nil hm)
              rw [← hx, Part.read, hx', view_nil]
            | cons t A =>
              rw [hx', List.cons_append] at hT'
              obtain ⟨rfl, hA⟩ := List.cons.inj hT'
              exact ⟨A, rfl, hA⟩
          have hskip : m.taken.length - 1 = (view true A).length := by
            rw [← hx, Part.read, hA, view_char, List.length_cons, Nat.add_sub_cancel]
          rw [hskip, pass_skip rule hT.tail.left] at hafter
          have hrest := ih x.rest.length (by simp at hn; omega) rfl hT.tail.right hafter b
          have hhit := Rule.apply_hit hfair (hmatch b)
          rw [hhit, view_append, view_chars, ← hrest, ← hx]
          rfl
      | uuid i u =>
        rw [pass] at hpass
        split_ifs at hpass with hclear
        obtain ⟨after, hafter, rfl⟩ := Option.map_eq_some_iff.1 hpass
        rw [view_cons, view_cons, ← ih T.length (by simp at hn; omega) rfl hT.tail hafter b]
        refine Regex.sub_copy fun y hy hsuf => ?_
        cases b with
        | true =>
          have hall := List.all_eq_true.1 hclear y ((List.mem_tails _ _).2 hsuf)
          simpa [hy] using hall
        | false => exact hfair.notFound hy hsuf _

/-- The rules one after the other. -/
theorem foldl_apply_view {rules : List Rule} (hfair : ∀ rule ∈ rules, rule.Fair) :
    ∀ {T T' : List Token}, Sound T →
      rules.foldlM (fun tokens rule => pass rule 0 tokens) T = some T' →
      (∀ b, rules.foldl (fun text rule => rule.apply text) (view b T) = view b T') ∧
        ∀ {i u}, .uuid i u ∈ T' → .uuid i u ∈ T := by
  induction rules with
  | nil =>
    intro T T' _ h
    obtain rfl := Option.some.inj h
    exact ⟨fun _ => rfl, id⟩
  | cons rule rules ih =>
    intro T T' hT h
    rw [List.foldlM_cons] at h
    obtain ⟨T₁, hpass, h⟩ := Option.bind_eq_some_iff.1 h
    have hmem : ∀ {i u}, .uuid i u ∈ T₁ → .uuid i u ∈ T := mem_of_pass hpass
    have hT₁ : Sound T₁ := fun i u hu => hT i u (hmem hu)
    obtain ⟨hview, hsub⟩ := ih (fun r hr => hfair r (by simp [hr])) hT₁ h
    refine ⟨fun b => ?_, fun hu => hmem (hsub hu)⟩
    rw [List.foldl_cons, apply_view (hfair rule (by simp)) hT hpass b, hview]

/-! ## Placeholders for UUIDs -/

/-- The tokens of a scan: their UUIDs are numbered from `i` on, and none begins at a character. -/
def Scanned : ℕ → List Token → Prop
  | _, [] => True
  | i, .char c :: T => uuidPattern.match? (c :: view true T) = none ∧ Scanned i T
  | i, .uuid j u :: T => j = i ∧ uuidPattern.Lang u ∧ Scanned (i + 1) T

theorem Scanned.mem {T : List Token} : ∀ {i j : ℕ} {u : Text}, Scanned i T → .uuid j u ∈ T →
    i ≤ j ∧ uuidPattern.Lang u := by
  induction T with
  | nil => simp
  | cons t T ih =>
    intro i j u h hmem
    cases t with
    | char c => exact ih h.2 (by simpa using hmem)
    | uuid k v =>
      obtain ⟨rfl, hv, hT⟩ := h
      rcases List.mem_cons.1 hmem with hmem | hmem
      · obtain ⟨rfl, rfl⟩ := Token.uuid.inj hmem
        exact ⟨le_rfl, hv⟩
      · obtain ⟨hle, hu⟩ := ih hT hmem
        exact ⟨by omega, hu⟩

theorem uuid_ne_nil {u : Text} (h : uuidPattern.Lang u) : u ≠ [] := ne_nil_of_block (block_uuid h)

/-- The tokens of a text are scanned, and read as the text. -/
theorem scanned_number (text : Text) : ∀ i, Scanned i (number i (Regex.scan uuidPattern 0 text)) ∧
    view true (number i (Regex.scan uuidPattern 0 text)) = text := by
  induction text using Regex.scan_induction uuidPattern with
  | nil => exact fun _ => ⟨trivial, rfl⟩
  | plain c s hnone hscan ih =>
    intro i
    obtain ⟨hscanned, hview⟩ := ih i
    rw [hscan, number, Scanned, view_char, hview]
    refine ⟨⟨?_, hscanned⟩, rfl⟩
    cases hm : uuidPattern.match? (c :: s) with
    | none => rfl
    | some m =>
      rw [hm, Option.filter_some,
        if_pos (by simpa using uuid_ne_nil (Re.match?_some hm).2)] at hnone
      cases hnone
  | hit m _ hl _ hscan ih =>
    intro i
    obtain ⟨hscanned, hview⟩ := ih (i + 1)
    rw [hscan, number, Scanned, view_cons, hview]
    exact ⟨⟨rfl, hl, hscanned⟩, rfl⟩

/-- The placeholders and UUIDs of tokens. -/
def entries : List Token → List (Text × Text)
  | [] => []
  | .char _ :: T => entries T
  | .uuid i u :: T => (placeholder i, u) :: entries T

theorem foldl_uuidMap (pieces : List Regex.Piece) : ∀ (i : ℕ) (found : List (Text × Text)),
    (Regex.hits i pieces).foldl
      (fun found m => found ++ [(placeholder found.length, m.2.taken)]) found =
        found ++ entries (number found.length pieces) := by
  induction pieces with
  | nil => simp [Regex.hits, number, entries]
  | cons piece pieces ih =>
    intro i found
    cases piece with
    | plain c => rw [Regex.hits, ih, number, entries]
    | hit m => simp [Regex.hits, ih, number, entries]

/-- The dictionary has the tokens' UUIDs. -/
theorem uuidMap_eq (text : Text) : uuidMap text = entries (tokens text) :=
  (foldl_uuidMap _ 0 []).trans (List.nil_append _)

theorem dash_mem {u : Text} (h : uuidPattern.Lang u) : '-' ∈ u := by
  obtain ⟨a, v, rfl, -⟩ := uuid_parts h
  simp

theorem underscore_notMem {u : Text} (h : uuidPattern.Lang u) : '_' ∉ u :=
  Re.notMem_of_lang h (by decide)

/-- A UUID does not begin in a placeholder. -/
theorem not_prefix_placeholder {u y : Text} {i : ℕ} (hu : uuidPattern.Lang u) (hy : y ≠ [])
    (hsuf : y <:+ placeholder i) (rest : Text) : ¬ u <+: y ++ rest := by
  intro hpre
  obtain ⟨x, hx⟩ := hsuf
  have hlast : y.getLast? = some '_' := by
    have := congrArg List.getLast? hx
    rw [List.getLast?_append_of_ne_nil _ hy] at this
    rw [this, placeholder_eq]
    simp [List.getLast?_cons]
  obtain ⟨z, rfl⟩ := List.getLast?_eq_some_iff.1 hlast
  rw [List.append_assoc, List.cons_append] at hpre
  have hdash := (Regex.prefix_of_notMem (underscore_notMem hu) hpre).subset (dash_mem hu)
  have hmem : '-' ∈ placeholder i := by
    rw [← hx]
    simp [hdash]
  exact absurd (mem_placeholder hmem) (by decide)

/-- **The placeholders take the places of their UUIDs**, behind a text in which none begins. -/
theorem protect_view {T : List Token} : ∀ {i : ℕ} (before : Text), Scanned i T →
    (∀ j u, .uuid j u ∈ T → ∀ y, y ≠ [] → y <:+ before → ¬ u <+: y ++ view true T) →
      protect (entries T) (before ++ view true T) = before ++ view false T := by
  induction T with
  | nil => exact fun _ _ _ => rfl
  | cons t T ih =>
    intro i before hT hbefore
    cases t with
    | char c =>
      have hgo := ih (before ++ [c]) hT.2 fun j u hu y hy hsuf hpre => by
        rcases List.suffix_concat_iff.1 hsuf with rfl | ⟨z, rfl, hz⟩
        · exact hy rfl
        · rw [List.append_assoc] at hpre
          by_cases hne : z = []
          · subst hne
            exact Re.match?_eq_none.1 hT.1 u (hT.2.mem hu).2 hpre
          · exact hbefore j u (by simp [hu]) z hne hz hpre
      rw [List.append_assoc, List.append_assoc] at hgo
      exact hgo
    | uuid j v =>
      obtain ⟨rfl, hv, hT⟩ := hT
      have hgo := ih (before ++ placeholder j) hT fun k u hu y hy hsuf hpre => by
        have hlang := (hT.mem hu).2
        obtain ⟨x, hx⟩ := hsuf
        rcases List.append_eq_append_iff.1 hx with ⟨z, rfl, rfl⟩ | ⟨z, -, hz⟩
        · by_cases hne : z = []
          · subst hne
            exact not_prefix_placeholder hlang hy (List.suffix_refl _) _ hpre
          · rw [List.append_assoc, placeholder_eq, List.cons_append] at hpre
            have hz := Regex.prefix_of_notMem (underscore_notMem hlang) hpre
            exact hbefore k u (by simp [hu]) z hne (List.suffix_append _ _)
              (hz.trans (List.prefix_append _ _))
        · exact not_prefix_placeholder hlang hy ⟨z, hz.symm⟩ _ hpre
      have hcopy : PyText.replaceFirst v (placeholder j) (before ++ (v ++ view true T)) =
          before ++ PyText.replaceFirst v (placeholder j) (v ++ view true T) :=
        PyText.replaceFirst_copy fun y hy hsuf => hbefore j v (by simp) y hy hsuf
      have hread : ∀ b, view b (.uuid j v :: T) = (if b then v else placeholder j) ++ view b T :=
        fun b => view_cons b _ T
      rw [PyText.replaceFirst_append (uuid_ne_nil hv)] at hcopy
      rw [List.append_assoc, List.append_assoc] at hgo
      rw [entries, protect, List.foldl_cons, hread, hread, if_pos rfl, if_neg (by simp), hcopy]
      exact hgo

/-- The placeholder of index `i` is replaced by its UUID. -/
theorem replace_render {T : List Token} {i : ℕ} {u : Text} (hmixed : unmixed T i = true)
    (hown : ∀ v, .uuid i v ∈ T → v = u) :
    PyText.replace (placeholder i) u (render (· < i) T) = render (· < i + 1) T := by
  refine PyText.replace_flatMap (ne_nil_of_block (block_placeholder i)) (fun t ht htrue => ?_)
    (fun t _ hfalse => ?_) (by simpa [unmixed] using hmixed)
  · cases t with
    | char c => cases htrue
    | uuid j v =>
      obtain rfl : j = i := of_decide_eq_true htrue
      obtain rfl := hown v ht
      simp [Token.render]
  · cases t with
    | char c => rfl
    | uuid j v =>
      have hne : j ≠ i := of_decide_eq_false hfalse
      have hiff : j < i + 1 ↔ j < i := by omega
      simp [Token.render, hiff]

/-- **The UUIDs take the places of their placeholders** in what is left of the tokens. -/
theorem restore_render {after T : List Token} : ∀ {i : ℕ}, Scanned i T →
    (∀ j u, .uuid j u ∈ after → i ≤ j → .uuid j u ∈ T) →
    (∀ j, i ≤ j → j < i + (entries T).length → unmixed after j = true) →
      restore (entries T) (render (· < i) after) = view true after := by
  induction T with
  | nil =>
    intro i _ hmem _
    refine List.flatMap_congr fun t ht => ?_
    cases t with
    | char c => rfl
    | uuid j u =>
      have hlt : j < i := by
        by_contra hle
        cases hmem j u ht (by omega)
      simp [Token.render, hlt]
  | cons t T ih =>
    intro i hT hmem hmixed
    cases t with
    | char c => exact ih hT.2 (fun j u hu hle => by simpa using hmem j u hu hle) hmixed
    | uuid k v =>
      obtain ⟨rfl, hv, hT⟩ := hT
      rw [entries, List.length_cons] at hmixed
      rw [entries, restore, List.foldl_cons,
        replace_render (hmixed k le_rfl (by omega)) fun w hw => ?_]
      · refine ih hT (fun j u hu hle => ?_) fun j hle hlt => hmixed j (by omega) (by omega)
        rcases List.mem_cons.1 (hmem j u hu (by omega)) with h | h
        · obtain ⟨rfl, -⟩ := Token.uuid.inj h
          omega
        · exact h
      · rcases List.mem_cons.1 (hmem k w hw le_rfl) with h | h
        · exact (Token.uuid.inj h).2
        · have := (hT.mem h).1
          omega

/-! ## The redaction of an orderly text -/

/-- **The redaction of an orderly text** is what the rules make of the text itself: the matches are
    replaced, with the UUIDs that they hold, and all else stays in its place. -/
theorem redactForLlm_eq (text : Text) (h : orderly text = true) :
    redactForLlm text = applyRules text := by
  obtain ⟨after, hpasses, hmixed⟩ := (Option.any_eq_true _ _).1 h
  obtain ⟨hscanned, htext⟩ := scanned_number text 0
  have hsound : Sound (tokens text) := fun i u hu => (hscanned.mem hu).2
  obtain ⟨hview, hmem⟩ := foldl_apply_view fair_redactionRules hsound hpasses
  have hprotect : protect (uuidMap text) text = view false (tokens text) := by
    have := protect_view [] hscanned fun j u _ y hy hsuf => absurd (List.suffix_nil.1 hsuf) hy
    rw [uuidMap_eq]
    rw [List.nil_append, List.nil_append, htext] at this
    exact this
  have hrules : applyRules text = view true after := by
    have := hview true
    rw [tokens, htext] at this
    exact this
  have hrestore : restore (uuidMap text) (view false after) = view true after := by
    rw [uuidMap_eq]
    have hzero : view false after = render (· < 0) after := by
      simp [view]
    rw [hzero]
    refine restore_render hscanned (fun j u hu _ => hmem hu) fun j _ hlt => ?_
    rw [← uuidMap_eq] at hlt
    exact List.all_eq_true.1 hmixed j (List.mem_range.2 (by omega))
  rw [redactForLlm, hprotect]
  split_ifs with hempty
  · subst hempty
    rfl
  · rw [applyRules, hview false, hrestore, hrules]

def exampleUuid : Text := "550e8400-e29b-41d4-a716-446655440000".toList

/-- One of two UUIDs is a bearer token. -/
theorem redactForLlm_eq_bearer :
    redactForLlm (exampleUuid ++ " Bearer ".toList ++ exampleUuid) =
      exampleUuid ++ " Bearer [REDACTED]".toList := by
  have hrules : applyRules (exampleUuid ++ " Bearer ".toList ++ exampleUuid) =
      exampleUuid ++ " Bearer [REDACTED]".toList := by decide +kernel
  exact (redactForLlm_eq _ (by decide +kernel)).trans hrules

/-- A text that looks like a placeholder is rewritten, and a key with a UUID in it is shown. -/
theorem lookalike_rewritten :
    redactForLlm ("__UUID_0__ ".toList ++ exampleUuid) =
        exampleUuid ++ " ".toList ++ exampleUuid ∧
      applyRules ("__UUID_0__ ".toList ++ exampleUuid) = "__UUID_0__ ".toList ++ exampleUuid ∧
      redactForLlm ("sk-ant-api03-".toList ++ exampleUuid) =
        "sk-ant-api03-".toList ++ exampleUuid ∧
      applyRules ("sk-ant-api03-".toList ++ exampleUuid) = "[API_KEY_REDACTED]".toList := by
  decide +kernel

end OutputRedaction

end AimData
