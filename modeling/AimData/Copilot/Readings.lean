/-
  The two readings of a text's tokens, with the UUIDs and with their placeholders.

  Words that no UUID and no placeholder can have a part in are matched in both readings alike
  (`same_of_tame`), and so are repetitions of a class that has all characters of both.  An API key
  is, if it is matched as a whole (`agrees_key`).  Every rule is made of these
  (`fair_redactionRules`).
-/
import AimData.Copilot.OutputRedaction
import AimData.Lib.Numeral
import AimData.Lib.RegexWords

namespace AimData

namespace OutputRedaction

open Regex (Re)

/-! ## Readings of tokens -/

section
variable (b : Bool) (shown : ℕ → Bool)

@[simp] theorem render_cons (t : Token) (T : List Token) :
    render shown (t :: T) = t.render shown ++ render shown T := List.flatMap_cons

@[simp] theorem view_nil : view b [] = [] := rfl

@[simp] theorem view_char (c : Char) (T : List Token) :
    view b (.char c :: T) = c :: view b T := rfl

@[simp] theorem view_append (A B : List Token) : view b (A ++ B) = view b A ++ view b B :=
  List.flatMap_append

@[simp] theorem view_chars (cs : Text) : view b (cs.map .char) = cs := by
  induction cs with
  | nil => rfl
  | cons c cs ih => rw [List.map_cons, view_char, ih]

/-- How a UUID reads. -/
def Token.read (t : Token) : Text := t.render fun _ => b

theorem view_cons (t : Token) (T : List Token) : view b (t :: T) = t.read b ++ view b T :=
  render_cons _ t T

end

/-- The tokens' UUIDs are UUIDs. -/
def Sound (T : List Token) : Prop := ∀ i u, .uuid i u ∈ T → uuidPattern.Lang u

theorem Sound.of_subset {A T : List Token} (hT : Sound T) (h : A ⊆ T) : Sound A :=
  fun i u hu => hT i u (h hu)

theorem Sound.left {A B : List Token} (h : Sound (A ++ B)) : Sound A :=
  h.of_subset (List.subset_append_left A B)

theorem Sound.right {A B : List Token} (h : Sound (A ++ B)) : Sound B :=
  h.of_subset (List.subset_append_right A B)

theorem Sound.tail {t : Token} {T : List Token} (h : Sound (t :: T)) : Sound T :=
  h.of_subset (List.subset_cons_self t T)

/-- Tokens are characters up to the first UUID. -/
theorem exists_chars (T : List Token) :
    ∃ (cs : Text) (rest : List Token), T = cs.map .char ++ rest ∧
      ∀ t ∈ rest.head?, ∃ i u, t = .uuid i u := by
  induction T with
  | nil => exact ⟨[], [], rfl, by simp⟩
  | cons t T ih =>
    cases t with
    | char c =>
      obtain ⟨cs, rest, rfl, h⟩ := ih
      exact ⟨c :: cs, rest, rfl, h⟩
    | uuid i u => exact ⟨[], .uuid i u :: T, rfl, by simp⟩

/-! ## UUIDs and placeholders -/

def placeholderChars : Text := "0123456789_UID".toList

/-- The characters of UUIDs and placeholders. -/
def blockChars : Text := "0123456789abcdefABCDEF-_UI".toList

/-- A word that lies with no part of it at the start of a UUID or a placeholder: it does not end
    with a digit or `_`, and has no digit before `-` and no `__`. -/
structure Tame (w : Text) : Prop where
  side : w.IsChain fun c d => ¬ (hexDigit c = true ∧ d = '-') ∧ ¬ (c = '_' ∧ d = '_')
  last : ∀ c ∈ w.getLast?, hexDigit c = false ∧ c ≠ '_'

theorem Tame.of_suffix {w y : Text} (h : Tame w) (hy : y <:+ w) : Tame y := by
  refine ⟨h.side.suffix hy, fun c hc => h.last c ?_⟩
  obtain ⟨x, rfl⟩ := hy
  rw [List.getLast?_append, hc]
  rfl

/-- What UUIDs and placeholders have in common. -/
structure Block (s : Text) : Prop where
  long : 10 ≤ s.length
  chars : ∀ c ∈ s, c ∈ blockChars
  wild : ∀ y rest, y ≠ [] → y <+: s ++ rest → ¬ Tame y
  dashes : ∀ y rest, y ≠ [] → y <:+ s → ¬ ['-', '-'] <+: y ++ rest

theorem ne_nil_of_block {s : Text} (h : Block s) : s ≠ [] := by
  rintro rfl
  simpa using h.long

/-- A UUID: eight digits, a dash, and the rest. -/
theorem uuid_parts {u : Text} (h : uuidPattern.Lang u) :
    ∃ a v, u = a ++ '-' :: v ∧ a.length = 8 ∧ (∀ c ∈ a, hexDigit c = true) ∧ v.length = 27 := by
  obtain ⟨a, _, rfl, ha, _, v₁, rfl, ⟨c₁, hc₁, rfl⟩, w₂, _, rfl, h₂, _, v₂, rfl, ⟨c₂, hc₂, rfl⟩,
    w₃, _, rfl, h₃, _, v₃, rfl, ⟨c₃, hc₃, rfl⟩, w₄, _, rfl, h₄, _, w₅, rfl, ⟨c₄, hc₄, rfl⟩, h₅⟩ := h
  rw [Re.lang_times] at ha h₂ h₃ h₄ h₅
  refine ⟨a, _, by simp only [of_decide_eq_true hc₁]; rfl, ha.1, ha.2, ?_⟩
  simp [h₂.1, h₃.1, h₄.1, h₅.1]

/-- No digit is before a dash in a tame word, and none ends it. -/
theorem not_tame_digits {a v y rest : Text} (ha : ∀ c ∈ a, hexDigit c = true) (hne : a ≠ [])
    (hy : y ≠ []) (hpre : y <+: a ++ '-' :: v ++ rest) : ¬ Tame y := by
  intro htame
  obtain ⟨z, hz⟩ := hpre
  rw [List.append_assoc, List.cons_append] at hz
  obtain ⟨c, hc⟩ := List.getLast?_isSome.2 hy |> Option.isSome_iff_exists.1
  rcases List.append_eq_append_iff.1 hz with ⟨x, rfl, -⟩ | ⟨x, rfl, hx⟩
  · -- the word ends in the digits
    have hdigit := ha c (List.mem_append_left _ (List.mem_of_getLast? hc))
    rw [(htame.last c hc).1] at hdigit
    cases hdigit
  · cases x with
    | nil =>
      rw [List.append_nil] at hc
      have hdigit := ha c (List.mem_of_getLast? hc)
      rw [(htame.last c (by rwa [List.append_nil])).1] at hdigit
      cases hdigit
    | cons d x =>
      obtain ⟨rfl, -⟩ := List.cons.inj hx
      obtain ⟨e, he⟩ := List.getLast?_isSome.2 hne |> Option.isSome_iff_exists.1
      exact ((List.isChain_append.1 htame.side).2.2 e he '-' (by simp)).1
        ⟨ha e (List.mem_of_getLast? he), rfl⟩

theorem hexDigits_subset : hexDigits.all (fun c => decide (c ∈ blockChars)) = true := by decide

theorem placeholderChars_subset :
    placeholderChars.all (fun c => decide (c ∈ blockChars) && c != '-') = true := by decide

theorem block_uuid {u : Text} (h : uuidPattern.Lang u) : Block u := by
  have hshape := Re.shape_of_lang h
  obtain ⟨a, v, rfl, hlen, ha, hv⟩ := uuid_parts h
  refine ⟨by simp [hlen, hv], fun c hc => ?_, fun y rest hy hpre => ?_, fun y rest hy hsuf => ?_⟩
  · have hallow := Re.allows_of_lang h c hc
    simp only [uuidPattern, Re.times, Re.allows, Bool.or_eq_true, Bool.false_eq_true, or_false,
      or_self, decide_eq_true_eq] at hallow
    have hhex : hexDigit c = true ∨ c = '-' := by tauto
    rcases hhex with hhex | rfl
    · exact of_decide_eq_true (List.all_eq_true.1 hexDigits_subset c (of_decide_eq_true hhex))
    · decide
  · exact not_tame_digits ha (by rintro rfl; cases hlen) hy hpre
  · -- no two dashes are side by side, and none is last
    cases y with
    | nil => exact absurd rfl hy
    | cons c y =>
      rw [List.cons_append, List.cons_prefix_cons]
      rintro ⟨rfl, hpre⟩
      cases y with
      | nil =>
        have hlast := hshape.last '-' (by
          obtain ⟨x, hx⟩ := hsuf
          rw [← hx]
          simp)
        exact absurd hlast (by decide)
      | cons d y =>
        rw [List.cons_append, List.cons_prefix_cons] at hpre
        obtain ⟨rfl, -⟩ := hpre
        have hchain := hshape.follow.suffix hsuf
        rw [List.isChain_cons_cons] at hchain
        exact absurd hchain.1 (by decide)

theorem placeholder_eq (i : ℕ) :
    placeholder i =
      '_' :: '_' :: 'U' :: 'U' :: 'I' :: 'D' :: '_' :: (Nat.toDigits 10 i ++ ['_', '_']) := rfl

theorem mem_placeholder {i : ℕ} {c : Char} (hc : c ∈ placeholder i) :
    c ∈ placeholderChars := by
  have hends : ['_', 'U', 'I', 'D'].all (fun d => decide (d ∈ placeholderChars)) = true := by decide
  rw [placeholder_eq] at hc
  simp only [List.mem_cons, List.mem_append, List.not_mem_nil, or_false] at hc
  by_cases hdigit : c ∈ Nat.toDigits 10 i
  · obtain ⟨d, hd, rfl⟩ := Numeral.exists_of_isDigit (Numeral.isDigit_toDigits c hdigit)
    interval_cases d <;> decide
  · exact of_decide_eq_true (List.all_eq_true.1 hends c (by simp only [List.mem_cons]; tauto))

theorem block_placeholder (i : ℕ) : Block (placeholder i) := by
  have hpos : 0 < (Nat.toDigits 10 i).length := Nat.length_toDigits_pos
  have hsub : ∀ c ∈ placeholderChars, c ∈ blockChars ∧ c ≠ '-' := fun c hc => by
    simpa using List.all_eq_true.1 placeholderChars_subset c hc
  refine ⟨?_, fun c hc => (hsub c (mem_placeholder hc)).1, fun y rest hy hpre htame => ?_,
    fun y rest hy hsuf hpre => ?_⟩
  · rw [placeholder_eq]
    simp only [List.length_cons, List.length_append, List.length_nil]
    omega
  · rw [placeholder_eq] at hpre
    cases y with
    | nil => exact hy rfl
    | cons c y =>
      obtain ⟨rfl, htail⟩ := List.cons_prefix_cons.1 hpre
      cases y with
      | nil => exact (htame.last '_' rfl).2 rfl
      | cons d y =>
        obtain ⟨rfl, -⟩ := List.cons_prefix_cons.1 htail
        exact (List.isChain_cons_cons.1 htame.side).1.2 ⟨rfl, rfl⟩
  · cases y with
    | nil => exact hy rfl
    | cons c y =>
      obtain ⟨rfl, -⟩ := List.cons_prefix_cons.1 hpre
      exact (hsub _ (mem_placeholder (hsuf.subset (by simp)))).2 rfl

/-- A UUID reads as a block. -/
theorem Sound.block {T : List Token} (hT : Sound T) {i : ℕ} {u : Text} (hmem : .uuid i u ∈ T)
    (shown : ℕ → Bool) : Block ((Token.uuid i u).render shown) := by
  rw [Token.render]
  split_ifs
  · exact block_uuid (hT i u hmem)
  · exact block_placeholder i

/-! ## Matches of whole tokens -/

/-- A match that takes whole tokens. -/
structure Part where
  taken : List Token
  rest : List Token
  group : Option Text

def Part.read (b : Bool) (x : Part) : Regex.Match := ⟨view b x.taken, view b x.rest, x.group⟩

/-- The matches at the start take whole tokens, the same ones in both readings. -/
def Same (r : Re) (T : List Token) : Prop :=
  ∃ parts : List Part, (∀ x ∈ parts, x.taken ++ x.rest = T) ∧
    ∀ b, r.run (view b T) = parts.map (Part.read b)

/-- The preferred match takes whole tokens, the same ones in both readings. -/
def Agrees (r : Re) (T : List Token) : Prop :=
  ∃ part : Option Part, (∀ x ∈ part, x.taken ++ x.rest = T) ∧
    ∀ b, r.match? (view b T) = part.map (Part.read b)

/-- The expression matches nothing from inside a UUID or a placeholder. -/
def Dead (r : Re) : Prop :=
  ∀ s, Block s → ∀ y rest, y ≠ [] → y <:+ s → r.run (y ++ rest) = []

theorem dead_of_firsts {r : Re} (hnull : r.nullable = false)
    (h : blockChars.all (fun c => !r.firsts c) = true) : Dead r := by
  intro s hs y rest hy hsuf
  cases y with
  | nil => exact absurd rfl hy
  | cons c y =>
    have hc := List.all_eq_true.1 h c (hs.chars c (hsuf.subset (by simp)))
    exact Re.run_eq_nil hnull (by simpa using hc) _

/-- The words of the expression are tame, by its syntax. -/
def tame (r : Re) : Bool :=
  (hexDigits.all fun c => !r.follow c '-' && !r.lasts c) &&
    !r.follow '_' '_' && !r.lasts '_'

theorem tame_of_lang {r : Re} (h : tame r = true) {w : Text} (hw : r.Lang w) : Tame w := by
  simp only [tame, Bool.and_eq_true, List.all_eq_true, Bool.not_eq_true'] at h
  obtain ⟨⟨hdigits, hside⟩, hlast⟩ := h
  have hshape := Re.shape_of_lang hw
  refine ⟨hshape.follow.imp fun c d hfollow => ⟨?_, ?_⟩, fun c hc => ⟨?_, ?_⟩⟩
  · rintro ⟨hc, rfl⟩
    rw [(hdigits c (of_decide_eq_true hc)).1] at hfollow
    cases hfollow
  · rintro ⟨rfl, rfl⟩
    rw [hside] at hfollow
    cases hfollow
  · refine decide_eq_false fun hmem => ?_
    have := hshape.last c hc
    rw [(hdigits c hmem).2] at this
    cases this
  · rintro rfl
    have := hshape.last '_' hc
    rw [hlast] at this
    cases this

/-- **The matches of tame words** lie before the first UUID. -/
theorem same_of_tame {r : Re} (h : tame r = true) {T : List Token} (hT : Sound T) : Same r T := by
  obtain ⟨cs, rest, rfl, hrest⟩ := exists_chars T
  refine ⟨(r.run cs).map fun m => ⟨m.taken.map .char, m.rest.map .char ++ rest, m.group⟩,
    fun x hx => ?_, fun b => ?_⟩
  · obtain ⟨m, hm, rfl⟩ := List.mem_map.1 hx
    rw [(Re.lang_of_run hm).1, List.map_append, List.append_assoc]
  · rw [view_append, view_chars, List.map_map]
    have hall : ∀ m ∈ r.run (cs ++ view b rest), m.taken.length ≤ cs.length := by
      intro m hm
      obtain ⟨hs, hl⟩ := Re.lang_of_run hm
      rcases List.append_eq_append_iff.1 hs with ⟨y, hy, hview⟩ | ⟨y, rfl, -⟩
      · -- what the match takes behind the characters would begin a block
        cases rest with
        | nil =>
          obtain ⟨rfl, -⟩ := List.append_eq_nil_iff.1 hview.symm
          simp [hy]
        | cons t rest =>
          obtain ⟨i, u, rfl⟩ := hrest t (by simp)
          have hblock := (hT.right).block (List.mem_cons_self ..) fun _ => b
          by_contra hlen
          have hne : y ≠ [] := by
            rintro rfl
            simp [hy] at hlen
          refine hblock.wild y (view b rest) hne ⟨m.rest, ?_⟩
            ((tame_of_lang h hl).of_suffix ⟨cs, hy.symm⟩)
          rw [← hview, view_cons]
          rfl
      · simp
    have hrun := Re.run_append r (view b rest) cs
    rw [List.filter_eq_self.2 (by simpa using hall)] at hrun
    rw [hrun]
    refine List.map_congr_left fun m _ => ?_
    simp [Part.read, Regex.Match.before]

theorem Same.agrees {r : Re} {T : List Token} (h : Same r T) : Agrees r T := by
  obtain ⟨parts, hparts, hrun⟩ := h
  refine ⟨parts.head?, fun x hx => hparts x (List.mem_of_mem_head? hx), fun b => ?_⟩
  rw [Re.match?, hrun, List.head?_map]

section
variable {a c : Re} {T : List Token}

/-- One expression after another takes whole tokens if both do. -/
theorem Same.seq (hT : Sound T) (ha : Same a T) (hc : ∀ T, Sound T → Same c T) :
    Same (.seq a c) T := by
  obtain ⟨parts, hparts, hrun⟩ := ha
  suffices h : ∀ parts : List Part, (∀ x ∈ parts, x.taken ++ x.rest = T) →
      ∃ parts' : List Part, (∀ x ∈ parts', x.taken ++ x.rest = T) ∧
        ∀ b, (parts.map (Part.read b)).flatMap (fun m => (c.run m.rest).map fun n =>
          (⟨m.taken ++ n.taken, n.rest, n.group.or m.group⟩ : Regex.Match)) =
            parts'.map (Part.read b) by
    obtain ⟨parts', hparts', hrun'⟩ := h parts hparts
    exact ⟨parts', hparts', fun b => by rw [Re.run, hrun, hrun']⟩
  intro parts hparts
  induction parts with
  | nil => exact ⟨[], by simp, fun _ => rfl⟩
  | cons x parts ih =>
    obtain ⟨later, hlater, hrun'⟩ := ih fun y hy => hparts y (by simp [hy])
    have hx := hparts x (by simp)
    obtain ⟨here, hhere, hrun''⟩ := hc x.rest (hx ▸ hT).right
    refine ⟨here.map (fun y => ⟨x.taken ++ y.taken, y.rest, y.group.or x.group⟩) ++ later,
      fun y hy => ?_, fun b => ?_⟩
    · rcases List.mem_append.1 hy with hy | hy
      · obtain ⟨z, hz, rfl⟩ := List.mem_map.1 hy
        rw [List.append_assoc, hhere z hz, hx]
      · exact hlater y hy
    · rw [List.map_cons, List.flatMap_cons, hrun', List.map_append, List.map_map]
      simp only [Part.read]
      rw [hrun'', List.map_map]
      congr 1
      refine List.map_congr_left fun y _ => ?_
      simp [Part.read]

/-- The preferred match of the second is enough. -/
theorem Agrees.seq (hT : Sound T) (ha : Same a T) (hc : ∀ T, Sound T → Agrees c T) :
    Agrees (.seq a c) T := by
  obtain ⟨parts, hparts, hrun⟩ := ha
  suffices h : ∀ parts : List Part, (∀ x ∈ parts, x.taken ++ x.rest = T) →
      ∃ part : Option Part, (∀ x ∈ part, x.taken ++ x.rest = T) ∧
        ∀ b, ((parts.map (Part.read b)).flatMap (fun m => (c.run m.rest).map fun n =>
          (⟨m.taken ++ n.taken, n.rest, n.group.or m.group⟩ : Regex.Match))).head? =
            part.map (Part.read b) by
    obtain ⟨part, hpart, hrun'⟩ := h parts hparts
    exact ⟨part, hpart, fun b => by rw [Re.match?, Re.run, hrun, hrun']⟩
  intro parts hparts
  induction parts with
  | nil => exact ⟨none, by simp, fun _ => rfl⟩
  | cons x parts ih =>
    obtain ⟨later, hlater, hrun'⟩ := ih fun y hy => hparts y (by simp [hy])
    have hx := hparts x (by simp)
    obtain ⟨here, hhere, hrun''⟩ := hc x.rest (hx ▸ hT).right
    refine ⟨(here.map fun y => ⟨x.taken ++ y.taken, y.rest, y.group.or x.group⟩).or later,
      fun y hy => ?_, fun b => ?_⟩
    · cases here with
      | none => exact hlater y hy
      | some z =>
        obtain rfl := Option.some.inj hy
        rw [List.append_assoc, hhere z rfl, hx]
    · have hhead := hrun'' b
      rw [Re.match?] at hhead
      rw [List.map_cons, List.flatMap_cons, List.head?_append, hrun', List.head?_map]
      simp only [Part.read]
      rw [hhead]
      cases here with
      | none => simp
      | some z => simp [Part.read]

end

/-! ## Repetitions -/

/-- The class takes every character of UUIDs and placeholders. -/
def Open (p : Char → Bool) : Prop := blockChars.all p = true

theorem Open.block {p : Char → Bool} (h : Open p) {s : Text} (hs : Block s) : ∀ c ∈ s, p c = true :=
  fun c hc => List.all_eq_true.1 h c (hs.chars c hc)

section
variable {p : Char → Bool} {c : Re} {T : List Token}

/-- The matches behind a token, seen from before it. -/
theorem map_after (t : Token) (parts : List Part) (b : Bool) :
    (parts.map (Part.read b)).map (Regex.Match.after (t.read b)) =
      (parts.map fun x => (⟨t :: x.taken, x.rest, x.group⟩ : Part)).map (Part.read b) := by
  rw [List.map_map, List.map_map]
  refine List.map_congr_left fun x _ => ?_
  simp [Part.read, Regex.Match.after, view_cons]

/-- A repetition up to an expression that no UUID begins takes whole tokens. -/
theorem Same.many (hopen : Open p) (hdead : Dead c) (hc : ∀ T, Sound T → Same c T) :
    ∀ T, Sound T → ∀ least ≤ 10, Same (.seq (.many p least) c) T := by
  intro T
  induction T with
  | nil =>
    intro hT least _
    obtain ⟨parts, hparts, hrun⟩ := hc [] hT
    refine ⟨if least = 0 then parts else [], fun x hx => ?_, fun b => ?_⟩
    · split_ifs at hx
      · exact hparts x hx
      · cases hx
    · rw [view_nil, Re.run_many_nil]
      split_ifs
      · exact hrun b
      · rfl
  | cons t T ih =>
    intro hT least hleast
    cases t with
    | char d =>
      obtain ⟨here, hhere, hrun⟩ := hc (.char d :: T) hT
      obtain ⟨parts, hparts, hrun'⟩ := ih hT.tail (least - 1) (by omega)
      refine ⟨(if p d then parts.map fun x => ⟨.char d :: x.taken, x.rest, x.group⟩ else []) ++
        if least = 0 then here else [], fun x hx => ?_, fun b => ?_⟩
      · rcases List.mem_append.1 hx with hx | hx
        · split_ifs at hx
          · obtain ⟨y, hy, rfl⟩ := List.mem_map.1 hx
            rw [List.cons_append, hparts y hy]
          · cases hx
        · split_ifs at hx
          · exact hhere x hx
          · cases hx
      · have hafter := map_after (.char d) parts b
        rw [view_char, Re.run_many_cons, hrun', List.map_append]
        congr 1
        · split_ifs
          · exact hafter
          · rfl
        · split_ifs
          · exact hrun b
          · rfl
    | uuid i u =>
      obtain ⟨parts, hparts, hrun⟩ := ih hT.tail 0 (Nat.zero_le _)
      refine ⟨parts.map fun x => ⟨.uuid i u :: x.taken, x.rest, x.group⟩, fun x hx => ?_,
        fun b => ?_⟩
      · obtain ⟨y, hy, rfl⟩ := List.mem_map.1 hx
        rw [List.cons_append, hparts y hy]
      · have hblock : Block ((Token.uuid i u).read b) := hT.block (List.mem_cons_self ..) _
        have hlong := hblock.long
        rw [view_cons, Re.run_many_skip (hopen.block hblock)
          (fun y hy hsuf => hdead _ hblock y _ hy hsuf),
          show least - ((Token.uuid i u).read b).length = 0 by omega, hrun, map_after]

theorem Same.fewest (hopen : Open p) (hdead : Dead c) (hc : ∀ T, Sound T → Same c T) :
    ∀ T, Sound T → Same (.seq (.fewest p) c) T := by
  intro T
  induction T with
  | nil =>
    intro hT
    obtain ⟨parts, hparts, hrun⟩ := hc [] hT
    exact ⟨parts, hparts, fun b => by rw [view_nil, Re.run_fewest_nil]; exact hrun b⟩
  | cons t T ih =>
    intro hT
    obtain ⟨parts, hparts, hrun⟩ := ih hT.tail
    cases t with
    | char d =>
      obtain ⟨here, hhere, hrun'⟩ := hc (.char d :: T) hT
      refine ⟨here ++ if p d then parts.map fun x => ⟨.char d :: x.taken, x.rest, x.group⟩ else [],
        fun x hx => ?_, fun b => ?_⟩
      · rcases List.mem_append.1 hx with hx | hx
        · exact hhere x hx
        · split_ifs at hx
          · obtain ⟨y, hy, rfl⟩ := List.mem_map.1 hx
            rw [List.cons_append, hparts y hy]
          · cases hx
      · have hafter := map_after (.char d) parts b
        have hhead := hrun' b
        rw [view_char] at hhead ⊢
        rw [Re.run_fewest_cons, hrun, List.map_append, hhead]
        congr 1
        split_ifs
        · exact hafter
        · rfl
    | uuid i u =>
      refine ⟨parts.map fun x => ⟨.uuid i u :: x.taken, x.rest, x.group⟩, fun x hx => ?_,
        fun b => ?_⟩
      · obtain ⟨y, hy, rfl⟩ := List.mem_map.1 hx
        rw [List.cons_append, hparts y hy]
      · have hblock : Block ((Token.uuid i u).read b) := hT.block (List.mem_cons_self ..) _
        rw [view_cons, Re.run_fewest_skip (hopen.block hblock)
          (fun y hy hsuf => hdead _ hblock y _ hy hsuf), hrun, map_after]

/-- The token belongs to a run of characters of the class. -/
def Token.runs (p : Char → Bool) : Token → Bool
  | char c => p c
  | uuid _ _ => true

theorem takeWhile_view (hopen : Open p) (b : Bool) : ∀ T, Sound T →
    (view b T).takeWhile p = view b (T.takeWhile (Token.runs p)) ∧
      (view b T).dropWhile p = view b (T.dropWhile (Token.runs p)) := by
  intro T
  induction T with
  | nil => exact fun _ => ⟨rfl, rfl⟩
  | cons t T ih =>
    intro hT
    obtain ⟨htake, hdrop⟩ := ih hT.tail
    cases t with
    | char c => by_cases hp : p c <;> simp [Token.runs, hp, htake, hdrop]
    | uuid i u =>
      have hblock : Block ((Token.uuid i u).read b) := hT.block (List.mem_cons_self ..) _
      have hall := hopen.block hblock
      rw [view_cons, List.takeWhile_append_of_pos hall, List.dropWhile_append_of_pos hall, htake,
        hdrop, List.takeWhile_cons_of_pos rfl, List.dropWhile_cons_of_pos rfl, view_cons]
      exact ⟨rfl, rfl⟩

/-- Tokens that are long enough in one reading are in the other, if a UUID alone is. -/
theorem le_view {b b' : Bool} : ∀ (T : List Token) (least : ℕ),
    (∀ i u, .uuid i u ∈ T → least ≤ ((Token.uuid i u).read b').length) →
    least ≤ (view b T).length → least ≤ (view b' T).length := by
  intro T
  induction T with
  | nil => exact fun _ _ h => h
  | cons t T ih =>
    intro least hlong hle
    cases t with
    | char c =>
      have hgo := ih (least - 1) fun i u hu =>
        le_trans (Nat.sub_le _ _) (hlong i u (by simp [hu]))
      simp only [view_char, List.length_cons] at hle ⊢
      omega
    | uuid i u =>
      have := hlong i u (by simp)
      rw [view_cons, List.length_append]
      omega

/-- A repetition to the end of its class takes whole tokens. -/
theorem agrees_many (hopen : Open p) {least : ℕ} (hleast : least ≤ 10) (hT : Sound T) :
    Agrees (.many p least) T := by
  have hsound : Sound (T.takeWhile (Token.runs p)) :=
    hT.of_subset (List.takeWhile_sublist _).subset
  have hlong : ∀ b i u, .uuid i u ∈ T.takeWhile (Token.runs p) →
      least ≤ ((Token.uuid i u).read b).length :=
    fun b i u hu => hleast.trans (hsound.block hu _).long
  refine ⟨if least ≤ (view true (T.takeWhile (Token.runs p))).length then
    some ⟨T.takeWhile (Token.runs p), T.dropWhile (Token.runs p), none⟩ else none,
    fun x hx => ?_, fun b => ?_⟩
  · split_ifs at hx
    · obtain rfl := Option.some.inj hx
      exact List.takeWhile_append_dropWhile
    · cases hx
  · have hiff : least ≤ (view b (T.takeWhile (Token.runs p))).length ↔
        least ≤ (view true (T.takeWhile (Token.runs p))).length :=
      ⟨le_view _ _ (hlong true), le_view _ _ (hlong b)⟩
    rw [Re.match?_many, (takeWhile_view hopen b T hT).1, (takeWhile_view hopen b T hT).2]
    simp only [hiff]
    split_ifs
    · rfl
    · rfl

end

/-! ## API keys -/

/-- What the placeholders cannot have a part in is read from characters. -/
theorem chars_of_prefix : ∀ {T : List Token} {w : Text},
    w.IsChain (fun c d => ¬ (c = '_' ∧ d = '_')) → (∀ c ∈ w.getLast?, c ≠ '_') →
      w <+: view false T → ∃ rest, T = w.map .char ++ rest := by
  intro T
  induction T with
  | nil =>
    intro w _ _ hpre
    exact ⟨[], by rw [List.prefix_nil.1 hpre]; rfl⟩
  | cons t T ih =>
    intro w hside hlast hpre
    cases w with
    | nil => exact ⟨t :: T, rfl⟩
    | cons c w =>
      cases t with
      | char d =>
        obtain ⟨rfl, hpre'⟩ := List.cons_prefix_cons.1 hpre
        have hlast' : ∀ d ∈ w.getLast?, d ≠ '_' := fun d hd => hlast d (by
          rw [Option.mem_def] at hd
          simp [List.getLast?_cons, hd])
        obtain ⟨rest, rfl⟩ := ih (w := w) hside.tail hlast' hpre'
        exact ⟨rest, rfl⟩
      | uuid i u =>
        obtain ⟨rfl, htail⟩ := List.cons_prefix_cons.1 hpre
        cases w with
        | nil => exact absurd rfl (hlast '_' rfl)
        | cons d w =>
          obtain ⟨rfl, -⟩ := List.cons_prefix_cons.1 htail
          exact absurd ⟨rfl, rfl⟩ (List.isChain_cons_cons.1 hside).1

section
variable {start : Text} {p : Char → Bool} {least : ℕ} {T : List Token}

theorem lang_key {w : Text} : (Re.seq (.lit start) (.many p least)).Lang w ↔
    ∃ t, w = start ++ t ∧ least ≤ t.length ∧ ∀ c ∈ t, p c = true := by
  constructor
  · rintro ⟨u, t, rfl, hu, ht⟩
    exact ⟨t, by rw [Re.lang_lit.1 hu], ht⟩
  · rintro ⟨t, rfl, ht⟩
    exact ⟨start, t, rfl, Re.lang_lit.2 rfl, ht⟩

/-- What the class does not take behind a match is a character, and it is not taken with the
    placeholders either. -/
theorem takeWhile_behind (hhex : hexDigits.all p = true) (hT : Sound T)
    (h : ∀ c ∈ (view true T).head?, p c = false) :
    (view false T).takeWhile p = [] ∧ (view false T).dropWhile p = view false T := by
  cases T with
  | nil => exact ⟨rfl, rfl⟩
  | cons t T =>
    cases t with
    | char c =>
      have hc := h c rfl
      simp [hc]
    | uuid i u =>
      obtain ⟨a, v, rfl, hlen, ha, -⟩ := uuid_parts (hT i u (by simp))
      cases a with
      | nil => cases hlen
      | cons d a =>
        have := h d rfl
        rw [List.all_eq_true.1 hhex d (of_decide_eq_true (ha d (by simp)))] at this
        cases this

/-- A key that is matched as a whole is with the placeholders. -/
theorem match?_whole (hhex : hexDigits.all p = true) (hT : Sound T)
    (hwhole : whole (.seq (.lit start) (.many p least)) T = true) {m : Regex.Match}
    (hm : (Re.seq (.lit start) (.many p least)).match? (view true T) = some m) :
    ∃ A B, A ++ B = T ∧ ∀ b, (Re.seq (.lit start) (.many p least)).match? (view b T) =
      some ⟨view b A, view b B, none⟩ := by
  rw [whole, hm] at hwhole
  simp only [Option.all_some, List.any_eq_true, Bool.and_eq_true, decide_eq_true_eq,
    List.mem_inits, Option.any_eq_true] at hwhole
  obtain ⟨A, ⟨B, rfl⟩, htaken, m', hm', htaken'⟩ := hwhole
  obtain ⟨hs, hl⟩ := Re.match?_some hm
  obtain ⟨t, ht, -, -⟩ := lang_key.1 hl
  obtain ⟨t', ht', hlen', hall'⟩ := lang_key.1 (Re.match?_some hm').2
  have hrest : m.rest = view true B := by
    rw [view_append, htaken] at hs
    exact (List.append_cancel_left hs).symm
  rw [hs, ht, List.append_assoc, Re.match?_lit_many] at hm
  split_ifs at hm with hlen
  have hrest' := congrArg Regex.Match.rest (Option.some.inj hm)
  have htaken₂ := congrArg Regex.Match.taken (Option.some.inj hm)
  have hgroup := congrArg Regex.Match.group (Option.some.inj hm)
  simp only at hrest' hgroup
  have hbehind : ∀ c ∈ (view true B).head?, p c = false := by
    intro c hc
    have := List.head?_dropWhile_not p (t ++ m.rest)
    rw [hrest', hrest, hc] at this
    simpa using this
  obtain ⟨htake, hdrop⟩ := takeWhile_behind hhex hT.right hbehind
  refine ⟨A, B, rfl, fun b => ?_⟩
  cases b with
  | true => rw [hs, ht, List.append_assoc, Re.match?_lit_many, if_pos hlen, htaken, ← hrest, hrest',
      ← htaken₂]
  | false =>
    rw [htaken'] at ht'
    rw [view_append, ht', List.append_assoc, Re.match?_lit_many,
      List.takeWhile_append_of_pos hall', List.dropWhile_append_of_pos hall', htake, hdrop,
      List.append_nil, if_pos hlen']

/-- A key whose class has no `_`, or has every character of the placeholders. -/
def Keylike (start : Text) (p : Char → Bool) (least : ℕ) : Prop :=
  (p '_' = false ∧ 1 ≤ least ∧ start.IsChain fun c d => ¬ (c = '_' ∧ d = '_')) ∨
    (Open p ∧ least ≤ 36 ∧ '_' ∉ start)

/-- No key is found with the placeholders only. -/
theorem match?_key_none (hkey : Keylike start p least) (hT : Sound T)
    (h : (Re.seq (.lit start) (.many p least)).match? (view true T) = none) :
    (Re.seq (.lit start) (.many p least)).match? (view false T) = none := by
  rw [Re.match?_eq_none] at h ⊢
  rintro w hw hpre
  obtain ⟨t, rfl, hlen, hall⟩ := lang_key.1 hw
  rcases hkey with ⟨hp, hpos, hside⟩ | ⟨hopen, hleast, hstart⟩
  · have hnotMem : '_' ∉ t := fun hmem => by
      rw [hall '_' hmem] at hp
      cases hp
    have hne : t ≠ [] := List.length_pos_iff.1 (by omega)
    have hchain : (start ++ t).IsChain fun c d => ¬ (c = '_' ∧ d = '_') := by
      refine hside.append ?_ ?_
      · refine (Regex.isChain_of_forall hall).imp fun c d hcd => ?_
        rintro ⟨rfl, -⟩
        simp [hp] at hcd
      · rintro c - d hd ⟨-, rfl⟩
        exact hnotMem (List.mem_of_mem_head? hd)
    obtain ⟨rest, rfl⟩ := chars_of_prefix hchain (fun c hc => by
      rw [List.getLast?_append_of_ne_nil _ hne] at hc
      rintro rfl
      exact hnotMem (List.mem_of_getLast? hc)) hpre
    refine h (start ++ t) hw ?_
    rw [view_append, view_chars]
    exact List.prefix_append _ _
  · have hne : ∀ c ∈ start, (c != '_') = true := fun c hc => by
      rw [bne_iff_ne]
      rintro rfl
      exact hstart hc
    have hchain : start.IsChain fun c d => ¬ (c = '_' ∧ d = '_') := by
      refine (Regex.isChain_of_forall hne).imp fun c d hcd => ?_
      rintro ⟨rfl, -⟩
      cases hcd
    obtain ⟨rest, rfl⟩ := chars_of_prefix hchain (fun c hc => by
      rintro rfl
      exact hstart (List.mem_of_getLast? hc)) ((List.prefix_append _ _).trans hpre)
    have hrest := hT.right
    rw [view_append, view_chars, List.prefix_append_right_inj] at hpre
    have hlong : least ≤ ((view true rest).takeWhile p).length := by
      rw [(takeWhile_view hopen true rest hrest).1]
      refine le_view (b := false) _ _ (fun i u hu => ?_) ?_
      · have hu' := (List.takeWhile_sublist _).subset hu
        obtain ⟨a, v, rfl, ha, -, hv⟩ := uuid_parts (hrest i u hu')
        simp only [Token.read, Token.render, if_true, List.length_append, List.length_cons]
        omega
      · rw [← (takeWhile_view hopen false rest hrest).1]
        obtain ⟨z, hz⟩ := hpre
        rw [← hz, List.takeWhile_append_of_pos hall, List.length_append]
        omega
    refine h (start ++ (view true rest).takeWhile p) (lang_key.2 ⟨_, rfl, hlong,
      fun c hc => List.mem_takeWhile_imp hc⟩) ?_
    rw [view_append, view_chars, List.prefix_append_right_inj]
    exact List.takeWhile_prefix _

/-- **A key takes whole tokens** where it is matched as a whole. -/
theorem agrees_key (hhex : hexDigits.all p = true)
    (hkey : Keylike start p least) (hT : Sound T)
    (hwhole : whole (.seq (.lit start) (.many p least)) T = true) :
    Agrees (.seq (.lit start) (.many p least)) T := by
  cases hm : (Re.seq (.lit start) (.many p least)).match? (view true T) with
  | none =>
    refine ⟨none, by simp, fun b => ?_⟩
    cases b with
    | true => exact hm
    | false => exact match?_key_none hkey hT hm
  | some m =>
    obtain ⟨A, B, hAB, hmatch⟩ := match?_whole hhex hT hwhole hm
    refine ⟨some ⟨A, B, none⟩, fun x hx => ?_, hmatch⟩
    obtain rfl := Option.some.inj hx
    exact hAB

end

/-! ## The rules and the tokens -/

/-- What every rule comes to: no match begins in a placeholder, and matches take whole tokens. -/
structure Rule.Fair (rule : Rule) : Prop where
  nonempty : rule.pattern.nullable = false
  starts : placeholderChars.all (fun c => !rule.pattern.firsts c) = true
  agrees : ∀ T, Sound T → (rule.kind = .apiKey → whole rule.pattern T = true) →
    Agrees rule.pattern T

theorem fair_apiKey {start : String} {p : Char → Bool} {least : ℕ}
    (hhex : hexDigits.all p = true)
    (hkey : Keylike start.toList p least)
    (hnonempty : (apiKeyRule start p least).pattern.nullable = false)
    (hstarts : placeholderChars.all
      (fun c => !(apiKeyRule start p least).pattern.firsts c) = true) :
    (apiKeyRule start p least).Fair :=
  ⟨hnonempty, hstarts, fun _ hT hwhole => agrees_key hhex hkey hT (hwhole rfl)⟩

theorem open_nonspace : Open nonspace := by
  unfold Open
  decide

theorem fair_privateKey : privateKeyRule.Fair where
  nonempty := by decide
  starts := by decide
  agrees T hT _ := by
    have hdead : Dead (keyLine "-----END") := by
      intro s hs y rest hy hsuf
      refine List.eq_nil_iff_forall_not_mem.2 fun m hm => ?_
      obtain ⟨hm, u, v, htaken, hu, -⟩ := Re.lang_of_run hm
      refine hs.dashes y rest hy hsuf ?_
      rw [hm, htaken, Re.lang_lit.1 hu]
      exact ⟨_, rfl⟩
    refine (Same.seq hT (same_of_tame (by decide) hT) fun T hT => ?_).agrees
    exact Same.fewest (by rfl) hdead (fun T hT => same_of_tame (by decide) hT) T hT

theorem fair_bearer : bearerRule.Fair where
  nonempty := by decide
  starts := by decide
  agrees _ hT _ := Agrees.seq hT (same_of_tame (by decide) hT)
    fun _ hT => agrees_many open_nonspace le_rfl hT

theorem fair_keyValue : keyValueRule.Fair where
  nonempty := by decide
  starts := by decide
  agrees _ hT _ := Agrees.seq hT (same_of_tame (by decide) hT)
    fun _ hT => agrees_many (by unfold Open; decide) (by decide) hT

theorem fair_databaseUrl : databaseUrlRule.Fair where
  nonempty := by decide
  starts := by decide
  agrees _ hT _ := by
    refine (Same.seq hT (same_of_tame (by decide) hT) fun T hT => ?_).agrees
    refine Same.many open_nonspace (dead_of_firsts (by decide) (by decide)) (fun T hT => ?_) T hT 1
      (by decide)
    refine Same.seq hT (same_of_tame (by decide) hT) fun T hT => ?_
    exact Same.many open_nonspace (dead_of_firsts (by decide) (by decide))
      (fun T hT => same_of_tame (by decide) hT) T hT 1 (by decide)

theorem fair_path {start : String} (htame : tame (.lit start.toList) = true)
    (hnonempty : (pathRule start).pattern.nullable = false)
    (hstarts : placeholderChars.all (fun c => !(pathRule start).pattern.firsts c) = true) :
    (pathRule start).Fair :=
  ⟨hnonempty, hstarts, fun _ hT _ => Agrees.seq hT (same_of_tame htame hT)
    fun _ hT => agrees_many (by unfold Open; decide) (by decide) hT⟩

/-- **Every rule takes whole tokens.** -/
theorem fair_redactionRules : ∀ rule ∈ redactionRules, rule.Fair := by
  have hplain : ∀ (start : String), start.toList.IsChain (fun c d => ¬ (c = '_' ∧ d = '_')) →
      Keylike start.toList Char.isAlphanum 20 := fun _ h => .inl ⟨by decide, by decide, h⟩
  simp only [redactionRules, List.mem_cons, List.not_mem_nil, or_false]
  rintro rule (rfl | rfl | rfl | rfl | rfl | rfl | rfl | rfl | rfl | rfl | rfl)
  · exact fair_privateKey
  · exact fair_apiKey (by decide) (.inl ⟨by decide, by decide, by decide⟩) (by decide) (by decide)
  · exact fair_apiKey (by decide) (hplain _ (by decide)) (by decide) (by decide)
  · exact fair_apiKey (by decide) (hplain _ (by decide)) (by decide) (by decide)
  · exact fair_apiKey (by decide) (hplain _ (by decide)) (by decide) (by decide)
  · exact fair_apiKey (by decide) (.inr ⟨by unfold Open; decide, by decide, by decide⟩) (by decide)
      (by decide)
  · exact fair_bearer
  · exact fair_keyValue
  · exact fair_databaseUrl
  · exact fair_path (by decide) (by decide) (by decide)
  · exact fair_path (by decide) (by decide) (by decide)

end OutputRedaction

end AimData
