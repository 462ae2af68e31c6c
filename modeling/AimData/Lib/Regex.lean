/-
  Regular expressions that are matched by backtracking, and the search for their matches.

  `Re.run` lists the ways to match at the start of a text, the preferred one first; `Re.Lang` is
  the language of an expression.  A scan goes through a text from left to right, by characters
  and by matches that do not overlap (`scan`); `sub` replaces the matches.  A word that occurs in
  the result and has no character of the replacements' ends occurs in the text (`infix_of_sub`),
  and no word of the expression does where the matches are replaced whole (`not_lang_of_sub`).
-/
import Mathlib.Tactic

namespace Regex

/-- An expression: `cls p` is one character of a class, `many p n` is `p{n,}`, `fewest p` is `p*?`,
    and `group a` is the group 1. -/
inductive Re where
  | eps
  | cls (p : Char → Bool)
  | seq (a b : Re)
  | alt (a b : Re)
  | many (p : Char → Bool) (least : ℕ)
  | fewest (p : Char → Bool)
  | group (a : Re)

/-- A match at the start of a text: what it takes, what follows, and the group 1. -/
structure Match where
  taken : List Char
  rest : List Char
  group : Option (List Char)
  deriving DecidableEq

/-- The characters of a text one after the other. -/
def Re.lit : List Char → Re
  | [] => .eps
  | [c] => .cls (· = c)
  | c :: cs => .seq (.cls (· = c)) (lit cs)

/-- One of several expressions. -/
def Re.alts : List Re → Re
  | [] => .eps
  | [a] => a
  | a :: as => .alt a (alts as)

/-- `p{n}` -/
def Re.times (p : Char → Bool) : ℕ → Re
  | 0 => .eps
  | n + 1 => .seq (.cls p) (times p n)

/-- What a character is compared as, where case is ignored. -/
def fold (c : Char) : Char :=
  if c = '\u0130' ∨ c = '\u0131' then 'i' else if c = '\u017f' then 's'
  else if c = '\u212a' then 'k' else c.toLower

/-- A text in lower case, in any case. -/
def Re.litFold : List Char → Re
  | [] => .eps
  | [c] => .cls (fold · = c)
  | c :: cs => .seq (.cls (fold · = c)) (litFold cs)

/-- `a?` -/
def Re.opt (a : Re) : Re := .alt a .eps

/-- The splits of a text after at least `least` characters of the class, the longest first. -/
def greedy (p : Char → Bool) : ℕ → List Char → List (List Char × List Char)
  | 0, [] => [([], [])]
  | _ + 1, [] => []
  | least, c :: s =>
    (if p c then (greedy p (least - 1) s).map fun m => (c :: m.1, m.2) else []) ++
      if least = 0 then [([], c :: s)] else []

/-- The splits of a text after characters of the class, the shortest first. -/
def reluctant (p : Char → Bool) : List Char → List (List Char × List Char)
  | [] => [([], [])]
  | c :: s => ([], c :: s) :: if p c then (reluctant p s).map fun m => (c :: m.1, m.2) else []

/-- The matches at the start of a text, the preferred one first. -/
def Re.run : Re → List Char → List Match
  | .eps, s => [⟨[], s, none⟩]
  | .cls _, [] => []
  | .cls p, c :: s => if p c then [⟨[c], s, none⟩] else []
  | .seq a b, s => (a.run s).flatMap fun m =>
      (b.run m.rest).map fun n => ⟨m.taken ++ n.taken, n.rest, n.group.or m.group⟩
  | .alt a b, s => a.run s ++ b.run s
  | .many p least, s => (greedy p least s).map fun m => ⟨m.1, m.2, none⟩
  | .fewest p, s => (reluctant p s).map fun m => ⟨m.1, m.2, none⟩
  | .group a, s => (a.run s).map fun m => { m with group := some m.taken }

/-- `pattern.match(text)` -/
def Re.match? (r : Re) (s : List Char) : Option Match := (r.run s).head?

/-- The words that an expression matches. -/
def Re.Lang : Re → List Char → Prop
  | .eps, w => w = []
  | .cls p, w => ∃ c, p c = true ∧ w = [c]
  | .seq a b, w => ∃ u v, w = u ++ v ∧ a.Lang u ∧ b.Lang v
  | .alt a b, w => a.Lang w ∨ b.Lang w
  | .many p least, w => least ≤ w.length ∧ ∀ c ∈ w, p c = true
  | .fewest p, w => ∀ c ∈ w, p c = true
  | .group a, w => a.Lang w

/-! ## Matches and words -/

theorem mem_greedy {p : Char → Bool} {least : ℕ} {s : List Char} {m : List Char × List Char} :
    m ∈ greedy p least s ↔ s = m.1 ++ m.2 ∧ least ≤ m.1.length ∧ ∀ c ∈ m.1, p c = true := by
  induction s generalizing least m with
  | nil =>
    obtain ⟨t, u⟩ := m
    cases least with
    | zero =>
      simp only [greedy, List.mem_singleton, Prod.mk.injEq]
      constructor
      · rintro ⟨rfl, rfl⟩
        simp
      · rintro ⟨h, -, -⟩
        exact List.append_eq_nil_iff.1 h.symm
    | succ least =>
      simp only [greedy, List.not_mem_nil, false_iff]
      rintro ⟨h, hlen, -⟩
      rw [(List.append_eq_nil_iff.1 h.symm).1] at hlen
      simp at hlen
  | cons d s ih =>
    obtain ⟨t, u⟩ := m
    simp only [greedy, List.mem_append]
    · constructor
      · rintro (h | h)
        · split_ifs at h with hp
          · obtain ⟨⟨t', u'⟩, ht, heq⟩ := List.mem_map.1 h
            obtain ⟨rfl, rfl⟩ := Prod.mk.inj heq
            obtain ⟨hs, hlen, hall⟩ := ih.1 ht
            refine ⟨by rw [hs]; rfl, ?_, fun c hc => ?_⟩
            · simp only [List.length_cons] at hlen ⊢
              omega
            rcases List.mem_cons.1 hc with rfl | hc
            · exact hp
            · exact hall c hc
          · cases h
        · split_ifs at h with h0
          · obtain ⟨rfl, rfl⟩ := Prod.mk.inj (List.mem_singleton.1 h)
            exact ⟨rfl, h0.le, by simp⟩
          · cases h
      · rintro ⟨hs, hlen, hall⟩
        cases t with
        | nil =>
          simp only [List.nil_append] at hs
          subst hs
          exact .inr (by rw [if_pos (by simpa using hlen)]; simp)
        | cons c t =>
          obtain ⟨rfl, rfl⟩ := List.cons.inj hs
          left
          rw [if_pos (hall d (by simp))]
          refine List.mem_map.2 ⟨(t, u), ih.2 ⟨rfl, ?_, fun c hc => hall c (by simp [hc])⟩, rfl⟩
          simp only [List.length_cons] at hlen ⊢
          omega

theorem mem_reluctant {p : Char → Bool} {s : List Char} {m : List Char × List Char} :
    m ∈ reluctant p s ↔ s = m.1 ++ m.2 ∧ ∀ c ∈ m.1, p c = true := by
  induction s generalizing m with
  | nil =>
    obtain ⟨t, u⟩ := m
    simp only [reluctant, List.mem_singleton, Prod.mk.injEq]
    constructor
    · rintro ⟨rfl, rfl⟩
      simp
    · rintro ⟨h, -⟩
      exact List.append_eq_nil_iff.1 h.symm
  | cons d s ih =>
    obtain ⟨t, u⟩ := m
    rw [reluctant, List.mem_cons]
    constructor
    · rintro (h | h)
      · obtain ⟨rfl, rfl⟩ := Prod.mk.inj h
        simp
      · split_ifs at h with hp
        · obtain ⟨⟨t', u'⟩, ht, heq⟩ := List.mem_map.1 h
          obtain ⟨rfl, rfl⟩ := Prod.mk.inj heq
          obtain ⟨hs, hall⟩ := ih.1 ht
          refine ⟨by rw [hs]; rfl, fun c hc => ?_⟩
          rcases List.mem_cons.1 hc with rfl | hc
          · exact hp
          · exact hall c hc
        · cases h
    · rintro ⟨hs, hall⟩
      cases t with
      | nil => exact .inl (by rw [hs]; rfl)
      | cons c t =>
        obtain ⟨rfl, rfl⟩ := List.cons.inj hs
        right
        rw [if_pos (hall d (by simp))]
        exact List.mem_map.2 ⟨(t, u), ih.2 ⟨rfl, fun c hc => hall c (by simp [hc])⟩, rfl⟩

/-- **A match takes a word of the expression** from the start of the text. -/
theorem Re.lang_of_run {r : Re} : ∀ {s : List Char} {m : Match}, m ∈ r.run s →
    s = m.taken ++ m.rest ∧ r.Lang m.taken := by
  induction r with
  | eps =>
    intro s m h
    obtain rfl := List.mem_singleton.1 h
    exact ⟨rfl, rfl⟩
  | cls p =>
    intro s m h
    cases s with
    | nil => cases h
    | cons c s =>
      rw [Re.run] at h
      split_ifs at h with hp
      · obtain rfl := List.mem_singleton.1 h
        exact ⟨rfl, c, hp, rfl⟩
      · cases h
  | seq a b iha ihb =>
    intro s m h
    obtain ⟨m₁, h₁, h⟩ := List.mem_flatMap.1 h
    obtain ⟨m₂, h₂, rfl⟩ := List.mem_map.1 h
    obtain ⟨rfl, hl₁⟩ := iha h₁
    obtain ⟨hs, hl₂⟩ := ihb h₂
    exact ⟨by rw [hs, List.append_assoc], m₁.taken, m₂.taken, rfl, hl₁, hl₂⟩
  | alt a b iha ihb =>
    intro s m h
    rcases List.mem_append.1 h with h | h
    · exact ⟨(iha h).1, .inl (iha h).2⟩
    · exact ⟨(ihb h).1, .inr (ihb h).2⟩
  | many p least =>
    intro s m h
    obtain ⟨m, hm, rfl⟩ := List.mem_map.1 h
    exact ⟨(mem_greedy.1 hm).1, (mem_greedy.1 hm).2⟩
  | fewest p =>
    intro s m h
    obtain ⟨m, hm, rfl⟩ := List.mem_map.1 h
    exact ⟨(mem_reluctant.1 hm).1, (mem_reluctant.1 hm).2⟩
  | group a iha =>
    intro s m h
    obtain ⟨m, hm, rfl⟩ := List.mem_map.1 h
    exact ⟨(iha hm).1, (iha hm).2⟩

/-- Every word of the expression is matched, whatever follows it. -/
theorem Re.run_of_lang {r : Re} : ∀ {w : List Char}, r.Lang w → ∀ u, ∃ m ∈ r.run (w ++ u),
    m.taken = w ∧ m.rest = u := by
  induction r with
  | eps =>
    rintro w rfl u
    exact ⟨_, List.mem_singleton_self _, rfl, rfl⟩
  | cls p =>
    rintro w ⟨c, hc, rfl⟩ u
    exact ⟨⟨[c], u, none⟩, by simp [Re.run, hc], rfl, rfl⟩
  | seq a b iha ihb =>
    rintro w ⟨v₁, v₂, rfl, h₁, h₂⟩ u
    rw [List.append_assoc]
    obtain ⟨m₁, hm₁, rfl, hr₁⟩ := iha h₁ (v₂ ++ u)
    obtain ⟨m₂, hm₂, rfl, hr₂⟩ := ihb h₂ u
    refine ⟨_, List.mem_flatMap.2 ⟨m₁, hm₁, List.mem_map.2 ⟨m₂, ?_, rfl⟩⟩, rfl, hr₂⟩
    rw [hr₁]
    exact hm₂
  | alt a b iha ihb =>
    rintro w (h | h) u
    · obtain ⟨m, hm, ht⟩ := iha h u
      exact ⟨m, List.mem_append_left _ hm, ht⟩
    · obtain ⟨m, hm, ht⟩ := ihb h u
      exact ⟨m, List.mem_append_right _ hm, ht⟩
  | many p least =>
    intro w h u
    exact ⟨_, List.mem_map.2 ⟨(w, u), mem_greedy.2 ⟨rfl, h⟩, rfl⟩, rfl, rfl⟩
  | fewest p =>
    intro w h u
    exact ⟨_, List.mem_map.2 ⟨(w, u), mem_reluctant.2 ⟨rfl, h⟩, rfl⟩, rfl, rfl⟩
  | group a iha =>
    intro w h u
    obtain ⟨m, hm, ht⟩ := iha h u
    exact ⟨_, List.mem_map.2 ⟨m, hm, rfl⟩, ht⟩

theorem Re.match?_some {r : Re} {s : List Char} {m : Match} (h : r.match? s = some m) :
    s = m.taken ++ m.rest ∧ r.Lang m.taken := lang_of_run (List.mem_of_mem_head? h)

/-- There is no match at the start of a text iff no word of the expression starts it. -/
theorem Re.match?_eq_none {r : Re} {s : List Char} :
    r.match? s = none ↔ ∀ w, r.Lang w → ¬ w <+: s := by
  rw [Re.match?, List.head?_eq_none_iff]
  constructor
  · rintro h w hw ⟨u, rfl⟩
    obtain ⟨m, hm, -⟩ := run_of_lang hw u
    rw [h] at hm
    cases hm
  · intro h
    refine List.eq_nil_iff_forall_not_mem.2 fun m hm => ?_
    obtain ⟨hs, hl⟩ := lang_of_run hm
    exact h m.taken hl ⟨m.rest, hs.symm⟩

theorem Re.lang_lit {cs w : List Char} : (Re.lit cs).Lang w ↔ w = cs := by
  induction cs generalizing w with
  | nil => rfl
  | cons c cs ih =>
    cases cs with
    | nil => simp [Re.lit, Re.Lang]
    | cons d cs =>
      simp only [Re.lit, Re.Lang] at ih ⊢
      constructor
      · rintro ⟨u, v, rfl, ⟨e, he, rfl⟩, hv⟩
        rw [ih.1 hv]
        simpa using he
      · rintro rfl
        exact ⟨[c], _, rfl, ⟨c, by simp, rfl⟩, ih.2 rfl⟩

/-- Some class of the expression takes the character. -/
def Re.allows : Re → Char → Bool
  | .eps, _ => false
  | .cls p, c => p c
  | .seq a b, c => a.allows c || b.allows c
  | .alt a b, c => a.allows c || b.allows c
  | .many p _, c => p c
  | .fewest p, c => p c
  | .group a, c => a.allows c

theorem Re.allows_of_lang {r : Re} : ∀ {w : List Char}, r.Lang w → ∀ c ∈ w, r.allows c = true := by
  induction r with
  | eps =>
    rintro w rfl c hc
    cases hc
  | cls p =>
    rintro w ⟨d, hd, rfl⟩ c hc
    rw [List.mem_singleton.1 hc]
    exact hd
  | seq a b iha ihb =>
    rintro w ⟨u, v, rfl, hu, hv⟩ c hc
    rw [Re.allows, Bool.or_eq_true]
    rcases List.mem_append.1 hc with hc | hc
    · exact .inl (iha hu c hc)
    · exact .inr (ihb hv c hc)
  | alt a b iha ihb =>
    rintro w (h | h) c hc
    · rw [Re.allows, iha h c hc, Bool.true_or]
    · rw [Re.allows, ihb h c hc, Bool.or_true]
  | many p least => exact fun h => h.2
  | fewest p => exact fun h => h
  | group a iha => exact fun h => iha h

/-- A character that no class takes is in no word. -/
theorem Re.notMem_of_lang {r : Re} {w : List Char} (h : r.Lang w) {c : Char}
    (hc : r.allows c = false) : c ∉ w := by
  intro hmem
  rw [allows_of_lang h c hmem] at hc
  cases hc

/-- Some part of the expression is the group. -/
def Re.grouped : Re → Bool
  | .seq a b => a.grouped || b.grouped
  | .alt a b => a.grouped || b.grouped
  | .group _ => true
  | _ => false

theorem Re.group_eq_none {r : Re} (h : r.grouped = false) : ∀ {s : List Char} {m : Match},
    m ∈ r.run s → m.group = none := by
  induction r with
  | eps =>
    intro s m hm
    rw [List.mem_singleton.1 hm]
  | cls p =>
    intro s m hm
    cases s with
    | nil => cases hm
    | cons c s =>
      rw [Re.run] at hm
      split_ifs at hm
      · rw [List.mem_singleton.1 hm]
      · cases hm
  | seq a b iha ihb =>
    intro s m hm
    rw [Re.grouped, Bool.or_eq_false_iff] at h
    obtain ⟨m₁, h₁, hm⟩ := List.mem_flatMap.1 hm
    obtain ⟨m₂, h₂, rfl⟩ := List.mem_map.1 hm
    simp only [iha h.1 h₁, ihb h.2 h₂, Option.or_none]
  | alt a b iha ihb =>
    intro s m hm
    rw [Re.grouped, Bool.or_eq_false_iff] at h
    rcases List.mem_append.1 hm with hm | hm
    · exact iha h.1 hm
    · exact ihb h.2 hm
  | many p least =>
    intro s m hm
    obtain ⟨m, -, rfl⟩ := List.mem_map.1 hm
    rfl
  | fewest p =>
    intro s m hm
    obtain ⟨m, -, rfl⟩ := List.mem_map.1 hm
    rfl
  | group a => cases h

/-- The group with which an expression begins is a start of the match. -/
theorem Re.group_prefix {a b : Re} (hb : b.grouped = false) {s : List Char} {m : Match}
    (hm : m ∈ (Re.seq (.group a) b).run s) : ∃ g, m.group = some g ∧ g <+: m.taken := by
  obtain ⟨m₁, h₁, hm⟩ := List.mem_flatMap.1 hm
  obtain ⟨m₂, h₂, rfl⟩ := List.mem_map.1 hm
  obtain ⟨m₀, -, rfl⟩ := List.mem_map.1 h₁
  refine ⟨m₀.taken, ?_, List.prefix_append _ _⟩
  simp only [group_eq_none hb h₂, Option.none_or]

/-! ## The scan of a text -/

/-- A piece of a scanned text: a character that no match takes, or a match. -/
inductive Piece where
  | plain (c : Char)
  | hit (m : Match)

/-- The pieces of a text, the first characters of which a match before has taken.  An expression
    that matches the empty text is not scanned for. -/
def scan (r : Re) : ℕ → List Char → List Piece
  | _, [] => []
  | k + 1, _ :: s => scan r k s
  | 0, c :: s =>
    match (r.match? (c :: s)).filter (·.taken ≠ []) with
    | none => .plain c :: scan r 0 s
    | some m => .hit m :: scan r (m.taken.length - 1) s

/-- The matches among pieces, with where they start. -/
def hits : ℕ → List Piece → List (ℕ × Match)
  | _, [] => []
  | i, .plain _ :: pieces => hits (i + 1) pieces
  | i, .hit m :: pieces => (i, m) :: hits (i + m.taken.length) pieces

/-- `pattern.finditer(text)`: the matches and where they start -/
def finditer (r : Re) (s : List Char) : List (ℕ × Match) := hits 0 (scan r 0 s)

/-- `pattern.sub(f, text)` -/
def sub (r : Re) (f : Match → List Char) (s : List Char) : List Char :=
  (scan r 0 s).flatMap fun
    | .plain c => [c]
    | .hit m => f m

theorem scan_skip (r : Re) (k : ℕ) (s : List Char) : scan r k s = scan r 0 (s.drop k) := by
  induction s generalizing k with
  | nil => simp [scan]
  | cons c s ih =>
    cases k with
    | zero => rfl
    | succ k => rw [scan, ih, List.drop_succ_cons]

/-- A scan begins with the text's first character, or with a match from which it goes on. -/
theorem scan_cases (r : Re) (c : Char) (s : List Char) :
    (∃ m, r.match? (c :: s) = some m ∧ m.taken ≠ [] ∧ c :: s = m.taken ++ m.rest ∧
      r.Lang m.taken ∧ scan r 0 (c :: s) = .hit m :: scan r 0 m.rest) ∨
    ((r.match? (c :: s)).filter (·.taken ≠ []) = none ∧
      scan r 0 (c :: s) = .plain c :: scan r 0 s) := by
  rw [scan]
  cases h : (r.match? (c :: s)).filter (·.taken ≠ []) with
  | none => exact .inr ⟨rfl, rfl⟩
  | some m =>
    left
    obtain ⟨hm, hne⟩ := Option.filter_eq_some_iff.1 h
    obtain ⟨hs, hl⟩ := Re.match?_some hm
    have hne' : m.taken ≠ [] := by simpa using hne
    refine ⟨m, hm, hne', hs, hl, ?_⟩
    have hrest : s.drop (m.taken.length - 1) = m.rest := by
      cases htaken : m.taken with
      | nil => exact absurd htaken hne'
      | cons d t =>
        rw [htaken] at hs
        obtain ⟨-, rfl⟩ := List.cons.inj hs
        simp
    simp only
    rw [scan_skip, hrest]

theorem sub_plain {r : Re} {f : Match → List Char} {c : Char} {s : List Char}
    (h : scan r 0 (c :: s) = .plain c :: scan r 0 s) : sub r f (c :: s) = c :: sub r f s := by
  rw [sub, h]
  rfl

theorem sub_hit {r : Re} {f : Match → List Char} {s : List Char} {m : Match}
    (h : scan r 0 s = .hit m :: scan r 0 m.rest) : sub r f s = f m ++ sub r f m.rest := by
  rw [sub, h]
  rfl

/-- A scan from match to match: the induction that its pieces follow. -/
theorem scan_induction (r : Re) {P : List Char → Prop} (nil : P [])
    (plain : ∀ c s, (r.match? (c :: s)).filter (·.taken ≠ []) = none →
      scan r 0 (c :: s) = .plain c :: scan r 0 s → P s → P (c :: s))
    (hit : ∀ m : Match, m.taken ≠ [] → r.Lang m.taken → r.match? (m.taken ++ m.rest) = some m →
      scan r 0 (m.taken ++ m.rest) = .hit m :: scan r 0 m.rest → P m.rest → P (m.taken ++ m.rest))
    (s : List Char) : P s := by
  induction hn : s.length using Nat.strong_induction_on generalizing s with
  | _ n ih =>
    cases s with
    | nil => exact nil
    | cons c s =>
      rcases scan_cases r c s with ⟨m, hm, hne, hs, hl, hscan⟩ | ⟨hnone, hscan⟩
      · rw [hs] at hm hscan hn ⊢
        have hpos := List.length_pos_iff.2 hne
        rw [List.length_append] at hn
        exact hit m hne hl hm hscan (ih m.rest.length (by omega) m.rest rfl)
      · exact plain c s hnone hscan (ih s.length (by simp at hn; omega) s rfl)

/-- A match that is found stands where it starts. -/
theorem mem_hits {r : Re} {s : List Char} : ∀ {i j : ℕ} {m : Match},
    (j, m) ∈ hits i (scan r 0 s) → i ≤ j ∧ m.taken ≠ [] ∧ r.Lang m.taken ∧
      s.drop (j - i) = m.taken ++ m.rest := by
  induction s using scan_induction r with
  | nil =>
    intro i j m h
    cases h
  | plain c s _ hscan ih =>
    intro i j m h
    rw [hscan, hits] at h
    obtain ⟨hle, hne, hl, hdrop⟩ := ih h
    refine ⟨by omega, hne, hl, ?_⟩
    rw [show j - i = j - (i + 1) + 1 by omega, List.drop_succ_cons]
    exact hdrop
  | hit m₀ hne₀ hl₀ hm₀ hscan ih =>
    intro i j m h
    rw [hscan, hits] at h
    rcases List.mem_cons.1 h with h | h
    · obtain ⟨rfl, rfl⟩ := Prod.mk.inj h
      exact ⟨le_rfl, hne₀, hl₀, by simp⟩
    · obtain ⟨hle, hne, hl, hdrop⟩ := ih h
      refine ⟨by omega, hne, hl, ?_⟩
      rw [show j - i = m₀.taken.length + (j - (i + m₀.taken.length)) by omega, List.drop_append,
        List.drop_of_length_le (by omega), List.nil_append]
      rw [← hdrop]
      congr 1
      omega

theorem mem_finditer {r : Re} {s : List Char} {i : ℕ} {m : Match} (h : (i, m) ∈ finditer r s) :
    m.taken ≠ [] ∧ r.Lang m.taken ∧ s.drop i = m.taken ++ m.rest := (mem_hits h).2

/-! ## What occurs after a substitution -/

/-- A word without `x` in a text with an `x` lies before it or behind it. -/
theorem infix_cons_of_notMem {x : Char} {w a b : List Char} (hx : x ∉ w)
    (h : w <:+: a ++ x :: b) : w <:+: a ∨ w <:+: b := by
  obtain ⟨u, v, h⟩ := h
  rw [List.append_assoc] at h
  rcases List.append_eq_append_iff.1 h with ⟨t, rfl, ht⟩ | ⟨t, rfl, ht⟩
  · rcases List.append_eq_append_iff.1 ht with ⟨t', rfl, -⟩ | ⟨t', rfl, ht'⟩
    · exact .inl ⟨u, t', by simp⟩
    · cases t' with
      | nil => exact .inl ⟨u, [], by simp⟩
      | cons y t' =>
        obtain ⟨rfl, -⟩ := List.cons.inj ht'
        exact absurd (by simp) hx
  · cases t with
    | nil =>
      cases w with
      | nil => exact .inl (List.nil_infix)
      | cons y w =>
        obtain ⟨rfl, -⟩ := List.cons.inj ht
        exact absurd (by simp) hx
    | cons y t =>
      obtain ⟨rfl, rfl⟩ := List.cons.inj ht
      exact .inr ⟨t, v, by simp⟩

theorem prefix_of_notMem {x : Char} {w a b : List Char} (hx : x ∉ w) (h : w <+: a ++ x :: b) :
    w <+: a := by
  obtain ⟨u, h⟩ := h
  rcases List.append_eq_append_iff.1 h with ⟨t, rfl, -⟩ | ⟨t, rfl, ht⟩
  · exact List.prefix_append _ _
  · cases t with
    | nil => simp
    | cons y t =>
      obtain ⟨rfl, -⟩ := List.cons.inj ht
      exact absurd (by simp) hx

/-- The text begins and ends with characters that the word has not, and does not hold it between
    them. -/
def Fence (w tag : List Char) : Prop :=
  ∃ x inner y, tag = x :: (inner ++ [y]) ∧ x ∉ w ∧ y ∉ w ∧ ¬ w <:+: inner

/-- Behind a fence, the word lies before or after it. -/
theorem Fence.infix_append {w tag a b : List Char} (h : Fence w tag) (hw : w <:+: a ++ (tag ++ b)) :
    w <:+: a ∨ w <:+: b := by
  obtain ⟨x, inner, y, rfl, hx, hy, hinner⟩ := h
  simp only [List.append_assoc, List.cons_append, List.nil_append] at hw
  rcases infix_cons_of_notMem hx hw with hw | hw
  · exact .inl hw
  · rcases infix_cons_of_notMem hy hw with hw | hw
    · exact absurd hw hinner
    · exact .inr hw

/-- The replacements keep a start of the match and put a tag with `P` behind it. -/
def Keeping (r : Re) (f : Match → List Char) (P : List Char → Prop) : Prop :=
  ∀ m, r.Lang m.taken → r.match? (m.taken ++ m.rest) = some m →
    ∃ kept tag, f m = kept ++ tag ∧ kept <+: m.taken ∧ P tag

section
variable {r : Re} {f : Match → List Char} {w : List Char}

/-- A start of the result that no tag begins is a start of the text. -/
theorem prefix_of_sub {x : Char} (h : Keeping r f fun tag => ∃ tail, tag = x :: tail)
    (hx : x ∉ w) (s : List Char) : w <+: sub r f s → w <+: s := by
  induction s using scan_induction r generalizing w with
  | nil => exact id
  | plain c s _ hscan ih =>
    rw [sub_plain hscan]
    cases w with
    | nil => exact fun _ => List.nil_prefix
    | cons d w =>
      intro hw
      obtain ⟨rfl, hw'⟩ := List.cons_prefix_cons.1 hw
      exact List.cons_prefix_cons.2 ⟨rfl, ih (fun hmem => hx (by simp [hmem])) hw'⟩
  | hit m hne hl hm hscan ih =>
    obtain ⟨kept, _, hf, hkept, tail, rfl⟩ := h m hl hm
    rw [sub_hit hscan, hf, List.append_assoc, List.cons_append]
    intro hw
    exact (prefix_of_notMem hx hw).trans (hkept.trans (List.prefix_append _ _))

/-- **A word that occurs after a substitution occurs in the text**, if the tags are fences. -/
theorem infix_of_sub {x : Char} (hx : x ∉ w)
    (h : Keeping r f fun tag => (∃ tail, tag = x :: tail) ∧ Fence w tag) (s : List Char) :
    w <:+: sub r f s → w <:+: s := by
  have hstart : Keeping r f fun tag => ∃ tail, tag = x :: tail := fun m hl hm => by
    obtain ⟨kept, tag, hf, hkept, ht, -⟩ := h m hl hm
    exact ⟨kept, tag, hf, hkept, ht⟩
  induction s using scan_induction r with
  | nil => exact id
  | plain c s _ hscan ih =>
    intro hocc
    rw [sub_plain hscan] at hocc
    rcases List.infix_cons_iff.1 hocc with hocc | hocc
    · rw [← sub_plain hscan] at hocc
      exact (prefix_of_sub hstart hx _ hocc).isInfix
    · exact (ih hocc).trans (List.suffix_cons c s).isInfix
  | hit m hne hl hm hscan ih =>
    intro hocc
    obtain ⟨kept, tag, hf, hkept, -, hfence⟩ := h m hl hm
    rw [sub_hit hscan, hf, List.append_assoc] at hocc
    rcases hfence.infix_append hocc with hocc | hocc
    · exact hocc.trans (hkept.isInfix.trans (List.prefix_append _ _).isInfix)
    · exact (ih hocc).trans (List.suffix_append _ _).isInfix

/-- **No word of the expression occurs after its matches are replaced** by a tag that is a fence. -/
theorem not_lang_of_sub {tag : List Char} (hnull : ¬ r.Lang []) (hw : r.Lang w) (h : Fence w tag)
    (s : List Char) : ¬ w <:+: sub r (fun _ => tag) s := by
  have hne : w ≠ [] := by
    rintro rfl
    exact hnull hw
  have hstart : ∃ x tail, tag = x :: tail ∧ x ∉ w := by
    obtain ⟨x, inner, y, rfl, hx, -, -⟩ := h
    exact ⟨x, inner ++ [y], rfl, hx⟩
  obtain ⟨x, tail, htag, hx⟩ := hstart
  have hkeep : Keeping r (fun _ => tag) fun tag => ∃ tail, tag = x :: tail :=
    fun m _ _ => ⟨[], tag, rfl, List.nil_prefix, tail, htag⟩
  induction s using scan_induction r with
  | nil => exact fun hocc => hne (List.infix_nil.1 hocc)
  | plain c s hnone hscan ih =>
    intro hocc
    rw [sub_plain hscan] at hocc
    rcases List.infix_cons_iff.1 hocc with hocc | hocc
    · rw [← sub_plain hscan] at hocc
      have hpre := prefix_of_sub hkeep hx _ hocc
      -- the word starts a text at which no match begins
      cases hm : r.match? (c :: s) with
      | none => exact Re.match?_eq_none.1 hm w hw hpre
      | some m =>
        have htaken : m.taken ≠ [] := fun he => hnull (he ▸ (Re.match?_some hm).2)
        rw [hm, Option.filter_some, if_pos (by simpa using htaken)] at hnone
        cases hnone
    · exact ih hocc
  | hit m _ _ _ hscan ih =>
    intro hocc
    rw [sub_hit hscan] at hocc
    rcases h.infix_append (a := []) hocc with hocc | hocc
    · exact hne (List.infix_nil.1 hocc)
    · exact ih hocc

end

end Regex
