/-
  What the words of an expression look like, and how far a match looks.

  The syntax of an expression says which characters its words begin with and end with, and which
  stand side by side in them (`firsts`, `lasts`, `follow`), and these can be decided.  A match that
  ends inside the start of a text does not depend on what comes behind (`Re.run_append`).
-/
import AimData.Lib.Regex

namespace Regex

/-- The expression may match the empty word. -/
def Re.nullable : Re → Bool
  | .eps => true
  | .cls _ => false
  | .seq a b => a.nullable && b.nullable
  | .alt a b => a.nullable || b.nullable
  | .many _ least => least == 0
  | .fewest _ => true
  | .group a => a.nullable

/-- A word may begin with the character. -/
def Re.firsts : Re → Char → Bool
  | .eps, _ => false
  | .cls p, c => p c
  | .seq a b, c => a.firsts c || (a.nullable && b.firsts c)
  | .alt a b, c => a.firsts c || b.firsts c
  | .many p _, c => p c
  | .fewest p, c => p c
  | .group a, c => a.firsts c

/-- A word may end with the character. -/
def Re.lasts : Re → Char → Bool
  | .eps, _ => false
  | .cls p, c => p c
  | .seq a b, c => b.lasts c || (b.nullable && a.lasts c)
  | .alt a b, c => a.lasts c || b.lasts c
  | .many p _, c => p c
  | .fewest p, c => p c
  | .group a, c => a.lasts c

/-- A word may have the two characters side by side. -/
def Re.follow : Re → Char → Char → Bool
  | .eps, _, _ => false
  | .cls _, _, _ => false
  | .seq a b, c, d => a.follow c d || b.follow c d || (a.lasts c && b.firsts d)
  | .alt a b, c, d => a.follow c d || b.follow c d
  | .many p _, c, d => p c && p d
  | .fewest p, c, d => p c && p d
  | .group a, c, d => a.follow c d

/-- The word is as the syntax of the expression says. -/
structure Re.Shape (r : Re) (w : List Char) : Prop where
  empty : w = [] → r.nullable = true
  first : ∀ c ∈ w.head?, r.firsts c = true
  last : ∀ c ∈ w.getLast?, r.lasts c = true
  follow : w.IsChain fun c d => r.follow c d = true

theorem isChain_of_forall {p : Char → Bool} {w : List Char} (h : ∀ c ∈ w, p c = true) :
    w.IsChain fun c d => (p c && p d) = true := by
  induction w with
  | nil => exact .nil
  | cons c w ih =>
    refine (ih fun d hd => h d (by simp [hd])).cons fun d hd => ?_
    rw [h c (by simp), h d (by simp [List.mem_of_mem_head? hd]), Bool.true_and]

theorem Re.Shape.seq {a b : Re} {u v : List Char} (hu : a.Shape u) (hv : b.Shape v) :
    (Re.seq a b).Shape (u ++ v) where
  empty h := by
    obtain ⟨rfl, rfl⟩ := List.append_eq_nil_iff.1 h
    rw [nullable, hu.empty rfl, hv.empty rfl, Bool.true_and]
  first c hc := by
    rw [firsts, Bool.or_eq_true, Bool.and_eq_true]
    cases u with
    | nil => exact .inr ⟨hu.empty rfl, hv.first c hc⟩
    | cons d u => exact .inl (hu.first c (by simpa using hc))
  last c hc := by
    rw [lasts, Bool.or_eq_true, Bool.and_eq_true]
    cases v with
    | nil => exact .inr ⟨hv.empty rfl, hu.last c (by simpa using hc)⟩
    | cons d v => exact .inl (hv.last c (by simpa [List.getLast?_append] using hc))
  follow := by
    refine List.IsChain.append (hu.follow.imp fun c d h => ?_) (hv.follow.imp fun c d h => ?_)
      fun c hc d hd => ?_
    · simp [Re.follow, h]
    · simp [Re.follow, h]
    · simp [Re.follow, hu.last c hc, hv.first d hd]

/-- **Every word of an expression is as its syntax says.** -/
theorem Re.shape_of_lang {r : Re} : ∀ {w : List Char}, r.Lang w → r.Shape w := by
  induction r with
  | eps =>
    rintro w rfl
    exact ⟨fun _ => rfl, by simp, by simp, .nil⟩
  | cls p =>
    rintro w ⟨c, hc, rfl⟩
    exact ⟨by simp, by simpa [firsts] using hc, by simpa [lasts] using hc, .singleton c⟩
  | seq a b iha ihb =>
    rintro w ⟨u, v, rfl, hu, hv⟩
    exact (iha hu).seq (ihb hv)
  | alt a b iha ihb =>
    rintro w (h | h)
    · have := iha h
      exact ⟨fun he => by simp [nullable, this.empty he],
        fun c hc => by simp [firsts, this.first c hc],
        fun c hc => by simp [lasts, this.last c hc],
        this.follow.imp fun c d h => by simp [Re.follow, h]⟩
    · have := ihb h
      exact ⟨fun he => by simp [nullable, this.empty he],
        fun c hc => by simp [firsts, this.first c hc],
        fun c hc => by simp [lasts, this.last c hc],
        this.follow.imp fun c d h => by simp [Re.follow, h]⟩
  | many p least =>
    rintro w ⟨hlen, hall⟩
    refine ⟨?_, fun c hc => hall c (List.mem_of_mem_head? hc),
      fun c hc => hall c (List.mem_of_getLast? hc), isChain_of_forall hall⟩
    rintro rfl
    simpa [nullable] using hlen
  | fewest p =>
    intro w hall
    exact ⟨fun _ => rfl, fun c hc => hall c (List.mem_of_mem_head? hc),
      fun c hc => hall c (List.mem_of_getLast? hc), isChain_of_forall hall⟩
  | group a iha =>
    intro w h
    have := iha h
    exact ⟨this.empty, this.first, this.last, this.follow⟩

/-- No match begins with a character that begins no word. -/
theorem Re.run_eq_nil {r : Re} (hnull : r.nullable = false) {c : Char} (hc : r.firsts c = false)
    (s : List Char) : r.run (c :: s) = [] := by
  refine List.eq_nil_iff_forall_not_mem.2 fun m hm => ?_
  obtain ⟨hs, hl⟩ := lang_of_run hm
  have hshape := shape_of_lang hl
  cases htaken : m.taken with
  | nil => simp [hshape.empty htaken] at hnull
  | cons d t =>
    rw [htaken] at hs hshape
    obtain ⟨rfl, -⟩ := List.cons.inj hs
    simp [hshape.first c (by simp)] at hc

theorem Re.lang_times {p : Char → Bool} {n : ℕ} {w : List Char} :
    (Re.times p n).Lang w ↔ w.length = n ∧ ∀ c ∈ w, p c = true := by
  induction n generalizing w with
  | zero =>
    simp only [Re.times, Re.Lang, List.length_eq_zero_iff]
    constructor
    · rintro rfl
      simp
    · exact fun h => h.1
  | succ n ih =>
    simp only [Re.times, Re.Lang, ih]
    constructor
    · rintro ⟨u, v, rfl, ⟨c, hc, rfl⟩, rfl, hv⟩
      simpa [hc] using hv
    · rintro ⟨hlen, hall⟩
      cases w with
      | nil => cases hlen
      | cons c w =>
        exact ⟨[c], w, rfl, ⟨c, hall c (by simp), rfl⟩, by simpa using hlen,
          fun d hd => hall d (by simp [hd])⟩

/-! ## Matches inside the start of a text -/

/-- The match, with a text behind it. -/
def Match.before (tail : List Char) (m : Match) : Match := { m with rest := m.rest ++ tail }

/-- The match, with a text before it that it takes too. -/
def Match.after (s : List Char) (m : Match) : Match := { m with taken := s ++ m.taken }

theorem Match.map_after_nil (l : List Match) : l.map (Match.after []) = l := List.map_id l

theorem Match.after_after (s t : List Char) (m : Match) :
    (m.after t).after s = m.after (s ++ t) := by simp [Match.after]

/-- With a character before them, no splits are at the very start. -/
theorem filter_map_cons (c : Char) (l : List (List Char × List Char)) :
    (l.map fun m => (c :: m.1, m.2)).filter (fun m => m.1.length ≤ 0) = [] := by
  refine List.filter_eq_nil_iff.2 fun m hm => ?_
  obtain ⟨_, -, rfl⟩ := List.mem_map.1 hm
  simp

/-- What leads to nothing can be left out. -/
theorem flatMap_filter_of {α β : Type} {q : α → Bool} {g : α → List β} {l : List α}
    (h : ∀ a ∈ l, q a = false → g a = []) : l.flatMap g = (l.filter q).flatMap g := by
  induction l with
  | nil => rfl
  | cons a l ih =>
    have hrest := ih fun b hb => h b (by simp [hb])
    rw [List.flatMap_cons, List.filter_cons, hrest]
    cases hq : q a with
    | true => rw [if_pos rfl, List.flatMap_cons]
    | false => rw [if_neg (by simp), h a (by simp) hq, List.nil_append]

theorem greedy_append (p : Char → Bool) (tail : List Char) : ∀ (least : ℕ) (s : List Char),
    (greedy p least (s ++ tail)).filter (fun m => m.1.length ≤ s.length) =
      (greedy p least s).map fun m => (m.1, m.2 ++ tail) := by
  intro least s
  induction s generalizing least with
  | nil =>
    cases tail with
    | nil => cases least <;> simp [greedy]
    | cons c tail =>
      have hlong : ((if p c then (greedy p (least - 1) tail).map fun m => (c :: m.1, m.2)
          else []).filter fun m => m.1.length ≤ 0) = [] := by
        split_ifs
        · exact filter_map_cons c _
        · rfl
      cases least with
      | zero => simpa [greedy] using hlong
      | succ least => simpa [greedy] using hlong
  | cons c s ih =>
    have hgo := ih (least - 1)
    simp only [List.cons_append, greedy, List.filter_append, List.map_append]
    congr 1
    · split_ifs with hp
      · rw [List.filter_map, List.map_map]
        have := congrArg (List.map fun m : List Char × List Char => (c :: m.1, m.2)) hgo
        simpa [Function.comp_def] using this
      · rfl
    · split_ifs <;> simp

theorem reluctant_append (p : Char → Bool) (tail : List Char) : ∀ s : List Char,
    (reluctant p (s ++ tail)).filter (fun m => m.1.length ≤ s.length) =
      (reluctant p s).map fun m => (m.1, m.2 ++ tail) := by
  intro s
  induction s with
  | nil =>
    cases tail with
    | nil => simp [reluctant]
    | cons c tail =>
      have hlong : ((if p c then (reluctant p tail).map fun m => (c :: m.1, m.2) else []).filter
          fun m => m.1.length ≤ 0) = [] := by
        split_ifs
        · exact filter_map_cons c _
        · rfl
      simpa [reluctant] using hlong
  | cons c s ih =>
    simp only [List.cons_append, reluctant, List.filter_cons, List.length_nil, Nat.zero_le,
      decide_true, if_true, List.map_cons]
    congr 1
    split_ifs with hp
    · rw [List.filter_map, List.map_map]
      have := congrArg (List.map fun m : List Char × List Char => (c :: m.1, m.2)) ih
      simpa [Function.comp_def] using this
    · rfl

/-- **The matches that end inside the start of a text** are those of the start. -/
theorem Re.run_append (r : Re) (tail : List Char) : ∀ s : List Char,
    (r.run (s ++ tail)).filter (fun m => m.taken.length ≤ s.length) =
      (r.run s).map (Match.before tail) := by
  induction r with
  | eps => simp [Re.run, Match.before]
  | cls p =>
    intro s
    cases s with
    | nil =>
      cases tail with
      | nil => rfl
      | cons c tail =>
        simp only [List.nil_append, Re.run, List.map_nil]
        split_ifs <;> simp
    | cons c s =>
      simp only [List.cons_append, Re.run]
      split_ifs <;> simp [Match.before]
  | seq a b iha ihb =>
    intro s
    -- a match of `a` that leaves the start of the text leads to none that ends in it
    rw [Re.run, List.filter_flatMap, flatMap_filter_of (q := fun m => m.taken.length ≤ s.length)
      fun m _ hm => ?_, iha s, List.flatMap_map, Re.run, List.map_flatMap]
    · refine List.flatMap_congr fun m hm => ?_
      obtain ⟨rfl, -⟩ := lang_of_run hm
      have := congrArg (List.map fun n : Match =>
        (⟨m.taken ++ n.taken, n.rest, n.group.or m.group⟩ : Match)) (ihb m.rest)
      simpa [List.filter_map, Function.comp_def, Match.before] using this
    · refine List.filter_eq_nil_iff.2 fun n hn => ?_
      obtain ⟨n, -, rfl⟩ := List.mem_map.1 hn
      have : ¬ m.taken.length ≤ s.length := by simpa using hm
      simp
      omega
  | alt a b iha ihb =>
    intro s
    simp only [Re.run, List.filter_append, List.map_append, iha s, ihb s]
  | many p least =>
    intro s
    have := congrArg (List.map fun m : List Char × List Char => (⟨m.1, m.2, none⟩ : Match))
      (greedy_append p tail least s)
    simpa [Re.run, List.filter_map, Function.comp_def, Match.before] using this
  | fewest p =>
    intro s
    have := congrArg (List.map fun m : List Char × List Char => (⟨m.1, m.2, none⟩ : Match))
      (reluctant_append p tail s)
    simpa [Re.run, List.filter_map, Function.comp_def, Match.before] using this
  | group a iha =>
    intro s
    have := congrArg (List.map fun m : Match => { m with group := some m.taken }) (iha s)
    simpa [Re.run, List.filter_map, Function.comp_def, Match.before] using this

/-! ## Literals and repetitions -/

theorem Re.run_lit {cs s : List Char} :
    (Re.lit cs).run s = if cs <+: s then [⟨cs, s.drop cs.length, none⟩] else [] := by
  induction cs generalizing s with
  | nil => simp [Re.lit, Re.run]
  | cons c cs ih =>
    cases s with
    | nil => cases cs <;> simp [Re.lit, Re.run]
    | cons d s =>
      cases cs with
      | nil =>
        by_cases h : d = c
        · subst h
          simp [Re.lit, Re.run]
        · simp [Re.lit, Re.run, h, Ne.symm h]
      | cons c' cs =>
        rw [Re.lit, Re.run, Re.run]
        swap
        · simp
        by_cases h : d = c
        · subst h
          by_cases hpre : c' :: cs <+: s <;> simp [ih, hpre]
        · simp [h, Ne.symm h, List.cons_prefix_cons]

/-- The longest split comes first. -/
theorem head?_greedy (p : Char → Bool) (least : ℕ) (s : List Char) :
    (greedy p least s).head? =
      if least ≤ (s.takeWhile p).length then some (s.takeWhile p, s.dropWhile p) else none := by
  induction s generalizing least with
  | nil => cases least <;> simp [greedy]
  | cons c s ih =>
    rw [greedy, List.head?_append]
    by_cases hp : p c
    · rw [if_pos hp, List.head?_map, ih, List.takeWhile_cons_of_pos hp,
        List.dropWhile_cons_of_pos hp, List.length_cons]
      by_cases hlen : least ≤ (s.takeWhile p).length + 1
      · rw [if_pos (by omega : least - 1 ≤ (s.takeWhile p).length), if_pos hlen]
        rfl
      · rw [if_neg (by omega : ¬ least - 1 ≤ (s.takeWhile p).length), if_neg hlen,
          if_neg (by omega : ¬ least = 0)]
        rfl
    · rw [if_neg hp, List.takeWhile_cons_of_neg hp, List.dropWhile_cons_of_neg hp]
      cases least <;> simp

theorem Re.match?_many (p : Char → Bool) (least : ℕ) (s : List Char) :
    (Re.many p least).match? s =
      if least ≤ (s.takeWhile p).length then some ⟨s.takeWhile p, s.dropWhile p, none⟩
      else none := by
  rw [Re.match?, Re.run, List.head?_map, head?_greedy]
  split_ifs <;> rfl

/-- A literal with characters of a class behind it takes all of them. -/
theorem Re.match?_lit_many (cs : List Char) (p : Char → Bool) (least : ℕ) (s : List Char) :
    (Re.seq (.lit cs) (.many p least)).match? (cs ++ s) =
      if least ≤ (s.takeWhile p).length then
        some ⟨cs ++ s.takeWhile p, s.dropWhile p, none⟩
      else none := by
  have h := match?_many p least s
  rw [Re.match?] at h
  rw [Re.match?, Re.run, run_lit, if_pos (List.prefix_append _ _)]
  simp only [List.flatMap_cons, List.flatMap_nil, List.append_nil, List.drop_left,
    List.head?_map, h]
  split_ifs <;> rfl

section
variable {p : Char → Bool} {b : Re}

theorem Re.run_many_nil (least : ℕ) :
    (Re.seq (.many p least) b).run [] = if least = 0 then b.run [] else [] := by
  cases least <;> simp [Re.run, greedy]

theorem Re.run_many_cons (least : ℕ) (c : Char) (s : List Char) :
    (Re.seq (.many p least) b).run (c :: s) =
      (if p c then ((Re.seq (.many p (least - 1)) b).run s).map (Match.after [c]) else []) ++
        if least = 0 then b.run (c :: s) else [] := by
  simp only [Re.run, greedy, List.map_append, List.flatMap_append]
  congr 1
  · split_ifs
    · simp [List.flatMap_map, List.map_flatMap, Match.after, Function.comp_def]
    · rfl
  · split_ifs <;> simp

theorem Re.run_fewest_nil : (Re.seq (.fewest p) b).run [] = b.run [] := by
  simp [Re.run, reluctant]

theorem Re.run_fewest_cons (c : Char) (s : List Char) :
    (Re.seq (.fewest p) b).run (c :: s) =
      b.run (c :: s) ++
        if p c then ((Re.seq (.fewest p) b).run s).map (Match.after [c]) else [] := by
  simp only [Re.run, reluctant, List.map_cons, List.flatMap_cons]
  congr 1
  · simp
  · split_ifs
    · simp [List.flatMap_map, List.map_flatMap, Match.after, Function.comp_def]
    · rfl

/-- A repetition passes over characters of its class at which nothing goes on. -/
theorem Re.run_many_skip {x s : List Char} (hx : ∀ c ∈ x, p c = true)
    (hdead : ∀ y, y ≠ [] → y <:+ x → b.run (y ++ s) = []) (least : ℕ) :
    (Re.seq (.many p least) b).run (x ++ s) =
      ((Re.seq (.many p (least - x.length)) b).run s).map (Match.after x) := by
  induction x generalizing least with
  | nil => simp [Match.map_after_nil]
  | cons c x ih =>
    have hgo := ih (fun d hd => hx d (by simp [hd]))
      (fun y hne hy => hdead y hne (hy.trans (List.suffix_cons c x))) (least - 1)
    have hnone := hdead (c :: x) (by simp) (List.suffix_refl _)
    rw [List.cons_append] at hnone ⊢
    rw [run_many_cons, if_pos (hx c (by simp)), hgo, hnone, List.length_cons, List.map_map,
      Nat.sub_sub, Nat.add_comm 1]
    simp [Function.comp_def, Match.after_after]

theorem Re.run_fewest_skip {x s : List Char} (hx : ∀ c ∈ x, p c = true)
    (hdead : ∀ y, y ≠ [] → y <:+ x → b.run (y ++ s) = []) :
    (Re.seq (.fewest p) b).run (x ++ s) =
      ((Re.seq (.fewest p) b).run s).map (Match.after x) := by
  induction x with
  | nil => simp [Match.map_after_nil]
  | cons c x ih =>
    have hgo := ih (fun d hd => hx d (by simp [hd]))
      fun y hne hy => hdead y hne (hy.trans (List.suffix_cons c x))
    have hnone := hdead (c :: x) (by simp) (List.suffix_refl _)
    rw [List.cons_append] at hnone ⊢
    rw [run_fewest_cons, if_pos (hx c (by simp)), hgo, hnone, List.map_map]
    simp [Function.comp_def, Match.after_after]

end

/-- A part of the text at which no match begins is kept. -/
theorem sub_copy {r : Re} {f : Match → List Char} {x s : List Char}
    (h : ∀ y, y ≠ [] → y <:+ x → r.match? (y ++ s) = none) : sub r f (x ++ s) = x ++ sub r f s := by
  induction x with
  | nil => rfl
  | cons c x ih =>
    have hnone := h (c :: x) (by simp) (List.suffix_refl _)
    rw [List.cons_append] at hnone ⊢
    rw [sub_plain (by rw [scan, hnone]; rfl), ih fun y hne hy => h y hne
      (hy.trans (List.suffix_cons c x)), List.cons_append]

end Regex
