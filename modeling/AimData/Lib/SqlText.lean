/-
  The lexical rules of SQL, as PostgreSQL and its descendants have them: which
  characters of a text stand in a comment, a literal or a quoted name, and which
  parenthesis closes which.

  Comments are `--` to the end of the line, and `/* */`, which nest.  Literals are
  `'..'`, `E'..'` with its escapes by a backslash, and `$tag$..$tag$`; names may be
  quoted by `".."`.  A text that is written between parentheses leaves the closing
  one to the opening one just when it is self-contained (`closedBy_wrapped`).
-/
import Mathlib.Tactic

namespace SqlText

/-! ## Where a character stands -/

/-- What the next character follows. -/
inductive Mode where
  | code
  /-- in a name or a keyword -/
  | word
  /-- after an `e` at the start of a name, or after the digits of a number -/
  | letterE (afterDigits : Bool)
  | number
  | dash
  | slash
  /-- after a `$`, and the letters of a tag -/
  | dollar (tag : List Char)
  | lineComment
  | blockComment (depth : ℕ) (last : Option Char)
  | literal
  | quotedName
  /-- in an `E'..'` -/
  | escapes
  | backslash
  /-- after a quote that ends an `E'..'`, unless another follows -/
  | escapesEnd
  /-- in the blanks after an `E'..'`, which goes on after a new line -/
  | escapesGap (newline : Bool)
  | gapDash
  | gapComment
  | dollarQuoted (tag : List Char) (seen : Option (List Char))
  deriving DecidableEq

/-- Not in a comment, a literal or a quoted name. -/
def Mode.outside : Mode → Bool
  | code | word | letterE _ | number | dash | slash | dollar _ | escapesEnd | escapesGap _
  | gapDash => true
  | lineComment | blockComment _ _ | literal | quotedName | escapes | backslash | gapComment
  | dollarQuoted _ _ => false

section
variable (foreign : Char → Bool)

/-- A character that starts a name; `foreign` are those of other scripts. -/
def nameStart (c : Char) : Bool := c.isAlpha || c = '_' || (128 ≤ c.toNat && foreign c)

def nameChar (c : Char) : Bool := nameStart foreign c || c.isDigit || c = '$'

/-- The start of a token. -/
def start (c : Char) : Mode :=
  if c = '\'' then .literal
  else if c = '"' then .quotedName
  else if c = '-' then .dash
  else if c = '/' then .slash
  else if c = '$' then .dollar []
  else if c = 'e' || c = 'E' then .letterE false
  else if nameStart foreign c then .word
  else if c.isDigit then .number
  else .code

def isNewline (c : Char) : Bool := c = '\n' || c = '\r'

def isBlank (c : Char) : Bool := c = ' ' || c = '\t' || c = '\x0c'

/-- The blanks between two parts of an `E'..'`. -/
def gap (newline : Bool) (c : Char) : Mode :=
  if isNewline c then .escapesGap true
  else if isBlank c then .escapesGap newline
  else if c = '-' then .gapDash
  else if newline && c = '\'' then .escapes
  else start foreign c

def step : Mode → Char → Mode
  | .code, c => start foreign c
  | .word, c => if nameChar foreign c then .word else start foreign c
  | .letterE afterDigits, c =>
    if c = '\'' then .escapes
    else if afterDigits && c.isDigit then .number
    else if nameChar foreign c then .word
    else start foreign c
  | .number, c =>
    if c.isDigit || c = '.' then .number
    else if c = 'e' || c = 'E' then .letterE true
    else start foreign c
  | .dash, c => if c = '-' then .lineComment else start foreign c
  | .slash, c => if c = '*' then .blockComment 0 none else start foreign c
  | .dollar tag, c =>
    if c = '$' then .dollarQuoted tag none
    else if nameStart foreign c || (!tag.isEmpty && c.isDigit) then .dollar (tag ++ [c])
    else if c = '\'' && (tag = ['e'] || tag = ['E']) then .escapes
    else start foreign c
  | .lineComment, c => if isNewline c then .code else .lineComment
  | .blockComment depth last, c =>
    if last = some '*' && c = '/' then
      match depth with
      | 0 => .code
      | depth + 1 => .blockComment depth none
    else if last = some '/' && c = '*' then .blockComment (depth + 1) none
    else .blockComment depth (some c)
  | .literal, c => if c = '\'' then .code else .literal
  | .quotedName, c => if c = '"' then .code else .quotedName
  | .escapes, c =>
    if c = '\\' then .backslash else if c = '\'' then .escapesEnd else .escapes
  | .backslash, _ => .escapes
  | .escapesEnd, c => if c = '\'' then .escapes else gap foreign false c
  | .escapesGap newline, c => gap foreign newline c
  | .gapDash, c => if c = '-' then .gapComment else start foreign c
  | .gapComment, c => if isNewline c then .escapesGap true else .gapComment
  | .dollarQuoted tag seen, c =>
    if c = '$' then
      if seen = some tag then .code else .dollarQuoted tag (some [])
    else .dollarQuoted tag (seen.map (· ++ [c]))

/-- The mode after a text. -/
def run (m : Mode) (text : List Char) : Mode := text.foldl (step foreign) m

/-- The character of a text at an index is in no comment, literal or quoted name. -/
def OutsideAt (text : List Char) (i : ℕ) : Prop := (run foreign .code (text.take i)).outside

/-! ## Parentheses -/

inductive Paren where
  | opening
  | closing
  deriving DecidableEq

def paren (m : Mode) (c : Char) : Option Paren :=
  if m.outside then
    if c = '(' then some .opening else if c = ')' then some .closing else none
  else none

/-- The parentheses of a text, each character having one or none. -/
def parens : Mode → List Char → List (Option Paren)
  | _, [] => []
  | m, c :: cs => paren m c :: parens (step foreign m c) cs

end

/-- The number of open parentheses; `none` where one closes that was not opened. -/
def depth : ℕ → List (Option Paren) → Option ℕ
  | d, [] => some d
  | d, some .opening :: ps => depth (d + 1) ps
  | 0, some .closing :: _ => none
  | d + 1, some .closing :: ps => depth d ps
  | d, none :: ps => depth d ps

/-- The index of the first parenthesis that closes more than was opened. -/
def closer : ℕ → List (Option Paren) → Option ℕ
  | _, [] => none
  | d, some .opening :: ps => (closer (d + 1) ps).map (· + 1)
  | 0, some .closing :: _ => some 0
  | d + 1, some .closing :: ps => (closer d ps).map (· + 1)
  | d, none :: ps => (closer d ps).map (· + 1)

section
variable (foreign : Char → Bool)

/-- The index of the parenthesis that closes the one at an index. -/
def closedBy (text : List Char) (i : ℕ) : Option ℕ :=
  match (parens foreign .code text).drop i with
  | some .opening :: ps => (closer 0 ps).map (· + (i + 1))
  | _ => none

/-- A text that ends outside comments and literals, and closes what it opens. -/
def SelfContained (text : List Char) : Prop :=
  (run foreign .code text).outside = true ∧ depth 0 (parens foreign .code text) = some 0

instance (text : List Char) : Decidable (SelfContained foreign text) :=
  inferInstanceAs (Decidable (_ ∧ _))

end

/-! ## Texts one after the other -/

section
variable {foreign : Char → Bool}

theorem run_append (m : Mode) (s t : List Char) :
    run foreign m (s ++ t) = run foreign (run foreign m s) t := List.foldl_append

theorem run_cons (m : Mode) (c : Char) (s : List Char) :
    run foreign m (c :: s) = run foreign (step foreign m c) s := rfl

theorem parens_append (m : Mode) (s t : List Char) :
    parens foreign m (s ++ t) = parens foreign m s ++ parens foreign (run foreign m s) t := by
  induction s generalizing m with
  | nil => rfl
  | cons c s ih => rw [List.cons_append, parens, ih, parens, run_cons, List.cons_append]

@[simp] theorem length_parens (m : Mode) (s : List Char) :
    (parens foreign m s).length = s.length := by
  induction s generalizing m with
  | nil => rfl
  | cons c s ih => rw [parens, List.length_cons, ih, List.length_cons]

/-- Outside comments and literals a parenthesis is a token of its own. -/
theorem step_paren {m : Mode} {c : Char} (hm : m.outside = true) (hc : c = '(' ∨ c = ')') :
    step foreign m c = .code := by
  have hstart : start foreign c = .code := by
    rcases hc with rfl | rfl <;> rfl
  have hname : nameStart foreign c = false := by
    rcases hc with rfl | rfl <;> rfl
  have hchar : nameChar foreign c = false := by
    rcases hc with rfl | rfl <;> rfl
  have hgap : ∀ newline, gap foreign newline c = .code := by
    intro newline
    rcases hc with rfl | rfl <;> simp [gap, isNewline, isBlank, hstart]
  cases m with
  | code => exact hstart
  | word => rw [step, hchar, hstart]; rfl
  | letterE afterDigits => rcases hc with rfl | rfl <;> simp [step, hchar, hstart]
  | number => rcases hc with rfl | rfl <;> simp [step, hstart]
  | dash => rcases hc with rfl | rfl <;> simp [step, hstart]
  | slash => rcases hc with rfl | rfl <;> simp [step, hstart]
  | dollar tag => rcases hc with rfl | rfl <;> simp [step, hname, hstart]
  | escapesEnd => rcases hc with rfl | rfl <;> simp [step, hgap]
  | escapesGap newline => exact hgap newline
  | gapDash => rcases hc with rfl | rfl <;> simp [step, hstart]
  | lineComment | blockComment _ _ | literal | quotedName | escapes | backslash | gapComment
  | dollarQuoted _ _ => cases hm

/-- A letter, a digit or a blank. -/
def isPlain (c : Char) : Bool := c.isAlphanum || c = '_' || c = ' '

theorem start_plain {c : Char} (hc : isPlain c = true) : (start foreign c).outside = true := by
  have hquote : c ≠ '\'' ∧ c ≠ '"' := by
    constructor <;> rintro rfl <;> exact absurd hc (by decide)
  rw [start, if_neg hquote.1, if_neg hquote.2]
  split_ifs <;> rfl

/-- Letters, digits and blanks start no comment and no literal. -/
theorem step_plain {m : Mode} {c : Char} (hm : m.outside = true) (hc : isPlain c = true) :
    (step foreign m c).outside = true := by
  have hstart : (start foreign c).outside = true := start_plain hc
  have hne : ∀ d, isPlain d = false → c ≠ d := by
    rintro d hd rfl
    rw [hc] at hd
    cases hd
  have hgap : ∀ newline, (gap foreign newline c).outside = true := by
    intro newline
    have hquote : (newline && decide (c = '\'')) = false := by simp [hne '\'' rfl]
    rw [gap, hquote, if_neg (hne '-' rfl)]
    simp only [Bool.false_eq_true, if_false]
    split_ifs <;> first | rfl | exact hstart
  cases m with
  | code => exact hstart
  | word =>
    rw [step]
    split_ifs <;> first | rfl | exact hstart
  | letterE afterDigits =>
    rw [step, if_neg (hne '\'' rfl)]
    split_ifs <;> first | rfl | exact hstart
  | number =>
    rw [step]
    split_ifs <;> first | rfl | exact hstart
  | dash =>
    rw [step, if_neg (hne '-' rfl)]
    exact hstart
  | slash =>
    rw [step, if_neg (hne '*' rfl)]
    exact hstart
  | dollar tag =>
    have hquote : ¬ (c = '\'' && (tag = ['e'] || tag = ['E'])) = true := by
      simp [hne '\'' rfl]
    rw [step, if_neg (hne '$' rfl), if_neg hquote]
    split_ifs <;> first | rfl | exact hstart
  | escapesEnd =>
    rw [step, if_neg (hne '\'' rfl)]
    exact hgap false
  | escapesGap newline => exact hgap newline
  | gapDash =>
    rw [step, if_neg (hne '-' rfl)]
    exact hstart
  | lineComment | blockComment _ _ | literal | quotedName | escapes | backslash | gapComment
  | dollarQuoted _ _ => cases hm

theorem run_plain {m : Mode} {s : List Char} (hm : m.outside = true)
    (hs : s.all isPlain = true) : (run foreign m s).outside = true := by
  induction s generalizing m with
  | nil => exact hm
  | cons c s ih =>
    rw [List.all_cons, Bool.and_eq_true] at hs
    exact ih (step_plain hm hs.1) hs.2

end

/-! ## A text between parentheses -/

theorem closer_append (d : ℕ) (ps qs : List (Option Paren)) :
    (∀ d', depth d ps = some d' → closer d (ps ++ qs) = (closer d' qs).map (· + ps.length)) ∧
      (depth d ps = none → ∃ i < ps.length, closer d (ps ++ qs) = some i) := by
  induction ps generalizing d with
  | nil =>
    constructor
    · rintro d' h
      cases h
      simp
    · intro h
      cases h
  | cons p ps ih =>
    -- each of the steps below leaves the rest of the text at its own depth
    have hstep : ∀ e, (closer d (p :: ps ++ qs) = (closer e (ps ++ qs)).map (· + 1)) →
        depth d (p :: ps) = depth e ps →
        (∀ d', depth d (p :: ps) = some d' →
            closer d (p :: ps ++ qs) = (closer d' qs).map (· + (p :: ps).length)) ∧
          (depth d (p :: ps) = none →
            ∃ i < (p :: ps).length, closer d (p :: ps ++ qs) = some i) := by
      intro e hcloser hdepth
      rw [hcloser, hdepth]
      constructor
      · intro d' hd'
        rw [(ih e).1 d' hd', Option.map_map]
        rfl
      · intro hnone
        obtain ⟨i, hi, hclose⟩ := (ih e).2 hnone
        exact ⟨i + 1, by simpa using hi, by rw [hclose]; rfl⟩
    match d, p with
    | d, none => exact hstep d rfl rfl
    | d, some .opening => exact hstep (d + 1) rfl rfl
    | d + 1, some .closing => exact hstep d rfl rfl
    | 0, some .closing =>
      constructor
      · intro d' h
        cases h
      · intro _
        exact ⟨0, by simp, rfl⟩

section
variable {foreign : Char → Bool}

theorem paren_opening {m : Mode} (hm : m.outside = true) : paren m '(' = some .opening := by
  rw [paren, if_pos hm, if_pos rfl]

theorem paren_closing (m : Mode) :
    paren m ')' = if m.outside then some .closing else none := by
  rw [paren]
  simp

/-- **Closing parentheses**: the one written after a text closes the one written before
    it, just when the text is self-contained. -/
theorem closedBy_wrapped {before text after : List Char}
    (hbefore : (run foreign .code before).outside = true) :
    closedBy foreign (before ++ '(' :: (text ++ ')' :: after)) before.length =
        some (text.length + (before.length + 1)) ↔
      SelfContained foreign text := by
  have hparens : (parens foreign .code (before ++ '(' :: (text ++ ')' :: after))).drop
      before.length = some .opening :: (parens foreign .code text ++
        parens foreign (run foreign .code text) (')' :: after)) := by
    rw [parens_append, List.drop_left' (length_parens _ _), parens, paren_opening hbefore,
      step_paren hbefore (.inl rfl), parens_append]
  have hsum : closedBy foreign (before ++ '(' :: (text ++ ')' :: after)) before.length =
      (closer 0 (parens foreign .code text ++
        parens foreign (run foreign .code text) (')' :: after))).map
          (· + (before.length + 1)) := by
    rw [closedBy, hparens]
  have hclose := closer_append 0 (parens foreign .code text)
    (parens foreign (run foreign .code text) (')' :: after))
  rw [hsum, parens, paren_closing] at *
  rw [SelfContained]
  cases hdepth : depth 0 (parens foreign .code text) with
  | none =>
    obtain ⟨i, hi, hcloser⟩ := hclose.2 hdepth
    rw [length_parens] at hi
    rw [hcloser]
    simp
    omega
  | some d =>
    rw [hclose.1 d hdepth, length_parens]
    by_cases hout : (run foreign .code text).outside = true
    · cases d with
      | zero => simp [hout, closer]
      | succ d =>
        simp [hout, closer]
        omega
    · cases d with
      | zero =>
        simp [hout, closer]
        omega
      | succ d =>
        simp [hout, closer]
        omega

end

end SqlText
