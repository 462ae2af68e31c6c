/-
  JSON values, their compact text, and a parser of JSON texts.

  An object is the list of its fields in order; a number that is not an
  integer is kept as its text.  `parse_dumps` is the round trip of the values
  whose floats are finite and whose objects have distinct keys (`Proper`); so
  the text of such a value determines it (`dumps_inj`).
-/
import AimData.Lib.Utf8

inductive Json where
  | null
  | bool (b : Bool)
  | int (i : ℤ)
  | float (text : String)
  | str (s : String)
  | arr (l : List Json)
  | obj (l : List (String × Json))
  deriving Repr, Inhabited

namespace Json

/-! ## Equality -/

mutual
def beq : Json → Json → Bool
  | null, null => true
  | bool a, bool b => a == b
  | int a, int b => a == b
  | float a, float b => a == b
  | str a, str b => a == b
  | arr a, arr b => beqList a b
  | obj a, obj b => beqFields a b
  | _, _ => false

def beqList : List Json → List Json → Bool
  | [], [] => true
  | a :: l, b :: m => beq a b && beqList l m
  | _, _ => false

def beqFields : List (String × Json) → List (String × Json) → Bool
  | [], [] => true
  | (k, a) :: l, (k', b) :: m => k == k' && beq a b && beqFields l m
  | _, _ => false
end

mutual
theorem beq_iff : ∀ a b : Json, beq a b = true ↔ a = b
  | null, b => by cases b <;> simp [beq]
  | bool a, b => by cases b <;> simp [beq]
  | int a, b => by cases b <;> simp [beq]
  | float a, b => by cases b <;> simp [beq]
  | str a, b => by cases b <;> simp [beq]
  | arr a, b => by cases b <;> simp [beq, beqList_iff a]
  | obj a, b => by cases b <;> simp [beq, beqFields_iff a]

theorem beqList_iff : ∀ a b : List Json, beqList a b = true ↔ a = b
  | [], b => by cases b <;> simp [beqList]
  | a :: l, b => by cases b <;> simp [beqList, beq_iff a, beqList_iff l]

theorem beqFields_iff : ∀ a b : List (String × Json), beqFields a b = true ↔ a = b
  | [], b => by cases b <;> simp [beqFields]
  | (k, a) :: l, b => by
    rcases b with _ | ⟨⟨k', b⟩, m⟩
    · simp [beqFields]
    · simp [beqFields, beq_iff a, beqFields_iff l]
end

instance : DecidableEq Json := fun a b => decidable_of_iff _ (beq_iff a b)

/-! ## The text of a value -/

def hexDigit (n : ℕ) : Char := Nat.digitChar n

/-- One character of a string, escaped where JSON or its writer demands it. -/
def escapeChar (c : Char) : List Char :=
  if c = '"' then ['\\', '"']
  else if c = '\\' then ['\\', '\\']
  else if c = '\n' then ['\\', 'n']
  else if c = '\r' then ['\\', 'r']
  else if c = '\t' then ['\\', 't']
  else if c.toNat = 8 then ['\\', 'b']
  else if c.toNat = 12 then ['\\', 'f']
  else if c.toNat < 32 then
    ['\\', 'u', '0', '0', hexDigit (c.toNat / 16), hexDigit (c.toNat % 16)]
  else [c]

def dumpsStr (s : String) : List Char := '"' :: s.toList.flatMap escapeChar ++ ['"']

def dumpsInt (i : ℤ) : List Char :=
  if i < 0 then '-' :: Nat.toDigits 10 i.natAbs else Nat.toDigits 10 i.natAbs

mutual
/-- The compact text of a value. -/
def dumps : Json → List Char
  | null => ['n', 'u', 'l', 'l']
  | bool true => ['t', 'r', 'u', 'e']
  | bool false => ['f', 'a', 'l', 's', 'e']
  | int i => dumpsInt i
  | float text => text.toList
  | str s => dumpsStr s
  | arr [] => ['[', ']']
  | arr (v :: l) => '[' :: (dumps v ++ dumpsTail l)
  | obj [] => ['{', '}']
  | obj ((k, v) :: l) => '{' :: (dumpsStr k ++ ':' :: (dumps v ++ dumpsFields l))

/-- The rest of an array, with its end. -/
def dumpsTail : List Json → List Char
  | [] => [']']
  | v :: l => ',' :: (dumps v ++ dumpsTail l)

/-- The rest of an object, with its end. -/
def dumpsFields : List (String × Json) → List Char
  | [] => ['}']
  | (k, v) :: l => ',' :: (dumpsStr k ++ ':' :: (dumps v ++ dumpsFields l))
end

/-! ## The parser -/

def isSpace (c : Char) : Bool := c = ' ' ∨ c = '\t' ∨ c = '\n' ∨ c = '\r'

def skipSpace : List Char → List Char
  | [] => []
  | c :: cs => if isSpace c then skipSpace cs else c :: cs

def hexValue (c : Char) : Option ℕ :=
  if '0' ≤ c ∧ c ≤ '9' then some (c.toNat - '0'.toNat)
  else if 'a' ≤ c ∧ c ≤ 'f' then some (c.toNat - 'a'.toNat + 10)
  else if 'A' ≤ c ∧ c ≤ 'F' then some (c.toNat - 'A'.toNat + 10)
  else none

/-- The code unit of four hexadecimal digits. -/
def codeUnit (a b c d : Char) : Option ℕ := do
  return (((← hexValue a) * 16 + (← hexValue b)) * 16 + (← hexValue c)) * 16 + (← hexValue d)

/-- The character of an escape letter. -/
def unescape (c : Char) : Option Char :=
  if c = '"' ∨ c = '\\' ∨ c = '/' then some c
  else if c = 'n' then some '\n'
  else if c = 'r' then some '\r'
  else if c = 't' then some '\t'
  else if c = 'b' then some (Char.ofNat 8)
  else if c = 'f' then some (Char.ofNat 12)
  else none

/-- The characters of a string up to its closing quote; a lone surrogate has
    no character and is refused.  The first argument bounds their number. -/
def parseChars : ℕ → List Char → Option (List Char × List Char)
  | 0, _ => none
  | fuel + 1, cs =>
    match cs with
    | [] => none
    | '"' :: cs => some ([], cs)
    | '\\' :: 'u' :: a :: b :: c :: d :: cs => do
      let u ← codeUnit a b c d
      if u.isValidChar then
        let (s, cs) ← parseChars fuel cs
        return (Char.ofNat u :: s, cs)
      else match cs with
        | '\\' :: 'u' :: a :: b :: c :: d :: cs => do
          let v ← codeUnit a b c d
          if u < 0xDC00 ∧ 0xDC00 ≤ v ∧ v < 0xE000 then
            let (s, cs) ← parseChars fuel cs
            return (Char.ofNat (0x10000 + (u - 0xD800) * 0x400 + (v - 0xDC00)) :: s, cs)
          else none
        | _ => none
    | '\\' :: c :: cs => do
      let c ← unescape c
      let (s, cs) ← parseChars fuel cs
      return (c :: s, cs)
    | c :: cs =>
      if c.toNat < 32 then none
      else do
        let (s, cs) ← parseChars fuel cs
        return (c :: s, cs)

/-- A string, after its opening quote. -/
def parseStr (cs : List Char) : Option (String × List Char) := do
  let (s, cs) ← parseChars cs.length cs
  return (String.ofList s, cs)

def natOf (ds : List Char) : ℕ := Nat.ofDigitChars 10 ds 0

/-- A run of digits. -/
def spanDigits : List Char → List Char × List Char
  | [] => ([], [])
  | c :: cs => if c.isDigit then
      let (ds, rest) := spanDigits cs
      (c :: ds, rest)
    else ([], c :: cs)

/-- The fraction and exponent of a number, if any. -/
def parseFraction (cs : List Char) : Option (List Char × List Char) :=
  match cs with
  | '.' :: rest =>
    match spanDigits rest with
    | ([], _) => none
    | (ds, rest) => some ('.' :: ds, rest)
  | _ => some ([], cs)

def parseExponent (cs : List Char) : Option (List Char × List Char) :=
  match cs with
  | e :: rest =>
    if e = 'e' ∨ e = 'E' then
      let (sign, rest) := match rest with
        | '+' :: rest => (['+'], rest)
        | '-' :: rest => (['-'], rest)
        | rest => ([], rest)
      match spanDigits rest with
      | ([], _) => none
      | (ds, rest) => some (e :: sign ++ ds, rest)
    else some ([], cs)
  | [] => some ([], cs)

/-- A number without its sign. -/
def parseNumber (negative : Bool) (cs : List Char) : Option (Json × List Char) := do
  let (ds, rest) := spanDigits cs
  if ds = [] ∨ (ds.length > 1 ∧ ds.head? = some '0') then none
  else do
    let (fraction, rest) ← parseFraction rest
    let (exponent, rest) ← parseExponent rest
    if fraction = [] ∧ exponent = [] then
      return (int (if negative then -(natOf ds : ℤ) else natOf ds), rest)
    else
      let text := ds ++ fraction ++ exponent
      return (float (String.ofList (if negative then '-' :: text else text)), rest)

/-- Put a field into a dict: a later value of a key replaces an earlier one. -/
def setField (k : String) (v : Json) : List (String × Json) → List (String × Json)
  | [] => [(k, v)]
  | (k', v') :: l => if k' = k then (k, v) :: l else (k', v') :: setField k v l

/-- The dict of a list of fields. -/
def dictOf (l : List (String × Json)) : List (String × Json) :=
  l.foldl (fun d f => setField f.1 f.2 d) []

/-- The fields of an object as a dict. -/
def dict (l : List (String × Json)) : Option (List (String × Json)) := some (dictOf l)

section
-- what is made of the fields of an object (`object_pairs_hook`)
variable (hook : List (String × Json) → Option (List (String × Json)))

mutual
/-- A value and what follows it; the first argument bounds the recursion. -/
def parseValue : ℕ → List Char → Option (Json × List Char)
  | 0, _ => none
  | fuel + 1, cs =>
    match skipSpace cs with
    | 'n' :: 'u' :: 'l' :: 'l' :: cs => some (null, cs)
    | 't' :: 'r' :: 'u' :: 'e' :: cs => some (bool true, cs)
    | 'f' :: 'a' :: 'l' :: 's' :: 'e' :: cs => some (bool false, cs)
    | '"' :: cs => do
      let (s, cs) ← parseStr cs
      return (str s, cs)
    | '[' :: cs =>
      match skipSpace cs with
      | ']' :: cs => some (arr [], cs)
      | cs => do
        let (v, cs) ← parseValue fuel cs
        let (l, cs) ← parseTail fuel cs
        return (arr (v :: l), cs)
    | '{' :: cs =>
      match skipSpace cs with
      | '}' :: cs => do return (obj (← hook []), cs)
      | cs => do
        let (f, cs) ← parseField fuel cs
        let (l, cs) ← parseFields fuel cs
        return (obj (← hook (f :: l)), cs)
    | '-' :: cs => parseNumber true cs
    | cs => parseNumber false cs

/-- The rest of an array. -/
def parseTail : ℕ → List Char → Option (List Json × List Char)
  | 0, _ => none
  | fuel + 1, cs =>
    match skipSpace cs with
    | ']' :: cs => some ([], cs)
    | ',' :: cs => do
      let (v, cs) ← parseValue fuel cs
      let (l, cs) ← parseTail fuel cs
      return (v :: l, cs)
    | _ => none

/-- `key : value` -/
def parseField : ℕ → List Char → Option ((String × Json) × List Char)
  | 0, _ => none
  | fuel + 1, cs =>
    match skipSpace cs with
    | '"' :: cs => do
      let (k, cs) ← parseStr cs
      match skipSpace cs with
      | ':' :: cs => do
        let (v, cs) ← parseValue fuel cs
        return ((k, v), cs)
      | _ => none
    | _ => none

/-- The rest of an object. -/
def parseFields : ℕ → List Char → Option (List (String × Json) × List Char)
  | 0, _ => none
  | fuel + 1, cs =>
    match skipSpace cs with
    | '}' :: cs => some ([], cs)
    | ',' :: cs => do
      let (f, cs) ← parseField fuel cs
      let (l, cs) ← parseFields fuel cs
      return (f :: l, cs)
    | _ => none
end

/-- The value of a whole text. -/
def parseWith (cs : List Char) : Option Json :=
  match parseValue hook (cs.length + 1) cs with
  | some (v, cs) => if skipSpace cs = [] then some v else none
  | none => none

end

def parse (cs : List Char) : Option Json := parseWith dict cs

/-! ## Strings round-trip -/

theorem hexValue_hexDigit {n : ℕ} (h : n < 16) : hexValue (hexDigit n) = some n := by
  have : ∀ n : Fin 16, hexValue (hexDigit n) = some n.1 := by decide
  exact this ⟨n, h⟩

theorem isValidChar_of_lt {n : ℕ} (h : n < 32) : n.isValidChar := Or.inl (by omega)

/-- One escaped character is read back. -/
theorem parseChars_escapeChar (fuel : ℕ) (c : Char) (cs : List Char) :
    parseChars (fuel + 1) (escapeChar c ++ cs) =
      (parseChars fuel cs).bind fun p => some (c :: p.1, p.2) := by
  unfold escapeChar
  split_ifs with h1 h2 h3 h4 h5 h6 h7 h8
  · subst h1; simp [parseChars, unescape]
  · subst h2; simp [parseChars, unescape]
  · subst h3; simp [parseChars, unescape]
  · subst h4; simp [parseChars, unescape]
  · subst h5; simp [parseChars, unescape]
  · have hc : c = Char.ofNat 8 := by rw [← h6, Char.ofNat_toNat]
    subst hc; simp [parseChars, unescape]
  · have hc : c = Char.ofNat 12 := by rw [← h7, Char.ofNat_toNat]
    subst hc; simp [parseChars, unescape]
  · have hd1 := hexValue_hexDigit (show c.toNat / 16 < 16 by omega)
    have hd2 := hexValue_hexDigit (show c.toNat % 16 < 16 by omega)
    have h0 : hexValue '0' = some 0 := by decide
    have hu : codeUnit '0' '0' (hexDigit (c.toNat / 16)) (hexDigit (c.toNat % 16)) =
        some c.toNat := by
      simp only [codeUnit, h0, hd1, hd2, Option.bind_eq_bind, Option.bind_some, Option.pure_def,
        Option.some.injEq]
      omega
    simp only [List.cons_append, List.nil_append, parseChars, hu, Option.bind_eq_bind,
      Option.bind_some]
    rw [if_pos (isValidChar_of_lt h8), Char.ofNat_toNat]
    rfl
  · simp only [List.cons_append, List.nil_append]
    rw [parseChars.eq_def]
    simp only
    split
    · rename_i h; cases h
    · rename_i h; cases h; exact absurd rfl h1
    · rename_i h; cases h; exact absurd rfl h2
    · rename_i h; cases h; exact absurd rfl h2
    · rename_i h
      cases h
      rw [if_neg h8]
      rfl

theorem parseChars_escape (rest : List Char) : ∀ (cs : List Char) {fuel : ℕ}, cs.length < fuel →
    parseChars fuel (cs.flatMap escapeChar ++ '"' :: rest) = some (cs, rest)
  | [], fuel, h => by
    obtain ⟨fuel, rfl⟩ := Nat.exists_eq_succ_of_ne_zero (n := fuel) (by simpa using h.ne')
    rfl
  | c :: cs, fuel, h => by
    rw [List.length_cons] at h
    obtain ⟨fuel, rfl⟩ := Nat.exists_eq_succ_of_ne_zero (n := fuel) (by omega)
    rw [List.flatMap_cons, List.append_assoc, Nat.succ_eq_add_one, parseChars_escapeChar,
      parseChars_escape rest cs (by omega)]
    rfl

theorem length_escapeChar_pos (c : Char) : 1 ≤ (escapeChar c).length := by
  unfold escapeChar
  split_ifs <;> simp

theorem length_le_escape (cs : List Char) : cs.length ≤ (cs.flatMap escapeChar).length := by
  induction cs with
  | nil => simp
  | cons c cs ih =>
    have := length_escapeChar_pos c
    rw [List.flatMap_cons, List.length_append, List.length_cons]; omega

/-- **A string is read back** from behind its opening quote. -/
theorem parseStr_dumps (s : String) (rest : List Char) :
    parseStr (s.toList.flatMap escapeChar ++ '"' :: rest) = some (s, rest) := by
  have hl := length_le_escape s.toList
  rw [parseStr, parseChars_escape rest s.toList (by rw [List.length_append, List.length_cons]; omega)]
  simp

/-! ## Numbers round-trip -/

/-- What follows a value: nothing that would go on a number. -/
def Ends (rest : List Char) : Prop :=
  ∀ c cs, rest = c :: cs → c.isDigit = false ∧ c ≠ '.' ∧ c ≠ 'e' ∧ c ≠ 'E'

theorem ends_nil : Ends [] := by
  intro c cs h
  cases h

theorem ends_cons {c : Char} {cs : List Char} (h : c = ',' ∨ c = ']' ∨ c = '}') :
    Ends (c :: cs) := by
  intro c' cs' he
  cases he
  rcases h with rfl | rfl | rfl <;> decide

theorem spanDigits_append {rest : List Char} (h : Ends rest) : ∀ {ds : List Char},
    (∀ c ∈ ds, c.isDigit = true) → spanDigits (ds ++ rest) = (ds, rest)
  | [], _ => by
    cases rest with
    | nil => rfl
    | cons c cs => rw [List.nil_append, spanDigits, if_neg (by simp [(h c cs rfl).1])]
  | d :: ds, hd => by
    rw [List.cons_append, spanDigits, if_pos (hd d (by simp)),
      spanDigits_append h fun c hc => hd c (by simp [hc])]

theorem parseFraction_ends {rest : List Char} (h : Ends rest) :
    parseFraction rest = some ([], rest) := by
  cases rest with
  | nil => rfl
  | cons c cs =>
    rw [parseFraction.eq_def]
    split
    · rename_i he; cases he; exact absurd rfl (h '.' _ rfl).2.1
    · rfl

theorem parseExponent_ends {rest : List Char} (h : Ends rest) :
    parseExponent rest = some ([], rest) := by
  cases rest with
  | nil => rfl
  | cons c cs =>
    obtain ⟨-, -, h1, h2⟩ := h c cs rfl
    simp only [parseExponent]
    rw [if_neg (by simp [h1, h2])]

theorem digitChar_ne_zero : ∀ {d : ℕ}, 1 ≤ d → d < 10 → Nat.digitChar d ≠ '0' := by
  have : ∀ d : Fin 10, 1 ≤ d.1 → Nat.digitChar d ≠ '0' := by decide
  exact fun {d} h1 h2 => this ⟨d, h2⟩ h1

/-- A decimal numeral has no leading zero. -/
theorem head_toDigits {n : ℕ} (h : 1 ≤ n) : (Nat.toDigits 10 n).head? ≠ some '0' := by
  induction n using Nat.strong_induction_on with
  | _ n ih =>
    rcases Nat.lt_or_ge n 10 with hlt | hge
    · rw [Nat.toDigits_of_lt_base hlt]
      simpa using digitChar_ne_zero h hlt
    · rw [Nat.toDigits_of_base_le (by norm_num) hge]
      have hne : Nat.toDigits 10 (n / 10) ≠ [] := Nat.toDigits_ne_nil
      rw [List.head?_append_of_ne_nil _ hne]
      exact ih (n / 10) (by omega) (by omega)

theorem parseNumber_toDigits {rest : List Char} (h : Ends rest) (negative : Bool) (n : ℕ) :
    parseNumber negative (Nat.toDigits 10 n ++ rest) =
      some (int (if negative then -(n : ℤ) else n), rest) := by
  have hd : ∀ c ∈ Nat.toDigits 10 n, c.isDigit = true := fun c hc =>
    Nat.isDigit_of_mem_toDigits (by norm_num) le_rfl hc
  have hlead : ¬ (Nat.toDigits 10 n = [] ∨ ((Nat.toDigits 10 n).length > 1 ∧
      (Nat.toDigits 10 n).head? = some '0')) := by
    rintro (he | ⟨hl, hz⟩)
    · exact Nat.toDigits_ne_nil he
    · rcases Nat.eq_zero_or_pos n with rfl | hp
      · simp at hl
      · exact head_toDigits hp hz
  have hn : natOf (Nat.toDigits 10 n) = n := Nat.ofDigitChars_ten_toDigits
  simp only [parseNumber, spanDigits_append h hd]
  rw [if_neg hlead]
  simp only [parseFraction_ends h, parseExponent_ends h, Option.bind_eq_bind, Option.bind_some, hn]
  rfl

/-- What reads to its end without `rest` reads up to `rest` with it. -/
theorem spanDigits_append_ends {rest : List Char} (h : Ends rest) : ∀ {cs ds r : List Char},
    spanDigits cs = (ds, r) → spanDigits (cs ++ rest) = (ds, r ++ rest)
  | [], ds, r, hs => by
    cases hs
    exact spanDigits_append h (List.forall_mem_nil _)
  | c :: cs, ds, r, hs => by
    rw [spanDigits] at hs
    rw [List.cons_append, spanDigits]
    split_ifs at hs ⊢ with hc
    · obtain ⟨ds', r', hd⟩ : ∃ ds' r', spanDigits cs = (ds', r') := ⟨_, _, rfl⟩
      rw [hd] at hs
      rw [spanDigits_append_ends h hd]
      cases hs; rfl
    · cases hs; rfl

theorem parseFraction_append {rest cs fr r : List Char} (h : Ends rest)
    (hf : parseFraction cs = some (fr, r)) : parseFraction (cs ++ rest) = some (fr, r ++ rest) := by
  cases cs with
  | nil => cases hf; exact parseFraction_ends h
  | cons c cs =>
    by_cases hc : c = '.'
    · subst hc
      obtain ⟨ds, r', hd⟩ : ∃ ds r', spanDigits cs = (ds, r') := ⟨_, _, rfl⟩
      rw [parseFraction, hd] at hf
      rw [List.cons_append, parseFraction, spanDigits_append_ends h hd]
      cases ds with
      | nil => cases hf
      | cons d ds => cases hf; rfl
    · have hcs : parseFraction (c :: cs) = some ([], c :: cs) := by
        rw [parseFraction]; rintro x hx; cases hx; exact hc rfl
      rw [hcs] at hf
      cases hf
      rw [List.cons_append, parseFraction]
      rintro x hx; cases hx; exact hc rfl

/-- The sign of an exponent, and what follows it. -/
def exponentSign : List Char → List Char × List Char
  | '+' :: rest => (['+'], rest)
  | '-' :: rest => (['-'], rest)
  | rest => ([], rest)

theorem parseExponent_cons {e : Char} (he : e = 'e' ∨ e = 'E') (rest : List Char) :
    parseExponent (e :: rest) =
      match spanDigits (exponentSign rest).2 with
      | ([], _) => none
      | (ds, r) => some (e :: (exponentSign rest).1 ++ ds, r) := by
  unfold parseExponent exponentSign
  simp only [if_pos he]

theorem parseExponent_append {rest cs ex r : List Char} (h : Ends rest)
    (hx : parseExponent cs = some (ex, r)) : parseExponent (cs ++ rest) = some (ex, r ++ rest) := by
  cases cs with
  | nil => cases hx; exact parseExponent_ends h
  | cons e cs =>
    by_cases he : e = 'e' ∨ e = 'E'
    · rw [parseExponent_cons he] at hx
      rw [List.cons_append, parseExponent_cons he]
      obtain ⟨ds, r', hd⟩ : ∃ ds r', spanDigits (exponentSign cs).2 = (ds, r') := ⟨_, _, rfl⟩
      rw [hd] at hx
      cases ds with
      | nil => cases hx
      | cons d ds =>
        have hsign : exponentSign (cs ++ rest) = ((exponentSign cs).1, (exponentSign cs).2 ++ rest) := by
          cases cs with
          | nil => simp [exponentSign, spanDigits] at hd
          | cons c cs =>
            by_cases h1 : c = '+'
            · subst h1; rfl
            · by_cases h2 : c = '-'
              · subst h2; rfl
              · have : ∀ l, exponentSign (c :: l) = ([], c :: l) := by
                  intro l
                  rw [exponentSign]
                  · rintro x hx; cases hx; exact h1 rfl
                  · rintro x hx; cases hx; exact h2 rfl
                rw [List.cons_append, this, this, List.cons_append]
        rw [hsign, spanDigits_append_ends h hd]
        cases hx; rfl
    · simp only [parseExponent, if_neg he] at hx
      cases hx
      simp only [List.cons_append, parseExponent, if_neg he]

theorem parseNumber_append {rest cs : List Char} {negative : Bool} {v : Json} (h : Ends rest)
    (hn : parseNumber negative cs = some (v, [])) :
    parseNumber negative (cs ++ rest) = some (v, rest) := by
  obtain ⟨ds, r, hd⟩ : ∃ ds r, spanDigits cs = (ds, r) := ⟨_, _, rfl⟩
  by_cases hz : ds = [] ∨ (ds.length > 1 ∧ ds.head? = some '0')
  · simp only [parseNumber, hd, if_pos hz] at hn
    cases hn
  simp only [parseNumber, hd, spanDigits_append_ends h hd, Option.bind_eq_bind, if_neg hz] at hn ⊢
  obtain ⟨⟨fr, r₁⟩, hf, hn⟩ := Option.bind_eq_some_iff.1 hn
  obtain ⟨⟨ex, r₂⟩, hx, hn⟩ := Option.bind_eq_some_iff.1 hn
  simp only [parseFraction_append h hf, parseExponent_append h hx, Option.bind_some]
  dsimp only at hn ⊢
  by_cases he : fr = [] ∧ ex = []
  · rw [if_pos he] at hn ⊢
    cases hn; rfl
  · rw [if_neg he] at hn ⊢
    cases hn; rfl

/-- The text of a finite float: what reads as that float. -/
def floatText (s : String) : Bool :=
  match s.toList with
  | '-' :: cs => parseNumber true cs = some (float s, [])
  | cs => parseNumber false cs = some (float s, [])

/-- A number starts with a digit. -/
theorem parseNumber_head {negative : Bool} {cs r : List Char} {v : Json}
    (h : parseNumber negative cs = some (v, r)) : ∃ c l, cs = c :: l ∧ c.isDigit = true := by
  cases cs with
  | nil => simp [parseNumber, spanDigits] at h
  | cons c l =>
    refine ⟨c, l, rfl, ?_⟩
    by_contra hc
    simp [parseNumber, spanDigits, hc] at h

theorem floatText_cases {s : String} (h : floatText s = true) :
    (∃ cs, s.toList = '-' :: cs ∧ parseNumber true cs = some (float s, [])) ∨
      (∃ c cs, s.toList = c :: cs ∧ c.isDigit = true ∧
        parseNumber false (c :: cs) = some (float s, [])) := by
  rw [floatText] at h
  split at h
  · rename_i cs hcs
    exact Or.inl ⟨cs, hcs, of_decide_eq_true h⟩
  · have hn := of_decide_eq_true h
    obtain ⟨c, l, hcs, hc⟩ := parseNumber_head hn
    rw [hcs] at hn
    exact Or.inr ⟨c, l, hcs, hc, hn⟩

theorem skipSpace_cons {c : Char} {cs : List Char} (h : isSpace c = false) :
    skipSpace (c :: cs) = c :: cs := by
  rw [skipSpace, if_neg (by simp [h])]

theorem not_isSpace_of_isDigit {c : Char} (h : c.isDigit = true) : isSpace c = false := by
  rw [isSpace, decide_eq_false_iff_not]
  rintro (rfl | rfl | rfl | rfl) <;> exact absurd h (by decide)

/-- A digit starts a number. -/
theorem parseValue_digit {hook : List (String × Json) → Option (List (String × Json))} {fuel : ℕ}
    {c : Char} {cs : List Char} (h : c.isDigit = true) :
    parseValue hook (fuel + 1) (c :: cs) = parseNumber false (c :: cs) := by
  rw [parseValue, skipSpace_cons (not_isSpace_of_isDigit h)]
  split
  all_goals
    first
    | rfl
    | (rename_i he; cases he; exact absurd h (by decide))

theorem parseValue_float {hook : List (String × Json) → Option (List (String × Json))}
    {rest : List Char} (h : Ends rest) (fuel : ℕ) {s : String} (hs : floatText s = true) :
    parseValue hook (fuel + 1) (s.toList ++ rest) = some (float s, rest) := by
  rcases floatText_cases hs with ⟨cs, hcs, hn⟩ | ⟨c, cs, hcs, hc, hn⟩
  · rw [hcs, List.cons_append, parseValue, skipSpace_cons (by decide)]
    exact parseNumber_append h hn
  · have hp := parseNumber_append h hn
    rw [List.cons_append] at hp
    rw [hcs, List.cons_append, parseValue_digit hc, hp]

/-! ## Values round-trip -/

mutual
/-- The floats are finite, and the keys of an object are distinct. -/
def Proper : Json → Prop
  | float text => floatText text = true
  | arr l => ProperList l
  | obj l => (l.map Prod.fst).Nodup ∧ ProperFields l
  | _ => True

def ProperList : List Json → Prop
  | [] => True
  | v :: l => Proper v ∧ ProperList l

def ProperFields : List (String × Json) → Prop
  | [] => True
  | (_, v) :: l => Proper v ∧ ProperFields l
end

theorem setField_of_notMem {k : String} {v : Json} : ∀ {l : List (String × Json)},
    k ∉ l.map Prod.fst → setField k v l = l ++ [(k, v)]
  | [], _ => rfl
  | (k', v') :: l, h => by
    simp only [List.map_cons, List.mem_cons, not_or] at h
    rw [setField, if_neg fun e => h.1 e.symm, setField_of_notMem h.2]
    rfl

theorem foldl_setField : ∀ {l d : List (String × Json)}, ((d ++ l).map Prod.fst).Nodup →
    l.foldl (fun d f => setField f.1 f.2 d) d = d ++ l
  | [], d, _ => by simp
  | (k, v) :: l, d, h => by
    have hk : k ∉ d.map Prod.fst := by
      rw [List.map_append, List.map_cons, List.nodup_append] at h
      exact fun hm => h.2.2 k hm k (by simp) rfl
    rw [List.foldl_cons, setField_of_notMem hk, foldl_setField (by simpa using h)]
    simp

/-- Fields with distinct keys are a dict. -/
theorem dictOf_of_nodup {l : List (String × Json)} (h : (l.map Prod.fst).Nodup) : dictOf l = l := by
  rw [dictOf, foldl_setField (by simpa using h)]
  rfl

section
variable {hook : List (String × Json) → Option (List (String × Json))}

theorem parseValue_int {rest : List Char} (h : Ends rest) (fuel : ℕ) (i : ℤ) :
    parseValue hook (fuel + 1) (dumpsInt i ++ rest) = some (int i, rest) := by
  unfold dumpsInt
  split_ifs with hi
  · rw [List.cons_append, parseValue, skipSpace_cons (by decide)]
    simp only
    rw [parseNumber_toDigits h, if_pos rfl]
    have : -(i.natAbs : ℤ) = i := by omega
    rw [this]
  · obtain ⟨c, cs, hc⟩ := List.exists_cons_of_ne_nil (Nat.toDigits_ne_nil (n := i.natAbs) (b := 10))
    have hd : c.isDigit = true := Nat.isDigit_of_mem_toDigits (by norm_num) le_rfl
      (by rw [hc]; exact List.mem_cons_self)
    have hp := parseNumber_toDigits h false i.natAbs
    rw [hc] at hp ⊢
    rw [List.cons_append] at hp ⊢
    rw [parseValue_digit hd, hp]
    have : (i.natAbs : ℤ) = i := by omega
    simp [this]

/-- The first character of a value's text is neither a space nor a closing
    bracket nor the null character. -/
theorem head_dumps {v : Json} (hv : Proper v) : ∃ c cs, dumps v = c :: cs ∧ isSpace c = false ∧
    c ≠ ']' ∧ c ≠ '}' ∧ c ≠ '\x00' := by
  cases v with
  | null => exact ⟨_, _, rfl, by decide, by decide, by decide, by decide⟩
  | bool b => cases b <;> exact ⟨_, _, rfl, by decide, by decide, by decide, by decide⟩
  | int i =>
    rw [dumps, dumpsInt]
    split_ifs
    · exact ⟨_, _, rfl, by decide, by decide, by decide, by decide⟩
    · obtain ⟨c, cs, hc⟩ :=
        List.exists_cons_of_ne_nil (Nat.toDigits_ne_nil (n := i.natAbs) (b := 10))
      have hd : c.isDigit = true := Nat.isDigit_of_mem_toDigits (by norm_num) le_rfl
        (by rw [hc]; exact List.mem_cons_self)
      refine ⟨c, cs, hc, not_isSpace_of_isDigit hd, ?_, ?_, ?_⟩ <;>
        (rintro rfl; exact absurd hd (by decide))
  | float t =>
    rw [Proper] at hv
    rcases floatText_cases hv with ⟨cs, hcs, -⟩ | ⟨c, cs, hcs, hc, -⟩
    · exact ⟨_, cs, hcs, by decide, by decide, by decide, by decide⟩
    · refine ⟨c, cs, hcs, not_isSpace_of_isDigit hc, ?_, ?_, ?_⟩ <;>
        (rintro rfl; exact absurd hc (by decide))
  | str s => exact ⟨_, _, rfl, by decide, by decide, by decide, by decide⟩
  | arr l => cases l <;> exact ⟨_, _, by rw [dumps], by decide, by decide, by decide, by decide⟩
  | obj l => rcases l with _ | ⟨⟨k, v⟩, l⟩ <;>
      exact ⟨_, _, by rw [dumps], by decide, by decide, by decide, by decide⟩

theorem ends_dumpsTail (l : List Json) (rest : List Char) : Ends (dumpsTail l ++ rest) := by
  cases l <;> exact ends_cons (by simp)

theorem ends_dumpsFields (l : List (String × Json)) (rest : List Char) :
    Ends (dumpsFields l ++ rest) := by
  rcases l with _ | ⟨⟨k, v⟩, l⟩ <;> exact ends_cons (by simp)

theorem length_dumps_pos {v : Json} (h : Proper v) : 1 ≤ (dumps v).length := by
  obtain ⟨c, cs, hc, -⟩ := head_dumps h
  rw [hc, List.length_cons]; omega

theorem length_dumpsTail_pos (l : List Json) : 1 ≤ (dumpsTail l).length := by
  cases l <;> simp [dumpsTail]

theorem length_dumpsFields_pos (l : List (String × Json)) : 1 ≤ (dumpsFields l).length := by
  rcases l with _ | ⟨⟨k, v⟩, l⟩ <;> simp [dumpsFields]

/-- The text of a field. -/
def dumpsField (f : String × Json) : List Char := dumpsStr f.1 ++ ':' :: dumps f.2

theorem parseField_of {k : String} {v : Json} {fuel : ℕ} {rest : List Char}
    (h : parseValue hook fuel (dumps v ++ rest) = some (v, rest)) :
    parseField hook (fuel + 1) (dumpsField (k, v) ++ rest) = some ((k, v), rest) := by
  have hk := parseStr_dumps k (':' :: (dumps v ++ rest))
  have ht : dumpsField (k, v) ++ rest =
      '"' :: (k.toList.flatMap escapeChar ++ '"' :: (':' :: (dumps v ++ rest))) := by
    simp [dumpsField, dumpsStr]
  rw [ht, parseField, skipSpace_cons (by decide)]
  simp only [hk, Option.bind_eq_bind, Option.bind_some]
  rw [skipSpace_cons (by decide)]
  simp only [h, Option.bind_some]
  rfl

/-- Fields with distinct keys are their own dict. -/
def KeepsDistinct (hook : List (String × Json) → Option (List (String × Json))) : Prop :=
  ∀ l, (l.map Prod.fst).Nodup → hook l = some l

mutual
/-- **A value is read back** from its text, with what follows it. -/
theorem parseValue_dumps (hhook : KeepsDistinct hook) : ∀ (v : Json), Proper v →
    ∀ (fuel : ℕ) (rest : List Char), (dumps v).length < fuel → Ends rest →
      parseValue hook fuel (dumps v ++ rest) = some (v, rest)
  | v, _, 0, _, hf, _ => by omega
  | .null, _, _ + 1, _, _, _ => rfl
  | .bool true, _, _ + 1, _, _, _ => rfl
  | .bool false, _, _ + 1, _, _, _ => rfl
  | .int i, _, fuel + 1, _, _, hr => parseValue_int hr fuel i
  | .float _, hv, fuel + 1, _, _, hr => parseValue_float hr fuel (by rw [Proper] at hv; exact hv)
  | .str s, _, fuel + 1, rest, _, _ => by
    have hs := parseStr_dumps s rest
    have ht : dumps (.str s) ++ rest = '"' :: (s.toList.flatMap escapeChar ++ '"' :: rest) := by
      simp [dumps, dumpsStr]
    rw [ht, parseValue, skipSpace_cons (by decide)]
    simp only [hs, Option.bind_eq_bind, Option.bind_some]
    rfl
  | .arr [], _, fuel + 1, rest, _, _ => rfl
  | .arr (v :: l), hv, fuel + 1, rest, hf, hr => by
    obtain ⟨hv, hl⟩ : Proper v ∧ ProperList l := by simpa [Proper, ProperList] using hv
    obtain ⟨c, cs, hc, hsp, h1, -⟩ := head_dumps hv
    have hlen : (dumps (.arr (v :: l))).length = (dumps v).length + (dumpsTail l).length + 1 := by
      simp [dumps]
    have ihv := parseValue_dumps hhook v hv fuel (dumpsTail l ++ rest)
      (by have := length_dumpsTail_pos l; omega) (ends_dumpsTail l rest)
    have ihl := parseTail_dumps hhook l hl fuel rest
      (by have := length_dumps_pos hv; omega)
    have ht : dumps (.arr (v :: l)) ++ rest = '[' :: (dumps v ++ (dumpsTail l ++ rest)) := by
      simp [dumps]
    rw [ht, parseValue, skipSpace_cons (by decide)]
    simp only
    have hskip : skipSpace (dumps v ++ (dumpsTail l ++ rest)) = dumps v ++ (dumpsTail l ++ rest) := by
      rw [hc, List.cons_append, skipSpace_cons hsp]
    rw [hskip]
    split
    · rename_i he; rw [hc] at he; cases he; exact absurd rfl h1
    · simp only [ihv, ihl, Option.bind_eq_bind, Option.bind_some]
      rfl
  | .obj [], _, fuel + 1, rest, _, _ => by
    have ht : dumps (.obj []) ++ rest = '{' :: '}' :: rest := by simp [dumps]
    rw [ht, parseValue, skipSpace_cons (by decide)]
    simp only
    rw [skipSpace_cons (by decide)]
    simp only [hhook [] List.nodup_nil, Option.bind_eq_bind, Option.bind_some]
    rfl
  | .obj ((k, v) :: l), hv, fuel + 1, rest, hf, hr => by
    obtain ⟨hnd, hv, hl⟩ : (((k, v) :: l).map Prod.fst).Nodup ∧ Proper v ∧ ProperFields l := by
      simpa [Proper, ProperFields] using hv
    have hlen : (dumps (.obj ((k, v) :: l))).length =
        (dumpsField (k, v)).length + (dumpsFields l).length + 1 := by
      simp [dumps, dumpsField]; omega
    have hpos := length_dumpsFields_pos l
    have hfl : (dumpsField (k, v)).length = (dumpsStr k).length + (dumps v).length + 1 := by
      simp [dumpsField]; omega
    obtain ⟨fuel, rfl⟩ := Nat.exists_eq_succ_of_ne_zero (n := fuel) (by omega)
    have ihv := parseValue_dumps hhook v hv fuel (dumpsFields l ++ rest)
      (by omega) (ends_dumpsFields l rest)
    have ihf := parseField_of (k := k) ihv
    have ihl := parseFields_dumps hhook l hl (fuel + 1) rest (by omega)
    have ht : dumps (.obj ((k, v) :: l)) ++ rest =
        '{' :: (dumpsField (k, v) ++ (dumpsFields l ++ rest)) := by
      simp [dumps, dumpsField]
    rw [ht, parseValue, skipSpace_cons (by decide)]
    simp only
    have hhead : dumpsField (k, v) ++ (dumpsFields l ++ rest) =
        '"' :: (k.toList.flatMap escapeChar ++ '"' :: ':' :: (dumps v ++ (dumpsFields l ++ rest))) := by
      simp [dumpsField, dumpsStr]
    rw [hhead, skipSpace_cons (by decide), ← hhead]
    split
    · rename_i he; rw [hhead] at he; cases he
    · simp only [ihf, ihl, hhook _ hnd, Option.bind_eq_bind, Option.bind_some]
      rfl

theorem parseTail_dumps (hhook : KeepsDistinct hook) : ∀ (l : List Json), ProperList l →
    ∀ (fuel : ℕ) (rest : List Char), (dumpsTail l).length < fuel →
      parseTail hook fuel (dumpsTail l ++ rest) = some (l, rest)
  | l, _, 0, _, hf => by omega
  | [], _, _ + 1, _, _ => rfl
  | v :: l, hv, fuel + 1, rest, hf => by
    obtain ⟨hv, hl⟩ : Proper v ∧ ProperList l := by simpa [ProperList] using hv
    have hlen : (dumpsTail (v :: l)).length = (dumps v).length + (dumpsTail l).length + 1 := by
      simp [dumpsTail]
    have ihv := parseValue_dumps hhook v hv fuel (dumpsTail l ++ rest)
      (by have := length_dumpsTail_pos l; omega) (ends_dumpsTail l rest)
    have ihl := parseTail_dumps hhook l hl fuel rest
      (by have := length_dumps_pos hv; omega)
    have ht : dumpsTail (v :: l) ++ rest = ',' :: (dumps v ++ (dumpsTail l ++ rest)) := by
      simp [dumpsTail]
    rw [ht, parseTail, skipSpace_cons (by decide)]
    simp only [ihv, ihl, Option.bind_eq_bind, Option.bind_some]
    rfl

theorem parseFields_dumps (hhook : KeepsDistinct hook) : ∀ (l : List (String × Json)),
    ProperFields l → ∀ (fuel : ℕ) (rest : List Char), (dumpsFields l).length < fuel →
      parseFields hook fuel (dumpsFields l ++ rest) = some (l, rest)
  | l, _, 0, _, hf => by omega
  | [], _, _ + 1, _, _ => rfl
  | (k, v) :: l, hv, fuel + 1, rest, hf => by
    obtain ⟨hv, hl⟩ : Proper v ∧ ProperFields l := by simpa [ProperFields] using hv
    have hlen : (dumpsFields ((k, v) :: l)).length =
        (dumpsField (k, v)).length + (dumpsFields l).length + 1 := by
      simp [dumpsFields, dumpsField]; omega
    have hpos := length_dumpsFields_pos l
    have hfl : (dumpsField (k, v)).length = (dumpsStr k).length + (dumps v).length + 1 := by
      simp [dumpsField]; omega
    obtain ⟨fuel, rfl⟩ := Nat.exists_eq_succ_of_ne_zero (n := fuel) (by omega)
    have ihv := parseValue_dumps hhook v hv fuel (dumpsFields l ++ rest)
      (by omega) (ends_dumpsFields l rest)
    have ihf := parseField_of (k := k) ihv
    have ihl := parseFields_dumps hhook l hl (fuel + 1) rest (by omega)
    have ht : dumpsFields ((k, v) :: l) ++ rest =
        ',' :: (dumpsField (k, v) ++ (dumpsFields l ++ rest)) := by
      simp [dumpsFields, dumpsField]
    rw [ht, parseFields, skipSpace_cons (by decide)]
    simp only [ihf, ihl, Option.bind_eq_bind, Option.bind_some]
    rfl
end

theorem parseWith_dumps (hhook : KeepsDistinct hook) {v : Json} (h : Proper v) :
    parseWith hook (dumps v) = some v := by
  have hp := parseValue_dumps hhook v h ((dumps v).length + 1) [] (by omega) ends_nil
  rw [List.append_nil] at hp
  rw [parseWith, hp]
  rfl

end

/-- **The text of a value parses back to it.** -/
theorem parse_dumps {v : Json} (h : Proper v) : parse (dumps v) = some v :=
  parseWith_dumps (fun l hl => by rw [dict, dictOf_of_nodup hl]) h

/-- The text determines the value. -/
theorem dumps_inj {v w : Json} (hv : Proper v) (hw : Proper w) (h : dumps v = dumps w) : v = w := by
  have := (parse_dumps hv).symm.trans ((congrArg parse h).trans (parse_dumps hw))
  exact Option.some.inj this

/-! ## The size of a text -/

theorem length_encodeChar (c : Char) : (Utf8.encodeChar c).length ≤ 4 := by
  unfold Utf8.encodeChar
  simp only
  split_ifs <;> simp

theorem length_encode_escapeChar (c : Char) : (Utf8.encode (escapeChar c)).length ≤ 6 := by
  unfold escapeChar
  split_ifs with h1 h2 h3 h4 h5 h6 h7 h8
  · decide
  · decide
  · decide
  · decide
  · decide
  · decide
  · decide
  · have hd : ∀ n < 32, (Utf8.encodeChar (hexDigit (n / 16))).length = 1 ∧
        (Utf8.encodeChar (hexDigit (n % 16))).length = 1 := by decide
    obtain ⟨ha, hb⟩ := hd c.toNat h8
    have h4 : ∀ x y : Char, Utf8.encode ['\\', 'u', '0', '0', x, y] =
        Utf8.encode ['\\', 'u', '0', '0'] ++ (Utf8.encodeChar x ++ Utf8.encodeChar y) := by
      intro x y
      simp [Utf8.encode]
    rw [h4, List.length_append, List.length_append, ha, hb]
    decide
  · have := length_encodeChar c
    rw [Utf8.encode, List.flatMap_singleton]
    omega

/-- The size of a string's text. -/
theorem length_encode_dumpsStr (s : String) :
    (Utf8.encode (dumpsStr s)).length ≤ 6 * s.toList.length + 2 := by
  have key : ∀ cs : List Char, (Utf8.encode (cs.flatMap escapeChar)).length ≤ 6 * cs.length := by
    intro cs
    induction cs with
    | nil => exact Nat.le_refl _
    | cons c cs ih =>
      have := length_encode_escapeChar c
      rw [List.flatMap_cons, Utf8.encode, List.flatMap_append, List.length_append, List.length_cons]
      unfold Utf8.encode at ih this
      omega
  have hq : Utf8.encodeChar '"' = [34] := by decide
  have h := key s.toList
  unfold dumpsStr Utf8.encode at *
  rw [List.cons_append, List.flatMap_cons, List.flatMap_append, hq, List.length_append,
    List.length_append, List.flatMap_singleton, hq]
  simp only [List.length_singleton]
  omega

theorem length_encode_append (cs ds : List Char) :
    (Utf8.encode (cs ++ ds)).length = (Utf8.encode cs).length + (Utf8.encode ds).length := by
  rw [Utf8.encode, List.flatMap_append, List.length_append]
  rfl

theorem length_encode_cons {c : Char} (hc : c.toNat < 128) (cs : List Char) :
    (Utf8.encode (c :: cs)).length = 1 + (Utf8.encode cs).length := by
  have hsingle : (Utf8.encodeChar c).length = 1 := by
    unfold Utf8.encodeChar
    dsimp only
    rw [if_pos hc]
    rfl
  rw [Utf8.encode, List.flatMap_cons, List.length_append, hsingle]
  rfl

/-- The size of a number of at most `w` digits. -/
theorem length_encode_nat {n w : ℕ} (hw : 0 < w) (hn : n < 10 ^ w) :
    (Utf8.encode (dumps (int n))).length ≤ 4 * w := by
  have hd : (Utf8.encode (Nat.toDigits 10 n)).length ≤ 4 * (Nat.toDigits 10 n).length := by
    unfold Utf8.encode
    induction Nat.toDigits 10 n with
    | nil => exact Nat.le_refl _
    | cons c cs ih =>
      have := length_encodeChar c
      rw [List.flatMap_cons, List.length_append, List.length_cons]
      omega
  have hlen := Nat.toDigits_length 10 n w hw hn
  have hint : dumpsInt (n : ℤ) = Nat.toDigits 10 n := by
    rw [dumpsInt, if_neg (by omega), Int.natAbs_natCast]
  rw [dumps, hint]
  omega

/-- The size of a field and what follows it. -/
theorem length_encode_field (k : String) (v : Json) (rest : List Char) :
    (Utf8.encode (dumpsStr k ++ ':' :: (dumps v ++ rest))).length ≤
      6 * k.toList.length + (Utf8.encode (dumps v)).length + 3 + (Utf8.encode rest).length := by
  have hk := length_encode_dumpsStr k
  rw [length_encode_append, length_encode_cons (by decide), length_encode_append]
  omega

/-- The size of the rest of an object. -/
theorem length_encode_fields : ∀ l : List (String × Json), (Utf8.encode (dumpsFields l)).length ≤
    (l.map fun p => 6 * p.1.toList.length + (Utf8.encode (dumps p.2)).length + 4).sum + 1
  | [] => by decide
  | (k, v) :: l => by
    have ih := length_encode_fields l
    have h := length_encode_field k v (dumpsFields l)
    rw [dumpsFields, length_encode_cons (by decide), List.map_cons, List.sum_cons]
    dsimp only
    omega

/-- **The size of an object** by its fields. -/
theorem length_encode_obj : ∀ l : List (String × Json), (Utf8.encode (dumps (obj l))).length ≤
    (l.map fun p => 6 * p.1.toList.length + (Utf8.encode (dumps p.2)).length + 4).sum + 2
  | [] => by decide
  | (k, v) :: l => by
    have hl := length_encode_fields l
    have h := length_encode_field k v (dumpsFields l)
    rw [dumps, length_encode_cons (by decide), List.map_cons, List.sum_cons]
    dsimp only
    omega

end Json
