/-
  Unpadded URL-safe base64, with a strict decoder and one that skips what is no base64, and
  base64 with padding.
-/
import AimData.Lib.Bytes

namespace Base64Url

/-- The character of a sextet. -/
def char (n : ℕ) : Char :=
  "ABCDEFGHIJKLMNOPQRSTUVWXYZabcdefghijklmnopqrstuvwxyz0123456789-_".toList.getD n '='

/-- The sextet of a character. -/
def sextet (c : Char) : Option ℕ :=
  if 'A' ≤ c ∧ c ≤ 'Z' then some (c.toNat - 65)
  else if 'a' ≤ c ∧ c ≤ 'z' then some (c.toNat - 71)
  else if '0' ≤ c ∧ c ≤ '9' then some (c.toNat + 4)
  else if c = '-' ∨ c = '+' then some 62
  else if c = '_' ∨ c = '/' then some 63
  else none

/-- Three bytes become four characters; a rest of one or two bytes is filled
    with zero bits. -/
def encodeChars : Bytes → List Char
  | a :: b :: c :: t =>
    let n := a.toNat * 65536 + b.toNat * 256 + c.toNat
    char (n / 262144) :: char (n / 4096 % 64) :: char (n / 64 % 64) :: char (n % 64) :: encodeChars t
  | [a, b] =>
    let n := a.toNat * 65536 + b.toNat * 256
    [char (n / 262144), char (n / 4096 % 64), char (n / 64 % 64)]
  | [a] => [char (a.toNat / 4), char (a.toNat * 16 % 64)]
  | [] => []

def encode (b : Bytes) : String := String.ofList (encodeChars b)

/-- The bytes of the sextets; the bits that fill no byte are dropped, and a
    single last sextet is refused. -/
def ofSextets : List ℕ → Option Bytes
  | p :: q :: r :: s :: t => do
    let n := p * 262144 + q * 4096 + r * 64 + s
    let bs ← ofSextets t
    some (UInt8.ofNat (n / 65536) :: UInt8.ofNat (n / 256) :: UInt8.ofNat n :: bs)
  | [p, q, r] =>
    let n := p * 262144 + q * 4096 + r * 64
    some [UInt8.ofNat (n / 65536), UInt8.ofNat (n / 256)]
  | [p, q] => some [UInt8.ofNat (p * 4 + q / 16)]
  | [_] => none
  | [] => some []

def decodeChars (cs : List Char) : Option Bytes := do
  ofSextets (← cs.mapM sextet)

theorem sextet_char {n : ℕ} (h : n < 64) : sextet (char n) = some n := by
  have : ∀ n : Fin 64, sextet (char n) = some n.1 := by decide +kernel
  exact this ⟨n, h⟩

/-- The sextets of a byte string. -/
def toSextets : Bytes → List ℕ
  | a :: b :: c :: t =>
    let n := a.toNat * 65536 + b.toNat * 256 + c.toNat
    n / 262144 :: n / 4096 % 64 :: n / 64 % 64 :: n % 64 :: toSextets t
  | [a, b] =>
    let n := a.toNat * 65536 + b.toNat * 256
    [n / 262144, n / 4096 % 64, n / 64 % 64]
  | [a] => [a.toNat / 4, a.toNat * 16 % 64]
  | [] => []

theorem encodeChars_eq : ∀ b : Bytes, encodeChars b = (toSextets b).map char
  | _ :: _ :: _ :: t => by simp [encodeChars, toSextets, encodeChars_eq t]
  | [_, _] | [_] | [] => rfl

theorem toSextets_lt : ∀ (b : Bytes), ∀ n ∈ toSextets b, n < 64
  | a :: b :: c :: t => by
    have := a.toNat_lt; have := b.toNat_lt; have := c.toNat_lt
    intro n hn
    simp only [toSextets, List.mem_cons] at hn
    rcases hn with rfl | rfl | rfl | rfl | hn
    · omega
    · omega
    · omega
    · omega
    · exact toSextets_lt t n hn
  | [a, b] => by
    have := a.toNat_lt; have := b.toNat_lt
    intro n hn
    simp only [toSextets, List.mem_cons, List.not_mem_nil, or_false] at hn
    rcases hn with rfl | rfl | rfl <;> omega
  | [a] => by
    have := a.toNat_lt
    intro n hn
    simp only [toSextets, List.mem_cons, List.not_mem_nil, or_false] at hn
    rcases hn with rfl | rfl <;> omega
  | [] => by simp [toSextets]

theorem ofNat_toNat {a : UInt8} {n : ℕ} (h : n % 256 = a.toNat) : UInt8.ofNat n = a := by
  apply UInt8.toNat_inj.1
  simpa using h

theorem ofSextets_toSextets : ∀ b : Bytes, ofSextets (toSextets b) = some b
  | a :: b :: c :: t => by
    have ha := a.toNat_lt; have hb := b.toNat_lt; have hc := c.toNat_lt
    simp only [toSextets, ofSextets, ofSextets_toSextets t]
    obtain ⟨n, hn⟩ : ∃ n, n = a.toNat * 65536 + b.toNat * 256 + c.toNat := ⟨_, rfl⟩
    rw [← hn]
    have hs : n / 262144 * 262144 + n / 4096 % 64 * 4096 + n / 64 % 64 * 64 + n % 64 = n := by omega
    have h1 : UInt8.ofNat (n / 65536) = a := ofNat_toNat (by omega)
    have h2 : UInt8.ofNat (n / 256) = b := ofNat_toNat (by omega)
    have h3 : UInt8.ofNat n = c := ofNat_toNat (by omega)
    simp [hs, h1, h2, h3]
  | [a, b] => by
    have ha := a.toNat_lt; have hb := b.toNat_lt
    simp only [toSextets, ofSextets]
    obtain ⟨n, hn⟩ : ∃ n, n = a.toNat * 65536 + b.toNat * 256 := ⟨_, rfl⟩
    rw [← hn]
    have hs : n / 262144 * 262144 + n / 4096 % 64 * 4096 + n / 64 % 64 * 64 = n := by omega
    have h1 : UInt8.ofNat (n / 65536) = a := ofNat_toNat (by omega)
    have h2 : UInt8.ofNat (n / 256) = b := ofNat_toNat (by omega)
    simp [hs, h1, h2]
  | [a] => by
    have ha := a.toNat_lt
    simp only [toSextets, ofSextets]
    rw [ofNat_toNat (a := a) (by omega)]
  | [] => rfl

/-- **Decoding inverts encoding.** -/
theorem decodeChars_encodeChars (b : Bytes) : decodeChars (encodeChars b) = some b := by
  have h : ((toSextets b).map char).mapM sextet = some (toSextets b) := by
    rw [List.mapM_map]
    have : ∀ l : List ℕ, (∀ n ∈ l, n < 64) → l.mapM (sextet ∘ char) = some l := by
      intro l hl
      induction l with
      | nil => rfl
      | cons n l ih =>
        simp only [List.mem_cons, forall_eq_or_imp] at hl
        simp [List.mapM_cons, sextet_char hl.1, ih hl.2]
    exact this _ (toSextets_lt b)
  rw [decodeChars, encodeChars_eq, h]
  exact ofSextets_toSextets b

theorem encode_inj {a b : Bytes} (h : encode a = encode b) : a = b := by
  have hc : encodeChars a = encodeChars b := by
    simpa only [encode, String.toList_ofList] using congrArg String.toList h
  have := decodeChars_encodeChars a
  rw [hc, decodeChars_encodeChars b] at this
  exact (Option.some.inj this).symm

/-! ## Decoding that skips other characters -/

/-- The sextets up to the padding, and whether padding ends them; `count` sextets have been
    read, and `pads` padding characters since the last one. -/
def collect : ℕ → ℕ → List Char → Bool × List ℕ
  | _, _, [] => (false, [])
  | count, pads, c :: cs =>
    if c = '=' then
      if count % 4 < 2 then collect count pads cs
      else if 4 ≤ count % 4 + (pads + 1) then (true, [])
      else collect count (pads + 1) cs
    else
      match sextet c with
      | none => collect count pads cs
      | some n => ((collect (count + 1) 0 cs).1, n :: (collect (count + 1) 0 cs).2)

/-- What is no base64 is skipped; sextets that fill no byte need their padding. -/
def decodeLenient (cs : List Char) : Option Bytes :=
  if (collect 0 0 cs).1 ∨ (collect 0 0 cs).2.length % 4 = 0 then ofSextets (collect 0 0 cs).2
  else none

theorem char_ne_pad {n : ℕ} (h : n < 64) : char n ≠ '=' := by
  have : ∀ n : Fin 64, char n ≠ '=' := by decide +kernel
  exact this ⟨n, h⟩

theorem collect_append (rest : List Char) : ∀ {l : List ℕ} (count : ℕ), (∀ n ∈ l, n < 64) →
    collect count 0 (l.map char ++ rest) =
      ((collect (count + l.length) 0 rest).1, l ++ (collect (count + l.length) 0 rest).2)
  | [], _, _ => rfl
  | n :: l, count, h => by
    simp only [List.mem_cons, forall_eq_or_imp] at h
    rw [List.map_cons, List.cons_append, collect, if_neg (char_ne_pad h.1), sextet_char h.1]
    simp only [collect_append rest (count + 1) h.2, List.length_cons, List.cons_append]
    rw [Nat.add_right_comm, Nat.add_assoc]

theorem length_toSextets : ∀ b : Bytes, (toSextets b).length = (b.length * 4 + 2) / 3
  | _ :: _ :: _ :: t => by
    simp only [toSextets, List.length_cons, length_toSextets t]
    omega
  | [_, _] | [_] => by simp [toSextets]
  | [] => rfl

/-- **Unpadded texts decode with two padding characters behind them.** -/
theorem decodeLenient_encodeChars (b : Bytes) :
    decodeLenient (encodeChars b ++ ['=', '=']) = some b := by
  have hcollect := collect_append ['=', '='] 0 (toSextets_lt b)
  have hlen : (toSextets b).length % 4 ≠ 1 := by
    rw [length_toSextets]
    omega
  rw [← encodeChars_eq, Nat.zero_add] at hcollect
  have hrest : (collect (toSextets b).length 0 ['=', '=']).2 = [] ∧
      ((collect (toSextets b).length 0 ['=', '=']).1 = true ∨ (toSextets b).length % 4 = 0) := by
    have hcases : (toSextets b).length % 4 = 0 ∨ (toSextets b).length % 4 = 2 ∨
        (toSextets b).length % 4 = 3 := by omega
    rcases hcases with h | h | h <;> simp [collect, h]
  rw [decodeLenient, hcollect, hrest.1, List.append_nil, if_pos hrest.2]
  exact ofSextets_toSextets b

end Base64Url

namespace Base64

/-- The character of a sextet. -/
def char (n : ℕ) : Char :=
  "ABCDEFGHIJKLMNOPQRSTUVWXYZabcdefghijklmnopqrstuvwxyz0123456789+/".toList.getD n '='

/-- The sextet of a character. -/
def sextet (c : Char) : Option ℕ :=
  if 'A' ≤ c ∧ c ≤ 'Z' then some (c.toNat - 65)
  else if 'a' ≤ c ∧ c ≤ 'z' then some (c.toNat - 71)
  else if '0' ≤ c ∧ c ≤ '9' then some (c.toNat + 4)
  else if c = '+' then some 62
  else if c = '/' then some 63
  else none

/-- The padding after the characters of `n` bytes. -/
def padding (n : ℕ) : List Char := List.replicate ((3 - n % 3) % 3) '='

def encodeChars (b : Bytes) : List Char := (Base64Url.toSextets b).map char ++ padding b.length

def encode (b : Bytes) : String := String.ofList (encodeChars b)

/-- Padding is at most two characters, and ends the text. -/
def decodeChars (cs : List Char) : Option Bytes :=
  let body := cs.takeWhile (· ≠ '=')
  let pad := cs.dropWhile (· ≠ '=')
  if cs.length % 4 = 0 ∧ (pad = [] ∨ pad = ['='] ∨ pad = ['=', '=']) then
    (body.mapM sextet).bind Base64Url.ofSextets
  else none

end Base64
