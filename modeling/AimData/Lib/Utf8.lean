/-
  UTF-8: the bytes of a text, and the text of bytes.
-/
import AimData.Lib.Bytes

namespace Utf8

def encodeChar (c : Char) : Bytes :=
  let n := c.toNat
  if n < 0x80 then [UInt8.ofNat n]
  else if n < 0x800 then [UInt8.ofNat (0xC0 + n / 64), UInt8.ofNat (0x80 + n % 64)]
  else if n < 0x10000 then
    [UInt8.ofNat (0xE0 + n / 4096), UInt8.ofNat (0x80 + n / 64 % 64), UInt8.ofNat (0x80 + n % 64)]
  else
    [UInt8.ofNat (0xF0 + n / 262144), UInt8.ofNat (0x80 + n / 4096 % 64),
      UInt8.ofNat (0x80 + n / 64 % 64), UInt8.ofNat (0x80 + n % 64)]

def encode (cs : List Char) : Bytes := cs.flatMap encodeChar

/-- The value of a continuation byte. -/
def tail (b : UInt8) : Option ℕ :=
  if 0x80 ≤ b.toNat ∧ b.toNat < 0xC0 then some (b.toNat - 0x80) else none

/-- A code point in its range, as a character. -/
def point (low n : ℕ) (rest : Bytes) : Option (Char × Bytes) :=
  if low ≤ n ∧ n.isValidChar then some (Char.ofNat n, rest) else none

/-- The first character; overlong forms and surrogates are refused. -/
def decodeChar (b : UInt8) (rest : Bytes) : Option (Char × Bytes) :=
  let n := b.toNat
  if n < 0x80 then some (Char.ofNat n, rest)
  else if n < 0xC0 then none
  else match rest with
    | [] => none
    | b₁ :: rest => do
      let t₁ ← tail b₁
      if n < 0xE0 then point 0x80 ((n - 0xC0) * 64 + t₁) rest
      else match rest with
        | [] => none
        | b₂ :: rest => do
          let t₂ ← tail b₂
          if n < 0xF0 then point 0x800 ((n - 0xE0) * 4096 + t₁ * 64 + t₂) rest
          else match rest with
            | [] => none
            | b₃ :: rest => do
              let t₃ ← tail b₃
              if n < 0xF8 then
                point 0x10000 ((n - 0xF0) * 262144 + t₁ * 4096 + t₂ * 64 + t₃) rest
              else none

/-- The characters of the bytes; the first argument bounds their number. -/
def decodeFrom : ℕ → Bytes → Option (List Char)
  | _, [] => some []
  | 0, _ :: _ => none
  | fuel + 1, b :: rest => do
    let (c, rest) ← decodeChar b rest
    let cs ← decodeFrom fuel rest
    return c :: cs

def decode (bs : Bytes) : Option (List Char) := decodeFrom bs.length bs

theorem toNat_ofNat_lt {n : ℕ} (h : n < 256) : (UInt8.ofNat n).toNat = n := by
  simp; omega

theorem tail_ofNat {n : ℕ} (h : n < 64) : tail (UInt8.ofNat (0x80 + n)) = some n := by
  rw [tail, toNat_ofNat_lt (by omega), if_pos (by omega), Nat.add_sub_cancel_left]

theorem point_char {c : Char} {low : ℕ} (h : low ≤ c.toNat) (rest : Bytes) :
    point low c.toNat rest = some (c, rest) := by
  rw [point, if_pos ⟨h, c.valid⟩, Char.ofNat_toNat]

theorem toNat_lt (c : Char) : c.toNat < 0x110000 := by
  rcases c.valid with h | h
  · exact lt_trans h (by decide)
  · exact h.2

/-- **A character's bytes decode to it**, with what follows. -/
theorem decodeChar_encodeChar (c : Char) : ∃ b bs, encodeChar c = b :: bs ∧
    ∀ rest, decodeChar b (bs ++ rest) = some (c, rest) := by
  have hlt := toNat_lt c
  unfold encodeChar
  obtain ⟨n, hn⟩ : ∃ n, n = c.toNat := ⟨_, rfl⟩
  have hp : ∀ low v rest, low ≤ n → v = n → point low v rest = some (c, rest) := by
    rintro low v rest h rfl
    rw [hn] at h ⊢
    exact point_char h rest
  simp only [← hn] at hlt ⊢
  split_ifs with h1 h2 h3
  · refine ⟨_, [], rfl, fun rest => ?_⟩
    have hb : (UInt8.ofNat n).toNat = n := toNat_ofNat_lt (by omega)
    simp only [decodeChar, hb]
    rw [if_pos h1, hn, Char.ofNat_toNat]
    rfl
  · refine ⟨_, _, rfl, fun rest => ?_⟩
    have hb : (UInt8.ofNat (0xC0 + n / 64)).toNat = 0xC0 + n / 64 := toNat_ofNat_lt (by omega)
    have t1 := tail_ofNat (show n % 64 < 64 by omega)
    simp only [List.cons_append, List.nil_append, decodeChar, hb, t1, Option.bind_eq_bind,
      Option.bind_some]
    rw [if_neg (by omega), if_neg (by omega), if_pos (by omega)]
    exact hp _ _ _ (by omega) (by omega)
  · refine ⟨_, _, rfl, fun rest => ?_⟩
    have hb : (UInt8.ofNat (0xE0 + n / 4096)).toNat = 0xE0 + n / 4096 := toNat_ofNat_lt (by omega)
    have t1 := tail_ofNat (show n / 64 % 64 < 64 by omega)
    have t2 := tail_ofNat (show n % 64 < 64 by omega)
    simp only [List.cons_append, List.nil_append, decodeChar, hb, t1, t2, Option.bind_eq_bind,
      Option.bind_some]
    rw [if_neg (by omega), if_neg (by omega), if_neg (by omega), if_pos (by omega)]
    exact hp _ _ _ (by omega) (by omega)
  · refine ⟨_, _, rfl, fun rest => ?_⟩
    have hb : (UInt8.ofNat (0xF0 + n / 262144)).toNat = 0xF0 + n / 262144 :=
      toNat_ofNat_lt (by omega)
    have t1 := tail_ofNat (show n / 4096 % 64 < 64 by omega)
    have t2 := tail_ofNat (show n / 64 % 64 < 64 by omega)
    have t3 := tail_ofNat (show n % 64 < 64 by omega)
    simp only [List.cons_append, List.nil_append, decodeChar, hb, t1, t2, t3, Option.bind_eq_bind,
      Option.bind_some]
    rw [if_neg (by omega), if_neg (by omega), if_neg (by omega), if_neg (by omega),
      if_pos (by omega)]
    exact hp _ _ _ (by omega) (by omega)

theorem decodeFrom_encode : ∀ (cs : List Char) {fuel : ℕ}, (encode cs).length ≤ fuel →
    decodeFrom fuel (encode cs) = some cs
  | [], fuel, _ => by cases fuel <;> rfl
  | c :: cs, fuel, h => by
    obtain ⟨b, bs, he, hd⟩ := decodeChar_encodeChar c
    have hc : encode (c :: cs) = b :: (bs ++ encode cs) := by
      rw [encode, List.flatMap_cons, he]; rfl
    rw [hc] at h ⊢
    simp only [List.length_cons, List.length_append] at h
    obtain ⟨fuel, rfl⟩ := Nat.exists_eq_succ_of_ne_zero (n := fuel) (by omega)
    have ih := decodeFrom_encode cs (show (encode cs).length ≤ fuel by omega)
    simp only [decodeFrom, hd, ih, Option.bind_eq_bind, Option.bind_some]
    rfl

/-- **Texts round-trip through their bytes.** -/
theorem decode_encode (cs : List Char) : decode (encode cs) = some cs :=
  decodeFrom_encode cs le_rfl

theorem encode_inj {cs cs' : List Char} (h : encode cs = encode cs') : cs = cs' := by
  have := congrArg decode h
  rwa [decode_encode, decode_encode, Option.some.injEq] at this

end Utf8
