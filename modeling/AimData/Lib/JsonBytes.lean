/-
  JSON values read from bytes: the encoding is told from the first bytes, as
  `json.loads` does it.  UTF-16 and UTF-32 texts are read with and without a
  byte order mark; a lone surrogate is no character.
-/
import AimData.Lib.Json

namespace Json

/-- The encoding of a text, and its byte order. -/
inductive Codec where
  | utf8
  | utf16 (big : Bool)
  | utf32 (big : Bool)
  deriving DecidableEq, Repr

/-- `detect_encoding` of a text without byte order mark. -/
def detectPlain : Bytes → Codec
  | b₀ :: b₁ :: b₂ :: b₃ :: _ =>
    if b₀ = 0 then if b₁ = 0 then .utf32 true else .utf16 true
    else if b₁ = 0 then if b₂ = 0 ∧ b₃ = 0 then .utf32 false else .utf16 false
    else .utf8
  | [b₀, b₁] => if b₀ = 0 then .utf16 true else if b₁ = 0 then .utf16 false else .utf8
  | _ => .utf8

/-- The byte order marks, in the order they are tried. -/
def marks : List (Bytes × Codec) :=
  [([0, 0, 0xFE, 0xFF], .utf32 true), ([0xFF, 0xFE, 0, 0], .utf32 false),
    ([0xFE, 0xFF], .utf16 true), ([0xFF, 0xFE], .utf16 false), ([0xEF, 0xBB, 0xBF], .utf8)]

/-- `detect_encoding`, with the bytes behind the mark. -/
def detectEncoding (raw : Bytes) : Codec × Bytes :=
  match marks.find? fun m => m.1.isPrefixOf raw with
  | some (mark, codec) => (codec, raw.drop mark.length)
  | none => (detectPlain raw, raw)

/-- A number of two bytes. -/
def unit16 (big : Bool) (a b : UInt8) : ℕ :=
  if big then a.toNat * 256 + b.toNat else b.toNat * 256 + a.toNat

/-- The characters of UTF-16 bytes; the first argument bounds their number. -/
def decodeUtf16 (big : Bool) : ℕ → Bytes → Option (List Char)
  | _, [] => some []
  | fuel + 1, a :: b :: rest => do
    let u := unit16 big a b
    if u < 0xD800 ∨ 0xE000 ≤ u then return Char.ofNat u :: (← decodeUtf16 big fuel rest)
    else match rest with
      | c :: d :: rest =>
        let v := unit16 big c d
        if u < 0xDC00 ∧ 0xDC00 ≤ v ∧ v < 0xE000 then
          return Char.ofNat (0x10000 + (u - 0xD800) * 0x400 + (v - 0xDC00)) ::
            (← decodeUtf16 big fuel rest)
        else none
      | _ => none
  | _, _ => none

/-- The characters of UTF-32 bytes. -/
def decodeUtf32 (big : Bool) : Bytes → Option (List Char)
  | [] => some []
  | a :: b :: c :: d :: rest => do
    let n := if big then unit16 true a b * 65536 + unit16 true c d
      else unit16 false c d * 65536 + unit16 false a b
    if n.isValidChar then return Char.ofNat n :: (← decodeUtf32 big rest) else none
  | _ => none

def Codec.decode : Codec → Bytes → Option (List Char)
  | .utf8, raw => Utf8.decode raw
  | .utf16 big, raw => decodeUtf16 big raw.length raw
  | .utf32 big, raw => decodeUtf32 big raw

/-- `json.loads` of bytes. -/
def loadBytes (hook : List (String × Json) → Option (List (String × Json))) (raw : Bytes) :
    Option Json := do
  parseWith hook (← (detectEncoding raw).1.decode (detectEncoding raw).2)

/-! ## UTF-8 texts are read as such -/

/-- Two characters that no mark and no other encoding starts with. -/
theorem detectEncoding_utf8 {b₀ b₁ : UInt8} {rest : Bytes} (h₀ : b₀ ∈ [91, 123]) (h₁ : b₁ ≠ 0) :
    detectEncoding (b₀ :: b₁ :: rest) = (.utf8, b₀ :: b₁ :: rest) := by
  have hne : b₀ ≠ 0 := by rintro rfl; simp at h₀
  have hmark : marks.find? (fun m => m.1.isPrefixOf (b₀ :: b₁ :: rest)) = none := by
    rcases List.mem_pair.1 h₀ with rfl | rfl <;> simp [marks]
  have hplain : detectPlain (b₀ :: b₁ :: rest) = .utf8 := by
    rcases rest with _ | ⟨b₂, _ | ⟨b₃, rest⟩⟩
    · rw [detectPlain, if_neg hne, if_neg h₁]
    · rfl
    · rw [detectPlain, if_neg hne, if_neg h₁]
  rw [detectEncoding, hmark, hplain]

/-- The first byte of a character is zero for the null character only. -/
theorem head_encodeChar_ne {c : Char} (h : c ≠ '\x00') :
    ∃ b bs, Utf8.encodeChar c = b :: bs ∧ b ≠ 0 := by
  have hlt := Utf8.toNat_lt c
  have key : ∀ n : ℕ, 0 < n → n < 256 → UInt8.ofNat n ≠ 0 := by
    intro n h0 hn he
    have := congrArg UInt8.toNat he
    rw [Utf8.toNat_ofNat_lt hn] at this
    exact absurd this h0.ne'
  have hpos : 0 < c.toNat := by
    refine Nat.pos_of_ne_zero fun h0 => h ?_
    rw [← Char.ofNat_toNat c, h0]
  rw [Utf8.encodeChar]
  split_ifs with h1 h2 h3
  · exact ⟨_, _, rfl, key _ hpos (by omega)⟩
  · exact ⟨_, _, rfl, key _ (by omega) (by omega)⟩
  · exact ⟨_, _, rfl, key _ (by omega) (by omega)⟩
  · exact ⟨_, _, rfl, key _ (by omega) (by omega)⟩

/-- A container's text starts with its bracket and another character. -/
theorem head_dumps_container {v : Json} (hv : Proper v) (hc : (∃ l, v = arr l) ∨ ∃ l, v = obj l) :
    ∃ c d cs, dumps v = c :: d :: cs ∧ (c = '[' ∨ c = '{') ∧ d ≠ '\x00' := by
  rcases hc with ⟨l, rfl⟩ | ⟨l, rfl⟩
  · cases l with
    | nil => exact ⟨_, _, _, rfl, Or.inl rfl, by decide⟩
    | cons v l =>
      rw [Proper, ProperList] at hv
      obtain ⟨c, cs, hd, -, -, -, hnul⟩ := head_dumps hv.1
      exact ⟨'[', c, cs ++ dumpsTail l, by rw [dumps, hd]; rfl, Or.inl rfl, hnul⟩
  · rcases l with _ | ⟨⟨k, v⟩, l⟩
    · exact ⟨_, _, _, rfl, Or.inr rfl, by decide⟩
    · exact ⟨'{', '"', k.toList.flatMap escapeChar ++ '"' :: ':' :: (dumps v ++ dumpsFields l),
        by simp [dumps, dumpsStr], Or.inr rfl, by decide⟩

/-- **The UTF-8 text of a container loads back** to it. -/
theorem loadBytes_dumps {hook : List (String × Json) → Option (List (String × Json))}
    (hhook : KeepsDistinct hook) {v : Json} (hv : Proper v)
    (hc : (∃ l, v = arr l) ∨ ∃ l, v = obj l) :
    loadBytes hook (Utf8.encode (dumps v)) = some v := by
  obtain ⟨c, d, cs, hd, hcd, hnul⟩ := head_dumps_container hv hc
  obtain ⟨b, bs, hb, hne⟩ := head_encodeChar_ne hnul
  have hhead : ∃ b₀, Utf8.encodeChar c = [b₀] ∧ b₀ ∈ ([91, 123] : Bytes) := by
    rcases hcd with rfl | rfl
    · exact ⟨91, by decide, by simp⟩
    · exact ⟨123, by decide, by simp⟩
  obtain ⟨b₀, hb₀, hm⟩ := hhead
  have htext : Utf8.encode (dumps v) = b₀ :: b :: (bs ++ Utf8.encode cs) := by
    rw [hd, Utf8.encode, List.flatMap_cons, List.flatMap_cons, hb₀, hb]
    rfl
  have hdetect : detectEncoding (Utf8.encode (dumps v)) = (.utf8, Utf8.encode (dumps v)) := by
    rw [htext]
    exact detectEncoding_utf8 hm hne
  rw [loadBytes, hdetect]
  simp only [Codec.decode, Utf8.decode_encode, Option.bind_eq_bind, Option.bind_some]
  exact parseWith_dumps hhook hv

end Json
