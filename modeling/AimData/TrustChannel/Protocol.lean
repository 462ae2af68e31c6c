/-
  The wire primitives of the Trust Channel: canonical base64 fields, the
  handshake transcript, sequence numbers and the IV of a sequence number.

  `deriveIv` masks the last eight bytes of the nonce with the sequence and
  puts the direction in the top bit, so that the IVs of one nonce differ for
  different sequences and directions (`deriveIv_inj`).
-/
import AimData.Lib.Base64
import AimData.Lib.Except
import AimData.Lib.Json

namespace AimData

namespace TrustChannel

/-- `LIMIT` -/
def limit : ℕ := 2 ^ 63

/-- A dict with text keys. -/
abbrev Dict := List (String × Json)

/-- `frame.get(key)` -/
def get (frame : Dict) (key : String) : Json := (frame.lookup key).getD .null

/-! ## Fields -/

/-- `decode_b64` -/
def decodeB64 (value : Json) (length : Option ℕ) : Except Raised Bytes :=
  match value with
  | .str s =>
    match Base64.decodeChars s.toList with
    | none => raise "binascii.Error" "Only base64 data is allowed"
    | some raw =>
      if Base64.encode raw ≠ s then raise "ValueError" "Noncanonical base64 field"
      else if length.any (· ≠ raw.length) then
        raise "ValueError" s!"Expected {length.getD 0}-byte field"
      else .ok raw
  | _ => raise "ValueError" "Missing or invalid base64 field"

/-- A field decodes to the bytes it is the encoding of. -/
theorem decodeB64_ok {value : Json} {length : Option ℕ} {raw : Bytes}
    (h : decodeB64 value length = .ok raw) :
    value = .str (Base64.encode raw) ∧ ∀ n ∈ length, raw.length = n := by
  cases value with
  | str s =>
    simp only [decodeB64, raise] at h
    split at h
    · cases h
    · split_ifs at h with h1 h2
      cases h
      rw [not_not] at h1
      refine ⟨by rw [h1], ?_⟩
      intro n hn
      rw [hn, Option.any_some, decide_eq_true_eq, not_not] at h2
      exact h2.symm
  | _ => cases h

/-! ## Handshake -/

/-- `struct.pack(">H", len(value)) + value` -/
def lengthPrefixed (value : Bytes) : Bytes := Bytes.ofNat value.length 2 ++ value

def transcriptTag : Bytes :=
  Utf8.encode "ai.market trust channel v1 handshake".toList

/-- The fields of the handshake transcript, in their order. -/
structure Transcript where
  deviceId : String
  edPublic : Bytes
  xPublic : Bytes
  clientNonce : Bytes
  serverNonce : Bytes
  ephemeral : Bytes
  deriving DecidableEq, Repr

def Transcript.fields (t : Transcript) : List Bytes :=
  [Utf8.encode t.deviceId.toList, t.edPublic, t.xPublic, t.clientNonce, t.serverNonce, t.ephemeral]

def handshakeTranscript (t : Transcript) : Except Raised Bytes :=
  if t.fields.any (·.length > 65535) then raise "ValueError" "Transcript field too long"
  else .ok (transcriptTag ++ t.fields.flatMap lengthPrefixed)

/-! ## Sequences and IVs -/

/-- `validate_sequence`; the value is then the sequence number. -/
def validateSequence : Json → Except Raised ℕ
  | .int i =>
    if 0 ≤ i ∧ i < limit then .ok i.toNat
    else raise "ValueError" "Trust Channel sequence out of range"
  | _ => raise "ValueError" "Trust Channel sequence out of range"

/-- The last eight bytes of an IV, from those of the nonce. -/
def ivSuffix (nonce sequence : ℕ) (fromServer : Bool) : ℕ :=
  ((nonce ^^^ sequence) &&& (limit - 1)) ||| (fromServer.toNat <<< 63)

def deriveIv (nonce : Bytes) (sequence : Json) (fromServer : Bool) : Except Raised Bytes := do
  let sequence ← validateSequence sequence
  if nonce.length ≠ 12 then raise "ValueError" "Server nonce must be 12 bytes"
  else
    let suffix := ivSuffix (Bytes.toNat (nonce.drop 4)) sequence fromServer
    return nonce.take 4 ++ Bytes.ofNat suffix 8

theorem validateSequence_ok {v : Json} {n : ℕ} :
    validateSequence v = .ok n ↔ v = .int n ∧ n < limit := by
  constructor
  · intro h
    cases v with
    | int i =>
      rw [validateSequence] at h
      split_ifs at h with hi
      · cases h
        refine ⟨?_, ?_⟩
        · rw [Int.toNat_of_nonneg hi.1]
        · have := hi.2; omega
      · cases h
    | _ => cases h
  · rintro ⟨rfl, hn⟩
    rw [validateSequence, if_pos ⟨by omega, by exact_mod_cast hn⟩, Int.toNat_natCast]

/-- **When a sequence has an IV**, and which. -/
theorem deriveIv_ok {nonce : Bytes} {v : Json} {fromServer : Bool} {iv : Bytes} :
    deriveIv nonce v fromServer = .ok iv ↔ nonce.length = 12 ∧ ∃ n : ℕ, v = .int n ∧ n < limit ∧
      iv = nonce.take 4 ++ Bytes.ofNat (ivSuffix (Bytes.toNat (nonce.drop 4)) n fromServer) 8 := by
  rw [deriveIv, Except.bind_eq_ok]
  constructor
  · rintro ⟨n, hn, h⟩
    split_ifs at h with hlen
    · cases h
    · cases h
      obtain ⟨hv, hlt⟩ := validateSequence_ok.1 hn
      exact ⟨not_not.1 hlen, n, hv, hlt, rfl⟩
  · rintro ⟨hlen, n, rfl, hlt, rfl⟩
    exact ⟨n, validateSequence_ok.2 ⟨rfl, hlt⟩, by rw [if_neg (not_not.2 hlen)]; rfl⟩

/-- The mask keeps the low bits of the sum, and the direction is the top bit. -/
theorem testBit_ivSuffix (nonce sequence : ℕ) (fromServer : Bool) (i : ℕ) :
    (ivSuffix nonce sequence fromServer).testBit i =
      if i < 63 then (nonce.testBit i != sequence.testBit i) else (decide (i = 63) && fromServer) := by
  rw [ivSuffix, Nat.testBit_or, Nat.testBit_and, Nat.testBit_xor, limit,
    Nat.testBit_two_pow_sub_one, Nat.testBit_shiftLeft]
  by_cases h : i < 63
  · simp [h]
  · obtain rfl | hi : i = 63 ∨ 63 < i := by omega
    · cases fromServer <;> simp
    · have : fromServer.toNat.testBit (i - 63) = false := by
        apply Nat.testBit_lt_two_pow
        calc fromServer.toNat < 2 ^ 1 := by cases fromServer <;> decide
          _ ≤ 2 ^ (i - 63) := Nat.pow_le_pow_right (by decide) (by omega)
      simp [h, this, show i ≠ 63 by omega]

theorem ivSuffix_lt (nonce sequence : ℕ) (fromServer : Bool) :
    ivSuffix nonce sequence fromServer < 256 ^ 8 := by
  have : ivSuffix nonce sequence fromServer < 2 ^ 64 := by
    apply Nat.lt_pow_two_of_testBit
    intro i hi
    rw [testBit_ivSuffix, if_neg (by omega)]
    simp [show i ≠ 63 by omega]
  simpa using this

/-- The suffixes of one nonce determine the direction and the sequence. -/
theorem ivSuffix_inj {nonce n m : ℕ} {b c : Bool} (hn : n < limit) (hm : m < limit)
    (h : ivSuffix nonce n b = ivSuffix nonce m c) : n = m ∧ b = c := by
  have hbit : ∀ i, (ivSuffix nonce n b).testBit i = (ivSuffix nonce m c).testBit i := by
    intro i; rw [h]
  refine ⟨?_, ?_⟩
  · apply Nat.eq_of_testBit_eq
    intro i
    by_cases hi : i < 63
    · have := hbit i
      rw [testBit_ivSuffix, testBit_ivSuffix, if_pos hi, if_pos hi] at this
      simpa using this
    · have hpow : limit ≤ 2 ^ i := Nat.pow_le_pow_right (by decide) (by omega)
      rw [Nat.testBit_lt_two_pow (hn.trans_le hpow), Nat.testBit_lt_two_pow (hm.trans_le hpow)]
  · have := hbit 63
    rw [testBit_ivSuffix, testBit_ivSuffix, if_neg (by omega), if_neg (by omega)] at this
    simpa using this

/-- **One nonce gives different IVs to different sequences and directions.** -/
theorem deriveIv_inj {nonce : Bytes} {v w : Json} {b c : Bool} {iv : Bytes}
    (hv : deriveIv nonce v b = .ok iv) (hw : deriveIv nonce w c = .ok iv) : v = w ∧ b = c := by
  obtain ⟨-, n, rfl, hn, rfl⟩ := deriveIv_ok.1 hv
  obtain ⟨-, m, rfl, hm, h⟩ := deriveIv_ok.1 hw
  have hsuffix := Bytes.ofNat_inj (ivSuffix_lt _ _ _) (ivSuffix_lt _ _ _) (List.append_cancel_left h)
  obtain ⟨rfl, rfl⟩ := ivSuffix_inj hn hm hsuffix
  exact ⟨rfl, rfl⟩

end TrustChannel

end AimData
