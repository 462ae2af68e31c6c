/-
  The SHA-256 hash function, computed as its standard defines it: the padded
  message is cut into blocks of sixteen words, each block is expanded to a
  schedule of sixty-four words, and a round for each word mixes it into the
  eight-word state.  The keyed code over it hashes the message behind the masked
  key, and the digest of that behind the key masked otherwise.
-/
import AimData.Lib.Bytes

/-- A 256-bit digest. -/
abbrev Digest := {b : Bytes // b.length = 32}

namespace Sha256

/-- The round constants. -/
def roundConstants : List UInt32 :=
  [0x428a2f98, 0x71374491, 0xb5c0fbcf, 0xe9b5dba5, 0x3956c25b, 0x59f111f1, 0x923f82a4, 0xab1c5ed5,
   0xd807aa98, 0x12835b01, 0x243185be, 0x550c7dc3, 0x72be5d74, 0x80deb1fe, 0x9bdc06a7, 0xc19bf174,
   0xe49b69c1, 0xefbe4786, 0x0fc19dc6, 0x240ca1cc, 0x2de92c6f, 0x4a7484aa, 0x5cb0a9dc, 0x76f988da,
   0x983e5152, 0xa831c66d, 0xb00327c8, 0xbf597fc7, 0xc6e00bf3, 0xd5a79147, 0x06ca6351, 0x14292967,
   0x27b70a85, 0x2e1b2138, 0x4d2c6dfc, 0x53380d13, 0x650a7354, 0x766a0abb, 0x81c2c92e, 0x92722c85,
   0xa2bfe8a1, 0xa81a664b, 0xc24b8b70, 0xc76c51a3, 0xd192e819, 0xd6990624, 0xf40e3585, 0x106aa070,
   0x19a4c116, 0x1e376c08, 0x2748774c, 0x34b0bcb5, 0x391c0cb3, 0x4ed8aa4a, 0x5b9cca4f, 0x682e6ff3,
   0x748f82ee, 0x78a5636f, 0x84c87814, 0x8cc70208, 0x90befffa, 0xa4506ceb, 0xbef9a3f7, 0xc67178f2]

/-- The eight working words. -/
structure State where
  (a b c d e f g h : UInt32)

def State.init : State :=
  ⟨0x6a09e667, 0xbb67ae85, 0x3c6ef372, 0xa54ff53a, 0x510e527f, 0x9b05688c, 0x1f83d9ab, 0x5be0cd19⟩

def State.add (s t : State) : State :=
  ⟨s.a + t.a, s.b + t.b, s.c + t.c, s.d + t.d, s.e + t.e, s.f + t.f, s.g + t.g, s.h + t.h⟩

def rotr (x n : UInt32) : UInt32 := (x >>> n) ||| (x <<< (32 - n))

/-- One round; `kw` is the round constant plus the schedule word. -/
def round (s : State) (kw : UInt32) : State :=
  let sum1 := rotr s.e 6 ^^^ rotr s.e 11 ^^^ rotr s.e 25
  let ch := (s.e &&& s.f) ^^^ (~~~s.e &&& s.g)
  let t1 := s.h + sum1 + ch + kw
  let sum0 := rotr s.a 2 ^^^ rotr s.a 13 ^^^ rotr s.a 22
  let maj := (s.a &&& s.b) ^^^ (s.a &&& s.c) ^^^ (s.b &&& s.c)
  ⟨t1 + (sum0 + maj), s.a, s.b, s.c, s.d + t1, s.e, s.f, s.g⟩

/-- Extend a schedule, kept newest word first, by `n` words. -/
def extend : ℕ → List UInt32 → List UInt32
  | 0, w => w
  | n + 1, w =>
    let s0 := rotr (w.getD 14 0) 7 ^^^ rotr (w.getD 14 0) 18 ^^^ (w.getD 14 0 >>> 3)
    let s1 := rotr (w.getD 1 0) 17 ^^^ rotr (w.getD 1 0) 19 ^^^ (w.getD 1 0 >>> 10)
    extend n ((w.getD 15 0 + s0 + w.getD 6 0 + s1) :: w)

/-- The big-endian words of a block. -/
def words : Bytes → List UInt32
  | a :: b :: c :: d :: t =>
    (a.toUInt32 <<< 24 ||| b.toUInt32 <<< 16 ||| c.toUInt32 <<< 8 ||| d.toUInt32) :: words t
  | _ => []

/-- The compression of one block. -/
def compress (s : State) (block : Bytes) : State :=
  s.add ((List.zipWith (· + ·) roundConstants (extend 48 (words block).reverse).reverse).foldl round s)

/-- The message, a one bit, zeros up to eight bytes short of a block, and the length in bits. -/
def pad (m : Bytes) : Bytes :=
  m ++ 0x80 :: List.replicate ((119 - m.length % 64) % 64) 0 ++ Bytes.ofNat (8 * m.length) 8

/-- Compress the first `n` blocks. -/
def compressAll : ℕ → Bytes → State → State
  | 0, _, s => s
  | n + 1, m, s => compressAll n (m.drop 64) (compress s (m.take 64))

def State.bytes (s : State) : Bytes :=
  [s.a, s.b, s.c, s.d, s.e, s.f, s.g, s.h].flatMap fun w => Bytes.ofNat w.toNat 4

theorem State.length_bytes (s : State) : s.bytes.length = 32 := by
  simp [State.bytes]

end Sha256

/-- The SHA-256 digest of a byte string. -/
def sha256 (m : Bytes) : Digest :=
  let p := Sha256.pad m
  let s := Sha256.compressAll (p.length / 64) p Sha256.State.init
  ⟨s.bytes, s.length_bytes⟩

-- the standard's vector for the three bytes "abc"
example : (sha256 [0x61, 0x62, 0x63]).1 =
    [0xba, 0x78, 0x16, 0xbf, 0x8f, 0x01, 0xcf, 0xea, 0x41, 0x41, 0x40, 0xde, 0x5d, 0xae, 0x22, 0x23,
     0xb0, 0x03, 0x61, 0xa3, 0x96, 0x17, 0x7a, 0x9c, 0xb4, 0x10, 0xff, 0x61, 0xf2, 0x00, 0x15, 0xad] := by
  decide +kernel

/-! ## The keyed code -/

/-- The key as a block: a long key is hashed, a short one filled with zeros. -/
def hmacBlock (key : Bytes) : Bytes :=
  let k := if 64 < key.length then (sha256 key).1 else key
  k ++ List.replicate (64 - k.length) 0

def hmacSha256 (key message : Bytes) : Digest :=
  let block := hmacBlock key
  sha256 (block.map (· ^^^ 0x5c) ++ (sha256 (block.map (· ^^^ 0x36) ++ message)).1)

-- the vector of a key of twenty bytes and the message "Hi There"
example : (hmacSha256 (List.replicate 20 0x0b) [0x48, 0x69, 0x20, 0x54, 0x68, 0x65, 0x72, 0x65]).1 =
    [0xb0, 0x34, 0x4c, 0x61, 0xd8, 0xdb, 0x38, 0x53, 0x5c, 0xa8, 0xaf, 0xce, 0xaf, 0x0b, 0xf1, 0x2b,
     0x88, 0x1d, 0xc2, 0x00, 0xc9, 0x83, 0x3d, 0xa7, 0x26, 0xe9, 0x37, 0x6c, 0x2e, 0x32, 0xcf, 0xf7] := by
  decide +kernel
