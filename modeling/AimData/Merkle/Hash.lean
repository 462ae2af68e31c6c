/-
  The hash primitives of `aim-dataset-merkle-v1`: digests and their text
  forms, the leaf and node hashes, and the root of a leaf list.

  A digest argument of the service is raw bytes or unpadded base64url text
  (`HashValue`); `decodeDigest` admits exactly 32 bytes of either.  The node
  hash of two digests is `nodeHash`, so that the roots of the service are the
  `Merkle.mth nodeHash` of the library.
-/
import AimData.Lib.Base64
import AimData.Lib.Except
import AimData.Lib.Merkle
import AimData.Lib.Sha256

namespace AimData

/-- A stable, non-content validation failure. -/
structure CommitmentValidationError where
  code : String
  safeMessage : Option String := none
  deriving DecidableEq, Repr

/-- `raise CommitmentValidationError(code)` -/
def refuse {α : Type} (code : String) : Except CommitmentValidationError α :=
  .error { code := code }

def maxTreeSize : ℕ := 2 ^ 63 - 1
def maxProofSiblings : ℕ := 63

/-- The bytes of an ASCII text. -/
def ascii (s : String) : Bytes := s.toList.map fun c => UInt8.ofNat c.toNat

/-! ## Digest text -/

/-- What the service accepts where it expects a digest: a bytes-like value, a
    text, or a value of another type (refused). -/
inductive HashValue where
  | bytes (b : Bytes)
  | text (s : String)
  | other
  deriving DecidableEq, Repr

def encodeBase64url (value : Bytes) : String := Base64Url.encode value

def decodeBase64url : HashValue → Except CommitmentValidationError Bytes
  | .text value =>
    if value = "" ∨ '=' ∈ value.toList then refuse "invalid_hash_encoding"
    else match Base64Url.decodeChars value.toList with
      | none => refuse "invalid_hash_encoding"
      | some decoded =>
        if encodeBase64url decoded ≠ value then refuse "invalid_hash_encoding" else .ok decoded
  | _ => refuse "invalid_hash_encoding"

def decodeDigest (value : HashValue) : Except CommitmentValidationError Digest := do
  let decoded ← match value with
    | .bytes b => .ok b
    | v => decodeBase64url v
  if h : decoded.length = 32 then .ok ⟨decoded, h⟩ else refuse "invalid_hash_encoding"

/-- The bytes form of a digest. -/
def HashValue.ofDigest (d : Digest) : HashValue := .bytes d.1

/-- `constant_time_digest_equal` -/
def constantTimeDigestEqual (left right : HashValue) : Bool :=
  match decodeDigest left, decodeDigest right with
  | .ok l, .ok r => l = r
  | _, _ => false

@[simp] theorem decodeDigest_ofDigest (d : Digest) : decodeDigest (.ofDigest d) = .ok d := by
  simp [decodeDigest, HashValue.ofDigest, d.2]

theorem char_ne_pad (n : ℕ) (h : n < 64) : Base64Url.char n ≠ '=' := by
  have : ∀ n : Fin 64, Base64Url.char n ≠ '=' := by decide +kernel
  exact this ⟨n, h⟩

theorem toSextets_ne_nil : ∀ {b : Bytes}, b ≠ [] → Base64Url.toSextets b ≠ []
  | _ :: _ :: _ :: _, _ | [_, _], _ | [_], _ => by simp [Base64Url.toSextets]
  | [], h => absurd rfl h

/-- The text form of a nonempty byte string is accepted. -/
theorem decodeBase64url_encode {b : Bytes} (hb : b ≠ []) :
    decodeBase64url (.text (encodeBase64url b)) = .ok b := by
  have hl : (encodeBase64url b).toList = Base64Url.encodeChars b := by
    simp [encodeBase64url, Base64Url.encode]
  have hne : encodeBase64url b ≠ "" := by
    intro h
    have := congrArg String.toList h
    rw [hl, Base64Url.encodeChars_eq] at this
    exact toSextets_ne_nil hb (List.map_eq_nil_iff.1 this)
  have hpad : '=' ∉ (encodeBase64url b).toList := by
    rw [hl, Base64Url.encodeChars_eq]
    intro h
    obtain ⟨n, hn, he⟩ := List.mem_map.1 h
    exact char_ne_pad n (Base64Url.toSextets_lt b n hn) he
  simp only [decodeBase64url]
  rw [if_neg (by simp [hne, hpad]), hl, Base64Url.decodeChars_encodeChars]
  simp

/-- The text form of a digest is accepted as that digest. -/
theorem decodeDigest_encode (d : Digest) : decodeDigest (.text (encodeBase64url d.1)) = .ok d := by
  have hne : d.1 ≠ [] := by intro h; have := d.2; rw [h] at this; cases this
  simp [decodeDigest, decodeBase64url_encode hne, d.2]

/-! ## Hashes -/

/-- The bytes hashed by `compute_base_row_digest`. -/
def baseRowPreimage (schemaDigest : Digest) (canonicalRowBytes : Bytes) : Bytes :=
  ascii "aim-row-v1" ++ 0 :: schemaDigest.1 ++ 0 :: canonicalRowBytes

def computeBaseRowDigest (schemaDigest : HashValue) (canonicalRowBytes : Bytes) :
    Except CommitmentValidationError Digest := do
  return sha256 (baseRowPreimage (← decodeDigest schemaDigest) canonicalRowBytes)

/-- The bytes hashed by `compute_leaf_hash`. -/
def leafPreimage (baseRowDigest : Digest) (duplicateOrdinal : ℕ) : Bytes :=
  0 :: ascii "aim-leaf-v1" ++ 0 :: baseRowDigest.1 ++ Bytes.ofNat duplicateOrdinal 8

def computeLeafHash (baseRowDigest : HashValue) (duplicateOrdinal : ℤ) :
    Except CommitmentValidationError Digest := do
  if duplicateOrdinal < 0 ∨ duplicateOrdinal > maxTreeSize then
    refuse "invalid_duplicate_ordinal"
  else return sha256 (leafPreimage (← decodeDigest baseRowDigest) duplicateOrdinal.toNat)

/-- The bytes hashed by `compute_node_hash`. -/
def nodePreimage (left right : Digest) : Bytes := 1 :: left.1 ++ right.1

/-- `compute_node_hash` of two digests. -/
def nodeHash (left right : Digest) : Digest := sha256 (nodePreimage left right)

def computeNodeHash (leftHash rightHash : HashValue) : Except CommitmentValidationError Digest := do
  let left ← decodeDigest leftHash
  let right ← decodeDigest rightHash
  return nodeHash left right

theorem nodePreimage_inj {a b c d : Digest} (h : nodePreimage a b = nodePreimage c d) :
    a = c ∧ b = d := by
  simp only [nodePreimage, List.cons_append, List.cons.injEq, true_and] at h
  obtain ⟨h1, h2⟩ := List.append_inj h (a.2.trans c.2.symm)
  exact ⟨Subtype.ext h1, Subtype.ext h2⟩

/-! ## Collisions -/

/-- Two different byte strings, one of `S` and one of `T`, with one SHA-256
    digest. -/
def HashCollision (S T : List Bytes) : Prop :=
  ∃ x ∈ S, ∃ y ∈ T, x ≠ y ∧ sha256 x = sha256 y

theorem HashCollision.mono {S S' T T' : List Bytes} (h : HashCollision S T) (hS : S ⊆ S')
    (hT : T ⊆ T') : HashCollision S' T' := by
  obtain ⟨x, hx, y, hy, hne, he⟩ := h
  exact ⟨x, hS hx, y, hT hy, hne, he⟩

/-- The byte strings hashed for a list of node pairs. -/
def preimages (ps : List (Digest × Digest)) : List Bytes := ps.map fun p => nodePreimage p.1 p.2

theorem clash_collision {S T : List (Digest × Digest)} (h : Merkle.Clash nodeHash S T) :
    HashCollision (preimages S) (preimages T) := by
  obtain ⟨p, hp, q, hq, hne, he⟩ := h
  refine ⟨_, List.mem_map_of_mem hp, _, List.mem_map_of_mem hq, fun h => hne ?_, he⟩
  obtain ⟨h1, h2⟩ := nodePreimage_inj h
  exact Prod.ext h1 h2

/-! ## The root of a leaf list -/

instance : Inhabited Digest := ⟨⟨List.replicate 32 0, by simp⟩⟩

/-- `int.bit_length` -/
def bitLength (n : ℕ) : ℕ := if n = 0 then 0 else Nat.log2 n + 1

def largestPowerOfTwoLessThan (size : ℕ) : ℕ := 1 <<< (bitLength (size - 1) - 1)

theorem largestPowerOfTwoLessThan_eq {size : ℕ} (h : 2 ≤ size) :
    largestPowerOfTwoLessThan size = Merkle.split size := by
  rw [largestPowerOfTwoLessThan, bitLength, if_neg (by omega), Nat.one_shiftLeft, Merkle.split]
  rfl

/-- `root(start, size)` of `build_merkle_root`; the first argument bounds the
    recursion and is at least `size` in every call. -/
def rootFrom (normalized : List Digest) : ℕ → ℕ → ℕ → Digest
  | 0, start, _ => normalized.getD start default
  | fuel + 1, start, size =>
    if size = 1 then normalized.getD start default
    else
      let split := largestPowerOfTwoLessThan size
      nodeHash (rootFrom normalized fuel start split)
        (rootFrom normalized fuel (start + split) (size - split))

def buildMerkleRoot (leaves : List HashValue) : Except CommitmentValidationError Digest := do
  if leaves = [] ∨ leaves.length > maxTreeSize then refuse "invalid_tree_size"
  else
    let normalized ← leaves.mapM decodeDigest
    return rootFrom normalized normalized.length 0 normalized.length

/-- The recursion on positions computes the root of the slice. -/
theorem rootFrom_eq (normalized : List Digest) : ∀ fuel start size : ℕ, 1 ≤ size → size ≤ fuel →
    start + size ≤ normalized.length →
      rootFrom normalized fuel start size =
        Merkle.mth nodeHash ((normalized.drop start).take size) := by
  intro fuel
  induction fuel with
  | zero => intro start size h1 h2; omega
  | succ fuel ih =>
    intro start size h1 h2 h3
    rw [rootFrom]
    split_ifs with h
    · subst h
      have hlt : start < normalized.length := by omega
      rw [List.take_one_drop_eq_of_lt_length hlt, Merkle.mth_singleton]
      simp [hlt]
    · have hs := Merkle.split_lt (n := size) (by omega)
      have hp := Merkle.split_pos size
      have hlen : ((normalized.drop start).take size).length = size := by simp; omega
      simp only [largestPowerOfTwoLessThan_eq (show 2 ≤ size by omega)]
      rw [ih start _ (by omega) (by omega) (by omega), ih _ _ (by omega) (by omega) (by omega),
        Merkle.mth_split nodeHash (l := (normalized.drop start).take size) (by omega), hlen,
        List.take_take, min_eq_left hs.le, List.drop_take, List.drop_drop]

/-- The leaves decode to the digests `ds`. -/
def Decodes (leaves : List HashValue) (ds : List Digest) : Prop :=
  leaves.mapM decodeDigest = .ok ds

theorem mapM_decodeDigest_ofDigest (ds : List Digest) :
    (ds.map HashValue.ofDigest).mapM decodeDigest = .ok ds :=
  List.mapM_ok_of_inverse decodeDigest_ofDigest ds

/-- **`build_merkle_root` is the root of the decoded leaves.** -/
theorem buildMerkleRoot_eq {leaves : List HashValue} {ds : List Digest} (h : Decodes leaves ds)
    (hne : leaves ≠ []) (hmax : leaves.length ≤ maxTreeSize) :
    buildMerkleRoot leaves = .ok (Merkle.mth nodeHash ds) := by
  have hlen := List.mapM_ok_length h
  have hpos := List.length_pos_iff.2 hne
  rw [buildMerkleRoot, if_neg (by simp [hne]; omega)]
  simp only [Decodes] at h
  rw [h]
  simp only [Except.ok_bind, Except.pure_eq_ok]
  rw [rootFrom_eq ds _ _ _ (by omega) le_rfl (by omega)]
  simp

/-- A built root comes from leaves that decode. -/
theorem buildMerkleRoot_ok {leaves : List HashValue} {r : Digest}
    (h : buildMerkleRoot leaves = .ok r) :
    ∃ ds, Decodes leaves ds ∧ ds ≠ [] ∧ ds.length ≤ maxTreeSize ∧ r = Merkle.mth nodeHash ds := by
  by_cases hc : leaves = [] ∨ leaves.length > maxTreeSize
  · rw [buildMerkleRoot, if_pos hc] at h; cases h
  · have h' := h
    rw [buildMerkleRoot, if_neg hc] at h'
    cases hd : leaves.mapM decodeDigest with
    | error e => rw [hd] at h'; cases h'
    | ok ds =>
      have hlen := List.mapM_ok_length hd
      push Not at hc
      refine ⟨ds, hd, ?_, by omega, ?_⟩
      · rw [← List.length_pos_iff, hlen]; exact List.length_pos_iff.2 hc.1
      · rw [buildMerkleRoot_eq hd hc.1 (by omega)] at h
        exact (Except.ok.inj h).symm

/-- The byte strings hashed to compute the root of a leaf list. -/
def rootPreimages (ds : List Digest) : List Bytes := preimages (Merkle.nodePairs nodeHash ds)

end AimData
