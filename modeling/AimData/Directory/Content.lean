/-
  What the digests of a manifest are digests of.

  The bytes of the content are those of the data members in the order of their paths, each
  field of a fixed width or after its length, so they can be read back (`triples_inj`); the
  bytes of the manifest are a JSON text (`member_of_sorted`).
-/
import AimData.Canonical.NormalForm
import AimData.Directory.Members
import AimData.InstallKey.Keystore

namespace AimData

namespace Directory

open InstallKey (fromHex hexValue blank)

/-! ## Preimages -/

/-- `int.to_bytes(width, "big")` -/
def toBytes (n width : ℕ) : Except Raised Bytes :=
  if n < 256 ^ width then .ok (Bytes.ofNat n width)
  else raise "OverflowError" "int too big to convert"

/-- `bytes.fromhex` -/
def digestBytes (digest : String) : Except Raised Bytes :=
  match fromHex digest.toList with
  | some bytes => .ok bytes
  | none => raise "ValueError" "non-hexadecimal number found in fromhex() arg"

/-- What is hashed of a data member. -/
def memberBytes (m : Publish.Member) : Except Raised Bytes := do
  let path := Utf8.encode m.relativePath.toList
  let length ← toBytes path.length 8
  let size ← toBytes m.sizeBytes 8
  let digest ← digestBytes m.sha256
  return length ++ path ++ size ++ digest

/-- The data members, in the order of their paths. -/
def contentMembers (members : List Publish.Member) : List Publish.Member :=
  (members.filter fun m => m.role = "data").insertionSort
    fun a b => a.relativePath ≤ b.relativePath

/-- What `directory_content_sha256` hashes. -/
def contentPreimage (members : List Publish.Member) : Except Raised Bytes := do
  let parts ← (contentMembers members).mapM memberBytes
  return parts.flatten

def directoryContentSha256 (members : List Publish.Member) : Except Raised String := do
  let preimage ← contentPreimage members
  return AimData.hex (sha256 preimage).1

/-- `canonical_json_bytes(rows)` of `build_manifest` -/
def manifestPreimage (members : List Publish.Member) : Bytes :=
  Utf8.encode (sortedJson (.arr (members.map Publish.Member.json))).dumps

/-- What the content says of a member. -/
def triple (m : Publish.Member) : String × ℕ × String := (m.relativePath, m.sizeBytes, m.sha256)

/-- The paths, sizes and digests of the data members. -/
def contentTriples (members : List Publish.Member) : List (String × ℕ × String) :=
  (members.filter fun m => m.role = "data").map triple

/-! ## Reading the content back -/

theorem hexLower_value {c : Char} (h : hexLower c = true) :
    blank c = false ∧ ∃ n : Fin 16, hexValue c = some n.1 ∧ Nat.digitChar n = c := by
  have hdigit : ∀ n : Fin 16, blank (Nat.digitChar n) = false ∧
      hexValue (Nat.digitChar n) = some n.1 := by decide
  have hascii : ∀ k : Fin 128, hexLower (Char.ofNat k) = true →
      ∃ n : Fin 16, Nat.digitChar n = Char.ofNat k := by decide
  have hlt : c.toNat < 128 := by
    rw [hexLower, Bool.or_eq_true, Char.isDigit, Bool.and_eq_true, decide_eq_true_eq,
      decide_eq_true_eq, decide_eq_true_eq] at h
    rcases h with h | h
    · exact lt_of_le_of_lt (UInt32.le_iff_toNat_le.1 h.2) (by decide)
    · exact lt_of_le_of_lt (UInt32.le_iff_toNat_le.1 h.2) (by decide)
  have hc : Char.ofNat c.toNat = c := Char.ofNat_toNat c
  obtain ⟨n, hn⟩ := hascii ⟨c.toNat, hlt⟩ (by rw [hc]; exact h)
  rw [hc] at hn
  subst hn
  exact ⟨(hdigit n).1, n, (hdigit n).2, rfl⟩

/-- A digest is the text of its bytes. -/
theorem hex_fromHex : ∀ {cs : List Char} {b : Bytes}, cs.all hexLower = true →
    cs.length % 2 = 0 → fromHex cs = some b → (AimData.hex b).toList = cs
  | [], b, _, _, h => by
    cases h
    rfl
  | [_], _, _, hlen, _ => absurd hlen (by simp)
  | c :: d :: cs, b, hall, hlen, h => by
    rw [List.all_cons, List.all_cons, Bool.and_eq_true, Bool.and_eq_true] at hall
    obtain ⟨hblank, high, hhigh, rfl⟩ := hexLower_value hall.1
    obtain ⟨-, low, hlow, rfl⟩ := hexLower_value hall.2.1
    rw [fromHex, hblank, hhigh, hlow] at h
    simp only [Bool.false_eq_true, if_false, Option.bind_eq_bind, Option.bind_some] at h
    obtain ⟨rest, hrest, h⟩ := Option.bind_eq_some_iff.1 h
    cases h
    have ih : (AimData.hex rest).toList = cs :=
      hex_fromHex hall.2.2 (by rw [List.length_cons, List.length_cons] at hlen; omega) hrest
    have hbyte : (UInt8.ofNat (high.1 * 16 + low.1)).toNat = high.1 * 16 + low.1 := by
      rw [UInt8.toNat_ofNat']
      omega
    rw [← ih]
    unfold AimData.hex
    rw [String.toList_ofList, String.toList_ofList, List.flatMap_cons, hbyte,
      show (high.1 * 16 + low.1) / 16 = high.1 by omega,
      show (high.1 * 16 + low.1) % 16 = low.1 by omega]
    rfl

theorem memberBytes_ok {m : Publish.Member} {b : Bytes} (h : memberBytes m = .ok b) :
    ∃ digest, fromHex m.sha256.toList = some digest ∧
      (Utf8.encode m.relativePath.toList).length < 256 ^ 8 ∧ m.sizeBytes < 256 ^ 8 ∧
      b = Bytes.ofNat (Utf8.encode m.relativePath.toList).length 8 ++
        Utf8.encode m.relativePath.toList ++ Bytes.ofNat m.sizeBytes 8 ++ digest := by
  have htoBytes : ∀ {n : ℕ} {b : Bytes}, toBytes n 8 = .ok b → n < 256 ^ 8 ∧ b = Bytes.ofNat n 8 := by
    intro n b h
    rw [toBytes] at h
    split_ifs at h with hn
    · cases h
      exact ⟨hn, rfl⟩
    · cases h
  rw [memberBytes] at h
  obtain ⟨length, hlength, h⟩ := Except.bind_eq_ok.1 h
  obtain ⟨size, hsize, h⟩ := Except.bind_eq_ok.1 h
  obtain ⟨digest, hdigest, h⟩ := Except.bind_eq_ok.1 h
  cases h
  obtain ⟨hlt, rfl⟩ := htoBytes hlength
  obtain ⟨hlt', rfl⟩ := htoBytes hsize
  refine ⟨digest, ?_, hlt, hlt', rfl⟩
  rw [digestBytes] at hdigest
  split at hdigest
  · next hfrom =>
    cases hdigest
    exact hfrom
  · cases hdigest

/-- The bytes of a member say its path, size and digest, and where they end. -/
theorem triple_of_memberBytes {m m' : Publish.Member} {b b' rest rest' : Bytes}
    (hm : isHexDigest m.sha256 = true) (hm' : isHexDigest m'.sha256 = true)
    (hb : memberBytes m = .ok b) (hb' : memberBytes m' = .ok b')
    (h : b ++ rest = b' ++ rest') : triple m = triple m' ∧ rest = rest' := by
  obtain ⟨digest, hdigest, hpath, hsize, rfl⟩ := memberBytes_ok hb
  obtain ⟨digest', hdigest', hpath', hsize', rfl⟩ := memberBytes_ok hb'
  have hhex : ∀ {s : String} {digest : Bytes}, isHexDigest s = true →
      fromHex s.toList = some digest → AimData.hex digest = s ∧ digest.length = 32 := by
    intro s digest hs hfrom
    rw [isHexDigest, decide_eq_true_eq] at hs
    have htext : (AimData.hex digest).toList = s.toList :=
      hex_fromHex hs.2 (by rw [hs.1]) hfrom
    have hlen := hex_length digest
    rw [htext, hs.1] at hlen
    exact ⟨String.toList_injective htext, by omega⟩
  obtain ⟨htext, hlen⟩ := hhex hm hdigest
  obtain ⟨htext', hlen'⟩ := hhex hm' hdigest'
  simp only [List.append_assoc] at h
  obtain ⟨hcount, h⟩ := List.append_inj h (by simp)
  have hpathLength := Bytes.ofNat_inj hpath hpath' hcount
  obtain ⟨hpathBytes, h⟩ := List.append_inj h hpathLength
  obtain ⟨hsizeBytes, h⟩ := List.append_inj h (by simp)
  obtain ⟨rfl, hrest⟩ := List.append_inj h (hlen.trans hlen'.symm)
  refine ⟨?_, hrest⟩
  rw [triple, triple, String.toList_injective (Utf8.encode_inj hpathBytes),
    Bytes.ofNat_inj hsize hsize' hsizeBytes, ← htext, ← htext']

/-- The bytes of members say the paths, sizes and digests in order. -/
theorem triples_inj : ∀ {l l' : List Publish.Member} {parts parts' : List Bytes},
    (∀ m ∈ l, isHexDigest m.sha256 = true) → (∀ m ∈ l', isHexDigest m.sha256 = true) →
    l.mapM memberBytes = .ok parts → l'.mapM memberBytes = .ok parts' →
    parts.flatten = parts'.flatten → l.map triple = l'.map triple := by
  have hne : ∀ {m : Publish.Member} {b rest : Bytes}, memberBytes m = .ok b → b ++ rest ≠ [] := by
    intro m b rest hb hnil
    obtain ⟨digest, -, -, -, rfl⟩ := memberBytes_ok hb
    have hlength := congrArg List.length hnil
    simp at hlength
  intro l
  induction l with
  | nil =>
    intro l' parts parts' _ _ hparts hparts' h
    cases hparts
    cases l' with
    | nil => rfl
    | cons m' l' =>
      obtain ⟨b', bs', hb', hbs', rfl⟩ := List.mapM_cons_ok.1 hparts'
      exact absurd h.symm (hne hb')
  | cons m l ih =>
    intro l' parts parts' hl hl' hparts hparts' h
    obtain ⟨b, bs, hb, hbs, rfl⟩ := List.mapM_cons_ok.1 hparts
    cases l' with
    | nil =>
      cases hparts'
      exact absurd h (hne hb)
    | cons m' l' =>
      obtain ⟨b', bs', hb', hbs', rfl⟩ := List.mapM_cons_ok.1 hparts'
      rw [List.forall_mem_cons] at hl hl'
      obtain ⟨htriple, hrest⟩ := triple_of_memberBytes hl.1 hl'.1 hb hb' h
      rw [List.map_cons, List.map_cons, htriple, ih hl.2 hl'.2 hbs hbs' hrest]

theorem mem_contentTriples {members : List Publish.Member} {t : String × ℕ × String} :
    t ∈ (contentMembers members).map triple ↔ t ∈ contentTriples members :=
  ((List.perm_insertionSort _ _).map triple).mem_iff

/-! ## Reordering -/

/-- Members of different paths come in one order. -/
theorem contentMembers_perm {members members' : List Publish.Member} (h : members'.Perm members)
    (hpaths : (members.map Publish.Member.relativePath).Nodup) :
    contentMembers members' = contentMembers members := by
  have hperm : (contentMembers members').Perm (contentMembers members) :=
    ((List.perm_insertionSort _ _).trans (h.filter _)).trans (List.perm_insertionSort _ _).symm
  have hsorted : ∀ l : List Publish.Member, (contentMembers l).Pairwise
      fun a b => a.relativePath ≤ b.relativePath := fun l => List.pairwise_insertionSort _ _
  refine hperm.eq_of_pairwise ?_ (hsorted members') (hsorted members)
  intro m m' hm hm' hle hle'
  have hmem : ∀ {l : List Publish.Member} {x : Publish.Member}, x ∈ contentMembers l → x ∈ l :=
    fun hx => (List.mem_filter.1 ((List.perm_insertionSort _ _).subset hx)).1
  exact List.inj_on_of_nodup_map hpaths (h.subset (hmem hm)) (hmem hm') (String.le_antisymm hle hle')

/-! ## Reading the manifest back -/

theorem dicts_member (m : Publish.Member) : Dicts m.json := by
  refine ⟨by simp, ?_⟩
  exact ⟨trivial, trivial, trivial, trivial, trivial, trivial, trivial, trivial⟩

/-- A row says all fields of its member. -/
theorem member_of_sorted {m m' : Publish.Member} (h : sortedJson m.json = sortedJson m'.json) :
    m = m' := by
  have hperm : (sortedFields [("index", Json.int m.index), ("relative_path", .str m.relativePath),
      ("size_bytes", .int m.sizeBytes), ("sha256", .str m.sha256),
      ("detected_type", .str m.detectedType), ("role", .str m.role),
      ("is_sample", .bool m.isSample)]).Perm (sortedFields [("index", Json.int m'.index),
      ("relative_path", .str m'.relativePath), ("size_bytes", .int m'.sizeBytes),
      ("sha256", .str m'.sha256), ("detected_type", .str m'.detectedType),
      ("role", .str m'.role), ("is_sample", .bool m'.isSample)]) := by
    rw [Publish.Member.json, Publish.Member.json, sortedJson, sortedJson, Json.obj.injEq] at h
    exact (sortKeys_perm _).symm.trans (h ▸ sortKeys_perm _)
  simp only [sortedFields, sortedJson] at hperm
  have hindex : m.index = m'.index := by
    simpa using hperm.subset (show ("index", Json.int m.index) ∈ _ by simp)
  have hpath : m.relativePath = m'.relativePath := by
    simpa using hperm.subset (show ("relative_path", Json.str m.relativePath) ∈ _ by simp)
  have hsize : m.sizeBytes = m'.sizeBytes := by
    simpa using hperm.subset (show ("size_bytes", Json.int m.sizeBytes) ∈ _ by simp)
  have hdigest : m.sha256 = m'.sha256 := by
    simpa using hperm.subset (show ("sha256", Json.str m.sha256) ∈ _ by simp)
  have htype : m.detectedType = m'.detectedType := by
    simpa using hperm.subset (show ("detected_type", Json.str m.detectedType) ∈ _ by simp)
  have hrole : m.role = m'.role := by
    simpa using hperm.subset (show ("role", Json.str m.role) ∈ _ by simp)
  have hsample : m.isSample = m'.isSample := by
    simpa using hperm.subset (show ("is_sample", Json.bool m.isSample) ∈ _ by simp)
  obtain ⟨index, path, size, digest, type, role, sample⟩ := m
  obtain ⟨index', path', size', digest', type', role', sample'⟩ := m'
  rw [Publish.Member.mk.injEq]
  exact ⟨hindex, hpath, hsize, hdigest, htype, hrole, hsample⟩

theorem rows_of_sorted {rows rows' : List Publish.Member}
    (h : sortedList (rows.map Publish.Member.json) = sortedList (rows'.map Publish.Member.json)) :
    rows = rows' := by
  induction rows generalizing rows' with
  | nil =>
    cases rows' with
    | nil => rfl
    | cons m' rows' => cases h
  | cons m rows ih =>
    cases rows' with
    | nil => cases h
    | cons m' rows' =>
      rw [List.map_cons, List.map_cons, sortedList, sortedList, List.cons.injEq] at h
      rw [member_of_sorted h.1, ih h.2]

/-- The bytes of a manifest say its rows, in order. -/
theorem manifestPreimage_inj {members members' : List Publish.Member}
    (h : manifestPreimage members = manifestPreimage members') : members = members' := by
  have hproper : ∀ l : List Publish.Member,
      (sortedJson (.arr (l.map Publish.Member.json))).Proper := by
    intro l
    refine proper_sortedJson ?_ ?_
    · rw [Dicts]
      induction l with
      | nil => trivial
      | cons m l ih => exact ⟨dicts_member m, ih⟩
    · rw [finiteJson]
      induction l with
      | nil => rfl
      | cons m l ih =>
        rw [List.map_cons, finiteList, ih, Bool.and_true]
        rfl
  have hjson := Json.dumps_inj (hproper _) (hproper _) (Utf8.encode_inj h)
  rw [sortedJson, sortedJson, Json.arr.injEq] at hjson
  exact rows_of_sorted hjson

/-! ## Manifests that are accepted -/

theorem memberTuple_ok {env : Env} {m : Member} {row : Publish.Member}
    (h : memberTuple env m = .ok row) : isHexDigest row.sha256 = true := by
  rw [memberTuple] at h
  obtain ⟨path, -, h⟩ := Except.bind_eq_ok.1 h
  obtain ⟨⟨⟩, -, h⟩ := Except.bind_eq_ok.1 h
  split at h
  · cases h
  · obtain ⟨⟨⟩, hdigest, h⟩ := Except.bind_eq_ok.1 h
    obtain ⟨⟨⟩, -, h⟩ := Except.bind_eq_ok.1 h
    obtain ⟨⟨⟩, -, h⟩ := Except.bind_eq_ok.1 h
    cases h
    exact S3.check_ok.1 hdigest

theorem buildManifest_ok {env : Env} {members : List Member} {manifest : Manifest}
    (h : buildManifest env members = .ok manifest) :
    (∀ row ∈ manifest.members, isHexDigest row.sha256 = true) ∧
      (manifest.members.map Publish.Member.relativePath).Nodup := by
  rw [buildManifest] at h
  obtain ⟨rows, hrows, h⟩ := Except.bind_eq_ok.1 h
  obtain ⟨⟨⟩, -, h⟩ := Except.bind_eq_ok.1 h
  obtain ⟨⟨⟩, hpaths, h⟩ := Except.bind_eq_ok.1 h
  cases h
  constructor
  · intro row hrow
    obtain ⟨i, hi, rfl⟩ := List.mem_iff_getElem.1 hrow
    exact memberTuple_ok (List.mapM_ok_get hrows i (by rwa [← List.mapM_ok_length hrows]) hi)
  · have hcasefold := S3.check_ok.1 hpaths
    rw [← Function.comp_def, ← List.map_map] at hcasefold
    exact List.Nodup.of_map _ hcasefold

/-- **What the digests of two manifests are of**: equal bytes of the content mean the same
    paths, sizes and digests of data members, which a reordering does not change; equal bytes
    of the manifests mean the same rows in the same order. -/
theorem preimages_determine {env : Env} {members members' : List Member}
    {manifest manifest' : Manifest} (h : buildManifest env members = .ok manifest)
    (h' : buildManifest env members' = .ok manifest') :
    (∀ bytes, contentPreimage manifest.members = .ok bytes →
      contentPreimage manifest'.members = .ok bytes →
      ∀ t, t ∈ contentTriples manifest.members ↔ t ∈ contentTriples manifest'.members) ∧
    (∀ reordered : List Publish.Member, reordered.Perm manifest.members →
      contentPreimage reordered = contentPreimage manifest.members) ∧
    (manifestPreimage manifest.members = manifestPreimage manifest'.members →
      manifest.members = manifest'.members) := by
  obtain ⟨hdigest, hpaths⟩ := buildManifest_ok h
  obtain ⟨hdigest', -⟩ := buildManifest_ok h'
  refine ⟨?_, ?_, manifestPreimage_inj⟩
  · intro bytes hbytes hbytes' t
    have hcontent : ∀ {l : List Publish.Member}, (∀ row ∈ l, isHexDigest row.sha256 = true) →
        ∀ row ∈ contentMembers l, isHexDigest row.sha256 = true := fun hl row hrow =>
      hl row (List.mem_filter.1 ((List.perm_insertionSort _ _).subset hrow)).1
    obtain ⟨parts, hparts, hbytes⟩ := Except.bind_eq_ok.1 hbytes
    obtain ⟨parts', hparts', hbytes'⟩ := Except.bind_eq_ok.1 hbytes'
    have hflatten : parts.flatten = parts'.flatten :=
      Except.ok.inj (hbytes.trans hbytes'.symm)
    rw [← mem_contentTriples, ← mem_contentTriples,
      triples_inj (hcontent hdigest) (hcontent hdigest') hparts hparts' hflatten]
  · intro reordered hperm
    rw [contentPreimage, contentPreimage, contentMembers_perm hperm hpaths]

/-- A data member whose file is empty. -/
def emptyMember (index : ℕ) (path : String) : Member :=
  ⟨index, path, 0, some (String.ofList (List.replicate 64 '0')), "csv", .data, false, .current,
    none, none, 0⟩

theorem preimages_determine_two : ∃ manifest manifest',
    buildManifest plainEnv [emptyMember 0 "a.csv", emptyMember 1 "b.csv"] = .ok manifest ∧
    buildManifest plainEnv [emptyMember 1 "b.csv", emptyMember 0 "a.csv"] = .ok manifest' ∧
    (∀ bytes, contentPreimage manifest.members = .ok bytes →
      contentPreimage manifest'.members = .ok bytes →
      ∀ t, t ∈ contentTriples manifest.members ↔ t ∈ contentTriples manifest'.members) ∧
    (∀ reordered : List Publish.Member, reordered.Perm manifest.members →
      contentPreimage reordered = contentPreimage manifest.members) ∧
    (manifestPreimage manifest.members = manifestPreimage manifest'.members →
      manifest.members = manifest'.members) := by
  obtain ⟨manifest, h⟩ := Except.exists_of_isOk (show (buildManifest plainEnv
    [emptyMember 0 "a.csv", emptyMember 1 "b.csv"]).isOk = true by rfl)
  obtain ⟨manifest', h'⟩ := Except.exists_of_isOk (show (buildManifest plainEnv
    [emptyMember 1 "b.csv", emptyMember 0 "a.csv"]).isOk = true by rfl)
  exact ⟨manifest, manifest', h, h', preimages_determine h h'⟩

end Directory

end AimData
