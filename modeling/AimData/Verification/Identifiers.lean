/-
  The keyed identifiers of a source and of the objects in it.

  Four modules build the input of the keyed code, each with a tag of its own.  An input is
  the tag, a NUL byte and the components of what it names (`Subject.input`), and no two
  subjects have one input (`Subject.input_injective`).
-/
import Mathlib
import AimData.Directory.Scan
import AimData.Lib.Separated

namespace AimData

namespace Identifiers

open Utf8 (encode)

/-! ## The inputs -/

inductive Kind where
  | local
  | s3
  deriving DecidableEq

/-- `S3Connection`, of the fields that a locator reads -/
structure S3Connection where
  id : String
  bucket : String

/-- `ResolvedArtifact`; a path is its bytes, as `os.fsencode` gives them, and the metadata of
    an object is its key. -/
structure ResolvedArtifact where
  kind : Kind
  localPath : Option Bytes
  connection : Option S3Connection
  objectKey : Option String

/-- `ResolvedDirectoryArtifact` -/
structure ResolvedDirectoryArtifact where
  rootPath : Bytes
  manifestHash : String

def incompleteArtifact : Raised :=
  ⟨"ArtifactResolutionError", "resolved artifact is incomplete"⟩

/-- `value.encode("ascii")` -/
def encodeAscii (value : String) : Except Raised Bytes := do
  S3.check (∀ c ∈ value.toList, c.toNat < 128)
    ⟨"UnicodeEncodeError", "'ascii' codec can't encode characters"⟩
  return encode value.toList

section
variable (realpath : Bytes → Bytes)

/-- `ResolvedArtifact.canonical_locator_bytes` -/
def ResolvedArtifact.canonicalLocatorBytes (a : ResolvedArtifact) : Except Raised Bytes :=
  match a.kind, a.localPath, a.connection, a.objectKey with
  | .local, some path, _, _ => .ok (encode "local\x00".toList ++ realpath path)
  | .s3, _, some connection, some key =>
    .ok (encode "s3\x00".toList ++ List.intercalate [0]
      [encode connection.id.toList, encode connection.bucket.toList, encode key.toList])
  | _, _, _, _ => .error incompleteArtifact

/-- `directory_locator_bytes` -/
def directoryLocatorBytes (rootPath : Bytes) (manifestHash : String) : Except Raised Bytes := do
  return encode "local_directory\x00".toList ++ realpath rootPath ++ [0] ++
    (← encodeAscii manifestHash)

/-- `ResolvedDirectoryArtifact.canonical_locator_bytes` -/
def ResolvedDirectoryArtifact.canonicalLocatorBytes (a : ResolvedDirectoryArtifact) :
    Except Raised Bytes :=
  directoryLocatorBytes realpath a.rootPath a.manifestHash

end

/-- `locator_commitment`, of the bytes of a locator -/
def locatorCommitment (commitmentKey : Bytes) (canonicalLocatorBytes : Except Raised Bytes) :
    Except Raised String := do
  S3.check (32 ≤ commitmentKey.length)
    ⟨"ArtifactResolutionError", "commitment key is invalid"⟩
  return hex (hmacSha256 commitmentKey (← canonicalLocatorBytes)).1

/-- The keyed input of `object_commitment` -/
def objectInput (sourceBinding : Bytes) (identity : String) : Bytes :=
  encode "object\x00".toList ++ sourceBinding ++ 0 :: encode identity.toList

/-- A commitment that is computed: of a locator, of an object in an archive under its source
    handle, or of a member of a directory. -/
inductive Request where
  | locator (artifact : ResolvedArtifact)
  | directoryLocator (artifact : ResolvedDirectoryArtifact)
  | object (sourceHandleId identity : String)
  | member (rootPath : Bytes) (m : Publish.Member)

section
variable (realpath : Bytes → Bytes)

/-- The input of the keyed code. -/
def Request.input : Request → Except Raised Bytes
  | locator artifact => artifact.canonicalLocatorBytes realpath
  | directoryLocator artifact => artifact.canonicalLocatorBytes realpath
  | object handle identity => .ok (objectInput (encode handle.toList) identity)
  | member root m =>
    .ok (objectInput (Directory.sourceBinding (realpath root)) (Directory.memberIdentity m))

/-- The commitment, as its caller computes it. -/
def Request.commitment (commitmentKey : Bytes) : Request → Except Raised String
  | locator artifact => locatorCommitment commitmentKey (artifact.canonicalLocatorBytes realpath)
  | directoryLocator artifact =>
    locatorCommitment commitmentKey (artifact.canonicalLocatorBytes realpath)
  | object handle identity =>
    .ok (Eolymp.objectCommitment commitmentKey (encode handle.toList) identity)
  | member root m => .ok (Directory.memberObjectId commitmentKey (realpath root) m)

variable {realpath} in
/-- A commitment is the keyed code of its input. -/
theorem Request.commitment_ok {commitmentKey : Bytes} {r : Request} {c : String}
    (h : r.commitment realpath commitmentKey = .ok c) :
    ∃ m, r.input realpath = .ok m ∧ c = hex (hmacSha256 commitmentKey m).1 := by
  have hlocator : ∀ {bytes : Except Raised Bytes}, locatorCommitment commitmentKey bytes = .ok c →
      ∃ m, bytes = .ok m ∧ c = hex (hmacSha256 commitmentKey m).1 := by
    intro bytes hc
    obtain ⟨_, -, hc⟩ := Except.bind_eq_ok.1 hc
    obtain ⟨m, hm, hc⟩ := Except.bind_eq_ok.1 hc
    exact ⟨m, hm, (Except.ok.inj hc).symm⟩
  cases r with
  | locator artifact => exact hlocator h
  | directoryLocator artifact => exact hlocator h
  | object handle identity => exact ⟨_, rfl, (Except.ok.inj h).symm⟩
  | member root m => exact ⟨_, rfl, (Except.ok.inj h).symm⟩

end

/-! ## What a commitment names -/

/-- What a commitment names: its kind and its components. -/
inductive Subject where
  | localFile (path : Bytes)
  | s3Object (connection bucket key : String)
  | directory (path : Bytes) (manifestHash : String)
  | archiveObject (handle identity : String)
  | directoryMember (path : Bytes) (relativePath sha256 : String)
  deriving DecidableEq

/-- What a request names; paths are the real ones. -/
def Request.subject? (realpath : Bytes → Bytes) : Request → Option Subject
  | locator ⟨.local, some path, _, _⟩ => some (.localFile (realpath path))
  | locator ⟨.s3, _, some connection, some key⟩ =>
    some (.s3Object connection.id connection.bucket key)
  | locator _ => none
  | directoryLocator artifact =>
    some (.directory (realpath artifact.rootPath) artifact.manifestHash)
  | object handle identity => some (.archiveObject handle identity)
  | member root m => some (.directoryMember (realpath root) m.relativePath m.sha256)

namespace Subject

/-- The tag of an input. -/
def tag : Subject → String
  | localFile _ => "local"
  | s3Object _ _ _ => "s3"
  | directory _ _ => "local_directory"
  | archiveObject _ _ | directoryMember _ _ _ => "object"

/-- The components, after the tag. -/
def components : Subject → Bytes
  | localFile path => path
  | s3Object connection bucket key =>
    encode connection.toList ++ 0 :: (encode bucket.toList ++ 0 :: encode key.toList)
  | directory path manifestHash => path ++ 0 :: encode manifestHash.toList
  | archiveObject handle identity => encode handle.toList ++ 0 :: encode identity.toList
  | directoryMember path relativePath sha256 =>
    encode "local_directory_object".toList ++ 0 ::
      (path ++ 0 :: encode ("member\x00" ++ relativePath ++ "\x00" ++ sha256).toList)

/-- The input of a subject: its tag, a NUL byte and its components. -/
def input (s : Subject) : Bytes := encode s.tag.toList ++ 0 :: s.components

end Subject

/-- Every input is that of a subject. -/
theorem Request.subject_of_input {realpath : Bytes → Bytes} {r : Request} {m : Bytes}
    (h : r.input realpath = .ok m) : ∃ s, r.subject? realpath = some s ∧ m = s.input := by
  cases r with
  | locator artifact =>
    obtain ⟨kind, path, connection, key⟩ := artifact
    cases kind with
    | «local» =>
      cases path with
      | none => cases h
      | some path =>
        refine ⟨_, rfl, ?_⟩
        rw [← Except.ok.inj h]
        simp [Subject.input, Subject.tag, Subject.components, encode, Utf8.encodeChar]
    | s3 =>
      rcases connection with - | connection
      · cases h
      · rcases key with - | key
        · cases h
        · refine ⟨_, rfl, ?_⟩
          rw [← Except.ok.inj h]
          simp [Subject.input, Subject.tag, Subject.components, encode, Utf8.encodeChar,
            List.intercalate]
  | directoryLocator artifact =>
    obtain ⟨hash, hhash, h⟩ := Except.bind_eq_ok.1 h
    obtain ⟨_, -, hhash⟩ := Except.bind_eq_ok.1 hhash
    refine ⟨_, rfl, ?_⟩
    rw [← Except.ok.inj h, ← Except.ok.inj hhash]
    simp [Subject.input, Subject.tag, Subject.components, encode, Utf8.encodeChar]
  | object handle identity =>
    refine ⟨_, rfl, ?_⟩
    rw [← Except.ok.inj h]
    simp [objectInput, Subject.input, Subject.tag, Subject.components, encode, Utf8.encodeChar]
  | member root m =>
    refine ⟨_, rfl, ?_⟩
    rw [← Except.ok.inj h]
    simp [objectInput, Directory.sourceBinding, Directory.memberIdentity, Subject.input,
      Subject.tag, Subject.components, encode, Utf8.encodeChar]

/-! ## No two subjects have one input -/

/-- A dataset identifier is the text of a UUID or its first eight digits. -/
def DatasetIdentifier (handle : String) : Prop :=
  handle.length ∈ [8, 36] ∧ ∀ c ∈ handle.toList, Contract.lowerHex c = true ∨ c = '-'

/-- Paths and names contain no NUL, and a source handle is a dataset identifier. -/
def Subject.WellFormed : Subject → Prop
  | localFile path => 0 ∉ path
  | s3Object _ bucket key => '\x00' ∉ bucket.toList ∧ '\x00' ∉ key.toList
  | directory path _ => 0 ∉ path
  | archiveObject handle identity => DatasetIdentifier handle ∧ '\x00' ∉ identity.toList
  | directoryMember path relativePath _ => 0 ∉ path ∧ '\x00' ∉ relativePath.toList

namespace DatasetIdentifier

variable {handle : String} (h : DatasetIdentifier handle)

include h

theorem nul_notMem : '\x00' ∉ handle.toList := by
  intro hc
  rcases h.2 _ hc with h | h
  · exact absurd h (by decide)
  · exact absurd h (by decide)

/-- No dataset is named like the binding of a directory. -/
theorem ne_binding : encode handle.toList ≠ encode "local_directory_object".toList := by
  intro heq
  have hmem : 'o' ∈ handle.toList := by
    rw [Utf8.encode_inj heq]
    decide
  rcases h.2 _ hmem with h | h
  · exact absurd h (by decide)
  · exact absurd h (by decide)

end DatasetIdentifier

theorem Subject.nul_notMem_tag (s : Subject) : '\x00' ∉ s.tag.toList := by
  cases s <;> simp [tag]

/-- The components of an S3 object are read from the last. -/
theorem s3_components_inj {c c' b b' k k' : String} (hb : '\x00' ∉ b.toList)
    (hb' : '\x00' ∉ b'.toList) (hk : '\x00' ∉ k.toList) (hk' : '\x00' ∉ k'.toList)
    (h : (Subject.s3Object c b k).components = (Subject.s3Object c' b' k').components) :
    c = c' ∧ b = b' ∧ k = k' := by
  simp only [Subject.components, ← List.cons_append, ← List.append_assoc] at h
  obtain ⟨h, hkey⟩ := (Separated.last_inj (Utf8.zero_notMem_encode hk)
    (Utf8.zero_notMem_encode hk')).1 h
  obtain ⟨hconnection, hbucket⟩ := (Separated.last_inj (Utf8.zero_notMem_encode hb)
    (Utf8.zero_notMem_encode hb')).1 h
  exact ⟨String.toList_inj.1 (Utf8.encode_inj hconnection),
    String.toList_inj.1 (Utf8.encode_inj hbucket), String.toList_inj.1 (Utf8.encode_inj hkey)⟩

theorem member_identity_inj {r r' sha sha' : String} (hr : '\x00' ∉ r.toList)
    (hr' : '\x00' ∉ r'.toList)
    (h : ("member\x00" ++ r ++ "\x00" ++ sha) = "member\x00" ++ r' ++ "\x00" ++ sha') :
    r = r' ∧ sha = sha' := by
  have h := congrArg String.toList h
  simp only [String.toList_append, List.append_assoc] at h
  obtain ⟨hpath, hsha⟩ := (Separated.first_inj hr hr').1 (List.append_cancel_left h)
  exact ⟨String.toList_inj.1 hpath, String.toList_inj.1 hsha⟩

/-- The components of a member are read from the first. -/
theorem member_components_inj {p p' : Bytes} {r r' sha sha' : String} (hp : 0 ∉ p) (hp' : 0 ∉ p')
    (hr : '\x00' ∉ r.toList) (hr' : '\x00' ∉ r'.toList)
    (h : (Subject.directoryMember p r sha).components =
      (Subject.directoryMember p' r' sha').components) : p = p' ∧ r = r' ∧ sha = sha' := by
  have h := (List.cons.inj (List.append_cancel_left h)).2
  obtain ⟨hpath, hidentity⟩ := (Separated.first_inj hp hp').1 h
  exact ⟨hpath, member_identity_inj hr hr' (String.toList_inj.1 (Utf8.encode_inj hidentity))⟩

/-- An object of an archive is not a member of a directory. -/
theorem archive_ne_member {handle identity r sha : String} {p : Bytes}
    (hhandle : DatasetIdentifier handle) : (Subject.archiveObject handle identity).components ≠
      (Subject.directoryMember p r sha).components := by
  intro h
  have hbinding : '\x00' ∉ "local_directory_object".toList := by decide
  exact hhandle.ne_binding ((Separated.first_inj (Utf8.zero_notMem_encode hhandle.nul_notMem)
    (Utf8.zero_notMem_encode hbinding)).1 h).1

/-- **Subjects of one input are the same.** -/
theorem Subject.input_injective {s s' : Subject} (hs : s.WellFormed) (hs' : s'.WellFormed)
    (h : s.input = s'.input) : s = s' := by
  obtain ⟨htag, h⟩ := (Separated.first_inj (Utf8.zero_notMem_encode s.nul_notMem_tag)
    (Utf8.zero_notMem_encode s'.nul_notMem_tag)).1 h
  have htag : s.tag = s'.tag := String.toList_inj.1 (Utf8.encode_inj htag)
  -- subjects of different tags are excluded by `htag`
  cases s with
  | localFile path =>
    cases s' with
    | localFile path' => exact congrArg _ h
    | _ => simp [Subject.tag] at htag
  | s3Object connection bucket key =>
    cases s' with
    | s3Object connection' bucket' key' =>
      obtain ⟨rfl, rfl, rfl⟩ := s3_components_inj hs.1 hs'.1 hs.2 hs'.2 h
      rfl
    | _ => simp [Subject.tag] at htag
  | directory path manifestHash =>
    cases s' with
    | directory path' manifestHash' =>
      obtain ⟨rfl, hhash⟩ := (Separated.first_inj hs hs').1 h
      rw [String.toList_inj.1 (Utf8.encode_inj hhash)]
    | _ => simp [Subject.tag] at htag
  | archiveObject handle identity =>
    cases s' with
    | archiveObject handle' identity' =>
      obtain ⟨hhandle, hidentity⟩ := (Separated.first_inj
        (Utf8.zero_notMem_encode hs.1.nul_notMem) (Utf8.zero_notMem_encode hs'.1.nul_notMem)).1 h
      rw [String.toList_inj.1 (Utf8.encode_inj hhandle),
        String.toList_inj.1 (Utf8.encode_inj hidentity)]
    | directoryMember path' relativePath' sha' => exact absurd h (archive_ne_member hs.1)
    | _ => simp [Subject.tag] at htag
  | directoryMember path relativePath sha =>
    cases s' with
    | archiveObject handle' identity' => exact absurd h.symm (archive_ne_member hs'.1)
    | directoryMember path' relativePath' sha' =>
      obtain ⟨rfl, rfl, rfl⟩ := member_components_inj hs.1 hs'.1 hs.2 hs'.2 h
      rfl
    | _ => simp [Subject.tag] at htag

/-! ## Commitments -/

/-- The paths, names and keys of a request contain no NUL, and a source handle is a dataset
    identifier. -/
def Request.WellFormed : Request → Prop
  | locator a => (∀ path ∈ a.localPath, 0 ∉ path) ∧
    (∀ connection ∈ a.connection, '\x00' ∉ connection.bucket.toList) ∧
    ∀ key ∈ a.objectKey, '\x00' ∉ key.toList
  | directoryLocator a => 0 ∉ a.rootPath
  | object handle identity => DatasetIdentifier handle ∧ '\x00' ∉ identity.toList
  | member root m => 0 ∉ root ∧ '\x00' ∉ m.relativePath.toList

variable {realpath : Bytes → Bytes}

theorem Request.subject_wellFormed (hreal : ∀ path, 0 ∉ path → 0 ∉ realpath path) {r : Request}
    (hr : r.WellFormed) {s : Subject} (hs : r.subject? realpath = some s) : s.WellFormed := by
  cases r with
  | locator artifact =>
    obtain ⟨hpath, hbucket, hkey⟩ := hr
    obtain ⟨kind, path, connection, key⟩ := artifact
    rcases kind with - | -
    · rcases path with - | path
      · cases hs
      · cases hs
        exact hreal path (hpath path rfl)
    · rcases connection with - | connection
      · cases hs
      · rcases key with - | key
        · cases hs
        · cases hs
          exact ⟨hbucket connection rfl, hkey key rfl⟩
  | directoryLocator artifact => cases hs; exact hreal _ hr
  | object handle identity => cases hs; exact hr
  | member root m => cases hs; exact ⟨hreal _ hr.1, hr.2⟩

/-- **Equal inputs name the same, and different subjects have different commitments unless the
    keyed code collides.** -/
theorem identifiers_separate (commitmentKey : Bytes)
    (hreal : ∀ path, 0 ∉ path → 0 ∉ realpath path) {a b : Request} (ha : a.WellFormed)
    (hb : b.WellFormed) :
    (∀ m, a.input realpath = .ok m → b.input realpath = .ok m →
      ∃ s, a.subject? realpath = some s ∧ b.subject? realpath = some s) ∧
    ∀ c, a.commitment realpath commitmentKey = .ok c → b.commitment realpath commitmentKey = .ok c →
      (∃ s, a.subject? realpath = some s ∧ b.subject? realpath = some s) ∨
      ∃ m m', a.input realpath = .ok m ∧ b.input realpath = .ok m' ∧ m ≠ m' ∧
        hmacSha256 commitmentKey m = hmacSha256 commitmentKey m' := by
  have hsame : ∀ m, a.input realpath = .ok m → b.input realpath = .ok m →
      ∃ s, a.subject? realpath = some s ∧ b.subject? realpath = some s := by
    intro m hma hmb
    obtain ⟨s, hs, rfl⟩ := Request.subject_of_input hma
    obtain ⟨s', hs', h⟩ := Request.subject_of_input hmb
    rw [← Subject.input_injective (Request.subject_wellFormed hreal ha hs)
      (Request.subject_wellFormed hreal hb hs') h] at hs'
    exact ⟨s, hs, hs'⟩
  refine ⟨hsame, fun c hca hcb => ?_⟩
  obtain ⟨m, hm, rfl⟩ := Request.commitment_ok hca
  obtain ⟨m', hm', h⟩ := Request.commitment_ok hcb
  by_cases heq : m = m'
  · exact .inl (hsame m hm (heq ▸ hm'))
  · exact .inr ⟨m, m', hm, hm', heq, Subtype.ext (hex_injective h)⟩

/-- An entry of an archive and a member of `/data`, both of the name `a.csv`. -/
theorem identifiers_separate_entry_member :
    (Request.object "3f2a9c1e" "a.csv").subject? id ≠
      (Request.member [47, 100, 97, 116, 97] (Directory.emptyRow 0 "a.csv")).subject? id ∧
    ∀ m, (Request.object "3f2a9c1e" "a.csv").input id = .ok m →
      (Request.member [47, 100, 97, 116, 97] (Directory.emptyRow 0 "a.csv")).input id ≠ .ok m := by
  have hne : (Request.object "3f2a9c1e" "a.csv").subject? id ≠
      (Request.member [47, 100, 97, 116, 97] (Directory.emptyRow 0 "a.csv")).subject? id := by
    simp [Request.subject?]
  refine ⟨hne, ?_⟩
  intro m hm hm'
  have hobject : (Request.object "3f2a9c1e" "a.csv").WellFormed := by
    refine ⟨⟨?_, ?_⟩, ?_⟩
    · decide
    · simp [Contract.lowerHex]
    · decide
  have hmember : (Request.member [47, 100, 97, 116, 97]
      (Directory.emptyRow 0 "a.csv")).WellFormed := by
    constructor <;> decide
  obtain ⟨s, hs, hs'⟩ := (identifiers_separate (List.replicate 32 7) (fun _ h => h) hobject
    hmember).1 m hm hm'
  exact hne (hs.trans hs'.symm)

end Identifiers

end AimData
