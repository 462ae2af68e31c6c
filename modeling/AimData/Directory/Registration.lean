/-
  Registration of a directory: the walk that lists its files, the merge of a listing
  into the members of the dataset, and the manifest that is made of them.

  A member is a file of the directory at some time.  Its index is the identity of the
  file downstream, and its role and sample flag are the seller's choice, so a listing
  may change neither.
-/
import AimData.Dataset.Record
import AimData.Publish.LocalPublish
import AimData.S3.Scan

namespace AimData

namespace Directory

/-! ## Paths -/

/-- The tables of the language, and the settings. -/
structure Env where
  nfc : String → String
  casefold : String → String
  lower : String → String
  upper : String → String
  maxMembers : ℕ
  maxBytes : ℕ
  readMaxAttempts : ℕ

def hex (width n : ℕ) : List Char :=
  (List.range width).reverse.map fun i => Json.hexDigit (n / 16 ^ i % 16)

/-- One character in `ascii(s)` -/
def asciiChar (quote c : Char) : List Char :=
  if c = '\\' ∨ c = quote then ['\\', c]
  else if c = '\n' then ['\\', 'n']
  else if c = '\r' then ['\\', 'r']
  else if c = '\t' then ['\\', 't']
  else if 32 ≤ c.toNat ∧ c.toNat < 127 then [c]
  else if c.toNat < 0x100 then '\\' :: 'x' :: hex 2 c.toNat
  else if c.toNat < 0x10000 then '\\' :: 'u' :: hex 4 c.toNat
  else '\\' :: 'U' :: hex 8 c.toNat

def ascii (s : String) : String :=
  let quote := if '\'' ∈ s.toList ∧ '"' ∉ s.toList then '"' else '\''
  String.ofList (quote :: (s.toList.flatMap (asciiChar quote) ++ [quote]))

/-- `unicodedata.category(c) == "Cc"` -/
def isControl (c : Char) : Bool := c.toNat < 32 ∨ (127 ≤ c.toNat ∧ c.toNat < 160)

def canonicalPath (env : Env) (path : String) : Except Raised String := do
  let normalized := env.nfc path
  if normalized = "" ∨ '\\' ∈ normalized.toList ∨ normalized.toList.head? = some '/' ∨
      (normalized.toList.splitOn '/').any (· ∈ [[], ['.'], ['.', '.']]) ∨
      normalized.toList.any isControl then
    raise "ValueError" ("Invalid relative_path: " ++ ascii path)
  if (Utf8.encode normalized.toList).length > 1024 then
    raise "ValueError" ("relative_path exceeds 1024 UTF-8 bytes: " ++ ascii path)
  return normalized

def refuse {α : Type} (message : String) : Except Raised α :=
  raise "DirectoryRegistrationError" message

/-! ## The walk -/

structure Stat where
  dev : ℕ
  ino : ℕ
  size : ℕ
  mtime : ℤ
  ctime : ℤ
  deriving DecidableEq

/-- One attempt to read a file, between two looks at its descriptor and one at its name. -/
structure Read where
  before : Stat
  regular : Bool
  digest : String
  count : ℕ
  after : Stat
  named : Stat

/-- What a directory lists.  A file comes with the attempts to read it, as long as it can
    be read. -/
inductive Entry where
  | file (name : String) (reads : List Read)
  | directory (name : String) (entries : List Entry)
  | symlink (name : String)
  | other (name : String)
  | unreadable (name osError : String)

def tooManyBytes {α : Type} (env : Env) (entry : String) : Except Raised α :=
  refuse ("DATASET_MAX_BYTES=" ++ toString env.maxBytes ++ ": " ++ ascii entry)

/-- The attempts of `stable_read` that are left. -/
def stableReads (env : Env) (entry : String) (maxBytes : ℤ) :
    ℕ → Option (Stat × String) → List Read → Except Raised (String × Stat)
  | 0, _, _ => refuse ("DIRECTORY_READ_MAX_ATTEMPTS=" ++ toString env.readMaxAttempts ++
      ": changing entry " ++ ascii entry)
  | _ + 1, _, [] => refuse ("Unreadable entry: " ++ ascii entry ++ " (OSError)")
  | attempts + 1, previous, read :: reads => do
    S3.check (read.regular = true)
      ⟨"DirectoryRegistrationError", "Not a regular file: " ++ ascii entry⟩
    if read.before.size > maxBytes then tooManyBytes env entry
    if read.count > maxBytes then tooManyBytes env entry
    if read.before = read.after ∧ read.after = read.named ∧ read.count = read.after.size then
      if previous = some (read.after, read.digest) then return (read.digest, read.after)
      else stableReads env entry maxBytes attempts (some (read.after, read.digest)) reads
    else stableReads env entry maxBytes attempts none reads

def stableRead (env : Env) (entry : String) (maxBytes : ℤ) (reads : List Read) :
    Except Raised (String × Stat) :=
  stableReads env entry maxBytes env.readMaxAttempts none reads

inductive Role where
  | data
  | documentation
  | other
  deriving DecidableEq

def Role.value : Role → String
  | data => "data"
  | documentation => "documentation"
  | other => "other"

inductive Status where
  | current
  | removed
  | missing
  | unsupported
  deriving DecidableEq

/-- A file, as a scan lists it. -/
structure Values where
  relativePath : String
  sizeBytes : ℕ
  sha256 : String
  detectedType : String
  role : Role
  isSample : Bool
  status : Status
  reason : Option String
  mtime : ℤ
  deriving DecidableEq

def processableTypes : List String :=
  ["csv", "tsv", "json", "parquet", "pdf", "docx", "doc", "pptx", "ppt", "rtf", "odt", "ods",
    "odp", "epub", "eml", "msg", "mbox", "xml", "rss", "ics", "vcf", "xlsx", "xls", "txt", "md",
    "html", "htm"]

def junkFiles : List String := [".DS_Store", "Thumbs.db", ".gitkeep", ".gitignore", "desktop.ini"]

/-- `Path(name).suffix` -/
def suffix (name : String) : List Char :=
  let tail := name.toList.reverse.takeWhile (· ≠ '.')
  if tail = [] ∨ name.toList.length ≤ tail.length + 1 then [] else '.' :: tail.reverse

/-- The type that the suffix of a name says. -/
def detectedType (env : Env) (name : String) : String :=
  let detected := String.ofList
    (PyText.lstrip (· = '.') (env.lower (String.ofList (suffix name))).toList)
  if detected ∈ processableTypes then detected else "unsupported"

def suggestedRole (env : Env) (path detected : String) : Role :=
  let name := (env.upper (String.ofList ((path.toList.splitOn '/').getLastD []))).toList
  if ["README", "HOW_TO_USE", "LICENSE"].any (fun start => start.toList.isPrefixOf name) ∨
      name.tails.any ("DESCRIPTION".toList.isPrefixOf ·) then .documentation
  else if detected = "unsupported" then .other
  else .data

/-- What a walk has seen and read. -/
structure Walk where
  seen : List (String × String)
  rows : List Values
  total : ℕ

def Walk.start : Walk := ⟨[], [], 0⟩

def skipped (name : String) : Bool := name.toList.head? = some '.' ∨ name ∈ junkFiles

/-- The canonical path of an entry, which no entry before it has in another case. -/
def enterPath (env : Env) (entryName : String) (walk : Walk) : Except Raised (String × Walk) := do
  let canonical ← canonicalPath env entryName
  match walk.seen.lookup (env.casefold canonical) with
  | some other => refuse ("Path collision: " ++ ascii other ++ " and " ++ ascii entryName)
  | none => return (canonical,
      { walk with seen := (env.casefold canonical, entryName) :: walk.seen })

/-- The row of a file of the walk. -/
def keepFile (env : Env) (name path : String) (reads : List Read) (walk : Walk) :
    Except Raised Walk := do
  if walk.rows.length ≥ env.maxMembers then
    refuse ("DATASET_MAX_MEMBERS=" ++ toString env.maxMembers ++ ": " ++ ascii path)
  let (digest, info) ← stableRead env path (env.maxBytes - walk.total) reads
  let detected := detectedType env name
  let row : Values := {
    relativePath := path, sizeBytes := info.size, sha256 := digest, detectedType := detected
    role := suggestedRole env path detected, isSample := false
    status := if detected = "unsupported" then .unsupported else .current
    reason := if detected = "unsupported" then some "unsupported_type" else none
    mtime := info.mtime }
  return { walk with rows := walk.rows ++ [row], total := walk.total + info.size }

mutual
/-- `_walk` of one entry, with what `_scan_root` does with a file. -/
def walkEntry (env : Env) (before : String) (walk : Walk) : Entry → Except Raised Walk
  | .file name reads =>
    if skipped name then .ok walk else do
      let (path, walk) ← enterPath env (before ++ name) walk
      keepFile env name path reads walk
  | .directory name entries =>
    if skipped name then .ok walk else do
      let (_, walk) ← enterPath env (before ++ name) walk
      walkEntries env (before ++ name ++ "/") walk entries
  | .symlink _ => .ok walk
  | .other name =>
    if skipped name then .ok walk else do
      let (_, walk) ← enterPath env (before ++ name) walk
      return walk
  | .unreadable name osError =>
    if skipped name then .ok walk else do
      let _ ← enterPath env (before ++ name) walk
      refuse ("Unreadable entry: " ++ ascii (before ++ name) ++ " (" ++ osError ++ ")")

/-- The entries of a directory, in the order in which it lists them. -/
def walkEntries (env : Env) (before : String) (walk : Walk) : List Entry → Except Raised Walk
  | [] => .ok walk
  | entry :: entries => do walkEntries env before (← walkEntry env before walk entry) entries
end

/-- `_scan_root` -/
def scanRoot (env : Env) (entries : List Entry) : Except Raised (List Values) := do
  let walk ← walkEntries env "" .start entries
  return walk.rows.insertionSort fun a b => a.relativePath ≤ b.relativePath

/-! ## Members -/

/-- A row of `dataset_members` -/
structure Member where
  index : ℕ
  relativePath : String
  sizeBytes : ℕ
  sha256 : Option String
  detectedType : String
  role : Role
  isSample : Bool
  status : Status
  reason : Option String
  mtime : Option ℤ
  updatedAt : ℤ
  deriving DecidableEq

/-- A dataset with its members. -/
structure Registered where
  record : Dataset.Row
  members : List Member

def Member.ofValues (index : ℕ) (now : ℤ) (values : Values) : Member where
  index := index
  relativePath := values.relativePath
  sizeBytes := values.sizeBytes
  sha256 := some values.sha256
  detectedType := values.detectedType
  role := values.role
  isSample := values.isSample
  status := values.status
  reason := values.reason
  mtime := some values.mtime
  updatedAt := now

/-- The listed values of a known member, but not its role and sample flag. -/
def Member.listed (m : Member) (values : Values) : Member :=
  { m with
    relativePath := values.relativePath, sizeBytes := values.sizeBytes
    sha256 := some values.sha256, detectedType := values.detectedType
    status := values.status, reason := values.reason, mtime := some values.mtime }

def Member.update (m : Member) (now : ℤ) (values : Values) : Member :=
  if m.listed values = m then m else { m.listed values with updatedAt := now }

def Member.remove (m : Member) (now : ℤ) : Member :=
  { m with status := .removed, updatedAt := now }

/-- `max((m.index for m in old.values()), default=-1) + 1` -/
def nextIndex (members : List Member) : ℕ :=
  match (members.map Member.index).max? with
  | none => 0
  | some index => index + 1

/-- The merge of one listed file: `old` are the members before the scan. -/
def mergeRow (old : List Member) (now : ℤ) (state : List Member × ℕ) (values : Values) :
    List Member × ℕ :=
  let (members, next) := state
  if values.relativePath ∈ old.map Member.relativePath then
    (members.map fun m => if m.relativePath = values.relativePath then m.update now values else m,
      next)
  else (members ++ [Member.ofValues next now values], next + 1)

def mergeRows (old : List Member) (now : ℤ) (rows : List Values) : List Member × ℕ :=
  rows.foldl (mergeRow old now) (old, nextIndex old)

def markRemoved (now : ℤ) (present : List String) (m : Member) : Member :=
  if m.relativePath ∉ present ∧ m.status ≠ .removed then m.remove now else m

/-- The members after a scan. -/
def storeMembers (old : List Member) (now : ℤ) (rows : List Values) : List Member :=
  (mergeRows old now rows).1.map (markRemoved now (rows.map Values.relativePath))

/-- The unique constraints of the table. -/
def flush (members : List Member) : Except Raised Unit :=
  S3.check ((members.map Member.relativePath).Nodup ∧ (members.map Member.index).Nodup)
    ⟨"IntegrityError", "uq_dataset_member_path"⟩

/-! ## The manifest -/

def isHexDigest (s : String) : Bool :=
  s.toList.length = 64 ∧ s.toList.all hexLower

/-- `member_tuple` -/
def memberTuple (env : Env) (m : Member) : Except Raised Publish.Member := do
  let path ← canonicalPath env m.relativePath
  S3.check (path = m.relativePath) ⟨"ValueError", "relative_path must be NFC"⟩
  match m.sha256 with
  | none => raise "ValueError" "Missing or invalid member sha256"
  | some digest => do
    S3.check (isHexDigest digest = true) ⟨"ValueError", "Missing or invalid member sha256"⟩
    S3.check (m.detectedType ∈ processableTypes ∨ m.detectedType = "unsupported")
      ⟨"ValueError", "Invalid detected_type"⟩
    S3.check (m.isSample = true → m.role = .data) ⟨"ValueError", "is_sample requires role=data"⟩
    return ⟨m.index, m.relativePath, m.sizeBytes, digest, m.detectedType, m.role.value, m.isSample⟩

structure Manifest where
  members : List Publish.Member
  memberCount : ℕ
  dataMemberCount : ℕ
  sampleMemberCount : ℕ
  totalDataBytes : ℕ
  manifestHash : String

def buildManifest (env : Env) (members : List Member) : Except Raised Manifest := do
  let rows ← members.mapM (memberTuple env)
  S3.check (rows.map Publish.Member.index).Nodup ⟨"ValueError", "Duplicate member index"⟩
  S3.check (rows.map fun r => env.casefold r.relativePath).Nodup
    ⟨"ValueError", "Duplicate member path"⟩
  return {
    members := rows
    memberCount := rows.length
    dataMemberCount := Publish.dataMemberCount rows
    sampleMemberCount := Publish.sampleMemberCount rows
    totalDataBytes := ((rows.filter fun r => r.role = "data").map Publish.Member.sizeBytes).sum
    manifestHash := Publish.manifestHash rows }

/-- A manifest without its members, in the metadata of the dataset. -/
def Manifest.json (manifest : Manifest) : Json :=
  .obj [("member_count", .int manifest.memberCount),
    ("data_member_count", .int manifest.dataMemberCount),
    ("sample_member_count", .int manifest.sampleMemberCount),
    ("total_data_bytes", .int manifest.totalDataBytes),
    ("manifest_hash", .str manifest.manifestHash)]

def refreshDirectoryMetadata (env : Env) (dataset : Registered) : Except Raised Registered :=
  let members := (dataset.members.filter fun m => m.status ≠ .removed).insertionSort
    fun a b => a.index ≤ b.index
  if members.any fun m => m.status = .missing then
    .ok { dataset with record := { dataset.record with
      metadata := Function.update dataset.record.metadata "directory" none } }
  else do
    let manifest ← buildManifest env members
    return { dataset with record := { dataset.record with
      metadata := Function.update dataset.record.metadata "directory" (some manifest.json)
      fileSizeBytes := manifest.totalDataBytes } }

/-! ## Storing a listing -/

/-- A directory, by its path and its name. -/
structure Root where
  path : String
  name : String

/-- A dataset that a registration creates. -/
def newRecord (root : Root) (createdAt : String) : Dataset.Row where
  originalFilename := root.name
  storageFilename := root.name
  fileType := "directory"
  fileSizeBytes := 0
  status := "uploaded"
  processedPath := none
  metadata := fun _ => none
  createdAt := createdAt
  updatedAt := createdAt
  batchId := none
  relativePath := none
  previewText := none
  previewMetadata := none
  confirmedAt := none
  confirmedBy := none
  listingId := none
  rootPath := some root.path

/-- The dataset whose members a scan replaces, of which there is none at the first scan. -/
def datasetOf (root : Root) (createdAt : String) : Option Registered → Registered
  | none => ⟨newRecord root createdAt, []⟩
  | some dataset => { dataset with record := { dataset.record with
      rootPath := some root.path, fileType := "directory", originalFilename := root.name
      storageFilename := root.name, processedPath := none } }

/-- `_store`.  What it raises undoes the transaction. -/
def store (env : Env) (root : Root) (now : ℤ) (createdAt : String) (rows : List Values)
    (dataset : Option Registered) : Except Raised Registered := do
  let dataset := datasetOf root createdAt dataset
  let members := storeMembers dataset.members now rows
  flush members
  refreshDirectoryMetadata env { dataset with members := members }

def registerDirectory (env : Env) (root : Root) (now : ℤ) (createdAt : String)
    (entries : List Entry) (dataset : Option Registered) : Except Raised Registered := do
  let rows ← scanRoot env entries
  store env root now createdAt rows dataset

/-- `register_uploaded_file`, after the upload is in a directory of its own. -/
def registerUploadedFile (env : Env) (root : Root) (now : ℤ) (createdAt filename : String)
    (reads : List Read) (dataset : Registered) : Except Raised (Values × Registered) := do
  let path ← canonicalPath env filename
  S3.check ('/' ∉ path.toList)
    ⟨"DirectoryRegistrationError", "Upload filename must be a basename"⟩
  let (digest, info) ← stableRead env path env.maxBytes reads
  let fileType := dataset.record.fileType
  let values : Values := {
    relativePath := path, sizeBytes := info.size, sha256 := digest
    detectedType := if fileType ∈ processableTypes then fileType else "unsupported"
    role := .data, isSample := false, status := .current, reason := none, mtime := info.mtime }
  return (values, ← store env root now createdAt [values] (some dataset))

/-- What a seller chooses for a member. -/
structure MemberPatch where
  role : Option Role
  isSample : Option Bool

/-- A member, with new choices if it is at an index. -/
def Member.choose (index : ℕ) (role : Role) (isSample : Bool) (now : ℤ) (m : Member) : Member :=
  if m.index = index then { m with role := role, isSample := isSample, updatedAt := now } else m

/-- `patch_dataset_member` -/
def patchMember (env : Env) (index : ℕ) (now : ℤ) (patch : MemberPatch) (dataset : Registered) :
    Except Raised Registered := do
  S3.check (patch.role.isSome ∨ patch.isSample.isSome) ⟨"422", "Provide role or is_sample"⟩
  S3.check (dataset.record.listingId.getD "" = "") ⟨"409", "Published member choices are frozen"⟩
  let m ← S3.found (dataset.members.find? fun m => m.index = index) ⟨"404", "Member not found"⟩
  let role := patch.role.getD m.role
  S3.check (patch.isSample = some true → role = .data) ⟨"422", "is_sample requires role=data"⟩
  let isSample := if role = .data then patch.isSample.getD m.isSample else false
  let dataset := { dataset with
    members := dataset.members.map (Member.choose index role isSample now) }
  if dataset.record.rootPath.getD "" = "" then return dataset
  else refreshDirectoryMetadata env dataset

end Directory

end AimData
