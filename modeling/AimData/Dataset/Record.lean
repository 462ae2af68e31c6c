/-
  Rows of `dataset_records`, the copies that the services make of them, and what a save
  of a copy writes.

  A copy is not quite its row: a load maps statuses, takes the document content and the
  error out of the metadata and puts the profile of a directory in.  On a row that the
  service has written itself, a load and a save come back to the row
  (`overwrite_dbToRecord`).
-/
import AimData.Lib.Json

namespace AimData

namespace Dataset

/-! ## Rows -/

/-- A row, with its metadata as a dictionary. -/
structure Row where
  originalFilename : String
  storageFilename : String
  fileType : String
  fileSizeBytes : ℕ
  status : String
  processedPath : Option String
  metadata : String → Option Json
  createdAt : String
  updatedAt : String
  batchId : Option String
  relativePath : Option String
  previewText : Option String
  previewMetadata : Option Json
  confirmedAt : Option String
  confirmedBy : Option String
  listingId : Option String
  rootPath : Option String

/-- The columns of a row, its metadata key by key. -/
inductive Part where
  | originalFilename | storageFilename | fileType | fileSizeBytes | status | processedPath
  | createdAt | updatedAt | batchId | relativePath | previewText | previewMetadata
  | confirmedAt | confirmedBy | listingId | rootPath
  | metadata (key : String)
  deriving DecidableEq

def Row.part (row : Row) : Part → Option Json
  | .originalFilename => some (.str row.originalFilename)
  | .storageFilename => some (.str row.storageFilename)
  | .fileType => some (.str row.fileType)
  | .fileSizeBytes => some (.int row.fileSizeBytes)
  | .status => some (.str row.status)
  | .processedPath => row.processedPath.map .str
  | .createdAt => some (.str row.createdAt)
  | .updatedAt => some (.str row.updatedAt)
  | .batchId => row.batchId.map .str
  | .relativePath => row.relativePath.map .str
  | .previewText => row.previewText.map .str
  | .previewMetadata => row.previewMetadata
  | .confirmedAt => row.confirmedAt.map .str
  | .confirmedBy => row.confirmedBy.map .str
  | .listingId => row.listingId.map .str
  | .rootPath => row.rootPath.map .str
  | .metadata key => row.metadata key

/-- Two rows differ at most in some parts. -/
def AgreeOff (parts : List Part) (row row' : Row) : Prop :=
  ∀ p, p ∉ parts → row.part p = row'.part p

namespace AgreeOff

variable {parts parts' : List Part} {row row' row'' : Row}

protected theorem refl (parts : List Part) (row : Row) : AgreeOff parts row row := fun _ _ => rfl

theorem trans (h : AgreeOff parts row row') (h' : AgreeOff parts row' row'') :
    AgreeOff parts row row'' :=
  fun p hp => (h p hp).trans (h' p hp)

theorem mono (hsub : ∀ p ∈ parts, p ∈ parts') (h : AgreeOff parts row row') :
    AgreeOff parts' row row' :=
  fun p hp => h p fun hmem => hp (hsub p hmem)

end AgreeOff

/-! ## Copies -/

inductive DatasetStatus where
  | uploaded
  | extracting
  | previewReady
  | cancelled
  | error
  deriving DecidableEq

def DatasetStatus.value : DatasetStatus → String
  | uploaded => "uploaded"
  | extracting => "extracting"
  | previewReady => "preview_ready"
  | cancelled => "cancelled"
  | error => "error"

/-- The status of a copy: `status_map` for the old ones, `ERROR` for unknown ones. -/
def loadStatus (raw : String) : DatasetStatus :=
  if raw = "uploading" then .uploaded
  else if raw = "processing" then .extracting
  else if raw = "failed" then .error
  else ([.uploaded, .extracting, .previewReady, .cancelled, .error].find?
    fun status => status.value = raw).getD .error

/-- `bool(value)` of a value that `json.loads` makes. -/
def truthy : Option Json → Bool
  | none | some .null => false
  | some (.bool b) => b
  | some (.int i) => i ≠ 0
  | some (.float text) => text ≠ "0.0" ∧ text ≠ "-0.0"
  | some (.str s) => s ≠ ""
  | some (.arr l) => !l.isEmpty
  | some (.obj l) => !l.isEmpty

/-- The parts of a path, without empty and dot parts. -/
def pathParts (path : String) : List (List Char) :=
  (path.toList.splitOn '/').filter fun part => part ≠ [] ∧ part ≠ ['.']

/-- `(upload_dir / storage_filename).name` -/
def pathName (uploadDirName path : String) : String :=
  ((pathParts path).getLast?.map String.ofList).getD uploadDirName

/-- `str(Path(path))` -/
def pathText (path : String) : String :=
  let s := path.toList
  let root := if ['/', '/'] <+: s ∧ ¬ ['/', '/', '/'] <+: s then "//"
    else if ['/'] <+: s then "/" else ""
  let text := root ++ String.ofList (['/'].intercalate (pathParts path))
  if text = "" then "." else text

/-- `DatasetRecord`, the in-memory one -/
structure Record where
  id : String
  originalFilename : String
  fileType : String
  status : DatasetStatus
  error : Option Json
  createdAt : String
  uploadName : Option String
  processedPath : Option String
  metadata : String → Option Json
  documentContent : Option Json
  batchId : Option String
  relativePath : Option String
  previewText : Option String
  previewMetadata : Option Json
  confirmedAt : Option String
  confirmedBy : Option String
  fileSizeBytes : ℕ
  listingId : Option String

def migrationMarker : String := "__migration_marker__"

def isTimeout : Json → Bool
  | .obj fields => match fields.lookup "status" with
    | some (.str status) => status = "timeout"
    | _ => false
  | _ => false

/-- `_db_to_record`; `profile` is what `profile_on_read` makes of the profile of a
    directory, where that is read. -/
def dbToRecord (uploadDirName : String) (profile : Option Json) (id : String) (row : Row) :
    Record where
  id := id
  originalFilename := row.originalFilename
  fileType := row.fileType
  status := if profile.any isTimeout then .previewReady else loadStatus row.status
  error := row.metadata "error"
  createdAt := row.createdAt
  uploadName := if row.storageFilename ≠ "" ∧ row.storageFilename ≠ migrationMarker then
    some (pathName uploadDirName row.storageFilename) else none
  processedPath := (row.processedPath.filter (· ≠ "")).map pathText
  metadata := fun key =>
    if key = "document_content" ∨ key = "error" then none
    else if key = "directory_profile" then profile <|> row.metadata key
    else row.metadata key
  documentContent := row.metadata "document_content"
  batchId := row.batchId
  relativePath := row.relativePath
  previewText := row.previewText
  previewMetadata := row.previewMetadata
  confirmedAt := row.confirmedAt
  confirmedBy := row.confirmedBy
  fileSizeBytes := row.fileSizeBytes
  listingId := row.listingId

namespace Record

variable (record : Record)

/-- The metadata that a save writes. -/
def storedMetadata (key : String) : Option Json :=
  if key = "error" ∧ truthy record.error then record.error
  else if key = "document_content" ∧ truthy record.documentContent then record.documentContent
  else record.metadata key

/-- The storage name that the savers give. -/
def storageName : String := record.uploadName.getD record.id

/-- The part of `_save_record` where there is a row; `size` is the size of the uploaded
    file, where it can be read. -/
def overwrite (now : String) (size : Option ℕ) (row : Row) : Row where
  originalFilename := record.originalFilename
  storageFilename := record.storageName
  fileType := record.fileType
  fileSizeBytes := if record.fileType ≠ "directory" ∧ record.uploadName.isSome then
    size.getD row.fileSizeBytes else row.fileSizeBytes
  status := record.status.value
  processedPath := record.processedPath
  metadata := record.storedMetadata
  createdAt := row.createdAt
  updatedAt := now
  batchId := record.batchId
  relativePath := record.relativePath
  previewText := record.previewText
  previewMetadata := if truthy record.previewMetadata then record.previewMetadata else none
  confirmedAt := record.confirmedAt
  confirmedBy := record.confirmedBy
  listingId := record.listingId
  rootPath := row.rootPath

/-- `_record_to_db`, the part of `_save_record` where there is no row -/
def recordToDb (now : String) (size : Option ℕ) : Row where
  originalFilename := record.originalFilename
  storageFilename := record.storageName
  fileType := record.fileType
  fileSizeBytes := if record.fileType ≠ "directory" ∧ record.fileSizeBytes = 0 ∧
    record.uploadName.isSome then size.getD 0 else record.fileSizeBytes
  status := record.status.value
  processedPath := record.processedPath
  metadata := record.storedMetadata
  createdAt := record.createdAt
  updatedAt := now
  batchId := record.batchId
  relativePath := record.relativePath
  previewText := record.previewText
  previewMetadata := if truthy record.previewMetadata then record.previewMetadata else none
  confirmedAt := record.confirmedAt
  confirmedBy := record.confirmedBy
  listingId := record.listingId
  rootPath := none

end Record

/-- What every save sets. -/
def savedAlways : List Part := [.updatedAt, .fileSizeBytes]

/-- What a save writes at a part depends on the row at that part at most. -/
theorem overwrite_congr (record : Record) (now : String) (size : Option ℕ) {row row' : Row}
    {p : Part} (hp : p ≠ .fileSizeBytes) (h : row.part p = row'.part p) :
    (record.overwrite now size row).part p = (record.overwrite now size row').part p := by
  cases p with
  | fileSizeBytes => exact absurd rfl hp
  | createdAt => exact h
  | rootPath => exact h
  | _ => rfl

/-! ## A load and a save -/

/-- A row as the service writes it: its status is one of today's, its paths are those of
    `pathlib`, no empty text, document or error is stored, and what is read as the profile
    of a directory is the one that is stored. -/
structure Settled (uploadDirName : String) (profile : Option Json) (row : Row) : Prop where
  status : (loadStatus row.status).value = row.status
  storage : row.storageFilename ≠ "" ∧ row.storageFilename ≠ migrationMarker ∧
    pathName uploadDirName row.storageFilename = row.storageFilename
  processed : ∀ path, row.processedPath = some path → path ≠ "" ∧ pathText path = path
  preview : row.previewMetadata.isSome → truthy row.previewMetadata = true
  document : (row.metadata "document_content").isSome →
    truthy (row.metadata "document_content") = true
  error : (row.metadata "error").isSome → truthy (row.metadata "error") = true
  profile : ∀ p, profile = some p → row.metadata "directory_profile" = some p ∧
    (isTimeout p = true → row.status = "preview_ready")

theorem truthy_or_none {o : Option Json} (h : o.isSome → truthy o = true) :
    truthy o = true ∨ o = none := by
  cases o with
  | none => exact Or.inr rfl
  | some v => exact Or.inl (h rfl)

theorem storedMetadata_dbToRecord {uploadDirName id : String} {profile : Option Json} {row : Row}
    (h : Settled uploadDirName profile row) (key : String) :
    (dbToRecord uploadDirName profile id row).storedMetadata key = row.metadata key := by
  rw [Record.storedMetadata]
  simp only [dbToRecord]
  by_cases herror : key = "error"
  · subst herror
    rcases truthy_or_none h.error with htruthy | hnone
    · simp [htruthy]
    · simp [hnone, truthy]
  by_cases hdocument : key = "document_content"
  · subst hdocument
    rcases truthy_or_none h.document with htruthy | hnone
    · simp [htruthy]
    · simp [hnone, truthy]
  simp only [herror, hdocument, false_and, if_false, or_self]
  by_cases hprofile : key = "directory_profile"
  · rw [if_pos hprofile, hprofile]
    cases hp : profile with
    | none => rfl
    | some p => exact (h.profile p hp).1.symm
  · rw [if_neg hprofile]

/-- **A load and a save** of a settled row come back to it, but for what every save sets. -/
theorem overwrite_dbToRecord {uploadDirName : String} {profile : Option Json} {row : Row}
    (h : Settled uploadDirName profile row) (id now : String) (size : Option ℕ) :
    AgreeOff savedAlways ((dbToRecord uploadDirName profile id row).overwrite now size row)
      row := by
  intro p hp
  cases p with
  | fileSizeBytes => exact absurd (by simp [savedAlways]) hp
  | updatedAt => exact absurd (by simp [savedAlways]) hp
  | status =>
    show some (Json.str (DatasetStatus.value (if profile.any isTimeout then .previewReady
      else loadStatus row.status))) = some (.str row.status)
    cases hp : profile with
    | none => simp [h.status]
    | some p =>
      by_cases htimeout : isTimeout p = true
      · simp [htimeout, (h.profile p hp).2 htimeout, DatasetStatus.value]
      · simp [htimeout, h.status]
  | storageFilename =>
    show some (Json.str (Option.getD (if row.storageFilename ≠ "" ∧
      row.storageFilename ≠ migrationMarker then
        some (pathName uploadDirName row.storageFilename) else none) id)) = _
    rw [if_pos ⟨h.storage.1, h.storage.2.1⟩, Option.getD_some, h.storage.2.2]
    rfl
  | processedPath =>
    show ((row.processedPath.filter (· ≠ "")).map pathText).map Json.str =
      row.processedPath.map Json.str
    cases hpath : row.processedPath with
    | none => rfl
    | some path =>
      obtain ⟨hne, htext⟩ := h.processed path hpath
      simp [hne, htext]
  | previewMetadata =>
    show (if truthy row.previewMetadata then row.previewMetadata else none) =
      row.previewMetadata
    rcases truthy_or_none h.preview with htruthy | hnone
    · rw [if_pos htruthy]
    · simp [hnone, truthy]
  | metadata key => exact storedMetadata_dbToRecord h key
  | _ => rfl

end Dataset

end AimData
