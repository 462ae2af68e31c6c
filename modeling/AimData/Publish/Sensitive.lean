/-
  The payload of a signed publish, and the check that keeps serial numbers and keyed
  hashes out of what the seller writes into it.

  The check walks the values of ten fields of the payload.  It looks at no key of a
  dictionary, and at no other field.
-/
import AimData.Canonical.NormalForm
import AimData.S3.Source

namespace AimData

namespace Publish

open S3 (S3ConnectionEmit)

/-! ## Patterns -/

section

-- the word characters of Unicode
variable (word : Char → Bool)

/-- `\b`: of the characters on both sides, one is of a word. -/
def boundary (before after : List Char) : Bool :=
  before.getLast?.any word != after.head?.any word

/-- `VZ-[A-Za-z0-9][A-Za-z0-9_-]{6,}` -/
def serialText : List Char → Bool
  | 'V' :: 'Z' :: '-' :: c :: rest =>
    c.isAlphanum && (6 ≤ rest.length && rest.all fun d => d.isAlphanum || d = '_' || d = '-')
  | _ => false

def hexDigitChar (c : Char) : Bool := c.isDigit || ('a' ≤ c ∧ c ≤ 'f') || ('A' ≤ c ∧ c ≤ 'F')

/-- `[0-9a-fA-F]{32,}` -/
def hmacText (s : List Char) : Bool := 32 ≤ s.length && s.all hexDigitChar

/-- `search` for a text between two word boundaries -/
def search (text : List Char → Bool) (s : List Char) : Bool :=
  (List.range (s.length + 1)).any fun i => (List.range (s.length + 1)).any fun j =>
    text ((s.take j).drop i) && boundary word (s.take i) (s.drop i) &&
      boundary word (s.take j) (s.drop j)

/-- `VZ_SERIAL_RE.search(candidate) or HMAC_HEX_RE.search(candidate)` -/
def sensitive (candidate : String) : Bool :=
  search word serialText candidate.toList || search word hmacText candidate.toList

/-- `ATTESTATION_HASH_RE.fullmatch` -/
def attestationHash (s : String) : Bool :=
  s.toList.all hexDigitChar && (s.toList.length = 64 || s.toList.length = 128)

/-! ## The check -/

def attestationHashPaths : List (List String) :=
  [["schema_info", "attestation", "data_hash"], ["schema_info", "attestation", "attestation_hash"]]

/-- `_check_string` -/
def checkString (candidate : String) : Except String Unit :=
  if sensitive word candidate then .error "Publish payload contains sensitive material" else .ok ()

/-- `_check_attestation_hash` -/
def checkAttestationHash : Json → Except String Unit
  | .str s => if attestationHash s then .ok ()
    else .error "Publish payload contains invalid attestation hash"
  | _ => .error "Publish payload contains invalid attestation hash"

mutual
/-- `_walk` -/
def walk (path : List String) (value : Json) : Except String Unit :=
  if path ∈ attestationHashPaths then checkAttestationHash value
  else match value with
    | .str s => checkString word s
    | .obj fields => walkFields path fields
    | .arr items => walkItems path items
    | _ => .ok ()

def walkFields (path : List String) : List (String × Json) → Except String Unit
  | [] => .ok ()
  | (key, child) :: fields => do
    walk (path ++ [key]) child
    walkFields path fields

def walkItems (path : List String) : List Json → Except String Unit
  | [] => .ok ()
  | child :: items => do
    walk path child
    walkItems path items
end

/-- The fields that the check walks. -/
def walkedFields : List String :=
  ["title", "description", "category", "vz_raw_listing_id", "tags", "schema_info",
    "compliance_details", "compliance_status", "secondary_categories", "model_provider"]

def walkEach (payload : List (String × Json)) : List String → Except String Unit
  | [] => .ok ()
  | key :: keys => do
    match payload.lookup key with
    | some value => walk word [key] value
    | none => .ok ()
    walkEach payload keys

/-- `_assert_no_sensitive_publish_values` -/
def assertNoSensitivePublishValues (payload : List (String × Json)) : Except String Unit :=
  walkEach word payload walkedFields

end

/-! ## The payload -/

inductive PricingType where
  | oneTime
  | subscription
  deriving DecidableEq

def PricingType.value : PricingType → String
  | oneTime => "one_time"
  | subscription => "subscription"

/-- `MarketplacePublishRequest`; a float is its text. -/
structure MarketplacePublishRequest where
  title : String
  description : String
  tags : List String
  category : Option String
  pricingType : PricingType
  priceCents : ℕ
  rowCount : Option ℤ
  columnNames : Option (List String)
  columnTypes : Option (List String)
  fileFormat : Option String
  fileSizeBytes : Option ℤ
  schemaInfo : Option (List (String × Json))
  complianceDetails : Option (List (String × Json))
  complianceStatus : Option String
  privacyScore : Option String
  secondaryCategories : Option (List String)
  modelProvider : Option String
  vzDatasetId : String

inductive SourceKind where
  | s3
  | aimDataLocal
  deriving DecidableEq

def SourceKind.value : SourceKind → String
  | s3 => "s3"
  | aimDataLocal => "aim_data_local"

structure VersionPublishEmit where
  versionLabel : String
  objectCount : ℕ
  totalSizeBytes : ℕ
  manifestHash : String
  sourceKind : SourceKind
  membersTotal : Option ℕ
  sampleMembersTotal : Option ℕ
  membersUploadId : Option String

def strings (l : List String) : Json := .arr (l.map .str)

def natJson (n : ℕ) : Json := .int n

def VersionPublishEmit.fields (v : VersionPublishEmit) : List (String × Json) :=
  [("version_label", .str v.versionLabel), ("object_count", natJson v.objectCount),
    ("total_size_bytes", natJson v.totalSizeBytes), ("manifest_hash", .str v.manifestHash)]

/-- `_build_version_emit` -/
def buildVersionEmit (multiFileDatasetsEnabled : Bool) (v : VersionPublishEmit) :
    Except String Json :=
  match v.sourceKind with
  | .s3 =>
    if v.membersTotal.isSome ∨ v.membersUploadId.isSome ∨ v.sampleMembersTotal.isSome then
      .error "members fields require aim_data_local"
    else .ok (.obj v.fields)
  | .aimDataLocal =>
    if ¬ multiFileDatasetsEnabled then .error "Not found"
    else match v.membersTotal, v.membersUploadId, v.sampleMembersTotal with
      | some total, some uploadId, some samples =>
        if (total : ℤ) - samples < 1 then
          .error "paid_set_required: at least one non-sample data member is required"
        else .ok (.obj (v.fields ++ [("source_kind", .str v.sourceKind.value),
          ("members_total", natJson total), ("sample_members_total", natJson samples),
          ("members_upload_id", .str uploadId)]))
      | _, _, _ =>
        .error "Local version requires members_total, sample_members_total and members_upload_id"

/-- `_build_s3_connection_emit` -/
def buildS3ConnectionEmit (r : S3ConnectionEmit) : Json :=
  .obj [("bucket", .str r.bucket), ("region", .str r.region), ("role_arn", .str r.roleArn),
    ("prefix", .str (String.ofList r.keyPrefix)), ("serial_id", .str r.serialId)]

/-- `model_dump`, with the fields that are not given -/
def MarketplacePublishRequest.entries (body : MarketplacePublishRequest) :
    List (String × Option Json) :=
  [("title", some (.str body.title)), ("description", some (.str body.description)),
    ("tags", some (strings body.tags)), ("category", body.category.map .str),
    ("pricing_type", some (.str body.pricingType.value)),
    ("price_cents", some (natJson body.priceCents)), ("row_count", body.rowCount.map .int),
    ("column_names", body.columnNames.map strings), ("column_types", body.columnTypes.map strings),
    ("file_format", body.fileFormat.map .str), ("file_size_bytes", body.fileSizeBytes.map .int),
    ("schema_info", body.schemaInfo.map .obj),
    ("compliance_details", body.complianceDetails.map .obj),
    ("compliance_status", body.complianceStatus.map .str),
    ("privacy_score", body.privacyScore.map .float),
    ("secondary_categories", body.secondaryCategories.map strings),
    ("model_provider", body.modelProvider.map .str),
    ("vz_raw_listing_id", some (.str body.vzDatasetId))]

/-- `exclude_none` -/
def given (entries : List (String × Option Json)) : List (String × Json) :=
  entries.filterMap fun entry => entry.2.map fun value => (entry.1, value)

structure PublishConfig where
  multiFileDatasetsEnabled : Bool
  downloadChannel : String
  appVersion : String

/-- `_build_publish_payload` -/
def buildPublishPayload (config : PublishConfig) (body : MarketplacePublishRequest)
    (s3Source : Option S3ConnectionEmit) (versions : List VersionPublishEmit) :
    Except String (List (String × Json)) := do
  let emits ← versions.mapM (buildVersionEmit config.multiFileDatasetsEnabled)
  return given (body.entries ++
    [("download_channel", some (.str config.downloadChannel)),
      ("s3_connection", s3Source.map buildS3ConnectionEmit),
      ("versions", if versions.isEmpty then none else some (.arr emits)),
      ("agent_version", if versions.any fun v => v.sourceKind = .aimDataLocal then
        some (.str config.appVersion) else none)])

/-- The payload that `publish_via_signed_proxy` signs and sends. -/
def checkedPayload (word : Char → Bool) (config : PublishConfig)
    (body : MarketplacePublishRequest) (s3Source : Option S3ConnectionEmit)
    (versions : List VersionPublishEmit) : Except String (List (String × Json)) := do
  let payload ← buildPublishPayload config body s3Source versions
  assertNoSensitivePublishValues word payload
  return payload

/-! ## The strings of a value -/

inductive Place where
  | value
  | key
  deriving DecidableEq

/-- A string of a value, under the keys that lead to it; an item of a list is where the
    list is. -/
inductive Occurs : Json → List String → Place → String → Prop
  | str (s : String) : Occurs (.str s) [] .value s
  | key {fields : List (String × Json)} {key : String} {child : Json} :
    (key, child) ∈ fields → Occurs (.obj fields) [] .key key
  | field {fields : List (String × Json)} {key s : String} {child : Json} {path : List String}
    {place : Place} :
    (key, child) ∈ fields → Occurs child path place s → Occurs (.obj fields) (key :: path) place s
  | item {items : List Json} {child : Json} {path : List String} {place : Place} {s : String} :
    child ∈ items → Occurs child path place s → Occurs (.arr items) path place s

section

variable {word : Char → Bool}

theorem then_eq_ok {x y : Except String Unit} :
    (x >>= fun _ => y) = .ok () ↔ x = .ok () ∧ y = .ok () := by
  rw [Except.bind_eq_ok]
  constructor
  · rintro ⟨⟨⟩, hx, hy⟩
    exact ⟨hx, hy⟩
  · rintro ⟨hx, hy⟩
    exact ⟨(), hx, hy⟩

theorem walkFields_ok {path : List String} {fields : List (String × Json)} :
    walkFields word path fields = .ok () ↔
      ∀ f ∈ fields, walk word (path ++ [f.1]) f.2 = .ok () := by
  induction fields with
  | nil => simp [walkFields]
  | cons f fields ih => simp [walkFields, then_eq_ok, ih]

theorem walkItems_ok {path : List String} {items : List Json} :
    walkItems word path items = .ok () ↔ ∀ v ∈ items, walk word path v = .ok () := by
  induction items with
  | nil => simp [walkItems]
  | cons v items ih => simp [walkItems, then_eq_ok, ih]

/-- Where an attestation hash is declared, a walk lets only a string through. -/
theorem str_of_declared {v : Json} {path : List String} (h : walk word path v = .ok ())
    (hpath : path ∈ attestationHashPaths) : ∃ s, v = .str s := by
  unfold walk at h
  rw [if_pos hpath] at h
  cases v with
  | str s => exact ⟨s, rfl⟩
  | _ => cases h

theorem walk_obj {path : List String} {fields : List (String × Json)}
    (h : walk word path (.obj fields) = .ok ()) :
    path ∉ attestationHashPaths ∧ ∀ f ∈ fields, walk word (path ++ [f.1]) f.2 = .ok () := by
  have hpath : path ∉ attestationHashPaths := by
    intro hpath
    obtain ⟨s, hs⟩ := str_of_declared h hpath
    cases hs
  rw [walk, if_neg hpath] at h
  exact ⟨hpath, walkFields_ok.1 h⟩

theorem walk_arr {path : List String} {items : List Json}
    (h : walk word path (.arr items) = .ok ()) : ∀ v ∈ items, walk word path v = .ok () := by
  have hpath : path ∉ attestationHashPaths := by
    intro hpath
    obtain ⟨s, hs⟩ := str_of_declared h hpath
    cases hs
  rw [walk, if_neg hpath] at h
  exact walkItems_ok.1 h

/-- What a walk lets through has no sensitive string among its values, but where an
    attestation hash is declared. -/
theorem not_sensitive_of_walk {v : Json} {path below : List String} {place : Place} {s : String}
    (h : walk word path v = .ok ()) (hs : Occurs v below place s) (hplace : place = .value)
    (hdeclared : path ++ below ∉ attestationHashPaths) : sensitive word s = false := by
  induction hs generalizing path with
  | str s =>
    rw [List.append_nil] at hdeclared
    rw [walk, if_neg hdeclared, checkString] at h
    simpa using h
  | key => cases hplace
  | field hmem hs ih =>
    refine ih ((walk_obj h).2 _ hmem) hplace ?_
    rwa [List.append_assoc]
  | item hmem hs ih => exact ih (walk_arr h _ hmem) hplace hdeclared

/-- A dictionary is nowhere that an attestation hash is declared. -/
theorem not_declared_of_key {v : Json} {path below : List String} {place : Place} {s : String}
    (h : walk word path v = .ok ()) (hs : Occurs v below place s) (hplace : place = .key) :
    path ++ below ∉ attestationHashPaths := by
  induction hs generalizing path with
  | str => cases hplace
  | key =>
    rw [List.append_nil]
    exact (walk_obj h).1
  | @field fields key s child below place hmem hs ih =>
    have hchild : path ++ [key] ++ below ∉ attestationHashPaths :=
      ih ((walk_obj h).2 _ hmem) hplace
    rwa [List.append_assoc] at hchild
  | item hmem hs ih => exact ih (walk_arr h _ hmem) hplace

theorem walkEach_ok {payload : List (String × Json)} {keys : List String} :
    walkEach word payload keys = .ok () ↔
      ∀ key ∈ keys, ∀ value, payload.lookup key = some value →
        walk word [key] value = .ok () := by
  induction keys with
  | nil => simp [walkEach]
  | cons key keys ih =>
    rw [walkEach, List.forall_mem_cons, ← ih]
    cases hvalue : payload.lookup key with
    | none => simp
    | some value => simp [then_eq_ok]

end

/-! ## What the seller writes -/

/-- The fields that come from the request. -/
def requestFields : List String :=
  walkedFields ++ ["pricing_type", "column_names", "column_types", "file_format"]

/-- The settings of the seller's S3 connection. -/
def connectionFields : List String := ["bucket", "region", "role_arn", "prefix"]

/-- A position whose strings the seller writes. -/
inductive SellerControlled : List String → Prop
  | request {field : String} {path : List String} :
    field ∈ requestFields → SellerControlled (field :: path)
  | label : SellerControlled ["versions", "version_label"]
  | connection {field : String} :
    field ∈ connectionFields → SellerControlled ["s3_connection", field]

/-- **No sensitive string**: as a value, as a key or in a list, at any depth, outside the
    declared attestation hashes. -/
def NoSensitive (word : Char → Bool) (payload : List (String × Json)) : Prop :=
  ∀ path place s, Occurs (.obj payload) path place s → SellerControlled path →
    path ∉ attestationHashPaths → sensitive word s = false

/-- What the check leaves out. -/
structure LeftOutClean (word : Char → Bool) (body : MarketplacePublishRequest)
    (s3Source : Option S3ConnectionEmit) (versions : List VersionPublishEmit) : Prop where
  columnNames : ∀ names, body.columnNames = some names → ∀ s ∈ names, sensitive word s = false
  columnTypes : ∀ types, body.columnTypes = some types → ∀ s ∈ types, sensitive word s = false
  fileFormat : ∀ s, body.fileFormat = some s → sensitive word s = false
  keys : ∀ fields, body.schemaInfo = some fields ∨ body.complianceDetails = some fields →
    ∀ path key, Occurs (.obj fields) path .key key → sensitive word key = false
  labels : ∀ v ∈ versions, sensitive word v.versionLabel = false
  connection : ∀ r, s3Source = some r → ∀ s ∈ [r.bucket, r.region, r.roleArn,
    String.ofList r.keyPrefix], sensitive word s = false

section

variable {word : Char → Bool} {path : List String} {place : Place} {s : String}

theorem occurs_str {t : String} : Occurs (.str t) path place s ↔
    path = [] ∧ place = .value ∧ s = t := by
  constructor
  · rintro ⟨⟩
    exact ⟨rfl, rfl, rfl⟩
  · rintro ⟨rfl, rfl, rfl⟩
    exact .str s

theorem occurs_arr {items : List Json} : Occurs (.arr items) path place s ↔
    ∃ child ∈ items, Occurs child path place s := by
  constructor
  · rintro (_ | _ | _ | ⟨hmem, hs⟩)
    exact ⟨_, hmem, hs⟩
  · rintro ⟨child, hmem, hs⟩
    exact .item hmem hs

theorem occurs_field {fields : List (String × Json)} {key : String} :
    Occurs (.obj fields) (key :: path) place s ↔
      ∃ child, (key, child) ∈ fields ∧ Occurs child path place s := by
  constructor
  · rintro (_ | _ | ⟨hmem, hs⟩)
    exact ⟨_, hmem, hs⟩
  · rintro ⟨child, hmem, hs⟩
    exact .field hmem hs

theorem occurs_strings {l : List String} : Occurs (strings l) path place s ↔
    path = [] ∧ place = .value ∧ s ∈ l := by
  rw [strings, occurs_arr]
  constructor
  · rintro ⟨child, hmem, hs⟩
    obtain ⟨t, ht, rfl⟩ := List.mem_map.1 hmem
    obtain ⟨hpath, hplace, rfl⟩ := occurs_str.1 hs
    exact ⟨hpath, hplace, ht⟩
  · rintro ⟨hpath, hplace, hs⟩
    exact ⟨.str s, List.mem_map.2 ⟨s, hs, rfl⟩, occurs_str.2 ⟨hpath, hplace, rfl⟩⟩

theorem mem_given {entries : List (String × Option Json)} {key : String} {value : Json} :
    (key, value) ∈ given entries ↔ (key, some value) ∈ entries := by
  rw [given, List.mem_filterMap]
  constructor
  · rintro ⟨⟨k, o⟩, hmem, h⟩
    obtain ⟨v, rfl, h⟩ := Option.map_eq_some_iff.1 h
    cases h
    exact hmem
  · intro hmem
    exact ⟨_, hmem, rfl⟩

theorem given_keys (entries : List (String × Option Json)) :
    ((given entries).map Prod.fst).Sublist (entries.map Prod.fst) := by
  induction entries with
  | nil => exact .slnil
  | cons entry entries ih =>
    obtain ⟨key, _ | value⟩ := entry
    · exact ih.cons key
    · exact ih.cons_cons key

end

/-! ## What a payload holds -/

section

variable {word : Char → Bool} {config : PublishConfig} {body : MarketplacePublishRequest}
  {s3Source : Option S3ConnectionEmit} {versions : List VersionPublishEmit}
  {payload : List (String × Json)}

/-- A payload that the check lets through: its fields, each of them once. -/
theorem checkedPayload_ok (h : checkedPayload word config body s3Source versions = .ok payload) :
    assertNoSensitivePublishValues word payload = .ok () ∧ (payload.map Prod.fst).Nodup ∧
      ∃ emits, versions.mapM (buildVersionEmit config.multiFileDatasetsEnabled) = .ok emits ∧
        ∀ key value, (key, value) ∈ payload ↔ (key, some value) ∈ body.entries ++
          [("download_channel", some (.str config.downloadChannel)),
            ("s3_connection", s3Source.map buildS3ConnectionEmit),
            ("versions", if versions.isEmpty then none else some (.arr emits)),
            ("agent_version", if versions.any fun v => v.sourceKind = .aimDataLocal then
              some (.str config.appVersion) else none)] := by
  rw [checkedPayload] at h
  obtain ⟨p, hp, h⟩ := Except.bind_eq_ok.1 h
  obtain ⟨⟨⟩, hcheck, h⟩ := Except.bind_eq_ok.1 h
  cases h
  rw [buildPublishPayload] at hp
  obtain ⟨emits, hemits, hp⟩ := Except.bind_eq_ok.1 hp
  cases hp
  refine ⟨hcheck, (given_keys _).nodup ?_, emits, hemits, fun key value => mem_given⟩
  simp [MarketplacePublishRequest.entries]

/-- A version goes out under its label, and with no key but the fixed ones. -/
theorem buildVersionEmit_fields {enabled : Bool} {v : VersionPublishEmit} {emit : Json}
    (h : buildVersionEmit enabled v = .ok emit) :
    ∃ rest, emit = .obj (v.fields ++ rest) ∧ "version_label" ∉ rest.map Prod.fst := by
  rw [buildVersionEmit] at h
  split at h
  · split_ifs at h
    cases h
    exact ⟨[], by rw [List.append_nil], by simp⟩
  · split_ifs at h
    split at h
    · split_ifs at h
      cases h
      exact ⟨_, rfl, by simp⟩
    · cases h

theorem emits_forall₂ {enabled : Bool} : ∀ {versions : List VersionPublishEmit}
    {emits : List Json}, versions.mapM (buildVersionEmit enabled) = .ok emits →
    List.Forall₂ (fun v emit => buildVersionEmit enabled v = .ok emit) versions emits := by
  intro versions
  induction versions with
  | nil =>
    intro emits h
    cases h
    exact .nil
  | cons v versions ih =>
    intro emits h
    obtain ⟨emit, emits, hv, hrest, rfl⟩ := List.mapM_cons_ok.1 h
    exact .cons hv (ih hrest)

/-- The labels among the strings of the emitted versions. -/
theorem occurs_label {enabled : Bool} {emits : List Json} {place : Place} {s : String}
    (h : List.Forall₂ (fun v emit => buildVersionEmit enabled v = .ok emit) versions emits) :
    Occurs (.arr emits) ["version_label"] place s ↔
      place = .value ∧ ∃ v ∈ versions, s = v.versionLabel := by
  induction h with
  | nil => simp [occurs_arr]
  | @cons v emit versions emits hv _ ih =>
    obtain ⟨rest, rfl, hrest⟩ := buildVersionEmit_fields hv
    have hfirst : Occurs (.obj (v.fields ++ rest)) ["version_label"] place s ↔
        place = .value ∧ s = v.versionLabel := by
      rw [occurs_field]
      constructor
      · rintro ⟨child, hmem, hs⟩
        rcases List.mem_append.1 hmem with hmem | hmem
        · have hchild : child = .str v.versionLabel := by
            simpa [VersionPublishEmit.fields] using hmem
          rw [hchild] at hs
          exact (occurs_str.1 hs).2
        · exact absurd (List.mem_map.2 ⟨_, hmem, rfl⟩) hrest
      · rintro ⟨rfl, rfl⟩
        exact ⟨_, List.mem_append_left _ List.mem_cons_self, .str _⟩
    rw [occurs_arr] at ih ⊢
    simp only [List.mem_cons, exists_eq_or_imp, hfirst, ih, ← and_or_left]

/-- The settings among the strings of the connection block. -/
theorem occurs_connection {r : S3ConnectionEmit} {field : String} {place : Place} {s : String}
    (hfield : field ∈ connectionFields) :
    Occurs (buildS3ConnectionEmit r) [field] place s →
      s ∈ [r.bucket, r.region, r.roleArn, String.ofList r.keyPrefix] := by
  intro hs
  obtain ⟨child, hmem, hs⟩ := occurs_field.1 hs
  simp only [connectionFields, List.mem_cons, List.not_mem_nil, or_false] at hfield
  simp only [List.mem_cons, Prod.mk.injEq, List.not_mem_nil, or_false] at hmem
  rcases hmem with ⟨rfl, rfl⟩ | ⟨rfl, rfl⟩ | ⟨rfl, rfl⟩ | ⟨rfl, rfl⟩ | ⟨rfl, rfl⟩
  · simp [(occurs_str.1 hs).2.2]
  · simp [(occurs_str.1 hs).2.2]
  · simp [(occurs_str.1 hs).2.2]
  · simp [(occurs_str.1 hs).2.2]
  · exact absurd hfield (by decide)

/-- A text without a `V`, and too short for a hash, is not sensitive. -/
theorem not_sensitive_short {t : String} (hV : 'V' ∉ t.toList) (hlen : t.toList.length < 32) :
    sensitive word t = false := by
  have hnone : ∀ text : List Char → Bool, (∀ m, text m = true → 'V' ∈ m ∨ 32 ≤ m.length) →
      search word text t.toList = false := by
    intro text htext
    by_contra hsearch
    rw [Bool.not_eq_false, search, List.any_eq_true] at hsearch
    obtain ⟨i, -, hsearch⟩ := hsearch
    obtain ⟨j, -, hsearch⟩ := List.any_eq_true.1 hsearch
    rw [Bool.and_eq_true, Bool.and_eq_true] at hsearch
    rcases htext _ hsearch.1.1 with hmem | hlong
    · exact hV (List.mem_of_mem_take (List.mem_of_mem_drop hmem))
    · rw [List.length_drop, List.length_take] at hlong
      omega
  rw [sensitive, hnone serialText ?_, hnone hmacText ?_, Bool.or_false]
  · intro m hm
    rw [hmacText, Bool.and_eq_true] at hm
    exact Or.inr (by simpa using hm.1)
  · intro m hm
    unfold serialText at hm
    split at hm
    · exact Or.inl List.mem_cons_self
    · cases hm

/-- A string of a field of the request: what the check does not see of it is clean. -/
theorem request_clean (hok : assertNoSensitivePublishValues word payload = .ok ())
    (hnodup : (payload.map Prod.fst).Nodup) {field s : String} {child : Json}
    {path : List String} {place : Place}
    (hchild : (field, child) ∈ payload) (hentry : (field, some child) ∈ body.entries)
    (hleft : LeftOutClean word body s3Source versions) (hs : Occurs child path place s)
    (hdeclared : field :: path ∉ attestationHashPaths) : sensitive word s = false := by
  have hwalked : field ∈ walkedFields → place = .value → sensitive word s = false := by
    intro hfield hplace
    have hwalk : walk word [field] child = .ok () :=
      walkEach_ok.1 hok field hfield child ((lookup_iff_mem hnodup).2 hchild)
    exact not_sensitive_of_walk hwalk hs hplace hdeclared
  have hstr : ∀ t, .str t = child → path = [] ∧ place = .value ∧ s = t := by
    rintro t rfl
    exact occurs_str.1 hs
  have hlist : ∀ l, strings l = child → path = [] ∧ place = .value ∧ s ∈ l := by
    rintro l rfl
    exact occurs_strings.1 hs
  have hnumber : ∀ i : ℤ, .int i ≠ child := by
    rintro i rfl
    cases hs
  have hdict : ∀ fields, body.schemaInfo = some fields ∨ body.complianceDetails = some fields →
      Json.obj fields = child → field ∈ walkedFields → sensitive word s = false := by
    rintro fields hfields rfl hfield
    cases hplace : place with
    | value => exact hwalked hfield hplace
    | key => exact hleft.keys fields hfields path s (hplace ▸ hs)
  simp only [MarketplacePublishRequest.entries, List.mem_cons, List.not_mem_nil, or_false,
    Prod.mk.injEq, Option.some.injEq, eq_comm (a := some child), Option.map_eq_some_iff] at hentry
  rcases hentry with h | h | h | h | h | h | h | h | h | h | h | h | h | h | h | h | h | h
  all_goals obtain ⟨rfl, h⟩ := h
  · exact hwalked (by decide) (hstr _ h).2.1
  · exact hwalked (by decide) (hstr _ h).2.1
  · exact hwalked (by decide) (hlist _ h).2.1
  · obtain ⟨t, -, h⟩ := h
    exact hwalked (by decide) (hstr t h).2.1
  · rw [(hstr _ h).2.2]
    cases body.pricingType
    · exact not_sensitive_short (by decide) (by decide)
    · exact not_sensitive_short (by decide) (by decide)
  · exact absurd h (hnumber _)
  · obtain ⟨i, -, h⟩ := h
    exact absurd h (hnumber i)
  · obtain ⟨names, hnames, h⟩ := h
    exact hleft.columnNames names hnames s (hlist names h).2.2
  · obtain ⟨types, htypes, h⟩ := h
    exact hleft.columnTypes types htypes s (hlist types h).2.2
  · obtain ⟨t, ht, h⟩ := h
    obtain ⟨-, -, rfl⟩ := hstr t h
    exact hleft.fileFormat s ht
  · obtain ⟨i, -, h⟩ := h
    exact absurd h (hnumber i)
  · obtain ⟨fields, hfields, h⟩ := h
    exact hdict fields (Or.inl hfields) h (by decide)
  · obtain ⟨fields, hfields, h⟩ := h
    exact hdict fields (Or.inr hfields) h (by decide)
  · obtain ⟨t, -, h⟩ := h
    exact hwalked (by decide) (hstr t h).2.1
  · obtain ⟨text, -, rfl⟩ := h
    cases hs
  · obtain ⟨l, -, h⟩ := h
    exact hwalked (by decide) (hlist l h).2.1
  · obtain ⟨t, -, h⟩ := h
    exact hwalked (by decide) (hstr t h).2.1
  · exact hwalked (by decide) (hstr _ h).2.1

/-- **What the check lets through** has no sensitive string of the seller iff there is none
    in what the check leaves out. -/
theorem noSensitive_iff (h : checkedPayload word config body s3Source versions = .ok payload) :
    NoSensitive word payload ↔ LeftOutClean word body s3Source versions := by
  obtain ⟨hok, hnodup, emits, hemits, hmem⟩ := checkedPayload_ok h
  constructor
  · intro hclean
    have hfield : ∀ (field : String) {child : Json} {path : List String} {place : Place}
        {s : String}, field ∈ requestFields → field :: path ∉ attestationHashPaths →
        (field, some child) ∈ body.entries → Occurs child path place s →
        sensitive word s = false :=
      fun field _ _ _ _ hfield hdeclared hentry hs => hclean _ _ _ (occurs_field.2
        ⟨_, (hmem _ _).2 (List.mem_append_left _ hentry), hs⟩) (.request hfield) hdeclared
    refine ⟨?_, ?_, ?_, ?_, ?_, ?_⟩
    · intro names hnames s hs
      exact hfield "column_names" (by decide) (by decide)
        (by simp [MarketplacePublishRequest.entries, hnames]) (occurs_strings.2 ⟨rfl, rfl, hs⟩)
    · intro types htypes s hs
      exact hfield "column_types" (by decide) (by decide)
        (by simp [MarketplacePublishRequest.entries, htypes]) (occurs_strings.2 ⟨rfl, rfl, hs⟩)
    · intro s hs
      exact hfield "file_format" (by decide) (by decide)
        (by simp [MarketplacePublishRequest.entries, hs]) (.str s)
    · have hkeys : ∀ (field : String) (fields : List (String × Json)) (path : List String)
          (key : String), field ∈ walkedFields → (field, some (.obj fields)) ∈ body.entries →
          Occurs (.obj fields) path .key key → sensitive word key = false := by
        intro field fields path key hwalked hentry hkey
        have hvalue : payload.lookup field = some (.obj fields) :=
          (lookup_iff_mem hnodup).2 ((hmem _ _).2 (List.mem_append_left _ hentry))
        exact hfield field (List.mem_append_left _ hwalked)
          (not_declared_of_key (walkEach_ok.1 hok field hwalked _ hvalue) hkey rfl) hentry hkey
      rintro fields (hfields | hfields) path key hkey
      · exact hkeys "schema_info" fields path key (by decide)
          (by simp [MarketplacePublishRequest.entries, hfields]) hkey
      · exact hkeys "compliance_details" fields path key (by decide)
          (by simp [MarketplacePublishRequest.entries, hfields]) hkey
    · intro v hv
      have hne : versions.isEmpty = false := by
        cases versions
        · cases hv
        · rfl
      refine hclean ["versions", "version_label"] .value _ (occurs_field.2 ⟨.arr emits,
        (hmem _ _).2 (List.mem_append_right _ ?_), (occurs_label
        (emits_forall₂ hemits)).2 ⟨rfl, v, hv, rfl⟩⟩) .label (by decide)
      simp [hne]
    · intro r hr s hs
      have hconnection : ∀ field t, field ∈ connectionFields →
          Occurs (buildS3ConnectionEmit r) [field] .value t → sensitive word t = false := by
        intro field t hfield ht
        refine hclean ["s3_connection", field] .value t (occurs_field.2 ⟨_, (hmem _ _).2
          (List.mem_append_right _ ?_), ht⟩) (.connection hfield) ?_
        · simp [hr]
        · simp [attestationHashPaths]
      simp only [List.mem_cons, List.not_mem_nil, or_false] at hs
      rcases hs with rfl | rfl | rfl | rfl
      · exact hconnection "bucket" _ (by decide) (occurs_field.2 ⟨_, by simp, .str _⟩)
      · exact hconnection "region" _ (by decide) (occurs_field.2 ⟨_, by simp, .str _⟩)
      · exact hconnection "role_arn" _ (by decide) (occurs_field.2 ⟨_, by simp, .str _⟩)
      · exact hconnection "prefix" _ (by decide) (occurs_field.2 ⟨_, by simp, .str _⟩)
  · rintro hleft path place s hs hseller hdeclared
    have hrest : ∀ {field : String} {child : Json}, (field, some child) ∈ body.entries →
        field ∈ body.entries.map Prod.fst := fun hentry => List.mem_map.2 ⟨_, hentry, rfl⟩
    cases hseller with
    | @request field path hfield =>
      obtain ⟨child, hchild, hs⟩ := occurs_field.1 hs
      rcases List.mem_append.1 ((hmem field child).1 hchild) with hentry | hentry
      · exact request_clean hok hnodup hchild hentry hleft hs hdeclared
      · simp only [List.mem_cons, Prod.mk.injEq, List.not_mem_nil, or_false] at hentry
        rcases hentry with ⟨rfl, -⟩ | ⟨rfl, -⟩ | ⟨rfl, -⟩ | ⟨rfl, -⟩
        all_goals exact absurd hfield (by decide)
    | label =>
      obtain ⟨child, hchild, hs⟩ := occurs_field.1 hs
      rcases List.mem_append.1 ((hmem _ child).1 hchild) with hentry | hentry
      · exact absurd (hrest hentry) (by simp [MarketplacePublishRequest.entries])
      · have hemit : child = .arr emits := by
          simp only [List.mem_cons, Prod.mk.injEq, List.not_mem_nil, or_false,
            show ("versions" = "download_channel") = False from by simp,
            show ("versions" = "s3_connection") = False from by simp,
            show ("versions" = "agent_version") = False from by simp, false_and, false_or] at hentry
          obtain ⟨-, h⟩ := hentry
          split_ifs at h
          exact Option.some.inj h
        rw [hemit] at hs
        obtain ⟨-, v, hv, rfl⟩ := (occurs_label (emits_forall₂ hemits)).1 hs
        exact hleft.labels v hv
    | @connection field hfield =>
      obtain ⟨child, hchild, hs⟩ := occurs_field.1 hs
      rcases List.mem_append.1 ((hmem _ child).1 hchild) with hentry | hentry
      · exact absurd (hrest hentry) (by simp [MarketplacePublishRequest.entries])
      · have hblock : s3Source.map buildS3ConnectionEmit = some child := by
          simpa using hentry
        obtain ⟨r, hr, rfl⟩ := Option.map_eq_some_iff.1 hblock
        exact hleft.connection r hr s (occurs_connection hfield hs)

end

/-! ### Keys and column names -/

def asciiWord (c : Char) : Bool := c.isAlphanum || c = '_'

def publishConfig : PublishConfig := ⟨true, "aim-data", "1.0.0"⟩

/-- A request with a serial number for the name of a column and for a key of its schema. -/
def serialRequest (name : String) : MarketplacePublishRequest where
  title := "t"
  description := "d"
  tags := []
  category := none
  pricingType := .oneTime
  priceCents := 0
  rowCount := none
  columnNames := some [name]
  columnTypes := none
  fileFormat := none
  fileSizeBytes := none
  schemaInfo := some [(name, .int 1)]
  complianceDetails := none
  complianceStatus := none
  privacyScore := none
  secondaryCategories := none
  modelProvider := none
  vzDatasetId := "x"

theorem serial_key_passes : ∃ payload,
    checkedPayload asciiWord publishConfig (serialRequest "VZ-ABCDEFGH") none [] = .ok payload ∧
      ¬ NoSensitive asciiWord payload := by
  have hpayload : checkedPayload asciiWord publishConfig (serialRequest "VZ-ABCDEFGH") none [] =
      .ok (given ((serialRequest "VZ-ABCDEFGH").entries ++
        [("download_channel", some (.str "aim-data")), ("s3_connection", none),
          ("versions", none), ("agent_version", none)])) := by
    rfl
  refine ⟨_, hpayload, ?_⟩
  intro hclean
  have hkey : sensitive asciiWord "VZ-ABCDEFGH" = false :=
    hclean ["schema_info"] .key _ (occurs_field.2 ⟨.obj [("VZ-ABCDEFGH", .int 1)],
      mem_given.2 (by simp [MarketplacePublishRequest.entries, serialRequest]),
      .key List.mem_cons_self⟩) (.request (by decide)) (by decide)
  exact absurd hkey (by decide)

theorem noSensitive_iff_name : ∃ payload,
    checkedPayload asciiWord publishConfig (serialRequest "a") none [] = .ok payload ∧
      (NoSensitive asciiWord payload ↔
        LeftOutClean asciiWord (serialRequest "a") none []) := by
  obtain ⟨payload, hpayload⟩ : ∃ payload,
      checkedPayload asciiWord publishConfig (serialRequest "a") none [] = .ok payload := by
    exact Except.exists_of_isOk (by rfl)
  exact ⟨payload, hpayload, noSensitive_iff hpayload⟩

end Publish

end AimData
