/-
  The source block of a publish request: where the marketplace reads the objects of an
  S3 dataset, and whether that is where the version of the request was scanned.

  The version is looked up by the connection and the scan that the request names, the
  block by the provenance of the dataset; nothing compares the two.
-/
import AimData.S3.Scan

namespace AimData

namespace S3

/-! ## Prefixes -/

/-- No slash directly follows another. -/
def SingleSlashes (s : List Char) : Prop := s.IsChain fun a b => ¬ (a = '/' ∧ b = '/')

instance : DecidablePred SingleSlashes := fun s => by
  unfold SingleSlashes
  infer_instance

theorem head?_collapse (s : List Char) : (collapseSlashes s).head? = s.head? := by
  induction s with
  | nil => rfl
  | cons c cs ih =>
    rw [collapseSlashes]
    by_cases h : c = '/' ∧ cs.head? = some '/'
    · rw [if_pos h, ih, h.2, h.1]
      rfl
    · rw [if_neg h]
      rfl

theorem singleSlashes_collapse (s : List Char) : SingleSlashes (collapseSlashes s) := by
  induction s with
  | nil => exact .nil
  | cons c cs ih =>
    rw [collapseSlashes]
    by_cases h : c = '/' ∧ cs.head? = some '/'
    · rw [if_pos h]
      exact ih
    · rw [if_neg h, SingleSlashes, List.isChain_cons]
      refine ⟨?_, ih⟩
      intro d hd ⟨hc, hslash⟩
      rw [head?_collapse] at hd
      exact h ⟨hc, hslash ▸ hd⟩

theorem mem_collapse {c : Char} {s : List Char} (h : c ∈ collapseSlashes s) : c ∈ s := by
  induction s with
  | nil => cases h
  | cons d cs ih =>
    rw [collapseSlashes] at h
    split_ifs at h
    · exact List.mem_cons_of_mem _ (ih h)
    · rcases List.mem_cons.1 h with rfl | h
      · exact List.mem_cons_self
      · exact List.mem_cons_of_mem _ (ih h)

/-- What has single slashes, and does not end in one, stays. -/
theorem collapse_append {q s : List Char} (hq : SingleSlashes q)
    (hlast : q.getLast? ≠ some '/') : collapseSlashes (q ++ s) = q ++ collapseSlashes s := by
  induction q with
  | nil => rfl
  | cons c cs ih =>
    obtain ⟨hhead, htail⟩ := List.isChain_cons.1 hq
    have hne : ¬ (c = '/' ∧ (cs ++ s).head? = some '/') := by
      rintro ⟨rfl, hslash⟩
      cases cs with
      | nil => exact hlast rfl
      | cons d ds => exact hhead d rfl ⟨rfl, Option.some.inj hslash⟩
    rw [List.cons_append, collapseSlashes, if_neg hne, List.cons_append]
    cases cs with
    | nil => rfl
    | cons d ds => rw [ih htail (by rwa [List.getLast?_cons_cons] at hlast)]

/-! ## The source of a dataset -/

/-- `S3PublishSourceResolution`, and the block that is made of it -/
structure S3ConnectionEmit where
  bucket : String
  region : String
  roleArn : String
  keyPrefix : List Char
  serialId : String
  deriving DecidableEq

def prefixChar (c : Char) : Bool := c.isAlphanum || "!_.'()/-".toList.contains c

/-- `_validate_prefix` -/
def validatePrefix (rawPrefix : Option String) : Except String (List Char) := do
  let raw ← found rawPrefix "missing_prefix"
  let stripped := PyText.rstrip (· = '/') (PyText.strip raw.toList)
  check (stripped ≠ []) "bucket_root_prefix"
  check (stripped.head? ≠ some '/') "invalid_prefix"
  check (¬ ['.', '.'] <:+: stripped) "invalid_prefix"
  check (stripped.all fun c => c ∉ ['*', '?', '[', ']']) "invalid_prefix"
  check (stripped.all prefixChar) "invalid_prefix"
  return stripped

/-- `ROLE_ARN_RE.match`; `decimal` are the decimal digits of Unicode. -/
def roleArnMatches (decimal : Char → Bool) (roleArn : String) : Bool :=
  let s := roleArn.toList
  let account := (s.drop 13).take 12
  let path := s.drop 31
  s.take 13 = "arn:aws:iam::".toList ∧ account.length = 12 ∧ account.all decimal ∧
    (s.drop 25).take 6 = ":role/".toList ∧ path.takeWhile (· ≠ '\n') ≠ [] ∧
    (path.dropWhile (· ≠ '\n') = [] ∨ path.dropWhile (· ≠ '\n') = ['\n'])

section

variable (decimal : Char → Bool)

/-- `_validate_connection_resolution` -/
def validateConnectionResolution (connection : Connection) (objectKey serialId : String) :
    Except String S3ConnectionEmit := do
  check (connection.status = "verified") "connection_unverified"
  let roleArn ← found connection.roleArn "invalid_role_arn"
  check (roleArnMatches decimal roleArn) "invalid_role_arn"
  let keyPrefix ← validatePrefix connection.keyPrefix
  check (¬ ['.', '.'] <:+: objectKey.toList ∧ objectKey.toList.head? ≠ some '/')
    "invalid_object_key"
  check (keyPrefix ++ ['/'] <+: objectKey.toList) "object_key_outside_prefix"
  return ⟨connection.bucket, connection.region, roleArn, keyPrefix, serialId⟩

/-- A text that is there and is not empty. -/
def truthy (s : Option String) : Option String := s.filter (· ≠ "")

/-- `resolve_s3_publish_source`; `none` for a dataset that is not from S3. -/
def resolveS3PublishSource (w : World) (datasetId userId : String) (serialId : Option String) :
    Except String (Option S3ConnectionEmit) := do
  let source ← found (w.datasets datasetId) "dataset_lookup_failed"
  if source.sourceType ≠ some "s3" then
    return none
  else
    let connectionId ← found (truthy source.sourceConnectionId) "missing_source_connection_id"
    let objectKey ← found (truthy source.sourceObjectKey) "missing_source_object_key"
    let serialId ← found (truthy serialId) "missing_serial_id"
    let connection ← found ((w.connections connectionId).filter (·.ownerId = userId))
      "connection_unavailable"
    let block ← validateConnectionResolution decimal connection objectKey serialId
    return some block

structure VersionPublishRequest where
  vzDatasetId : String
  s3ConnectionId : Option String
  scanJobId : Option String
  versionLabel : String
  deriving DecidableEq

/-- The versions and the connection of `_build_publish_payload`. -/
structure PublishPayload where
  versions : List VersionPublishEmit
  s3Connection : Option S3ConnectionEmit
  deriving DecidableEq

/-- `publish_version_to_marketplace` and `publish_via_signed_proxy` up to the payload, of a
    dataset without a local directory: the version is read in one world, and the source
    in a later one. -/
def publishPayload (w w' : World) (body : VersionPublishRequest) (userId : String)
    (serialId : Option String) : Except (ℕ × String) PublishPayload := do
  let connectionId ← found (truthy body.s3ConnectionId)
    (422, "S3 connection and scan job are required")
  let scanJobId ← found (truthy body.scanJobId) (422, "S3 connection and scan job are required")
  let version ← versionEmitFromScan w connectionId scanJobId body.versionLabel userId
  let source ← (resolveS3PublishSource decimal w' body.vzDatasetId userId serialId).mapError
    fun reason => (409, reason)
  return ⟨[version], source⟩

end

/-! ## What the block says of the version -/

/-- The block is of the connection, as it is. -/
structure Describes (block : S3ConnectionEmit) (connection : Connection) : Prop where
  bucket : block.bucket = connection.bucket
  region : block.region = connection.region
  roleArn : some block.roleArn = connection.roleArn
  keyPrefix : validatePrefix connection.keyPrefix = .ok block.keyPrefix

/-- **The block and the version agree**: the block describes the connection of the scan,
    and the prefix of the version's objects is inside of that of the block. -/
def Agrees (w w' : World) (body : VersionPublishRequest) (block : S3ConnectionEmit) : Prop :=
  ∃ connectionId scanned connection versionPrefix,
    truthy body.s3ConnectionId = some connectionId ∧
    w.connections connectionId = some scanned ∧ w'.connections connectionId = some connection ∧
    Describes block connection ∧
    buildVersionPrefix (scanned.keyPrefix.getD "") body.versionLabel = .ok versionPrefix ∧
    block.keyPrefix ++ ['/'] <+: versionPrefix

/-- Two connections that read the same objects. -/
structure SameSource (connection connection' : Connection) : Prop where
  bucket : connection.bucket = connection'.bucket
  region : connection.region = connection'.region
  roleArn : connection.roleArn = connection'.roleArn
  keyPrefix : validatePrefix connection.keyPrefix = validatePrefix connection'.keyPrefix

/-- The connection of the scan is still there, the dataset is of a connection that reads
    the same objects, and the connection's prefix is written with single slashes. -/
def SourceOfScan (w' : World) (body : VersionPublishRequest) : Prop :=
  ∃ connectionId connection source sourceId other,
    truthy body.s3ConnectionId = some connectionId ∧
    w'.connections connectionId = some connection ∧
    w'.datasets body.vzDatasetId = some source ∧
    truthy source.sourceConnectionId = some sourceId ∧
    w'.connections sourceId = some other ∧ SameSource connection other ∧
    SingleSlashes (PyText.rstrip (· = '/') (connection.keyPrefix.getD "").toList)

theorem validatePrefix_ok {rawPrefix : Option String} {q : List Char}
    (h : validatePrefix rawPrefix = .ok q) : ∃ raw, rawPrefix = some raw ∧
      q = PyText.rstrip (· = '/') (PyText.strip raw.toList) ∧ q ≠ [] ∧ q.head? ≠ some '/' := by
  simp only [validatePrefix, Except.bind_eq_ok, found_ok, check_ok, Except.pure_eq_ok,
    Except.ok.injEq, exists_const] at h
  obtain ⟨raw, hraw, hne, hhead, -, -, -, rfl⟩ := h
  exact ⟨raw, hraw, rfl, hne, hhead⟩

theorem buildVersionPrefix_ok {parentPrefix versionLabel : String} {p : List Char}
    (h : buildVersionPrefix parentPrefix versionLabel = .ok p) :
    (∀ c ∈ parentPrefix.toList, ¬ isControlOrWhitespace c) ∧
      validVersionLabel versionLabel = true ∧
      p = canonicalParent parentPrefix ++ '/' :: (versionLabel.toList ++ ['/']) := by
  simp only [buildVersionPrefix, Except.bind_eq_ok, check_ok, Except.pure_eq_ok,
    Except.ok.injEq, exists_const] at h
  obtain ⟨hparent, -, hlabel, -, rfl⟩ := h
  rw [List.all_eq_true] at hparent
  exact ⟨fun c hc => of_decide_eq_true (hparent c hc), hlabel, rfl⟩

/-- Blanks are not in a prefix that a version is built in. -/
theorem strip_of_noSpace {s : List Char} (h : ∀ c ∈ s, ¬ isControlOrWhitespace c) :
    PyText.strip s = s := by
  have hspace : ∀ c ∈ s, PyText.isSpace c = false := by
    intro c hc
    by_contra hne
    exact h c hc (by simp [isControlOrWhitespace, hne])
  have hleft : PyText.lstrip PyText.isSpace s = s :=
    PyText.lstrip_eq fun c hc => hspace c (List.mem_of_head? hc)
  rw [PyText.strip, hleft]
  simpa using PyText.rstrip_append (s := []) (q := s) (p := PyText.isSpace) (by simp)
    fun c hc => hspace c (List.mem_of_getLast? hc)

/-- The canonical form of a prefix that is written with single slashes. -/
theorem canonicalParent_eq {parentPrefix : String} {q : List Char}
    (hq : q = PyText.rstrip (· = '/') parentPrefix.toList) (hne : q ≠ [])
    (hhead : q.head? ≠ some '/') (hsingle : SingleSlashes q) :
    canonicalParent parentPrefix = q := by
  obtain ⟨t, ht, hslashes, hlast⟩ := PyText.rstrip_eq (· = '/') parentPrefix.toList
  rw [← hq] at ht hlast
  have hlast' : ∀ c, q.getLast? = some c → c ≠ '/' := fun c hc => by simpa using hlast c hc
  have hcollapse : collapseSlashes parentPrefix.toList = q ++ collapseSlashes t := by
    rw [ht]
    exact collapse_append hsingle fun h => hlast' _ h rfl
  have hstay : PyText.lstrip (· = '/') (q ++ collapseSlashes t) = q ++ collapseSlashes t := by
    refine PyText.lstrip_eq fun c hc => ?_
    rw [List.head?_append_of_ne_nil _ hne] at hc
    by_contra hslash
    exact hhead (by simpa [hc] using hslash)
  rw [canonicalParent, hcollapse, hstay]
  exact PyText.rstrip_append (fun c hc => hslashes c (mem_collapse hc)) hlast

theorem singleSlashes_canonical (parentPrefix : String) :
    SingleSlashes (canonicalParent parentPrefix) := by
  have hcollapse := singleSlashes_collapse parentPrefix.toList
  obtain ⟨t, ht, -⟩ := PyText.rstrip_eq (· = '/')
    (PyText.lstrip (· = '/') (collapseSlashes parentPrefix.toList))
  have hl : SingleSlashes (PyText.lstrip (· = '/') (collapseSlashes parentPrefix.toList)) := by
    rw [← List.takeWhile_append_dropWhile (p := (· = '/'))
      (l := collapseSlashes parentPrefix.toList)] at hcollapse
    exact (List.isChain_append.1 hcollapse).2.1
  rw [ht] at hl
  exact (List.isChain_append.1 hl).1

theorem singleSlashes_of_noSlash {s : List Char} (h : ∀ c ∈ s, c ≠ '/') : SingleSlashes s := by
  induction s with
  | nil => exact .nil
  | cons c cs ih =>
    rw [SingleSlashes, List.isChain_cons]
    exact ⟨fun d _ hslash => h c List.mem_cons_self hslash.1,
      ih fun d hd => h d (List.mem_cons_of_mem _ hd)⟩

/-- The prefix of a version has single slashes. -/
theorem singleSlashes_version {parentPrefix versionLabel : String} {p : List Char}
    (h : buildVersionPrefix parentPrefix versionLabel = .ok p) : SingleSlashes p := by
  obtain ⟨-, hlabel, rfl⟩ := buildVersionPrefix_ok h
  obtain ⟨t, -, -, hlast⟩ := PyText.rstrip_eq (· = '/')
    (PyText.lstrip (· = '/') (collapseSlashes parentPrefix.toList))
  have hchars : ∀ c ∈ versionLabel.toList, c ≠ '/' := by
    rintro c hc rfl
    simp only [validVersionLabel, decide_eq_true_eq, List.all_eq_true] at hlabel
    exact absurd (hlabel.2.2 _ hc) (by decide)
  have hlabelne : versionLabel.toList ≠ [] := by
    intro hnil
    simp only [validVersionLabel, decide_eq_true_eq] at hlabel
    have hlen := hlabel.1
    rw [← String.length_toList, hnil] at hlen
    exact absurd hlen (by decide)
  refine List.isChain_append.2 ⟨singleSlashes_canonical parentPrefix, ?_, ?_⟩
  · rw [List.isChain_cons]
    constructor
    · intro d hd hslash
      rw [List.head?_append_of_ne_nil _ hlabelne] at hd
      exact hchars d (List.mem_of_head? hd) hslash.2
    · refine List.isChain_append.2 ⟨singleSlashes_of_noSlash hchars, .singleton _, ?_⟩
      intro d hd _ _ hslash
      exact hchars d (List.mem_of_getLast? hd) hslash.1
  · intro d hd _ _ hslash
    exact absurd hslash.1 (by simpa using hlast d hd)

/-- **A version's prefix** is inside of the prefix of its connection just when that is
    written with single slashes. -/
theorem versionPrefix_inside_iff {rawPrefix : Option String} {versionLabel : String}
    {p q : List Char} (hp : buildVersionPrefix (rawPrefix.getD "") versionLabel = .ok p)
    (hq : validatePrefix rawPrefix = .ok q) :
    q ++ ['/'] <+: p ↔ SingleSlashes (PyText.rstrip (· = '/') (rawPrefix.getD "").toList) := by
  obtain ⟨raw, rfl, hq, hne, hhead⟩ := validatePrefix_ok hq
  obtain ⟨hspace, -, hp'⟩ := buildVersionPrefix_ok hp
  rw [Option.getD_some] at hspace
  rw [strip_of_noSpace hspace] at hq
  rw [Option.getD_some, ← hq]
  constructor
  · rintro ⟨t, ht⟩
    have hsingle := singleSlashes_version hp
    rw [← ht, List.append_assoc] at hsingle
    exact (List.isChain_append.1 hsingle).1
  · intro hsingle
    rw [hp', Option.getD_some, canonicalParent_eq hq hne hhead hsingle]
    exact ⟨versionLabel.toList ++ ['/'], by simp⟩

/-- **A version's prefix is the connection's prefix, a slash, the label and a slash**
    just when the connection's prefix is written with single slashes. -/
theorem versionPrefix_eq_iff {rawPrefix : Option String} {versionLabel : String}
    {p q : List Char} (hq : validatePrefix rawPrefix = .ok q)
    (hp : buildVersionPrefix (rawPrefix.getD "") versionLabel = .ok p) :
    (p = q ++ '/' :: (versionLabel.toList ++ ['/']) ∧ q ++ ['/'] <+: p) ↔
      SingleSlashes (PyText.rstrip (· = '/') (rawPrefix.getD "").toList) := by
  constructor
  · rintro ⟨-, hinside⟩
    exact (versionPrefix_inside_iff hp hq).1 hinside
  · intro hsingle
    refine ⟨?_, (versionPrefix_inside_iff hp hq).2 hsingle⟩
    obtain ⟨raw, rfl, hq, hne, hhead⟩ := validatePrefix_ok hq
    obtain ⟨hspace, -, rfl⟩ := buildVersionPrefix_ok hp
    rw [Option.getD_some] at hspace hsingle ⊢
    rw [strip_of_noSpace hspace] at hq
    rw [canonicalParent_eq hq hne hhead (hq ▸ hsingle)]

theorem versionPrefix_eq_iff_data :
    ("data/v1/".toList = "data".toList ++ '/' :: ("v1".toList ++ ['/']) ∧
        "data".toList ++ ['/'] <+: "data/v1/".toList) ↔
      SingleSlashes (PyText.rstrip (· = '/') "data/".toList) := by
  have haccepted : validatePrefix (some "data/") = .ok "data".toList := by decide
  have hversion : buildVersionPrefix ((some "data/").getD "") "v1" = .ok "data/v1/".toList := by
    decide
  exact versionPrefix_eq_iff haccepted hversion

/-- A prefix with two slashes is accepted twice, and the version lies elsewhere. -/
theorem versionPrefix_elsewhere : ∃ p q, validatePrefix (some "a//b") = .ok q ∧
    buildVersionPrefix "a//b" "v1" = .ok p ∧ p ≠ q ++ '/' :: ("v1".toList ++ ['/']) ∧
    ¬ q ++ ['/'] <+: p :=
  ⟨"a/b/v1/".toList, "a//b".toList, by decide, by decide, by decide, by decide⟩

/-! ### Connections over a run -/

/-- A connection keeps its prefix for as long as it is there. -/
structure KeepsPrefixes (w w' : World) : Prop where
  drawn : ∀ c ∈ w.drawn, c ∈ w'.drawn
  keyPrefix : ∀ c ∈ w.drawn, ∀ connection', w'.connections c = some connection' →
    ∃ connection, w.connections c = some connection ∧
      connection.keyPrefix = connection'.keyPrefix

theorem KeepsPrefixes.trans {w w' w'' : World} (h : KeepsPrefixes w w')
    (h' : KeepsPrefixes w' w'') : KeepsPrefixes w w'' := by
  refine ⟨fun c hc => h'.drawn c (h.drawn c hc), ?_⟩
  intro c hc connection'' hconnection''
  obtain ⟨connection', hconnection', heq'⟩ :=
    h'.keyPrefix c (h.drawn c hc) connection'' hconnection''
  obtain ⟨connection, hconnection, heq⟩ := h.keyPrefix c hc connection' hconnection'
  exact ⟨connection, hconnection, heq.trans heq'⟩

theorem KeepsPrefixes.of_same {w w' : World} (hc : w'.connections = w.connections)
    (hd : w'.drawn = w.drawn) : KeepsPrefixes w w' := by
  refine ⟨fun c h => hd ▸ h, ?_⟩
  intro c _ connection' h
  rw [hc] at h
  exact ⟨connection', h, rfl⟩

theorem putConnection_connections {w : World} {c i : String} {connection connection' : Connection} :
    (w.putConnection c connection).connections i = some connection' ↔
      (i = c ∧ connection = connection') ∨ (i ≠ c ∧ w.connections i = some connection') := by
  by_cases h : i = c
  · simp [World.putConnection, h]
  · simp [World.putConnection, h]

/-- The ids of connections have been drawn. -/
def ConnectionsDrawn (w : World) : Prop :=
  ∀ c connection, w.connections c = some connection → c ∈ w.drawn

theorem keepsPrefixes_put {w : World} {c : String} {connection connection' : Connection}
    (hdrawn : ConnectionsDrawn w) (hc : w.connections c = some connection)
    (hsame : connection.keyPrefix = connection'.keyPrefix) :
    ConnectionsDrawn (w.putConnection c connection') ∧
      KeepsPrefixes w (w.putConnection c connection') := by
  refine ⟨?_, fun _ h => h, ?_⟩
  · intro i d hd
    rcases putConnection_connections.1 hd with ⟨rfl, -⟩ | ⟨-, hd⟩
    · exact hdrawn _ _ hc
    · exact hdrawn i d hd
  · intro i _ d hd
    rcases putConnection_connections.1 hd with ⟨rfl, rfl⟩ | ⟨-, hd⟩
    · exact ⟨connection, hc, hsame⟩
    · exact ⟨d, hd, rfl⟩

theorem keepsPrefixes_step {contentTypeForKey : String → String} {w w' : World} {e : Event}
    (hw : ConnectionsDrawn w) (h : WorldStep contentTypeForKey w e w') :
    ConnectionsDrawn w' ∧ KeepsPrefixes w w' := by
  cases h with
  | @createConnection c connection hfresh =>
    refine ⟨?_, fun _ h => List.mem_cons_of_mem _ h, ?_⟩
    · intro i d hd
      rcases putConnection_connections.1 hd with ⟨rfl, -⟩ | ⟨-, hd⟩
      · exact List.mem_cons_self
      · exact List.mem_cons_of_mem _ (hw i d hd)
    · intro i hi d hd
      rcases putConnection_connections.1 hd with ⟨rfl, -⟩ | ⟨-, hd⟩
      · exact absurd hi hfresh
      · exact ⟨d, hd, rfl⟩
  | setRoleArn hc => exact keepsPrefixes_put hw hc rfl
  | verify hc => exact keepsPrefixes_put hw hc rfl
  | @deleteConnection c connection hc =>
    have hkept : ∀ i d, (w.deleteConnection c).connections i = some d →
        w.connections i = some d := by
      intro i d hd
      by_cases hi : i = c
      · simp [World.deleteConnection, hi] at hd
      · simpa [World.deleteConnection, hi] using hd
    exact ⟨fun i d hd => hw i d (hkept i d hd), fun _ h => h,
      fun i _ d hd => ⟨d, hkept i d hd, rfl⟩⟩
  | dataset => exact ⟨hw, .of_same rfl rfl⟩
  | createScan => exact ⟨hw, .of_same rfl rfl⟩
  | page => exact ⟨hw, .of_same rfl rfl⟩
  | complete => exact ⟨hw, .of_same rfl rfl⟩
  | fail => exact ⟨hw, .of_same rfl rfl⟩

/-! ### The request -/

section

variable {decimal : Char → Bool}

theorem validateConnectionResolution_ok {connection : Connection} {objectKey serialId : String}
    {block : S3ConnectionEmit}
    (h : validateConnectionResolution decimal connection objectKey serialId = .ok block) :
    Describes block connection := by
  simp only [validateConnectionResolution, Except.bind_eq_ok, found_ok, check_ok,
    Except.pure_eq_ok, Except.ok.injEq, exists_const] at h
  obtain ⟨-, roleArn, hrole, -, keyPrefix, hkey, -, -, rfl⟩ := h
  exact ⟨rfl, rfl, hrole.symm, hkey⟩

theorem resolveS3PublishSource_ok {w : World} {datasetId userId : String}
    {serialId : Option String} {block : S3ConnectionEmit} :
    resolveS3PublishSource decimal w datasetId userId serialId = .ok (some block) ↔
      ∃ source, w.datasets datasetId = some source ∧ source.sourceType = some "s3" ∧
      ∃ connectionId, truthy source.sourceConnectionId = some connectionId ∧
      ∃ objectKey, truthy source.sourceObjectKey = some objectKey ∧
      ∃ serial, truthy serialId = some serial ∧
      ∃ connection, w.connections connectionId = some connection ∧
        connection.ownerId = userId ∧
        validateConnectionResolution decimal connection objectKey serial = .ok block := by
  simp only [resolveS3PublishSource, Except.bind_eq_ok, found_ok]
  refine exists_congr fun source => and_congr_right fun _ => ?_
  by_cases htype : source.sourceType = some "s3"
  · simp only [htype, ne_eq, not_true_eq_false, if_false, true_and, Except.bind_eq_ok, found_ok,
      Option.filter_eq_some_iff, decide_eq_true_eq, Except.pure_eq_ok, Except.ok.injEq,
      Option.some.injEq, exists_eq_right, and_assoc]
  · simp [htype]

theorem publishPayload_ok {w w' : World} {body : VersionPublishRequest} {userId : String}
    {serialId : Option String} {payload : PublishPayload}
    (h : publishPayload decimal w w' body userId serialId = .ok payload) :
    ∃ connectionId scanJobId version,
      truthy body.s3ConnectionId = some connectionId ∧
      versionEmitFromScan w connectionId scanJobId body.versionLabel userId = .ok version ∧
      payload.versions = [version] ∧
      resolveS3PublishSource decimal w' body.vzDatasetId userId serialId =
        .ok payload.s3Connection := by
  simp only [publishPayload, Except.bind_eq_ok, found_ok, Except.mapError_ok, Except.pure_eq_ok,
    Except.ok.injEq] at h
  obtain ⟨connectionId, hid, scanJobId, -, version, hversion, source, hsource, rfl⟩ := h
  exact ⟨connectionId, scanJobId, version, hid, hversion, rfl, hsource⟩

/-- **The block of a version publish** describes the connection of the scan, with the
    version's prefix inside, just when the dataset states a connection that reads the same
    objects and the prefix is written with single slashes. -/
theorem block_agrees_iff {contentTypeForKey : String → String} {es es' : List Event}
    {w w' : World} {body : VersionPublishRequest} {userId : String} {serialId : Option String}
    {payload : PublishPayload} {block : S3ConnectionEmit}
    (h : Run (WorldStep contentTypeForKey) .start es w)
    (h' : Run (WorldStep contentTypeForKey) w es' w')
    (hpayload : publishPayload decimal w w' body userId serialId = .ok payload)
    (hblock : payload.s3Connection = some block) :
    Agrees w w' body block ↔ SourceOfScan w' body := by
  have hdrawn : ConnectionsDrawn w :=
    h.invariant (fun hw hstep => (keepsPrefixes_step hw hstep).1) (fun _ _ h => by cases h)
  have hkeeps : KeepsPrefixes w w' :=
    h'.relates keepsPrefixes_step (fun _ => .of_same rfl rfl) (fun h₁ h₂ => h₁.trans h₂) hdrawn
  obtain ⟨connectionId, scanJobId, version, hid, hversion, -, hsource⟩ :=
    publishPayload_ok hpayload
  rw [hblock] at hsource
  obtain ⟨source, hdataset, -, sourceId, hsourceId, objectKey, -, serial, -, other, hother, -,
    hresolution⟩ := resolveS3PublishSource_ok.1 hsource
  have hdescribes := validateConnectionResolution_ok hresolution
  obtain ⟨scanned, hscanned, -, p, hp, -⟩ := versionEmitFromScan_ok.1 hversion
  constructor
  · rintro ⟨connectionId', scanned', connection, p', hid', hscanned', hconnection, hthis, hp',
      hinside⟩
    cases hid.symm.trans hid'
    cases hscanned.symm.trans hscanned'
    obtain ⟨_, hscanned'', hsame⟩ :=
      hkeeps.keyPrefix connectionId (hdrawn _ _ hscanned) connection hconnection
    cases hscanned.symm.trans hscanned''
    refine ⟨connectionId, connection, source, sourceId, other, hid, hconnection, hdataset,
      hsourceId, hother, ?_, ?_⟩
    · exact ⟨hthis.bucket.symm.trans hdescribes.bucket, hthis.region.symm.trans hdescribes.region,
        hthis.roleArn.symm.trans hdescribes.roleArn,
        hthis.keyPrefix.trans hdescribes.keyPrefix.symm⟩
    · rw [← hsame]
      exact (versionPrefix_inside_iff hp' (hsame ▸ hthis.keyPrefix)).1 hinside
  · rintro ⟨connectionId', connection, source', sourceId', other', hid', hconnection, hdataset',
      hsourceId', hother', hsame, hsingle⟩
    cases hid.symm.trans hid'
    cases hdataset.symm.trans hdataset'
    cases hsourceId.symm.trans hsourceId'
    cases hother.symm.trans hother'
    obtain ⟨_, hscanned', hkey⟩ :=
      hkeeps.keyPrefix connectionId (hdrawn _ _ hscanned) connection hconnection
    cases hscanned.symm.trans hscanned'
    have hthis : Describes block connection :=
      ⟨hdescribes.bucket.trans hsame.bucket.symm, hdescribes.region.trans hsame.region.symm,
        hdescribes.roleArn.trans hsame.roleArn.symm,
        hsame.keyPrefix.trans hdescribes.keyPrefix⟩
    refine ⟨connectionId, scanned, connection, p, hid, hscanned, hconnection, hthis, hp, ?_⟩
    rw [versionPrefix_inside_iff hp (hkey ▸ hthis.keyPrefix), hkey]
    exact hsingle

end

/-! ### A dataset of another connection -/

/-- The decimal digits of the examples. -/
def asciiDigit (c : Char) : Bool := c.isDigit

def sellerRole : String := "arn:aws:iam::123456789012:role/r"

def otherConnection : Connection :=
  ⟨"user", "other-bucket", "region", none, some "other", "onboarding"⟩

def versionRequest (datasetId : String) : VersionPublishRequest := ⟨datasetId, "c", "s1", "v1"⟩

/-- A scan of one connection, and a dataset of it and one of another connection. -/
theorem twoConnections : ∃ es w version, Run (WorldStep binaryType) .start es w ∧
    versionEmitFromScan w "c" "s1" "v1" "user" = .ok version ∧
    w.connections "c" = some { bucketConnection with
      roleArn := some sellerRole, status := "verified" } ∧
    w.connections "o" = some { otherConnection with
      roleArn := some sellerRole, status := "verified" } ∧
    w.datasets "own" = some ⟨some "s3", some "c", some "data/v1/a"⟩ ∧
    w.datasets "foreign" = some ⟨some "s3", some "o", some "other/a"⟩ := by
  obtain ⟨w, hrun, hconnection, ⟨stats, hjob⟩, -, hrows, -, hdrawn⟩ := scanned
  have hnew : "o" ∉ w.drawn := by
    rw [hdrawn]
    decide
  have hmore : Run (WorldStep binaryType) w
      [.setRoleArn "c" sellerRole, .verify "c" true, .createConnection "o" otherConnection,
        .setRoleArn "o" sellerRole, .verify "o" true,
        .dataset "own" (some ⟨some "s3", some "c", some "data/v1/a"⟩),
        .dataset "foreign" (some ⟨some "s3", some "o", some "other/a"⟩)] _ :=
    .cons (.setRoleArn hconnection) <| .cons (.verify rfl) <| .cons (.createConnection hnew) <|
    .cons (.setRoleArn rfl) <| .cons (.verify rfl) <| .cons .dataset <| .cons .dataset .nil
  refine ⟨_, _, _, hrun.append hmore, @scanned_version _ _ _ (w.scanRows "s1") rfl rfl rfl hjob
    rfl rfl rfl ?_ ?_ ?_, rfl, rfl, rfl, rfl⟩
  all_goals
    have hscan : w.scanRows "s1" = [rowOf "s1" firstItem, rowOf "s1" secondItem] := by
      rw [World.scanRows, hrows]
      decide +kernel
    rw [hscan]
    decide

theorem publishPayload_of {w : World} {datasetId : String} {version : VersionPublishEmit}
    {source : Option S3ConnectionEmit}
    (hversion : versionEmitFromScan w "c" "s1" "v1" "user" = .ok version)
    (hsource : resolveS3PublishSource asciiDigit w datasetId "user" (some "serial") = .ok source) :
    publishPayload asciiDigit w w (versionRequest datasetId) "user" (some "serial") =
      .ok ⟨[version], source⟩ := by
  have hc : truthy (some "c") = some "c" := by decide
  have hs : truthy (some "s1") = some "s1" := by decide
  simp only [publishPayload, versionRequest, hc, hs, found, Except.ok_bind, hversion, hsource,
    Except.mapError, Except.pure_eq_ok]

/-- The block of the dataset of the scanned connection agrees. -/
theorem block_agrees_iff_own : ∃ w payload block,
    publishPayload asciiDigit w w (versionRequest "own") "user" (some "serial") = .ok payload ∧
      payload.s3Connection = some block ∧ Agrees w w (versionRequest "own") block := by
  obtain ⟨es, w, version, hrun, hversion, hconnection, -, hdataset, -⟩ := twoConnections
  have hsource : resolveS3PublishSource asciiDigit w "own" "user" (some "serial") =
      .ok (some ⟨"bucket", "region", sellerRole, "data".toList, "serial"⟩) := by
    rw [resolveS3PublishSource_ok]
    exact ⟨_, hdataset, rfl, "c", by decide, "data/v1/a", by decide, "serial", by decide, _,
      hconnection, rfl, by decide +kernel⟩
  have hpayload := publishPayload_of hversion hsource
  refine ⟨w, _, _, hpayload, rfl, ?_⟩
  rw [block_agrees_iff hrun .nil hpayload rfl]
  exact ⟨"c", _, _, "c", _, by decide, hconnection, hdataset, by decide, hconnection,
    ⟨rfl, rfl, rfl, rfl⟩, by decide +kernel⟩

/-- The version is of the scan of one connection, and the block of another. -/
theorem block_of_another_connection : ∃ es w payload block,
    Run (WorldStep binaryType) .start es w ∧
      publishPayload asciiDigit w w (versionRequest "foreign") "user" (some "serial") =
        .ok payload ∧
      payload.s3Connection = some block ∧ ¬ Agrees w w (versionRequest "foreign") block := by
  obtain ⟨es, w, version, hrun, hversion, hconnection, hother, -, hdataset⟩ := twoConnections
  have hsource : resolveS3PublishSource asciiDigit w "foreign" "user" (some "serial") =
      .ok (some ⟨"other-bucket", "region", sellerRole, "other".toList, "serial"⟩) := by
    rw [resolveS3PublishSource_ok]
    exact ⟨_, hdataset, rfl, "o", by decide, "other/a", by decide, "serial", by decide, _,
      hother, rfl, by decide +kernel⟩
  refine ⟨es, w, _, _, hrun, publishPayload_of hversion hsource, rfl, ?_⟩
  rintro ⟨connectionId, scanned, connection, versionPrefix, hid, -, hthis, hdescribes, -⟩
  have hc : truthy (some "c") = some connectionId := hid
  have hc' : connectionId = "c" := (Option.some.inj (hc.symm.trans (by decide)))
  rw [hc', hconnection] at hthis
  cases hthis
  exact absurd hdescribes.bucket (by decide)

end S3

end AimData
