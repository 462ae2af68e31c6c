/-
  The endpoint that publishes a version of a directory dataset under a requested label.

  The snapshot goes on with a pending publish under that publish's own label, whatever
  label is requested; the answer repeats the requested one.
-/
import AimData.Dataset.Record
import AimData.Publish.LocalPublish
import AimData.S3.Scan

namespace AimData

namespace Publish

open Dataset (truthy)

/-! ## Answers of the marketplace -/

/-- `version_label` of a request: `min_length=1, max_length=64` -/
structure RequestedLabel where
  value : String
  length : 1 ≤ value.length ∧ value.length ≤ 64

/-- A dictionary. -/
abbrev Fields := List (String × Json)

def firstLabelled (label : String) : List Json → Except String Fields
  | [] => .ok []
  | .obj version :: items =>
    if version.lookup "version_label" = some (.str label) then .ok version
    else firstLabelled label items
  | _ :: _ => .error "AttributeError"

/-- `_response_version` -/
def responseVersion (data : Fields) (label : String) : Except String Fields :=
  match data.lookup "version" with
  | some (.obj version) => .ok version
  | _ => match data.lookup "versions" with
    | none | some (.str "") | some (.obj []) => .ok []
    | some (.arr items) => firstLabelled label items
    | some (.str _) | some (.obj _) => .error "AttributeError"
    | some _ => .error "TypeError"

/-- `dict.update` -/
def update (d r : Fields) : Fields := r.foldl (fun d f => Json.setField f.1 f.2 d) d

/-- What a call meets: the answers to its publish requests, `none` for a request that fails;
    whether the record of the publish is written; what the uploads of the members and of
    the samples return; and whether the last progress is written. -/
structure Replies where
  publish : ℕ → Option Fields
  recorded : Bool
  chunks : Option Fields
  samples : Option (Option Fields)
  progressed : Bool

def answered (o : Option Fields) (error : String) : Except String Fields :=
  match o with
  | some data => .ok data
  | none => .error error

/-- The publish is sent again while the answer assigns no identifier. -/
def assigned (label : String) (replies : Replies) : ℕ → ℕ → Fields →
    Except String (Fields × Fields)
  | 0, _, data => do
    let version ← responseVersion data label
    return (data, version)
  | retries + 1, attempt, data => do
    let version ← responseVersion data label
    if truthy (version.lookup "version_id") then return (data, version)
    else
      let data ← answered (replies.publish (attempt + 1)) "local_publish_retry_failed"
      assigned label replies retries (attempt + 1) data

/-- The upload of the members, while the version waits for them -/
def chunksUploaded (replies : Replies) (version : Fields) : Except String Fields :=
  if version.lookup "status" = some (.str pendingMembers) then do
    let result ← answered replies.chunks "pending_members"
    return update version result
  else .ok version

/-- The upload of the samples, while the version waits for them -/
def samplesUploaded (replies : Replies) (version : Fields) : Except String Fields :=
  if version.lookup "status" = some (.str pendingMembers) then
    match replies.samples with
    | none => .error "pending_members"
    | some none => .ok version
    | some (some result) => .ok (update version result)
  else .ok version

def proxyStatus : Option Json → Json
  | some (.str "active") => .str "published"
  | some (.str "quarantined") => .str "quarantined"
  | some (.str "superseded") => .str "superseded"
  | _ => .str pendingMembers

section

variable (settings : Settings) (w : World) (rootPath : String) (directory : List DirectoryMember)

/-- `publish_via_signed_proxy` for a directory dataset: the snapshot whose version the
    payload holds, and what is returned. -/
def publishViaSignedProxy (label : String) (replies : Replies) :
    Except String (Local × Fields) := do
  let sent ← localPublishSnapshot settings w.progress w.retained rootPath (some label) directory
  let data ← answered (replies.publish 0) "ai.market"
  let (data, version) ← assigned sent.versionLabel replies 2 0 data
  S3.check (truthy (version.lookup "version_id") ∧ truthy (data.lookup "listing_id"))
    "local_publish_missing_version_id; retry publish"
  S3.check replies.recorded "published_manifest_conflict"
  let version ← chunksUploaded replies version
  let version ← samplesUploaded replies version
  S3.check replies.progressed "local_publish_progress_missing"
  return (sent, update data
    [("version", .obj version), ("status", proxyStatus (version.lookup "status"))])

/-- `MarketplaceVersionPublishResponse` -/
structure VersionResponse where
  status : String
  versionId : Option String
  listingId : Option String
  marketplaceUrl : Option String
  versionLabel : String
  versionStatus : Option String
  quarantineReason : Option String

/-- A field `Optional[str]` of a response -/
def optionalStr : Option Json → Except String (Option String)
  | none | some .null => .ok none
  | some (.str s) => .ok (some s)
  | some _ => .error "ResponseValidationError"

/-- The version of what the proxy returns. -/
def versionData (data : Fields) (label : String) : Except String Fields :=
  let version := match data.lookup "version" with
    | some (.obj version) => version
    | _ => []
  let versions := match data.lookup "versions" with
    | some (.arr versions) => versions
    | _ => []
  match version, versions with
  | [], first :: rest => do
    let found ← firstLabelled label (first :: rest)
    match found, first with
    | [], .obj version => .ok version
    | found, _ => .ok found
  | version, _ => .ok version

/-- `publish_version_to_marketplace` for a directory dataset: what was sent, and the
    response. -/
def publishVersionToMarketplace (requested : RequestedLabel) (replies : Replies) :
    Except String (Local × VersionResponse) := do
  let version ←
    localPublishSnapshot settings w.progress w.retained rootPath (some requested.value) directory
  let (sent, data) ←
    publishViaSignedProxy settings w rootPath directory version.versionLabel replies
  let version ← versionData data requested.value
  let status ← optionalStr (some ((data.lookup "status").getD (.str "published")))
  let versionId ← optionalStr (version.lookup "version_id")
  let listingId ← optionalStr (data.lookup "listing_id")
  let marketplaceUrl ← optionalStr (data.lookup "marketplace_url")
  let versionStatus ← optionalStr (version.lookup "status")
  let quarantineReason ← optionalStr (version.lookup "quarantine_reason")
  match status with
  | none => .error "ResponseValidationError"
  | some status => return (sent, ⟨status, versionId, listingId, marketplaceUrl, requested.value,
      versionStatus, quarantineReason⟩)

end

/-! ## Dictionaries -/

theorem mem_of_lookup {key : String} {v : Json} {d : Fields} (h : d.lookup key = some v) :
    (key, v) ∈ d := by
  induction d with
  | nil => cases h
  | cons f d ih =>
    rw [List.lookup_cons] at h
    by_cases hkey : key = f.1
    · simp only [hkey, beq_self_eq_true, Option.some.injEq] at h
      rw [hkey, ← h]
      exact List.mem_cons_self
    · rw [beq_eq_false_iff_ne.2 hkey] at h
      exact List.mem_cons_of_mem _ (ih h)

theorem lookup_setField (key k : String) (v : Json) (d : Fields) :
    (Json.setField k v d).lookup key = if key = k then some v else d.lookup key := by
  induction d with
  | nil =>
    by_cases hkey : key = k
    · simp [Json.setField, hkey]
    · simp [Json.setField, hkey]
  | cons f d ih =>
    obtain ⟨k', v'⟩ := f
    rw [Json.setField]
    by_cases hk : k' = k
    · subst hk
      by_cases hkey : key = k'
      · simp [hkey]
      · simp [List.lookup_cons, beq_eq_false_iff_ne.2 hkey, hkey]
    · rw [if_neg hk, List.lookup_cons, List.lookup_cons, ih]
      by_cases hkey : key = k'
      · simp [hkey, hk]
      · simp [beq_eq_false_iff_ne.2 hkey]

theorem mem_setField_or {k : String} {v : Json} {d : Fields} {f : String × Json}
    (h : f ∈ Json.setField k v d) : f = (k, v) ∨ f ∈ d := by
  induction d with
  | nil => exact Or.inl (by simpa [Json.setField] using h)
  | cons g d ih =>
    rw [Json.setField] at h
    split_ifs at h
    · rcases List.mem_cons.1 h with h | h
      · exact Or.inl h
      · exact Or.inr (List.mem_cons_of_mem _ h)
    · rcases List.mem_cons.1 h with rfl | h
      · exact Or.inr List.mem_cons_self
      · exact (ih h).imp id (List.mem_cons_of_mem _)

/-- An update holds what it is made of. -/
theorem mem_update {d r : Fields} {f : String × Json} (h : f ∈ update d r) : f ∈ d ∨ f ∈ r := by
  induction r generalizing d with
  | nil => exact Or.inl h
  | cons g r ih =>
    rcases ih h with h | h
    · rcases mem_setField_or h with rfl | h
      · exact Or.inr List.mem_cons_self
      · exact Or.inl h
    · exact Or.inr (List.mem_cons_of_mem _ h)

theorem update_ne_nil {d r : Fields} (h : d ≠ []) : update d r ≠ [] := by
  induction r generalizing d with
  | nil => exact h
  | cons g r ih =>
    refine ih ?_
    obtain ⟨k, v⟩ := g
    rcases d with _ | ⟨⟨k', v'⟩, d⟩
    · exact absurd rfl h
    · change Json.setField k v ((k', v') :: d) ≠ []
      rw [Json.setField]
      split_ifs
      · exact List.cons_ne_nil _ _
      · exact List.cons_ne_nil _ _

/-! ## What a call reports -/

/-- **The marketplace names versions by their labels**: an answer to a publish holds the
    version sent, or versions with their labels; the answer to an upload is about the
    version uploaded to. -/
structure NamesVersions (labelOf : String → String) (sent : String) (replies : Replies) :
    Prop where
  version : ∀ n data version id, replies.publish n = some data →
    ("version", .obj version) ∈ data → ("version_id", .str id) ∈ version → labelOf id = sent
  versions : ∀ n data l version label id, replies.publish n = some data →
    ("versions", .arr l) ∈ data → .obj version ∈ l → ("version_label", .str label) ∈ version →
    ("version_id", .str id) ∈ version → labelOf id = label
  uploads : ∀ result id, replies.chunks = some result ∨ replies.samples = some (some result) →
    ("version_id", .str id) ∈ result → labelOf id = sent

/-- The response of a call: its label is the requested one, that of the version sent, and
    that of the version whose identifier it holds. -/
structure ReportsSent (labelOf : String → String) (requested : RequestedLabel) (sent : Local)
    (response : VersionResponse) : Prop where
  requested : sent.versionLabel = requested.value
  sent : response.versionLabel = sent.versionLabel
  id : ∀ id, response.versionId = some id → labelOf id = response.versionLabel

/-- No publish of another label is pending. -/
def NonePendingElsewhere (w : World) (requested : RequestedLabel) : Prop :=
  ∀ p r, resumable w.progress w.retained = some (p, r) → p.versionLabel = requested.value

section

variable {settings : Settings} {w : World} {rootPath : String}
  {directory : List DirectoryMember} {labelOf : String → String} {replies : Replies}

/-- The label of a snapshot: that of the pending publish, or else the one asked for. -/
theorem snapshot_label {label : String} {l : Local}
    (h : localPublishSnapshot settings w.progress w.retained rootPath (some label) directory =
      .ok l) :
    (∃ p r, resumable w.progress w.retained = some (p, r) ∧ l.versionLabel = p.versionLabel) ∨
      (resumable w.progress w.retained = none ∧ l.versionLabel = label) := by
  rw [localPublishSnapshot] at h
  rcases hres : resumable w.progress w.retained with _ | ⟨p, r⟩
  · right
    rw [hres] at h
    obtain ⟨l', hl', h⟩ := Except.bind_eq_ok.1 h
    obtain ⟨-, -, h⟩ := Except.bind_eq_ok.1 h
    cases h
    rw [freshLocal] at hl'
    split_ifs at hl'
    cases hl'
    exact ⟨rfl, rfl⟩
  · left
    rw [hres] at h
    obtain ⟨l', hl', h⟩ := Except.bind_eq_ok.1 h
    obtain ⟨-, -, h⟩ := Except.bind_eq_ok.1 h
    cases h
    cases hl'
    exact ⟨p, r, rfl, rfl⟩

theorem firstLabelled_ok {label : String} {l : List Json} {version : Fields}
    (h : firstLabelled label l = .ok version) :
    version = [] ∨ (.obj version ∈ l ∧ ("version_label", .str label) ∈ version) := by
  induction l with
  | nil =>
    cases h
    exact Or.inl rfl
  | cons item items ih =>
    cases item with
    | obj d =>
      rw [firstLabelled] at h
      split_ifs at h with hlabel
      · cases h
        exact Or.inr ⟨List.mem_cons_self, mem_of_lookup hlabel⟩
      · exact (ih h).imp id fun h => ⟨List.mem_cons_of_mem _ h.1, h.2⟩
    | _ => cases h

theorem responseVersion_names {label id : String} {n : ℕ} {data version : Fields}
    (hnames : NamesVersions labelOf label replies) (hdata : replies.publish n = some data)
    (h : responseVersion data label = .ok version) (hid : ("version_id", .str id) ∈ version) :
    labelOf id = label := by
  rw [responseVersion] at h
  split at h
  case h_1 v hv =>
    cases h
    exact hnames.version n data _ id hdata (mem_of_lookup hv) hid
  case h_2 =>
    split at h
    case h_4 l hl =>
      rcases firstLabelled_ok h with rfl | ⟨hmem, hlabel⟩
      · cases hid
      · exact hnames.versions n data l version label id hdata (mem_of_lookup hl) hmem hlabel hid
    all_goals cases h
    all_goals cases hid

theorem answered_ok {o : Option Fields} {error : String} {data : Fields}
    (h : answered o error = .ok data) : o = some data := by
  cases o with
  | none => cases h
  | some d =>
    cases h
    rfl

theorem assigned_ok {label : String} {retries attempt : ℕ} {data data' version : Fields}
    (hdata : replies.publish attempt = some data)
    (h : assigned label replies retries attempt data = .ok (data', version)) :
    ∃ n, replies.publish n = some data' ∧ responseVersion data' label = .ok version := by
  induction retries generalizing attempt data with
  | zero =>
    obtain ⟨v, hv, h⟩ := Except.bind_eq_ok.1 h
    cases h
    exact ⟨attempt, hdata, hv⟩
  | succ retries ih =>
    obtain ⟨v, hv, h⟩ := Except.bind_eq_ok.1 h
    split_ifs at h
    · cases h
      exact ⟨attempt, hdata, hv⟩
    · obtain ⟨next, hnext, h⟩ := Except.bind_eq_ok.1 h
      exact ih (answered_ok hnext) h

/-- A version whose identifier, if it has one, names the version sent. -/
def Named (labelOf : String → String) (label : String) (version : Fields) : Prop :=
  version ≠ [] ∧ ∀ id, ("version_id", .str id) ∈ version → labelOf id = label

theorem Named.update {label : String} {version result : Fields}
    (hnames : NamesVersions labelOf label replies)
    (hresult : replies.chunks = some result ∨ replies.samples = some (some result))
    (h : Named labelOf label version) : Named labelOf label (update version result) := by
  refine ⟨update_ne_nil h.1, ?_⟩
  intro id hid
  rcases mem_update hid with hid | hid
  · exact h.2 id hid
  · exact hnames.uploads result id hresult hid

theorem chunksUploaded_named {label : String} {version version' : Fields}
    (hnames : NamesVersions labelOf label replies) (hversion : Named labelOf label version)
    (h : chunksUploaded replies version = .ok version') : Named labelOf label version' := by
  rw [chunksUploaded] at h
  split_ifs at h
  · obtain ⟨result, hresult, h⟩ := Except.bind_eq_ok.1 h
    cases h
    exact hversion.update hnames (Or.inl (answered_ok hresult))
  · cases h
    exact hversion

theorem samplesUploaded_named {label : String} {version version' : Fields}
    (hnames : NamesVersions labelOf label replies) (hversion : Named labelOf label version)
    (h : samplesUploaded replies version = .ok version') : Named labelOf label version' := by
  rw [samplesUploaded] at h
  split_ifs at h
  · split at h
    · cases h
    · cases h
      exact hversion
    · next result hresult =>
      cases h
      exact hversion.update hnames (Or.inr hresult)
  · cases h
    exact hversion

theorem publishViaSignedProxy_ok {label : String} {sent : Local} {data : Fields}
    (h : publishViaSignedProxy settings w rootPath directory label replies = .ok (sent, data)) :
    localPublishSnapshot settings w.progress w.retained rootPath (some label) directory =
      .ok sent ∧
    (NamesVersions labelOf sent.versionLabel replies → ∃ version,
      Named labelOf sent.versionLabel version ∧ data.lookup "version" = some (.obj version)) := by
  rw [publishViaSignedProxy] at h
  obtain ⟨sent', hsent, h⟩ := Except.bind_eq_ok.1 h
  obtain ⟨first, hfirst, h⟩ := Except.bind_eq_ok.1 h
  obtain ⟨⟨data', version⟩, hassigned, h⟩ := Except.bind_eq_ok.1 h
  obtain ⟨n, hn, hversion⟩ := assigned_ok (answered_ok hfirst) hassigned
  obtain ⟨⟨⟩, hids, h⟩ := Except.bind_eq_ok.1 h
  obtain ⟨-, -, h⟩ := Except.bind_eq_ok.1 h
  obtain ⟨chunks, hchunks, h⟩ := Except.bind_eq_ok.1 h
  obtain ⟨samples, hsamples, h⟩ := Except.bind_eq_ok.1 h
  obtain ⟨-, -, h⟩ := Except.bind_eq_ok.1 h
  cases h
  refine ⟨hsent, ?_⟩
  intro hnames
  have hassigned : Named labelOf sent.versionLabel version := by
    refine ⟨?_, fun id => responseVersion_names hnames hn hversion⟩
    rintro rfl
    exact absurd (S3.check_ok.1 hids).1 (by decide)
  have hnamed : Named labelOf sent.versionLabel samples :=
    samplesUploaded_named hnames (chunksUploaded_named hnames hassigned hchunks) hsamples
  refine ⟨samples, hnamed, ?_⟩
  change (Json.setField "status" _ (Json.setField "version" _ data')).lookup "version" = _
  rw [lookup_setField, if_neg (by decide), lookup_setField, if_pos rfl]

theorem optionalStr_some {o : Option Json} {s : String} (h : optionalStr o = .ok (some s)) :
    o = some (.str s) := by
  unfold optionalStr at h
  split at h
  · cases h
  · cases h
  · cases h
    rfl
  · cases h

theorem versionData_of_version {data version : Fields} {label : String}
    (h : data.lookup "version" = some (.obj version)) (hne : version ≠ []) :
    versionData data label = .ok version := by
  rw [versionData, h]
  cases version with
  | nil => exact absurd rfl hne
  | cons f version => rfl

/-- **The label that is reported** is that of the version sent, whose identifier is
    reported, iff no publish of another label is pending. -/
theorem reportsSent_iff {requested : RequestedLabel} {sent : Local} {response : VersionResponse}
    (h : publishVersionToMarketplace settings w rootPath directory requested replies =
      .ok (sent, response)) (hnames : NamesVersions labelOf sent.versionLabel replies) :
    ReportsSent labelOf requested sent response ↔ NonePendingElsewhere w requested := by
  rw [publishVersionToMarketplace] at h
  obtain ⟨before, hbefore, h⟩ := Except.bind_eq_ok.1 h
  obtain ⟨⟨sent', data⟩, hproxy, h⟩ := Except.bind_eq_ok.1 h
  obtain ⟨version, hversion, h⟩ := Except.bind_eq_ok.1 h
  obtain ⟨status, hstatus, h⟩ := Except.bind_eq_ok.1 h
  obtain ⟨versionId, hid, h⟩ := Except.bind_eq_ok.1 h
  obtain ⟨listingId, -, h⟩ := Except.bind_eq_ok.1 h
  obtain ⟨marketplaceUrl, -, h⟩ := Except.bind_eq_ok.1 h
  obtain ⟨versionStatus, -, h⟩ := Except.bind_eq_ok.1 h
  obtain ⟨quarantineReason, -, h⟩ := Except.bind_eq_ok.1 h
  cases status with
  | none => cases h
  | some status =>
    cases h
    obtain ⟨hsent, hdata⟩ := publishViaSignedProxy_ok hproxy
    constructor
    · rintro ⟨hrequested, -, -⟩ p r hres
      rcases snapshot_label hsent with ⟨p', r', hres', hlabel⟩ | ⟨hnone, -⟩
      · rw [hres] at hres'
        cases hres'
        rw [← hlabel, hrequested]
      · rw [hres] at hnone
        cases hnone
    · intro hpending
      have hlabel : sent.versionLabel = requested.value := by
        rcases snapshot_label hsent with ⟨p, r, hres, hlabel⟩ | ⟨hnone, hlabel⟩
        · rw [hlabel, hpending p r hres]
        · rcases snapshot_label hbefore with ⟨p, r, hres, -⟩ | ⟨-, hbefore⟩
          · rw [hres] at hnone
            cases hnone
          · rw [hlabel, hbefore]
      obtain ⟨version', hnamed, hlookup⟩ := hdata hnames
      have hsame : version = version' := Except.ok.inj
        (hversion.symm.trans (versionData_of_version hlookup hnamed.1))
      refine ⟨hlabel, hlabel.symm, ?_⟩
      rintro id rfl
      rw [hsame] at hid
      rw [hnamed.2 id (mem_of_lookup (optionalStr_some hid)), hlabel]

end

/-! ### A pending publish of another label -/

def labelV : RequestedLabel := ⟨"v", by decide⟩

def labelV2 : RequestedLabel := ⟨"v2", by decide⟩

/-- The world after the first publish of a directory, when its version `V1` waits for its
    members under the label `v`. -/
def pendingWorld : World :=
  { World.start with
    progress := some ⟨"V1", twoMemberLocal.manifestHash, "v", pendingMembers, 0, []⟩
    retained := Function.update (fun _ => none) ("V1", twoMemberLocal.manifestHash)
      (some twoMemberManifest) }

/-- A marketplace whose version has all of its members. -/
def activeReplies (label : String) : Replies where
  publish _ := some [("listing_id", .str "L"), ("version", .obj [("version_id", .str "V1"),
    ("version_label", .str label), ("status", .str "active")])]
  recorded := true
  chunks := none
  samples := none
  progressed := true

theorem activeReplies_names (label : String) :
    NamesVersions (fun _ => label) label (activeReplies label) := by
  refine ⟨fun _ _ _ _ _ _ _ => rfl, ?_, fun _ _ _ _ => rfl⟩
  rintro n data l version label' id hdata hl - - -
  cases hdata
  simp at hl

/-- The answer to a call whose version is active at once. -/
def activeResponse (label : String) : VersionResponse :=
  ⟨"published", some "V1", some "L", none, label, some "active", none⟩

theorem active_response {w : World} {sent before : Local} {requested : RequestedLabel}
    (hbefore : localPublishSnapshot chunkOfOne w.progress w.retained "/data"
      (some requested.value) twoMemberDirectory = .ok before)
    (hsent : localPublishSnapshot chunkOfOne w.progress w.retained "/data"
      (some before.versionLabel) twoMemberDirectory = .ok sent) :
    publishVersionToMarketplace chunkOfOne w "/data" twoMemberDirectory requested
      (activeReplies sent.versionLabel) = .ok (sent, activeResponse requested.value) := by
  rw [publishVersionToMarketplace, hbefore, Except.ok_bind, publishViaSignedProxy, hsent,
    Except.ok_bind]
  rfl

/-- The pending publish goes on under its label, and the response repeats the other. -/
theorem pending_label_not_reported : ∃ settings w rootPath directory requested replies labelOf
    sent response, publishVersionToMarketplace settings w rootPath directory requested replies =
      .ok (sent, response) ∧ NamesVersions labelOf sent.versionLabel replies ∧
      ¬ ReportsSent labelOf requested sent response := by
  have hsnapshot : ∀ label, localPublishSnapshot chunkOfOne pendingWorld.progress
      pendingWorld.retained "/data" (some label) twoMemberDirectory =
      .ok { twoMemberLocal with retainedVersionId := some "V1" } := by
    intro label
    have hres : resumable pendingWorld.progress pendingWorld.retained =
        some (⟨"V1", twoMemberLocal.manifestHash, "v", pendingMembers, 0, []⟩,
          twoMemberManifest) := by
      simp [resumable, pendingWorld]
    rw [localPublishSnapshot, hres]
    exact congrArg (· >>= fun _ => _) twoMemberLocal_check
  have hok := @active_response pendingWorld _ _ labelV2 (hsnapshot _) (hsnapshot _)
  refine ⟨chunkOfOne, pendingWorld, "/data", twoMemberDirectory, labelV2, activeReplies "v",
    fun _ => "v", _, _, hok, activeReplies_names "v", ?_⟩
  intro hreports
  have hlabel : "v" = "v2" := hreports.requested
  exact absurd hlabel (by decide)

theorem reportsSent_iff_v : ∃ sent response, publishVersionToMarketplace chunkOfOne .start "/data"
      twoMemberDirectory labelV (activeReplies "v") = .ok (sent, response) ∧
    (ReportsSent (fun _ => "v") labelV sent response ↔ NonePendingElsewhere .start labelV) := by
  have hok := @active_response .start _ _ labelV twoMemberSnapshot twoMemberSnapshot
  exact ⟨_, _, hok, reportsSent_iff hok (activeReplies_names "v")⟩

end Publish

end AimData
