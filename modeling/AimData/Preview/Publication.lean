/-
  `PublicationStore`: hosted preview packages and the journal that authorizes
  them.

  An operation reads under the lock, and then performs file actions in order;
  the process may stop after any of them (`Disk.Leaves`).  The journal only ever
  holds records of packages (`JournalInv`), and a step keeps every record but
  for its state (`Later`); `publicationStore_safe` is what follows for every run.
-/
import AimData.Canonical.Schema
import AimData.Lib.Disk
import AimData.Lib.Run
import AimData.Merkle.CanonicalJson

namespace AimData

structure PackageError where
  code : String
  deriving DecidableEq, Repr

def refusePackage {α : Type} (code : String) : Except PackageError α := .error ⟨code⟩

/-! ## Identities -/

def hexLower (c : Char) : Bool := c.isDigit || ('a' ≤ c ∧ c ≤ 'f')

/-- `canonical_uuid(value)` succeeds: the value is a UUID as `str` writes it. -/
def canonicalUuid (value : String) : Bool :=
  value.toList.length = 36 ∧ value.toList.zipIdx.all fun (c, i) =>
    if i ∈ [8, 13, 18, 23] then c = '-' else hexLower c

/-- `re.fullmatch("[0-9a-f]{64}", digest)` -/
def digestText (digest : String) : Bool :=
  digest.toList.length = 64 ∧ digest.toList.all hexLower

/-- `bytes.hex` -/
def hex (b : Bytes) : String :=
  String.ofList (b.flatMap fun x => [Nat.digitChar (x.toNat / 16), Nat.digitChar (x.toNat % 16)])

/-- `PublicationStore.path` -/
def publicationPath (disclosure digest : String) : Except PackageError String :=
  if canonicalUuid disclosure = false then refusePackage "invalid_identity"
  else if digestText digest = false then refusePackage "invalid_identity"
  else .ok ("previews/" ++ disclosure ++ "/" ++ digest ++ ".json")

def journalName (disclosure digest : String) : String := disclosure ++ "-" ++ digest ++ ".json"

/-! ## Packages -/

def envelopeBytes : ℕ := 1048576
def journalBytes : ℕ := 8193

/-- What `export` takes from the envelope of a package. -/
structure Envelope where
  commitmentId : String
  schemaDigest : String
  disclosureVersion : String
  sampleHash : String
  deriving DecidableEq, Repr

/-- `json.loads(package.payload)` and its fields. -/
def envelopeOf (payload : Bytes) : Option Envelope := do
  match ← loads payload with
  | .obj l =>
    match field? l "commitment_id", field? l "schema_digest", field? l "disclosure_version",
        field? l "sample_hash" with
    | some (.str c), some (.str s), some (.str d), some (.str h) => return ⟨c, s, d, h⟩
    | _, _, _, _ => none
  | _ => none

/-- A package that the builder has validated; there is no other way to one. -/
structure PreparedPackage where
  payload : Bytes
  envelope : Envelope
  loaded : envelopeOf payload = some envelope
  commitmentId : canonicalUuid envelope.commitmentId = true
  schemaDigest : ∃ digest : Digest, envelope.schemaDigest = encodeBase64url digest.1
  disclosureVersion : canonicalUuid envelope.disclosureVersion = true
  sampleHash : digestText envelope.sampleHash = true
  size : payload.length ≤ envelopeBytes

/-- The journal record of a package. -/
def recordFields (envelope : Envelope) (payload : Bytes) (state : String) : List (String × Json) :=
  [("commitment_id", .str envelope.commitmentId),
    ("disclosure_version", .str envelope.disclosureVersion),
    ("schema_digest", .str envelope.schemaDigest),
    ("sample_hash", .str envelope.sampleHash),
    ("package_sha256", .str (hex (sha256 payload).1)),
    ("byte_count", .int payload.length),
    ("state", .str state)]

def objectMetadata : Json :=
  .obj [("Content-Type", .str "application/vnd.aim.preview+json"), ("Cache-Control", .str "no-store")]

/-! ## Operations -/

/-- The two directories of a store. -/
inductive Root where
  | publicRoot
  | journalRoot
  deriving DecidableEq, Repr

/-- `".pending-" + uuid.uuid4().hex` in a directory. -/
def pending (parent id : String) : String := parent ++ ".pending-" ++ id

def publicParent (disclosure : String) : String := "previews/" ++ disclosure ++ "/"

/-- `_read`: an absent record is `none`. -/
def readRecord (d : Disk Root) (disclosure digest : String) : Except PackageError (Option Json) :=
  match (d .journalRoot).lookup (journalName disclosure digest) with
  | none => .ok none
  | some content =>
    match loads (content.take journalBytes) with
    | some .null => .ok none
    | some record => .ok (some record)
    | none => refusePackage "invalid_journal"

/-- `old == record` of a dict. -/
def sameDict (old : Json) (record : List (String × Json)) : Bool :=
  match old with
  | .obj l => l.length = record.length ∧ record.all fun f => field? l f.1 = some f.2
  | _ => false

inductive Operation where
  | export (package : PreparedPackage) (id id' : String)
  | retire (disclosure digest id : String)
  | read (disclosure digest : String)

inductive Outcome where
  | exported (result : Json)
  | retired (record : Json)
  | status (code : ℕ) (payload : Bytes)
  deriving DecidableEq

/-- What an operation writes, and what it returns or raises after it. -/
structure Plan where
  actions : List (Disk.Action Root)
  outcome : Except PackageError Outcome

def Plan.refuse (code : String) : Plan := ⟨[], refusePackage code⟩

def exportPlan (package : PreparedPackage) (id id' : String) (d : Disk Root) : Plan :=
  match envelopeOf package.payload with
  | none => .refuse "KeyError"
  | some envelope =>
    let disclosure := envelope.disclosureVersion
    let digest := envelope.sampleHash
    match publicationPath disclosure digest with
    | .error e => ⟨[], .error e⟩
    | .ok relative =>
      let record := recordFields envelope package.payload "exported"
      match readRecord d disclosure digest with
      | .error e => ⟨[], .error e⟩
      | .ok old =>
        if old.any (fun old => sameDict old record = false) then .refuse "immutable_publication"
        else
          let publish := Disk.atomicWrite .publicRoot (pending (publicParent disclosure) id) relative
            package.payload
          match canonicalJsonBytes (.obj record) with
          | .error e => ⟨publish, .error ⟨e.code⟩⟩
          | .ok bytes =>
            ⟨publish ++
              Disk.atomicWrite .journalRoot (pending "" id') (journalName disclosure digest) bytes,
              .ok (.exported (.obj (record ++ [("object_metadata", objectMetadata)])))⟩

def retirePlan (disclosure digest id : String) (d : Disk Root) : Plan :=
  match publicationPath disclosure digest with
  | .error e => ⟨[], .error e⟩
  | .ok relative =>
    match readRecord d disclosure digest with
    | .error e => ⟨[], .error e⟩
    | .ok none => .refuse "unknown_publication"
    | .ok (some (.obj l)) =>
      let record := .obj (Json.setField "state" (.str "retired") l)
      match canonicalJsonBytes record with
      | .error e => ⟨[], .error ⟨e.code⟩⟩
      | .ok bytes =>
        ⟨Disk.atomicWrite .journalRoot (pending "" id) (journalName disclosure digest) bytes ++
          [.unlink .publicRoot relative], .ok (.retired record)⟩
    | .ok (some _) => .refuse "TypeError"

/-- The status and payload of a publication whose record is not retired. -/
def readPayload (d : Disk Root) (relative : String) (record : List (String × Json)) :
    Except PackageError Outcome :=
  match (d .publicRoot).lookup relative with
  | none => .ok (.status 404 [])
  | some content =>
    let payload := content.take (envelopeBytes + 1)
    match field? record "byte_count" with
    | none => refusePackage "KeyError"
    | some byteCount =>
      if byteCount ≠ .int payload.length then .ok (.status 404 [])
      else match field? record "package_sha256" with
        | none => refusePackage "KeyError"
        | some packageSha256 =>
          if packageSha256 ≠ .str (hex (sha256 payload).1) then .ok (.status 404 [])
          else .ok (.status 200 payload)

def readPublication (disclosure digest : String) (d : Disk Root) : Except PackageError Outcome := do
  let relative ← publicationPath disclosure digest
  match ← readRecord d disclosure digest with
  | none => .ok (.status 404 [])
  | some (.obj record) =>
    match field? record "state" with
    | none => refusePackage "KeyError"
    | some state =>
      if state = .str "retired" then .ok (.status 410 []) else readPayload d relative record
  | some _ => refusePackage "TypeError"

def plan (d : Disk Root) : Operation → Plan
  | .export package id id' => exportPlan package id id' d
  | .retire disclosure digest id => retirePlan disclosure digest id d
  | .read disclosure digest => ⟨[], readPublication disclosure digest d⟩

/-! ## Runs -/

inductive Result where
  | returned (outcome : Outcome)
  | raised (e : PackageError)
  | crashed

def Result.of : Except PackageError Outcome → Result
  | .ok outcome => .returned outcome
  | .error e => .raised e

/-- One operation under the lock: it runs to its end, an action fails, or the
    process stops. -/
inductive PublicationStep : Disk Root → Operation × Result → Disk Root → Prop
  | done {d d' : Disk Root} {op : Operation} (h : d.perform (plan d op).actions = (d', true)) :
    PublicationStep d (op, .of (plan d op).outcome) d'
  | failed {d d' : Disk Root} {op : Operation} (h : d.perform (plan d op).actions = (d', false)) :
    PublicationStep d (op, .raised ⟨"publication_io"⟩) d'
  | crashed {d d' : Disk Root} {op : Operation} (h : d.Leaves (plan d op).actions d') :
    PublicationStep d (op, .crashed) d'

abbrev PublicationRun := Run PublicationStep

/-- Nothing published, nothing journaled. -/
def emptyStore : Disk Root := fun _ => ∅

theorem PublicationStep.leaves {d d' : Disk Root} {op : Operation} {r : Result}
    (h : PublicationStep d (op, r) d') : d.Leaves (plan d op).actions d' := by
  cases h with
  | done h => have := Disk.leaves_perform d (plan d op).actions; rwa [h] at this
  | failed h => have := Disk.leaves_perform d (plan d op).actions; rwa [h] at this
  | crashed h => exact h

/-! ## Journal records -/

/-- The keys of a record, numbered in the order the source writes them. -/
def recordKeys : List (String × ℕ) :=
  ["commitment_id", "disclosure_version", "schema_digest", "sample_hash", "package_sha256",
    "byte_count", "state"].zipIdx

/-- A record as the journal has it: its keys in order. -/
def recordSorted (envelope : Envelope) (payload : Bytes) (state : String) : List (String × Json) :=
  [("byte_count", .int payload.length),
    ("commitment_id", .str envelope.commitmentId),
    ("disclosure_version", .str envelope.disclosureVersion),
    ("package_sha256", .str (hex (sha256 payload).1)),
    ("sample_hash", .str envelope.sampleHash),
    ("schema_digest", .str envelope.schemaDigest),
    ("state", .str state)]

def recordValue (envelope : Envelope) (payload : Bytes) (state : String) (i : ℕ) : Json :=
  ((recordFields envelope payload state).map Prod.snd).getD i .null

theorem sortKeys_recordKeys : sortKeys recordKeys =
    [("byte_count", 5), ("commitment_id", 0), ("disclosure_version", 1), ("package_sha256", 4),
      ("sample_hash", 3), ("schema_digest", 2), ("state", 6)] := by decide

theorem sortKeys16_recordKeys :
    (sortKeys recordKeys).map Prod.fst = (sortKeys16 recordKeys).map Prod.fst := by decide

section
variable {envelope : Envelope} {payload : Bytes} {state : String}

theorem normalize_byteCount (h : payload.length ≤ envelopeBytes) :
    normalize (.int payload.length) = .ok (.int payload.length) := by
  rw [normalize, if_neg]
  unfold safeInteger
  unfold envelopeBytes at h
  omega

variable (envelope state) in
theorem normalize_recordValue (h : payload.length ≤ envelopeBytes) : ∀ i < 7,
    normalize (recordValue envelope payload state i) = .ok (recordValue envelope payload state i) := by
  intro i hi
  interval_cases i
  · rfl
  · rfl
  · rfl
  · rfl
  · rfl
  · exact normalize_byteCount h
  · rfl

variable (envelope state) in
theorem normalize_record (h : payload.length ≤ envelopeBytes) :
    normalize (.obj (recordFields envelope payload state)) =
      .ok (.obj (recordSorted envelope payload state)) := by
  have hkeys : ∀ p ∈ recordKeys, p.2 < 7 := by decide
  have := normalize_fields (fun p hp => normalize_recordValue envelope state
    h p.2 (hkeys p hp)) sortKeys16_recordKeys
  rw [sortKeys_recordKeys] at this
  exact this

variable (envelope state) in
/-- The order of the journal is kept. -/
theorem normalize_recordSorted (h : payload.length ≤ envelopeBytes) :
    normalize (.obj (recordSorted envelope payload state)) =
      .ok (.obj (recordSorted envelope payload state)) := by
  have hkeys : ∀ p ∈ sortKeys recordKeys, p.2 < 7 := by decide
  have hsort : sortKeys (sortKeys recordKeys) = sortKeys recordKeys := by decide
  have := normalize_fields (fun p hp => normalize_recordValue envelope state
    h p.2 (hkeys p hp)) (show (sortKeys (sortKeys recordKeys)).map Prod.fst =
      (sortKeys16 (sortKeys recordKeys)).map Prod.fst by decide)
  rw [hsort, sortKeys_recordKeys] at this
  exact this

theorem dicts_record : Dicts (.obj (recordFields envelope payload state)) := by
  refine ⟨?_, ?_⟩
  · show ["commitment_id", "disclosure_version", "schema_digest", "sample_hash", "package_sha256",
      "byte_count", "state"].Nodup
    decide
  · exact ⟨trivial, trivial, trivial, trivial, trivial, trivial, trivial, trivial⟩

end

theorem hex_length (b : Bytes) : (hex b).toList.length = 2 * b.length := by
  unfold hex
  rw [String.toList_ofList, List.length_flatMap]
  simp [List.map_const', mul_comm]

theorem hex_injective {a b : Bytes} (h : hex a = hex b) : a = b := by
  have hdigit : ∀ x y : Fin 16, Nat.digitChar x.1 = Nat.digitChar y.1 → x.1 = y.1 := by decide
  have key : ∀ x y : UInt8, Nat.digitChar (x.toNat / 16) = Nat.digitChar (y.toNat / 16) →
      Nat.digitChar (x.toNat % 16) = Nat.digitChar (y.toNat % 16) → x = y := by
    intro x y h1 h2
    have hx := x.toNat_lt
    have hy := y.toNat_lt
    have h1 := hdigit ⟨x.toNat / 16, by omega⟩ ⟨y.toNat / 16, by omega⟩ h1
    have h2 := hdigit ⟨x.toNat % 16, by omega⟩ ⟨y.toNat % 16, by omega⟩ h2
    simp only at h1 h2
    exact UInt8.toNat_inj.1 (by omega)
  have h := String.ofList_injective h
  induction a generalizing b with
  | nil => cases b with
    | nil => rfl
    | cons y b => simp at h
  | cons x a ih => cases b with
    | nil => simp at h
    | cons y b =>
      simp only [List.flatMap_cons, List.cons_append, List.nil_append, List.cons.injEq] at h
      rw [key x y h.1 h.2.1, ih (congrArg String.ofList h.2.2) h.2.2]

/-! ## Names -/

theorem canonicalUuid_length {s : String} (h : canonicalUuid s = true) : s.toList.length = 36 := by
  unfold canonicalUuid at h
  exact (of_decide_eq_true h).1

theorem canonicalUuid_head {s : String} (h : canonicalUuid s = true) {c : Char} {cs : List Char}
    (hs : s.toList = c :: cs) : c ≠ '.' := by
  unfold canonicalUuid at h
  have := (of_decide_eq_true h).2
  rw [hs, List.zipIdx_cons, List.all_cons, Bool.and_eq_true] at this
  rintro rfl
  exact absurd this.1 (by decide)

theorem journalName_inj {d d' h h' : String} (hd : canonicalUuid d = true)
    (hd' : canonicalUuid d' = true) (he : journalName d h = journalName d' h') : d = d' ∧ h = h' := by
  have he := congrArg String.toList he
  simp only [journalName, String.toList_append, List.append_assoc] at he
  obtain ⟨h1, h2⟩ := List.append_inj he (by rw [canonicalUuid_length hd, canonicalUuid_length hd'])
  have h2 := List.append_cancel_right (List.append_cancel_left h2)
  exact ⟨String.toList_inj.1 h1, String.toList_inj.1 h2⟩

theorem journalName_ne_pending {d h id : String} (hd : canonicalUuid d = true) :
    journalName d h ≠ pending "" id := by
  intro he
  have he := congrArg String.toList he
  have hl := canonicalUuid_length hd
  obtain ⟨c, cs, hc⟩ := List.exists_cons_of_ne_nil (show d.toList ≠ [] by
    intro h0; rw [h0] at hl; cases hl)
  simp only [journalName, pending, String.toList_append, hc] at he
  exact canonicalUuid_head hd hc (List.cons.inj he).1

/-! ## Records are read back -/

theorem digestText_length {s : String} (h : digestText s = true) : s.toList.length = 64 := by
  unfold digestText at h
  exact (of_decide_eq_true h).1

theorem encodeChars_length : ∀ b : Bytes, (Base64Url.encodeChars b).length ≤ 2 * b.length
  | _ :: _ :: _ :: t => by
    have := encodeChars_length t
    simp only [Base64Url.encodeChars, List.length_cons]
    omega
  | [_, _] => by simp [Base64Url.encodeChars]
  | [_] => by simp [Base64Url.encodeChars]
  | [] => by simp [Base64Url.encodeChars]

/-- A record fits what is read of it. -/
theorem length_record (package : PreparedPackage) {state : String}
    (hs : state ∈ ["exported", "retired"]) :
    (Utf8.encode (Json.dumps (.obj (recordSorted package.envelope package.payload state)))).length ≤
      journalBytes := by
  have h1 := canonicalUuid_length package.commitmentId
  have h2 := canonicalUuid_length package.disclosureVersion
  have h3 := digestText_length package.sampleHash
  have h4 : package.envelope.schemaDigest.toList.length ≤ 64 := by
    obtain ⟨digest, hd⟩ := package.schemaDigest
    rw [hd, encodeBase64url, Base64Url.encode, String.toList_ofList]
    have := encodeChars_length digest.1
    rw [digest.2] at this
    exact this
  have h5 : (hex (sha256 package.payload).1).toList.length = 64 := by
    rw [hex_length, (sha256 package.payload).2]
  have h6 : state.toList.length ≤ 8 := by
    rcases List.mem_pair.1 hs with rfl | rfl <;> decide
  have hn : package.payload.length < 10 ^ 7 := by
    have := package.size
    unfold envelopeBytes at this
    omega
  have hcount := Json.length_encode_nat (by norm_num) hn
  have hkeys : ["byte_count", "commitment_id", "disclosure_version", "package_sha256",
      "sample_hash", "schema_digest", "state"].map (fun k => k.toList.length) =
      [10, 13, 18, 14, 11, 13, 5] := by decide
  have hstr := Json.length_encode_dumpsStr
  simp only [List.map_cons, List.map_nil, List.cons.injEq, and_true] at hkeys
  refine le_trans (Json.length_encode_obj _) ?_
  simp only [recordSorted, List.map_cons, List.map_nil, List.sum_cons, List.sum_nil, Json.dumps]
  have hc := hstr package.envelope.commitmentId
  have hd := hstr package.envelope.disclosureVersion
  have hp := hstr (hex (sha256 package.payload).1)
  have hh := hstr package.envelope.sampleHash
  have hg := hstr package.envelope.schemaDigest
  have hst := hstr state
  rw [Json.dumps] at hcount
  unfold journalBytes
  omega

/-- The journal holds the record of a package, in a state. -/
def Journaled (d : Disk Root) (disclosure digest : String) (package : PreparedPackage)
    (state : String) : Prop :=
  package.envelope.disclosureVersion = disclosure ∧ package.envelope.sampleHash = digest ∧
    state ∈ ["exported", "retired"] ∧
    ∃ bytes, canonicalJsonBytes (.obj (recordFields package.envelope package.payload state)) =
      .ok bytes ∧ (d .journalRoot).lookup (journalName disclosure digest) = some bytes

section
variable {d : Disk Root} {disclosure digest : String} {package package' : PreparedPackage}
  {state state' : String}

theorem readRecord_journaled (h : Journaled d disclosure digest package state) :
    readRecord d disclosure digest =
      .ok (some (.obj (recordSorted package.envelope package.payload state))) := by
  obtain ⟨-, -, hs, bytes, hb, hl⟩ := h
  have hn := normalize_record package.envelope state package.size
  have hlen : bytes.length ≤ journalBytes := by
    have hsize := length_record package hs
    rw [canonicalJsonBytes, hn] at hb
    cases hb
    exact hsize
  unfold readRecord
  rw [hl]
  simp only
  rw [List.take_of_length_le hlen, loads_canonicalJsonBytes dicts_record hn hb]

/-- The journal's bytes determine the record. -/
theorem Journaled.unique (h : Journaled d disclosure digest package state)
    (h' : Journaled d disclosure digest package' state') :
    package.envelope = package'.envelope ∧ sha256 package.payload = sha256 package'.payload ∧
      package.payload.length = package'.payload.length ∧ state = state' := by
  have he := (readRecord_journaled h).symm.trans (readRecord_journaled h')
  simp only [Except.ok.injEq, Option.some.injEq, Json.obj.injEq, recordSorted, List.cons.injEq,
    Prod.mk.injEq, Json.int.injEq, Json.str.injEq, true_and, and_true] at he
  obtain ⟨hlen, hc, hd, hsha, hh, hs, hst⟩ := he
  refine ⟨?_, Subtype.ext (hex_injective hsha), by exact_mod_cast hlen, hst⟩
  rcases hp : package.envelope with ⟨c, s, d, h⟩
  rcases hp' : package'.envelope with ⟨c', s', d', h'⟩
  rw [hp, hp'] at hc hd hh hs
  rw [Envelope.mk.injEq]
  exact ⟨hc, hs, hd, hh⟩

/-- A record of one package is one of every package with its data. -/
theorem Journaled.of_unique {d' : Disk Root} {state₁ state₂ : String}
    (h : Journaled d' disclosure digest package state)
    (he : package'.envelope = package.envelope ∧ sha256 package'.payload = sha256 package.payload ∧
      package'.payload.length = package.payload.length ∧ state₁ = state₂)
    (h' : Journaled d disclosure digest package' state') :
    Journaled d' disclosure digest package' state := by
  obtain ⟨-, -, hs, bytes, hb, hl⟩ := h
  refine ⟨h'.1, h'.2.1, hs, bytes, ?_, hl⟩
  rw [← hb]
  unfold recordFields
  rw [he.1, he.2.1, he.2.2.1]

/-- The fields of a journal record. -/
theorem field?_recordSorted {envelope : Envelope} {payload : Bytes} {state key : String} {v : Json}
    (h : (key, v) ∈ recordFields envelope payload state) :
    field? (recordSorted envelope payload state) key = some v := by
  simp only [recordFields, List.mem_cons, Prod.mk.injEq, List.not_mem_nil, or_false] at h
  rcases h with ⟨rfl, rfl⟩ | ⟨rfl, rfl⟩ | ⟨rfl, rfl⟩ | ⟨rfl, rfl⟩ | ⟨rfl, rfl⟩ | ⟨rfl, rfl⟩ | ⟨rfl, rfl⟩
    <;> rfl

/-- A record equals the one in the journal only if it is that one. -/
theorem sameDict_record
    (h : sameDict (.obj (recordSorted package.envelope package.payload state))
      (recordFields package'.envelope package'.payload state') = true) :
    recordFields package.envelope package.payload state =
      recordFields package'.envelope package'.payload state' := by
  have h := List.all_eq_true.1 (of_decide_eq_true h).2
  have key : ∀ p ∈ recordFields package.envelope package.payload state,
      ∀ v, (p.1, v) ∈ recordFields package'.envelope package'.payload state' → p.2 = v := by
    intro p hp v hv
    have := of_decide_eq_true (h _ hv)
    rw [field?_recordSorted hp] at this
    exact Option.some.inj this
  simpa [recordFields] using key


end

/-! ## What an operation does to the journal -/

/-- Every record of the journal is one of a package. -/
def JournalInv (d : Disk Root) : Prop :=
  ∀ disclosure digest bytes, canonicalUuid disclosure = true → digestText digest = true →
    (d .journalRoot).lookup (journalName disclosure digest) = some bytes →
    ∃ package state, Journaled d disclosure digest package state

/-- Records stay, and retired records stay retired. -/
def Later (d d' : Disk Root) : Prop :=
  ∀ disclosure digest package state, canonicalUuid disclosure = true →
    Journaled d disclosure digest package state →
    ∃ state', Journaled d' disclosure digest package state' ∧
      (state = "retired" → state' = "retired")

theorem publicationPath_ok {disclosure digest relative : String}
    (h : publicationPath disclosure digest = .ok relative) :
    canonicalUuid disclosure = true ∧ digestText digest = true := by
  unfold publicationPath at h
  split_ifs at h with h1 h2
  · cases h
  · cases h
  · exact ⟨by simpa using h1, by simpa using h2⟩

/-- The public directory's atomic write leaves the journal alone. -/
theorem leaves_public {d d' : Disk Root} {temporary name n : String} {data : Bytes}
    (h : d.Leaves (Disk.atomicWrite .publicRoot temporary name data) d') :
    (d' .journalRoot).lookup n = (d .journalRoot).lookup n :=
  Disk.leaves_frame h (Disk.atomicWrite_frame fun h => by cases h)

section
variable {d d' : Disk Root} {disclosure : String}

/-- A journal write changes one record only. -/
theorem leaves_journal (digest : String) {disclosure' digest' id : String} {data : Bytes}
    (hu : canonicalUuid disclosure = true) (hu' : canonicalUuid disclosure' = true)
    (h : d.Leaves (Disk.atomicWrite .journalRoot (pending "" id) (journalName disclosure' digest')
      data) d') :
    (d' .journalRoot).lookup (journalName disclosure digest) =
        (d .journalRoot).lookup (journalName disclosure digest) ∨
      (disclosure = disclosure' ∧ digest = digest' ∧
        (d' .journalRoot).lookup (journalName disclosure digest) = some data) := by
  by_cases hk : journalName disclosure digest = journalName disclosure' digest'
  · obtain ⟨rfl, rfl⟩ := journalName_inj hu hu' hk
    rcases Disk.leaves_atomicWrite (journalName_ne_pending hu) h with h | h
    · exact Or.inl h
    · exact Or.inr ⟨rfl, rfl, h⟩
  · exact Or.inl (Disk.leaves_frame h (Disk.atomicWrite_frame fun _ =>
      ⟨journalName_ne_pending hu, hk⟩))

theorem export_effect (digest : String) {package : PreparedPackage} {id id' : String}
    (hu : canonicalUuid disclosure = true)
    (h : d.Leaves (exportPlan package id id' d).actions d') :
    (d' .journalRoot).lookup (journalName disclosure digest) =
        (d .journalRoot).lookup (journalName disclosure digest) ∨
      (Journaled d' disclosure digest package "exported" ∧
        ∀ p st, Journaled d disclosure digest p st →
          recordFields p.envelope p.payload st =
            recordFields package.envelope package.payload "exported") := by
  unfold exportPlan at h
  rw [package.loaded] at h
  simp only at h
  cases hp : publicationPath package.envelope.disclosureVersion package.envelope.sampleHash with
  | error e => rw [hp] at h; rw [Disk.leaves_nil h]; exact Or.inl rfl
  | ok relative =>
    rw [hp] at h
    simp only at h
    obtain ⟨hu', hg'⟩ := publicationPath_ok hp
    cases hr : readRecord d package.envelope.disclosureVersion package.envelope.sampleHash with
    | error e => rw [hr] at h; rw [Disk.leaves_nil h]; exact Or.inl rfl
    | ok old =>
      rw [hr] at h
      simp only at h
      split_ifs at h with hsame
      · rw [Disk.leaves_nil h]; exact Or.inl rfl
      · cases hb : canonicalJsonBytes
            (.obj (recordFields package.envelope package.payload "exported")) with
        | error e => rw [hb] at h; exact Or.inl (leaves_public h)
        | ok bytes =>
          rw [hb] at h
          rcases Disk.leaves_append h with h | ⟨d₁, hd₁, h⟩
          · exact Or.inl (leaves_public h)
          · have hpub := Disk.leaves_perform d (Disk.atomicWrite .publicRoot
              (pending (publicParent package.envelope.disclosureVersion) id) relative
              package.payload)
            rw [hd₁] at hpub
            rcases leaves_journal digest hu hu' h with h | ⟨rfl, rfl, h⟩
            · exact Or.inl (h.trans (leaves_public hpub))
            · refine Or.inr ⟨⟨rfl, rfl, by simp, bytes, hb, h⟩, fun p st hj => ?_⟩
              rw [readRecord_journaled hj] at hr
              cases hr
              refine sameDict_record ?_
              simpa using hsame

/-- The tombstone of a journaled record. -/
theorem canonicalJsonBytes_retired (package : PreparedPackage) (state : String) : ∃ bytes,
    canonicalJsonBytes (.obj (Json.setField "state" (.str "retired")
      (recordSorted package.envelope package.payload state))) = .ok bytes ∧
    canonicalJsonBytes (.obj (recordFields package.envelope package.payload "retired")) =
      .ok bytes := by
  rw [show Json.setField "state" (.str "retired")
    (recordSorted package.envelope package.payload state) =
      recordSorted package.envelope package.payload "retired" from rfl,
    canonicalJsonBytes, canonicalJsonBytes, normalize_recordSorted _ _ package.size,
    normalize_record _ _ package.size]
  exact ⟨_, rfl, rfl⟩

theorem leaves_unlink {name n : String} (h : d.Leaves [.unlink .publicRoot name] d') :
    (d' .journalRoot).lookup n = (d .journalRoot).lookup n :=
  Disk.leaves_frame h fun a ha => by
    rw [List.mem_singleton] at ha
    subst ha
    exact fun h => by cases h.1

theorem retire_effect (digest : String) {disclosure' digest' id : String} (hinv : JournalInv d)
    (hu : canonicalUuid disclosure = true)
    (h : d.Leaves (retirePlan disclosure' digest' id d).actions d') :
    (d' .journalRoot).lookup (journalName disclosure digest) =
        (d .journalRoot).lookup (journalName disclosure digest) ∨
      ∃ package state, Journaled d disclosure digest package state ∧
        Journaled d' disclosure digest package "retired" := by
  unfold retirePlan at h
  cases hp : publicationPath disclosure' digest' with
  | error e => rw [hp] at h; rw [Disk.leaves_nil h]; exact Or.inl rfl
  | ok relative =>
    rw [hp] at h
    simp only at h
    obtain ⟨hu', hg'⟩ := publicationPath_ok hp
    cases hl : (d .journalRoot).lookup (journalName disclosure' digest') with
    | none =>
      have hr : readRecord d disclosure' digest' = .ok none := by rw [readRecord, hl]
      rw [hr] at h
      rw [Disk.leaves_nil h]
      exact Or.inl rfl
    | some bytes =>
      obtain ⟨package, state, hj⟩ := hinv disclosure' digest' bytes hu' hg' hl
      obtain ⟨bytes', hb, hb'⟩ := canonicalJsonBytes_retired package state
      rw [readRecord_journaled hj] at h
      simp only at h
      rw [hb] at h
      have hwrite : ∀ {d₁ : Disk Root}, d.Leaves (Disk.atomicWrite .journalRoot (pending "" id)
          (journalName disclosure' digest') bytes') d₁ →
          (d' .journalRoot).lookup (journalName disclosure digest) =
            (d₁ .journalRoot).lookup (journalName disclosure digest) →
          (d' .journalRoot).lookup (journalName disclosure digest) =
              (d .journalRoot).lookup (journalName disclosure digest) ∨
            ∃ package state, Journaled d disclosure digest package state ∧
              Journaled d' disclosure digest package "retired" := by
        intro d₁ h1 h2
        rcases leaves_journal digest hu hu' h1 with h3 | ⟨rfl, rfl, h3⟩
        · exact Or.inl (h2.trans h3)
        · exact Or.inr ⟨package, state, hj, hj.1, hj.2.1, by simp, bytes', hb', h2.trans h3⟩
      rcases Disk.leaves_append h with h | ⟨d₁, hd₁, h⟩
      · exact hwrite h rfl
      · have h1 := Disk.leaves_perform d (Disk.atomicWrite .journalRoot (pending "" id)
          (journalName disclosure' digest') bytes')
        rw [hd₁] at h1
        exact hwrite h1 (leaves_unlink h)

/-- What an operation, whole or cut short, does to a record. -/
theorem plan_effect (digest : String) {op : Operation} (hinv : JournalInv d) (hu : canonicalUuid disclosure = true)
    (h : d.Leaves (plan d op).actions d') :
    (d' .journalRoot).lookup (journalName disclosure digest) =
        (d .journalRoot).lookup (journalName disclosure digest) ∨
      ∃ package state, Journaled d' disclosure digest package state ∧
        ∀ p st, Journaled d disclosure digest p st →
          Journaled d' disclosure digest p state ∧ (st = "retired" → state = "retired") := by
  cases op with
  | «export» package id id' =>
    rcases export_effect digest hu h with h | ⟨hj, hall⟩
    · exact Or.inl h
    · refine Or.inr ⟨package, "exported", hj, fun p st hp => ?_⟩
      have he := hall p st hp
      obtain ⟨-, -, -, bytes, hb, hl⟩ := hj
      have hst : st = "exported" := by
        simp only [recordFields, List.cons.injEq, Prod.mk.injEq, Json.str.injEq, true_and,
          and_true] at he
        exact he.2.2.2.2.2.2
      subst hst
      exact ⟨⟨hp.1, hp.2.1, by simp, bytes, by rw [he, hb], hl⟩, fun h => h⟩
  | retire disclosure' digest' id =>
    rcases retire_effect digest hinv hu h with h | ⟨package, state, hj, hj'⟩
    · exact Or.inl h
    · exact Or.inr ⟨package, "retired", hj', fun p st hp => ⟨hj'.of_unique (hp.unique hj) hp,
        fun _ => rfl⟩⟩
  | read disclosure' digest' =>
    rw [Disk.leaves_nil h]
    exact Or.inl rfl

theorem JournalInv.step {e : Operation × Result} (hinv : JournalInv d)
    (h : PublicationStep d e d') : JournalInv d' ∧ Later d d' := by
  obtain ⟨op, r⟩ := e
  have hl := h.leaves
  constructor
  · intro disclosure digest bytes hu hg hb
    rcases plan_effect digest hinv hu hl with he | ⟨package, state, hj, -⟩
    · rw [he] at hb
      obtain ⟨package, state, hj⟩ := hinv disclosure digest bytes hu hg hb
      obtain ⟨h1, h2, h3, bytes', h4, h5⟩ := hj
      exact ⟨package, state, h1, h2, h3, bytes', h4, he.trans h5⟩
    · exact ⟨package, state, hj⟩
  · intro disclosure digest package state hu hj
    rcases plan_effect digest hinv hu hl with he | ⟨package', state', -, hall⟩
    · obtain ⟨h1, h2, h3, bytes', h4, h5⟩ := hj
      exact ⟨state, ⟨h1, h2, h3, bytes', h4, he.trans h5⟩, fun h => h⟩
    · exact ⟨state', hall package state hj⟩

theorem Later.trans {d'' : Disk Root} (h : Later d d') (h' : Later d' d'') : Later d d'' := by
  intro disclosure digest package state hu hj
  obtain ⟨state', hj', hs⟩ := h disclosure digest package state hu hj
  obtain ⟨state'', hj'', hs'⟩ := h' disclosure digest package state' hu hj'
  exact ⟨state'', hj'', fun h => hs' (hs h)⟩

theorem journalInv_empty : JournalInv emptyStore := fun _ _ _ _ _ h => by cases h

/-- A read that returns 200 returns what the journal authorizes. -/
theorem readPublication_ok {digest : String} {payload : Bytes} (hinv : JournalInv d)
    (h : readPublication disclosure digest d = .ok (.status 200 payload)) :
    ∃ package, Journaled d disclosure digest package "exported" ∧
      payload.length = package.payload.length ∧ sha256 payload = sha256 package.payload := by
  obtain ⟨relative, hp, h⟩ := Except.bind_eq_ok.1 h
  obtain ⟨hu, hg⟩ := publicationPath_ok hp
  obtain ⟨record, hr, h⟩ := Except.bind_eq_ok.1 h
  cases hl : (d .journalRoot).lookup (journalName disclosure digest) with
  | none =>
    rw [readRecord, hl] at hr
    cases hr
    cases h
  | some bytes =>
    obtain ⟨package, state, hj⟩ := hinv disclosure digest bytes hu hg hl
    rw [readRecord_journaled hj] at hr
    cases hr
    simp only [show field? (recordSorted package.envelope package.payload state) "state" =
      some (.str state) from rfl] at h
    split_ifs at h with hst
    · cases h
    · have hexp : state = "exported" := by
        rcases List.mem_pair.1 hj.2.2.1 with rfl | rfl
        · rfl
        · exact absurd rfl hst
      subst hexp
      unfold readPayload at h
      split at h
      · cases h
      · simp only [show field? (recordSorted package.envelope package.payload "exported")
          "byte_count" = some (.int package.payload.length) from rfl,
          show field? (recordSorted package.envelope package.payload "exported")
          "package_sha256" = some (.str (hex (sha256 package.payload).1)) from rfl] at h
        split_ifs at h with h1 h2
        · cases h
        · cases h
        · simp only [Except.ok.injEq, Outcome.status.injEq, true_and] at h
          subst h
          simp only [ne_eq, not_not, Json.int.injEq, Json.str.injEq] at h1 h2
          exact ⟨package, hj, by exact_mod_cast h1.symm, Subtype.ext (hex_injective h2.symm)⟩

/-- A retired publication is not read. -/
theorem readPublication_retired {digest : String} {package : PreparedPackage} {payload : Bytes}
    (hj : Journaled d disclosure digest package "retired") :
    readPublication disclosure digest d ≠ .ok (.status 200 payload) := by
  intro h
  obtain ⟨relative, hp, h⟩ := Except.bind_eq_ok.1 h
  obtain ⟨record, hr, h⟩ := Except.bind_eq_ok.1 h
  rw [readRecord_journaled hj] at hr
  cases hr
  simp only [show field? (recordSorted package.envelope package.payload "retired") "state" =
    some (.str "retired") from rfl] at h
  rw [if_pos trivial] at h
  cases h

end

/-! ## Safety of every run -/

theorem journalInv_run {es : List (Operation × Result)} {d : Disk Root}
    (h : PublicationRun emptyStore es d) : JournalInv d :=
  Run.invariant (fun hinv hs => (hinv.step hs).1) h journalInv_empty

theorem later_run {es : List (Operation × Result)} {d d' : Disk Root} (hinv : JournalInv d)
    (h : PublicationRun d es d') : Later d d' :=
  Run.relates (fun hinv hs => hinv.step hs) (fun _ _ _ _ state _ hj => ⟨state, hj, fun h => h⟩)
    (fun h h' => h.trans h') h hinv

theorem Journaled.canonical {d : Disk Root} {disclosure digest state : String}
    {package : PreparedPackage} (h : Journaled d disclosure digest package state) :
    canonicalUuid disclosure = true := by
  rw [← h.1]
  exact package.disclosureVersion

theorem PublicationStep.returned {d d' : Disk Root} {op : Operation} {outcome : Outcome}
    (h : PublicationStep d (op, .returned outcome) d') :
    (plan d op).outcome = .ok outcome ∧ d.perform (plan d op).actions = (d', true) := by
  generalize hr : Result.returned outcome = r at h
  cases h with
  | done h =>
    refine ⟨?_, h⟩
    cases ho : (plan d op).outcome with
    | error e => rw [ho] at hr; cases hr
    | ok o => rw [ho] at hr; cases hr; rfl
  | failed h => cases hr
  | crashed h => cases hr

/-- An export that returns has journaled its package. -/
theorem journaled_of_exported {d d' : Disk Root} {package : PreparedPackage} {id id' : String}
    {outcome : Outcome} (h : PublicationStep d (.export package id id', .returned outcome) d') :
    Journaled d' package.envelope.disclosureVersion package.envelope.sampleHash package
      "exported" := by
  obtain ⟨ho, hp⟩ := h.returned
  simp only [plan, exportPlan, package.loaded] at ho hp
  cases hpath : publicationPath package.envelope.disclosureVersion package.envelope.sampleHash with
  | error e => rw [hpath] at ho; cases ho
  | ok relative =>
    rw [hpath] at ho hp
    simp only at ho hp
    cases hr : readRecord d package.envelope.disclosureVersion package.envelope.sampleHash with
    | error e => rw [hr] at ho; cases ho
    | ok old =>
      rw [hr] at ho hp
      simp only at ho hp
      split_ifs at ho hp
      · cases ho
      · cases hb : canonicalJsonBytes
            (.obj (recordFields package.envelope package.payload "exported")) with
        | error e => rw [hb] at ho; cases ho
        | ok bytes =>
          rw [hb] at hp
          obtain ⟨d₁, -, hp⟩ := Disk.perform_append_ok hp
          exact ⟨rfl, rfl, by simp, bytes, hb, Disk.perform_atomicWrite
            (journalName_ne_pending package.disclosureVersion) hp⟩

/-- A retirement that returns has written the tombstone. -/
theorem journaled_of_retired {d d' : Disk Root} {disclosure digest id : String} {outcome : Outcome}
    (hinv : JournalInv d) (h : PublicationStep d (.retire disclosure digest id, .returned outcome) d') :
    ∃ package, Journaled d' disclosure digest package "retired" := by
  obtain ⟨ho, hp⟩ := h.returned
  simp only [plan, retirePlan] at ho hp
  cases hpath : publicationPath disclosure digest with
  | error e => rw [hpath] at ho; cases ho
  | ok relative =>
    rw [hpath] at ho hp
    simp only at ho hp
    obtain ⟨hu, hg⟩ := publicationPath_ok hpath
    cases hl : (d .journalRoot).lookup (journalName disclosure digest) with
    | none =>
      rw [show readRecord d disclosure digest = .ok none by rw [readRecord, hl]] at ho
      cases ho
    | some old =>
      obtain ⟨package, state, hj⟩ := hinv disclosure digest old hu hg hl
      obtain ⟨bytes, hb, hb'⟩ := canonicalJsonBytes_retired package state
      rw [readRecord_journaled hj] at hp
      simp only at hp
      rw [hb] at hp
      obtain ⟨d₁, h1, h2⟩ := Disk.perform_append_ok hp
      have hw := Disk.perform_atomicWrite (journalName_ne_pending hu) h1
      have hu := Disk.leaves_perform d₁ [.unlink Root.publicRoot relative]
      rw [h2] at hu
      exact ⟨package, hj.1, hj.2.1, by simp, bytes, hb', (leaves_unlink hu).trans hw⟩

/-- **Every run of a publication store is safe.**  From any reachable store: a
    completed export has journaled its package and a completed retirement its
    tombstone; a read returns 200 only with bytes of the journaled size and hash;
    an identity is never journaled for two packages; a tombstone stays, and what
    it retires is not read again. -/
theorem publicationStore_safe {es es' : List (Operation × Result)} {d d' : Disk Root}
    (h : PublicationRun emptyStore es d) (h' : PublicationRun d es' d')
    (disclosure digest : String) :
    (∀ package id id' outcome d'',
      PublicationStep d (.export package id id', .returned outcome) d'' →
        Journaled d'' package.envelope.disclosureVersion package.envelope.sampleHash package
          "exported") ∧
    (∀ id outcome d'', PublicationStep d (.retire disclosure digest id, .returned outcome) d'' →
      ∃ package, Journaled d'' disclosure digest package "retired") ∧
    (∀ payload d'', PublicationStep d (.read disclosure digest, .returned (.status 200 payload)) d'' →
      ∃ package, Journaled d disclosure digest package "exported" ∧
        payload.length = package.payload.length ∧ sha256 payload = sha256 package.payload) ∧
    (∀ package state package' state', Journaled d disclosure digest package state →
      Journaled d' disclosure digest package' state' →
      package.envelope = package'.envelope ∧ (package.payload = package'.payload ∨
        HashCollision [package.payload] [package'.payload])) ∧
    (∀ package, Journaled d disclosure digest package "retired" →
      Journaled d' disclosure digest package "retired" ∧ ∀ payload d'',
        ¬ PublicationStep d' (.read disclosure digest, .returned (.status 200 payload)) d'') := by
  have hinv := journalInv_run h
  have hlater := later_run hinv h'
  refine ⟨fun _ _ _ _ _ h => journaled_of_exported h, fun _ _ _ h => journaled_of_retired hinv h,
    fun _ _ h => readPublication_ok hinv h.returned.1, ?_, ?_⟩
  · intro package state package' state' hj hj'
    obtain ⟨state'', hj'', -⟩ := hlater disclosure digest package state hj.canonical hj
    obtain ⟨he, hs, -, -⟩ := hj''.unique hj'
    refine ⟨he, ?_⟩
    by_cases hp : package.payload = package'.payload
    · exact Or.inl hp
    · exact Or.inr ⟨_, by simp, _, by simp, hp, hs⟩
  · intro package hj
    obtain ⟨state, hj', hs⟩ := hlater disclosure digest package "retired" hj.canonical hj
    rw [hs rfl] at hj'
    exact ⟨hj', fun _ _ h => readPublication_retired hj' h.returned.1⟩

/-- The export of a package of a new identity, with fresh temporary names,
    returns. -/
theorem export_returns {d : Disk Root} (package : PreparedPackage) (id id' : String)
    (hnew : (d .journalRoot).lookup
      (journalName package.envelope.disclosureVersion package.envelope.sampleHash) = none)
    (hid : (d .publicRoot).lookup
      (pending (publicParent package.envelope.disclosureVersion) id) = none)
    (hid' : (d .journalRoot).lookup (pending "" id') = none) :
    ∃ outcome d', PublicationStep d (.export package id id', .returned outcome) d' := by
  obtain ⟨relative, hpath⟩ : ∃ relative, publicationPath package.envelope.disclosureVersion
      package.envelope.sampleHash = .ok relative := by
    rw [publicationPath, package.disclosureVersion, package.sampleHash]
    exact ⟨_, rfl⟩
  obtain ⟨bytes, hb⟩ : ∃ bytes, canonicalJsonBytes
      (.obj (recordFields package.envelope package.payload "exported")) = .ok bytes := by
    rw [canonicalJsonBytes, normalize_record _ _ package.size]
    exact ⟨_, rfl⟩
  obtain ⟨d₁, h1⟩ : ∃ d₁, d.perform (Disk.atomicWrite .publicRoot
      (pending (publicParent package.envelope.disclosureVersion) id) relative package.payload) =
        (d₁, true) := Disk.atomicWrite_completes hid
  have hpub := Disk.leaves_perform d (Disk.atomicWrite .publicRoot
    (pending (publicParent package.envelope.disclosureVersion) id) relative package.payload)
  rw [h1] at hpub
  obtain ⟨d₂, h2⟩ : ∃ d₂, d₁.perform (Disk.atomicWrite .journalRoot (pending "" id')
      (journalName package.envelope.disclosureVersion package.envelope.sampleHash) bytes) =
        (d₂, true) := Disk.atomicWrite_completes ((leaves_public hpub).trans hid')
  have hread : readRecord d package.envelope.disclosureVersion package.envelope.sampleHash =
      .ok none := by rw [readRecord, hnew]
  have hplan : exportPlan package id id' d = ⟨Disk.atomicWrite .publicRoot
      (pending (publicParent package.envelope.disclosureVersion) id) relative package.payload ++
    Disk.atomicWrite .journalRoot (pending "" id')
      (journalName package.envelope.disclosureVersion package.envelope.sampleHash) bytes, .ok (.exported (.obj (recordFields
      package.envelope package.payload "exported" ++ [("object_metadata", objectMetadata)])))⟩ := by
    simp only [exportPlan, package.loaded, hpath, hread, hb]
    exact if_neg (by simp)
  have hdone := PublicationStep.done (show d.perform (plan d (.export package id id')).actions =
    (d₂, true) by
      show d.perform (exportPlan package id id' d).actions = (d₂, true)
      rw [hplan, Disk.perform_append, h1]
      exact h2)
  rw [show (plan d (.export package id id')).outcome = _ from congrArg Plan.outcome hplan] at hdone
  exact ⟨_, d₂, hdone⟩

/-- The envelope of a package of no rows. -/
def emptyEnvelope : Envelope where
  commitmentId := "00000000-0000-0000-0000-000000000001"
  schemaDigest := "AAAAAAAAAAAAAAAAAAAAAAAAAAAAAAAAAAAAAAAAAAA"
  disclosureVersion := "00000000-0000-0000-0000-000000000002"
  sampleHash := "aaaaaaaaaaaaaaaaaaaaaaaaaaaaaaaaaaaaaaaaaaaaaaaaaaaaaaaaaaaaaaaa"

/-- Its text. -/
def emptyEnvelopeJson : Json :=
  .obj [("commitment_id", .str emptyEnvelope.commitmentId),
    ("disclosure_version", .str emptyEnvelope.disclosureVersion), ("entries", .arr []),
    ("package_profile", .str "aim-preview-package-v2"),
    ("sample_hash", .str emptyEnvelope.sampleHash),
    ("schema_digest", .str emptyEnvelope.schemaDigest)]

def emptyPackage : PreparedPackage where
  payload := Utf8.encode emptyEnvelopeJson.dumps
  envelope := emptyEnvelope
  loaded := by
    have hproper : emptyEnvelopeJson.Proper := by
      refine ⟨by decide, trivial, trivial, trivial, trivial, trivial, trivial, trivial⟩
    unfold envelopeOf loads
    rw [Utf8.decode_encode]
    simp only [Option.bind_eq_bind, Option.bind_some, Json.parse_dumps hproper]
    rfl
  commitmentId := by decide
  schemaDigest := ⟨⟨List.replicate 32 0, by simp⟩, by decide⟩
  disclosureVersion := by decide
  sampleHash := by decide
  size := by decide +kernel

theorem publicationStore_safe_empty : ∃ outcome d,
    PublicationStep emptyStore (.export emptyPackage "1" "2", .returned outcome) d ∧
    ∀ payload d', PublicationStep d (.read emptyEnvelope.disclosureVersion emptyEnvelope.sampleHash,
        .returned (.status 200 payload)) d' →
      ∃ package, Journaled d emptyEnvelope.disclosureVersion emptyEnvelope.sampleHash package
        "exported" ∧ payload.length = package.payload.length ∧
          sha256 payload = sha256 package.payload := by
  obtain ⟨outcome, d, hstep⟩ := export_returns (d := emptyStore) emptyPackage "1" "2" rfl rfl rfl
  exact ⟨outcome, d, hstep, (publicationStore_safe (.cons hstep .nil) .nil
    emptyEnvelope.disclosureVersion emptyEnvelope.sampleHash).2.2.1⟩

end AimData
