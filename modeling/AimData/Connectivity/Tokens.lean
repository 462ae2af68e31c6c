/-
  Connectivity tokens: the credentials of external clients.

  A raw token is `vzmcp_<id>_<secret>` and is shown once; the database keeps the keyed hash of
  its secret.  Of any calls, a raw token is accepted just if it was issued, is not revoked and
  has not expired (`token_verification`), as far as the hash has no collisions, and the number
  of active tokens stays within the limit (`active_tokens_bounded`).
-/
import AimData.Lib.Run
import AimData.Lib.Table
import AimData.Preview.Publication

namespace AimData

namespace Connectivity

/-! ## Raw tokens -/

/-- `ConnectivityTokenError` -/
structure TokenError where
  code : String
  message : String
  deriving DecidableEq

def invalidFormat : TokenError := ⟨"auth_invalid", "Invalid token format"⟩

def tokenIdChar (c : Char) : Bool :=
  ('a' ≤ c ∧ c ≤ 'z') ∨ ('A' ≤ c ∧ c ≤ 'Z') ∨ ('0' ≤ c ∧ c ≤ '9')

def secretChar (c : Char) : Bool := ('a' ≤ c ∧ c ≤ 'f') ∨ ('0' ≤ c ∧ c ≤ '9')

/-- `re.match(r"^[…]{n}$", s)`, where `$` also matches before a line feed at the end. -/
def matchesClass (p : Char → Bool) (n : ℕ) (s : List Char) : Bool :=
  let body := if s.getLast? = some '\n' then s.dropLast else s
  body.length = n && body.all p

def rawToken (tokenId secret : List Char) : List Char :=
  ['v', 'z', 'm', 'c', 'p', '_'] ++ tokenId ++ '_' :: secret

/-- `parse_token` -/
def parseToken (raw : List Char) : Except TokenError (List Char × List Char) :=
  if ¬ ['v', 'z', 'm', 'c', 'p', '_'] <+: raw then .error invalidFormat
  else
    match raw.splitOn '_' with
    | [_, tokenId, secret] =>
      if ¬ matchesClass tokenIdChar 8 tokenId then .error invalidFormat
      else if ¬ matchesClass secretChar 32 secret then .error invalidFormat
      else .ok (tokenId, secret)
    | _ => .error invalidFormat

/-- `_hmac_hash` -/
def hmacHash (pepper : Bytes) (secret : List Char) : String :=
  hex (hmacSha256 pepper (Utf8.encode secret)).1

/-! ## The service -/

def validScopes : List String := ["ext:sql", "ext:schema", "ext:datasets", "ext:profile", "ext:pii"]

structure ConnectivityTokenRecord where
  id : List Char
  label : String
  hmacHash : String
  secretLast4 : List Char
  scopes : List String
  createdAt : ℚ
  expiresAt : Option ℚ
  lastUsedAt : Option ℚ
  requestCount : ℕ
  isRevoked : Bool
  revokedAt : Option ℚ
  deriving DecidableEq

structure ConnectivityToken where
  id : List Char
  label : String
  scopes : List String
  secretLast4 : List Char
  createdAt : ℚ
  expiresAt : Option ℚ
  lastUsedAt : Option ℚ
  requestCount : ℕ
  isRevoked : Bool
  deriving DecidableEq

/-- The token that is returned for a record. -/
def ConnectivityTokenRecord.token (record : ConnectivityTokenRecord) : ConnectivityToken where
  id := record.id
  label := record.label
  scopes := record.scopes
  secretLast4 := record.secretLast4
  createdAt := record.createdAt
  expiresAt := record.expiresAt
  lastUsedAt := record.lastUsedAt
  requestCount := record.requestCount
  isRevoked := record.isRevoked

/-- The table of tokens, each under its id. -/
abbrev Records := List ConnectivityTokenRecord

namespace Records

def get (records : Records) (tokenId : List Char) : Option ConnectivityTokenRecord :=
  records.find? fun record => record.id = tokenId

def put (records : Records) (record : ConnectivityTokenRecord) : Records :=
  Table.upsert ConnectivityTokenRecord.id records record

/-- The number of tokens that are not revoked. -/
def active (records : Records) : ℕ := records.countP fun record => record.isRevoked = false

end Records

/-- `verify_token`, which reads the clock for the expiry and for the use. -/
def verifyToken (pepper : Bytes) (records : Records) (now usedAt : ℚ) (raw : List Char) :
    Except TokenError ConnectivityToken × Records :=
  match parseToken raw with
  | .error e => (.error e, records)
  | .ok (tokenId, secret) =>
    match records.get tokenId with
    | none => (.error ⟨"auth_invalid", "Unknown token"⟩, records)
    | some record =>
      if record.hmacHash ≠ hmacHash pepper secret then
        (.error ⟨"auth_invalid", "Invalid token"⟩, records)
      else if record.isRevoked then
        (.error ⟨"auth_revoked", "Token has been revoked"⟩, records)
      else if record.expiresAt.any fun expires => expires < now then
        (.error ⟨"auth_expired", "Token has expired"⟩, records)
      else
        let record := { record with
          lastUsedAt := some usedAt, requestCount := record.requestCount + 1 }
        (.ok record.token, records.put record)

/-- The arguments of `create_token` -/
structure CreateRequest where
  label : String
  scopes : Option (List String)
  expiresAt : Option ℚ
  maxTokens : ℤ

def CreateRequest.granted (request : CreateRequest) : List String :=
  request.scopes.getD validScopes

def newRecord (pepper : Bytes) (now : ℚ) (tokenId secret : List Char) (request : CreateRequest) :
    ConnectivityTokenRecord where
  id := tokenId
  label := request.label
  hmacHash := hmacHash pepper secret
  secretLast4 := secret.drop (secret.length - 4)
  scopes := request.granted
  createdAt := now
  expiresAt := request.expiresAt
  lastUsedAt := none
  requestCount := 0
  isRevoked := false
  revokedAt := none

/-- `create_token`, with the ids and the secret that are drawn. -/
def createToken (pepper : Bytes) (records : Records) (now : ℚ) (request : CreateRequest)
    (draws : List (List Char)) (secret : List Char) :
    Except TokenError (List Char × ConnectivityToken) × Records :=
  let invalid := request.granted.filter fun scope => scope ∉ validScopes
  if invalid ≠ [] then
    (.error ⟨"scope_denied", "Invalid scopes: " ++
      ", ".intercalate (invalid.dedup.insertionSort (· ≤ ·))⟩, records)
  else if request.maxTokens ≤ records.active then
    (.error ⟨"rate_limited", "Maximum " ++ toString request.maxTokens ++
      " active tokens allowed. Revoke an existing token first."⟩, records)
  else
    match (draws.take 10).find? fun tokenId => (records.get tokenId).isNone with
    | none => (.error ⟨"internal_error", "Failed to generate unique token ID"⟩, records)
    | some tokenId =>
      let record := newRecord pepper now tokenId secret request
      (.ok (rawToken tokenId secret, record.token), records.put record)

/-- `revoke_token` -/
def revokeToken (records : Records) (now : ℚ) (tokenId : List Char) :
    Except TokenError ConnectivityToken × Records :=
  match records.get tokenId with
  | none => (.error ⟨"auth_invalid", "Token not found"⟩, records)
  | some record =>
    if record.isRevoked then (.error ⟨"auth_revoked", "Token is already revoked"⟩, records)
    else
      let record := { record with isRevoked := true, revokedAt := some now }
      (.ok record.token, records.put record)

/-! ## What is parsed -/

/-- The id and the secret that are drawn for a token. -/
structure Drawn (tokenId secret : List Char) : Prop where
  idLength : tokenId.length = 8
  idChars : ∀ c ∈ tokenId, tokenIdChar c = true
  secretLength : secret.length = 32
  secretChars : ∀ c ∈ secret, secretChar c = true

theorem matchesClass_of_all {p : Char → Bool} {s : List Char} (hp : p '\n' = false)
    (h : ∀ c ∈ s, p c = true) : matchesClass p s.length s = true := by
  have hlast : s.getLast? ≠ some '\n' := by
    intro hlast
    have := h _ (List.mem_of_getLast? hlast)
    simp [hp] at this
  simp [matchesClass, if_neg hlast, List.all_eq_true.2 h]

theorem parseToken_rawToken {tokenId secret : List Char} (h : Drawn tokenId secret) :
    parseToken (rawToken tokenId secret) = .ok (tokenId, secret) := by
  have hid : '_' ∉ tokenId := fun hmem => absurd (h.idChars _ hmem) (by decide)
  have hsecret : '_' ∉ secret := fun hmem => absurd (h.secretChars _ hmem) (by decide)
  have hsplit : (rawToken tokenId secret).splitOn '_' =
      [['v', 'z', 'm', 'c', 'p'], tokenId, secret] := by
    have hjoin : rawToken tokenId secret =
        ['_'].intercalate [['v', 'z', 'm', 'c', 'p'], tokenId, secret] := by
      simp [rawToken, List.intercalate]
    rw [hjoin, List.splitOn_intercalate]
    · simp [hid, hsecret]
    · simp
  rw [parseToken, if_neg (by simp [rawToken]), hsplit]
  have hidClass := matchesClass_of_all (by decide) h.idChars
  have hsecretClass := matchesClass_of_all (by decide) h.secretChars
  rw [h.idLength] at hidClass
  rw [h.secretLength] at hsecretClass
  simp [hidClass, hsecretClass]

theorem splitOn_start (rest : List Char) :
    (['v', 'z', 'm', 'c', 'p', '_'] ++ rest).splitOn '_' =
      ['v', 'z', 'm', 'c', 'p'] :: rest.splitOn '_' :=
  @List.splitOnP_append_cons_of_forall_mem _ (· == '_') ['v', 'z', 'm', 'c', 'p'] (by simp) '_'
    (by simp) rest

/-- A raw token is settled by its id and its secret. -/
theorem rawToken_of_parse {raw tokenId secret : List Char}
    (h : parseToken raw = .ok (tokenId, secret)) : raw = rawToken tokenId secret := by
  rw [parseToken] at h
  split_ifs at h with hprefix
  obtain ⟨rest, rfl⟩ := hprefix
  rw [splitOn_start] at h
  split at h
  · rename_i head tokenId' secret' hsplit
    split_ifs at h
    obtain ⟨rfl, rfl⟩ := Prod.mk.inj (Except.ok.inj h)
    have hrest : ['_'].intercalate (rest.splitOn '_') = rest := List.intercalate_splitOn '_'
    rw [(List.cons.inj hsplit).2] at hrest
    rw [← hrest]
    simp [rawToken, List.intercalate]
  · cases h

/-! ## What a call does -/

/-- The record after a use. -/
def ConnectivityTokenRecord.used (record : ConnectivityTokenRecord) (usedAt : ℚ) :
    ConnectivityTokenRecord :=
  { record with lastUsedAt := some usedAt, requestCount := record.requestCount + 1 }

def ConnectivityTokenRecord.revoked (record : ConnectivityTokenRecord) (now : ℚ) :
    ConnectivityTokenRecord :=
  { record with isRevoked := true, revokedAt := some now }

/-- The token may be used at the time. -/
def ConnectivityTokenRecord.Usable (record : ConnectivityTokenRecord) (now : ℚ) : Prop :=
  record.isRevoked = false ∧ ∀ expires, record.expiresAt = some expires → now ≤ expires

section
variable {pepper : Bytes} {records : Records} {record r : ConnectivityTokenRecord}
  {now usedAt : ℚ} {raw tokenId secret : List Char}

theorem Records.mem_of_get (h : records.get tokenId = some record) :
    record ∈ records ∧ record.id = tokenId :=
  ⟨List.mem_of_find?_eq_some h, by simpa using List.find?_some h⟩

theorem Records.get_none (h : records.get tokenId = none) : ∀ r ∈ records, r.id ≠ tokenId := by
  intro r hr heq
  have hne := List.find?_eq_none.1 h r hr
  simp [heq] at hne

theorem Records.get_of_mem (hnodup : (records.map ConnectivityTokenRecord.id).Nodup)
    (hr : r ∈ records) : records.get r.id = some r := by
  cases hget : records.get r.id with
  | none => exact absurd rfl (get_none hget r hr)
  | some r' =>
    obtain ⟨hmem, hid⟩ := mem_of_get hget
    rw [List.inj_on_of_nodup_map hnodup hmem hr hid]

theorem Records.mem_put (hnodup : (records.map ConnectivityTokenRecord.id).Nodup) :
    r ∈ records.put record ↔ r = record ∨ (r ∈ records ∧ r.id ≠ record.id) :=
  Table.mem_upsert hnodup

/-- What `verify_token` may do. -/
inductive Verified (pepper : Bytes) (records : Records) (now usedAt : ℚ) (raw : List Char) :
    Except TokenError ConnectivityToken → Records → Prop
  | refused {e : TokenError} : Verified pepper records now usedAt raw (.error e) records
  | accepted {record : ConnectivityTokenRecord} {secret : List Char} : record ∈ records →
    raw = rawToken record.id secret → record.hmacHash = hmacHash pepper secret →
    record.Usable now →
    Verified pepper records now usedAt raw (.ok (record.used usedAt).token)
      (records.put (record.used usedAt))

theorem verified : Verified pepper records now usedAt raw
    (verifyToken pepper records now usedAt raw).1
    (verifyToken pepper records now usedAt raw).2 := by
  rw [verifyToken]
  cases hparse : parseToken raw with
  | error e => exact .refused
  | ok parsed =>
    obtain ⟨tokenId, secret⟩ := parsed
    dsimp only
    cases hget : records.get tokenId with
    | none => exact .refused
    | some record =>
      obtain ⟨hmem, rfl⟩ := Records.mem_of_get hget
      dsimp only
      split_ifs with hhash hrevoked hexpired
      · exact .refused
      · exact .refused
      · exact .refused
      · refine .accepted hmem (rawToken_of_parse hparse) (not_not.1 hhash)
          ⟨by simpa using hrevoked, ?_⟩
        intro expires hexpires
        rw [hexpires] at hexpired
        simpa using hexpired

/-- The holder of the secret of a token is served while the token may be used. -/
theorem verify_holder (hnodup : (records.map ConnectivityTokenRecord.id).Nodup)
    (hr : record ∈ records) (hdrawn : Drawn record.id secret)
    (hhash : record.hmacHash = hmacHash pepper secret) (husable : record.Usable now) :
    (verifyToken pepper records now usedAt (rawToken record.id secret)).1 =
      .ok (record.used usedAt).token := by
  rw [verifyToken, parseToken_rawToken hdrawn]
  dsimp only
  rw [Records.get_of_mem hnodup hr]
  dsimp only
  rw [if_neg (not_not.2 hhash), if_neg (by simp [husable.1]), if_neg]
  · rfl
  · cases hexpires : record.expiresAt with
    | none => simp
    | some expires => simpa using husable.2 expires hexpires

/-- What `create_token` may do. -/
inductive Created (pepper : Bytes) (records : Records) (now : ℚ) (request : CreateRequest)
    (draws : List (List Char)) (secret : List Char) :
    Except TokenError (List Char × ConnectivityToken) → Records → Prop
  | refused {e : TokenError} : Created pepper records now request draws secret (.error e) records
  | issued {tokenId : List Char} : tokenId ∈ draws → (∀ r ∈ records, r.id ≠ tokenId) →
    (∀ scope ∈ request.granted, scope ∈ validScopes) → (records.active : ℤ) < request.maxTokens →
    Created pepper records now request draws secret
      (.ok (rawToken tokenId secret, (newRecord pepper now tokenId secret request).token))
      (records.put (newRecord pepper now tokenId secret request))

theorem created {request : CreateRequest} {draws : List (List Char)} :
    Created pepper records now request draws secret
      (createToken pepper records now request draws secret).1
      (createToken pepper records now request draws secret).2 := by
  rw [createToken]
  dsimp only
  split_ifs with hscopes hfull
  · exact .refused
  · exact .refused
  · cases hfind : (draws.take 10).find? fun tokenId => (records.get tokenId).isNone with
    | none => exact .refused
    | some tokenId =>
      have hnone : records.get tokenId = none := by simpa using List.find?_some hfind
      refine .issued (List.mem_of_mem_take (List.mem_of_find?_eq_some hfind))
        (Records.get_none hnone) ?_ (not_le.1 hfull)
      simpa [List.filter_eq_nil_iff] using hscopes

/-- What `revoke_token` may do. -/
inductive RevokedAt (records : Records) (now : ℚ) (tokenId : List Char) :
    Except TokenError ConnectivityToken → Records → Prop
  | refused {e : TokenError} : RevokedAt records now tokenId (.error e) records
  | done {record : ConnectivityTokenRecord} : record ∈ records → record.id = tokenId →
    record.isRevoked = false →
    RevokedAt records now tokenId (.ok (record.revoked now).token)
      (records.put (record.revoked now))

theorem revokedAt : RevokedAt records now tokenId (revokeToken records now tokenId).1
    (revokeToken records now tokenId).2 := by
  rw [revokeToken]
  cases hget : records.get tokenId with
  | none => exact .refused
  | some record =>
    obtain ⟨hmem, hid⟩ := Records.mem_of_get hget
    dsimp only
    split_ifs with hrevoked
    · exact .refused
    · exact .done hmem hid (by simpa using hrevoked)

end

/-! ## Runs -/

inductive TokenEvent where
  | create (request : CreateRequest) (result : Except TokenError (List Char × ConnectivityToken))
  | verify (raw : List Char) (now : ℚ) (result : Except TokenError ConnectivityToken)
  | revoke (tokenId : List Char) (result : Except TokenError ConnectivityToken)

/-- The table and the clock. -/
structure TokenSystem where
  records : Records
  clock : ℚ

def TokenSystem.start (clock : ℚ) : TokenSystem := ⟨[], clock⟩

/-- One call.  The clock does not go back. -/
inductive TokenStep (pepper : Bytes) : TokenSystem → TokenEvent → TokenSystem → Prop
  | create {s : TokenSystem} {now : ℚ} {request : CreateRequest} {draws : List (List Char)}
    {secret : List Char} : s.clock ≤ now → (∀ tokenId ∈ draws, Drawn tokenId secret) →
    TokenStep pepper s (.create request (createToken pepper s.records now request draws secret).1)
      ⟨(createToken pepper s.records now request draws secret).2, now⟩
  | verify {s : TokenSystem} {now usedAt : ℚ} {raw : List Char} : s.clock ≤ now → now ≤ usedAt →
    TokenStep pepper s (.verify raw now (verifyToken pepper s.records now usedAt raw).1)
      ⟨(verifyToken pepper s.records now usedAt raw).2, usedAt⟩
  | revoke {s : TokenSystem} {now : ℚ} {tokenId : List Char} : s.clock ≤ now →
    TokenStep pepper s (.revoke tokenId (revokeToken s.records now tokenId).1)
      ⟨(revokeToken s.records now tokenId).2, now⟩

namespace TokenEvent

def isIssue : TokenEvent → Bool
  | create _ (.ok _) => true
  | _ => false

/-- The call accepts a raw token of the id. -/
def accepts (tokenId : List Char) : TokenEvent → Bool
  | verify _ _ (.ok token) => token.id = tokenId
  | _ => false

/-- The call revokes the id. -/
def revokes (tokenId : List Char) : TokenEvent → Bool
  | revoke id (.ok _) => id = tokenId
  | _ => false

end TokenEvent

/-- The number of times that the token was accepted. -/
def uses (es : List TokenEvent) (tokenId : List Char) : ℕ := es.countP (·.accepts tokenId)

def isRevoked (es : List TokenEvent) (tokenId : List Char) : Bool := es.any (·.revokes tokenId)

/-- The record is of a token that was issued on the request, with the raw token. -/
structure IssuedFor (pepper : Bytes) (request : CreateRequest) (raw : List Char)
    (r : ConnectivityTokenRecord) : Prop where
  label : r.label = request.label
  scopes : r.scopes = request.granted
  valid : ∀ scope ∈ request.granted, scope ∈ validScopes
  expiresAt : r.expiresAt = request.expiresAt
  secret : ∃ secret, Drawn r.id secret ∧ raw = rawToken r.id secret ∧
    r.hmacHash = hmacHash pepper secret

/-- The table is what the calls have said. -/
structure TokenInv (pepper : Bytes) (es : List TokenEvent) (records : Records) : Prop where
  nodup : (records.map ConnectivityTokenRecord.id).Nodup
  issued : ∀ r ∈ records, ∃ request raw token,
    TokenEvent.create request (.ok (raw, token)) ∈ es ∧ token.id = r.id ∧
      IssuedFor pepper request raw r
  kept : ∀ request raw token, TokenEvent.create request (.ok (raw, token)) ∈ es →
    ∃ r ∈ records, r.id = token.id ∧ IssuedFor pepper request raw r
  revoked : ∀ r ∈ records, r.isRevoked = isRevoked es r.id
  count : ∀ r ∈ records, r.requestCount = uses es r.id
  fresh : ∀ tokenId, (∀ r ∈ records, r.id ≠ tokenId) →
    ∀ e ∈ es, e.accepts tokenId = false ∧ e.revokes tokenId = false

section
variable {pepper : Bytes} {es : List TokenEvent} {e : TokenEvent} {records : Records}
  {r r' : ConnectivityTokenRecord} {s s' : TokenSystem}

theorem uses_append {tokenId : List Char} : uses (es ++ [e]) tokenId =
    uses es tokenId + if e.accepts tokenId then 1 else 0 := by
  rw [uses, List.countP_append, List.countP_singleton]
  rfl

theorem isRevoked_append {tokenId : List Char} : isRevoked (es ++ [e]) tokenId =
    (isRevoked es tokenId || e.revokes tokenId) := by
  simp [isRevoked]

theorem create_mem_append {request : CreateRequest} {raw : List Char} {token : ConnectivityToken}
    (he : e.isIssue = false) : TokenEvent.create request (.ok (raw, token)) ∈ es ++ [e] ↔
      TokenEvent.create request (.ok (raw, token)) ∈ es := by
  rw [List.mem_append, List.mem_singleton, or_iff_left]
  rintro rfl
  exact absurd he (by simp [TokenEvent.isIssue])

theorem inv_nil : TokenInv pepper [] [] where
  nodup := List.nodup_nil
  issued := fun _ h => absurd h List.not_mem_nil
  kept := fun _ _ _ h => absurd h List.not_mem_nil
  revoked := fun _ h => absurd h List.not_mem_nil
  count := fun _ h => absurd h List.not_mem_nil
  fresh := fun _ _ _ h => absurd h List.not_mem_nil

/-- A call that says nothing of a token leaves the table. -/
theorem TokenInv.refused (h : TokenInv pepper es records) (hissue : e.isIssue = false)
    (hquiet : ∀ tokenId, e.accepts tokenId = false ∧ e.revokes tokenId = false) :
    TokenInv pepper (es ++ [e]) records where
  nodup := h.nodup
  issued := by
    intro r hr
    obtain ⟨request, raw, token, hcreate, hissued⟩ := h.issued r hr
    exact ⟨request, raw, token, List.mem_append_left _ hcreate, hissued⟩
  kept := fun request raw token hmem => h.kept request raw token ((create_mem_append hissue).1 hmem)
  revoked := by
    intro r hr
    rw [isRevoked_append, (hquiet r.id).2, Bool.or_false, h.revoked r hr]
  count := by
    intro r hr
    rw [uses_append, (hquiet r.id).1, h.count r hr]
    rfl
  fresh := by
    intro tokenId hne e' he'
    rcases List.mem_append.1 he' with he' | he'
    · exact h.fresh tokenId hne e' he'
    · rw [List.mem_singleton.1 he']
      exact hquiet tokenId

/-- A call that changes the record of a token. -/
theorem TokenInv.update (h : TokenInv pepper es records) (hr : r ∈ records) (hid : r'.id = r.id)
    (hissue : e.isIssue = false)
    (hsame : ∀ request raw, IssuedFor pepper request raw r → IssuedFor pepper request raw r')
    (hrevoked : r'.isRevoked = (r.isRevoked || e.revokes r.id))
    (hcount : r'.requestCount = r.requestCount + if e.accepts r.id then 1 else 0)
    (hother : ∀ tokenId, tokenId ≠ r.id → e.accepts tokenId = false ∧ e.revokes tokenId = false) :
    TokenInv pepper (es ++ [e]) (records.put r') := by
  have hmem : ∀ {t}, t ∈ records.put r' ↔ t = r' ∨ (t ∈ records ∧ t.id ≠ r.id) := by
    intro t
    rw [Records.mem_put h.nodup, hid]
  refine ⟨Table.nodup_upsert h.nodup, ?_, ?_, ?_, ?_, ?_⟩
  · intro t ht
    rcases hmem.1 ht with rfl | ⟨ht, -⟩
    · obtain ⟨request, raw, token, hcreate, htoken, hissued⟩ := h.issued r hr
      exact ⟨request, raw, token, List.mem_append_left _ hcreate, htoken.trans hid.symm,
        hsame _ _ hissued⟩
    · obtain ⟨request, raw, token, hcreate, hissued⟩ := h.issued t ht
      exact ⟨request, raw, token, List.mem_append_left _ hcreate, hissued⟩
  · intro request raw token hcreate
    obtain ⟨t, ht, htid, hissued⟩ := h.kept request raw token ((create_mem_append hissue).1 hcreate)
    by_cases heq : t.id = r.id
    · obtain rfl := List.inj_on_of_nodup_map h.nodup ht hr heq
      exact ⟨r', hmem.2 (Or.inl rfl), hid.trans htid, hsame _ _ hissued⟩
    · exact ⟨t, hmem.2 (Or.inr ⟨ht, heq⟩), htid, hissued⟩
  · intro t ht
    rcases hmem.1 ht with rfl | ⟨ht, hne⟩
    · rw [hrevoked, hid, isRevoked_append, h.revoked r hr]
    · rw [isRevoked_append, (hother t.id hne).2, Bool.or_false, h.revoked t ht]
  · intro t ht
    rcases hmem.1 ht with rfl | ⟨ht, hne⟩
    · rw [hcount, hid, uses_append, h.count r hr]
    · rw [uses_append, (hother t.id hne).1, h.count t ht]
      rfl
  · intro tokenId hne e' he'
    have hneid : tokenId ≠ r.id := fun heq => hne r' (hmem.2 (Or.inl rfl)) (hid.trans heq.symm)
    rcases List.mem_append.1 he' with he' | he'
    · refine h.fresh tokenId ?_ e' he'
      intro t ht heq
      exact hne t (hmem.2 (Or.inr ⟨ht, heq ▸ hneid⟩)) heq
    · rw [List.mem_singleton.1 he']
      exact hother tokenId hneid

/-- A token is issued. -/
theorem TokenInv.issue (h : TokenInv pepper es records) {now : ℚ} {request : CreateRequest}
    {tokenId secret : List Char} (hfresh : ∀ r ∈ records, r.id ≠ tokenId)
    (hdrawn : Drawn tokenId secret) (hvalid : ∀ scope ∈ request.granted, scope ∈ validScopes) :
    TokenInv pepper (es ++ [.create request (.ok (rawToken tokenId secret,
        (newRecord pepper now tokenId secret request).token))])
      (records.put (newRecord pepper now tokenId secret request)) := by
  have hnew : IssuedFor pepper request (rawToken tokenId secret)
      (newRecord pepper now tokenId secret request) :=
    ⟨rfl, rfl, hvalid, rfl, secret, hdrawn, rfl, rfl⟩
  have hquiet : ∀ id, isRevoked (es ++ [.create request (.ok (rawToken tokenId secret,
      (newRecord pepper now tokenId secret request).token))]) id = isRevoked es id ∧
      uses (es ++ [.create request (.ok (rawToken tokenId secret,
      (newRecord pepper now tokenId secret request).token))]) id = uses es id := by
    intro id
    rw [isRevoked_append, uses_append]
    exact ⟨Bool.or_false _, rfl⟩
  refine ⟨Table.nodup_upsert h.nodup, ?_, ?_, ?_, ?_, ?_⟩
  · intro t ht
    rcases (Records.mem_put h.nodup).1 ht with rfl | ⟨ht, -⟩
    · exact ⟨request, _, _, List.mem_append_right _ (List.mem_singleton.2 rfl), rfl, hnew⟩
    · obtain ⟨request', raw, token, hcreate, hissued⟩ := h.issued t ht
      exact ⟨request', raw, token, List.mem_append_left _ hcreate, hissued⟩
  · intro request' raw token hcreate
    rcases List.mem_append.1 hcreate with hcreate | hcreate
    · obtain ⟨t, ht, htid, hissued⟩ := h.kept request' raw token hcreate
      exact ⟨t, (Records.mem_put h.nodup).2 (Or.inr ⟨ht, hfresh t ht⟩), htid, hissued⟩
    · obtain ⟨rfl, hresult⟩ := TokenEvent.create.inj (List.mem_singleton.1 hcreate)
      obtain ⟨rfl, rfl⟩ := Prod.mk.inj (Except.ok.inj hresult)
      exact ⟨_, (Records.mem_put h.nodup).2 (Or.inl rfl), rfl, hnew⟩
  · intro t ht
    rw [(hquiet t.id).1]
    rcases (Records.mem_put h.nodup).1 ht with rfl | ⟨ht, -⟩
    · refine (List.any_eq_false.2 fun e' he' => ?_).symm
      simp [(h.fresh tokenId hfresh e' he').2, newRecord]
    · exact h.revoked t ht
  · intro t ht
    rw [(hquiet t.id).2]
    rcases (Records.mem_put h.nodup).1 ht with rfl | ⟨ht, -⟩
    · refine (List.countP_eq_zero.2 fun e' he' => ?_).symm
      simp [(h.fresh tokenId hfresh e' he').1, newRecord]
    · exact h.count t ht
  · intro id hne e' he'
    rcases List.mem_append.1 he' with he' | he'
    · refine h.fresh id ?_ e' he'
      intro t ht heq
      exact hne t ((Records.mem_put h.nodup).2 (Or.inr ⟨ht, hfresh t ht⟩)) heq
    · rw [List.mem_singleton.1 he']
      exact ⟨rfl, rfl⟩

theorem IssuedFor.used {request : CreateRequest} {raw : List Char} {usedAt : ℚ}
    (h : IssuedFor pepper request raw r) : IssuedFor pepper request raw (r.used usedAt) :=
  ⟨h.label, h.scopes, h.valid, h.expiresAt, h.secret⟩

theorem IssuedFor.revoked {request : CreateRequest} {raw : List Char} {now : ℚ}
    (h : IssuedFor pepper request raw r) : IssuedFor pepper request raw (r.revoked now) :=
  ⟨h.label, h.scopes, h.valid, h.expiresAt, h.secret⟩

/-- What a call may do to the table. -/
inductive TokenChange (pepper : Bytes) (records : Records) : TokenEvent → Records → Prop
  | refused {e : TokenEvent} : e.isIssue = false →
    (∀ tokenId, e.accepts tokenId = false ∧ e.revokes tokenId = false) →
    TokenChange pepper records e records
  | issued {now : ℚ} {request : CreateRequest} {tokenId secret : List Char} :
    (∀ r ∈ records, r.id ≠ tokenId) → Drawn tokenId secret →
    (∀ scope ∈ request.granted, scope ∈ validScopes) → (records.active : ℤ) < request.maxTokens →
    TokenChange pepper records (.create request (.ok (rawToken tokenId secret,
        (newRecord pepper now tokenId secret request).token)))
      (records.put (newRecord pepper now tokenId secret request))
  | used {raw : List Char} {now usedAt : ℚ} {record : ConnectivityTokenRecord} :
    record ∈ records →
    TokenChange pepper records (.verify raw now (.ok (record.used usedAt).token))
      (records.put (record.used usedAt))
  | revoked {now : ℚ} {record : ConnectivityTokenRecord} : record ∈ records →
    record.isRevoked = false →
    TokenChange pepper records (.revoke record.id (.ok (record.revoked now).token))
      (records.put (record.revoked now))

theorem tokenStep_cases (hstep : TokenStep pepper s e s') :
    TokenChange pepper s.records e s'.records := by
  cases hstep with
  | @create now request draws secret hnow hdraws =>
    have hcreated := @created pepper s.records now secret request draws
    generalize createToken pepper s.records now request draws secret = result at hcreated ⊢
    obtain ⟨result, records⟩ := result
    cases hcreated with
    | refused => exact .refused rfl fun _ => ⟨rfl, rfl⟩
    | issued htokenId hfresh hvalid hroom =>
      exact .issued hfresh (hdraws _ htokenId) hvalid hroom
  | @verify now usedAt raw hnow hused =>
    have hverified := @verified pepper s.records now usedAt raw
    generalize verifyToken pepper s.records now usedAt raw = result at hverified ⊢
    obtain ⟨result, records⟩ := result
    cases hverified with
    | refused => exact .refused rfl fun _ => ⟨rfl, rfl⟩
    | accepted hrecord => exact .used hrecord
  | @revoke now tokenId hnow =>
    have hrevoked := @revokedAt s.records now tokenId
    generalize revokeToken s.records now tokenId = result at hrevoked ⊢
    obtain ⟨result, records⟩ := result
    cases hrevoked with
    | refused => exact .refused rfl fun _ => ⟨rfl, rfl⟩
    | done hrecord hid hactive => exact hid ▸ .revoked hrecord hactive

theorem TokenInv.step (h : TokenInv pepper es s.records) (hstep : TokenStep pepper s e s') :
    TokenInv pepper (es ++ [e]) s'.records := by
  have hchange := tokenStep_cases hstep
  generalize s'.records = records at hchange ⊢
  cases hchange with
  | refused hissue hquiet => exact h.refused hissue hquiet
  | issued hfresh hdrawn hvalid => exact h.issue hfresh hdrawn hvalid
  | used hrecord =>
    refine h.update hrecord rfl rfl (fun _ _ => IssuedFor.used) (Bool.or_false _).symm ?_ ?_
    · simp [ConnectivityTokenRecord.used, ConnectivityTokenRecord.token, TokenEvent.accepts]
    · exact fun tokenId hne => ⟨decide_eq_false fun heq => hne heq.symm, rfl⟩
  | revoked hrecord hactive =>
    refine h.update hrecord rfl rfl (fun _ _ => IssuedFor.revoked) ?_ rfl ?_
    · simp [ConnectivityTokenRecord.revoked, TokenEvent.revokes]
    · exact fun tokenId hne => ⟨rfl, decide_eq_false fun heq => hne heq.symm⟩

/-- The records are those that the calls before left. -/
def Recorded (pepper : Bytes) (es : List TokenEvent) (s : TokenSystem) : Prop :=
  TokenInv pepper es s.records

theorem inv_run {clock : ℚ} (h : Run (TokenStep pepper) (.start clock) es s) :
    TokenInv pepper es s.records := by
  have hstart : Recorded pepper [] (.start clock) := inv_nil
  have hend : Recorded pepper es s := h.history hstart fun _ hinv hstep => hinv.step hstep
  exact hend

/-- Two raw tokens of one id whose secrets have the same keyed hash. -/
def Collision (pepper : Bytes) (raw raw' : List Char) : Prop :=
  ∃ tokenId secret secret', raw = rawToken tokenId secret ∧ raw' = rawToken tokenId secret' ∧
    secret ≠ secret' ∧
    hmacSha256 pepper (Utf8.encode secret) = hmacSha256 pepper (Utf8.encode secret')

theorem eq_or_collision {tokenId secret secret' : List Char}
    (h : hmacHash pepper secret = hmacHash pepper secret') :
    rawToken tokenId secret = rawToken tokenId secret' ∨
      Collision pepper (rawToken tokenId secret) (rawToken tokenId secret') := by
  by_cases heq : secret = secret'
  · exact Or.inl (heq ▸ rfl)
  · exact Or.inr ⟨tokenId, secret, secret', rfl, rfl, heq, Subtype.ext (hex_injective h)⟩

/-- An acceptance after the calls is of a token that was issued, or collides with one that was,
    is not revoked and has not expired; it is told what was granted, and its uses. -/
def Accepted (pepper : Bytes) (es : List TokenEvent) (raw : List Char) (now : ℚ)
    (token : ConnectivityToken) : Prop :=
  ∃ request raw₀ token₀, TokenEvent.create request (.ok (raw₀, token₀)) ∈ es ∧
    token₀.id = token.id ∧ (raw = raw₀ ∨ Collision pepper raw raw₀) ∧
    isRevoked es token.id = false ∧
    (∀ expires, request.expiresAt = some expires → now ≤ expires) ∧
    token.label = request.label ∧ token.scopes = request.granted ∧
    (∀ scope ∈ token.scopes, scope ∈ validScopes) ∧ token.expiresAt = request.expiresAt ∧
    token.requestCount = uses es token.id + 1

theorem TokenInv.accepted (h : TokenInv pepper es s.records) {raw : List Char} {now : ℚ}
    {token : ConnectivityToken} (hstep : TokenStep pepper s (.verify raw now (.ok token)) s') :
    Accepted pepper es raw now token := by
  obtain ⟨usedAt, records, hverified⟩ :
      ∃ usedAt records, Verified pepper s.records now usedAt raw (.ok token) records := by
    generalize hresult : Except.ok token = result at hstep
    cases hstep with
    | @verify _ usedAt =>
      exact ⟨usedAt, (verifyToken pepper s.records now usedAt raw).2, verified⟩
  cases hverified with
  | @accepted record secret hrecord hraw hhash husable =>
    obtain ⟨request, raw₀, token₀, hcreate, hid, hissued⟩ := h.issued record hrecord
    obtain ⟨secret₀, -, hraw₀, hhash₀⟩ := hissued.secret
    refine ⟨request, raw₀, token₀, hcreate, hid, ?_, ?_, ?_, hissued.label, hissued.scopes, ?_,
      hissued.expiresAt, ?_⟩
    · rw [hraw, hraw₀]
      exact eq_or_collision (hhash.symm.trans hhash₀)
    · exact (h.revoked record hrecord).symm.trans husable.1
    · exact fun expires hexpires => husable.2 expires (hissued.expiresAt.trans hexpires)
    · exact fun scope hscope => hissued.valid scope (hissued.scopes ▸ hscope)
    · exact congrArg (· + 1) (h.count record hrecord)

/-- The holder of a token that was issued, is not revoked and has not expired is served. -/
theorem TokenInv.serves (h : TokenInv pepper es records) {request : CreateRequest} {raw : List Char}
    {token : ConnectivityToken} (hcreate : TokenEvent.create request (.ok (raw, token)) ∈ es)
    (hactive : isRevoked es token.id = false) {now usedAt : ℚ}
    (hexpires : ∀ expires, request.expiresAt = some expires → now ≤ expires) :
    ∃ accepted, (verifyToken pepper records now usedAt raw).1 = .ok accepted ∧
      accepted.id = token.id ∧ accepted.scopes = request.granted ∧
      accepted.expiresAt = request.expiresAt := by
  obtain ⟨record, hrecord, hid, hissued⟩ := h.kept request raw token hcreate
  obtain ⟨secret, hdrawn, rfl, hhash⟩ := hissued.secret
  refine ⟨_, verify_holder h.nodup hrecord hdrawn hhash ⟨?_, ?_⟩, hid, hissued.scopes,
    hissued.expiresAt⟩
  · rw [h.revoked record hrecord, hid, hactive]
  · exact fun expires h => hexpires expires (hissued.expiresAt ▸ h)

/-- **Of any calls, a raw token is accepted only if it was issued, or collides with one that was,
    is not revoked and has not expired, and is given the label and the scopes of its request and
    the number of its uses; and a raw token that was issued, is not revoked and has not expired
    is accepted.** -/
theorem token_verification {clock : ℚ} (h : Run (TokenStep pepper) (.start clock) es s) :
    (∀ raw now token s', TokenStep pepper s (.verify raw now (.ok token)) s' →
      Accepted pepper es raw now token) ∧
    ∀ request raw₀ token₀, TokenEvent.create request (.ok (raw₀, token₀)) ∈ es →
      isRevoked es token₀.id = false → ∀ now usedAt,
      (∀ expires, request.expiresAt = some expires → now ≤ expires) →
        ∃ token, (verifyToken pepper s.records now usedAt raw₀).1 = .ok token ∧
          token.id = token₀.id ∧ token.scopes = request.granted ∧
          token.expiresAt = request.expiresAt := by
  have hinv := inv_run h
  exact ⟨fun _ _ _ _ hstep => hinv.accepted hstep, fun _ _ _ hcreate hactive _ _ hexpires =>
    hinv.serves hcreate hactive hexpires⟩

def claude : CreateRequest := ⟨"Claude", some ["ext:sql"], some 100, 10⟩

def claudeId : List Char := List.replicate 8 'a'

def claudeSecret : List Char := List.replicate 32 '0'

def claudeSystem : TokenSystem := ⟨[newRecord [7] 0 claudeId claudeSecret claude], 0⟩

def claudeRaw : List Char := rawToken claudeId claudeSecret

theorem claude_step : TokenStep [7] (.start 0)
    (.create claude (.ok (claudeRaw, (newRecord [7] 0 claudeId claudeSecret claude).token)))
    claudeSystem := by
  have hdrawn : Drawn claudeId claudeSecret :=
    ⟨rfl, List.all_eq_true.1 (by decide), rfl, List.all_eq_true.1 (by decide)⟩
  have hstep : TokenStep [7] (.start 0)
      (.create claude (createToken [7] [] 0 claude [claudeId] claudeSecret).1)
      ⟨(createToken [7] [] 0 claude [claudeId] claudeSecret).2, 0⟩ :=
    .create le_rfl fun tokenId h => List.mem_singleton.1 h ▸ hdrawn
  exact hstep

theorem claude_run : Run (TokenStep [7]) (.start 0) [.create claude
    (.ok (claudeRaw, (newRecord [7] 0 claudeId claudeSecret claude).token))] claudeSystem :=
  .cons claude_step .nil

/-- A token that is issued is accepted. -/
theorem token_verification_issued : ∃ token,
    (verifyToken [7] claudeSystem.records 5 5 claudeRaw).1 = .ok token ∧
      token.id = claudeId ∧ token.scopes = ["ext:sql"] ∧ token.expiresAt = some 100 :=
  (token_verification claude_run).2 claude _ _ (List.mem_singleton.2 rfl) rfl 5 5
    (by simp [claude]; norm_num)

/-! ## The number of active tokens -/

theorem active_issue {record : ConnectivityTokenRecord} (hfresh : ∀ r ∈ records, r.id ≠ record.id)
    (hactive : record.isRevoked = false) : (records.put record).active = records.active + 1 := by
  rw [Records.put, Table.upsert_of_fresh hfresh, Records.active, Records.active,
    List.countP_append, List.countP_singleton, if_pos (decide_eq_true hactive)]

theorem active_update (hid : r'.id = r.id) (hnodup : (records.map ConnectivityTokenRecord.id).Nodup)
    (hr : r ∈ records) (hrevoked : r'.isRevoked = false → r.isRevoked = false) :
    (records.put r').active ≤ records.active :=
  Table.countP_upsert_le hnodup hr hid.symm (by simpa using hrevoked)

/-- The active tokens are within what every request allowed. -/
def Bounded (pepper : Bytes) (n : ℕ) (es : List TokenEvent) (s : TokenSystem) : Prop :=
  Recorded pepper es s ∧ ((∀ request result, TokenEvent.create request result ∈ es →
    request.maxTokens ≤ n) → s.records.active ≤ n)

/-- **However tokens are made, used and revoked, the active ones stay within the limit.** -/
theorem active_tokens_bounded {clock : ℚ} (h : Run (TokenStep pepper) (.start clock) es s) {n : ℕ}
    (hmax : ∀ request result, TokenEvent.create request result ∈ es → request.maxTokens ≤ n) :
    s.records.active ≤ n := by
  have hstart : Bounded pepper n [] (.start clock) := ⟨inv_nil, fun _ => Nat.zero_le n⟩
  suffices hend : Bounded pepper n es s from hend.2 hmax
  refine h.history hstart ?_
  rintro es s e s' - ⟨hinv, hbound⟩ hstep
  refine ⟨hinv.step hstep, fun hmax => ?_⟩
  have hle := hbound fun request result hmem => hmax request result (List.mem_append_left _ hmem)
  have hchange := tokenStep_cases hstep
  generalize s'.records = records at hchange ⊢
  cases hchange with
  | refused => exact hle
  | issued hfresh _ _ hroom =>
    have hlimit := hmax _ _ (List.mem_append_right _ (List.mem_singleton.2 rfl))
    rw [active_issue hfresh rfl]
    omega
  | @used _ _ usedAt record hrecord =>
    exact (@active_update s.records record (record.used usedAt) rfl hinv.nodup hrecord id).trans hle
  | @revoked now record hrecord hactive =>
    exact (@active_update s.records record (record.revoked now) rfl hinv.nodup hrecord
      fun _ => hactive).trans hle

/-- One token is active. -/
theorem active_tokens_bounded_claude : claudeSystem.records.active ≤ 10 := by
  refine active_tokens_bounded claude_run ?_
  intro request result h
  obtain ⟨rfl, -⟩ := TokenEvent.create.inj (List.mem_singleton.1 h)
  exact le_rfl

end

end Connectivity

end AimData
