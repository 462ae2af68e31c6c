/-
  The cache of validated credentials, which HTTP requests and WebSockets share.

  An API key is cached under itself, a bearer token under a part of its hash, and a bearer
  token that a WebSocket brings under itself too; so an entry may answer for a credential that
  never was validated (`cached_for_another`).  While no request meets another credential's
  entry, and no header its own, an answer from the cache is the one that the request would
  get without it (`faithful_of_apart`).
-/
import AimData.Contract.Field
import AimData.Lib.Run
import AimData.Lib.Sha256
import AimData.Lib.Utf8
import AimData.Preview.Publication
import AimData.Publish.RawListing

namespace AimData

namespace Auth

open RawListings (Reply)

/-! ## Users and failures -/

structure AuthenticatedUser where
  userId : String
  keyId : String
  scopes : List String
  isValid : Bool := true
  balanceCents : Option ℤ := some 0
  freeTrialRemainingCents : Option ℤ := some 0
  deriving DecidableEq

/-- An `HTTPException`, or another one. -/
inductive Failure where
  | http (statusCode : ℕ) (detail : String)
  | other (e : Raised)

/-- A row of `local_api_keys`. -/
structure LocalAPIKey where
  keyId : String
  keyHash : String
  userId : String
  scopes : String
  revoked : Bool := false

structure LocalUser where
  id : String
  isActive : Bool

/-- What a request finds in the database and hears from ai.market: `/api/v1/auth/me` and
    `/api/v1/gateway/validate`. -/
structure Answers where
  keys : List LocalAPIKey := []
  users : List LocalUser := []
  me : Reply := .requestError
  gateway : Reply := .requestError

/-- The settings, and the functions of libraries: `str` of a value, and the model's check of a
    dictionary (`AuthenticatedUser(**data)`). -/
structure Settings where
  authEnabled : Bool := true
  hmacSecret : String
  cacheTtl : ℚ
  str : Json → String
  ofData : List (String × Json) → Except Raised AuthenticatedUser

/-! ## Validation -/

/-- `_parse_local_key` -/
def parseLocalKey (apiKey : String) : Option (String × String) :=
  match apiKey.toList with
  | 'v' :: 'z' :: '_' :: rest =>
    match rest.takeWhile (· ≠ '_'), rest.dropWhile (· ≠ '_') with
    | keyId, _ :: secret =>
      if keyId = [] ∨ secret = [] then none else some (String.ofList keyId, String.ofList secret)
    | _, [] => none
  | _ => none

/-- `json.loads(key_record.scopes)`, a list of strings for the model. -/
def parseScopes (scopes : String) : Except Raised (List String) :=
  match Json.parse scopes.toList with
  | none => .ok ["read", "write"]
  | some value =>
    match value with
    | .arr l =>
      match l.mapM fun v => match v with | .str s => some s | _ => none with
      | some scopes => .ok scopes
      | none => raise "ValidationError" "scopes"
    | _ => raise "ValidationError" "scopes"

section

variable (settings : Settings)

def hmacHashSecret (secret : String) : String :=
  hex (hmacSha256 (Utf8.encode settings.hmacSecret.toList) (Utf8.encode secret.toList)).1

def validateLocalKey (answers : Answers) (apiKey : String) :
    Except Raised (Option AuthenticatedUser) :=
  match parseLocalKey apiKey with
  | none => .ok none
  | some (keyId, secret) =>
    match answers.keys.find? fun k => k.keyId = keyId ∧ k.revoked = false with
    | none => .ok none
    | some key =>
      if key.keyHash ≠ hmacHashSecret settings secret then .ok none
      else
        match answers.users.find? fun u => u.id = key.userId with
        | none => .ok none
        | some user =>
          if user.isActive = false then .ok none
          else do
            let scopes ← parseScopes key.scopes
            return some { userId := user.id, keyId := key.keyId, scopes := scopes }

/-- `_validate_key_against_aimarket` -/
def validateKeyAgainstAimarket (gateway : Reply) : Except Failure (Option AuthenticatedUser) :=
  match gateway with
  | .timeout | .requestError =>
    .error (.http 503 "Authentication service is currently unavailable.")
  | .response statusCode body _ =>
    if statusCode = 200 then
      match body with
      | .error e => .error (.other e)
      | .ok (.obj fields) =>
        if Dataset.truthy (fields.lookup "valid") then
          match settings.ofData fields with
          | .ok user => .ok (some user)
          | .error e => .error (.other e)
        else .ok none
      | .ok _ => .error (.other ⟨"AttributeError", "get"⟩)
    else .ok none

end

def scopesFromAiMarketRole (role statusValue : String) : Except Failure (List String) :=
  if statusValue ≠ "active" then .error (.http 403 "ai.market account not active")
  else if role ∈ ["buyer", "seller", "model_provider"] then .ok ["read", "write"]
  else if role = "admin" then .ok ["read", "write", "admin"]
  else .ok ["read"]

section

variable (settings : Settings)

/-- `str(user_data.get(key, ""))` -/
def strGet (fields : List (String × Json)) (key : String) : String :=
  match fields.lookup key with
  | some value => settings.str value
  | none => ""

def authenticatedUserFromAiMarketUser (userData : List (String × Json)) :
    Except Failure AuthenticatedUser :=
  match userData.lookup "id" with
  | none => .error (.other ⟨"KeyError", "'id'"⟩)
  | some id => do
    let scopes ← scopesFromAiMarketRole (strGet settings userData "role")
      (strGet settings userData "status")
    return {
      userId := settings.str id
      keyId := "ai_market_bearer"
      scopes := scopes
      balanceCents := none
      freeTrialRemainingCents := none }

/-- `_fetch_ai_market_me` -/
def fetchAiMarketMe (me : Reply) : Except Failure (List (String × Json)) :=
  match me with
  | .timeout | .requestError => .error (.http 503 "ai.market auth service unavailable")
  | .response statusCode body _ =>
    if statusCode = 200 then
      match body with
      | .error e => .error (.other e)
      | .ok (.obj fields) => .ok fields
      | .ok _ => .error (.other ⟨"TypeError", "indices"⟩)
    else if statusCode = 401 then .error (.http 401 "Invalid or expired ai.market token")
    else if statusCode ≥ 500 then .error (.http 503 "ai.market auth service unavailable")
    else .error (.http 401 "Invalid or expired ai.market token")

/-- The user that the uncached path finds for an API key. -/
def validateApiKey (answers : Answers) (apiKey : String) :
    Except Failure (Option AuthenticatedUser) :=
  if "vz_".toList.isPrefixOf apiKey.toList then
    match validateLocalKey settings answers apiKey with
    | .ok user => .ok user
    | .error e => .error (.other e)
  else if "aim_".toList.isPrefixOf apiKey.toList then validateKeyAgainstAimarket settings answers.gateway
  else
    .error (.http 401
      "Invalid API key prefix. Keys must start with 'vz_' (local) or 'aim_' (ai.market).")

/-- The user that the uncached path finds for a bearer token. -/
def validateBearer (answers : Answers) : Except Failure AuthenticatedUser := do
  authenticatedUserFromAiMarketUser settings (← fetchAiMarketMe answers.me)

end

/-! ## The cache -/

inductive Kind where
  | apiKey
  | bearer
  deriving DecidableEq

structure Credential where
  kind : Kind
  text : String
  deriving DecidableEq

@[irreducible] def bearerDigest (token : String) : String :=
  String.ofList ((hex (sha256 (Utf8.encode token.toList)).1).toList.take 16)

/-- `_ai_market_bearer_cache_key` -/
def aiMarketBearerCacheKey (token : String) : String := "aim_market_bearer:" ++ bearerDigest token

structure Entry where
  user : AuthenticatedUser
  expires : ℚ

/-- A credential that was validated, and what the uncached path was told. -/
structure Validation where
  credential : Credential
  answers : Answers

/-- The cache at a time; which credential each entry was left by, and the validations so far. -/
structure World where
  now : ℚ
  cache : String → Option Entry
  leftBy : String → Option Credential
  validations : List Validation

/-- `api_key_cache.get` -/
def World.lookup (w : World) (key : String) : Option AuthenticatedUser :=
  match w.cache key with
  | some entry => if w.now < entry.expires then some entry.user else none
  | none => none

section

variable (settings : Settings)

def World.store (w : World) (key : String) (user : AuthenticatedUser) (credential : Credential) :
    World :=
  { w with
    cache := Function.update w.cache key (some ⟨user, w.now + settings.cacheTtl⟩)
    leftBy := Function.update w.leftBy key (some credential) }

def World.validated (w : World) (credential : Credential) (answers : Answers) : World :=
  { w with validations := ⟨credential, answers⟩ :: w.validations }

/-! ## Requests -/

/-- The user of a request, and `request.state.user_role`. -/
structure Granted where
  user : AuthenticatedUser
  userRole : Option String
  deriving DecidableEq

/-- An answer from the cache, or another. -/
inductive Served where
  | cached (granted : Granted)
  | uncached (granted : Granted)
  deriving DecidableEq

def Served.granted : Served → Granted
  | .cached granted | .uncached granted => granted

def Served.setRole (role : AuthenticatedUser → Option String) : Served → Served
  | .cached granted => .cached { granted with userRole := role granted.user }
  | .uncached granted => .uncached { granted with userRole := role granted.user }

/-- `_handle_ai_market_token`; the local link and the stored session do not matter to it. -/
def World.handleAiMarketToken (w : World) (accessToken : String) (answers : Answers) :
    Except Failure Served × World :=
  match validateBearer settings answers with
  | .ok user =>
    (.ok (.uncached ⟨user, none⟩),
      (w.store settings (aiMarketBearerCacheKey accessToken) user ⟨.bearer, accessToken⟩).validated
        ⟨.bearer, accessToken⟩ answers)
  | .error e => (.error e, w)

def World.validateAiMarketBearerToken (w : World) (token : String) (answers : Answers) :
    Except Failure Served × World :=
  match w.lookup (aiMarketBearerCacheKey token) with
  | some user => (.ok (.cached ⟨user, none⟩), w)
  | none => w.handleAiMarketToken settings token answers

def bearerRole (user : AuthenticatedUser) : Option String :=
  some (if "admin" ∈ user.scopes then "admin" else "user")

/-- The headers of a request, and the id and role of an active user whose session cookie it
    brings. -/
structure HttpRequest where
  authorization : String := ""
  session : Option (String × String) := none
  xApiKey : Option String := none

/-- The bearer token of a request. -/
def HttpRequest.token (request : HttpRequest) : String :=
  match request.authorization.toList with
  | 'B' :: 'e' :: 'a' :: 'r' :: 'e' :: 'r' :: ' ' :: token =>
    String.ofList (Contract.strip Contract.whitespace token)
  | _ => ""

def mockUser : AuthenticatedUser where
  userId := "mock_user_auth_disabled"
  keyId := "mock_key_auth_disabled"
  scopes := ["read"]
  balanceCents := some 10000

/-- `get_current_user` -/
def World.getCurrentUser (w : World) (request : HttpRequest) (answers : Answers) :
    Except Failure Served × World :=
  if settings.authEnabled = false then (.ok (.uncached ⟨mockUser, some "admin"⟩), w)
  else if request.token ≠ "" then
    let (served, w) := w.validateAiMarketBearerToken settings request.token answers
    (served.map (·.setRole bearerRole), w)
  else
    match request.session with
    | some (userId, role) =>
      (.ok (.uncached ⟨{
        userId := userId
        keyId := "jwt_session"
        scopes := if role = "admin" then ["read", "write", "admin"] else ["read", "write"] },
        some role⟩), w)
    | none =>
      let apiKey := request.xApiKey.getD ""
      if apiKey = "" then
        (.error (.http 401
          "Not authenticated. Provide X-API-Key header or vz_session cookie."), w)
      else
        match w.lookup apiKey with
        | some user => (.ok (.cached ⟨user, none⟩), w)
        | none =>
          match validateApiKey settings answers apiKey with
          | .error e => (.error e, w)
          | .ok none => (.error (.http 401 "Invalid API Key."), w)
          | .ok (some user) =>
            (.ok (.uncached ⟨user, some "admin"⟩),
              (w.store settings apiKey user ⟨.apiKey, apiKey⟩).validated ⟨.apiKey, apiKey⟩ answers)

/-- How a WebSocket's token is taken. -/
def wsKind (apiKey : String) : Kind :=
  if "vz_".toList.isPrefixOf apiKey.toList ∨ "aim_".toList.isPrefixOf apiKey.toList then .apiKey
  else .bearer

/-- `get_current_user_ws` past its cache; a local key raises no HTTP exception. -/
def World.validateWs (w : World) (apiKey : String) (answers : Answers) :
    Except Failure (Option Served) × World :=
  match wsKind apiKey with
  | .apiKey =>
    match validateApiKey settings answers apiKey with
    | .ok (some user) =>
      (.ok (some (.uncached ⟨user, none⟩)),
        (w.store settings apiKey user ⟨.apiKey, apiKey⟩).validated ⟨.apiKey, apiKey⟩ answers)
    | .ok none => (.ok none, w)
    | .error (.http _ _) => (.ok none, w)
    | .error (.other e) => (.error (.other e), w)
  | .bearer =>
    match w.validateAiMarketBearerToken settings apiKey answers with
    | (.ok served, w) =>
      (.ok (some served), w.store settings apiKey served.granted.user ⟨.bearer, apiKey⟩)
    | (.error (.http _ _), w) => (.ok none, w)
    | (.error (.other e), w) => (.error (.other e), w)

def World.getCurrentUserWs (w : World) (token : Option String) (answers : Answers) :
    Except Failure (Option Served) × World :=
  if settings.authEnabled = false then (.ok (some (.uncached ⟨mockUser, none⟩)), w)
  else
    let apiKey := token.getD ""
    if apiKey = "" then (.ok none, w)
    else
      match w.lookup apiKey with
      | some user => (.ok (some (.cached ⟨user, none⟩)), w)
      | none => w.validateWs settings apiKey answers

/-! ## Events -/

inductive Event where
  | http (request : HttpRequest) (answers : Answers)
  | websocket (token : Option String) (answers : Answers)
  /-- `_handle_ai_market_token` of a login that has heard who its user is. -/
  | login (accessToken : String) (userData : List (String × Json))
  | wait (duration : ℚ)
  /-- An entry that is dropped: the cache is full, or a key is revoked. -/
  | evict (key : String)

/-- What comes of an event: the answer of a request that gets one, and the world after it. -/
def World.handle (w : World) : Event → Option Served × World
  | .http request answers =>
    match w.getCurrentUser settings request answers with
    | (.ok served, w) => (some served, w)
    | (.error _, w) => (none, w)
  | .websocket token answers =>
    match w.getCurrentUserWs settings token answers with
    | (.ok served, w) => (served, w)
    | (.error _, w) => (none, w)
  | .login accessToken userData =>
    (none, (w.handleAiMarketToken settings accessToken
      { me := .response 200 (.ok (.obj userData)) "" }).2)
  | .wait duration => (none, { w with now := w.now + max duration 0 })
  | .evict key => (none, { w with cache := Function.update w.cache key none })

def Step (w : World) (e : Event) (w' : World) : Prop := (w.handle settings e).2 = w'

/-! ## What a step keeps -/

/-- A cache that holds nothing. -/
def World.forget (w : World) : World := { w with cache := fun _ => none }

/-- The request of an event, with other answers. -/
def Event.withAnswers (e : Event) (answers : Answers) : Event :=
  match e with
  | .http request _ => .http request answers
  | .websocket token _ => .websocket token answers
  | e => e

/-- The credential that an event brings to the cache. -/
def Event.presented : Event → Option Credential
  | .http request _ =>
    if request.token ≠ "" then some ⟨.bearer, request.token⟩
    else some ⟨.apiKey, request.xApiKey.getD ""⟩
  | .websocket token _ => some ⟨wsKind (token.getD ""), token.getD ""⟩
  | _ => none

/-- An answer from the cache is for a credential that was validated as it is, and is the answer
    of the uncached path where that is told what it was told at the validation. -/
def Faithful (w : World) (e : Event) : Prop :=
  ∀ granted, (w.handle settings e).1 = some (.cached granted) →
    ∃ v ∈ w.validations, e.presented = some v.credential ∧
      (w.forget.handle settings (e.withAnswers v.answers)).1 = some (.uncached granted)

/-- The entry that is found under a key was left by this credential. -/
def World.Own (w : World) (key : String) (credential : Credential) : Prop :=
  w.lookup key ≠ none → w.leftBy key = some credential

/-- A request finds no entry of another credential, and the key in a header none at all. -/
def Apart (w : World) : Event → Prop
  | .http request _ => settings.authEnabled = true →
    if request.token ≠ "" then
      w.Own (aiMarketBearerCacheKey request.token) ⟨.bearer, request.token⟩
    else request.session = none → w.lookup (request.xApiKey.getD "") = none
  | .websocket token _ => settings.authEnabled = true →
    let apiKey := token.getD ""
    w.Own apiKey ⟨wsKind apiKey, apiKey⟩ ∧
      (wsKind apiKey = .bearer → w.lookup apiKey = none →
        w.Own (aiMarketBearerCacheKey apiKey) ⟨.bearer, apiKey⟩)
  | _ => True

/-- What the uncached path finds for a credential. -/
def Validates (credential : Credential) (answers : Answers) (user : AuthenticatedUser) : Prop :=
  match credential.kind with
  | .apiKey => validateApiKey settings answers credential.text = .ok (some user)
  | .bearer => validateBearer settings answers = .ok user

/-- Every entry holds what the validation of its credential found. -/
def Sound (w : World) : Prop :=
  ∀ key entry, w.cache key = some entry → ∃ v ∈ w.validations,
    w.leftBy key = some v.credential ∧ Validates settings v.credential v.answers entry.user

end

section

variable {settings : Settings} {w w' : World} {key : String} {user : AuthenticatedUser}
  {credential : Credential} {answers : Answers} {e : Event}

theorem lookup_forget (w : World) (key : String) : w.forget.lookup key = none := rfl

/-- What is found is what the validation of the entry's credential found. -/
theorem Sound.validation (h : Sound settings w) (hfound : w.lookup key = some user)
    (hown : w.Own key credential) :
    ∃ v ∈ w.validations, v.credential = credential ∧
      Validates settings credential v.answers user := by
  have hleft := hown (by rw [hfound]; exact Option.some_ne_none user)
  unfold World.lookup at hfound
  split at hfound
  · rename_i entry hentry
    split_ifs at hfound
    obtain ⟨v, hv, hcredential, hvalidates⟩ := h key entry hentry
    rw [hleft] at hcredential
    obtain rfl := Option.some.inj hcredential
    rw [← Option.some.inj hfound]
    exact ⟨v, hv, rfl, hvalidates⟩
  · cases hfound

theorem Sound.store (h : Sound settings w)
    (hv : ∃ v ∈ w.validations, v.credential = credential ∧
      Validates settings credential v.answers user) (key : String) :
    Sound settings (w.store settings key user credential) := by
  intro k entry hentry
  rw [World.store] at hentry ⊢
  dsimp only at hentry ⊢
  by_cases hk : k = key
  · subst hk
    rw [Function.update_self] at hentry ⊢
    obtain ⟨v, hmem, rfl, hvalidates⟩ := hv
    obtain rfl := Option.some.inj hentry
    exact ⟨v, hmem, rfl, hvalidates⟩
  · rw [Function.update_of_ne hk] at hentry ⊢
    exact h k entry hentry

theorem Sound.validated (h : Sound settings w) (credential : Credential) (answers : Answers) :
    Sound settings (w.validated credential answers) := by
  intro key entry hentry
  obtain ⟨v, hv, hleft⟩ := h key entry hentry
  exact ⟨v, List.mem_cons_of_mem _ hv, hleft⟩

/-- A credential that is validated and stored. -/
theorem Sound.store_validated (h : Sound settings w)
    (hvalidates : Validates settings credential answers user) (key : String) :
    Sound settings ((w.store settings key user credential).validated credential answers) :=
  (h.validated credential answers).store ⟨_, List.mem_cons_self, rfl, hvalidates⟩ key

theorem sound_handleAiMarketToken (h : Sound settings w) (token : String) (answers : Answers) :
    Sound settings (w.handleAiMarketToken settings token answers).2 := by
  unfold World.handleAiMarketToken
  split
  · rename_i user huser
    exact h.store_validated (show Validates settings ⟨.bearer, token⟩ answers user from huser) _
  · exact h

theorem sound_validateBearerToken (h : Sound settings w) (token : String) (answers : Answers) :
    Sound settings (w.validateAiMarketBearerToken settings token answers).2 := by
  unfold World.validateAiMarketBearerToken
  split
  · exact h
  · exact sound_handleAiMarketToken h token answers

/-- A bearer token is answered for from the cache, or is validated. -/
theorem validateBearerToken_cases {token : String} {served : Served}
    (h : w.validateAiMarketBearerToken settings token answers = (.ok served, w')) :
    (∃ user, w.lookup (aiMarketBearerCacheKey token) = some user ∧
      served = .cached ⟨user, none⟩ ∧ w' = w) ∨
    ∃ user, validateBearer settings answers = .ok user ∧ served = .uncached ⟨user, none⟩ ∧
      ⟨⟨.bearer, token⟩, answers⟩ ∈ w'.validations := by
  unfold World.validateAiMarketBearerToken at h
  split at h
  · rename_i user hfound
    obtain ⟨hserved, rfl⟩ := Prod.mk.inj h
    exact Or.inl ⟨user, hfound, (Except.ok.inj hserved).symm, rfl⟩
  · unfold World.handleAiMarketToken at h
    split at h
    · rename_i user huser
      obtain ⟨hserved, rfl⟩ := Prod.mk.inj h
      exact Or.inr ⟨user, huser, (Except.ok.inj hserved).symm, List.mem_cons_self⟩
    · cases (Prod.mk.inj h).1

/-- The uncached path of a bearer token. -/
theorem forget_validateBearerToken (h : validateBearer settings answers = .ok user)
    (token : String) : (w.forget.validateAiMarketBearerToken settings token answers).1 =
      .ok (.uncached ⟨user, none⟩) := by
  rw [World.validateAiMarketBearerToken, lookup_forget]
  dsimp only
  rw [World.handleAiMarketToken, h]

theorem sound_http (h : Sound settings w) (request : HttpRequest) (answers : Answers) :
    Sound settings (w.getCurrentUser settings request answers).2 := by
  unfold World.getCurrentUser
  split_ifs with hauth htoken
  · exact h
  · exact sound_validateBearerToken h request.token answers
  · split
    · exact h
    · dsimp only
      split_ifs
      · exact h
      · split
        · exact h
        · split
          · exact h
          · exact h
          · rename_i user huser
            exact h.store_validated (show Validates settings ⟨.apiKey, _⟩ answers user from huser) _

theorem sound_ws (h : Sound settings w) {token : Option String} {answers : Answers}
    (hapart : Apart settings w (.websocket token answers)) :
    Sound settings (w.getCurrentUserWs settings token answers).2 := by
  unfold World.getCurrentUserWs
  by_cases hauth : settings.authEnabled = false
  · rw [if_pos hauth]
    exact h
  rw [if_neg hauth]
  rw [Bool.not_eq_false] at hauth
  obtain ⟨-, hbearer⟩ := hapart hauth
  dsimp only
  generalize token.getD "" = apiKey at hbearer ⊢
  split_ifs
  · exact h
  cases hfound : w.lookup apiKey with
  | some user => exact h
  | none =>
    dsimp only
    unfold World.validateWs
    cases hkind : wsKind apiKey with
    | apiKey =>
      dsimp only
      split
      · rename_i user huser
        exact h.store_validated (show Validates settings ⟨.apiKey, _⟩ answers user from huser) _
      all_goals exact h
    | bearer =>
      dsimp only
      have hsound := sound_validateBearerToken h apiKey answers
      cases hserved : w.validateAiMarketBearerToken settings apiKey answers with
      | mk result w' =>
        rw [hserved] at hsound
        rcases result with failure | served
        · rcases failure with _ | _
          · exact hsound
          · exact hsound
        · rcases validateBearerToken_cases hserved with ⟨user, hhit, rfl, rfl⟩ |
            ⟨user, huser, rfl, hmem⟩
          · exact hsound.store (h.validation hhit (hbearer hkind hfound)) apiKey
          · exact hsound.store ⟨_, hmem, rfl, huser⟩ apiKey

/-- What the next step relies on is kept. -/
theorem sound_step (hw : Sound settings w) (h : Step settings w e w') (hapart : Apart settings w e) :
    Sound settings w' := by
  obtain rfl := h
  rcases e with ⟨request, answers⟩ | ⟨token, answers⟩ | ⟨token, userData⟩ | duration | key
  · have hsound := sound_http hw request answers
    unfold World.handle
    dsimp only
    split
    · rename_i hserved
      rw [hserved] at hsound
      exact hsound
    · rename_i hfailed
      rw [hfailed] at hsound
      exact hsound
  · have hsound := sound_ws hw hapart
    unfold World.handle
    dsimp only
    split
    · rename_i hserved
      rw [hserved] at hsound
      exact hsound
    · rename_i hfailed
      rw [hfailed] at hsound
      exact hsound
  · exact sound_handleAiMarketToken hw token _
  · exact hw
  · intro k entry hentry
    by_cases hk : k = key
    · rw [World.handle, hk] at hentry
      simp at hentry
    · rw [World.handle] at hentry
      dsimp only at hentry
      rw [Function.update_of_ne hk] at hentry
      exact hw k entry hentry

theorem faithful_http (hw : Sound settings w) {request : HttpRequest} {answers : Answers}
    (hapart : Apart settings w (.http request answers)) :
    Faithful settings w (.http request answers) := by
  intro granted hgranted
  have hcurrent : ∃ served w', w.getCurrentUser settings request answers = (.ok served, w') ∧
      served = .cached granted := by
    unfold World.handle at hgranted
    dsimp only at hgranted
    split at hgranted
    · rename_i served w' hserved
      exact ⟨served, w', hserved, Option.some.inj hgranted⟩
    · cases hgranted
  obtain ⟨served, w', hserved, rfl⟩ := hcurrent
  unfold World.getCurrentUser at hserved
  by_cases hauth : settings.authEnabled = false
  · rw [if_pos hauth] at hserved
    cases Except.ok.inj (Prod.mk.inj hserved).1
  rw [if_neg hauth] at hserved
  have hguard := hapart (by rwa [Bool.not_eq_false] at hauth)
  by_cases htoken : request.token ≠ ""
  · rw [if_pos htoken] at hserved hguard
    cases hbearer : w.validateAiMarketBearerToken settings request.token answers with
    | mk result w'' =>
      rw [hbearer] at hserved
      obtain ⟨hserved, -⟩ := Prod.mk.inj hserved
      rcases result with failure | served
      · cases hserved
      · rcases validateBearerToken_cases hbearer with ⟨user, hhit, rfl, -⟩ | ⟨user, -, rfl, -⟩
        · obtain ⟨v, hv, hcredential, hvalidates⟩ := hw.validation hhit hguard
          refine ⟨v, hv, ?_, ?_⟩
          · rw [hcredential]
            exact if_pos htoken
          · have huncached := forget_validateBearerToken (w := w) hvalidates request.token
            obtain rfl := Served.cached.inj (Except.ok.inj hserved)
            rw [Event.withAnswers, World.handle, World.getCurrentUser, if_neg hauth, if_pos htoken]
            cases hfresh : w.forget.validateAiMarketBearerToken settings request.token v.answers with
            | mk result w'' =>
              rw [hfresh] at huncached
              obtain rfl := huncached
              rfl
        · cases Except.ok.inj hserved
  · -- a header that finds an entry is not apart
    rw [if_neg htoken] at hserved hguard
    cases hsession : request.session with
    | some session =>
      rw [hsession] at hserved
      cases Except.ok.inj (Prod.mk.inj hserved).1
    | none =>
      rw [hsession] at hserved
      dsimp only at hserved
      rw [hguard hsession] at hserved
      dsimp only at hserved
      split_ifs at hserved
      · cases (Prod.mk.inj hserved).1
      · split at hserved
        · cases (Prod.mk.inj hserved).1
        · cases (Prod.mk.inj hserved).1
        · cases Except.ok.inj (Prod.mk.inj hserved).1

/-- A bearer token that finds an entry. -/
theorem bearer_cached (hauth : ¬ settings.authEnabled = false) (request : HttpRequest)
    (htoken : request.token ≠ "")
    (hfound : w.lookup (aiMarketBearerCacheKey request.token) = some user) (answers : Answers) :
    w.handle settings (.http request answers) = (some (.cached ⟨user, bearerRole user⟩), w) := by
  rw [World.handle, World.getCurrentUser, if_neg hauth, if_pos htoken,
    World.validateAiMarketBearerToken, hfound]
  rfl

/-- A header that finds an entry. -/
theorem header_cached (hauth : ¬ settings.authEnabled = false) (request : HttpRequest)
    (htoken : request.token = "") (hsession : request.session = none)
    (hkey : request.xApiKey.getD "" ≠ "")
    (hfound : w.lookup (request.xApiKey.getD "") = some user) (answers : Answers) :
    (w.handle settings (.http request answers)).1 = some (.cached ⟨user, none⟩) := by
  rw [World.handle, World.getCurrentUser, if_neg hauth, if_neg (not_not.2 htoken), hsession]
  dsimp only
  rw [if_neg hkey, hfound]

/-- The role that the uncached path sets for a key in a header. -/
theorem header_uncached (hauth : ¬ settings.authEnabled = false) {request : HttpRequest}
    (htoken : request.token = "") (hsession : request.session = none) {answers : Answers}
    {granted : Granted}
    (h : (w.forget.handle settings (.http request answers)).1 = some (.uncached granted)) :
    granted.userRole = some "admin" := by
  rw [World.handle, World.getCurrentUser, if_neg hauth, if_neg (not_not.2 htoken), hsession] at h
  dsimp only at h
  rw [lookup_forget] at h
  dsimp only at h
  by_cases hkey : request.xApiKey.getD "" = ""
  · rw [if_pos hkey] at h
    cases h
  · rw [if_neg hkey] at h
    generalize validateApiKey settings answers (request.xApiKey.getD "") = found at h
    rcases found with failure | _ | user
    · cases h
    · cases h
    · rw [← Served.uncached.inj (Option.some.inj h)]

/-- A header whose key the uncached path rejects. -/
theorem header_rejected (hauth : ¬ settings.authEnabled = false) (request : HttpRequest)
    (htoken : request.token = "") (hsession : request.session = none)
    (hkey : request.xApiKey.getD "" ≠ "")
    (hinvalid : validateApiKey settings answers (request.xApiKey.getD "") = .ok none) :
    (w.forget.handle settings (.http request answers)).1 = none := by
  rw [World.handle, World.getCurrentUser, if_neg hauth, if_neg (not_not.2 htoken), hsession]
  dsimp only
  rw [if_neg hkey, lookup_forget]
  dsimp only
  rw [hinvalid]

/-- A header that finds an entry is given no role. -/
theorem header_unfaithful (hauth : ¬ settings.authEnabled = false) (request : HttpRequest)
    (htoken : request.token = "") (hsession : request.session = none)
    (hkey : request.xApiKey.getD "" ≠ "")
    (hfound : w.lookup (request.xApiKey.getD "") = some user) (answers : Answers) :
    ¬ Faithful settings w (.http request answers) := by
  intro hfaithful
  obtain ⟨v, -, -, huncached⟩ :=
    hfaithful _ (header_cached hauth request htoken hsession hkey hfound answers)
  cases header_uncached hauth htoken hsession huncached

/-- The uncached path of a WebSocket's token. -/
theorem forget_getCurrentUserWs (hauth : ¬ settings.authEnabled = false) {token : Option String}
    (htoken : token.getD "" ≠ "")
    (h : Validates settings ⟨wsKind (token.getD ""), token.getD ""⟩ answers user) :
    (w.forget.getCurrentUserWs settings token answers).1 = .ok (some (.uncached ⟨user, none⟩)) := by
  rw [World.getCurrentUserWs, if_neg hauth, if_neg htoken, lookup_forget]
  dsimp only
  unfold World.validateWs
  unfold Validates at h
  dsimp only at h
  cases hkind : wsKind (token.getD "") with
  | apiKey =>
    rw [hkind] at h
    dsimp only at h ⊢
    rw [h]
  | bearer =>
    rw [hkind] at h
    have huncached := forget_validateBearerToken (w := w) h (token.getD "")
    dsimp only
    cases hfresh : w.forget.validateAiMarketBearerToken settings (token.getD "") answers with
    | mk result w' =>
      rw [hfresh] at huncached
      obtain rfl := huncached
      rfl

theorem faithful_ws (hw : Sound settings w) {token : Option String} {answers : Answers}
    (hapart : Apart settings w (.websocket token answers)) :
    Faithful settings w (.websocket token answers) := by
  intro granted hgranted
  have hcurrent : ∃ w', w.getCurrentUserWs settings token answers =
      (.ok (some (.cached granted)), w') := by
    unfold World.handle at hgranted
    dsimp only at hgranted
    split at hgranted
    · rename_i served w' hserved
      exact ⟨w', hserved.trans (by rw [show served = _ from hgranted])⟩
    · cases hgranted
  obtain ⟨w', hserved⟩ := hcurrent
  unfold World.getCurrentUserWs at hserved
  by_cases hauth : settings.authEnabled = false
  · rw [if_pos hauth] at hserved
    cases Option.some.inj (Except.ok.inj (Prod.mk.inj hserved).1)
  rw [if_neg hauth] at hserved
  obtain ⟨hown, hbearer⟩ := hapart (by rwa [Bool.not_eq_false] at hauth)
  dsimp only at hserved hown hbearer
  by_cases htoken : token.getD "" = ""
  · rw [if_pos htoken] at hserved
    cases Except.ok.inj (Prod.mk.inj hserved).1
  rw [if_neg htoken] at hserved
  -- the entry is one of the credential that the token is, whichever key it is under
  have hanswer {user : AuthenticatedUser} {v : Validation} (hv : v ∈ w.validations)
      (hcredential : v.credential = ⟨wsKind (token.getD ""), token.getD ""⟩)
      (hvalidates : Validates settings ⟨wsKind (token.getD ""), token.getD ""⟩ v.answers user)
      (hgranted : granted = ⟨user, none⟩) :
      ∃ v ∈ w.validations, (Event.websocket token answers).presented = some v.credential ∧
        (w.forget.handle settings ((Event.websocket token answers).withAnswers v.answers)).1 =
          some (.uncached granted) := by
    refine ⟨v, hv, congrArg some hcredential.symm, ?_⟩
    have huncached := forget_getCurrentUserWs (w := w) hauth htoken hvalidates
    rw [Event.withAnswers, World.handle, hgranted]
    cases hfresh : w.forget.getCurrentUserWs settings token v.answers with
    | mk result w' =>
      rw [hfresh] at huncached
      obtain rfl := huncached
      rfl
  cases hfound : w.lookup (token.getD "") with
  | some user =>
    rw [hfound] at hserved
    obtain ⟨v, hv, hcredential, hvalidates⟩ := hw.validation hfound hown
    exact hanswer hv hcredential hvalidates
      (Served.cached.inj (Option.some.inj (Except.ok.inj (Prod.mk.inj hserved).1))).symm
  | none =>
    rw [hfound] at hserved
    dsimp only at hserved
    unfold World.validateWs at hserved
    cases hkind : wsKind (token.getD "") with
    | apiKey =>
      rw [hkind] at hserved
      dsimp only at hserved
      split at hserved <;> cases (Prod.mk.inj hserved).1
    | bearer =>
      rw [hkind] at hserved
      dsimp only at hserved
      cases hresult : w.validateAiMarketBearerToken settings (token.getD "") answers with
      | mk result w'' =>
        rw [hresult] at hserved
        rcases result with failure | served
        · rcases failure with _ | _ <;> cases (Prod.mk.inj hserved).1
        · rcases validateBearerToken_cases hresult with ⟨user, hhit, rfl, -⟩ | ⟨user, -, rfl, -⟩
          · obtain ⟨v, hv, hcredential, hvalidates⟩ :=
              hw.validation hhit (hbearer hkind hfound)
            rw [← hkind] at hcredential hvalidates
            exact hanswer hv hcredential hvalidates
              (Served.cached.inj (Option.some.inj (Except.ok.inj (Prod.mk.inj hserved).1))).symm
          · cases Except.ok.inj (Prod.mk.inj hserved).1

theorem faithful_step (hw : Sound settings w) (hapart : Apart settings w e) :
    Faithful settings w e := by
  rcases e with ⟨request, answers⟩ | ⟨token, answers⟩ | ⟨token, userData⟩ | duration | key
  · exact faithful_http hw hapart
  · exact faithful_ws hw hapart
  all_goals
    intro granted hgranted
    cases hgranted

end

/-! ## A run -/

/-- The world before the first request. -/
def World.start (now : ℚ) : World := ⟨now, fun _ => none, fun _ => none, []⟩

/-- **In a run whose requests meet no entry of another credential and whose headers meet none,
    every answer from the cache is for a credential that was validated as it is, and is the one
    the uncached path gave.** -/
theorem faithful_of_apart {settings : Settings} {now : ℚ} {w : World} {events : List Event}
    (h : Run (fun t e t' => Step settings t e t' ∧ Apart settings t e) (.start now) events w) :
    Run (fun t e t' => Step settings t e t' ∧ Faithful settings t e) (.start now) events w :=
  h.mono (I := Sound settings)
    (fun ht hstep => ⟨sound_step ht hstep.1 hstep.2, hstep.1, faithful_step ht hstep.2⟩)
    (fun _ _ hentry => by cases hentry)

/-! ## Another credential's entry -/

theorem aiMarketBearerCacheKey_toList (token : String) : (aiMarketBearerCacheKey token).toList =
    "aim_market_bearer:".toList ++ (bearerDigest token).toList := String.toList_append

theorem aiMarketBearerCacheKey_ne (token : String) : aiMarketBearerCacheKey token ≠ "" := by
  intro h
  have htext := aiMarketBearerCacheKey_toList token
  rw [h, String.toList_empty] at htext
  cases htext

/-- A server with a fixed secret. -/
def server : Settings where
  hmacSecret := "s"
  cacheTtl := 300
  str := fun value => match value with | .str s => s | _ => ""
  ofData := fun _ => raise "ValidationError" "user_id"

def admin : AuthenticatedUser where
  userId := "u"
  keyId := "ai_market_bearer"
  scopes := ["read", "write", "admin"]
  balanceCents := none
  freeTrialRemainingCents := none

def adminAnswers : Answers where
  me := .response 200 (.ok (.obj [("id", .str "u"), ("role", .str "admin"),
    ("status", .str "active")])) ""

def bearerHeader : HttpRequest where
  authorization := "Bearer t"

def bearerRequest : Event := .http bearerHeader adminAnswers

/-- The key of the token's entry, as an API key. -/
def keyHeader : HttpRequest where
  xApiKey := some (aiMarketBearerCacheKey "t")

/-- ai.market does not know it. -/
def keyRequest : Event := .http keyHeader { gateway := .response 401 (.ok .null) "" }

def cachedWorld : World :=
  ((World.start 0).store server (aiMarketBearerCacheKey "t") admin ⟨.bearer, "t"⟩).validated
    ⟨.bearer, "t"⟩ adminAnswers

theorem lookup_cachedWorld : cachedWorld.lookup (aiMarketBearerCacheKey "t") = some admin := by
  have hentry : cachedWorld.cache (aiMarketBearerCacheKey "t") = some ⟨admin, 0 + 300⟩ :=
    Function.update_self _ _ _
  have hnow : cachedWorld.now < 0 + 300 := by
    show (0 : ℚ) < 0 + 300
    norm_num
  rw [World.lookup, hentry]
  exact if_pos hnow

/-- **The key under which a bearer token is cached is an API key that the cache answers for.** -/
theorem cached_for_another :
    Run (Step server) (.start 0) [bearerRequest] cachedWorld ∧
      (cachedWorld.handle server keyRequest).1 = some (.cached ⟨admin, none⟩) ∧
      (cachedWorld.forget.handle server keyRequest).1 = none ∧
      ¬ Faithful server cachedWorld keyRequest := by
  have hkey : keyHeader.xApiKey.getD "" ≠ "" := aiMarketBearerCacheKey_ne "t"
  have hfound : cachedWorld.lookup (keyHeader.xApiKey.getD "") = some admin := lookup_cachedWorld
  refine ⟨.cons rfl .nil, header_cached (by decide) keyHeader rfl rfl hkey hfound _, ?_,
    header_unfaithful (by decide) keyHeader rfl rfl hkey hfound _⟩
  have hinvalid : validateApiKey server { gateway := .response 401 (.ok .null) "" }
      (aiMarketBearerCacheKey "t") = .ok none := by
    unfold validateApiKey
    rw [aiMarketBearerCacheKey_toList]
    rfl
  exact header_rejected (by decide) keyHeader rfl rfl hkey hinvalid

/-- A bearer token that is brought twice gets its own entry. -/
theorem bearer_faithful :
    Run (fun t e t' => Step server t e t' ∧ Faithful server t e) (.start 0)
      [bearerRequest, bearerRequest] cachedWorld :=
  faithful_of_apart (.cons ⟨rfl, fun _ => fun h => absurd rfl h⟩
    (.cons ⟨congrArg Prod.snd (bearer_cached (by decide) bearerHeader (by decide)
      lookup_cachedWorld adminAnswers), fun _ _ => Function.update_self _ _ _⟩ .nil))

end Auth

end AimData
