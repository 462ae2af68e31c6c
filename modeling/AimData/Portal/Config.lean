/-
  The configuration of the search portal, the endpoints that change it, and the session
  check that every portal request goes through.

  All handlers change one cached configuration object, field by field, and write it to
  disk at the end; a handler that raises in between leaves the cached object as far
  changed as it has come.
-/
import AimData.Lib.Run
import Mathlib.Tactic

namespace AimData

namespace Portal

/-! ## The configuration -/

inductive PortalTier where
  | open_
  | code
  | sso
  deriving DecidableEq

def PortalTier.value : PortalTier → String
  | open_ => "open"
  | code => "code"
  | sso => "sso"

/-- `PortalTier(value)` -/
def PortalTier.ofValue (value : String) : Option PortalTier :=
  [PortalTier.open_, .code, .sso].find? (·.value = value)

structure DatasetPortalConfig where
  portalVisible : Bool
  searchColumns : List String
  displayColumns : List String
  maxResults : ℤ

structure PortalConfig where
  enabled : Bool := false
  tier : PortalTier := .open_
  baseUrl : String := ""
  accessCodeHash : Option String := none
  portalSessionVersion : ℤ := 0
  sessionTtlMinutes : ℤ := 480
  activeSessions : String → Option ℚ := fun _ => none
  datasets : String → Option DatasetPortalConfig := fun _ => none
  oidcIssuer : Option String := none
  oidcClientId : Option String := none
  oidcClientSecret : Option String := none

/-- The body of a settings update. -/
structure PortalConfigUpdate where
  enabled : Option Bool := none
  tier : Option PortalTier := none
  baseUrl : Option String := none
  accessCode : Option String := none
  sessionTtlMinutes : Option ℤ := none
  oidcIssuer : Option String := none
  oidcClientId : Option String := none
  oidcClientSecret : Option String := none

/-- `bool` of an optional text. -/
def given (s : Option String) : Prop := s ≠ none ∧ s ≠ some ""

instance (s : Option String) : Decidable (given s) := inferInstanceAs (Decidable (_ ∧ _))

/-- What the handlers keep: the cached configuration, the stored one, and the times of the
    access code attempts by address. -/
structure State where
  cached : Option PortalConfig := none
  stored : Option PortalConfig := none
  attempts : String → List ℚ := fun _ => []

/-- `get_portal_config` -/
def State.config (p : State) : PortalConfig := p.cached.getD (p.stored.getD {})

structure HttpException where
  statusCode : ℕ
  detail : String
  deriving DecidableEq

/-- What a handler answers, and what it leaves. -/
abbrev Answer (α : Type) := Except HttpException α × State

/-- The object of the cache after changes. -/
def State.setConfig (p : State) (config : PortalConfig) : State :=
  { p with cached := some config }

/-- `save_portal_config`, and what the handler returns after it; `writes` says whether the
    disk takes the file. -/
def save {α : Type} (writes : Bool) (p : State) (config : PortalConfig) (a : α) : Answer α :=
  if writes then (.ok a, { p with cached := some config, stored := some config })
  else (.error ⟨500, "Internal Server Error"⟩, { p with cached := some config })

/-! ## Access codes -/

/-- The claims of a portal token. -/
structure Claims where
  sub : String
  tier : String
  psv : ℤ
  ip : String
  iat : ℤ
  exp : ℤ
  oidcSub : Option String
  oidcEmail : Option String
  oidcName : Option String
  deriving DecidableEq

/-- What the handlers take from libraries: the character classes of `str`, bcrypt and Fernet
    with their salts, and signed web tokens; `verify` checks the signature, the issuer and
    the audience. -/
structure Env where
  isdigit : Char → Bool
  isalnum : Char → Bool
  hashCode : ℕ → String → String
  verifyCode : String → String → Bool
  encryptClientSecret : ℕ → String → String
  encode : Claims → String
  verify : String → Option Claims

def validateStrength (isdigit isalnum : Char → Bool) (code : String) : Bool :=
  if code.length < 6 then false
  else if code.toList.all isdigit then false
  else code.toList.all isalnum

def maxAttempts : ℕ := 5

def windowSeconds : ℚ := 15 * 60

/-- The attempts that `check_rate_limit` keeps. -/
def recentAttempts (now : ℚ) (attempts : List ℚ) : List ℚ :=
  attempts.filter fun t => now - windowSeconds < t

def invalidateSessionsOnRotation (config : PortalConfig) : PortalConfig :=
  { config with
    portalSessionVersion := config.portalSessionVersion + 1
    activeSessions := fun _ => none }

/-! ## Settings -/

/-- The text without the slashes at its end. -/
def rstripSlash (s : String) : String :=
  String.ofList (s.toList.reverse.dropWhile (· = '/')).reverse

def oidcConfigured (config : PortalConfig) : Prop :=
  given config.oidcIssuer ∧ given config.oidcClientId ∧ given config.oidcClientSecret

instance (config : PortalConfig) : Decidable (oidcConfigured config) :=
  inferInstanceAs (Decidable (_ ∧ _))

section

variable (env : Env)

/-- The fields that an update sets before any check. -/
def setFields (salt : ℕ) (body : PortalConfigUpdate) (config : PortalConfig) : PortalConfig :=
  { config with
    tier := body.tier.getD config.tier
    baseUrl := (body.baseUrl.map rstripSlash).getD config.baseUrl
    sessionTtlMinutes := body.sessionTtlMinutes.getD config.sessionTtlMinutes
    oidcIssuer := body.oidcIssuer.or config.oidcIssuer
    oidcClientId := body.oidcClientId.or config.oidcClientId
    oidcClientSecret :=
      match body.oidcClientSecret with
      | none => config.oidcClientSecret
      | some secret => if secret ≠ "" then some (env.encryptClientSecret salt secret) else none }

/-- The access code of an update: cleared, or hashed with the sessions invalidated. -/
def setAccessCode (salt : ℕ) (body : PortalConfigUpdate) (config : PortalConfig) :
    Except HttpException PortalConfig :=
  match body.accessCode with
  | none => .ok config
  | some code =>
    if code = "" then .ok { config with accessCodeHash := none }
    else if ¬ validateStrength env.isdigit env.isalnum code then
      .error ⟨400, "Access code must be at least 6 alphanumeric characters and not purely numeric"⟩
    else
      .ok (invalidateSessionsOnRotation
        { config with accessCodeHash := some (env.hashCode salt code) })

/-- What is checked where an update enables the portal. -/
def checkEnable (config : PortalConfig) : Except HttpException Unit :=
  if config.baseUrl = "" then
    .error ⟨400, "Cannot enable portal without setting a base URL (Mandate M6)"⟩
  else if config.tier = .code ∧ ¬ given config.accessCodeHash then
    .error ⟨400, "Cannot enable portal with 'code' tier without setting an access code"⟩
  else if config.tier = .sso ∧ ¬ oidcConfigured config then
    .error ⟨400, "Cannot enable portal with 'sso' tier without OIDC configuration"⟩
  else .ok ()

/-- What an update answers with: no secret is shown. -/
def redact (config : PortalConfig) : PortalConfig :=
  { config with
    accessCodeHash := if given config.accessCodeHash then some "***" else none
    oidcClientSecret := if given config.oidcClientSecret then some "***" else none }

/-- The changes of an update, and the exception that they end in. -/
def applyUpdate (salt : ℕ) (body : PortalConfigUpdate) (config : PortalConfig) :
    Option HttpException × PortalConfig :=
  let config := setFields env salt body config
  if config.tier = .sso ∧ ¬ oidcConfigured config then
    (some ⟨400, "SSO tier requires oidc_issuer, oidc_client_id, and oidc_client_secret"⟩, config)
  else
    match setAccessCode env salt body config with
    | .error e => (some e, config)
    | .ok config =>
      match body.enabled with
      | none => (none, config)
      | some false => (none, { config with enabled := false })
      | some true =>
        match checkEnable config with
        | .error e => (some e, config)
        | .ok () => (none, { config with enabled := true })

def updatePortalSettings (salt : ℕ) (body : PortalConfigUpdate) (writes : Bool) (p : State) :
    Answer PortalConfig :=
  match applyUpdate env salt body p.config with
  | (some e, config) => (.error e, p.setConfig config)
  | (none, config) => save writes p config (redact config)

end

/-- `record` says whether the dataset is there. -/
def updateDatasetPortalConfig (datasetId : String) (body : DatasetPortalConfig) (record : Bool)
    (writes : Bool) (p : State) : Answer DatasetPortalConfig :=
  if ¬ record then (.error ⟨404, s!"Dataset '{datasetId}' not found"⟩, p)
  else
    save writes p
      { p.config with datasets := Function.update p.config.datasets datasetId (some body) } body

def revokeAllPortalSessions (writes : Bool) (p : State) : Answer ℤ :=
  let config := invalidateSessionsOnRotation p.config
  save writes p config config.portalSessionVersion

def dropSession (sessionId : String) (config : PortalConfig) : PortalConfig :=
  { config with activeSessions := Function.update config.activeSessions sessionId none }

def revokePortalSession (sessionId : String) (writes : Bool) (p : State) : Answer Unit :=
  if (p.config.activeSessions sessionId).isNone then (.error ⟨404, "Session not found"⟩, p)
  else save writes p (dropSession sessionId p.config) ()

/-! ## Sessions -/

structure PortalSession where
  sessionId : String
  tier : PortalTier
  ipAddress : String
  createdAt : ℚ
  expiresAt : ℚ
  portalSessionVersion : ℤ
  oidcSubject : Option String := none
  oidcEmail : Option String := none
  oidcName : Option String := none

/-- The claims that `create_portal_jwt` signs; times are cut to seconds. -/
def PortalSession.claims (session : PortalSession) (now : ℚ) : Claims where
  sub := session.sessionId
  tier := session.tier.value
  psv := session.portalSessionVersion
  ip := session.ipAddress
  iat := ⌊now⌋
  exp := ⌊session.expiresAt⌋
  oidcSub := if given session.oidcSubject then session.oidcSubject else none
  oidcEmail := if given session.oidcEmail then session.oidcEmail else none
  oidcName := if given session.oidcName then session.oidcName else none

/-- A session of the configuration, with its end. -/
def newSession (config : PortalConfig) (tier : PortalTier) (sessionId ip : String) (now : ℚ) :
    PortalSession where
  sessionId := sessionId
  tier := tier
  ipAddress := ip
  createdAt := now
  expiresAt := now + config.sessionTtlMinutes * 60
  portalSessionVersion := config.portalSessionVersion

def track (session : PortalSession) (config : PortalConfig) : PortalConfig :=
  { config with
    activeSessions :=
      Function.update config.activeSessions session.sessionId (some session.expiresAt) }

/-- `request.client.host if request.client else "unknown"` -/
def clientIp (host : Option String) : String := host.getD "unknown"

section

variable (env : Env)

/-- `decode_portal_jwt`, at a time of the clock. -/
def decodePortalJwt (now : ℚ) (token : String) : Option Claims :=
  (env.verify token).filter fun claims => ¬ now < claims.iat ∧ now < claims.exp

def bearerToken (authorization : Option String) : Option String :=
  let header := authorization.getD ""
  if "Bearer ".toList.isPrefixOf header.toList then some (String.ofList (header.toList.drop 7))
  else none

/-- The claims of the token that a request presents. -/
def presented (authorization : Option String) : Option Claims :=
  (bearerToken authorization).bind env.verify

/-- The checks that the code and the sso tier share, with their texts. -/
def checkToken (missing invalid : String) (config : PortalConfig) (now : ℚ)
    (authorization : Option String) : Except HttpException Claims :=
  match bearerToken authorization with
  | none => .error ⟨401, missing⟩
  | some token =>
    match decodePortalJwt env now token with
    | none => .error ⟨401, invalid⟩
    | some claims =>
      if claims.psv ≠ config.portalSessionVersion then
        .error ⟨401, "Session expired, please re-authenticate"⟩
      else .ok claims

def checkActive (config : PortalConfig) (claims : Claims) : Except HttpException Unit :=
  if (config.activeSessions claims.sub).isNone then .error ⟨401, "Session revoked"⟩ else .ok ()

/-- `get_portal_session`; `freshId` is the id of an anonymous session. -/
def getPortalSession (config : PortalConfig) (now : ℚ) (host authorization : Option String)
    (freshId : String) : Except HttpException PortalSession :=
  if ¬ config.enabled then .error ⟨404, "Portal is not enabled"⟩
  else
    match config.tier with
    | .open_ => .ok (newSession config .open_ freshId (clientIp host) now)
    | .code => do
      let claims ← checkToken env "Portal authentication required"
        "Invalid or expired portal session" config now authorization
      checkActive config claims
      match PortalTier.ofValue claims.tier with
      | none => .error ⟨500, "Internal Server Error"⟩
      | some tier =>
        return {
          sessionId := claims.sub
          tier := tier
          ipAddress := claims.ip
          createdAt := claims.iat
          expiresAt := claims.exp
          portalSessionVersion := claims.psv }
    | .sso => do
      let claims ← checkToken env "SSO authentication required"
        "Invalid or expired SSO session" config now authorization
      if claims.tier ≠ "sso" then .error ⟨401, "Invalid session tier"⟩
      else
        checkActive config claims
        return {
          sessionId := claims.sub
          tier := .sso
          ipAddress := claims.ip
          createdAt := claims.iat
          expiresAt := claims.exp
          portalSessionVersion := claims.psv
          oidcSubject := claims.oidcSub
          oidcEmail := claims.oidcEmail
          oidcName := claims.oidcName }

/-- What a login leaves: the claims it has signed, and its answer. -/
structure Login where
  claims : Option Claims
  answer : Answer (String × ℚ)

/-- A login of a session: its token is signed before the session is tracked. -/
def logIn (session : PortalSession) (now : ℚ) (writes : Bool) (p : State) : Login where
  claims := some (session.claims now)
  answer := save writes p (track session p.config)
    (env.encode (session.claims now), session.expiresAt)

def rejectLogin (statusCode : ℕ) (detail : String) (p : State) : Login where
  claims := none
  answer := (.error ⟨statusCode, detail⟩, p)

def authenticateWithCode (code : String) (host : Option String) (now : ℚ) (freshId : String)
    (writes : Bool) (p : State) : Login :=
  let config := p.config
  if ¬ config.enabled then rejectLogin 404 "Portal is not enabled" p
  else if config.tier ≠ .code then
    rejectLogin 400 "Access code auth not available for this portal tier" p
  else
    let ip := clientIp host
    let recent := recentAttempts now (p.attempts ip)
    if maxAttempts ≤ recent.length then
      rejectLogin 429 "Too many attempts. Try again later."
        { p with attempts := Function.update p.attempts ip recent }
    else
      let p := { p with attempts := Function.update p.attempts ip (recent ++ [now]) }
      if ¬ given config.accessCodeHash then
        rejectLogin 500 "Portal access code not configured" p
      else if ¬ env.verifyCode code (config.accessCodeHash.getD "") then
        rejectLogin 401 "Invalid access code" p
      else logIn env (newSession config .code freshId ip now) now writes p

/-- What `sso_callback` takes from a validated ID token. -/
structure IdClaims where
  sub : Option String
  email : Option String
  name : Option String

/-- The end of `sso_callback`, once the ID token is validated. -/
def ssoLogin (claims : IdClaims) (host : Option String) (now : ℚ) (freshId : String)
    (writes : Bool) (p : State) : Login :=
  if ¬ given claims.sub then rejectLogin 401 "ID token missing sub claim" p
  else
    logIn env
      { newSession p.config .sso freshId (clientIp host) now with
        oidcSubject := claims.sub
        oidcEmail := claims.email
        oidcName := claims.name }
      now writes p

/-- `sso_logout` behind the session check: the session that the check has found is dropped. -/
def ssoLogout (now : ℚ) (host authorization : Option String) (freshId : String) (writes : Bool)
    (p : State) : Except HttpException PortalSession × State :=
  match getPortalSession env p.config now host authorization freshId with
  | .error e => (.error e, p)
  | .ok session => (.ok session, (save writes p (dropSession session.sessionId p.config) ()).2)

end

/-! ## Requests in any order -/

/-- How far an SSO callback is: it waits for the tokens, or for the validation of the ID
    token, or has ended. -/
inductive Callback where
  | idle
  | exchanging
  | validating
  | ended
  deriving DecidableEq

/-- What has happened to the sessions. -/
inductive Entry where
  | issued (claims : Claims)
  | loggedOut (sessionId : String)
  | revoked (sessionId : String)
  | revokedAll
  | rotated

/-- The portal, its clock, the callbacks by their number, and what has happened, the latest
    first. -/
structure World where
  portal : State
  clock : ℚ
  callbacks : ℕ → Callback
  log : List Entry

/-- Requests, and what the identity provider answers to a callback between its awaits. -/
inductive Event where
  | tick (clock : ℚ)
  | update (salt : ℕ) (body : PortalConfigUpdate) (writes : Bool)
  | updateDataset (datasetId : String) (body : DatasetPortalConfig) (record writes : Bool)
  | authenticate (code : String) (host : Option String) (freshId : String) (writes : Bool)
  | ssoCallback (call : ℕ) (stateValid : Bool)
  | exchanged (call : ℕ) (idToken : Bool)
  | validated (call : ℕ) (claims : Option IdClaims) (host : Option String) (freshId : String)
    (writes : Bool)
  | logout (host authorization : Option String) (freshId : String) (writes : Bool)
  | revoke (sessionId : String) (writes : Bool)
  | revokeAll (writes : Bool)

def World.setCallback (w : World) (call : ℕ) (callback : Callback) : World :=
  { w with callbacks := Function.update w.callbacks call callback }

/-- The world after a login. -/
def World.afterLogin (w : World) (login : Login) : World :=
  { w with
    portal := login.answer.2
    log := (login.claims.map Entry.issued).toList ++ w.log }

section

variable (env : Env)

def step (w : World) : Event → Option World
  | .tick clock => if w.clock ≤ clock then some { w with clock := clock } else none
  | .update salt body writes =>
    let portal := (updatePortalSettings env salt body writes w.portal).2
    some { w with
      portal := portal
      log :=
        if portal.config.portalSessionVersion = w.portal.config.portalSessionVersion then w.log
        else .rotated :: w.log }
  | .updateDataset datasetId body record writes =>
    some { w with portal := (updateDatasetPortalConfig datasetId body record writes w.portal).2 }
  | .authenticate code host freshId writes =>
    some (w.afterLogin (authenticateWithCode env code host w.clock freshId writes w.portal))
  | .ssoCallback call stateValid =>
    if w.callbacks call ≠ .idle then none
    else if w.portal.config.enabled ∧ w.portal.config.tier = .sso ∧ stateValid then
      some (w.setCallback call .exchanging)
    else some (w.setCallback call .ended)
  | .exchanged call idToken =>
    if w.callbacks call ≠ .exchanging then none
    else some (w.setCallback call (if idToken then .validating else .ended))
  | .validated call claims host freshId writes =>
    if w.callbacks call ≠ .validating then none
    else
      match claims with
      | none => some (w.setCallback call .ended)
      | some claims =>
        some ((w.setCallback call .ended).afterLogin
          (ssoLogin env claims host w.clock freshId writes w.portal))
  | .logout host authorization freshId writes =>
    match ssoLogout env w.clock host authorization freshId writes w.portal with
    | (.error _, portal) => some { w with portal := portal }
    | (.ok session, portal) =>
      some { w with portal := portal, log := .loggedOut session.sessionId :: w.log }
  | .revoke sessionId writes =>
    if (w.portal.config.activeSessions sessionId).isNone then some w
    else
      some { w with
        portal := (revokePortalSession sessionId writes w.portal).2
        log := .revoked sessionId :: w.log }
  | .revokeAll writes =>
    some { w with
      portal := (revokeAllPortalSessions writes w.portal).2
      log := .revokedAll :: w.log }

def Step (w : World) (e : Event) (w' : World) : Prop := step env w e = some w'

end

end Portal

end AimData
