/-
  Which tokens the portal accepts, in any order of logins, logouts, revocations, rotations
  and tier changes.

  An active session stands: it was issued and nothing has ended it since.  The token of an
  accepted request was therefore issued, is not expired, and its session stands; but only
  the sso tier compares the tier of the token, so the code tier also accepts the tokens
  that the sso tier has issued (`accepted_valid_iff`).
-/
import AimData.Lib.Except
import AimData.Portal.Settings

namespace AimData

namespace Portal

/-! ## Sessions that stand -/

/-- The claims of the tokens issued so far. -/
def issuedClaims (log : List Entry) : List Claims :=
  log.filterMap fun
    | .issued claims => some claims
    | _ => none

/-- A logout or a revocation of the session, a revocation of all, or a rotation of the code. -/
def Entry.Ends (sessionId : String) : Entry → Prop
  | .issued _ => False
  | .loggedOut s | .revoked s => s = sessionId
  | .revokedAll | .rotated => True

/-- The token was issued, and nothing has ended its session since. -/
def Standing (log : List Entry) (claims : Claims) : Prop :=
  ∃ after before, log = after ++ .issued claims :: before ∧ ∀ e ∈ after, ¬ e.Ends claims.sub

/-- A token that a tier should accept: a login of this tier has issued it, it is not expired,
    and its session stands. -/
structure Valid (log : List Entry) (tier : PortalTier) (now : ℚ) (claims : Claims) : Prop where
  tier : claims.tier = tier.value
  unexpired : now < claims.exp
  standing : Standing log claims

/-- Session ids are random: no login draws one twice. -/
def Honest (w : World) : Event → Prop
  | .authenticate _ _ freshId _ | .validated _ _ _ freshId _ =>
    ∀ claims ∈ issuedClaims w.log, claims.sub ≠ freshId
  | _ => True

/-- A token that is verified has been issued: signatures are not forged. -/
def Unforged (env : Env) (w : World) (authorization : Option String) : Prop :=
  ∀ claims, presented env authorization = some claims → claims ∈ issuedClaims w.log

section

variable {log : List Entry} {claims : Claims} {e : Entry}

theorem Standing.cons (h : Standing log claims) (he : ¬ e.Ends claims.sub) :
    Standing (e :: log) claims := by
  obtain ⟨after, before, rfl, hafter⟩ := h
  refine ⟨e :: after, before, rfl, ?_⟩
  intro e' he'
  rcases List.mem_cons.1 he' with rfl | he'
  · exact he
  · exact hafter e' he'

theorem standing_issued (claims : Claims) (log : List Entry) :
    Standing (.issued claims :: log) claims := ⟨[], log, rfl, fun _ h => nomatch h⟩

theorem Standing.mem (h : Standing log claims) : claims ∈ issuedClaims log := by
  obtain ⟨after, before, rfl, -⟩ := h
  simp [issuedClaims, List.filterMap_append]

theorem issuedClaims_cons (claims : Claims) (log : List Entry) :
    issuedClaims (.issued claims :: log) = claims :: issuedClaims log := rfl

/-- An entry that ends a session issues nothing. -/
theorem issuedClaims_ends {sessionId : String} (he : e.Ends sessionId) :
    issuedClaims (e :: log) = issuedClaims log := by
  cases e with
  | issued => cases he
  | loggedOut => rfl
  | revoked => rfl
  | revokedAll => rfl
  | rotated => rfl

end

/-! ## One step -/

section

variable {env : Env} {w w' : World} {e : Event}

/-- Active sessions stand, and no two tokens have one session. -/
structure Inv (w : World) : Prop where
  distinct : ((issuedClaims w.log).map Claims.sub).Nodup
  standing : ∀ sessionId, (w.portal.config.activeSessions sessionId).isSome →
    ∃ claims, Standing w.log claims ∧ claims.sub = sessionId

/-- A portal without sessions. -/
structure Start (w : World) : Prop where
  sessions : ∀ sessionId, w.portal.config.activeSessions sessionId = none
  log : w.log = []

theorem Start.inv (h : Start w) : Inv w := by
  refine ⟨?_, fun sessionId hactive => ?_⟩
  · rw [h.log]
    exact List.nodup_nil
  · rw [h.sessions] at hactive
    cases hactive

/-- What a request does to the active sessions and to the log. -/
inductive Change (w : World) : Event → (String → Option ℚ) → List Entry → Prop
  | same (e : Event) : Change w e w.portal.config.activeSessions w.log
  | login {e : Event} (claims : Claims) (expiresAt : ℚ) :
    (Honest w e → ∀ c ∈ issuedClaims w.log, c.sub ≠ claims.sub) →
    Change w e (Function.update w.portal.config.activeSessions claims.sub (some expiresAt))
      (.issued claims :: w.log)
  | drop {e : Event} {sessionId : String} {entry : Entry} : entry.Ends sessionId →
    (∀ s, entry.Ends s → s = sessionId) →
    Change w e (Function.update w.portal.config.activeSessions sessionId none) (entry :: w.log)
  | clear {e : Event} {entry : Entry} : (∀ s, entry.Ends s) →
    Change w e (fun _ => none) (entry :: w.log)

theorem Change.inv {active : String → Option ℚ} {log : List Entry} (hinv : Inv w)
    (hhonest : Honest w e) (h : Change w e active log) :
    ((issuedClaims log).map Claims.sub).Nodup ∧ ∀ sessionId, (active sessionId).isSome →
      ∃ claims, Standing log claims ∧ claims.sub = sessionId := by
  cases h with
  | same => exact ⟨hinv.distinct, hinv.standing⟩
  | login claims expiresAt hfresh =>
    have hne := hfresh hhonest
    refine ⟨?_, fun sessionId hactive => ?_⟩
    · rw [issuedClaims_cons, List.map_cons, List.nodup_cons]
      refine ⟨?_, hinv.distinct⟩
      intro hmem
      obtain ⟨c, hc, hsub⟩ := List.mem_map.1 hmem
      exact hne c hc hsub
    · by_cases hsub : sessionId = claims.sub
      · exact ⟨claims, standing_issued claims _, hsub.symm⟩
      · rw [Function.update_of_ne hsub] at hactive
        obtain ⟨c, hstanding, hc⟩ := hinv.standing sessionId hactive
        exact ⟨c, hstanding.cons not_false, hc⟩
  | @drop dropped entry hends honly =>
    refine ⟨?_, fun sessionId hactive => ?_⟩
    · rw [issuedClaims_ends hends]
      exact hinv.distinct
    · have hne : sessionId ≠ dropped := by
        rintro rfl
        rw [Function.update_self] at hactive
        cases hactive
      rw [Function.update_of_ne hne] at hactive
      obtain ⟨c, hstanding, rfl⟩ := hinv.standing sessionId hactive
      exact ⟨c, hstanding.cons fun h => hne (honly _ h), rfl⟩
  | clear hends =>
    refine ⟨?_, fun sessionId hactive => nomatch hactive⟩
    rw [issuedClaims_ends (hends "")]
    exact hinv.distinct

/-- An update drops all sessions with a new version, or none. -/
theorem applyUpdate_sessions (env : Env) (salt : ℕ) (body : PortalConfigUpdate)
    (config : PortalConfig) :
    ((applyUpdate env salt body config).2.portalSessionVersion = config.portalSessionVersion ∧
      (applyUpdate env salt body config).2.activeSessions = config.activeSessions) ∨
    ((applyUpdate env salt body config).2.portalSessionVersion ≠ config.portalSessionVersion ∧
      (applyUpdate env salt body config).2.activeSessions = fun _ => none) := by
  by_cases hearly : LacksOidc env salt body config ∨ WeakCode env body
  · obtain ⟨e, hupdate⟩ := applyUpdate_early hearly
    rw [hupdate]
    exact Or.inl ⟨rfl, rfl⟩
  have hcode : ((withCode env salt body (setFields env salt body config)).portalSessionVersion =
        config.portalSessionVersion ∧
      (withCode env salt body (setFields env salt body config)).activeSessions =
        config.activeSessions) ∨
      ((withCode env salt body (setFields env salt body config)).portalSessionVersion ≠
        config.portalSessionVersion ∧
      (withCode env salt body (setFields env salt body config)).activeSessions = fun _ => none) := by
    rw [withCode]
    split
    · exact Or.inl ⟨rfl, rfl⟩
    · split_ifs
      · exact Or.inl ⟨rfl, rfl⟩
      · refine Or.inr ⟨?_, rfl⟩
        show config.portalSessionVersion + 1 ≠ config.portalSessionVersion
        omega
  rw [applyUpdate_late hearly]
  rcases body.enabled with _ | _ | _
  · exact hcode
  · exact hcode
  · rcases hcheck : checkEnable (withCode env salt body (setFields env salt body config)) with _ | _
    · exact hcode
    · exact hcode

/-- What a login does to the active sessions, if it goes through. -/
def LoginEffect (p : State) (freshId : String) (login : Login) : Prop :=
  (login.claims = none ∧ login.answer.2.config.activeSessions = p.config.activeSessions) ∨
    ∃ claims expiresAt, login.claims = some claims ∧ claims.sub = freshId ∧
      login.answer.2.config.activeSessions =
        Function.update p.config.activeSessions claims.sub (some expiresAt)

theorem loginEffect_logIn (session : PortalSession) (now : ℚ) (writes : Bool) (p : State) :
    LoginEffect p session.sessionId (logIn env session now writes p) := by
  refine Or.inr ⟨session.claims now, session.expiresAt, rfl, rfl, ?_⟩
  show (save writes p (track session p.config) _).2.config.activeSessions = _
  rw [config_save]
  rfl

theorem loginEffect_authenticate (code : String) (host : Option String) (now : ℚ)
    (freshId : String) (writes : Bool) (p : State) :
    LoginEffect p freshId (authenticateWithCode env code host now freshId writes p) := by
  rw [authenticateWithCode]
  dsimp only
  by_cases henabled : p.config.enabled = true
  swap
  · rw [if_pos henabled]
    exact Or.inl ⟨rfl, rfl⟩
  rw [if_neg (not_not.2 henabled)]
  by_cases htier : p.config.tier ≠ .code
  · rw [if_pos htier]
    exact Or.inl ⟨rfl, rfl⟩
  rw [if_neg htier]
  by_cases hrecent : maxAttempts ≤ (recentAttempts now (p.attempts (clientIp host))).length
  · rw [if_pos hrecent]
    exact Or.inl ⟨rfl, rfl⟩
  rw [if_neg hrecent]
  by_cases hhash : given p.config.accessCodeHash
  swap
  · rw [if_pos hhash]
    exact Or.inl ⟨rfl, rfl⟩
  rw [if_neg (not_not.2 hhash)]
  split_ifs
  · exact loginEffect_logIn (newSession p.config .code freshId (clientIp host) now) now writes
      { p with
        attempts := Function.update p.attempts (clientIp host)
          (recentAttempts now (p.attempts (clientIp host)) ++ [now]) }
  · exact Or.inl ⟨rfl, rfl⟩

theorem loginEffect_ssoLogin (claims : IdClaims) (host : Option String) (now : ℚ)
    (freshId : String) (writes : Bool) (p : State) :
    LoginEffect p freshId (ssoLogin env claims host now freshId writes p) := by
  rw [ssoLogin]
  split_ifs
  · exact loginEffect_logIn _ now writes p
  · exact Or.inl ⟨rfl, rfl⟩

theorem LoginEffect.change {freshId : String} {login : Login}
    (h : LoginEffect w.portal freshId login)
    (hfresh : Honest w e → ∀ c ∈ issuedClaims w.log, c.sub ≠ freshId) :
    Change w e (w.afterLogin login).portal.config.activeSessions (w.afterLogin login).log := by
  rcases h with ⟨hclaims, hactive⟩ | ⟨claims, expiresAt, hclaims, rfl, hactive⟩
  · rw [World.afterLogin, hclaims]
    dsimp only
    rw [hactive]
    exact .same e
  · rw [World.afterLogin, hclaims]
    dsimp only
    rw [hactive]
    exact .login claims expiresAt hfresh

variable (env) in
theorem config_ssoLogout (now : ℚ) (host authorization : Option String) (freshId : String)
    (writes : Bool) (p : State) :
    (∃ e, ssoLogout env now host authorization freshId writes p = (.error e, p)) ∨
      ∃ session portal, ssoLogout env now host authorization freshId writes p =
        (.ok session, portal) ∧ portal.config = dropSession session.sessionId p.config := by
  rw [ssoLogout]
  rcases getPortalSession env p.config now host authorization freshId with e | session
  · exact Or.inl ⟨e, rfl⟩
  · exact Or.inr ⟨session, _, rfl, config_save writes p _ ()⟩

theorem step_change (h : Step env w e w') :
    Change w e w'.portal.config.activeSessions w'.log := by
  cases e with
  | tick clock =>
    rw [Step, step] at h
    split_ifs at h
    cases h
    exact .same _
  | update salt body writes =>
    cases h
    dsimp only
    have hconfig : (updatePortalSettings env salt body writes w.portal).2.config =
        (applyUpdate env salt body w.portal.config).2 := by
      rw [updatePortalSettings]
      rcases applyUpdate env salt body w.portal.config with ⟨_ | exc, config⟩
      · exact config_save writes w.portal config _
      · rfl
    rw [hconfig]
    rcases applyUpdate_sessions env salt body w.portal.config
      with ⟨hversion, hactive⟩ | ⟨hversion, hactive⟩
    · rw [if_pos hversion, hactive]
      exact .same _
    · rw [if_neg hversion, hactive]
      exact .clear fun _ => trivial
  | updateDataset datasetId body record writes =>
    cases h
    dsimp only
    have hactive : (updateDatasetPortalConfig datasetId body record writes
        w.portal).2.config.activeSessions = w.portal.config.activeSessions := by
      rw [updateDatasetPortalConfig]
      split_ifs
      · rw [config_save]
      · rfl
    rw [hactive]
    exact .same _
  | authenticate code host freshId writes =>
    cases h
    exact (loginEffect_authenticate code host w.clock freshId writes w.portal).change fun h => h
  | ssoCallback call stateValid =>
    rw [Step, step] at h
    split_ifs at h <;> cases h <;> exact .same _
  | exchanged call idToken =>
    rw [Step, step] at h
    split_ifs at h <;> cases h <;> exact .same _
  | validated call claims host freshId writes =>
    rcases claims with _ | claims <;> rw [Step, step] at h <;> split_ifs at h <;> cases h
    · exact .same _
    · exact (loginEffect_ssoLogin claims host w.clock freshId writes w.portal).change
        (w := w) fun h => h
  | logout host authorization freshId writes =>
    rw [Step, step] at h
    rcases config_ssoLogout env w.clock host authorization freshId writes w.portal
      with ⟨exc, hanswer⟩ | ⟨session, portal, hanswer, hconfig⟩ <;> rw [hanswer] at h <;> cases h
    · exact .same _
    · dsimp only
      rw [hconfig]
      exact .drop (rfl : session.sessionId = session.sessionId) fun s hs => hs.symm
  | revoke sessionId writes =>
    rw [Step, step] at h
    split_ifs at h with hnone <;> cases h
    · exact .same _
    · dsimp only
      rw [revokePortalSession, if_neg hnone, config_save]
      exact .drop (rfl : sessionId = sessionId) fun s hs => hs.symm
  | revokeAll writes =>
    cases h
    dsimp only
    rw [revokeAllPortalSessions, config_save]
    exact .clear fun _ => trivial

theorem Inv.step (hinv : Inv w) (hhonest : Honest w e) (h : Step env w e w') : Inv w' :=
  have hafter := (step_change h).inv hinv hhonest
  ⟨hafter.1, hafter.2⟩

/-! ## Requests -/

/-- The checks that a token has passed. -/
theorem checkToken_ok {missing invalid : String} {config : PortalConfig} {now : ℚ}
    {authorization : Option String} {claims : Claims}
    (h : checkToken env missing invalid config now authorization = .ok claims) :
    presented env authorization = some claims ∧ now < claims.exp := by
  rw [checkToken] at h
  rcases htoken : bearerToken authorization with _ | token <;> rw [htoken] at h
  · cases h
  · dsimp only at h
    rcases hdecode : decodePortalJwt env now token with _ | c <;> rw [hdecode] at h
    · cases h
    · dsimp only at h
      split_ifs at h
      cases h
      obtain ⟨hverify, hexp⟩ := Option.filter_eq_some_iff.1 hdecode
      rw [presented, htoken]
      exact ⟨hverify, (of_decide_eq_true hexp).2⟩

theorem checkActive_ok {config : PortalConfig} {claims : Claims}
    (h : checkActive config claims = .ok ()) : (config.activeSessions claims.sub).isSome := by
  rw [checkActive] at h
  split_ifs at h with hnone
  exact Option.isSome_iff_ne_none.2 (by simpa using hnone)

/-- What a request has shown that is not anonymous. -/
theorem accepted_cases {config : PortalConfig} {now : ℚ} {host authorization : Option String}
    {freshId : String} {session : PortalSession} (htier : config.tier ≠ .open_)
    (h : getPortalSession env config now host authorization freshId = .ok session) :
    ∃ claims, presented env authorization = some claims ∧ now < claims.exp ∧
      (config.activeSessions claims.sub).isSome ∧ (config.tier = .sso → claims.tier = "sso") := by
  rw [getPortalSession] at h
  split_ifs at h
  rcases hconfig : config.tier with _ | _ | _ <;> rw [hconfig] at h
  · exact absurd hconfig htier
  · obtain ⟨claims, htoken, h⟩ := Except.bind_eq_ok.1 h
    obtain ⟨_, hactive, -⟩ := Except.bind_eq_ok.1 h
    obtain ⟨hpresented, hexp⟩ := checkToken_ok htoken
    exact ⟨claims, hpresented, hexp, checkActive_ok hactive, fun h => nomatch h⟩
  · obtain ⟨claims, htoken, h⟩ := Except.bind_eq_ok.1 h
    split_ifs at h with hsso
    obtain ⟨_, hactive, -⟩ := Except.bind_eq_ok.1 h
    obtain ⟨hpresented, hexp⟩ := checkToken_ok htoken
    exact ⟨claims, hpresented, hexp, checkActive_ok hactive, fun _ => not_not.1 hsso⟩

end

/-! ## Runs -/

section

variable {env : Env} {w w' : World} {es : List Event}

/-- A token that has been issued and whose session is active stands. -/
theorem Inv.standing_of_active (hinv : Inv w) {claims : Claims} (hissued : claims ∈ issuedClaims w.log)
    (hactive : (w.portal.config.activeSessions claims.sub).isSome) : Standing w.log claims := by
  obtain ⟨c, hstanding, hsub⟩ := hinv.standing claims.sub hactive
  have heq := List.inj_on_of_nodup_map hinv.distinct hstanding.mem hissued hsub
  exact heq ▸ hstanding

/-- **In every run, an accepted token is valid unless it is another tier's token in the code
    tier.** -/
theorem accepted_valid_iff
    (h : Run (fun w e w' => Step env w e w' ∧ Honest w e) w es w') (hw : Start w)
    {host authorization : Option String} {freshId : String} {session : PortalSession}
    (hforge : Unforged env w' authorization) (htier : w'.portal.config.tier ≠ .open_)
    (haccepted : getPortalSession env w'.portal.config w'.clock host authorization freshId =
      .ok session) :
    ∃ claims, presented env authorization = some claims ∧
      (Valid w'.log w'.portal.config.tier w'.clock claims ↔
        (w'.portal.config.tier = .code → claims.tier = "code")) := by
  have hinv : Inv w' := h.invariant (fun hinv hs => hinv.step hs.2 hs.1) hw.inv
  obtain ⟨claims, hpresented, hexp, hactive, hsso⟩ := accepted_cases htier haccepted
  refine ⟨claims, hpresented, ?_⟩
  constructor
  · intro hvalid hcode
    rw [hvalid.tier, hcode, PortalTier.value]
  · intro hcode
    refine ⟨?_, hexp, hinv.standing_of_active (hforge claims hpresented) hactive⟩
    rcases hconfig : w'.portal.config.tier with _ | _ | _
    · exact absurd hconfig htier
    · exact hcode hconfig
    · exact hsso hconfig

end

/-! ## A change of the tier -/

/-- The claims of the session that the SSO login below opens. -/
def ssoClaims : Claims where
  sub := "s1"
  tier := "sso"
  psv := 1
  ip := "ip"
  iat := 0
  exp := 28800
  oidcSub := some "u"
  oidcEmail := none
  oidcName := none

/-- The update that opens the portal to single sign-on. -/
def openWithSso : PortalConfigUpdate where
  tier := some .sso
  oidcIssuer := some "https://idp"
  oidcClientId := some "portal"
  oidcClientSecret := some "secret"

def ssoWorld : World :=
  { codeWorld with
    portal := (updatePortalSettings (plainEnv ssoClaims) 0 openWithSso true codeWorld.portal).2 }

/-- The world once a user has signed on. -/
def signedOnWorld : World :=
  (((ssoWorld.setCallback 0 .exchanging).setCallback 0 .validating).setCallback 0 .ended).afterLogin
    (ssoLogin (plainEnv ssoClaims) ⟨some "u", none, none⟩ (some "ip") 0 "s1" true ssoWorld.portal)

/-- The world once the tier is back at the access code. -/
def backWorld : World :=
  { signedOnWorld with
    portal := (updatePortalSettings (plainEnv ssoClaims) 0 { tier := some .code } true
      signedOnWorld.portal).2 }

def tierEvents : List Event :=
  [.update 0 openWithCode true, .update 0 openWithSso true, .ssoCallback 0 true, .exchanged 0 true,
    .validated 0 (some ⟨some "u", none, none⟩) (some "ip") "s1" true,
    .update 0 { tier := some .code } true]

theorem run_tierEvents :
    Run (fun w e w' => Step (plainEnv ssoClaims) w e w' ∧ Honest w e) defaultWorld tierEvents
      backWorld := by
  refine @Run.cons _ _ _ _ codeWorld _ _ _ ⟨rfl, trivial⟩ (@Run.cons _ _ _ _ ssoWorld _ _ _
    ⟨rfl, trivial⟩ (.cons ⟨rfl, trivial⟩ (.cons ⟨rfl, trivial⟩
      (@Run.cons _ _ _ _ signedOnWorld _ _ _ ⟨rfl, ?_⟩ (.cons ⟨rfl, trivial⟩ .nil)))))
  rintro claims ⟨⟩

theorem issuedClaims_backWorld : issuedClaims backWorld.log = [ssoClaims] := by
  decide +kernel

theorem presented_token : presented (plainEnv ssoClaims) (some "Bearer token") = some ssoClaims := rfl

theorem unforged_backWorld : Unforged (plainEnv ssoClaims) backWorld (some "Bearer token") := by
  intro claims hclaims
  rw [presented_token] at hclaims
  cases hclaims
  rw [issuedClaims_backWorld]
  exact List.mem_singleton_self _

/-- The session of the SSO token in the code tier. -/
def tierSession : PortalSession where
  sessionId := "s1"
  tier := .sso
  ipAddress := "ip"
  createdAt := 0
  expiresAt := 28800
  portalSessionVersion := 1

theorem accepted_backWorld :
    getPortalSession (plainEnv ssoClaims) backWorld.portal.config backWorld.clock none
      (some "Bearer token") "" = .ok tierSession := by
  rfl

theorem accepted_valid_iff_back : ∃ claims,
    presented (plainEnv ssoClaims) (some "Bearer token") = some claims ∧
      (Valid backWorld.log backWorld.portal.config.tier backWorld.clock claims ↔
        (backWorld.portal.config.tier = .code → claims.tier = "code")) :=
  accepted_valid_iff run_tierEvents ⟨fun _ => rfl, rfl⟩ unforged_backWorld (by decide)
    accepted_backWorld

/-- The code tier accepts a token that a login of the sso tier has issued. -/
theorem sso_token_accepted :
    Start defaultWorld ∧
    Run (fun w e w' => Step (plainEnv ssoClaims) w e w' ∧ Honest w e) defaultWorld tierEvents
      backWorld ∧
    Unforged (plainEnv ssoClaims) backWorld (some "Bearer token") ∧
    backWorld.portal.config.tier = .code ∧
    getPortalSession (plainEnv ssoClaims) backWorld.portal.config backWorld.clock none
      (some "Bearer token") "" = .ok tierSession ∧
    presented (plainEnv ssoClaims) (some "Bearer token") = some ssoClaims ∧
    ¬ Valid backWorld.log backWorld.portal.config.tier backWorld.clock ssoClaims := by
  refine ⟨⟨fun _ => rfl, rfl⟩, run_tierEvents, unforged_backWorld, rfl, accepted_backWorld,
    presented_token, ?_⟩
  intro hvalid
  exact absurd hvalid.tier (by decide)

end Portal

end AimData
