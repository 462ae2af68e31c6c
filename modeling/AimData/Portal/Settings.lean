/-
  What a settings update keeps: a rejected one should leave the configuration as it was,
  and an accepted one should leave it fit to be served.

  The update sets its fields before it checks them, and checks them against each other only
  where the request itself enables the portal.  So it keeps its promise exactly when a
  request that is rejected names nothing new, and one that leaves `enabled` alone takes no
  base URL and no access code away from an enabled portal (`settings_kept_iff`).
-/
import AimData.Portal.Config

namespace AimData

namespace Portal

/-! ## Configurations that can be served -/

/-- The cross-field rules of an enabled portal. -/
def Servable (config : PortalConfig) : Prop :=
  config.enabled = true → config.baseUrl ≠ "" ∧
    (config.tier = .code → given config.accessCodeHash) ∧
    (config.tier = .sso → oidcConfigured config)

/-- Both the configuration that requests are served from and the stored one are. -/
structure State.Served (p : State) : Prop where
  config : Servable p.config
  stored : ∀ config, p.stored = some config → Servable config

/-- The settings that the rules speak of are the same. -/
structure SameSettings (c c' : PortalConfig) : Prop where
  enabled : c'.enabled = c.enabled
  tier : c'.tier = c.tier
  baseUrl : c'.baseUrl = c.baseUrl
  accessCodeHash : c'.accessCodeHash = c.accessCodeHash
  oidcIssuer : c'.oidcIssuer = c.oidcIssuer
  oidcClientId : c'.oidcClientId = c.oidcClientId
  oidcClientSecret : c'.oidcClientSecret = c.oidcClientSecret

section

variable {c c' : PortalConfig} {p p' : State}

theorem SameSettings.refl (c : PortalConfig) : SameSettings c c := ⟨rfl, rfl, rfl, rfl, rfl, rfl, rfl⟩

theorem SameSettings.servable (h : SameSettings c c') (hc : Servable c) : Servable c' := by
  rw [Servable, oidcConfigured, h.enabled, h.tier, h.baseUrl, h.accessCodeHash, h.oidcIssuer,
    h.oidcClientId, h.oidcClientSecret]
  exact hc

/-- A portal with the same settings, in the cache and on disk. -/
structure SameServed (p p' : State) : Prop where
  config : SameSettings p.config p'.config
  stored : p'.stored = p.stored ∨ p'.stored = some p'.config

theorem SameServed.refl (p : State) : SameServed p p := ⟨.refl _, Or.inl rfl⟩

theorem SameServed.served (h : SameServed p p') (hp : p.Served) : p'.Served := by
  have hconfig := h.config.servable hp.config
  refine ⟨hconfig, fun config hstored => ?_⟩
  rcases h.stored with hsame | hsaved
  · exact hp.stored config (hsame ▸ hstored)
  · rw [hsaved] at hstored
    cases hstored
    exact hconfig

@[simp] theorem config_setConfig (p : State) (config : PortalConfig) :
    (p.setConfig config).config = config := rfl

theorem config_save {α : Type} (writes : Bool) (p : State) (config : PortalConfig) (a : α) :
    (save writes p config a).2.config = config := by
  cases writes <;> rfl

theorem stored_save {α : Type} (writes : Bool) (p : State) (config : PortalConfig) (a : α) :
    (save writes p config a).2.stored = p.stored ∨
      (save writes p config a).2.stored = some (save writes p config a).2.config := by
  cases writes
  · exact Or.inl rfl
  · exact Or.inr rfl

theorem sameServed_save {α : Type} (writes : Bool) {config : PortalConfig} (a : α)
    (h : SameSettings p.config config) : SameServed p (save writes p config a).2 := by
  refine ⟨?_, stored_save writes p config a⟩
  rw [config_save]
  exact h

end

/-! ## The endpoints that leave the settings alone -/

section

variable {env : Env} {p : State}

theorem sameServed_attempts (p : State) (attempts : String → List ℚ) :
    SameServed p { p with attempts := attempts } := ⟨.refl _, Or.inl rfl⟩

variable (env p) in
theorem sameServed_logIn (session : PortalSession) (now : ℚ) (writes : Bool) :
    SameServed p (logIn env session now writes p).answer.2 :=
  sameServed_save writes _ ⟨rfl, rfl, rfl, rfl, rfl, rfl, rfl⟩

theorem sameServed_authenticate (code : String) (host : Option String) (now : ℚ)
    (freshId : String) (writes : Bool) :
    SameServed p (authenticateWithCode env code host now freshId writes p).answer.2 := by
  rw [authenticateWithCode]
  dsimp only
  by_cases henabled : p.config.enabled = true
  swap
  · rw [if_pos henabled]
    exact .refl p
  rw [if_neg (not_not.2 henabled)]
  by_cases htier : p.config.tier ≠ .code
  · rw [if_pos htier]
    exact .refl p
  rw [if_neg htier]
  by_cases hrecent : maxAttempts ≤ (recentAttempts now (p.attempts (clientIp host))).length
  · rw [if_pos hrecent]
    exact sameServed_attempts p _
  rw [if_neg hrecent]
  by_cases hhash : given p.config.accessCodeHash
  swap
  · rw [if_pos hhash]
    exact sameServed_attempts p _
  rw [if_neg (not_not.2 hhash)]
  split_ifs
  · have h := sameServed_logIn env
      { p with
        attempts := Function.update p.attempts (clientIp host)
          (recentAttempts now (p.attempts (clientIp host)) ++ [now]) }
      (newSession p.config .code freshId (clientIp host) now) now writes
    exact ⟨h.config, h.stored⟩
  · exact sameServed_attempts p _

theorem sameServed_ssoLogin (claims : IdClaims) (host : Option String) (now : ℚ)
    (freshId : String) (writes : Bool) :
    SameServed p (ssoLogin env claims host now freshId writes p).answer.2 := by
  rw [ssoLogin]
  split_ifs
  · exact sameServed_logIn env p _ now writes
  · exact .refl p

variable (env p) in
theorem sameServed_ssoLogout (now : ℚ) (host authorization : Option String) (freshId : String)
    (writes : Bool) : SameServed p (ssoLogout env now host authorization freshId writes p).2 := by
  rw [ssoLogout]
  split
  · exact .refl p
  · exact sameServed_save writes _ ⟨rfl, rfl, rfl, rfl, rfl, rfl, rfl⟩

theorem sameServed_updateDataset (datasetId : String) (body : DatasetPortalConfig)
    (record writes : Bool) :
    SameServed p (updateDatasetPortalConfig datasetId body record writes p).2 := by
  rw [updateDatasetPortalConfig]
  split_ifs
  · exact sameServed_save writes _ ⟨rfl, rfl, rfl, rfl, rfl, rfl, rfl⟩
  · exact .refl p

theorem sameServed_revoke (sessionId : String) (writes : Bool) :
    SameServed p (revokePortalSession sessionId writes p).2 := by
  rw [revokePortalSession]
  split_ifs
  · exact .refl p
  · exact sameServed_save writes _ ⟨rfl, rfl, rfl, rfl, rfl, rfl, rfl⟩

theorem sameServed_revokeAll (writes : Bool) :
    SameServed p (revokeAllPortalSessions writes p).2 :=
  sameServed_save writes _ ⟨rfl, rfl, rfl, rfl, rfl, rfl, rfl⟩

end

/-! ## Updates -/

section

variable (env : Env) (salt : ℕ) (body : PortalConfigUpdate) (config : PortalConfig)

/-- The first check of an update fails. -/
def LacksOidc : Prop :=
  (setFields env salt body config).tier = .sso ∧ ¬ oidcConfigured (setFields env salt body config)

def WeakCode : Prop :=
  ∃ code, body.accessCode = some code ∧ code ≠ "" ∧
    validateStrength env.isdigit env.isalnum code = false

/-- An access code is set once the update has set or cleared its own. -/
def HasCode : Prop :=
  match body.accessCode with
  | none => given config.accessCodeHash
  | some code => code ≠ ""

/-- The update would leave an enabled portal without a base URL, or without an access code in
    the code tier. -/
def Uncovered : Prop :=
  (setFields env salt body config).baseUrl = "" ∨
    ((setFields env salt body config).tier = .code ∧ ¬ HasCode body config)

/-- The access code part of the update changes nothing. -/
def KeepsCode : Prop :=
  body.accessCode = none ∨ (body.accessCode = some "" ∧ config.accessCodeHash = none)

/-- An update that is rejected sets no field to a new value, and one that says nothing of
    `enabled` does not uncover an enabled portal. -/
structure Careful : Prop where
  early : LacksOidc env salt body config ∨ WeakCode env body →
    setFields env salt body config = config
  late : ¬ (LacksOidc env salt body config ∨ WeakCode env body) → body.enabled = some true →
    Uncovered env salt body config → setFields env salt body config = config ∧ KeepsCode body config
  accepted : ¬ (LacksOidc env salt body config ∨ WeakCode env body) → body.enabled = none →
    config.enabled = true → ¬ Uncovered env salt body config

/-- What an update promises of the configuration. -/
structure UpdateKept : Prop where
  rejected : ∀ e, (applyUpdate env salt body config).1 = some e →
    (applyUpdate env salt body config).2 = config
  servable : Servable (applyUpdate env salt body config).2

/-- The configuration with the access code of an update that is not weak. -/
def withCode : PortalConfig :=
  match body.accessCode with
  | none => config
  | some code =>
    if code = "" then { config with accessCodeHash := none }
    else
      invalidateSessionsOnRotation
        { config with accessCodeHash := some (env.hashCode salt code) }

end

section

variable {env : Env} {salt : ℕ} {body : PortalConfigUpdate} {config c : PortalConfig}

theorem setAccessCode_weak (h : WeakCode env body) :
    setAccessCode env salt body config = .error ⟨400,
      "Access code must be at least 6 alphanumeric characters and not purely numeric"⟩ := by
  obtain ⟨code, hcode, hne, hweak⟩ := h
  rw [setAccessCode, hcode]
  dsimp only
  rw [if_neg hne, hweak, if_pos (by decide)]

theorem setAccessCode_ok (h : ¬ WeakCode env body) :
    setAccessCode env salt body config = .ok (withCode env salt body config) := by
  rw [setAccessCode, withCode]
  rcases hcode : body.accessCode with _ | code
  · rfl
  · dsimp only
    by_cases hne : code = ""
    · rw [if_pos hne, if_pos hne]
    · have hstrong : validateStrength env.isdigit env.isalnum code = true := by
        by_contra hweak
        exact h ⟨code, hcode, hne, by simpa using hweak⟩
      rw [if_neg hne, if_neg hne, if_neg (not_not.2 hstrong)]

variable (env salt body config) in
/-- The access code part changes the code, the version and the sessions only. -/
theorem withCode_same : ∃ hash version sessions, withCode env salt body config =
    { config with
      accessCodeHash := hash
      portalSessionVersion := version
      activeSessions := sessions } := by
  rw [withCode]
  split
  · exact ⟨_, _, _, rfl⟩
  · split_ifs
    · exact ⟨_, _, _, rfl⟩
    · exact ⟨_, _, _, rfl⟩

variable (salt body) in
theorem given_withCode (hhash : ∀ salt code, env.hashCode salt code ≠ "")
    (hc : config.accessCodeHash = c.accessCodeHash) :
    given (withCode env salt body config).accessCodeHash ↔ HasCode body c := by
  rw [withCode, HasCode]
  rcases body.accessCode with _ | code
  · rw [hc]
  · by_cases hne : code = ""
    · simp [hne, given]
    · simp [hne, given, invalidateSessionsOnRotation, hhash]

variable (env salt body) in
theorem withCode_eq (hc : config.accessCodeHash = c.accessCodeHash)
    (hversion : config.portalSessionVersion = c.portalSessionVersion) :
    withCode env salt body config = c ↔ config = c ∧ KeepsCode body c := by
  rw [withCode, KeepsCode]
  rcases hcode : body.accessCode with _ | code
  · simp
  · by_cases hne : code = ""
    · subst hne
      simp only [if_true]
      constructor
      · intro heq
        have hnone : c.accessCodeHash = none := by rw [← heq]
        refine ⟨?_, Or.inr ⟨trivial, hnone⟩⟩
        rw [← heq, ← hc.trans hnone]
      · rintro ⟨rfl, hkeep | ⟨-, hnone⟩⟩
        · cases hkeep
        · rw [← hnone]
    · simp only [if_neg hne]
      constructor
      · intro heq
        have hbumped := congrArg PortalConfig.portalSessionVersion heq
        rw [invalidateSessionsOnRotation, ← hversion] at hbumped
        exact absurd hbumped (by simp)
      · rintro ⟨-, hkeep | ⟨hempty, -⟩⟩
        · cases hkeep
        · exact absurd (Option.some.inj hempty) hne

theorem applyUpdate_early (h : LacksOidc env salt body config ∨ WeakCode env body) :
    ∃ e, applyUpdate env salt body config = (some e, setFields env salt body config) := by
  rw [LacksOidc] at h
  rw [applyUpdate]
  by_cases hoidc : (setFields env salt body config).tier = .sso ∧
      ¬ oidcConfigured (setFields env salt body config)
  · rw [if_pos hoidc]
    exact ⟨_, rfl⟩
  · rw [if_neg hoidc, setAccessCode_weak (h.resolve_left hoidc)]
    exact ⟨_, rfl⟩

theorem applyUpdate_late (h : ¬ (LacksOidc env salt body config ∨ WeakCode env body)) :
    applyUpdate env salt body config =
      match body.enabled with
      | none => (none, withCode env salt body (setFields env salt body config))
      | some false =>
        (none, { withCode env salt body (setFields env salt body config) with enabled := false })
      | some true =>
        match checkEnable (withCode env salt body (setFields env salt body config)) with
        | .error e => (some e, withCode env salt body (setFields env salt body config))
        | .ok () =>
          (none, { withCode env salt body (setFields env salt body config) with enabled := true }) := by
  obtain ⟨hoidc, hweak⟩ := not_or.1 h
  rw [LacksOidc] at hoidc
  unfold applyUpdate
  rw [if_neg hoidc, setAccessCode_ok hweak] <;> rfl

/-- The rules of an enabled portal, for the configuration that an update comes to. -/
theorem covered_iff (hhash : ∀ salt code, env.hashCode salt code ≠ "")
    (h : ¬ LacksOidc env salt body config) :
    let config' := withCode env salt body (setFields env salt body config)
    (config'.tier = .sso → oidcConfigured config') ∧
      (Uncovered env salt body config ↔
        config'.baseUrl = "" ∨ (config'.tier = .code ∧ ¬ given config'.accessCodeHash)) := by
  have hgiven := given_withCode salt body hhash
    (show (setFields env salt body config).accessCodeHash = config.accessCodeHash from rfl)
  obtain ⟨hash, version, sessions, hwith⟩ :=
    withCode_same env salt body (setFields env salt body config)
  dsimp only
  rw [Uncovered, ← hgiven, hwith]
  refine ⟨?_, Iff.rfl⟩
  intro htier
  by_contra hoidc
  exact h ⟨htier, hoidc⟩

theorem servable_withCode (hhash : ∀ salt code, env.hashCode salt code ≠ "")
    (h : ¬ LacksOidc env salt body config) (enabled : Bool) :
    Servable { withCode env salt body (setFields env salt body config) with enabled := enabled } ↔
      (enabled = true → ¬ Uncovered env salt body config) := by
  obtain ⟨hsso, huncovered⟩ := covered_iff hhash h
  rw [huncovered]
  constructor
  · rintro hserv henabled (hbase | ⟨htier, hcode⟩)
    · exact (hserv henabled).1 hbase
    · exact hcode ((hserv henabled).2.1 htier)
  · intro hcovered henabled
    obtain ⟨hbase, hcode⟩ := not_or.1 (hcovered henabled)
    exact ⟨hbase, fun htier => not_not.1 fun hmissing => hcode ⟨htier, hmissing⟩, hsso⟩

/-- Enabling is refused iff it would uncover the portal. -/
theorem checkEnable_withCode (hhash : ∀ salt code, env.hashCode salt code ≠ "")
    (h : ¬ LacksOidc env salt body config) :
    (Uncovered env salt body config ∧
      ∃ e, checkEnable (withCode env salt body (setFields env salt body config)) = .error e) ∨
    (¬ Uncovered env salt body config ∧
      checkEnable (withCode env salt body (setFields env salt body config)) = .ok ()) := by
  obtain ⟨hsso, huncovered⟩ := covered_iff hhash h
  rw [huncovered, checkEnable]
  split_ifs with hbase hcode hoidc
  · exact Or.inl ⟨Or.inl hbase, _, rfl⟩
  · exact Or.inl ⟨Or.inr hcode, _, rfl⟩
  · exact absurd (hsso hoidc.1) hoidc.2
  · exact Or.inr ⟨not_or.2 ⟨hbase, hcode⟩, rfl⟩

/-- **An update keeps its promise iff it is careful.** -/
theorem updateKept_iff (hhash : ∀ salt code, env.hashCode salt code ≠ "")
    (hserv : Servable config) :
    UpdateKept env salt body config ↔ Careful env salt body config := by
  by_cases hearly : LacksOidc env salt body config ∨ WeakCode env body
  · obtain ⟨e, hupdate⟩ := applyUpdate_early hearly
    constructor
    · rintro ⟨hrejected, -⟩
      rw [hupdate] at hrejected
      exact ⟨fun _ => hrejected e rfl, fun h => absurd hearly h, fun h => absurd hearly h⟩
    · intro hcareful
      refine ⟨?_, ?_⟩ <;> rw [hupdate, hcareful.early hearly]
      · exact fun _ _ => rfl
      · exact hserv
  have hupdate := applyUpdate_late hearly
  have hoidc := (not_or.1 hearly).1
  have hservable := servable_withCode hhash hoidc
  rcases henabled : body.enabled with _ | _ | _ <;> rw [henabled] at hupdate
  · -- `enabled` is left alone
    dsimp only at hupdate
    have hsame : withCode env salt body (setFields env salt body config) =
        { withCode env salt body (setFields env salt body config) with
          enabled := config.enabled } := by
      obtain ⟨hash, version, sessions, hwith⟩ :=
        withCode_same env salt body (setFields env salt body config)
      rw [hwith]
      rfl
    constructor
    · rintro ⟨-, hkept⟩
      rw [hupdate, hsame, hservable] at hkept
      exact ⟨fun h => absurd h hearly, fun _ h => (by rw [henabled] at h; cases h),
        fun _ _ => hkept⟩
    · intro hcareful
      refine ⟨?_, ?_⟩ <;> rw [hupdate]
      · rintro e ⟨⟩
      · rw [hsame, hservable]
        exact hcareful.accepted hearly henabled
  · -- disabled
    dsimp only at hupdate
    refine iff_of_true ⟨?_, ?_⟩ ⟨fun h => absurd h hearly, fun _ h => ?_, fun _ h => ?_⟩
    · rw [hupdate]
      rintro e ⟨⟩
    · rw [hupdate, hservable]
      rintro ⟨⟩
    · rw [henabled] at h
      cases h
    · rw [henabled] at h
      cases h
  · -- enabled, if the checks allow it
    dsimp only at hupdate
    rcases checkEnable_withCode hhash hoidc
      with ⟨huncovered, e, hcheck⟩ | ⟨hcovered, hcheck⟩ <;> rw [hcheck] at hupdate
    · have heq := withCode_eq env salt body
        (show (setFields env salt body config).accessCodeHash = config.accessCodeHash from rfl)
        (show (setFields env salt body config).portalSessionVersion =
          config.portalSessionVersion from rfl)
      constructor
      · rintro ⟨hrejected, -⟩
        rw [hupdate] at hrejected
        exact ⟨fun h => absurd h hearly, fun _ _ _ => heq.1 (hrejected e rfl),
          fun _ h => (by rw [henabled] at h; cases h)⟩
      · intro hcareful
        have hconfig := heq.2 (hcareful.late hearly henabled huncovered)
        refine ⟨?_, ?_⟩ <;> rw [hupdate, hconfig]
        · exact fun _ _ => rfl
        · exact hserv
    · refine iff_of_true ⟨?_, ?_⟩
        ⟨fun h => absurd h hearly, fun _ _ h => absurd h hcovered, fun _ h => ?_⟩
      · rw [hupdate]
        rintro e ⟨⟩
      · rw [hupdate, hservable]
        exact fun _ => hcovered
      · rw [henabled] at h
        cases h

theorem checkEnable_error {e : HttpException} (h : checkEnable config = .error e) :
    e.statusCode = 400 := by
  rw [checkEnable] at h
  split_ifs at h
  · cases h; rfl
  · cases h; rfl
  · cases h; rfl

/-- The exceptions of the checks are validation errors. -/
theorem applyUpdate_error {e : HttpException} (h : (applyUpdate env salt body config).1 = some e) :
    e.statusCode = 400 := by
  rw [applyUpdate] at h
  split_ifs at h with hoidc
  · cases h; rfl
  · by_cases hweak : WeakCode env body
    · rw [setAccessCode_weak hweak] at h
      cases h; rfl
    · rw [setAccessCode_ok hweak] at h
      dsimp only at h
      split at h
      · cases h
      · cases h
      · split at h
        · rename_i e' hcheck
          cases h
          exact checkEnable_error hcheck
        · cases h

end

/-! ## Runs -/

section

variable {env : Env} {w w' : World} {e : Event} {es : List Event}

/-- What a step promises: an update rejected with a validation error leaves both
    configurations as they were, and both are fit to be served after every request. -/
structure Kept (env : Env) (w : World) (e : Event) (w' : World) : Prop where
  rejected : ∀ salt body writes detail, e = .update salt body writes →
    (updatePortalSettings env salt body writes w.portal).1 = .error ⟨400, detail⟩ →
      w'.portal.config = w.portal.config ∧ w'.portal.stored = w.portal.stored
  served : w'.portal.Served

/-- An update of the step is careful. -/
def CarefulStep (env : Env) (w : World) (e : Event) : Prop :=
  ∀ salt body writes, e = .update salt body writes → Careful env salt body w.portal.config

theorem kept_update_iff (hhash : ∀ salt code, env.hashCode salt code ≠ "")
    (hserved : w.portal.Served) {salt : ℕ} {body : PortalConfigUpdate} {writes : Bool}
    (h : Step env w (.update salt body writes) w') :
    Kept env w (.update salt body writes) w' ↔ Careful env salt body w.portal.config := by
  rw [← updateKept_iff hhash hserved.config]
  cases h
  rcases hupdate : applyUpdate env salt body w.portal.config with ⟨_ | exc, config⟩
  · have hanswer : updatePortalSettings env salt body writes w.portal =
        save writes w.portal config (redact config) := by
      rw [updatePortalSettings, hupdate]
    constructor
    · rintro ⟨-, hkept⟩
      have hservable := hkept.config
      dsimp only at hservable
      rw [hanswer, config_save] at hservable
      refine ⟨?_, ?_⟩ <;> rw [hupdate]
      · rintro e ⟨⟩
      · exact hservable
    · rintro ⟨-, hservable⟩
      rw [hupdate] at hservable
      refine ⟨?_, ?_, ?_⟩
      · rintro _ _ _ detail ⟨⟩ herror
        rw [hanswer] at herror
        cases writes <;> cases herror
      · dsimp only
        rw [hanswer, config_save]
        exact hservable
      · dsimp only
        rw [hanswer]
        intro c hstored
        rcases stored_save writes w.portal config (redact config) with hsame | hsaved
        · exact hserved.stored c (hsame ▸ hstored)
        · rw [hsaved, config_save] at hstored
          cases hstored
          exact hservable
  · have hanswer : updatePortalSettings env salt body writes w.portal =
        (.error exc, w.portal.setConfig config) := by
      rw [updatePortalSettings, hupdate]
    have hstatus : exc.statusCode = 400 := applyUpdate_error (by rw [hupdate])
    constructor
    · rintro ⟨hrejected, hkept⟩
      have hsame := (hrejected salt body writes exc.detail rfl (by rw [hanswer, ← hstatus])).1
      have hservable := hkept.config
      dsimp only at hsame hservable
      rw [hanswer, config_setConfig] at hsame hservable
      refine ⟨?_, ?_⟩ <;> rw [hupdate]
      · exact fun _ _ => hsame
      · exact hservable
    · rintro ⟨hrejected, hservable⟩
      rw [hupdate] at hrejected hservable
      refine ⟨?_, ?_, ?_⟩
      · rintro _ _ _ detail ⟨⟩ -
        dsimp only
        rw [hanswer]
        exact ⟨hrejected exc rfl, rfl⟩
      · dsimp only
        rw [hanswer]
        exact hservable
      · dsimp only
        rw [hanswer]
        exact hserved.stored

/-- The other requests leave the settings alone. -/
theorem sameServed_step (h : Step env w e w') (he : ∀ salt body writes, e ≠ .update salt body writes) :
    SameServed w.portal w'.portal := by
  cases e with
  | tick clock =>
    rw [Step, step] at h
    split_ifs at h
    cases h
    exact .refl _
  | update salt body writes => exact absurd rfl (he salt body writes)
  | updateDataset datasetId body record writes =>
    cases h
    exact sameServed_updateDataset datasetId body record writes
  | authenticate code host freshId writes =>
    cases h
    exact sameServed_authenticate code host w.clock freshId writes
  | ssoCallback call stateValid =>
    rw [Step, step] at h
    split_ifs at h <;> cases h <;> exact .refl _
  | exchanged call idToken =>
    rw [Step, step] at h
    split_ifs at h <;> cases h <;> exact .refl _
  | validated call claims host freshId writes =>
    rcases claims with _ | claims <;> rw [Step, step] at h <;> split_ifs at h <;> cases h
    · exact .refl _
    · exact sameServed_ssoLogin claims host w.clock freshId writes
  | logout host authorization freshId writes =>
    have hlogout := sameServed_ssoLogout env w.portal w.clock host authorization
      freshId writes
    rw [Step, step] at h
    rcases hanswer : ssoLogout env w.clock host authorization freshId writes w.portal
      with ⟨_ | session, portal⟩ <;> rw [hanswer] at h hlogout <;> cases h
    · exact hlogout
    · exact hlogout
  | revoke sessionId writes =>
    rw [Step, step] at h
    split_ifs at h <;> cases h
    · exact .refl _
    · exact sameServed_revoke sessionId writes
  | revokeAll writes =>
    cases h
    exact sameServed_revokeAll writes

theorem kept_iff (hhash : ∀ salt code, env.hashCode salt code ≠ "") (hserved : w.portal.Served)
    (h : Step env w e w') : Kept env w e w' ↔ CarefulStep env w e := by
  by_cases he : ∃ salt body writes, e = .update salt body writes
  · obtain ⟨salt, body, writes, rfl⟩ := he
    rw [kept_update_iff hhash hserved h]
    constructor
    · rintro hcareful _ _ _ ⟨⟩
      exact hcareful
    · intro hcareful
      exact hcareful salt body writes rfl
  · have hne : ∀ salt body writes, e ≠ .update salt body writes :=
      fun salt body writes heq => he ⟨salt, body, writes, heq⟩
    refine iff_of_true ⟨?_, (sameServed_step h hne).served hserved⟩ ?_
    · exact fun salt body writes detail heq => absurd heq (hne salt body writes)
    · exact fun salt body writes heq => absurd heq (hne salt body writes)

theorem served_default {p : State} (hcached : p.cached = none) (hstored : p.stored = none) :
    p.Served := by
  refine ⟨?_, fun config h => ?_⟩
  · rw [State.config, hcached, hstored]
    rintro ⟨⟩
  · rw [hstored] at h
    cases h

/-- **In a run from the default configuration, rejected updates change nothing and the portal
    stays fit to be served iff every update is careful.** -/
theorem settings_kept_iff (hhash : ∀ salt code, env.hashCode salt code ≠ "")
    (hcached : w.portal.cached = none) (hstored : w.portal.stored = none) :
    Run (fun w e w' => Step env w e w' ∧ Kept env w e w') w es w' ↔
      Run (fun w e w' => Step env w e w' ∧ CarefulStep env w e) w es w' := by
  have hserved := served_default hcached hstored
  constructor
  · intro h
    refine h.mono (I := fun w => w.portal.Served) ?_ hserved
    rintro s e s' hs ⟨hstep, hkept⟩
    exact ⟨hkept.served, hstep, (kept_iff hhash hs hstep).1 hkept⟩
  · intro h
    refine h.mono (I := fun w => w.portal.Served) ?_ hserved
    rintro s e s' hs ⟨hstep, hcareful⟩
    have hkept := (kept_iff hhash hs hstep).2 hcareful
    exact ⟨hkept.served, hstep, hkept⟩

end

/-- Codes hashed and secrets encrypted by a mark before them, and one token. -/
def plainEnv (claims : Claims) : Env where
  isdigit := Char.isDigit
  isalnum := Char.isAlphanum
  hashCode := fun _ code => "$2b$" ++ code
  verifyCode := fun code hash => hash = "$2b$" ++ code
  encryptClientSecret := fun _ secret => "gAAAAA" ++ secret
  encode := fun c => if c = claims then "token" else ""
  verify := fun token => if token = "token" then some claims else none

def noClaims : Claims := ⟨"", "", 0, "", 0, 0, none, none, none⟩

theorem hashCode_ne (claims : Claims) (salt : ℕ) (code : String) :
    (plainEnv claims).hashCode salt code ≠ "" := by
  intro h
  have hlen := congrArg String.length h
  rw [plainEnv, String.length_append] at hlen
  exact absurd hlen (by simp)

/-- The world before the first request. -/
def defaultWorld : World := ⟨{}, 0, fun _ => .idle, []⟩

/-- The update that opens the portal to an access code. -/
def openWithCode : PortalConfigUpdate where
  enabled := some true
  tier := some .code
  baseUrl := some "https://portal/"
  accessCode := some "abc123"

/-- The world once the portal is open to the access code. -/
def codeWorld : World :=
  { defaultWorld with
    portal := (updatePortalSettings (plainEnv noClaims) 0 openWithCode true defaultWorld.portal).2
    log := [.rotated] }

theorem careful_openWithCode : Careful (plainEnv noClaims) 0 openWithCode {} := by
  have hearly : ¬ (LacksOidc (plainEnv noClaims) 0 openWithCode {} ∨
      WeakCode (plainEnv noClaims) openWithCode) := by
    rintro (⟨htier, -⟩ | ⟨code, hcode, -, hweak⟩)
    · cases htier
    · cases hcode
      exact absurd hweak (by decide)
  refine ⟨fun h => absurd h hearly, fun _ _ huncovered => ?_, fun _ h => by cases h⟩
  rcases huncovered with hbase | ⟨-, hcode⟩
  · exact absurd hbase (by decide)
  · exact absurd (show "abc123" ≠ "" by decide) hcode

theorem settings_kept_opened :
    Run (fun w e w' => Step (plainEnv noClaims) w e w' ∧ Kept (plainEnv noClaims) w e w')
      defaultWorld [.update 0 openWithCode true] codeWorld := by
  refine (settings_kept_iff (hashCode_ne noClaims) rfl rfl).2 (.cons ⟨rfl, ?_⟩ .nil)
  rintro _ _ _ ⟨⟩
  exact careful_openWithCode

/-- A rejected update has opened the portal to everybody; an accepted one has left it enabled
    without a base URL. -/
theorem update_breaks :
    Run (Step (plainEnv noClaims)) defaultWorld [.update 0 openWithCode true] codeWorld ∧
    codeWorld.portal.config.tier = .code ∧
    (∃ detail, (updatePortalSettings (plainEnv noClaims) 0
        { tier := some .open_, accessCode := some "1" } true codeWorld.portal).1 =
      .error ⟨400, detail⟩) ∧
    (updatePortalSettings (plainEnv noClaims) 0
      { tier := some .open_, accessCode := some "1" } true codeWorld.portal).2.config.tier = .open_ ∧
    (updatePortalSettings (plainEnv noClaims) 0 { baseUrl := some "" } true
      codeWorld.portal).1.isOk = true ∧
    ¬ Servable (updatePortalSettings (plainEnv noClaims) 0 { baseUrl := some "" } true
      codeWorld.portal).2.config := by
  refine ⟨.cons rfl .nil, rfl, ⟨_, rfl⟩, rfl, rfl, ?_⟩
  intro hserv
  exact (hserv rfl).1 rfl

end Portal

end AimData
