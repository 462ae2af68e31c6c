/-
  The single sign-on of the portal: how a login comes from an authorization.

  An authorization draws a state and a nonce.  A callback consumes the state, exchanges its code
  for tokens and validates the ID token against the nonce, with an await at each; callbacks
  interleave with each other and with every other request of the portal.  A login is of a state
  that the portal has drawn at most ten minutes before the callback, with the nonce of the state
  in its ID token, and no two logins share a nonce (`sso_login`).
-/
import AimData.Lib.Since
import AimData.Portal.Sessions

namespace AimData

namespace Portal

namespace Sso

/-! ## States -/

structure PendingState where
  nonce : String
  createdAt : ℚ
  redirectUri : String
  deriving DecidableEq

/-- `_pending_states`, by the states. -/
abbrev Pending := List (String × PendingState)

/-- `_cleanup_pending_states` -/
def cleanupPendingStates (pending : Pending) (now : ℚ) : Pending :=
  pending.filter fun entry => ¬ entry.2.createdAt < now - 600

/-- `validate_state` -/
def validateState (pending : Pending) (state : String) (now : ℚ) :
    Option PendingState × Pending :=
  match pending.lookup state with
  | none => (none, pending)
  | some data =>
    let rest := pending.filter fun entry => entry.1 ≠ state
    if 600 < now - data.createdAt then (none, rest) else (some data, rest)

/-- The claims of an ID token with the signature, the audience and the issuer that are asked. -/
structure TokenClaims extends IdClaims where
  nonce : Option String

/-- `validate_id_token`, from what PyJWT makes of the token. -/
def validateIdToken (decoded : Option TokenClaims) (expectedNonce : String) :
    Option TokenClaims :=
  match decoded with
  | none => none
  | some claims =>
    if expectedNonce ≠ "" ∧ claims.nonce ≠ some expectedNonce then none else some claims

theorem nonce_of_validate {decoded : Option TokenClaims} {nonce : String} {claims : TokenClaims}
    (hnonce : nonce ≠ "") (h : validateIdToken decoded nonce = some claims) :
    claims.nonce = some nonce := by
  cases decoded with
  | none => cases h
  | some claims' =>
    rw [validateIdToken] at h
    split_ifs at h with hmismatch
    obtain rfl := Option.some.inj h
    exact by_contra fun hne => hmismatch ⟨hnonce, hne⟩

/-- What a callback gets of a state: nothing, or the state is pending and not expired. -/
theorem validateState_cases (pending : Pending) (state : String) (now : ℚ) :
    ((validateState pending state now).1 = none ∧
      (validateState pending state now).2.Sublist pending) ∨
    ∃ data, validateState pending state now =
        (some data, pending.filter fun entry => entry.1 ≠ state) ∧
      (state, data) ∈ pending ∧ now - data.createdAt ≤ 600 := by
  rw [validateState]
  rcases hlookup : pending.lookup state with _ | data
  · exact Or.inl ⟨rfl, List.Sublist.refl _⟩
  · dsimp only
    split_ifs with hexpired
    · exact Or.inl ⟨rfl, List.filter_sublist⟩
    · obtain ⟨l₁, l₂, rfl, -⟩ := List.lookup_eq_some_iff.1 hlookup
      exact Or.inr ⟨data, rfl, by simp, not_lt.1 hexpired⟩

/-! ## Requests in any order -/

/-- A callback that has consumed its state: it waits for the tokens or for the validation. -/
structure Call where
  call : ℕ
  data : PendingState
  validating : Bool
  deriving DecidableEq

/-- The portal, the states that wait for a callback, the callbacks under way, and what was
    drawn. -/
structure System where
  world : World
  pending : Pending
  calls : List Call
  drawn : List String

inductive Event where
  | authorize (state : String) (data : PendingState)
  | callback (call : ℕ) (state : String) (now : ℚ) (data : Option PendingState)
  | exchange (call : ℕ) (redirectUri : String) (idToken : Bool)
  | validate (call : ℕ) (nonce : String) (claims : Option TokenClaims) (host : Option String)
    (freshId : String) (writes : Bool)
  | clearSessions (writes : Bool)
  | other (e : Portal.Event)

/-- The request is not a part of a callback. -/
def Other : Portal.Event → Prop
  | .ssoCallback .. | .exchanged .. | .validated .. => False
  | _ => True

/-- The request of the portal. -/
def Event.portal : Event → List Portal.Event
  | authorize _ _ => []
  | callback call _ _ data => [.ssoCallback call data.isSome]
  | exchange call _ idToken => [.exchanged call idToken]
  | validate call _ claims host freshId writes =>
    [.validated call (claims.map TokenClaims.toIdClaims) host freshId writes]
  | clearSessions writes => [.revokeAll writes]
  | other e => [e]

/-- What a request does between two awaits.  States and nonces are drawn anew. -/
inductive Step (env : Env) : System → Event → System → Prop
  /-- `build_authorize_url`; the checks of the configuration come before an await. -/
  | authorize {s : System} {state : String} {data : PendingState} : state ∉ s.drawn →
    data.nonce ∉ s.drawn → data.nonce ≠ "" → data.createdAt = s.world.clock →
    Step env s (.authorize state data)
      { s with
        pending := cleanupPendingStates (s.pending ++ [(state, data)]) s.world.clock
        drawn := state :: data.nonce :: s.drawn }
  /-- `sso_callback` up to the exchange of the code. -/
  | callback {s : System} {call : ℕ} {state : String} {world : World} :
    s.world.portal.config.enabled = true → s.world.portal.config.tier = .sso →
    Portal.Step env s.world
      (.ssoCallback call (validateState s.pending state s.world.clock).1.isSome) world →
    Step env s
      (.callback call state s.world.clock (validateState s.pending state s.world.clock).1)
      { s with
        world := world
        pending := (validateState s.pending state s.world.clock).2
        calls := (validateState s.pending state s.world.clock).1.toList.map (⟨call, ·, false⟩) ++
          s.calls }
  /-- The portal has another tier, and the state is kept. -/
  | inactive {s : System} {call : ℕ} {state : String} {world : World} :
    ¬ (s.world.portal.config.enabled = true ∧ s.world.portal.config.tier = .sso) →
    Portal.Step env s.world (.ssoCallback call false) world →
    Step env s (.callback call state s.world.clock none) { s with world := world }
  | exchange {s : System} {call : ℕ} {data : PendingState} {idToken : Bool} {world : World} :
    ⟨call, data, false⟩ ∈ s.calls → Portal.Step env s.world (.exchanged call idToken) world →
    Step env s (.exchange call data.redirectUri idToken)
      { s with
        world := world
        calls := (if idToken then [⟨call, data, true⟩] else []) ++
          s.calls.erase ⟨call, data, false⟩ }
  | validate {s : System} {call : ℕ} {data : PendingState} {decoded : Option TokenClaims}
    {host : Option String} {freshId : String} {writes : Bool} {world : World} :
    ⟨call, data, true⟩ ∈ s.calls →
    Portal.Step env s.world (.validated call
      ((validateIdToken decoded data.nonce).map TokenClaims.toIdClaims) host freshId writes)
      world →
    Step env s
      (.validate call data.nonce (validateIdToken decoded data.nonce) host freshId writes)
      { s with world := world, calls := s.calls.erase ⟨call, data, true⟩ }
  /-- `revoke_all_portal_sessions_v2`, with `clear_sessions_only`. -/
  | clearSessions {s : System} {writes : Bool} {world : World} :
    Portal.Step env s.world (.revokeAll writes) world →
    Step env s (.clearSessions writes) { s with world := world, pending := [] }
  | other {s : System} {e : Portal.Event} {world : World} : Other e →
    Portal.Step env s.world e world → Step env s (.other e) { s with world := world }

/-! ## What the events say -/

/-- The nonce of a login: of an ID token that was accepted. -/
def Event.login : Event → Option String
  | validate _ nonce (some _) _ _ _ => some nonce
  | _ => none

def logins (es : List Event) : List String := es.filterMap Event.login

/-- A callback has consumed a state that was drawn for an authorization, in time. -/
def Consumed (es : List Event) (call : ℕ) (data : PendingState) : Prop :=
  Once (fun es e => ∃ state now, e = .callback call state now (some data) ∧
    .authorize state data ∈ es ∧ now - data.createdAt ≤ 600) es

/-- Then the code was exchanged with the redirect address of the state. -/
def Exchanged (es : List Event) (call : ℕ) (data : PendingState) : Prop :=
  Once (fun es e => e = .exchange call data.redirectUri true ∧ Consumed es call data) es

/-- Then the token was issued for an ID token with the nonce of the state. -/
def SignedOn (es : List Event) (token : Claims) : Prop :=
  Once (fun es e => ∃ call data claims host writes,
    e = .validate call data.nonce (some claims) host token.sub writes ∧ Exchanged es call data ∧
    claims.nonce = some data.nonce ∧ token.oidcSub = claims.sub) es

theorem logins_append (es : List Event) (e : Event) :
    logins (es ++ [e]) = logins es ++ e.login.toList := by
  rw [logins, List.filterMap_append]
  cases h : e.login <;> simp [h, logins]

/-! ## What the steps keep -/

/-- Where the nonces are: in a pending state, in a callback under way, or in a login. -/
def System.nonces (s : System) (es : List Event) : List String :=
  s.pending.map (fun entry => entry.2.nonce) ++
    (s.calls.map (fun call => call.data.nonce) ++ logins es)

/-- How a callback under way has come to be where it is. -/
structure Call.Follows (call : Call) (es : List Event) : Prop where
  nonempty : call.data.nonce ≠ ""
  consumed : Consumed es call.call call.data
  exchanged : call.validating = true → Exchanged es call.call call.data

structure Inv (es : List Event) (s : System) : Prop where
  nodup : (s.nonces es).Nodup
  drawn : s.nonces es ⊆ s.drawn
  authorized : ∀ entry ∈ s.pending, .authorize entry.1 entry.2 ∈ es ∧ entry.2.nonce ≠ ""
  calls : ∀ call ∈ s.calls, call.Follows es

/-- No state is pending, no callback is under way, and no token is issued. -/
structure Start (s : System) : Prop where
  pending : s.pending = []
  calls : s.calls = []
  log : issuedClaims s.world.log = []

section

variable {env : Env} {es : List Event} {s s' : System} {e : Event}

theorem Call.Follows.append {call : Call} (h : call.Follows es) : call.Follows (es ++ [e]) :=
  ⟨h.nonempty, Once.append h.consumed, fun hvalidating => Once.append (h.exchanged hvalidating)⟩

theorem Start.inv (h : Start s) : Inv [] s := by
  have hnonces : s.nonces [] = [] := by
    rw [System.nonces, h.pending, h.calls]
    rfl
  refine ⟨?_, ?_, ?_, ?_⟩
  · rw [hnonces]
    exact List.nodup_nil
  · rw [hnonces]
    exact List.nil_subset _
  · rw [h.pending]
    exact fun _ hentry => nomatch hentry
  · rw [h.calls]
    exact fun _ hcall => nomatch hcall

/-- A step that draws nothing only moves nonces, or drops them. -/
theorem Inv.next (h : Inv es s) (hnonces : (s'.nonces (es ++ [e])).Subperm (s.nonces es))
    (hdrawn : s'.drawn = s.drawn) (hpending : s'.pending ⊆ s.pending)
    (hcalls : ∀ call ∈ s'.calls, call ∈ s.calls ∨ call.Follows (es ++ [e])) :
    Inv (es ++ [e]) s' := by
  refine ⟨?_, ?_, ?_, ?_⟩
  · obtain ⟨l, hperm, hsub⟩ := hnonces
    exact hperm.nodup (h.nodup.sublist hsub)
  · rw [hdrawn]
    exact List.Subset.trans hnonces.subset h.drawn
  · intro entry hentry
    obtain ⟨hauthorize, hne⟩ := h.authorized entry (hpending hentry)
    exact ⟨List.mem_append_left _ hauthorize, hne⟩
  · intro call hcall
    rcases hcalls call hcall with hold | hnew
    · exact (h.calls call hold).append
    · exact hnew

theorem nonces_quiet (hlogin : e.login = none) : s.nonces (es ++ [e]) = s.nonces es := by
  rw [System.nonces, logins_append, hlogin, Option.toList_none, List.append_nil, System.nonces]

/-- A step that drops pending states or callbacks. -/
theorem Inv.drop (h : Inv es s) (hlogin : e.login = none)
    (hpending : s'.pending.Sublist s.pending) (hcalls : s'.calls.Sublist s.calls)
    (hdrawn : s'.drawn = s.drawn) : Inv (es ++ [e]) s' := by
  refine h.next ?_ hdrawn hpending.subset fun call hcall => Or.inl (hcalls.subset hcall)
  rw [nonces_quiet hlogin]
  have hnonces : (s'.nonces es).Sublist (s.nonces es) :=
    (hpending.map _).append ((hcalls.map _).append_right _)
  exact hnonces.subperm

theorem Inv.authorize (h : Inv es s) {state : String} {data : PendingState} (now : ℚ)
    (hfresh : data.nonce ∉ s.drawn) (hne : data.nonce ≠ "") :
    Inv (es ++ [.authorize state data])
      { s with
        pending := cleanupPendingStates (s.pending ++ [(state, data)]) now
        drawn := state :: data.nonce :: s.drawn } := by
  have hsub : (cleanupPendingStates (s.pending ++ [(state, data)]) now).Sublist
      (s.pending ++ [(state, data)]) := List.filter_sublist
  have hnonces : (System.nonces
      { s with
        pending := cleanupPendingStates (s.pending ++ [(state, data)]) now
        drawn := state :: data.nonce :: s.drawn } (es ++ [.authorize state data])).Subperm
      (data.nonce :: s.nonces es) := by
    rw [nonces_quiet rfl]
    refine ((hsub.map _).append_right _).subperm.trans ?_
    rw [List.map_append, List.map_singleton, List.append_assoc]
    exact List.perm_middle.subperm
  refine ⟨?_, ?_, ?_, fun call hcall => (h.calls call hcall).append⟩
  · obtain ⟨l, hperm, hsub⟩ := hnonces
    refine hperm.nodup (List.Nodup.sublist hsub (List.nodup_cons.2 ⟨?_, h.nodup⟩))
    exact fun hmem => hfresh (h.drawn hmem)
  · refine List.Subset.trans hnonces.subset ?_
    exact List.Subset.trans (List.cons_subset_cons _ h.drawn) (List.subset_cons_self _ _)
  · intro entry hentry
    rcases List.mem_append.1 (hsub.subset hentry) with hold | hnew
    · obtain ⟨hauthorize, hne⟩ := h.authorized entry hold
      exact ⟨List.mem_append_left _ hauthorize, hne⟩
    · rw [List.mem_singleton.1 hnew]
      exact ⟨List.mem_append_right _ (List.mem_singleton.2 rfl), hne⟩

/-- A callback that gets its state: the state leaves the pending ones. -/
theorem Inv.consume (h : Inv es s) {call : ℕ} {state : String} {data : PendingState} {now : ℚ}
    (world : World) (hmem : (state, data) ∈ s.pending) (hnow : now - data.createdAt ≤ 600) :
    Inv (es ++ [.callback call state now (some data)])
      { s with
        world := world
        pending := s.pending.filter fun entry => entry.1 ≠ state
        calls := ⟨call, data, false⟩ :: s.calls } := by
  have hgone : [(state, data)].Sublist
      (s.pending.filter fun entry => ! decide (entry.1 ≠ state)) :=
    List.singleton_sublist.2 (List.mem_filter.2 ⟨hmem, by simp⟩)
  have hperm := List.filter_append_perm (fun entry => decide (entry.1 ≠ state)) s.pending
  refine h.next ?_ rfl List.filter_sublist.subset ?_
  · rw [nonces_quiet rfl]
    have hmoved := (((hgone.append_left _).map fun entry => entry.2.nonce).append_right
      (s.calls.map (fun call => call.data.nonce) ++ logins es)).subperm.trans
        ((hperm.map _).append_right _).subperm
    rwa [List.map_append, List.append_assoc] at hmoved
  · intro c hc
    rcases List.mem_cons.1 hc with rfl | hc
    · obtain ⟨hauthorize, hne⟩ := h.authorized _ hmem
      exact Or.inr ⟨hne, .last ⟨state, now, rfl, hauthorize, hnow⟩, fun h => nomatch h⟩
    · exact Or.inl hc

/-- A callback that gets its tokens. -/
theorem Inv.exchange (h : Inv es s) {call : ℕ} {data : PendingState} (world : World)
    (hmem : ⟨call, data, false⟩ ∈ s.calls) :
    Inv (es ++ [.exchange call data.redirectUri true])
      { s with
        world := world
        calls := ⟨call, data, true⟩ :: s.calls.erase ⟨call, data, false⟩ } := by
  refine h.next ?_ rfl (List.Subset.refl _) ?_
  · rw [nonces_quiet rfl]
    have hperm := (List.perm_cons_erase hmem).symm.map fun call => call.data.nonce
    exact ((hperm.append_right _).append_left _).subperm
  · intro c hc
    rcases List.mem_cons.1 hc with rfl | hc
    · obtain ⟨hne, hconsumed, -⟩ := h.calls _ hmem
      exact Or.inr ⟨hne, Once.append hconsumed, fun _ => .last ⟨rfl, hconsumed⟩⟩
    · exact Or.inl (List.mem_of_mem_erase hc)

/-- A callback whose ID token is accepted: its nonce becomes that of a login. -/
theorem Inv.login (h : Inv es s) {call : Call} (world : World) (hmem : call ∈ s.calls)
    (hlogin : e.login = some call.data.nonce) :
    Inv (es ++ [e]) { s with world := world, calls := s.calls.erase call } := by
  refine h.next ?_ rfl (List.Subset.refl _) fun c hc => Or.inl (List.mem_of_mem_erase hc)
  have hperm := (List.perm_cons_erase hmem).symm.map fun call => call.data.nonce
  rw [System.nonces, logins_append, hlogin, Option.toList_some, System.nonces]
  refine (List.Perm.append_left _ ?_).subperm
  rw [← List.append_assoc]
  exact (List.perm_append_singleton _ _).trans (hperm.append_right _)

end

/-! ## The tokens of the portal -/

section

variable {env : Env} {w w' : World}

/-- A login with the access code issues a token of the code tier. -/
theorem tier_authenticate {code : String} {host : Option String} {now : ℚ} {freshId : String}
    {writes : Bool} {p : State} {token : Claims}
    (h : (authenticateWithCode env code host now freshId writes p).claims = some token) :
    token.tier = "code" := by
  rw [authenticateWithCode] at h
  dsimp only at h
  split_ifs at h <;> cases h
  rfl

theorem claims_ssoLogin {claims : IdClaims} {host : Option String} {now : ℚ} {freshId : String}
    {writes : Bool} {p : State} {token : Claims}
    (h : (ssoLogin env claims host now freshId writes p).claims = some token) :
    token.sub = freshId ∧ token.oidcSub = claims.sub := by
  rw [ssoLogin] at h
  split_ifs at h with hsub <;> cases h
  exact ⟨rfl, if_pos hsub⟩

theorem issuedClaims_afterLogin (w : World) (login : Login) :
    issuedClaims (w.afterLogin login).log = login.claims.toList ++ issuedClaims w.log := by
  rcases login with ⟨_ | claims, answer⟩ <;> rfl

/-- Only a validated ID token gives a token of the sso tier. -/
theorem issued_step {e : Portal.Event} (h : Portal.Step env w e w') {token : Claims}
    (htoken : token ∈ issuedClaims w'.log) (htier : token.tier = "sso") :
    token ∈ issuedClaims w.log ∨ ∃ call claims host writes,
      e = .validated call (some claims) host token.sub writes ∧ token.oidcSub = claims.sub := by
  cases e with
  | tick =>
    rw [Portal.Step, step] at h
    split_ifs at h
    cases h
    exact Or.inl htoken
  | update =>
    cases h
    dsimp only at htoken
    split_ifs at htoken <;> exact Or.inl htoken
  | updateDataset => cases h; exact Or.inl htoken
  | authenticate code host freshId writes =>
    cases h
    rw [issuedClaims_afterLogin, List.mem_append, Option.mem_toList] at htoken
    rcases htoken with hnew | hold
    · have hcode := tier_authenticate hnew
      rw [htier] at hcode
      exact absurd hcode (by decide)
    · exact Or.inl hold
  | ssoCallback =>
    rw [Portal.Step, step] at h
    split_ifs at h <;> cases h <;> exact Or.inl htoken
  | exchanged =>
    rw [Portal.Step, step] at h
    split_ifs at h <;> cases h <;> exact Or.inl htoken
  | validated call claims host freshId writes =>
    rcases claims with _ | claims <;> rw [Portal.Step, step] at h <;> split_ifs at h <;> cases h
    · exact Or.inl htoken
    · rw [issuedClaims_afterLogin, List.mem_append, Option.mem_toList] at htoken
      rcases htoken with hnew | hold
      · obtain ⟨rfl, hsub⟩ := claims_ssoLogin hnew
        exact Or.inr ⟨call, claims, host, writes, rfl, hsub⟩
      · exact Or.inl hold
  | logout =>
    rw [Portal.Step, step] at h
    split at h <;> cases h <;> exact Or.inl htoken
  | revoke =>
    rw [Portal.Step, step] at h
    split_ifs at h <;> cases h <;> exact Or.inl htoken
  | revokeAll => cases h; exact Or.inl htoken

end

/-! ## Runs -/

section

variable {env : Env} {es : List Event} {s s' : System} {e : Event}

/-- A step of the system is one of the portal, or none. -/
theorem Step.portal (h : Step env s e s') : Run (Portal.Step env) s.world e.portal s'.world := by
  cases h with
  | authorize => exact .nil
  | callback _ _ hs => exact .cons hs .nil
  | inactive _ hs => exact .cons hs .nil
  | exchange _ hs => exact .cons hs .nil
  | validate _ hs => exact .cons hs .nil
  | clearSessions hs => exact .cons hs .nil
  | other _ hs => exact .cons hs .nil

theorem Inv.step (hinv : Inv es s) (h : Step env s e s') : Inv (es ++ [e]) s' := by
  cases h with
  | authorize _ hnonce hne _ => exact hinv.authorize _ hnonce hne
  | @callback call state world =>
    rcases validateState_cases s.pending state s.world.clock
      with ⟨hnone, hsub⟩ | ⟨data, hdata, hmem, hnow⟩
    · rw [hnone]
      exact hinv.drop rfl hsub (List.Sublist.refl _) rfl
    · rw [hdata]
      exact hinv.consume world hmem hnow
  | inactive | other => exact hinv.drop rfl (List.Sublist.refl _) (List.Sublist.refl _) rfl
  | @exchange call data idToken world hmem =>
    cases idToken with
    | false => exact hinv.drop rfl (List.Sublist.refl _) List.erase_sublist rfl
    | true => exact hinv.exchange world hmem
  | @validate call data decoded host freshId writes world hmem =>
    rcases hvalid : validateIdToken decoded data.nonce with _ | claims
    · exact hinv.drop rfl (List.Sublist.refl _) List.erase_sublist rfl
    · exact hinv.login world hmem rfl
  | clearSessions => exact hinv.drop rfl (List.nil_sublist _) (List.Sublist.refl _) rfl

/-- What a step of the system lets the portal issue. -/
theorem signedOn_step (hinv : Inv es s) (h : Step env s e s') {token : Claims}
    (htoken : token ∈ issuedClaims s'.world.log) (htier : token.tier = "sso") :
    token ∈ issuedClaims s.world.log ∨ SignedOn (es ++ [e]) token := by
  cases h with
  | authorize => exact Or.inl htoken
  | callback _ _ hs =>
    refine (issued_step hs htoken htier).imp_right ?_
    rintro ⟨call, claims, host, writes, heq, -⟩
    cases heq
  | inactive _ hs =>
    refine (issued_step hs htoken htier).imp_right ?_
    rintro ⟨call, claims, host, writes, heq, -⟩
    cases heq
  | exchange _ hs =>
    refine (issued_step hs htoken htier).imp_right ?_
    rintro ⟨call, claims, host, writes, heq, -⟩
    cases heq
  | @validate call data decoded host freshId writes world hmem hs =>
    refine (issued_step hs htoken htier).imp_right ?_
    rintro ⟨call', idClaims, host', writes', heq, hsub⟩
    obtain ⟨rfl, hclaims, rfl, rfl, rfl⟩ := Portal.Event.validated.inj heq
    obtain ⟨claims, hvalid, rfl⟩ := Option.map_eq_some_iff.1 hclaims
    obtain ⟨hne, -, hexchanged⟩ := hinv.calls _ hmem
    exact .last ⟨call, data, claims, host, writes, by rw [hvalid], hexchanged rfl,
      nonce_of_validate hne hvalid, hsub⟩
  | clearSessions hs =>
    refine (issued_step hs htoken htier).imp_right ?_
    rintro ⟨call, claims, host, writes, heq, -⟩
    cases heq
  | other he hs =>
    refine (issued_step hs htoken htier).imp_right ?_
    rintro ⟨call, claims, host, writes, rfl, -⟩
    cases he

theorem inv_run (h : Run (Step env) s es s') (hs : Start s) : Inv es s' := by
  have hstart : Inv [] s := hs.inv
  exact h.history hstart fun _ hinv hstep => hinv.step hstep

/-- **Every token of the sso tier comes from one authorization of the portal.**  Its callback has
    consumed the state in time, exchanged the code with the redirect address of the state, and
    shown an ID token with the nonce of the state; no two logins share a nonce; and the requests
    are a run of the portal. -/
theorem sso_login (h : Run (Step env) s es s') (hs : Start s) :
    (∀ token ∈ issuedClaims s'.world.log, token.tier = "sso" → SignedOn es token) ∧
      (logins es).Nodup ∧
      Run (Portal.Step env) s.world (es.flatMap Event.portal) s'.world := by
  have hnodup := (inv_run h hs).nodup
  refine ⟨?_, hnodup.of_append_right.of_append_right,
    h.project System.world Event.portal Step.portal⟩
  let Issued (es : List Event) (t : System) : Prop :=
    ∀ token ∈ issuedClaims t.world.log, token.tier = "sso" → SignedOn es token
  have hstart : Issued [] s := by
    intro token htoken
    rw [hs.log] at htoken
    cases htoken
  refine h.history hstart ?_
  intro es t e t' hrun hissued hstep token htoken htier
  rcases signedOn_step (inv_run hrun hs) hstep htoken htier with hold | hnew
  · exact Once.append (hissued token hold htier)
  · exact hnew

end

/-- The state of the sign-on below. -/
def signOnState : PendingState where
  nonce := "n"
  createdAt := 0
  redirectUri := "/api/portal/auth/sso/callback"

/-- A portal of the sso tier before the sign-on. -/
def signOnSystem : System where
  world := ssoWorld
  pending := []
  calls := []
  drawn := []

def signOnEvents : List Event :=
  [.authorize "s" signOnState, .callback 0 "s" 0 (some signOnState),
    .exchange 0 "/api/portal/auth/sso/callback" true,
    .validate 0 "n" (some ⟨⟨some "u", none, none⟩, some "n"⟩) (some "ip") "s1" true]

/-- The portal waits for the callback of the sign-on. -/
def authorizedSystem : System :=
  { signOnSystem with pending := [("s", signOnState)], drawn := ["s", "n"] }

/-- The callback waits for the tokens. -/
def consumedSystem : System where
  world := ssoWorld.setCallback 0 .exchanging
  pending := []
  calls := [⟨0, signOnState, false⟩]
  drawn := ["s", "n"]

def exchangedSystem : System :=
  { consumedSystem with
    world := consumedSystem.world.setCallback 0 .validating
    calls := [⟨0, signOnState, true⟩] }

theorem cleanup_signOn :
    cleanupPendingStates (signOnSystem.pending ++ [("s", signOnState)])
      signOnSystem.world.clock = [("s", signOnState)] := by
  have hclock : signOnSystem.world.clock = 0 := rfl
  rw [hclock]
  simp [cleanupPendingStates, signOnSystem, signOnState]

theorem validate_signOn :
    validateState authorizedSystem.pending "s" authorizedSystem.world.clock =
      (some signOnState, []) := by
  have hclock : authorizedSystem.world.clock = 0 := rfl
  rw [hclock]
  simp [validateState, authorizedSystem, signOnState]

theorem run_signOn : Run (Step (plainEnv ssoClaims)) signOnSystem signOnEvents
    ⟨signedOnWorld, [], [], ["s", "n"]⟩ := by
  have hauthorize : Step (plainEnv ssoClaims) signOnSystem (.authorize "s" signOnState)
      authorizedSystem := by
    have hstep := @Step.authorize (plainEnv ssoClaims) signOnSystem "s" signOnState (by decide)
      (by decide) (by decide) rfl
    rw [cleanup_signOn] at hstep
    exact hstep
  have hcallback : Step (plainEnv ssoClaims) authorizedSystem
      (.callback 0 "s" 0 (some signOnState)) consumedSystem := by
    have hstep := @Step.callback (plainEnv ssoClaims) authorizedSystem 0 "s"
      consumedSystem.world rfl rfl (by rw [validate_signOn]; rfl)
    rw [validate_signOn] at hstep
    exact hstep
  have hexchange : Step (plainEnv ssoClaims) consumedSystem
      (.exchange 0 "/api/portal/auth/sso/callback" true) exchangedSystem :=
    @Step.exchange _ consumedSystem 0 signOnState true _ (List.mem_singleton.2 rfl) rfl
  refine .cons hauthorize (.cons hcallback (.cons hexchange (.cons ?_ .nil)))
  exact @Step.validate _ exchangedSystem 0 signOnState
    (some ⟨⟨some "u", none, none⟩, some "n"⟩) (some "ip") "s1" true _
    (List.mem_singleton.2 rfl) rfl

theorem sso_login_once :
    (∀ token ∈ issuedClaims signedOnWorld.log, token.tier = "sso" →
      SignedOn signOnEvents token) ∧
      (logins signOnEvents).Nodup ∧
      Run (Portal.Step (plainEnv ssoClaims)) ssoWorld (signOnEvents.flatMap Event.portal)
        signedOnWorld :=
  sso_login run_signOn ⟨rfl, rfl, rfl⟩

end Sso

end Portal

end AimData
