/-
  The external endpoints: how a request passes the blocks of addresses, the tokens, the scopes and
  the limits.

  A request is handled without an await up to its tool.  The failures of an address are limited,
  and after the failure that reaches the limit the address is refused for the time of a block,
  whatever it sends; what is let in has a token that was accepted, with the scope of its endpoint
  (`ext_gateway`).
-/
import AimData.Connectivity.RateLimiter
import AimData.Connectivity.Tokens
import AimData.Lib.PyText

namespace AimData

namespace Connectivity

namespace Gateway

open SlidingWindow (prune Tracks Limited)

/-! ## Requests -/

inductive Endpoint where
  | listDatasets
  | getSchema
  | sql

/-- The scope that the orchestrator requires. -/
def Endpoint.scope : Endpoint → String
  | .listDatasets => "ext:datasets"
  | .getSchema => "ext:schema"
  | .sql => "ext:sql"

structure Request where
  forwarded : Option (List Char)
  host : Option (List Char)
  authorization : Option (List Char)

/-- `_get_client_ip` -/
def getClientIp (r : Request) : String :=
  match r.forwarded with
  | some (c :: forwarded) =>
    String.ofList (PyText.strip ((c :: forwarded).takeWhile (· ≠ ',')))
  | _ => String.ofList (r.host.getD "127.0.0.1".toList)

/-- `_extract_token` -/
def extractToken (authorization : Option (List Char)) : Except TokenError (List Char) :=
  match authorization with
  | none | some [] => .error ⟨"auth_invalid", "Authorization header is missing"⟩
  | some header =>
    match header.span (· ≠ ' ') with
    | (scheme, _ :: token) =>
      if scheme.map Char.toLower = "bearer".toList then .ok (PyText.strip token)
      else .error ⟨"auth_invalid", "Authorization header must be 'Bearer <token>'"⟩
    | (_, []) => .error ⟨"auth_invalid", "Authorization header must be 'Bearer <token>'"⟩

/-! ## The system -/

/-- The limiter with its requests, the token service, and the switch. -/
structure State where
  limits : System
  tokens : TokenSystem
  enabled : Bool

def State.start (clock tokenClock : ℚ) : State := ⟨.start clock, .start tokenClock, false⟩

namespace State

/-- The answer to `check_ip_blocked`, and the state after it. -/
def blockOf (s : State) (ip : String) (now : ℚ) : Option String :=
  (s.limits.limiter.checkIpBlocked ip now).1

def checkIp (s : State) (ip : String) (now : ℚ) : State :=
  { s with limits :=
    { s.limits with limiter := (s.limits.limiter.checkIpBlocked ip now).2, clock := now } }

/-- `_record_auth_failure_if_needed` -/
def fail (s : State) (config : Config) (ip : String) (now : ℚ) : State :=
  { s with limits :=
    { s.limits with
      limiter := (s.limits.limiter.recordAuthFailure config ip now).2, clock := now } }

def withTokens (s : State) (tokens : TokenSystem) : State := { s with tokens := tokens }

def withLimits (s : State) (limits : System) : State := { s with limits := limits }

end State

inductive Event where
  | blocked (ip : String) (now : ℚ)
  | failed (ip : String) (now time : ℚ) (verify : Option TokenEvent)
  | refused (ip : String) (now : ℚ) (verify : TokenEvent)
  | admitted (ip : String) (now : ℚ) (endpoint : Endpoint) (raw : List Char) (wall : ℚ)
    (token : ConnectivityToken)
  | endSql (tokenId : String)
  | token (e : TokenEvent)
  | switch (enabled : Bool)

/-- The call of the limiter that lets a request in. -/
def Endpoint.call (endpoint : Endpoint) (token : ConnectivityToken) (ip : String) :
    Connectivity.Event :=
  match endpoint with
  | .listDatasets => .request (String.ofList token.id) "list_datasets" ip
  | .getSchema => .request (String.ofList token.id) "get_schema" ip
  | .sql => .startSql (String.ofList token.id) ip

/-- A call of the limiter that refuses a request. -/
def Endpoint.Refuses (endpoint : Endpoint) (token : ConnectivityToken) (ip : String)
    (e : Connectivity.Event) : Prop :=
  match endpoint with
  | .listDatasets => ∃ code, e = .refuse (String.ofList token.id) "list_datasets" ip code
  | .getSchema => ∃ code, e = .refuse (String.ofList token.id) "get_schema" ip code
  | .sql => (∃ code, e = .refuse (String.ofList token.id) "execute_sql" ip code) ∨
      e = .busySql (String.ofList token.id) ip

/-- A request, or a change of the tokens or of the switch. -/
inductive Step (config : Config) (pepper : Bytes) : State → Event → State → Prop
  | blocked {s : State} {r : Request} {now : ℚ} {code : String} : s.limits.clock ≤ now →
    s.blockOf (getClientIp r) now = some code →
    Step config pepper s (.blocked (getClientIp r) now) (s.checkIp (getClientIp r) now)
  /-- The header names no token. -/
  | unnamed {s : State} {r : Request} {now time : ℚ} {e : TokenError} : s.limits.clock ≤ now →
    s.blockOf (getClientIp r) now = none → extractToken r.authorization = .error e → now ≤ time →
    Step config pepper s (.failed (getClientIp r) now time none)
      ((s.checkIp (getClientIp r) now).fail config (getClientIp r) time)
  | invalid {s : State} {r : Request} {now time wall : ℚ} {raw : List Char} {e : TokenError}
    {tokens : TokenSystem} : s.limits.clock ≤ now → s.blockOf (getClientIp r) now = none →
    extractToken r.authorization = .ok raw →
    TokenStep pepper s.tokens (.verify raw wall (.error e)) tokens → e.code = "auth_invalid" →
    now ≤ time →
    Step config pepper s (.failed (getClientIp r) now time (some (.verify raw wall (.error e))))
      (((s.checkIp (getClientIp r) now).fail config (getClientIp r) time).withTokens tokens)
  /-- The token was revoked or has expired, which is no failure of its address. -/
  | ended {s : State} {r : Request} {now wall : ℚ} {raw : List Char} {e : TokenError}
    {tokens : TokenSystem} : s.limits.clock ≤ now → s.blockOf (getClientIp r) now = none →
    extractToken r.authorization = .ok raw →
    TokenStep pepper s.tokens (.verify raw wall (.error e)) tokens → e.code ≠ "auth_invalid" →
    Step config pepper s (.refused (getClientIp r) now (.verify raw wall (.error e)))
      ((s.checkIp (getClientIp r) now).withTokens tokens)
  /-- The connectivity is off, or the token has not the scope. -/
  | unscoped {s : State} {r : Request} {now wall : ℚ} {raw : List Char} {endpoint : Endpoint}
    {token : ConnectivityToken} {tokens : TokenSystem} : s.limits.clock ≤ now →
    s.blockOf (getClientIp r) now = none → extractToken r.authorization = .ok raw →
    TokenStep pepper s.tokens (.verify raw wall (.ok token)) tokens →
    ¬ (s.enabled = true ∧ endpoint.scope ∈ token.scopes) →
    Step config pepper s (.refused (getClientIp r) now (.verify raw wall (.ok token)))
      ((s.checkIp (getClientIp r) now).withTokens tokens)
  | limited {s : State} {r : Request} {now wall : ℚ} {raw : List Char} {endpoint : Endpoint}
    {token : ConnectivityToken} {tokens : TokenSystem} {limits : System}
    {e : Connectivity.Event} : s.limits.clock ≤ now → s.blockOf (getClientIp r) now = none →
    extractToken r.authorization = .ok raw →
    TokenStep pepper s.tokens (.verify raw wall (.ok token)) tokens → s.enabled = true →
    endpoint.scope ∈ token.scopes → endpoint.Refuses token (getClientIp r) e →
    Connectivity.Step config (s.checkIp (getClientIp r) now).limits e limits →
    Step config pepper s (.refused (getClientIp r) now (.verify raw wall (.ok token)))
      ((s.withTokens tokens).withLimits limits)
  /-- The request goes on to its tool. -/
  | admitted {s : State} {r : Request} {now wall : ℚ} {raw : List Char} {endpoint : Endpoint}
    {token : ConnectivityToken} {tokens : TokenSystem} {limits : System} : s.limits.clock ≤ now →
    s.blockOf (getClientIp r) now = none → extractToken r.authorization = .ok raw →
    TokenStep pepper s.tokens (.verify raw wall (.ok token)) tokens → s.enabled = true →
    endpoint.scope ∈ token.scopes →
    Connectivity.Step config (s.checkIp (getClientIp r) now).limits
      (endpoint.call token (getClientIp r)) limits →
    Step config pepper s (.admitted (getClientIp r) now endpoint raw wall token)
      ((s.withTokens tokens).withLimits limits)
  | endSql {s : State} {tokenId : String} {limits : System} :
    Connectivity.Step config s.limits (.endSql tokenId) limits →
    Step config pepper s (.endSql tokenId) (s.withLimits limits)
  | token {s : State} {e : TokenEvent} {tokens : TokenSystem} :
    TokenStep pepper s.tokens e tokens → Step config pepper s (.token e) (s.withTokens tokens)
  | switch {s : State} {enabled : Bool} :
    Step config pepper s (.switch enabled) { s with enabled := enabled }

/-! ## What the events say -/

namespace Event

def tokens : Event → List TokenEvent
  | failed _ _ _ verify => verify.toList
  | refused _ _ verify => [verify]
  | admitted _ _ _ raw wall t => [.verify raw wall (.ok t)]
  | token e => [e]
  | _ => []

/-- The time of a failure of the address. -/
def failure (ip : String) : Event → Option ℚ
  | failed address _ time _ => if address = ip then some time else none
  | _ => none

/-- A request of the address is looked at, after the check for a block at the time. -/
def Looks (ip : String) (now : ℚ) : Event → Prop
  | failed address t _ _ | refused address t _ | admitted address t _ _ _ _ =>
    address = ip ∧ t = now
  | _ => False

end Event

def tokenEvents (es : List Event) : List TokenEvent := es.flatMap Event.tokens

/-- The times of the failures of an address, the latest first. -/
def failures (ip : String) (es : List Event) : List ℚ := (es.filterMap (Event.failure ip)).reverse

/-- The last failure of an address, at the time, has reached the limit. -/
def Reached (config : Config) (times : List ℚ) (time : ℚ) : Prop :=
  times.head? = some time ∧ config.perIpAuthFailLimit ≤ times.countP (time - 60 < ·)

/-! ## Addresses -/

/-- The limiter knows the failures of the addresses, and blocks those that have reached the limit
    for the time of a block. -/
structure Addresses (config : Config) (l : Limiter) (now : ℚ) (fails : String → List ℚ) :
    Prop where
  tracks : ∀ ip, Tracks 60 now (l.ipFailWindows ip) (fails ip)
  limited : ∀ ip, Limited 60 (max 1 config.perIpAuthFailLimit) (fails ip)
  sorted : ∀ ip t, (fails ip).head? = some t → 0 ≤ t ∧ ∀ t' ∈ fails ip, t' ≤ t
  blocks : ∀ ip t, Reached config (fails ip) t →
    l.ipBlocks ip = some (t + config.ipBlockDurationS) ∨ t + config.ipBlockDurationS ≤ now

section
variable {config : Config} {l l' : Limiter} {now now' time : ℚ} {fails : String → List ℚ}
  {ip : String}

theorem Addresses.mono (h : Addresses config l now fails) (hnow : now ≤ now') :
    Addresses config l now' fails where
  tracks := fun ip => (h.tracks ip).mono hnow
  limited := h.limited
  sorted := h.sorted
  blocks := fun ip t ht => (h.blocks ip t ht).imp_right fun hle => hle.trans hnow

/-- A check of an address only forgets a block that is over. -/
theorem checkIpBlocked_cases (ip : String) (l : Limiter) (now : ℚ) (ip' : String) :
    (l.checkIpBlocked ip now).2.ipBlocks ip' = l.ipBlocks ip' ∨
      ∃ blockUntil, l.ipBlocks ip' = some blockUntil ∧ blockUntil ≤ now := by
  rw [Limiter.checkIpBlocked]
  cases hblock : l.ipBlocks ip with
  | none => exact Or.inl rfl
  | some blockUntil =>
    dsimp only
    split_ifs with hzero hlt
    · exact Or.inl rfl
    · exact Or.inl rfl
    · by_cases heq : ip' = ip
      · exact Or.inr ⟨blockUntil, heq ▸ hblock, not_lt.1 hlt⟩
      · exact Or.inl (Function.update_of_ne heq ..)

theorem checkIpBlocked_fails : (l.checkIpBlocked ip now).2.ipFailWindows = l.ipFailWindows := by
  rw [Limiter.checkIpBlocked]
  cases l.ipBlocks ip with
  | none => rfl
  | some blockUntil =>
    dsimp only
    split_ifs <;> rfl

/-- The limiter has changed as a check of an address changes it. -/
structure ChecksIp (l : Limiter) (now : ℚ) (l' : Limiter) : Prop where
  fails : l'.ipFailWindows = l.ipFailWindows
  blocks : ∀ ip, l'.ipBlocks ip = l.ipBlocks ip ∨
    ∃ blockUntil, l.ipBlocks ip = some blockUntil ∧ blockUntil ≤ now

theorem checksIp : ChecksIp l now (l.checkIpBlocked ip now).2 :=
  ⟨checkIpBlocked_fails, checkIpBlocked_cases ip l now⟩

theorem Addresses.check (h : Addresses config l now fails) (hl : ChecksIp l now l') :
    Addresses config l' now fails where
  tracks := hl.fails ▸ h.tracks
  limited := h.limited
  sorted := h.sorted
  blocks := by
    intro ip t ht
    rcases h.blocks ip t ht with hblock | hover
    · rcases hl.blocks ip with hsame | ⟨blockUntil, hblock', hle⟩
      · exact Or.inl (hsame.trans hblock)
      · rw [hblock] at hblock'
        exact Or.inr (Option.some.inj hblock' ▸ hle)
    · exact Or.inr hover

/-- An address that is not blocked has waited. -/
theorem Addresses.waited (h : Addresses config l now fails)
    (hduration : 0 < config.ipBlockDurationS) (hfree : (l.checkIpBlocked ip now).1 = none)
    {t : ℚ} (ht : Reached config (fails ip) t) :
    t + config.ipBlockDurationS ≤ now := by
  rcases h.blocks ip t ht with hblock | hover
  · have hpos : 0 < t + config.ipBlockDurationS :=
      add_pos_of_nonneg_of_pos (h.sorted ip t ht.1).1 hduration
    rw [Limiter.checkIpBlocked, hblock] at hfree
    dsimp only at hfree
    rw [if_neg hpos.ne'] at hfree
    split_ifs at hfree with hlt
    exact not_lt.1 hlt
  · exact hover

/-- Before a failure fewer were counted than the limit. -/
theorem Addresses.room (h : Addresses config l now fails) (hduration : 60 ≤ config.ipBlockDurationS)
    (hwaited : ∀ t, Reached config (fails ip) t → t + config.ipBlockDurationS ≤ now)
    (hnow : now ≤ time) :
    (fails ip).countP (time - 60 < ·) < max 1 config.perIpAuthFailLimit := by
  cases hfails : fails ip with
  | nil => simp
  | cons t rest =>
    have hhead : (fails ip).head? = some t := by rw [hfails]; rfl
    obtain ⟨-, hsorted⟩ := h.sorted ip t hhead
    rw [← hfails]
    by_cases hreached : config.perIpAuthFailLimit ≤ (fails ip).countP (t - 60 < ·)
    · have hover := hwaited t ⟨hhead, hreached⟩
      have hzero : (fails ip).countP (time - 60 < ·) = 0 := by
        refine List.countP_eq_zero.2 fun t' ht' => ?_
        have hle := hsorted t' ht'
        simp only [decide_eq_true_eq, not_lt]
        linarith
      omega
    · have hpast : t ≤ now := (h.tracks ip).past t (by rw [hfails]; exact List.mem_cons_self)
      have hle : (fails ip).countP (time - 60 < ·) ≤ (fails ip).countP (t - 60 < ·) := by
        refine List.countP_mono_left fun t' _ ht' => ?_
        simp only [decide_eq_true_eq] at ht' ⊢
        linarith
      omega

theorem countP_self (times : List ℚ) :
    (time :: times).countP (time - 60 < ·) = times.countP (time - 60 < ·) + 1 :=
  List.countP_cons_of_pos (by simp)

theorem reached_cons {times : List ℚ} {t : ℚ} (h : Reached config (time :: times) t) :
    t = time ∧ config.perIpAuthFailLimit ≤ times.countP (time - 60 < ·) + 1 := by
  obtain ⟨hhead, hcount⟩ := h
  obtain rfl := Option.some.inj hhead
  rw [countP_self] at hcount
  exact ⟨rfl, hcount⟩

/-- A failure is recorded, and blocks its address if it reaches the limit. -/
theorem Addresses.fail (h : Addresses config l now fails) (hduration : 60 ≤ config.ipBlockDurationS)
    (hwaited : ∀ t, Reached config (fails ip) t → t + config.ipBlockDurationS ≤ now)
    (hnow : now ≤ time) (hpos : 0 ≤ time) :
    Addresses config (l.recordAuthFailure config ip time).2 time
      (Function.update fails ip (time :: fails ip)) := by
  have hroom := h.room hduration hwaited hnow
  have hlater := h.mono hnow
  have hlength : (prune 60 time (l.ipFailWindows ip) ++ [time]).length =
      (fails ip).countP (time - 60 < ·) + 1 := by
    rw [List.length_append, SlidingWindow.length_prune (hlater.tracks ip), List.length_singleton]
  have hfails : (l.recordAuthFailure config ip time).2.ipFailWindows =
      Function.update l.ipFailWindows ip (prune 60 time (l.ipFailWindows ip) ++ [time]) := by
    rw [Limiter.recordAuthFailure]
    dsimp only
    split_ifs <;> rfl
  have hblocks : ∀ ip', (l.recordAuthFailure config ip time).2.ipBlocks ip' =
      if ip' = ip ∧ config.perIpAuthFailLimit ≤ (fails ip).countP (time - 60 < ·) + 1 then
        some (time + config.ipBlockDurationS) else l.ipBlocks ip' := by
    intro ip'
    rw [Limiter.recordAuthFailure, ← hlength]
    dsimp only
    by_cases hip : ip' = ip
    · subst hip
      split_ifs with hreached hboth hboth
      · exact Function.update_self ..
      · exact absurd ⟨rfl, hreached⟩ hboth
      · exact absurd hboth.2 hreached
      · rfl
    · split_ifs with hreached hboth hboth
      · exact absurd hboth.1 hip
      · exact Function.update_of_ne hip ..
      · exact absurd hboth.1 hip
      · rfl
  refine ⟨fun ip' => ?_, fun ip' => ?_, fun ip' t ht => ?_, fun ip' t ht => ?_⟩
  · rw [hfails]
    by_cases hip : ip' = ip
    · subst hip
      rw [Function.update_self, Function.update_self]
      exact (hlater.tracks ip').prune.record
    · rw [Function.update_of_ne hip, Function.update_of_ne hip]
      exact hlater.tracks ip'
  · by_cases hip : ip' = ip
    · subst hip
      rw [Function.update_self]
      refine (h.limited ip').record (hlater.tracks ip') ?_ le_rfl
      rwa [SlidingWindow.length_prune (hlater.tracks ip')]
    · rw [Function.update_of_ne hip]
      exact h.limited ip'
  · by_cases hip : ip' = ip
    · subst hip
      rw [Function.update_self] at ht ⊢
      obtain rfl := Option.some.inj ht
      refine ⟨hpos, fun t' ht' => ?_⟩
      rcases List.mem_cons.1 ht' with rfl | ht'
      · exact le_rfl
      · exact (hlater.tracks ip').past t' ht'
    · rw [Function.update_of_ne hip] at ht ⊢
      exact h.sorted ip' t ht
  · by_cases hip : ip' = ip
    · subst hip
      rw [Function.update_self] at ht
      obtain ⟨rfl, hcount⟩ := reached_cons ht
      exact Or.inl ((hblocks ip').trans (if_pos ⟨rfl, hcount⟩))
    · rw [Function.update_of_ne hip] at ht
      rw [hblocks, if_neg fun hboth => hip hboth.1]
      exact hlater.blocks ip' t ht

/-- What the other calls of the limiter do to the addresses. -/
theorem checkRateLimits_addresses {tokenId toolName : String} {ipNow : ℚ} :
    (l.checkRateLimits config tokenId toolName ip now ipNow).2.ipFailWindows = l.ipFailWindows ∧
      (l.checkRateLimits config tokenId toolName ip now ipNow).2.ipBlocks =
        (l.checkIpBlocked ip ipNow).2.ipBlocks := by
  rw [Limiter.checkRateLimits]
  have hfails := @checkIpBlocked_fails l ipNow ip
  cases hcheck : l.checkIpBlocked ip ipNow with
  | mk code l₁ =>
    rw [hcheck] at hfails
    cases code with
    | some code => exact ⟨hfails, rfl⟩
    | none =>
      dsimp only [Limiter.checkSql, Limiter.checkConcurrency]
      split_ifs <;> exact ⟨hfails, rfl⟩

theorem checksIp_rateLimits {tokenId toolName : String} {ipNow : ℚ} {code : Option String}
    (h : l.checkRateLimits config tokenId toolName ip now ipNow = (code, l')) :
    ChecksIp l ipNow l' := by
  obtain ⟨hfails, hblocks⟩ := @checkRateLimits_addresses config l now ip tokenId toolName ipNow
  rw [h] at hfails hblocks
  exact ⟨hfails, fun ip' => hblocks ▸ checkIpBlocked_cases ip l ipNow ip'⟩

/-- A call of the limiter but for a failure leaves the addresses, or forgets a block that is
    over. -/
theorem Addresses.call {s s' : System} {e : Connectivity.Event}
    (h : Addresses config s.limiter s.clock fails) (hstep : Connectivity.Step config s e s')
    (he : ∀ ip, e ≠ .authFailure ip) : Addresses config s'.limiter s'.clock fails := by
  cases hstep with
  | refuse hnow hip hcheck => exact (h.mono (hnow.trans hip)).check (checksIp_rateLimits hcheck)
  | request hnow hip htime hcheck =>
    have hchecks := (h.mono (hnow.trans hip)).check (checksIp_rateLimits hcheck)
    obtain ⟨htracks, hlimited, hsorted, hblocks⟩ := hchecks.mono htime
    exact ⟨htracks, hlimited, hsorted, hblocks⟩
  | startSql hnow hip htime hcheck hacquire =>
    have hchecks := (h.mono (hnow.trans hip)).check (checksIp_rateLimits hcheck)
    obtain ⟨htracks, hlimited, hsorted, hblocks⟩ := hchecks.mono htime
    rw [Limiter.acquireConcurrency] at hacquire
    split_ifs at hacquire
    · cases hacquire
    · obtain rfl := (Prod.mk.inj hacquire).2
      exact ⟨htracks, hlimited, hsorted, hblocks⟩
  | busySql hnow hip hcheck hacquire =>
    have hchecks := (h.mono (hnow.trans hip)).check (checksIp_rateLimits hcheck)
    rw [Limiter.acquireConcurrency] at hacquire
    split_ifs at hacquire
    · obtain rfl := (Prod.mk.inj hacquire).2
      exact hchecks
    · cases hacquire
  | endSql => exact ⟨h.tracks, h.limited, h.sorted, h.blocks⟩
  | authFailure => exact absurd rfl (he _)

end

/-! ## Runs -/

structure Inv (config : Config) (pepper : Bytes) (es : List Event) (s : State) : Prop where
  limits : Connectivity.Inv config s.limits
  clock : 0 ≤ s.limits.clock
  addresses : Addresses config s.limits.limiter s.limits.clock fun ip => failures ip es

section
variable {config : Config} {pepper : Bytes} {es : List Event} {e : Event} {s s' : State}
  {ip : String} {now time : ℚ} {raw : List Char} {token : ConnectivityToken}

theorem inv_start {clock tokenClock : ℚ} (hclock : 0 ≤ clock) :
    Inv config pepper [] (.start clock tokenClock) where
  limits := Connectivity.inv_start
  clock := hclock
  addresses :=
    ⟨fun _ => .nil, fun _ => .nil, fun _ _ h => absurd h nofun, fun _ _ h => absurd h.1 nofun⟩

theorem failures_append (he : ∀ ip, e.failure ip = none) :
    (fun ip => failures ip (es ++ [e])) = fun ip => failures ip es := by
  funext ip
  simp [failures, he ip]

theorem failures_failed {verify : Option TokenEvent} :
    (fun ip' => failures ip' (es ++ [.failed ip now time verify])) =
      Function.update (fun ip' => failures ip' es) ip (time :: failures ip es) := by
  funext ip'
  by_cases hip : ip' = ip
  · subst hip
    simp [failures, Event.failure]
  · rw [Function.update_of_ne hip]
    simp [failures, Event.failure, Ne.symm hip]

theorem limits_checkIp (h : Connectivity.Inv config s.limits) (hnow : s.limits.clock ≤ now) :
    Connectivity.Inv config (s.checkIp ip now).limits where
  windows := (h.windows.mono hnow).same same_checkIpBlocked
  limits := h.limits
  slots := fun id => (congrFun same_checkIpBlocked.concurrency id).trans (h.slots id)
  room := h.room

theorem limits_fail (h : Connectivity.Inv config s.limits) (hnow : s.limits.clock ≤ now) :
    Connectivity.Inv config (s.fail config ip now).limits := h.step (.authFailure hnow)

theorem clock_call {t t' : System} {e : Connectivity.Event} (h : Connectivity.Step config t e t') :
    t.clock ≤ t'.clock := by
  cases h with
  | refuse hnow hip | busySql hnow hip => exact hnow.trans hip
  | request hnow hip htime | startSql hnow hip htime => exact (hnow.trans hip).trans htime
  | endSql => exact le_rfl
  | authFailure hnow => exact hnow

/-- The token service of a step. -/
theorem tokens_step (hstep : Step config pepper s e s') :
    Run (TokenStep pepper) s.tokens e.tokens s'.tokens := by
  cases hstep with
  | invalid _ _ _ h | ended _ _ _ h | unscoped _ _ _ h | limited _ _ _ h | admitted _ _ _ h
  | token h => exact .cons h .nil
  | blocked | unnamed | endSql | switch => exact .nil

theorem Inv.waited (h : Inv config pepper es s) (hduration : 60 ≤ config.ipBlockDurationS)
    (hnow : s.limits.clock ≤ now) (hfree : s.blockOf ip now = none) {t : ℚ}
    (ht : Reached config (failures ip es) t) : t + config.ipBlockDurationS ≤ now :=
  (h.addresses.mono hnow).waited (by linarith) hfree ht

/-- The limits, the clock and the addresses after a check and a failure. -/
theorem Inv.failed (h : Inv config pepper es s) (hduration : 60 ≤ config.ipBlockDurationS)
    (hnow : s.limits.clock ≤ now) (hfree : s.blockOf ip now = none) (htime : now ≤ time)
    {verify : Option TokenEvent} :
    Connectivity.Inv config ((s.checkIp ip now).fail config ip time).limits ∧
      Addresses config ((s.checkIp ip now).fail config ip time).limits.limiter time
        fun ip' => failures ip' (es ++ [.failed ip now time verify]) := by
  refine ⟨limits_fail (limits_checkIp h.limits hnow) htime, ?_⟩
  rw [failures_failed]
  have hchecked := (h.addresses.mono hnow).check (@checksIp s.limits.limiter now ip)
  refine hchecked.fail hduration (fun t ht => h.waited hduration hnow hfree ht) htime ?_
  exact (h.clock.trans hnow).trans htime

theorem Inv.step (hduration : 60 ≤ config.ipBlockDurationS) (h : Inv config pepper es s)
    (hstep : Step config pepper s e s') : Inv config pepper (es ++ [e]) s' := by
  cases hstep with
  | @blocked _ now _ hnow =>
    refine ⟨limits_checkIp h.limits hnow, h.clock.trans hnow, ?_⟩
    rw [failures_append fun _ => rfl]
    exact (h.addresses.mono hnow).check checksIp
  | unnamed hnow hfree _ htime =>
    obtain ⟨hlimits, haddresses⟩ := h.failed hduration hnow hfree htime
    exact ⟨hlimits, (h.clock.trans hnow).trans htime, haddresses⟩
  | invalid hnow hfree _ _ _ htime =>
    obtain ⟨hlimits, haddresses⟩ := h.failed hduration hnow hfree htime
    exact ⟨hlimits, (h.clock.trans hnow).trans htime, haddresses⟩
  | ended hnow | unscoped hnow =>
    refine ⟨limits_checkIp h.limits hnow, h.clock.trans hnow, ?_⟩
    rw [failures_append fun _ => rfl]
    exact (h.addresses.mono hnow).check checksIp
  | @limited r now _ _ endpoint _ _ _ e hnow _ _ _ _ _ hrefuses hcall =>
    refine ⟨(limits_checkIp h.limits hnow).step hcall,
      (h.clock.trans hnow).trans (clock_call hcall), ?_⟩
    rw [failures_append fun _ => rfl]
    refine Addresses.call ((h.addresses.mono hnow).check checksIp) hcall ?_
    rintro ip rfl
    cases endpoint with
    | listDatasets | getSchema => exact nomatch hrefuses
    | sql => exact hrefuses.elim nofun nofun
  | @admitted r now _ _ endpoint _ _ _ hnow _ _ _ _ _ hcall =>
    refine ⟨(limits_checkIp h.limits hnow).step hcall,
      (h.clock.trans hnow).trans (clock_call hcall), ?_⟩
    rw [failures_append fun _ => rfl]
    refine Addresses.call ((h.addresses.mono hnow).check checksIp) hcall ?_
    intro ip heq
    cases endpoint <;> cases heq
  | endSql hcall =>
    refine ⟨h.limits.step hcall, h.clock.trans (clock_call hcall), ?_⟩
    rw [failures_append fun _ => rfl]
    exact Addresses.call h.addresses hcall nofun
  | token | switch =>
    refine ⟨h.limits, h.clock, ?_⟩
    rw [failures_append fun _ => rfl]
    exact h.addresses

theorem inv_run (hduration : 60 ≤ config.ipBlockDurationS) {clock tokenClock : ℚ}
    (hclock : 0 ≤ clock) (h : Run (Step config pepper) (.start clock tokenClock) es s) :
    Inv config pepper es s :=
  h.history (inv_start hclock) fun _ hinv hstep => hinv.step hduration hstep

/-- **Of any requests, an address has in each minute no more failures than the limit, and one if
    the limit is zero; from the failure that reaches the limit on, nothing that it sends is looked
    at for the time of a block; what is let in has, while the connectivity is enabled, a token
    that is accepted and has the scope of its endpoint; and no more is let in than the limits
    of the requests allow.** -/
theorem ext_gateway (hduration : 60 ≤ config.ipBlockDurationS) {clock tokenClock : ℚ}
    (hclock : 0 ≤ clock) (h : Run (Step config pepper) (.start clock tokenClock) es s) :
    (∀ ip t, (failures ip es).countP (fun time => t - 60 < time ∧ time ≤ t) ≤
      max 1 config.perIpAuthFailLimit) ∧
    (∀ ip now e s', Step config pepper s e s' → e.Looks ip now →
      ∀ time, Reached config (failures ip es) time → time + config.ipBlockDurationS ≤ now) ∧
    (∀ ip now endpoint raw wall token s',
      Step config pepper s (.admitted ip now endpoint raw wall token) s' →
        s.enabled = true ∧ endpoint.scope ∈ token.scopes ∧
          Accepted pepper (tokenEvents es) raw wall token) ∧
    Limits config s.limits.admitted := by
  have hinv := inv_run hduration hclock h
  refine ⟨hinv.addresses.limited, ?_, ?_, hinv.limits.limits⟩
  · intro ip now e s' hstep hlooks time htime
    cases hstep with
    | unnamed hnow hfree | invalid hnow hfree | ended hnow hfree | unscoped hnow hfree
    | limited hnow hfree | admitted hnow hfree =>
      obtain ⟨rfl, rfl⟩ := hlooks
      exact hinv.waited hduration hnow hfree htime
    | blocked | endSql | token | switch => exact hlooks.elim
  · intro ip now endpoint raw wall token s' hstep
    cases hstep with
    | admitted _ _ _ hverify henabled hscope =>
      have hrun : Run (TokenStep pepper) (.start tokenClock) (tokenEvents es) s.tokens :=
        h.project State.tokens Event.tokens tokens_step
      exact ⟨henabled, hscope, (Connectivity.inv_run hrun).accepted hverify⟩

end

/-- A request that names no token, of an address that no proxy has forwarded. -/
def bareRequest : Request := ⟨none, none, none⟩

def strict : Config := ⟨30, 1, 300, 120, 10, 3⟩

/-- An address that is blocked by its first failure is looked at again after five minutes. -/
theorem ext_gateway_bare : ∃ s, Run (Step strict [7]) (.start 0 0)
    [.failed (getClientIp bareRequest) 0 0 none] s ∧ ∀ now e s', Step strict [7] s e s' →
      e.Looks (getClientIp bareRequest) now → 0 + 300 ≤ now := by
  have hfail : Step strict [7] (.start 0 0) (.failed (getClientIp bareRequest) 0 0 none) _ :=
    .unnamed le_rfl rfl rfl le_rfl
  have hreached : Reached strict
      (failures (getClientIp bareRequest) [.failed (getClientIp bareRequest) 0 0 none]) 0 := by
    refine ⟨by simp [failures, Event.failure], ?_⟩
    simp [failures, Event.failure, strict]
  have hrun := Run.cons hfail .nil
  have hduration : 60 ≤ strict.ipBlockDurationS := by norm_num [strict]
  exact ⟨_, hrun, fun now e s' hstep hlooks =>
    (ext_gateway hduration le_rfl hrun).2.1 _ now e s' hstep hlooks 0 hreached⟩

end Gateway

end Connectivity

end AimData
