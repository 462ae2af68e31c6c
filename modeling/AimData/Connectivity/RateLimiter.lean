/-
  The rate limiter of external queries, in the order in which the orchestrator calls it.

  A request is checked and recorded at once; a SQL request also holds a slot of its token
  until it ends.  The limits hold in every interval of a minute, and the counter of slots
  is the number of SQL requests in flight: `rate_limits_hold`.
-/
import AimData.Lib.Run
import AimData.Lib.SlidingWindow

namespace AimData

namespace Connectivity

open SlidingWindow (prune Tracks Limited)

/-! ## The limiter -/

structure Config where
  perTokenRpm : ℕ
  perIpAuthFailLimit : ℕ
  ipBlockDurationS : ℚ
  globalRpm : ℕ
  perToolSqlRpm : ℕ
  maxConcurrentPerToken : ℕ

/-- `ConnectivityRateLimiter`; its dictionaries have defaults. -/
structure Limiter where
  tokenWindows : String → List ℚ
  tokenSqlWindows : String → List ℚ
  ipFailWindows : String → List ℚ
  ipBlocks : String → Option ℚ
  globalWindow : List ℚ
  concurrency : String → ℤ

def Limiter.start : Limiter :=
  ⟨fun _ => [], fun _ => [], fun _ => [], fun _ => none, [], fun _ => 0⟩

def isSqlTool (toolName : String) : Bool := toolName ∈ ["vectoraiz_sql", "sql", "execute_sql"]

namespace Limiter

variable (l : Limiter)

/-- `check_ip_blocked` -/
def checkIpBlocked (clientIp : String) (now : ℚ) : Option String × Limiter :=
  match l.ipBlocks clientIp with
  | none => (none, l)
  | some blockUntil =>
    if blockUntil = 0 then (none, l)
    else if now < blockUntil then (some "ip_blocked", l)
    else (none, { l with ipBlocks := Function.update l.ipBlocks clientIp none })

/-- `record_auth_failure` -/
def recordAuthFailure (config : Config) (clientIp : String) (now : ℚ) : Option String × Limiter :=
  let window := prune 60 now (l.ipFailWindows clientIp) ++ [now]
  let l := { l with ipFailWindows := Function.update l.ipFailWindows clientIp window }
  if window.length ≥ config.perIpAuthFailLimit then
    (some "ip_blocked",
      { l with
        ipBlocks := Function.update l.ipBlocks clientIp (some (now + config.ipBlockDurationS)) })
  else (none, l)

/-- The windows that `check_rate_limits` counts, pruned. -/
def countGlobal (now : ℚ) : Limiter := { l with globalWindow := prune 60 now l.globalWindow }

def countToken (tokenId : String) (now : ℚ) : Limiter :=
  { l with tokenWindows :=
      Function.update l.tokenWindows tokenId (prune 60 now (l.tokenWindows tokenId)) }

def countSql (tokenId : String) (now : ℚ) : Limiter :=
  { l with tokenSqlWindows :=
      Function.update l.tokenSqlWindows tokenId (prune 60 now (l.tokenSqlWindows tokenId)) }

/-- The last layer of `check_rate_limits` -/
def checkConcurrency (config : Config) (tokenId : String) : Option String × Limiter :=
  if l.concurrency tokenId ≥ config.maxConcurrentPerToken then (some "rate_limited", l)
  else (none, l)

def checkSql (config : Config) (tokenId toolName : String) (now : ℚ) : Option String × Limiter :=
  if isSqlTool toolName then
    let l := l.countSql tokenId now
    if (l.tokenSqlWindows tokenId).length ≥ config.perToolSqlRpm then (some "rate_limited", l)
    else l.checkConcurrency config tokenId
  else l.checkConcurrency config tokenId

/-- `check_rate_limits`; the block of the address reads the clock again. -/
def checkRateLimits (config : Config) (tokenId toolName clientIp : String) (now ipNow : ℚ) :
    Option String × Limiter :=
  match l.checkIpBlocked clientIp ipNow with
  | (some code, l) => (some code, l)
  | (none, l) =>
    let l := l.countGlobal now
    if l.globalWindow.length ≥ config.globalRpm then (some "rate_limited", l)
    else
      let l := l.countToken tokenId now
      if (l.tokenWindows tokenId).length ≥ config.perTokenRpm then (some "rate_limited", l)
      else l.checkSql config tokenId toolName now

/-- `record_request` -/
def recordRequest (tokenId toolName : String) (now : ℚ) : Limiter :=
  { l with
    globalWindow := l.globalWindow ++ [now]
    tokenWindows := Function.update l.tokenWindows tokenId (l.tokenWindows tokenId ++ [now])
    tokenSqlWindows := if isSqlTool toolName then
        Function.update l.tokenSqlWindows tokenId (l.tokenSqlWindows tokenId ++ [now])
      else l.tokenSqlWindows }

/-- `acquire_concurrency` -/
def acquireConcurrency (config : Config) (tokenId : String) : Bool × Limiter :=
  if l.concurrency tokenId ≥ config.maxConcurrentPerToken then (false, l)
  else (true, { l with
    concurrency := Function.update l.concurrency tokenId (l.concurrency tokenId + 1) })

/-- `release_concurrency` -/
def releaseConcurrency (tokenId : String) : Limiter :=
  { l with
    concurrency := Function.update l.concurrency tokenId (max 0 (l.concurrency tokenId - 1)) }

end Limiter

/-! ## Requests -/

/-- A request that was admitted, at the time of its record. -/
structure Admitted where
  tokenId : String
  toolName : String
  time : ℚ

/-- The limiter and the clock, with the admitted requests and the tokens of the SQL
    requests in flight. -/
structure System where
  limiter : Limiter
  clock : ℚ
  admitted : List Admitted
  inFlight : List String

def System.start (clock : ℚ) : System := ⟨.start, clock, [], []⟩

inductive Event where
  | refuse (tokenId toolName clientIp code : String)
  | request (tokenId toolName clientIp : String)
  | startSql (tokenId clientIp : String)
  | busySql (tokenId clientIp : String)
  | endSql (tokenId : String)
  | authFailure (clientIp : String)

inductive Step (config : Config) : System → Event → System → Prop
  | refuse {s : System} {tokenId toolName clientIp code : String} {now ipNow : ℚ} {l : Limiter} :
    s.clock ≤ now → now ≤ ipNow →
    s.limiter.checkRateLimits config tokenId toolName clientIp now ipNow = (some code, l) →
    Step config s (.refuse tokenId toolName clientIp code)
      { s with limiter := l, clock := ipNow }
  /-- A tool without a slot of its own: the request is checked and recorded. -/
  | request {s : System} {tokenId toolName clientIp : String} {now ipNow time : ℚ} {l : Limiter} :
    s.clock ≤ now → now ≤ ipNow → ipNow ≤ time →
    s.limiter.checkRateLimits config tokenId toolName clientIp now ipNow = (none, l) →
    Step config s (.request tokenId toolName clientIp)
      { s with
        limiter := l.recordRequest tokenId toolName time
        clock := time
        admitted := ⟨tokenId, toolName, time⟩ :: s.admitted }
  /-- `execute_sql`: the request is checked, takes a slot and is recorded. -/
  | startSql {s : System} {tokenId clientIp : String} {now ipNow time : ℚ} {l l' : Limiter} :
    s.clock ≤ now → now ≤ ipNow → ipNow ≤ time →
    s.limiter.checkRateLimits config tokenId "execute_sql" clientIp now ipNow = (none, l) →
    l.acquireConcurrency config tokenId = (true, l') →
    Step config s (.startSql tokenId clientIp)
      { limiter := l'.recordRequest tokenId "execute_sql" time
        clock := time
        admitted := ⟨tokenId, "execute_sql", time⟩ :: s.admitted
        inFlight := tokenId :: s.inFlight }
  | busySql {s : System} {tokenId clientIp : String} {now ipNow : ℚ} {l l' : Limiter} :
    s.clock ≤ now → now ≤ ipNow →
    s.limiter.checkRateLimits config tokenId "execute_sql" clientIp now ipNow = (none, l) →
    l.acquireConcurrency config tokenId = (false, l') →
    Step config s (.busySql tokenId clientIp) { s with limiter := l', clock := ipNow }
  /-- A SQL request returns or raises. -/
  | endSql {s : System} {tokenId : String} : tokenId ∈ s.inFlight →
    Step config s (.endSql tokenId)
      { s with
        limiter := s.limiter.releaseConcurrency tokenId
        inFlight := s.inFlight.erase tokenId }
  | authFailure {s : System} {clientIp : String} {now : ℚ} : s.clock ≤ now →
    Step config s (.authFailure clientIp)
      { s with limiter := (s.limiter.recordAuthFailure config clientIp now).2, clock := now }

/-! ## What a check does -/

def allTimes (admitted : List Admitted) : List ℚ := admitted.map Admitted.time

def tokenTimes (tokenId : String) (admitted : List Admitted) : List ℚ :=
  (admitted.filter fun a => a.tokenId = tokenId).map Admitted.time

def sqlTimes (tokenId : String) (admitted : List Admitted) : List ℚ :=
  (admitted.filter fun a => a.tokenId = tokenId ∧ isSqlTool a.toolName).map Admitted.time

/-- The windows of the limiter are those of the admitted requests. -/
structure Windows (l : Limiter) (now : ℚ) (admitted : List Admitted) : Prop where
  all : Tracks 60 now l.globalWindow (allTimes admitted)
  token : ∀ tokenId, Tracks 60 now (l.tokenWindows tokenId) (tokenTimes tokenId admitted)
  sql : ∀ tokenId, Tracks 60 now (l.tokenSqlWindows tokenId) (sqlTimes tokenId admitted)

section
variable {config : Config} {l l' : Limiter} {now now' ipNow : ℚ} {admitted : List Admitted}
  {tokenId toolName clientIp : String} {code : Option String}

theorem Windows.mono (h : Windows l now admitted) (hnow : now ≤ now') : Windows l now' admitted :=
  ⟨h.all.mono hnow, fun tokenId => (h.token tokenId).mono hnow,
    fun tokenId => (h.sql tokenId).mono hnow⟩

theorem tracks_update {windows : String → List ℚ} {log : String → List ℚ} {window : List ℚ}
    (h : ∀ id, Tracks 60 now (windows id) (log id)) (hid : Tracks 60 now window (log tokenId))
    (id : String) : Tracks 60 now (Function.update windows tokenId window id) (log id) := by
  by_cases heq : id = tokenId
  · rw [heq, Function.update_self]
    exact hid
  · rw [Function.update_of_ne heq]
    exact h id

/-- A check that lets a request pass has counted less than each limit. -/
structure Passed (config : Config) (l : Limiter) (now : ℚ) (tokenId toolName : String) : Prop where
  all : (prune 60 now l.globalWindow).length < config.globalRpm
  token : (prune 60 now (l.tokenWindows tokenId)).length < config.perTokenRpm
  sql : isSqlTool toolName = true →
    (prune 60 now (l.tokenSqlWindows tokenId)).length < config.perToolSqlRpm
  slot : l.concurrency tokenId < config.maxConcurrentPerToken

/-- What a check leaves as it was, and when it passes. -/
structure Checked (config : Config) (l : Limiter) (now : ℚ) (tokenId toolName : String)
    (code : Option String) (l' : Limiter) : Prop where
  windows : ∀ admitted, Windows l now admitted → Windows l' now admitted
  concurrency : l'.concurrency = l.concurrency
  passed : code = none → Passed config l now tokenId toolName

/-- Two limiters that differ in addresses only. -/
structure SameWindows (l l' : Limiter) : Prop where
  all : l'.globalWindow = l.globalWindow
  token : l'.tokenWindows = l.tokenWindows
  sql : l'.tokenSqlWindows = l.tokenSqlWindows
  concurrency : l'.concurrency = l.concurrency

theorem Windows.same (h : Windows l now admitted) (hsame : SameWindows l l') :
    Windows l' now admitted :=
  ⟨hsame.all ▸ h.all, hsame.token ▸ h.token, hsame.sql ▸ h.sql⟩

theorem same_checkIpBlocked : SameWindows l (l.checkIpBlocked clientIp ipNow).2 := by
  rw [Limiter.checkIpBlocked]
  cases l.ipBlocks clientIp with
  | none => exact ⟨rfl, rfl, rfl, rfl⟩
  | some blockUntil =>
    dsimp only
    split_ifs <;> exact ⟨rfl, rfl, rfl, rfl⟩

theorem checked_concurrency (hall : (prune 60 now l.globalWindow).length < config.globalRpm)
    (htoken : (prune 60 now (l.tokenWindows tokenId)).length < config.perTokenRpm)
    (hsql : isSqlTool toolName = true →
      (prune 60 now (l.tokenSqlWindows tokenId)).length < config.perToolSqlRpm)
    (hwindows : ∀ admitted, Windows l now admitted → Windows l' now admitted)
    (hconcurrency : l'.concurrency = l.concurrency) :
    Checked config l now tokenId toolName (l'.checkConcurrency config tokenId).1
      (l'.checkConcurrency config tokenId).2 := by
  rw [Limiter.checkConcurrency]
  split_ifs with hslot
  · exact ⟨hwindows, hconcurrency, fun h => nomatch h⟩
  · exact ⟨hwindows, hconcurrency, fun _ => ⟨hall, htoken, hsql, hconcurrency ▸ not_le.1 hslot⟩⟩

theorem windows_countGlobal (h : Windows l now admitted) : Windows (l.countGlobal now) now admitted :=
  ⟨h.all.prune, h.token, h.sql⟩

theorem windows_countToken (h : Windows l now admitted) :
    Windows (l.countToken tokenId now) now admitted :=
  ⟨h.all, tracks_update h.token (h.token tokenId).prune, h.sql⟩

theorem windows_countSql (h : Windows l now admitted) :
    Windows (l.countSql tokenId now) now admitted :=
  ⟨h.all, h.token, tracks_update h.sql (h.sql tokenId).prune⟩

theorem checked : Checked config l now tokenId toolName
    (l.checkRateLimits config tokenId toolName clientIp now ipNow).1
    (l.checkRateLimits config tokenId toolName clientIp now ipNow).2 := by
  rw [Limiter.checkRateLimits]
  have hsame := @same_checkIpBlocked l ipNow clientIp
  generalize l.checkIpBlocked clientIp ipNow = result at hsame ⊢
  rcases result with ⟨_ | blocked, l₁⟩
  · change SameWindows l l₁ at hsame
    have hwindows : ∀ admitted, Windows l now admitted → Windows l₁ now admitted :=
      fun admitted h => h.same hsame
    obtain ⟨hglobal, htokens, hsqls, hconcurrency⟩ := hsame
    have hcounted : ∀ admitted, Windows l now admitted →
        Windows ((l₁.countGlobal now).countToken tokenId now) now admitted :=
      fun admitted h => windows_countToken (windows_countGlobal (hwindows admitted h))
    dsimp only
    split_ifs with hall htoken
    · exact ⟨fun admitted h => windows_countGlobal (hwindows admitted h), hconcurrency,
        fun h => nomatch h⟩
    · exact ⟨hcounted, hconcurrency, fun h => nomatch h⟩
    · have hall' : (prune 60 now l.globalWindow).length < config.globalRpm :=
        hglobal ▸ not_le.1 hall
      have htoken' : (prune 60 now (l.tokenWindows tokenId)).length < config.perTokenRpm := by
        have hself : ((l₁.countGlobal now).countToken tokenId now).tokenWindows tokenId =
            prune 60 now (l₁.tokenWindows tokenId) := Function.update_self ..
        rw [hself, htokens] at htoken
        exact not_le.1 htoken
      rw [Limiter.checkSql]
      by_cases hsql : isSqlTool toolName = true
      · rw [if_pos hsql]
        dsimp only
        split_ifs with hfull
        · exact ⟨fun admitted h => windows_countSql (hcounted admitted h), hconcurrency,
            fun h => nomatch h⟩
        · have hself : (((l₁.countGlobal now).countToken tokenId now).countSql tokenId
              now).tokenSqlWindows tokenId = prune 60 now (l₁.tokenSqlWindows tokenId) :=
            Function.update_self ..
          rw [hself, hsqls] at hfull
          exact checked_concurrency hall' htoken' (fun _ => not_le.1 hfull)
            (fun admitted h => windows_countSql (hcounted admitted h)) hconcurrency
      · rw [if_neg hsql]
        exact checked_concurrency hall' htoken' (fun h => absurd h hsql) hcounted hconcurrency
  · exact ⟨fun admitted h => h.same hsame, hsame.concurrency, fun h => nomatch h⟩

/-! ## What a record does -/

theorem tokenTimes_cons {a : Admitted} : tokenTimes tokenId (a :: admitted) =
    if a.tokenId = tokenId then a.time :: tokenTimes tokenId admitted
    else tokenTimes tokenId admitted := by
  rw [tokenTimes, List.filter_cons]
  by_cases h : a.tokenId = tokenId
  · simp [h, tokenTimes]
  · simp [h, tokenTimes]

theorem sqlTimes_cons {a : Admitted} : sqlTimes tokenId (a :: admitted) =
    if a.tokenId = tokenId ∧ isSqlTool a.toolName = true then a.time :: sqlTimes tokenId admitted
    else sqlTimes tokenId admitted := by
  rw [sqlTimes, List.filter_cons]
  by_cases h : a.tokenId = tokenId ∧ isSqlTool a.toolName = true
  · simp [h, sqlTimes]
  · simp only [h, decide_false, Bool.false_eq_true, if_false]
    rfl

theorem tracks_append {windows log log' : String → List ℚ}
    (h : ∀ id, Tracks 60 now (windows id) (log id)) (hself : log' tokenId = now :: log tokenId)
    (hother : ∀ id, id ≠ tokenId → log' id = log id) (id : String) :
    Tracks 60 now (Function.update windows tokenId (windows tokenId ++ [now]) id) (log' id) := by
  by_cases heq : id = tokenId
  · rw [heq, Function.update_self, hself]
    exact (h tokenId).record
  · rw [Function.update_of_ne heq, hother id heq]
    exact h id

theorem windows_record (h : Windows l now admitted) :
    Windows (l.recordRequest tokenId toolName now) now (⟨tokenId, toolName, now⟩ :: admitted) := by
  refine ⟨h.all.record, ?_, ?_⟩
  · refine tracks_append h.token ?_ ?_
    · rw [tokenTimes_cons, if_pos rfl]
    · intro id hne
      rw [tokenTimes_cons, if_neg (Ne.symm hne)]
  · intro id
    change Tracks 60 now ((if isSqlTool toolName = true then
      Function.update l.tokenSqlWindows tokenId (l.tokenSqlWindows tokenId ++ [now])
      else l.tokenSqlWindows) id) _
    by_cases hsql : isSqlTool toolName = true
    · rw [if_pos hsql]
      have hself : sqlTimes tokenId (⟨tokenId, toolName, now⟩ :: admitted) =
          now :: sqlTimes tokenId admitted := by
        rw [sqlTimes_cons, if_pos ⟨rfl, hsql⟩]
      have hother : ∀ id, id ≠ tokenId → sqlTimes id (⟨tokenId, toolName, now⟩ :: admitted) =
          sqlTimes id admitted := by
        intro id hne
        rw [sqlTimes_cons, if_neg fun hand => hne hand.1.symm]
      exact tracks_append h.sql hself hother id
    · rw [if_neg hsql, sqlTimes_cons, if_neg fun hand => hsql hand.2]
      exact h.sql id

/-- The limits on the admitted requests. -/
structure Limits (config : Config) (admitted : List Admitted) : Prop where
  all : Limited 60 config.globalRpm (allTimes admitted)
  token : ∀ tokenId, Limited 60 config.perTokenRpm (tokenTimes tokenId admitted)
  sql : ∀ tokenId, Limited 60 config.perToolSqlRpm (sqlTimes tokenId admitted)

theorem limits_record (h : Limits config admitted) (hwindows : Windows l now admitted)
    (hpassed : Passed config l now tokenId toolName) (hnow : now ≤ now') :
    Limits config (⟨tokenId, toolName, now'⟩ :: admitted) := by
  refine ⟨h.all.record hwindows.all hpassed.all hnow, ?_, ?_⟩
  · intro id
    rw [tokenTimes_cons]
    split_ifs with heq
    · subst heq
      exact (h.token _).record (hwindows.token _) hpassed.token hnow
    · exact h.token id
  · intro id
    rw [sqlTimes_cons]
    split_ifs with hand
    · obtain ⟨rfl, hsql⟩ := hand
      exact (h.sql _).record (hwindows.sql _) (hpassed.sql hsql) hnow
    · exact h.sql id

/-! ## Runs -/

structure Inv (config : Config) (s : System) : Prop where
  windows : Windows s.limiter s.clock s.admitted
  limits : Limits config s.admitted
  slots : ∀ tokenId, s.limiter.concurrency tokenId = s.inFlight.count tokenId
  room : ∀ tokenId, s.inFlight.count tokenId ≤ config.maxConcurrentPerToken

theorem inv_start {clock : ℚ} : Inv config (.start clock) where
  windows := ⟨.nil, fun _ => .nil, fun _ => .nil⟩
  limits := ⟨.nil, fun _ => .nil, fun _ => .nil⟩
  slots := fun _ => rfl
  room := fun _ => Nat.zero_le _

section
variable {s s' : System} {e : Event} {es : List Event}

theorem checked_eq (h : l.checkRateLimits config tokenId toolName clientIp now ipNow = (code, l')) :
    Checked config l now tokenId toolName code l' := by
  have hchecked := @checked config l now ipNow tokenId toolName clientIp
  rwa [h] at hchecked

theorem Inv.step (h : Inv config s) (hstep : Step config s e s') : Inv config s' := by
  cases hstep with
  | refuse hnow hip hcheck =>
    have hc := checked_eq hcheck
    exact ⟨(hc.windows _ (h.windows.mono hnow)).mono hip, h.limits,
      fun id => hc.concurrency ▸ h.slots id, h.room⟩
  | request hnow hip htime hcheck =>
    have hc := checked_eq hcheck
    have hwindows := h.windows.mono hnow
    exact ⟨windows_record ((hc.windows _ hwindows).mono (hip.trans htime)),
      limits_record h.limits hwindows (hc.passed rfl) (hip.trans htime),
      fun id => hc.concurrency ▸ h.slots id, h.room⟩
  | @startSql tokenId clientIp now ipNow time l l' hnow hip htime hcheck hacquire =>
    have hc := checked_eq hcheck
    have hwindows := h.windows.mono hnow
    have hpassed := hc.passed rfl
    rw [Limiter.acquireConcurrency] at hacquire
    split_ifs at hacquire with hfull
    · cases hacquire
    · obtain rfl := (Prod.mk.inj hacquire).2
      refine ⟨?_, limits_record h.limits hwindows hpassed (hip.trans htime), ?_, ?_⟩
      · have hafter := (hc.windows _ hwindows).mono (hip.trans htime)
        exact windows_record ⟨hafter.all, hafter.token, hafter.sql⟩
      · intro id
        change Function.update l.concurrency tokenId _ id = _
        rw [hc.concurrency, List.count_cons]
        by_cases heq : id = tokenId
        · rw [heq, Function.update_self, h.slots tokenId]
          simp
        · rw [Function.update_of_ne heq, h.slots id]
          simp [Ne.symm heq]
      · intro id
        rw [List.count_cons]
        by_cases heq : id = tokenId
        · have hslot := hpassed.slot
          rw [h.slots tokenId] at hslot
          rw [heq]
          simp only [beq_self_eq_true, if_true]
          omega
        · simp [Ne.symm heq, h.room id]
  | busySql hnow hip hcheck hacquire =>
    have hc := checked_eq hcheck
    rw [Limiter.acquireConcurrency] at hacquire
    split_ifs at hacquire with hfull
    · obtain rfl := (Prod.mk.inj hacquire).2
      exact ⟨(hc.windows _ (h.windows.mono hnow)).mono hip, h.limits,
        fun id => hc.concurrency ▸ h.slots id, h.room⟩
    · cases hacquire
  | @endSql tokenId hmem =>
    have hpos := List.count_pos_iff.2 hmem
    refine ⟨⟨h.windows.all, h.windows.token, h.windows.sql⟩, h.limits, ?_, ?_⟩
    · intro id
      change Function.update s.limiter.concurrency tokenId _ id = _
      by_cases heq : id = tokenId
      · rw [heq, Function.update_self, h.slots tokenId, List.count_erase_self]
        omega
      · rw [Function.update_of_ne heq, h.slots id, List.count_erase_of_ne heq]
    · exact fun id => (List.erase_sublist.count_le id).trans (h.room id)
  | authFailure hnow =>
    have hwindows := h.windows.mono hnow
    rw [Limiter.recordAuthFailure]
    dsimp only
    split_ifs <;> exact ⟨⟨hwindows.all, hwindows.token, hwindows.sql⟩, h.limits, h.slots, h.room⟩

/-- **In every interval of a minute at most the configured numbers of requests were admitted,
    overall, of a token, and of SQL of a token; and the counter of a token is the number of
    its SQL requests in flight, which never exceeds the maximum and is never clamped.** -/
theorem rate_limits_hold {clock : ℚ} (h : Run (Step config) (.start clock) es s) :
    (∀ t, s.admitted.countP (fun a => t - 60 < a.time ∧ a.time ≤ t) ≤ config.globalRpm) ∧
      (∀ t tokenId, s.admitted.countP (fun a => (t - 60 < a.time ∧ a.time ≤ t) ∧
        a.tokenId = tokenId) ≤ config.perTokenRpm) ∧
      (∀ t tokenId, s.admitted.countP (fun a => (t - 60 < a.time ∧ a.time ≤ t) ∧
        a.tokenId = tokenId ∧ isSqlTool a.toolName = true) ≤ config.perToolSqlRpm) ∧
      (∀ tokenId, s.limiter.concurrency tokenId = s.inFlight.count tokenId ∧
        s.inFlight.count tokenId ≤ config.maxConcurrentPerToken) ∧
      ∀ tokenId ∈ s.inFlight, (s.limiter.releaseConcurrency tokenId).concurrency tokenId =
        s.limiter.concurrency tokenId - 1 := by
  have hinv : Inv config s := Run.invariant (fun hinv hstep => Inv.step hinv hstep) h inv_start
  refine ⟨?_, ?_, ?_, fun tokenId => ⟨hinv.slots tokenId, hinv.room tokenId⟩, ?_⟩
  · intro t
    have hall := hinv.limits.all t
    rwa [allTimes, List.countP_map] at hall
  · intro t tokenId
    have htoken := hinv.limits.token tokenId t
    rw [tokenTimes, List.countP_map, List.countP_filter] at htoken
    simpa using htoken
  · intro t tokenId
    have hsql := hinv.limits.sql tokenId t
    rw [sqlTimes, List.countP_map, List.countP_filter] at hsql
    simpa using hsql
  · intro tokenId hmem
    have hpos := List.count_pos_iff.2 hmem
    have hself : (s.limiter.releaseConcurrency tokenId).concurrency tokenId =
        max 0 (s.limiter.concurrency tokenId - 1) := Function.update_self ..
    rw [hself, hinv.slots tokenId]
    omega

end

/-- A SQL request that runs and ends. -/
theorem rate_limits_hold_sql : ∃ s, Run (Step ⟨30, 5, 300, 120, 10, 1⟩) (.start 0)
    [.startSql "t" "ip", .endSql "t"] s ∧
      s.admitted.countP (fun a => (0 : ℚ) - 60 < a.time ∧ a.time ≤ 0) ≤ 120 := by
  have hrun : Run (Step ⟨30, 5, 300, 120, 10, 1⟩) (.start 0) [.startSql "t" "ip", .endSql "t"] _ :=
    .cons (.startSql (le_refl 0) (le_refl 0) (le_refl 0) rfl rfl)
      (.cons (.endSql List.mem_cons_self) .nil)
  exact ⟨_, hrun, (rate_limits_hold hrun).1 0⟩

end

end Connectivity

end AimData
