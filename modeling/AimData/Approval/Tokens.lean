/-
  Approval tokens: a change that the assistant asks for waits for the approval of the user
  of the session, under a token.

  A token is used once, by the session that it was made for, before it expires
  (`approval_tokens`).  Whatever others do with its id, it stays usable until then.
-/
import AimData.Lib.Run
import AimData.Lib.Table
import AimData.Preview.Publication
import AimData.Signing.Preimage

namespace AimData

namespace Approval

/-! ## The hash of a tool input -/

def hexUnit (n : ℕ) : List Char :=
  [Json.hexDigit (n / 4096 % 16), Json.hexDigit (n / 256 % 16), Json.hexDigit (n / 16 % 16),
    Json.hexDigit (n % 16)]

/-- A character outside printable ASCII is written in units of UTF-16. -/
def escapeAscii (c : Char) : List Char :=
  if c.toNat < 127 then Json.escapeChar c
  else if c.toNat < 0x10000 then '\\' :: 'u' :: hexUnit c.toNat
  else '\\' :: 'u' :: hexUnit (0xD800 + (c.toNat - 0x10000) / 0x400) ++
    '\\' :: 'u' :: hexUnit (0xDC00 + (c.toNat - 0x10000) % 0x400)

def asciiStr (s : String) : List Char := '"' :: s.toList.flatMap escapeAscii ++ ['"']

mutual
/-- The text that `json.dumps` writes by default. -/
def jsonDumps : Json → List Char
  | .str s => asciiStr s
  | .arr [] => ['[', ']']
  | .arr (v :: l) => '[' :: (jsonDumps v ++ jsonDumpsTail l)
  | .obj [] => ['{', '}']
  | .obj ((k, v) :: l) => '{' :: (asciiStr k ++ ':' :: ' ' :: (jsonDumps v ++ jsonDumpsFields l))
  | v => v.dumps

def jsonDumpsTail : List Json → List Char
  | [] => [']']
  | v :: l => ',' :: ' ' :: (jsonDumps v ++ jsonDumpsTail l)

def jsonDumpsFields : List (String × Json) → List Char
  | [] => ['}']
  | (k, v) :: l =>
    ',' :: ' ' :: (asciiStr k ++ ':' :: ' ' :: (jsonDumps v ++ jsonDumpsFields l))
end

/-- `sha256(json.dumps(tool_input, sort_keys=True)).hexdigest()` -/
def argsHash (toolInput : Json) : String :=
  hex (sha256 (Utf8.encode (jsonDumps (sortedJson toolInput)))).1

/-! ## Tokens -/

structure MutationTool where
  name : String
  risk : String
  desc : String

def mutationTools : List MutationTool :=
  [⟨"delete_dataset", "high", "Delete dataset '\x7bdataset_name\x7d'"⟩,
    ⟨"connectivity_enable", "medium", "Enable ai.market connectivity"⟩,
    ⟨"connectivity_disable", "medium", "Disable ai.market connectivity"⟩,
    ⟨"connectivity_create_token", "medium", "Create connectivity token"⟩,
    ⟨"connectivity_revoke_token", "medium", "Revoke connectivity token"⟩,
    ⟨"start_public_tunnel", "medium", "Start public tunnel"⟩,
    ⟨"stop_public_tunnel", "low", "Stop public tunnel"⟩]

def riskTtl : List (String × ℚ) := [("low", 120), ("medium", 60), ("high", 30), ("critical", 15)]

inductive Status where
  | pending
  | claimed
  | approved
  | denied
  | expired
  | error
  deriving DecidableEq

structure ApprovalToken where
  id : String
  userId : String
  sessionId : String
  toolName : String
  toolInput : Json
  toolArgsHash : String
  nonce : String
  description : String
  riskLevel : String
  status : Status
  createdAt : ℚ
  expiresAt : ℚ
  deriving DecidableEq

structure ApprovalResult where
  success : Bool
  reason : String
  toolName : String
  toolInput : Json
  deriving DecidableEq

/-- A result without the fields that only a success fills. -/
def ApprovalResult.failure (reason : String) : ApprovalResult := ⟨false, reason, "", .obj []⟩

/-! ## The service -/

/-- The tokens of `_pending`, each under its id. -/
structure Service where
  pending : List ApprovalToken

namespace Service

def get (s : Service) (tokenId : String) : Option ApprovalToken :=
  s.pending.find? fun token => token.id = tokenId

def pop (s : Service) (tokenId : String) : Service :=
  ⟨s.pending.filter fun token => token.id ≠ tokenId⟩

def setStatus (s : Service) (tokenId : String) (status : Status) : Service :=
  ⟨s.pending.map fun token => if token.id = tokenId then { token with status := status } else token⟩

/-- `_cleanup_expired` -/
def cleanupExpired (s : Service) (now : ℚ) : Service :=
  ⟨s.pending.filter fun token => ¬ token.expiresAt < now⟩

end Service

/-- The arguments of `create_token` -/
structure Request where
  userId : String
  sessionId : String
  toolName : String
  toolInput : Json
  description : String
  deriving DecidableEq

/-- The token that is made for a request. -/
def newToken (now : ℚ) (id nonce : String) (request : Request) : ApprovalToken :=
  let info := mutationTools.find? fun tool => tool.name = request.toolName
  let riskLevel := (info.map MutationTool.risk).getD "medium"
  let ttl := (riskTtl.lookup riskLevel).getD 60
  { id := id
    userId := request.userId
    sessionId := request.sessionId
    toolName := request.toolName
    toolInput := request.toolInput
    toolArgsHash := argsHash request.toolInput
    nonce := nonce
    description := if request.description ≠ "" then request.description
      else (info.map MutationTool.desc).getD ("Execute " ++ request.toolName)
    riskLevel := riskLevel
    status := .pending
    createdAt := now
    expiresAt := now + ttl }

/-- `create_token`, which reads the clock for the cleanup and for the token. -/
def createToken (s : Service) (cleanup now : ℚ) (id nonce : String) (request : Request) :
    ApprovalToken × Service :=
  let s := s.cleanupExpired cleanup
  let token := newToken now id nonce request
  (token, ⟨Table.upsert ApprovalToken.id s.pending token⟩)

def validateAndConsume (s : Service) (now : ℚ) (tokenId userId sessionId : String) :
    ApprovalResult × Service :=
  match s.get tokenId with
  | none => (.failure "not_found_or_already_used", s)
  | some token =>
    if token.status ≠ .pending then (.failure "not_found_or_already_used", s)
    else
      let s := s.setStatus tokenId .claimed
      if token.expiresAt < now then (.failure "expired", s.pop tokenId)
      else if token.userId ≠ userId then (.failure "wrong_user", s.setStatus tokenId .pending)
      else if token.sessionId ≠ sessionId then
        (.failure "wrong_session", s.setStatus tokenId .pending)
      else if token.toolArgsHash ≠ argsHash token.toolInput then
        (.failure "args_tampered", s.pop tokenId)
      else (⟨true, "", token.toolName, token.toolInput⟩, s.pop tokenId)

def denyToken (s : Service) (tokenId : String) : Bool × Service :=
  match s.get tokenId with
  | none => (false, s)
  | some token => if token.status ≠ .pending then (false, s) else (true, s.pop tokenId)

/-! ## What a call does -/

/-- Between calls every token is pending, and has the hash of its input. -/
structure Service.Wf (s : Service) : Prop where
  nodup : (s.pending.map ApprovalToken.id).Nodup
  status : ∀ token ∈ s.pending, token.status = .pending
  hash : ∀ token ∈ s.pending, token.toolArgsHash = argsHash token.toolInput

section
variable {s : Service} {token token' : ApprovalToken} {tokenId userId sessionId : String} {now : ℚ}

theorem mem_of_get (h : s.get tokenId = some token) : token ∈ s.pending ∧ token.id = tokenId :=
  ⟨List.mem_of_find?_eq_some h, by simpa using List.find?_some h⟩

theorem get_none (h : s.get tokenId = none) : ∀ token ∈ s.pending, token.id ≠ tokenId := by
  intro token htoken heq
  have hne := List.find?_eq_none.1 h token htoken
  simp [heq] at hne

theorem Service.Wf.get (h : s.Wf) (htoken : token ∈ s.pending) : s.get token.id = some token := by
  cases hget : s.get token.id with
  | none => exact absurd rfl (get_none hget token htoken)
  | some token' =>
    obtain ⟨hmem, hid⟩ := mem_of_get hget
    rw [List.inj_on_of_nodup_map h.nodup hmem htoken hid]

theorem mem_pop : token ∈ (s.pop tokenId).pending ↔ token ∈ s.pending ∧ token.id ≠ tokenId := by
  rw [Service.pop, List.mem_filter, decide_eq_true_eq]

theorem pop_setStatus {status : Status} :
    (s.setStatus tokenId status).pop tokenId = s.pop tokenId := by
  rw [Service.pop, Service.pop, Service.setStatus, List.filter_map]
  congr 1
  rw [List.filter_congr (q := fun token => decide (token.id ≠ tokenId))]
  · refine (List.map_congr_left ?_).trans (List.map_id _)
    intro token htoken
    exact if_neg (of_decide_eq_true (List.mem_filter.1 htoken).2)
  · intro token _
    dsimp only [Function.comp_apply]
    split_ifs
    · rfl
    · rfl

/-- A token that was claimed and put back is as before. -/
theorem restore (h : ∀ token ∈ s.pending, token.status = .pending) {status : Status} :
    (s.setStatus tokenId status).setStatus tokenId .pending = s := by
  rw [Service.setStatus, Service.setStatus, List.map_map]
  cases s with
  | mk pending =>
    congr 1
    refine (List.map_congr_left ?_).trans (List.map_id _)
    intro token htoken
    have hstatus := h token htoken
    cases token
    simp only [Function.comp_apply]
    split_ifs with hid
    · simpa [hid] using hstatus.symm
    · rfl

theorem wf_pop (h : s.Wf) : (s.pop tokenId).Wf where
  nodup := h.nodup.sublist (List.filter_sublist.map _)
  status := fun token htoken => h.status token (mem_pop.1 htoken).1
  hash := fun token htoken => h.hash token (mem_pop.1 htoken).1

/-- What `validate_and_consume` may do. -/
inductive Validated (s : Service) (now : ℚ) (tokenId userId sessionId : String) :
    ApprovalResult → Service → Prop
  | missing : (∀ token ∈ s.pending, token.id ≠ tokenId) →
    Validated s now tokenId userId sessionId (.failure "not_found_or_already_used") s
  | expired {token : ApprovalToken} : token ∈ s.pending → token.id = tokenId →
    token.expiresAt < now → Validated s now tokenId userId sessionId (.failure "expired")
      (s.pop tokenId)
  | foreign {token : ApprovalToken} {reason : String} : token ∈ s.pending → token.id = tokenId →
    ¬ (token.userId = userId ∧ token.sessionId = sessionId) →
    Validated s now tokenId userId sessionId (.failure reason) s
  | consumed {token : ApprovalToken} : token ∈ s.pending → token.id = tokenId →
    now ≤ token.expiresAt → token.userId = userId → token.sessionId = sessionId →
    Validated s now tokenId userId sessionId ⟨true, "", token.toolName, token.toolInput⟩
      (s.pop tokenId)

theorem validated (h : s.Wf) : Validated s now tokenId userId sessionId
    (validateAndConsume s now tokenId userId sessionId).1
    (validateAndConsume s now tokenId userId sessionId).2 := by
  rw [validateAndConsume]
  cases hget : s.get tokenId with
  | none => exact .missing (get_none hget)
  | some token =>
    obtain ⟨hmem, hid⟩ := mem_of_get hget
    dsimp only
    rw [if_neg (not_not.2 (h.status token hmem)), pop_setStatus, restore h.status]
    by_cases hexpired : token.expiresAt < now
    · rw [if_pos hexpired]
      exact .expired hmem hid hexpired
    · rw [if_neg hexpired]
      by_cases huser : token.userId = userId
      · rw [if_neg (not_not.2 huser)]
        by_cases hsession : token.sessionId = sessionId
        · rw [if_neg (not_not.2 hsession), if_neg (not_not.2 (h.hash token hmem))]
          exact .consumed hmem hid (not_lt.1 hexpired) huser hsession
        · rw [if_pos hsession]
          exact .foreign hmem hid fun hown => hsession hown.2
      · rw [if_pos huser]
        exact .foreign hmem hid fun hown => huser hown.1

/-- The owner of a token that has not expired is served. -/
theorem validate_owner (h : s.Wf) (htoken : token ∈ s.pending) (hnow : now ≤ token.expiresAt) :
    (validateAndConsume s now token.id token.userId token.sessionId).1 =
      ⟨true, "", token.toolName, token.toolInput⟩ := by
  rw [validateAndConsume, h.get htoken]
  dsimp only
  rw [if_neg (not_not.2 (h.status token htoken)), if_neg (not_lt.2 hnow), if_neg (not_not.2 rfl),
    if_neg (not_not.2 rfl), if_neg (not_not.2 (h.hash token htoken))]

theorem denied (h : s.Wf) :
    (denyToken s tokenId = (false, s) ∧ ∀ token ∈ s.pending, token.id ≠ tokenId) ∨
      (denyToken s tokenId = (true, s.pop tokenId) ∧ ∃ token ∈ s.pending, token.id = tokenId) := by
  rw [denyToken]
  cases hget : s.get tokenId with
  | none => exact Or.inl ⟨rfl, get_none hget⟩
  | some token =>
    obtain ⟨hmem, hid⟩ := mem_of_get hget
    exact Or.inr ⟨if_neg (not_not.2 (h.status token hmem)), token, hmem, hid⟩

end

/-! ## Runs -/

/-- The service, the clock, and the ids that were drawn. -/
structure System where
  service : Service
  clock : ℚ
  issued : List String

def System.start (clock : ℚ) : System := ⟨⟨[]⟩, clock, []⟩

inductive Event where
  | create (request : Request) (token : ApprovalToken)
  | validate (tokenId userId sessionId : String) (now : ℚ) (result : ApprovalResult)
  | deny (tokenId : String) (result : Bool)

/-- One call.  The clock does not go back, and a new id is not drawn twice. -/
inductive Step : System → Event → System → Prop
  | create {s : System} {cleanup now : ℚ} {id nonce : String} {request : Request} :
    s.clock ≤ cleanup → cleanup ≤ now → id ∉ s.issued →
    Step s (.create request (createToken s.service cleanup now id nonce request).1)
      ⟨(createToken s.service cleanup now id nonce request).2, now, id :: s.issued⟩
  | validate {s : System} {now : ℚ} {tokenId userId sessionId : String} : s.clock ≤ now →
    Step s (.validate tokenId userId sessionId now
        (validateAndConsume s.service now tokenId userId sessionId).1)
      ⟨(validateAndConsume s.service now tokenId userId sessionId).2, now, s.issued⟩
  | deny {s : System} {tokenId : String} :
    Step s (.deny tokenId (denyToken s.service tokenId).1)
      { s with service := (denyToken s.service tokenId).2 }

/-- The call uses the token up: an approval, or a denial that finds it. -/
def Closes (tokenId : String) : Event → Prop
  | .create _ _ => False
  | .validate id _ _ _ result => id = tokenId ∧ result.success = true
  | .deny id result => id = tokenId ∧ result = true

/-- No call has used the token up. -/
def Open (es : List Event) (tokenId : String) : Prop := ∀ e ∈ es, ¬ Closes tokenId e

section
variable {es : List Event} {e : Event} {s s' : System} {tokenId userId sessionId : String}
  {now : ℚ} {result : ApprovalResult} {request : Request} {token : ApprovalToken}

theorem open_append : Open (es ++ [e]) tokenId ↔ Open es tokenId ∧ ¬ Closes tokenId e := by
  rw [Open, List.forall_mem_append, List.forall_mem_singleton]
  rfl

/-- What the calls say about the tokens is what the service holds. -/
structure Inv (es : List Event) (s : System) : Prop where
  wf : s.service.Wf
  created : ∀ token ∈ s.service.pending, ∃ request, Event.create request token ∈ es
  made : ∀ request token, Event.create request token ∈ es →
    ∃ now id nonce, token = newToken now id nonce request
  issued : ∀ request token, Event.create request token ∈ es → token.id ∈ s.issued
  closed : ∀ tokenId, ¬ Open es tokenId → tokenId ∈ s.issued
  pending : ∀ token ∈ s.service.pending, Open es token.id
  kept : ∀ request token, Event.create request token ∈ es → Open es token.id →
    token ∈ s.service.pending ∨ token.expiresAt < s.clock

theorem inv_start {clock : ℚ} : Inv [] (.start clock) where
  wf := ⟨List.nodup_nil, List.forall_mem_nil _, List.forall_mem_nil _⟩
  created := fun _ h => absurd h List.not_mem_nil
  made := fun _ _ h => absurd h List.not_mem_nil
  issued := fun _ _ h => absurd h List.not_mem_nil
  closed := fun _ h => absurd (List.forall_mem_nil _) h
  pending := fun _ h => absurd h List.not_mem_nil
  kept := fun _ _ h => absurd h List.not_mem_nil

/-- A call that makes no token takes away what it uses up and what has expired. -/
theorem Inv.shrink (h : Inv es s) {service : Service} {clock : ℚ}
    (hcreate : ∀ request token, e ≠ .create request token) (hwf : service.Wf)
    (hclock : s.clock ≤ clock) (hsub : ∀ token ∈ service.pending, token ∈ s.service.pending)
    (hclosed : ∀ tokenId, Closes tokenId e → tokenId ∈ s.issued)
    (hopen : ∀ token ∈ service.pending, ¬ Closes token.id e)
    (hkept : ∀ token ∈ s.service.pending, ¬ Closes token.id e →
      token ∈ service.pending ∨ token.expiresAt < clock) :
    Inv (es ++ [e]) ⟨service, clock, s.issued⟩ := by
  have hold : ∀ {request token}, Event.create request token ∈ es ++ [e] →
      Event.create request token ∈ es := by
    intro request token hmem
    rcases List.mem_append.1 hmem with hmem | hmem
    · exact hmem
    · exact absurd (List.mem_singleton.1 hmem).symm (hcreate request token)
  refine ⟨hwf, ?_, ?_, ?_, ?_, ?_, ?_⟩
  · intro token htoken
    obtain ⟨request, hmem⟩ := h.created token (hsub token htoken)
    exact ⟨request, List.mem_append_left _ hmem⟩
  · exact fun request token hmem => h.made request token (hold hmem)
  · exact fun request token hmem => h.issued request token (hold hmem)
  · intro tokenId hnot
    rw [open_append, not_and_or, not_not] at hnot
    exact hnot.elim (h.closed tokenId) (hclosed tokenId)
  · intro token htoken
    exact open_append.2 ⟨h.pending token (hsub token htoken), hopen token htoken⟩
  · intro request token hmem hopen'
    obtain ⟨hes, he⟩ := open_append.1 hopen'
    rcases h.kept request token (hold hmem) hes with hpending | hexpired
    · exact hkept token hpending he
    · exact Or.inr (lt_of_lt_of_le hexpired hclock)

theorem Inv.mem_issued (h : Inv es s) (htoken : token ∈ s.service.pending) :
    token.id ∈ s.issued := by
  obtain ⟨request, hmem⟩ := h.created token htoken
  exact h.issued request token hmem

theorem Inv.create (h : Inv es s) {cleanup : ℚ} {id nonce : String} (hcleanup : s.clock ≤ cleanup)
    (hnow : cleanup ≤ now) (hid : id ∉ s.issued) :
    Inv (es ++ [.create request (createToken s.service cleanup now id nonce request).1])
      ⟨(createToken s.service cleanup now id nonce request).2, now, id :: s.issued⟩ := by
  have hnodup : ((s.service.cleanupExpired cleanup).pending.map ApprovalToken.id).Nodup :=
    h.wf.nodup.sublist (List.filter_sublist.map _)
  have hmem : ∀ token, token ∈ (createToken s.service cleanup now id nonce request).2.pending ↔
      token = newToken now id nonce request ∨
        (token ∈ (s.service.cleanupExpired cleanup).pending ∧ token.id ≠ id) :=
    fun token => Table.mem_upsert hnodup
  have hold : ∀ {token}, token ∈ (s.service.cleanupExpired cleanup).pending ↔
      token ∈ s.service.pending ∧ ¬ token.expiresAt < cleanup := by
    intro token
    rw [Service.cleanupExpired, List.mem_filter, decide_eq_true_eq]
  have hevent : ∀ {request' token}, Event.create request' token ∈ es ++
      [.create request (createToken s.service cleanup now id nonce request).1] ↔
      Event.create request' token ∈ es ∨
        (request' = request ∧ token = newToken now id nonce request) := by
    intro request' token
    rw [List.mem_append, List.mem_singleton, Event.create.injEq]
    rfl
  have hopen : ∀ {tokenId}, Open (es ++
      [.create request (createToken s.service cleanup now id nonce request).1]) tokenId ↔
      Open es tokenId := fun {tokenId} => open_append.trans (and_iff_left fun h => h)
  refine ⟨⟨Table.nodup_upsert hnodup, ?_, ?_⟩, ?_, ?_, ?_, ?_, ?_, ?_⟩
  · intro token htoken
    rcases (hmem token).1 htoken with rfl | ⟨htoken, -⟩
    · rfl
    · exact h.wf.status token (hold.1 htoken).1
  · intro token htoken
    rcases (hmem token).1 htoken with rfl | ⟨htoken, -⟩
    · rfl
    · exact h.wf.hash token (hold.1 htoken).1
  · intro token htoken
    rcases (hmem token).1 htoken with rfl | ⟨htoken, -⟩
    · exact ⟨request, hevent.2 (Or.inr ⟨rfl, rfl⟩)⟩
    · obtain ⟨request', hcreated⟩ := h.created token (hold.1 htoken).1
      exact ⟨request', hevent.2 (Or.inl hcreated)⟩
  · intro request' token hcreated
    rcases hevent.1 hcreated with hcreated | ⟨rfl, rfl⟩
    · exact h.made request' token hcreated
    · exact ⟨now, id, nonce, rfl⟩
  · intro request' token hcreated
    rcases hevent.1 hcreated with hcreated | ⟨rfl, rfl⟩
    · exact List.mem_cons_of_mem _ (h.issued request' token hcreated)
    · exact List.mem_cons_self
  · intro tokenId hnot
    exact List.mem_cons_of_mem _ (h.closed tokenId fun hes => hnot (hopen.2 hes))
  · intro token htoken
    rcases (hmem token).1 htoken with rfl | ⟨htoken, -⟩
    · exact hopen.2 (not_not.1 fun hnot => hid (h.closed id hnot))
    · exact hopen.2 (h.pending token (hold.1 htoken).1)
  · intro request' token hcreated htoken
    rcases hevent.1 hcreated with hcreated | ⟨rfl, rfl⟩
    · rcases h.kept request' token hcreated (hopen.1 htoken) with hpending | hexpired
      · by_cases hlate : token.expiresAt < cleanup
        · exact Or.inr (lt_of_lt_of_le hlate hnow)
        · refine Or.inl ((hmem token).2 (Or.inr ⟨hold.2 ⟨hpending, hlate⟩, ?_⟩))
          rintro rfl
          exact hid (h.mem_issued hpending)
      · exact Or.inr (lt_of_lt_of_le hexpired (hcleanup.trans hnow))
    · exact Or.inl ((hmem _).2 (Or.inl rfl))

theorem Inv.validate (h : Inv es s) (hclock : s.clock ≤ now) {service : Service}
    (hv : Validated s.service now tokenId userId sessionId result service) :
    Inv (es ++ [.validate tokenId userId sessionId now result]) ⟨service, now, s.issued⟩ := by
  have hpop : ∀ token ∈ (s.service.pop tokenId).pending, token ∈ s.service.pending :=
    fun token htoken => (mem_pop.1 htoken).1
  cases hv with
  | missing hmissing =>
    refine h.shrink (fun _ _ => Event.noConfusion) h.wf hclock (fun _ => id) ?_ ?_ ?_
    · rintro _ ⟨-, hfail⟩
      exact absurd hfail Bool.false_ne_true
    · rintro _ _ ⟨-, hfail⟩
      exact absurd hfail Bool.false_ne_true
    · exact fun token htoken _ => Or.inl htoken
  | @expired token htoken hid hlate =>
    refine h.shrink (fun _ _ => Event.noConfusion) (wf_pop h.wf) hclock hpop ?_ ?_ ?_
    · rintro _ ⟨-, hfail⟩
      exact absurd hfail Bool.false_ne_true
    · rintro _ _ ⟨-, hfail⟩
      exact absurd hfail Bool.false_ne_true
    · intro token' htoken' _
      by_cases hid' : token'.id = tokenId
      · rw [List.inj_on_of_nodup_map h.wf.nodup htoken' htoken (hid'.trans hid.symm)]
        exact Or.inr hlate
      · exact Or.inl (mem_pop.2 ⟨htoken', hid'⟩)
  | foreign htoken hid hother =>
    refine h.shrink (fun _ _ => Event.noConfusion) h.wf hclock (fun _ => id) ?_ ?_ ?_
    · rintro _ ⟨-, hfail⟩
      exact absurd hfail Bool.false_ne_true
    · rintro _ _ ⟨-, hfail⟩
      exact absurd hfail Bool.false_ne_true
    · exact fun token htoken _ => Or.inl htoken
  | @consumed token htoken hid hnow huser hsession =>
    refine h.shrink (fun _ _ => Event.noConfusion) (wf_pop h.wf) hclock hpop ?_ ?_ ?_
    · rintro _ ⟨rfl, -⟩
      exact hid ▸ h.mem_issued htoken
    · rintro token' htoken' ⟨hid', -⟩
      exact (mem_pop.1 htoken').2 hid'.symm
    · intro token' htoken' hcloses
      exact Or.inl (mem_pop.2 ⟨htoken', fun hid' => hcloses ⟨hid'.symm, rfl⟩⟩)

theorem Inv.deny (h : Inv es s) : Inv (es ++ [.deny tokenId (denyToken s.service tokenId).1])
    { s with service := (denyToken s.service tokenId).2 } := by
  rcases @denied _ tokenId h.wf with ⟨hdeny, hmissing⟩ | ⟨hdeny, token, htoken, hid⟩
  · rw [hdeny]
    refine h.shrink (fun _ _ => Event.noConfusion) h.wf le_rfl (fun _ => id) ?_ ?_ ?_
    · rintro _ ⟨-, hfail⟩
      exact absurd hfail Bool.false_ne_true
    · rintro _ _ ⟨-, hfail⟩
      exact absurd hfail Bool.false_ne_true
    · exact fun token htoken _ => Or.inl htoken
  · rw [hdeny]
    refine h.shrink (fun _ _ => Event.noConfusion) (wf_pop h.wf) le_rfl
      (fun token htoken => (mem_pop.1 htoken).1) ?_ ?_ ?_
    · rintro _ ⟨rfl, -⟩
      exact hid ▸ h.mem_issued htoken
    · rintro token' htoken' ⟨hid', -⟩
      exact (mem_pop.1 htoken').2 hid'.symm
    · intro token' htoken' hcloses
      exact Or.inl (mem_pop.2 ⟨htoken', fun hid' => hcloses ⟨hid'.symm, rfl⟩⟩)

theorem inv_step (h : Inv es s) (hstep : Step s e s') : Inv (es ++ [e]) s' := by
  cases hstep with
  | create hcleanup hnow hid => exact h.create hcleanup hnow hid
  | validate hclock => exact h.validate hclock (validated h.wf)
  | deny => exact h.deny

theorem inv_run {clock : ℚ} (h : Run Step (.start clock) es s) : Inv es s :=
  h.history inv_start fun _ hinv hstep => inv_step hinv hstep

theorem step_validate (h : Step s (.validate tokenId userId sessionId now result) s') :
    (validateAndConsume s.service now tokenId userId sessionId).1 = result := by
  cases h with
  | validate => rfl

/-- **Of any calls, an approval is of a token that was made for just this user and session,
    has not expired and was not approved or denied before, and returns the tool and input of
    its request; every other answer returns no input; and a token that was not used up and
    has not expired is approved for its owner.** -/
theorem approval_tokens {clock : ℚ} (h : Run Step (.start clock) es s) :
    (∀ tokenId userId sessionId now result s',
      Step s (.validate tokenId userId sessionId now result) s' →
      if result.success = true then
        Open es tokenId ∧ ∃ request token, Event.create request token ∈ es ∧
          token.id = tokenId ∧ request.userId = userId ∧ request.sessionId = sessionId ∧
          now ≤ token.expiresAt ∧ result.toolName = request.toolName ∧
          result.toolInput = request.toolInput
      else result.toolName = "" ∧ result.toolInput = .obj []) ∧
    ∀ request token, Event.create request token ∈ es → Open es token.id → ∀ now,
      s.clock ≤ now → now ≤ token.expiresAt →
        (validateAndConsume s.service now token.id request.userId request.sessionId).1 =
          ⟨true, "", request.toolName, request.toolInput⟩ := by
  have hinv := inv_run h
  refine ⟨?_, ?_⟩
  · intro tokenId userId sessionId now result s' hstep
    obtain ⟨service, hv⟩ : ∃ service,
        Validated s.service now tokenId userId sessionId result service :=
      ⟨_, step_validate hstep ▸ validated hinv.wf⟩
    cases hv with
    | missing => exact ⟨rfl, rfl⟩
    | expired => exact ⟨rfl, rfl⟩
    | foreign => exact ⟨rfl, rfl⟩
    | consumed htoken hid hnow huser hsession =>
      obtain ⟨request, hcreated⟩ := hinv.created _ htoken
      obtain ⟨_, _, _, hmade⟩ := hinv.made request _ hcreated
      rw [if_pos rfl]
      refine ⟨hid ▸ hinv.pending _ htoken, request, _, hcreated, hid, ?_, ?_, hnow, ?_, ?_⟩
      · rw [← huser, hmade]
        rfl
      · rw [← hsession, hmade]
        rfl
      · rw [hmade]
        rfl
      · rw [hmade]
        rfl
  · intro request token hcreated hopen now hclock hnow
    obtain ⟨_, _, _, hmade⟩ := hinv.made request token hcreated
    rcases hinv.kept request token hcreated hopen with hpending | hexpired
    · have howner := validate_owner hinv.wf hpending hnow
      rw [hmade] at howner ⊢
      exact howner
    · exact absurd (lt_of_lt_of_le hexpired hclock) (not_lt.2 hnow)

def stopTunnel : Request := ⟨"alice", "session", "stop_public_tunnel", .obj [], ""⟩

/-- Another user's attempt leaves a token to its owner. -/
theorem approval_tokens_attempt :
    let created := createToken ⟨[]⟩ 0 0 "id" "nonce" stopTunnel
    let tried := validateAndConsume created.2 10 "id" "mallory" "session"
    tried.1.success = false ∧ (validateAndConsume tried.2 20 "id" "alice" "session").1 =
      ⟨true, "", "stop_public_tunnel", .obj []⟩ := by
  intro created tried
  have hcreate : Step (.start 0) (.create stopTunnel created.1) ⟨created.2, 0, ["id"]⟩ :=
    .create le_rfl le_rfl List.not_mem_nil
  have htry : Step ⟨created.2, 0, ["id"]⟩ (.validate "id" "mallory" "session" 10 tried.1)
      ⟨tried.2, 10, ["id"]⟩ := .validate (by norm_num)
  have hfail : tried.1.success = false := by decide +kernel
  have hrun : Run Step (.start 0) [_, _] _ := .cons hcreate (.cons htry .nil)
  have hopen : Open [.create stopTunnel created.1,
      .validate "id" "mallory" "session" 10 tried.1] created.1.id := by
    rintro e he hcloses
    rcases List.mem_pair.1 he with rfl | rfl
    · exact hcloses
    · exact Bool.false_ne_true (hfail.symm.trans hcloses.2)
  refine ⟨hfail, ?_⟩
  exact (approval_tokens hrun).2 stopTunnel created.1 List.mem_cons_self hopen 20 (by norm_num)
    (by decide +kernel)

end

end Approval

end AimData
