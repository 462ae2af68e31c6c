/-
  Entitlement tokens for raw file downloads, and the store of their nonces.

  The expiry of a token is compared with one reading of the clock, expired nonces are
  dropped with a later one, and the replay check comes last.  A token that expires between
  the two readings is accepted again when it is in flight twice (`accepted_twice`): no
  nonce is accepted twice exactly when no nonce is checked that a purge has dropped
  (`accepted_once_iff`).
-/
import AimData.Lib.Base64
import AimData.Lib.JsonBytes
import AimData.Lib.Sha256
import AimData.Publish.RawListing

namespace AimData

namespace Entitlement

/-! ## Tokens -/

/-- A Python `float`. -/
inductive PyFloat where
  | nan
  | negInf
  | fin (x : ℚ)
  | inf
  deriving DecidableEq

/-- `now > expires_at` -/
def Past (now : ℚ) : PyFloat → Prop
  | .nan | .inf => False
  | .negInf => True
  | .fin x => x < now

instance (now : ℚ) : (expiresAt : PyFloat) → Decidable (Past now expiresAt)
  | .nan | .inf => inferInstanceAs (Decidable False)
  | .negInf => inferInstanceAs (Decidable True)
  | .fin x => inferInstanceAs (Decidable (x < now))

/-- The two settings that the secret is derived from. -/
structure Settings where
  internalApiKey : Option String
  keystorePassphrase : Option String

def nonEmpty : Option String → Bool
  | none => false
  | some s => s ≠ ""

/-- `_derive_shared_secret` -/
def deriveSharedSecret (settings : Settings) : Except Raised Bytes :=
  let ikm := if nonEmpty settings.internalApiKey then settings.internalApiKey
    else settings.keystorePassphrase
  if nonEmpty ikm then
    let salt := Utf8.encode "vectoraiz-entitlement-v1".toList
    let prk := (hmacSha256 salt (Utf8.encode (ikm.getD "").toList)).1
    let info := Utf8.encode "raw-file-download".toList
    .ok (hmacSha256 prk (info ++ [1])).1
  else
    raise "RuntimeError"
      "No install token or keystore passphrase configured for entitlement signing"

/-- `base64.urlsafe_b64decode(text + "==")` -/
def urlsafeB64decode (text : List Char) : Option Bytes :=
  if text.all (·.toNat < 128) then Base64Url.decodeLenient (text ++ ['=', '=']) else none

def required : List String :=
  ["order_id", "listing_id", "file_hash", "issued_at", "expires_at", "nonce"]

/-- `field in payload` -/
def contains (field : String) : Json → Except Raised Bool
  | .obj fields => .ok (fields.lookup field).isSome
  | .arr l => .ok (l.any (· = .str field))
  | .str s => .ok (s.toList.tails.any (field.toList.isPrefixOf ·))
  | v => raise "TypeError" s!"argument of type '{RawListings.typeName v}' is not iterable"

def checkRequired (payload : Json) : List String → Except Raised Unit
  | [] => .ok ()
  | field :: rest => do
    if ← contains field payload then checkRequired payload rest
    else raise "ValueError" s!"Missing required field: {field}"

/-- The payload of a token whose signature is right. -/
def openToken (secret : Bytes) (payloadB64 sigB64 : List Char) : Except Raised Json :=
  match urlsafeB64decode sigB64 with
  | none => raise "ValueError" "Invalid signature encoding"
  | some providedSig =>
    if (hmacSha256 secret (Utf8.encode payloadB64)).1 ≠ providedSig then
      raise "ValueError" "Invalid entitlement token signature"
    else
      match (urlsafeB64decode payloadB64).bind (Json.loadBytes Json.dict) with
      | none => raise "ValueError" "Invalid entitlement token payload"
      | some payload => do
        checkRequired payload required
        return payload

/-- `validate_entitlement` up to the clock. -/
def decodeHeader (settings : Settings) (authorizationHeader : String) : Except Raised Json :=
  if ¬ "Bearer ".toList.isPrefixOf authorizationHeader.toList then
    raise "ValueError" "Missing or invalid Authorization header"
  else
    match (authorizationHeader.toList.drop 7).splitOn '.' with
    | [payloadB64, sigB64] =>
      match deriveSharedSecret settings with
      | .error e => raise "ValueError" s!"Server configuration error: {e.message}"
      | .ok secret => openToken secret payloadB64 sigB64
    | _ => raise "ValueError" "Malformed entitlement token"

/-- `payload["field"]`; the required fields of a dictionary are there. -/
def item (field : String) : Json → Json
  | .obj fields => (fields.lookup field).getD .null
  | _ => .null

/-- What a value is as a key of a dictionary. -/
inductive Key where
  | none
  | number (x : PyFloat)
  | text (s : String)
  deriving DecidableEq

section

-- `float` of a value, with its error
variable (float : Json → Except Raised PyFloat)

def readExpiry (payload : Json) : Except Raised PyFloat :=
  match payload with
  | .obj _ =>
    match float (item "expires_at" payload) with
    | .error e =>
      if e.type = "ValueError" ∨ e.type = "TypeError" then
        raise "ValueError" "Invalid expires_at value"
      else .error e
    | .ok expiresAt => .ok expiresAt
  | _ => raise "ValueError" "Invalid expires_at value"

/-- `validate_entitlement` up to the replay check, with the clock's reading. -/
def admitted (settings : Settings) (authorizationHeader : String) (now : ℚ) :
    Except Raised (Json × PyFloat) := do
  let payload ← decodeHeader settings authorizationHeader
  let expiresAt ← readExpiry float payload
  if Past now expiresAt then raise "ValueError" "Entitlement token has expired"
  else return (payload, expiresAt)

/-- The key of a nonce: numbers that are equal are one key. -/
def nonceKey : Json → Except Raised Key
  | .null => .ok .none
  | .bool b => .ok (.number (.fin (if b then 1 else 0)))
  | .int i => .ok (.number (.fin i))
  | .float text => (float (.float text)).map .number
  | .str s => .ok (.text s)
  | .arr _ => raise "TypeError" "unhashable type: 'list'"
  | .obj _ => raise "TypeError" "unhashable type: 'dict'"

end

/-! ## The nonce store -/

/-- The nonces with the expiry of their tokens. -/
abbrev NonceStore := Key → Option PyFloat

/-- `_cleanup_expired_nonces`, with the clock's reading. -/
def cleanupExpiredNonces (now : ℚ) (store : NonceStore) : NonceStore :=
  fun nonce => (store nonce).filter fun expiresAt => ¬ Past now expiresAt

/-- `_check_and_store_nonce` behind the cleanup. -/
def checkAndStoreNonce (nonce : Key) (expiresAt : PyFloat) (store : NonceStore) :
    Bool × NonceStore :=
  if (store nonce).isSome then (false, store)
  else (true, Function.update store nonce (some expiresAt))

/-! ## Calls that overlap -/

/-- How far a call is: its token is not expired at `readAt`; it has read the clock for the
    cleanup; it has cleaned up; it has ended. -/
inductive Phase where
  | idle
  | unexpired (payload : Json) (expiresAt : PyFloat) (readAt : ℚ)
  | cleaning (payload : Json) (expiresAt : PyFloat) (readAt now : ℚ)
  | cleaned (payload : Json) (expiresAt : PyFloat) (readAt : ℚ)
  | returned (payload : Json)
  | raised (e : Raised)

/-- What has happened to the store. -/
inductive Entry where
  | accepted (nonce : Key) (expiresAt : PyFloat) (readAt : ℚ)
  | cleaned (now : ℚ)

/-- The clock, the store, the calls by their number, and what has happened, the latest
    first. -/
structure World where
  clock : ℚ
  store : NonceStore
  calls : ℕ → Phase
  log : List Entry

inductive Event where
  | tick (clock : ℚ)
  | validate (call : ℕ) (authorizationHeader : String)
  | readClock (call : ℕ)
  | cleanup (call : ℕ)
  | check (call : ℕ)

def World.setCall (w : World) (call : ℕ) (phase : Phase) : World :=
  { w with calls := Function.update w.calls call phase }

section

variable (float : Json → Except Raised PyFloat) (settings : Settings)

/-- The replay check of a call, and its end. -/
def World.finish (w : World) (call : ℕ) (payload : Json) (expiresAt : PyFloat) (readAt : ℚ) :
    World :=
  match nonceKey float (item "nonce" payload) with
  | .error e => w.setCall call (.raised e)
  | .ok nonce =>
    match checkAndStoreNonce nonce expiresAt w.store with
    | (false, _) =>
      w.setCall call
        (.raised ⟨"ValueError", "Entitlement token has already been used (replay detected)"⟩)
    | (true, store) =>
      { w.setCall call (.returned payload) with
        store := store
        log := .accepted nonce expiresAt readAt :: w.log }

def step (w : World) : Event → Option World
  | .tick clock => if w.clock ≤ clock then some { w with clock := clock } else none
  | .validate call authorizationHeader =>
    match w.calls call with
    | .idle =>
      match admitted float settings authorizationHeader w.clock with
      | .error e => some (w.setCall call (.raised e))
      | .ok (payload, expiresAt) => some (w.setCall call (.unexpired payload expiresAt w.clock))
    | _ => none
  | .readClock call =>
    match w.calls call with
    | .unexpired payload expiresAt readAt =>
      some (w.setCall call (.cleaning payload expiresAt readAt w.clock))
    | _ => none
  | .cleanup call =>
    match w.calls call with
    | .cleaning payload expiresAt readAt now =>
      some { w.setCall call (.cleaned payload expiresAt readAt) with
        store := cleanupExpiredNonces now w.store
        log := .cleaned now :: w.log }
    | _ => none
  | .check call =>
    match w.calls call with
    | .cleaned payload expiresAt readAt => some (w.finish float call payload expiresAt readAt)
    | _ => none

def Step (w : World) (e : Event) (w' : World) : Prop := step float settings w e = some w'

end

/-- A service that has just been made. -/
structure Start (w : World) : Prop where
  store : ∀ nonce, w.store nonce = none
  calls : ∀ call, w.calls call = .idle
  log : w.log = []

/-! ## What the log says -/

/-- The nonces of the accepted tokens. -/
def acceptedNonces (log : List Entry) : List Key :=
  log.filterMap fun
    | .accepted nonce _ _ => some nonce
    | .cleaned _ => none

/-- The expiry of the token that a nonce was last accepted with. -/
def lastExpiry : List Entry → Key → Option PyFloat
  | [], _ => none
  | .accepted nonce expiresAt _ :: log, k => if nonce = k then some expiresAt else lastExpiry log k
  | .cleaned _ :: log, k => lastExpiry log k

/-- Since the nonce was last accepted, a cleanup has read the clock past its token's expiry. -/
def Forgotten : List Entry → Key → Prop
  | [], _ => False
  | .accepted nonce _ _ :: log, k => nonce ≠ k ∧ Forgotten log k
  | .cleaned now :: log, k =>
    Forgotten log k ∨ ∃ expiresAt, lastExpiry log k = some expiresAt ∧ Past now expiresAt

/-- No call makes its replay check for a nonce that a cleanup has dropped since it was
    accepted. -/
def Remembers (float : Json → Except Raised PyFloat) (w : World) : Event → Prop
  | .check call =>
    ∀ payload expiresAt readAt nonce, w.calls call = .cleaned payload expiresAt readAt →
      nonceKey float (item "nonce" payload) = .ok nonce → ¬ Forgotten w.log nonce
  | _ => True

/-- What the service promises of the tokens it has accepted: no two have one nonce, none
    was expired when its call read the clock, and the store holds no other nonces. -/
structure Sound (w : World) : Prop where
  once : (acceptedNonces w.log).Nodup
  unexpired : ∀ nonce expiresAt readAt, .accepted nonce expiresAt readAt ∈ w.log →
    ¬ Past readAt expiresAt
  unconsumed : ∀ nonce, (w.store nonce).isSome → nonce ∈ acceptedNonces w.log

/-! ## The store and the log -/

section

variable {log : List Entry} {k : Key}

theorem lastExpiry_isSome : (lastExpiry log k).isSome ↔ k ∈ acceptedNonces log := by
  induction log with
  | nil => simp [lastExpiry, acceptedNonces]
  | cons entry log ih =>
    cases entry with
    | accepted nonce expiresAt readAt =>
      rw [lastExpiry]
      by_cases hk : nonce = k
      · simp [hk, acceptedNonces]
      · rw [if_neg hk, ih]
        simp [acceptedNonces, Ne.symm hk]
    | cleaned now =>
      rw [lastExpiry, ih]
      simp [acceptedNonces]

theorem Forgotten.mem (h : Forgotten log k) : k ∈ acceptedNonces log := by
  induction log with
  | nil => cases h
  | cons entry log ih =>
    cases entry with
    | accepted nonce expiresAt readAt =>
      have hmem := ih h.2
      simp only [acceptedNonces, List.filterMap_cons, List.mem_cons]
      exact Or.inr hmem
    | cleaned now =>
      rcases h with h | ⟨expiresAt, hlast, -⟩
      · simpa [acceptedNonces] using ih h
      · have hmem := lastExpiry_isSome.1 (Option.isSome_iff_exists.2 ⟨_, hlast⟩)
        simpa [acceptedNonces] using hmem

/-- The store that the log leads to. -/
def stored : List Entry → NonceStore
  | [] => fun _ => none
  | .accepted nonce expiresAt _ :: log => Function.update (stored log) nonce (some expiresAt)
  | .cleaned now :: log => cleanupExpiredNonces now (stored log)

/-- A nonce in the store has the expiry it was last accepted with. -/
theorem stored_eq_some {expiresAt : PyFloat} (h : stored log k = some expiresAt) :
    lastExpiry log k = some expiresAt := by
  induction log with
  | nil => cases h
  | cons entry log ih =>
    cases entry with
    | accepted nonce e readAt =>
      rw [stored] at h
      rw [lastExpiry]
      by_cases hk : nonce = k
      · rw [hk, Function.update_self] at h
        rw [if_pos hk, h]
      · rw [Function.update_of_ne (Ne.symm hk)] at h
        rw [if_neg hk, ih h]
    | cleaned now =>
      exact ih (Option.filter_eq_some_iff.1 h).1

/-- **A nonce is not in the store if it was never accepted or is forgotten.** -/
theorem stored_eq_none : stored log k = none ↔ k ∉ acceptedNonces log ∨ Forgotten log k := by
  induction log with
  | nil => simp [stored, acceptedNonces]
  | cons entry log ih =>
    cases entry with
    | accepted nonce expiresAt readAt =>
      rw [stored, Forgotten]
      by_cases hk : nonce = k
      · simp [hk, acceptedNonces]
      · rw [Function.update_of_ne (Ne.symm hk), ih]
        simp [acceptedNonces, hk, Ne.symm hk]
    | cleaned now =>
      have hnonces : acceptedNonces (.cleaned now :: log) = acceptedNonces log := rfl
      rw [stored, Forgotten, hnonces]
      rcases hstored : stored log k with _ | expiresAt
      · rw [cleanupExpiredNonces, hstored]
        have hnone := ih.1 hstored
        simp only [Option.filter_none, true_iff]
        exact hnone.imp_right Or.inl
      · have hmem : ¬ (k ∉ acceptedNonces log ∨ Forgotten log k) := by
          rw [← ih, hstored]
          exact Option.some_ne_none _
        obtain ⟨haccepted, hforgotten⟩ := not_or.1 hmem
        rw [cleanupExpiredNonces, hstored, stored_eq_some hstored]
        by_cases hpast : Past now expiresAt
        · simp [hpast]
        · simp [hpast, haccepted, hforgotten]

end

/-! ## One step -/

section

variable {float : Json → Except Raised PyFloat} {settings : Settings} {w w' : World} {e : Event}

/-- The token of the call was not expired when its call read the clock. -/
def Phase.Unexpired : Phase → Prop
  | .unexpired _ expiresAt readAt | .cleaning _ expiresAt readAt _ | .cleaned _ expiresAt readAt =>
    ¬ Past readAt expiresAt
  | _ => True

structure Inv (w : World) : Prop where
  store : ∀ nonce, w.store nonce = stored w.log nonce
  calls : ∀ call, (w.calls call).Unexpired
  log : ∀ nonce expiresAt readAt, .accepted nonce expiresAt readAt ∈ w.log → ¬ Past readAt expiresAt

theorem Start.inv (h : Start w) : Inv w := by
  refine ⟨fun nonce => ?_, fun call => ?_, ?_⟩
  · rw [h.store, h.log, stored]
  · rw [h.calls]
    trivial
  · rw [h.log]
    rintro nonce expiresAt readAt ⟨⟩

theorem admit_ok {header : String} {now : ℚ} {payload : Json} {expiresAt : PyFloat}
    (h : admitted float settings header now = .ok (payload, expiresAt)) : ¬ Past now expiresAt := by
  obtain ⟨p, -, h⟩ := Except.bind_eq_ok.1 h
  obtain ⟨x, -, h⟩ := Except.bind_eq_ok.1 h
  split_ifs at h with hpast
  · cases h
  · cases h
    exact hpast

theorem unexpired_setCall (h : ∀ call, (w.calls call).Unexpired) (call : ℕ) (phase : Phase)
    (hphase : phase.Unexpired) (c : ℕ) : (Function.update w.calls call phase c).Unexpired := by
  by_cases hc : c = call
  · rw [hc, Function.update_self]
    exact hphase
  · rw [Function.update_of_ne hc]
    exact h c

variable (float w) in
/-- The replay check accepts a nonce that is not in the store, and nothing else changes the
    log. -/
theorem finish_cases (call : ℕ) (payload : Json) (expiresAt : PyFloat) (readAt : ℚ) :
    (∃ e, w.finish float call payload expiresAt readAt = w.setCall call (.raised e) ∧
      ∀ nonce, nonceKey float (item "nonce" payload) = .ok nonce → (w.store nonce).isSome) ∨
    ∃ nonce, nonceKey float (item "nonce" payload) = .ok nonce ∧ w.store nonce = none ∧
      w.finish float call payload expiresAt readAt =
        { w.setCall call (.returned payload) with
          store := Function.update w.store nonce (some expiresAt)
          log := .accepted nonce expiresAt readAt :: w.log } := by
  rw [World.finish]
  rcases hkey : nonceKey float (item "nonce" payload) with e | nonce
  · exact Or.inl ⟨e, rfl, fun nonce h => nomatch h⟩
  · dsimp only
    rw [checkAndStoreNonce]
    by_cases hstore : (w.store nonce).isSome
    · rw [if_pos hstore]
      refine Or.inl ⟨_, rfl, ?_⟩
      rintro _ ⟨⟩
      exact hstore
    · rw [if_neg hstore]
      exact Or.inr ⟨nonce, rfl, Option.not_isSome_iff_eq_none.1 hstore, rfl⟩

/-- What a step does to the store and the log. -/
inductive Change (float : Json → Except Raised PyFloat) (w : World) :
    Event → NonceStore → List Entry → Prop
  | same (e : Event) (h : ∀ call payload expiresAt readAt nonce, e = .check call →
      w.calls call = .cleaned payload expiresAt readAt →
      nonceKey float (item "nonce" payload) = .ok nonce → (w.store nonce).isSome) :
    Change float w e w.store w.log
  | cleaned (call : ℕ) (now : ℚ) :
    Change float w (.cleanup call) (cleanupExpiredNonces now w.store) (.cleaned now :: w.log)
  | accepted {call : ℕ} {payload : Json} {expiresAt : PyFloat} {readAt : ℚ} {nonce : Key} :
    w.calls call = .cleaned payload expiresAt readAt →
    nonceKey float (item "nonce" payload) = .ok nonce → w.store nonce = none →
    Change float w (.check call) (Function.update w.store nonce (some expiresAt))
      (.accepted nonce expiresAt readAt :: w.log)

theorem step_change (h : Step float settings w e w') : Change float w e w'.store w'.log := by
  cases e with
  | tick clock =>
    rw [Step, step] at h
    split_ifs at h with hclock
    cases h
    exact .same _ (by rintro call payload expiresAt readAt nonce ⟨⟩)
  | validate call header =>
    rw [Step, step] at h
    split at h
    · split at h <;> cases h <;> exact .same _ (by rintro call payload expiresAt readAt nonce ⟨⟩)
    · cases h
  | readClock call =>
    rw [Step, step] at h
    split at h
    · cases h
      exact .same _ (by rintro call payload expiresAt readAt nonce ⟨⟩)
    · cases h
  | cleanup call =>
    rw [Step, step] at h
    split at h
    · cases h
      exact .cleaned call _
    · cases h
  | check call =>
    rw [Step, step] at h
    split at h
    · rename_i payload expiresAt readAt hcall
      cases h
      rcases finish_cases float w call payload expiresAt readAt
        with ⟨e, hfinish, hstored⟩ | ⟨nonce, hkey, hnone, hfinish⟩
      · rw [hfinish]
        refine .same _ ?_
        rintro c p x t nonce ⟨⟩ hc hkey
        rw [hcall] at hc
        cases hc
        exact hstored nonce hkey
      · rw [hfinish]
        exact .accepted hcall hkey hnone
    · cases h

/-- A call that goes on was admitted. -/
theorem step_unexpired (hcalls : ∀ call, (w.calls call).Unexpired)
    (h : Step float settings w e w') (c : ℕ) : (w'.calls c).Unexpired := by
  cases e with
  | tick clock =>
    rw [Step, step] at h
    split_ifs at h with hclock
    cases h
    exact hcalls c
  | validate call header =>
    rw [Step, step] at h
    split at h
    · split at h
      · cases h
        exact unexpired_setCall hcalls call _ (by trivial) c
      · rename_i payload expiresAt hadmit
        cases h
        exact unexpired_setCall hcalls call (.unexpired payload expiresAt w.clock)
          (admit_ok hadmit) c
    · cases h
  | readClock call =>
    rw [Step, step] at h
    split at h
    · rename_i payload expiresAt readAt hcall
      cases h
      have hunexpired := hcalls call
      rw [hcall] at hunexpired
      exact unexpired_setCall hcalls call (.cleaning payload expiresAt readAt w.clock) hunexpired c
    · cases h
  | cleanup call =>
    rw [Step, step] at h
    split at h
    · rename_i payload expiresAt readAt now hcall
      cases h
      have hunexpired := hcalls call
      rw [hcall] at hunexpired
      exact unexpired_setCall hcalls call (.cleaned payload expiresAt readAt) hunexpired c
    · cases h
  | check call =>
    rw [Step, step] at h
    split at h
    · rename_i payload expiresAt readAt hcall
      cases h
      rcases finish_cases float w call payload expiresAt readAt
        with ⟨e, hfinish, -⟩ | ⟨nonce, -, -, hfinish⟩ <;> rw [hfinish]
      · exact unexpired_setCall hcalls call _ (by trivial) c
      · exact unexpired_setCall hcalls call _ (by trivial) c
    · cases h

theorem Inv.step (hinv : Inv w) (h : Step float settings w e w') : Inv w' := by
  have hchange := step_change h
  have hcalls := step_unexpired hinv.calls h
  have hstore : w.store = stored w.log := funext hinv.store
  obtain ⟨clock, store, calls, log⟩ := w'
  cases hchange with
  | same => exact ⟨hinv.store, hcalls, hinv.log⟩
  | cleaned call now =>
    refine ⟨fun nonce => ?_, hcalls, ?_⟩
    · show cleanupExpiredNonces now w.store nonce = stored (.cleaned now :: w.log) nonce
      rw [hstore, stored]
    · intro nonce expiresAt readAt hmem
      exact hinv.log nonce expiresAt readAt (by simpa using hmem)
  | @accepted call payload x t nonce hcall hkey hnone =>
    refine ⟨fun k => ?_, hcalls, ?_⟩
    · show Function.update w.store nonce (some x) k = stored (.accepted nonce x t :: w.log) k
      rw [hstore, stored]
    · intro nonce expiresAt readAt hmem
      rcases List.mem_cons.1 hmem with heq | hmem
      · cases heq
        have hunexpired := hinv.calls call
        rw [hcall] at hunexpired
        exact hunexpired
      · exact hinv.log nonce expiresAt readAt hmem

/-- A step accepts a nonce again iff it checks one that a cleanup has dropped. -/
theorem step_once (hinv : Inv w) (h : Step float settings w e w')
    (honce : (acceptedNonces w.log).Nodup) :
    (acceptedNonces w'.log).Nodup ↔ Remembers float w e := by
  have hchange := step_change h
  obtain ⟨clock, store, calls, log⟩ := w'
  cases hchange with
  | same _ hstored =>
    refine iff_of_true honce ?_
    cases e with
    | check call =>
      intro payload expiresAt readAt nonce hcall hkey hforgotten
      have hsome := hstored call payload expiresAt readAt nonce rfl hcall hkey
      rw [hinv.store, stored_eq_none.2 (Or.inr hforgotten)] at hsome
      cases hsome
    | _ => trivial
  | cleaned call now => exact iff_of_true honce trivial
  | @accepted call payload x t nonce hcall hkey hnone =>
    have hnonces : acceptedNonces (.accepted nonce x t :: w.log) = nonce :: acceptedNonces w.log :=
      rfl
    have hmem : nonce ∉ acceptedNonces w.log ↔ ¬ Forgotten w.log nonce := by
      rw [hinv.store, stored_eq_none] at hnone
      constructor
      · exact fun h hforgotten => h hforgotten.mem
      · exact fun h => hnone.resolve_right h
    rw [hnonces, List.nodup_cons, hmem]
    constructor
    · rintro ⟨hnot, -⟩ p y u k hc hk
      rw [hcall] at hc
      cases hc
      rw [hkey] at hk
      cases hk
      exact hnot
    · intro hremembers
      exact ⟨hremembers payload x t nonce hcall hkey, honce⟩

/-- The accepted tokens of a run are accepted in the runs that go on from it. -/
theorem acceptedNonces_sublist (h : Step float settings w e w') :
    (acceptedNonces w.log).Sublist (acceptedNonces w'.log) := by
  have hchange := step_change h
  obtain ⟨clock, store, calls, log⟩ := w'
  cases hchange with
  | same => exact .refl _
  | cleaned => exact .refl _
  | accepted => exact List.sublist_cons_self _ _

theorem Inv.sound (hinv : Inv w) (honce : (acceptedNonces w.log).Nodup) : Sound w := by
  refine ⟨honce, hinv.log, ?_⟩
  intro nonce hstored
  rw [hinv.store] at hstored
  obtain ⟨x, hx⟩ := Option.isSome_iff_exists.1 hstored
  exact lastExpiry_isSome.1 (Option.isSome_iff_exists.2 ⟨x, stored_eq_some hx⟩)

end

/-! ## Signed tokens -/

/-- The header of a payload text with its signature. -/
def signedHeader (secret : Bytes) (payloadB64 : List Char) : String :=
  String.ofList ("Bearer ".toList ++ (payloadB64 ++
    '.' :: Base64Url.encodeChars (hmacSha256 secret (Utf8.encode payloadB64)).1))

/-- The header that the marketplace makes for a payload. -/
def issueHeader (secret : Bytes) (payload : Json) : String :=
  signedHeader secret (Base64Url.encodeChars (Utf8.encode payload.dumps))

theorem mem_encodeChars {b : Bytes} {c : Char} (h : c ∈ Base64Url.encodeChars b) :
    c ≠ '.' ∧ c.toNat < 128 := by
  have hall : ∀ n : Fin 64, Base64Url.char n ≠ '.' ∧ (Base64Url.char n).toNat < 128 := by
    decide +kernel
  rw [Base64Url.encodeChars_eq] at h
  obtain ⟨n, hn, rfl⟩ := List.mem_map.1 h
  exact hall ⟨n, Base64Url.toSextets_lt b n hn⟩

theorem urlsafeB64decode_encodeChars (b : Bytes) :
    urlsafeB64decode (Base64Url.encodeChars b) = some b := by
  have hascii : (Base64Url.encodeChars b).all (·.toNat < 128) = true := by
    rw [List.all_eq_true]
    intro c hc
    exact decide_eq_true (mem_encodeChars hc).2
  rw [urlsafeB64decode, if_pos hascii, Base64Url.decodeLenient_encodeChars]

theorem splitOn_token (b b' : Bytes) :
    (Base64Url.encodeChars b ++ '.' :: Base64Url.encodeChars b').splitOn '.' =
      [Base64Url.encodeChars b, Base64Url.encodeChars b'] := by
  have hdot (b : Bytes) : ∀ c ∈ Base64Url.encodeChars b, (c == '.') = false := by
    intro c hc
    simpa using (mem_encodeChars hc).1
  rw [List.splitOn, List.splitOnP_append_cons_of_forall_mem (hdot b) _ (by simp),
    List.splitOnP_eq_singleton (hdot b')]

theorem checkRequired_ok {fields : List (String × Json)} : ∀ {l : List String},
    (∀ field ∈ l, (fields.lookup field).isSome) → checkRequired (.obj fields) l = .ok ()
  | [], _ => rfl
  | field :: l, h => by
    simp only [List.mem_cons, forall_eq_or_imp] at h
    rw [checkRequired, contains, h.1]
    exact checkRequired_ok h.2

theorem openToken_signed {secret : Bytes} {fields : List (String × Json)}
    (hproper : Json.Proper (.obj fields))
    (hrequired : ∀ field ∈ required, (fields.lookup field).isSome) :
    openToken secret (Base64Url.encodeChars (Utf8.encode (Json.dumps (.obj fields))))
      (Base64Url.encodeChars (hmacSha256 secret (Utf8.encode
        (Base64Url.encodeChars (Utf8.encode (Json.dumps (.obj fields)))))).1) =
      .ok (.obj fields) := by
  have hload : Json.loadBytes Json.dict (Utf8.encode (Json.dumps (.obj fields))) =
      some (.obj fields) :=
    Json.loadBytes_dumps (fun l hl => by rw [Json.dict, Json.dictOf_of_nodup hl]) hproper
      (Or.inr ⟨fields, rfl⟩)
  rw [openToken, urlsafeB64decode_encodeChars]
  dsimp only
  rw [if_neg (not_not.2 rfl), urlsafeB64decode_encodeChars, Option.bind_some, hload]
  dsimp only
  rw [checkRequired_ok hrequired]
  rfl

theorem decodeHeader_signed {settings : Settings} {secret : Bytes} (b : Bytes)
    (hsecret : deriveSharedSecret settings = .ok secret) :
    decodeHeader settings (signedHeader secret (Base64Url.encodeChars b)) =
      openToken secret (Base64Url.encodeChars b) (Base64Url.encodeChars
        (hmacSha256 secret (Utf8.encode (Base64Url.encodeChars b))).1) := by
  have hprefix (p l : List Char) : p.isPrefixOf (p ++ l) = true :=
    List.isPrefixOf_iff_prefix.2 (List.prefix_append _ _)
  have hdrop (l : List Char) : (['B', 'e', 'a', 'r', 'e', 'r', ' '] ++ l).drop 7 = l := rfl
  unfold signedHeader
  rw [decodeHeader, String.toList_ofList, String.toList_ofList, hprefix, if_neg (not_not.2 rfl),
    hdrop, splitOn_token, hsecret]

/-- **A token that the marketplace has signed opens to its payload.** -/
theorem decodeHeader_issue {settings : Settings} {secret : Bytes} {fields : List (String × Json)}
    (hsecret : deriveSharedSecret settings = .ok secret) (hproper : Json.Proper (.obj fields))
    (hrequired : ∀ field ∈ required, (fields.lookup field).isSome) :
    decodeHeader settings (issueHeader secret (.obj fields)) = .ok (.obj fields) :=
  (decodeHeader_signed _ hsecret).trans (openToken_signed hproper hrequired)

/-- `float` of the integers. -/
def intFloat : Json → Except Raised PyFloat
  | .int i => .ok (.fin i)
  | _ => raise "TypeError" "float() argument must be a string or a real number"

def tokenSettings : Settings := ⟨some "install-token", none⟩

def tokenSecret : Bytes :=
  (hmacSha256 (hmacSha256 (Utf8.encode "vectoraiz-entitlement-v1".toList)
    (Utf8.encode "install-token".toList)).1 (Utf8.encode "raw-file-download".toList ++ [1])).1

/-- An entitlement that ends at 100. -/
def tokenFields : List (String × Json) :=
  [("order_id", .str "o"), ("listing_id", .str "l"), ("file_hash", .str "h"),
    ("issued_at", .int 0), ("expires_at", .int 100), ("nonce", .str "n")]

def tokenHeader : String := issueHeader tokenSecret (.obj tokenFields)

theorem admit_token :
    admitted intFloat tokenSettings tokenHeader 100 = .ok (.obj tokenFields, .fin 100) := by
  have hdecode : decodeHeader tokenSettings tokenHeader = .ok (.obj tokenFields) :=
    decodeHeader_issue rfl (by simp [Json.Proper, Json.ProperFields, tokenFields]) (by decide)
  rw [admitted, hdecode]
  decide

def tokenWorld : World := ⟨100, fun _ => none, fun _ => .idle, []⟩

theorem start_tokenWorld : Start tokenWorld := ⟨fun _ => rfl, fun _ => rfl, rfl⟩

theorem step_validate {w : World} {call : ℕ} (hidle : w.calls call = .idle)
    (hclock : w.clock = 100) :
    Step intFloat tokenSettings w (.validate call tokenHeader)
      (w.setCall call (.unexpired (.obj tokenFields) (.fin 100) 100)) := by
  rw [Step, step, hidle, hclock, admit_token]

/-! ## Runs -/

section

variable {float : Json → Except Raised PyFloat} {settings : Settings} {w w' : World}
  {es : List Event}

theorem run_sublist (h : Run (Step float settings) w es w') :
    (acceptedNonces w.log).Sublist (acceptedNonces w'.log) := by
  induction h with
  | nil => exact .refl _
  | cons hs _ ih => exact (acceptedNonces_sublist hs).trans ih

theorem run_once (h : Run (Step float settings) w es w') (hinv : Inv w)
    (honce : (acceptedNonces w.log).Nodup) :
    (acceptedNonces w'.log).Nodup ↔
      Run (fun w e w' => Step float settings w e w' ∧ Remembers float w e) w es w' := by
  induction h with
  | nil => exact iff_of_true honce .nil
  | @cons s s' s'' e es hs hrest ih =>
    constructor
    · intro hlast
      have hnext := hlast.sublist (run_sublist hrest)
      exact .cons ⟨hs, (step_once hinv hs honce).1 hnext⟩ ((ih (hinv.step hs) hnext).1 hlast)
    · rintro (_ | ⟨⟨hs', hremembers⟩, hrest'⟩)
      obtain rfl := Option.some.inj (hs.symm.trans hs')
      exact (ih (hinv.step hs) ((step_once hinv hs honce).2 hremembers)).2 hrest'

/-- **A run of calls accepts no nonce twice iff none of its replay checks is for a nonce that
    a cleanup has dropped**; no token is ever accepted past its expiry, and no nonce is kept
    but of an accepted token. -/
theorem accepted_once_iff (h : Run (Step float settings) w es w') (hw : Start w) :
    Sound w' ↔ Run (fun w e w' => Step float settings w e w' ∧ Remembers float w e) w es w' := by
  have hnil : (acceptedNonces w.log).Nodup := by
    rw [hw.log]
    exact List.nodup_nil
  have hinv : Inv w' := h.invariant (fun hinv hs => hinv.step hs) hw.inv
  rw [← run_once h hw.inv hnil]
  exact ⟨Sound.once, hinv.sound⟩

end

/-! ## A token in flight twice -/

/-- The token is presented twice at its last moment, and the second call goes on later. -/
def lateEvents : List Event :=
  [.validate 0 tokenHeader, .validate 1 tokenHeader, .readClock 0, .cleanup 0, .check 0,
    .tick 101, .readClock 1, .cleanup 1, .check 1]

def lateWorld : World where
  clock := 101
  store := Function.update (cleanupExpiredNonces 101 (Function.update
    (cleanupExpiredNonces 100 fun _ => none) (.text "n") (some (.fin 100))))
    (.text "n") (some (.fin 100))
  calls :=
    let payload := .obj tokenFields
    let admitted := (tokenWorld.setCall 0 (.unexpired payload (.fin 100) 100)).setCall 1
      (.unexpired payload (.fin 100) 100)
    let first := ((admitted.setCall 0 (.cleaning payload (.fin 100) 100 100)).setCall 0
      (.cleaned payload (.fin 100) 100)).setCall 0 (.returned payload)
    (((first.setCall 1 (.cleaning payload (.fin 100) 100 101)).setCall 1
      (.cleaned payload (.fin 100) 100)).setCall 1 (.returned payload)).calls
  log := [.accepted (.text "n") (.fin 100) 100, .cleaned 101, .accepted (.text "n") (.fin 100) 100,
    .cleaned 100]

theorem run_lateEvents : Run (Step intFloat tokenSettings) tokenWorld lateEvents lateWorld :=
  .cons (step_validate rfl rfl) (.cons (step_validate rfl rfl) (.cons rfl (.cons rfl (.cons rfl
    (.cons rfl (.cons rfl (.cons rfl (.cons rfl .nil))))))))

theorem accepted_once_iff_late :
    ¬ Run (fun w e w' => Step intFloat tokenSettings w e w' ∧ Remembers intFloat w e)
      tokenWorld lateEvents lateWorld := by
  intro hremembers
  have hsound := (accepted_once_iff run_lateEvents start_tokenWorld).2 hremembers
  exact absurd hsound.once (by decide)

/-- Both calls read the clock at the last moment of the token, and the second one drops its
    nonce a moment later, before the replay check: the token is accepted twice. -/
theorem accepted_twice : Start tokenWorld ∧
    Run (Step intFloat tokenSettings) tokenWorld lateEvents lateWorld ∧
    acceptedNonces lateWorld.log = [.text "n", .text "n"] ∧ ¬ Sound lateWorld := by
  refine ⟨start_tokenWorld, run_lateEvents, rfl, ?_⟩
  intro hsound
  exact absurd hsound.once (by decide)

end Entitlement

end AimData
