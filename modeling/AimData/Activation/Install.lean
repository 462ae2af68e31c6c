/-
  The registration of the install that publishes are signed for, with calls that overlap.

  A call decides before its request whether it carries the serial, and writes that with the
  reply.  The identity is compared after the await, so no call replaces a stored install id
  or returns another; but a late reply to a request without the serial marks the id unbound
  again that a later call has bound (`late_reply_unbinds`), and only such a reply does
  (`kept_iff_inTime`).
-/
import AimData.Activation.Store
import AimData.Publish.RawListing

namespace AimData

namespace Install

open Activation (SerialStore StatusData present)
open RawListings (Reply typeName)

/-! ## The stored state -/

/-- The state of the serial store, with the credentials of the install and of the session. -/
structure InstallState where
  serial : SerialStore
  vzInstallId : Option String := none
  vzInstallToken : Option Json := none
  vzInstallSerialBound : Bool := false
  aiMarketAccessToken : Option String := none
  aiMarketSellerId : Option String := none

def InstallState.persistVzInstall (s : InstallState) (installId : String)
    (installToken : Option Json) (serialBound : Bool) : InstallState :=
  { s with
    vzInstallId := some installId
    vzInstallSerialBound := serialBound
    vzInstallToken := if Dataset.truthy installToken then installToken else s.vzInstallToken }

def InstallState.persistAiMarketSession (s : InstallState) (accessToken : String)
    (sellerId : Option String) : InstallState :=
  { s with
    aiMarketAccessToken := some accessToken
    aiMarketSellerId := if present sellerId then sellerId else s.aiMarketSellerId }

/-- The changes of the serial that activation makes. -/
inductive Transition where
  | success
  | failure
  | active (installToken : String)
  | migrated (gatewayUserId : Option String)
  | unprovisioned
  | statusCache (data : StatusData) (timestamp : String)
  | appVersion (version : String)
  | serialId (serialId : Option String)

def Transition.apply (store : SerialStore) : Transition → SerialStore
  | .success => store.recordSuccess
  | .failure => store.recordFailure
  | .active installToken => store.transitionToActive installToken
  | .migrated gatewayUserId => store.transitionToMigrated gatewayUserId
  | .unprovisioned => store.transitionToUnprovisioned
  | .statusCache data timestamp => store.updateStatusCache data timestamp
  | .appVersion version => store.updateAppVersion version
  | .serialId id => store.persistSerialId id

/-! ## The registration call -/

def InstallState.serialBound (s : InstallState) : Bool :=
  s.serial.state.state = .active ∧ s.serial.state.serial ≠ "" ∧
    present s.serial.state.installToken = true

/-- The request to `/api/v1/vz/register`. -/
structure RegisterRequest where
  token : Option String
  publicKeyB64 : String
  serial : Option String := none
  serialInstallToken : Option String := none

/-- `ensure_vz_install_registered` up to its request: it returns, or raises, or asks. -/
inductive Opening where
  | returns (installId : Option String)
  | raises (e : Raised)
  | asks (serialBound : Bool) (request : RegisterRequest)

def InstallState.open (s : InstallState) (accessToken : Option String)
    (publicKeyB64 : Except Raised String) : Opening :=
  if present s.vzInstallId ∧ ¬ (s.serialBound ∧ ¬ s.vzInstallSerialBound) then
    .returns s.vzInstallId
  else
    let token := if present accessToken then accessToken else s.aiMarketAccessToken
    if ¬ present token then .returns none
    else
      match publicKeyB64 with
      | .error e => .raises e
      | .ok publicKeyB64 =>
        if s.serialBound then
          .asks true ⟨token, publicKeyB64, some s.serial.state.serial, s.serial.state.installToken⟩
        else .asks false { token := token, publicKeyB64 := publicKeyB64 }

section

variable (str : Json → String)

/-- `str(data.get("install_id") or "")` -/
def installIdOf (fields : List (String × Json)) : String :=
  match fields.lookup "install_id" with
  | some value => if Dataset.truthy (some value) then str value else ""
  | none => ""

/-- The rest of the call for a reply whose body is a dictionary: the identity is compared
    with the id that is stored by now. -/
def InstallState.take (s : InstallState) (serialBound : Bool) (sellerId : Option String)
    (conflict : Bool) (fields : List (String × Json)) : Option String × InstallState :=
  let installId := installIdOf str fields
  let installToken := fields.lookup "install_token"
  if installId ≠ "" ∧ present s.vzInstallId ∧ s.vzInstallId ≠ some installId then (none, s)
  else if installId ≠ "" then
    let s := s.persistVzInstall installId installToken serialBound
    if ¬ conflict ∧ present sellerId then
      (some installId, { s with aiMarketSellerId := sellerId })
    else (some installId, s)
  else if conflict then
    if present s.vzInstallId ∧ serialBound ∧ ¬ s.vzInstallSerialBound then (none, s)
    else (s.vzInstallId, s)
  else (none, s)

/-- `ensure_vz_install_registered` from the reply on. -/
def InstallState.close (s : InstallState) (serialBound : Bool) (sellerId : Option String) :
    Reply → Except Raised (Option String) × InstallState
  | .timeout | .requestError => (.ok none, s)
  | .response statusCode body _ =>
    if statusCode ∈ [200, 201, 409] then
      match body with
      | .error e => (.error e, s)
      | .ok (.obj fields) =>
        let taken := s.take str serialBound sellerId (statusCode = 409) fields
        (.ok taken.1, taken.2)
      | .ok value =>
        (raise "AttributeError" s!"'{typeName value}' object has no attribute 'get'", s)
    else (.ok none, s)

end

/-! ## Calls that overlap -/

/-- How far a call is; a call that waits has sent the serial or not. -/
inductive Phase where
  | idle
  | waiting (serialBound : Bool) (sellerId : Option String)
  | returned (installId : Option String)
  | raised (e : Raised)

structure World where
  store : InstallState
  calls : ℕ → Phase

inductive Event where
  | serial (transition : Transition)
  | signIn (accessToken : String) (sellerId : Option String)
  | ensure (call : ℕ) (accessToken sellerId : Option String) (publicKeyB64 : Except Raised String)
  | reply (call : ℕ) (reply : Reply)

def World.setCall (w : World) (call : ℕ) (phase : Phase) : World :=
  { w with calls := Function.update w.calls call phase }

/-- What a call returns or raises. -/
def ended : Except Raised (Option String) → Phase
  | .ok installId => .returned installId
  | .error e => .raised e

def step (str : Json → String) (w : World) : Event → Option World
  | .serial transition =>
    some { w with store := { w.store with serial := transition.apply w.store.serial } }
  | .signIn accessToken sellerId =>
    some { w with store := w.store.persistAiMarketSession accessToken sellerId }
  | .ensure call accessToken sellerId publicKeyB64 =>
    match w.calls call with
    | .idle =>
      match w.store.open accessToken publicKeyB64 with
      | .returns installId => some (w.setCall call (.returned installId))
      | .raises e => some (w.setCall call (.raised e))
      | .asks serialBound _ => some (w.setCall call (.waiting serialBound sellerId))
    | _ => none
  | .reply call reply =>
    match w.calls call with
    | .waiting serialBound sellerId =>
      let closed := w.store.close str serialBound sellerId reply
      some { w.setCall call (ended closed.1) with store := closed.2 }
    | _ => none

def Step (str : Json → String) (w : World) (e : Event) (w' : World) : Prop :=
  step str w e = some w'

/-! ## What a step keeps -/

/-- The install id of a reply that would store it. -/
def repliedId (str : Json → String) : Reply → Option String
  | .response statusCode (.ok (.obj fields)) _ =>
    if statusCode ∈ [200, 201, 409] ∧ installIdOf str fields ≠ "" then
      some (installIdOf str fields)
    else none
  | _ => none

/-- A stored id is kept, what a call returns is the stored id, and the reply to a request
    without the serial leaves a bound id bound. -/
structure Kept (w : World) (e : Event) (w' : World) : Prop where
  id : present w.store.vzInstallId → w'.store.vzInstallId = w.store.vzInstallId
  returns : ∀ call installId, w'.calls call = .returned (some installId) →
    w.calls call = .returned (some installId) ∨ w'.store.vzInstallId = some installId
  bound : ∀ call reply sellerId, e = .reply call reply → w.calls call = .waiting false sellerId →
    present w.store.vzInstallId → w.store.vzInstallSerialBound = true →
      w'.store.vzInstallSerialBound = true

/-- No reply to a request without the serial brings the stored id while that is bound. -/
def InTime (str : Json → String) (w : World) (e : Event) : Prop :=
  ∀ call reply sellerId installId, e = .reply call reply → w.calls call = .waiting false sellerId →
    repliedId str reply = some installId → w.store.vzInstallId = some installId →
      w.store.vzInstallSerialBound = false

/-! ## One step -/

section

variable {str : Json → String} {w w' : World} {e : Event} {s : InstallState}

/-- What comes of a reply: the store is left, and the stored id may be returned; or the
    replied id is stored, which no other stored id was before it, and is returned. -/
inductive Closing (str : Json → String) (s : InstallState) (serialBound : Bool) (reply : Reply) :
    Except Raised (Option String) → InstallState → Prop
  | left {result : Except Raised (Option String)} :
    (∀ id, result = .ok (some id) → s.vzInstallId = some id) →
    (∀ id, repliedId str reply = some id → present s.vzInstallId ∧ s.vzInstallId ≠ some id) →
    Closing str s serialBound reply result s
  | stored {id : String} {s' : InstallState} : repliedId str reply = some id →
    ¬ (present s.vzInstallId ∧ s.vzInstallId ≠ some id) → s'.vzInstallId = some id →
    s'.vzInstallSerialBound = serialBound → Closing str s serialBound reply (.ok (some id)) s'

theorem closing_take {statusCode : ℕ} (hstatus : statusCode ∈ [200, 201, 409])
    (serialBound : Bool) (sellerId : Option String) (conflict : Bool)
    (fields : List (String × Json)) (text : String) :
    Closing str s serialBound (.response statusCode (.ok (.obj fields)) text)
      (.ok (s.take str serialBound sellerId conflict fields).1)
      (s.take str serialBound sellerId conflict fields).2 := by
  have hreplied (hne : installIdOf str fields ≠ "") :
      repliedId str (.response statusCode (.ok (.obj fields)) text) =
        some (installIdOf str fields) := if_pos ⟨hstatus, hne⟩
  have hnone (hempty : ¬ installIdOf str fields ≠ "") :
      repliedId str (.response statusCode (.ok (.obj fields)) text) = none :=
    if_neg fun h => hempty h.2
  rw [InstallState.take]
  dsimp only
  by_cases hother : installIdOf str fields ≠ "" ∧ present s.vzInstallId ∧
      s.vzInstallId ≠ some (installIdOf str fields)
  · rw [if_pos hother]
    refine .left (fun id h => by cases h) (fun id h => ?_)
    rw [hreplied hother.1] at h
    cases h
    exact hother.2
  rw [if_neg hother]
  by_cases hne : installIdOf str fields ≠ ""
  · have hsame : ¬ (present s.vzInstallId ∧ s.vzInstallId ≠ some (installIdOf str fields)) :=
      fun h => hother ⟨hne, h⟩
    rw [if_pos hne]
    split_ifs
    · exact .stored (hreplied hne) hsame rfl rfl
    · exact .stored (hreplied hne) hsame rfl rfl
  · have hleft (r : Option String) (hr : r = none ∨ r = s.vzInstallId) :
        Closing str s serialBound (.response statusCode (.ok (.obj fields)) text) (.ok r) s := by
      refine .left (fun id h => ?_) (fun id h => ?_)
      · cases h
        rcases hr with hr | hr
        · cases hr
        · exact hr.symm
      · rw [hnone hne] at h
        cases h
    rw [if_neg hne]
    split_ifs
    · exact hleft _ (Or.inl rfl)
    · exact hleft _ (Or.inr rfl)
    · exact hleft _ (Or.inl rfl)

theorem closing_close (serialBound : Bool) (sellerId : Option String) (reply : Reply) :
    Closing str s serialBound reply (s.close str serialBound sellerId reply).1
      (s.close str serialBound sellerId reply).2 := by
  have hleft (reply : Reply) (hreply : repliedId str reply = none)
      (result : Except Raised (Option String)) (hresult : ∀ id, result ≠ .ok (some id)) :
      Closing str s serialBound reply result s :=
    .left (fun id h => absurd h (hresult id)) fun id h => by rw [hreply] at h; cases h
  rcases reply with _ | _ | ⟨statusCode, body, text⟩
  · exact hleft .timeout rfl (.ok none) fun id h => by cases h
  · exact hleft .requestError rfl (.ok none) fun id h => by cases h
  · by_cases hstatus : statusCode ∈ [200, 201, 409]
    · unfold InstallState.close
      dsimp only
      rw [if_pos hstatus]
      rcases body with exc | value
      · exact hleft _ rfl (.error exc) fun id h => by cases h
      · rcases value with _ | _ | _ | _ | _ | _ | fields
        iterate 6 exact hleft _ rfl (.error _) fun id h => by cases h
        exact closing_take hstatus serialBound sellerId _ fields text
    · unfold InstallState.close
      dsimp only
      rw [if_neg hstatus]
      refine hleft _ ?_ (.ok none) fun id h => by cases h
      rcases body with exc | value
      · rfl
      · rcases value with _ | _ | _ | _ | _ | _ | fields
        iterate 6 rfl
        exact if_neg fun h => hstatus h.1

/-- A call that has returned has done so before, or does so now. -/
theorem returned_setCall {call c : ℕ} {phase : Phase} {installId : Option String}
    (h : (w.setCall call phase).calls c = .returned installId) :
    w.calls c = .returned installId ∨ phase = .returned installId := by
  unfold World.setCall at h
  dsimp only at h
  by_cases hc : c = call
  · rw [hc, Function.update_self] at h
    exact Or.inr h
  · rw [Function.update_of_ne hc] at h
    exact Or.inl h

/-- What a call returns at once is the stored id. -/
theorem open_returns {accessToken : Option String} {publicKeyB64 : Except Raised String}
    {id : String} (h : s.open accessToken publicKeyB64 = .returns (some id)) :
    s.vzInstallId = some id := by
  rw [InstallState.open] at h
  by_cases hstored : present s.vzInstallId ∧ ¬ (s.serialBound ∧ ¬ s.vzInstallSerialBound)
  · rw [if_pos hstored] at h
    exact Opening.returns.inj h
  · rw [if_neg hstored] at h
    dsimp only at h
    generalize (if present accessToken then accessToken else s.aiMarketAccessToken) = token at h
    by_cases htoken : ¬ present token
    · rw [if_pos htoken] at h
      cases h
    · rw [if_neg htoken] at h
      rcases publicKeyB64 with exc | key
      · cases h
      · dsimp only at h
        split_ifs at h

theorem step_ensure {call : ℕ} {accessToken sellerId : Option String}
    {publicKeyB64 : Except Raised String}
    (h : Step str w (.ensure call accessToken sellerId publicKeyB64) w') :
    ∃ phase, w' = w.setCall call phase ∧
      ∀ id, phase = .returned (some id) → w.store.vzInstallId = some id := by
  unfold Step step at h
  dsimp only at h
  generalize w.calls call = phase at h
  rcases phase with _ | _ | _ | _
  · dsimp only at h
    rcases hopen : w.store.open accessToken publicKeyB64 with id | exc | ⟨serialBound, request⟩ <;>
      rw [hopen] at h <;> obtain rfl := Option.some.inj h
    · exact ⟨_, rfl, fun id' hid => open_returns (hopen.trans (by rw [Phase.returned.inj hid]))⟩
    · exact ⟨_, rfl, fun id' hid => by cases hid⟩
    · exact ⟨_, rfl, fun id' hid => by cases hid⟩
  all_goals cases h

theorem step_reply {call : ℕ} {reply : Reply} (h : Step str w (.reply call reply) w') :
    ∃ serialBound sellerId result, w.calls call = .waiting serialBound sellerId ∧
      Closing str w.store serialBound reply result w'.store ∧
      w' = { w.setCall call (ended result) with store := w'.store } := by
  unfold Step step at h
  dsimp only at h
  generalize hphase : w.calls call = phase at h
  rcases phase with _ | ⟨serialBound, sellerId⟩ | _ | _
  · cases h
  · obtain rfl := Option.some.inj h
    exact ⟨serialBound, sellerId, _, rfl, closing_close serialBound sellerId reply, rfl⟩
  · cases h
  · cases h

theorem returned_ended {result : Except Raised (Option String)} {id : String}
    (h : ended result = .returned (some id)) : result = .ok (some id) := by
  rcases result with exc | installId
  · cases h
  · exact congrArg Except.ok (Phase.returned.inj h)

/-- A stored id stays. -/
theorem step_id (h : Step str w e w') (hid : present w.store.vzInstallId) :
    w'.store.vzInstallId = w.store.vzInstallId := by
  rcases e with transition | ⟨accessToken, sellerId⟩ | ⟨call, accessToken, sellerId, key⟩ |
    ⟨call, reply⟩
  · obtain rfl := Option.some.inj h
    rfl
  · obtain rfl := Option.some.inj h
    rfl
  · obtain ⟨phase, rfl, -⟩ := step_ensure h
    rfl
  · obtain ⟨serialBound, sellerId, result, -, hclosing, -⟩ := step_reply h
    generalize w'.store = s' at hclosing
    cases hclosing with
    | left _ _ => rfl
    | @stored id _ _ hsame hid' _ =>
      by_contra hne
      exact hsame ⟨hid, fun h => hne (hid'.trans h.symm)⟩

/-- What a call returns is the stored id. -/
theorem step_returns (h : Step str w e w') (c : ℕ) (installId : String)
    (hc : w'.calls c = .returned (some installId)) :
    w.calls c = .returned (some installId) ∨ w'.store.vzInstallId = some installId := by
  rcases e with transition | ⟨accessToken, sellerId⟩ | ⟨call, accessToken, sellerId, key⟩ |
    ⟨call, reply⟩
  · obtain rfl := Option.some.inj h
    exact Or.inl hc
  · obtain rfl := Option.some.inj h
    exact Or.inl hc
  · obtain ⟨phase, rfl, hphase⟩ := step_ensure h
    exact (returned_setCall hc).imp_right (hphase installId)
  · obtain ⟨serialBound, sellerId, result, -, hclosing, hw'⟩ := step_reply h
    rw [hw'] at hc
    refine (returned_setCall hc).imp_right fun hended => ?_
    generalize w'.store = s' at hclosing
    cases hclosing with
    | left hreturned _ => exact hreturned installId (returned_ended hended)
    | stored _ _ hid _ =>
      rw [hid, Except.ok.inj (returned_ended hended)]

theorem repliedId_present {reply : Reply} {id : String} (h : repliedId str reply = some id) :
    present (some id) := by
  rcases reply with _ | _ | ⟨statusCode, exc | value, text⟩
  · cases h
  · cases h
  · cases h
  · rcases value with _ | _ | _ | _ | _ | _ | fields
    iterate 6 cases h
    unfold repliedId at h
    dsimp only at h
    split_ifs at h with hne
    rw [← Option.some.inj h]
    simp [present, hne.2]

/-- A step leaves a bound id bound, or is the late reply that does not. -/
theorem step_bound_iff (h : Step str w e w') :
    (∀ call reply sellerId, e = .reply call reply → w.calls call = .waiting false sellerId →
      present w.store.vzInstallId → w.store.vzInstallSerialBound = true →
        w'.store.vzInstallSerialBound = true) ↔ InTime str w e := by
  constructor
  · rintro hbound call reply sellerId id rfl hwaiting hreplied hstored
    by_contra hne
    rw [Bool.not_eq_false] at hne
    have hpresent : present w.store.vzInstallId := hstored ▸ repliedId_present hreplied
    have hkept := hbound call reply sellerId rfl hwaiting hpresent hne
    obtain ⟨serialBound, sellerId', result, hcall, hclosing, -⟩ := step_reply h
    obtain ⟨rfl, -⟩ := Phase.waiting.inj (hwaiting.symm.trans hcall)
    generalize w'.store = s' at hclosing hkept
    cases hclosing with
    | left _ hother => exact (hother id hreplied).2 hstored
    | stored _ _ _ hunbound =>
      rw [hunbound] at hkept
      cases hkept
  · rintro hin call reply sellerId rfl hwaiting hpresent hbound
    obtain ⟨serialBound, sellerId', result, hcall, hclosing, -⟩ := step_reply h
    generalize w'.store = s' at hclosing
    cases hclosing with
    | left _ _ => exact hbound
    | @stored id _ hreplied hsame _ _ =>
      have hstored : w.store.vzInstallId = some id := by
        by_contra hne
        exact hsame ⟨hpresent, hne⟩
      have hfalse := hin call reply sellerId id rfl hwaiting hreplied hstored
      rw [hbound] at hfalse
      cases hfalse

theorem kept_iff (h : Step str w e w') : Kept w e w' ↔ InTime str w e :=
  ⟨fun hkept => (step_bound_iff h).1 hkept.bound,
    fun hin => ⟨step_id h, step_returns h, (step_bound_iff h).2 hin⟩⟩

end

/-! ## A run -/

section

variable {str : Json → String} {w w' : World} {events : List Event}

/-- **A run keeps the identity and the binding at every step just when no late reply to a
    request without the serial brings the stored id while that is bound.** -/
theorem kept_iff_inTime :
    Run (fun t e t' => Step str t e t' ∧ Kept t e t') w events w' ↔
      Run (fun t e t' => Step str t e t' ∧ InTime str t e) w events w' :=
  Run.restrict_iff (I := fun _ => True) (fun _ _ => trivial) (fun _ h => kept_iff h) trivial

end

/-! ## A late reply -/

/-- The store after a download that is not activated yet, with a seller signed in. -/
def unbound : InstallState :=
  { serial := .put { serial := "VZ-1", bootstrapToken := some "b", state := .provisioned }
    aiMarketAccessToken := some "t" }

def registered : Reply := .response 200 (.ok (.obj [("install_id", .str "i")])) ""

/-- One call asks before the activation, the other after it and is answered first. -/
def overlap : List Event :=
  [.ensure 0 none none (.ok "k"), .serial (.active "a"), .ensure 1 none none (.ok "k"),
    .reply 1 registered]

/-- `str` on strings. -/
def strOf : Json → String
  | .str s => s
  | _ => ""

/-- The second call has bound the id, and the first still waits. -/
def boundWorld : World where
  store :=
    { unbound with serial := unbound.serial.transitionToActive "a" }.persistVzInstall "i" none true
  calls := (((World.mk unbound fun _ => .idle).setCall 0 (.waiting false none)).setCall 1
    (.waiting true none)).setCall 1 (.returned (some "i")) |>.calls

def unboundWorld : World :=
  { boundWorld.setCall 0 (.returned (some "i")) with
    store := boundWorld.store.persistVzInstall "i" none false }

/-- **The id that the second call has bound is unbound by the reply to the first.** -/
theorem late_reply_unbinds :
    Run (Step strOf) ⟨unbound, fun _ => .idle⟩ overlap boundWorld ∧
      Step strOf boundWorld (.reply 0 registered) unboundWorld ∧
      ¬ Kept boundWorld (.reply 0 registered) unboundWorld ∧
      unboundWorld.store.serialBound = true ∧ unboundWorld.store.vzInstallId = some "i" ∧
      unboundWorld.store.vzInstallSerialBound = false := by
  refine ⟨.cons rfl (.cons rfl (.cons rfl (.cons rfl .nil))), rfl, fun hkept => ?_, rfl, rfl, rfl⟩
  cases hkept.bound 0 registered none rfl rfl rfl rfl

end Install

end AimData
