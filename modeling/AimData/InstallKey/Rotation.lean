/-
  The rotation and revocation of an install key, and the signatures between them.

  A rotation leaves a sentinel and a staged copy of the keystore, and an activation moves the
  copy over the keystore and takes the sentinel away; a revocation leaves the same sentinel.
  No signature is made while the sentinel is there.  But the age of evidence is all that an
  activation checks of its time, so evidence from before a revocation can bring signing back
  (`revoked_signs`), and only such evidence does (`guarded_iff_unspent`).
-/
import AimData.InstallKey.Keystore
import AimData.Lib.Run
import AimData.Publish.RawListing

namespace AimData

namespace InstallKey

open Contract
open RawListings (Reply)

/-! ## Files -/

/-- A keystore file; `content` is absent where the text is no object of strings. -/
structure KeyFile where
  content : Option Keystore
  mode : ℕ := 0o600
  symlink : Bool := false

/-- A file that `_write_keystore` has written. -/
abbrev KeyFile.written (keystore : Keystore) : KeyFile := { content := some keystore }

/-- The keystore, `.rotation-staged` and `.rotation-pending`. -/
structure Disk where
  keystore : Option KeyFile
  staged : Option KeyFile := none
  pending : Bool := false

inductive FileOp where
  /-- `O_CREAT`, with or without `O_EXCL` -/
  | createPending
  /-- `_write_keystore`: a temporary file and `os.replace`, which act as one. -/
  | writeStaged (keystore : Keystore)
  | writeKeystore (keystore : Keystore)
  /-- `os.replace(staged, keystore_path)` -/
  | replace
  | unlinkPending

def Disk.apply (disk : Disk) : FileOp → Disk
  | .createPending => { disk with pending := true }
  | .writeStaged keystore => { disk with staged := some (.written keystore) }
  | .writeKeystore keystore => { disk with keystore := some (.written keystore) }
  | .replace => { disk with keystore := disk.staged, staged := none }
  | .unlinkPending => { disk with pending := false }

/-- The first `cut` operations: a crash or a failing operation ends the others. -/
def Disk.perform (disk : Disk) (ops : List FileOp) (cut : ℕ) : Disk :=
  (ops.take cut).foldl Disk.apply disk

/-! ## The signing service -/

/-- `PreviewSigningService`; a reader answers evidence or raises. -/
structure PreviewSigningService where
  installId : String
  sellerId : String
  evidenceReader : Option (Option Json) := none
  maxAge : Option ℤ := none

section

variable (crypto : DeviceCrypto)

/-- What `_keys` asks of the keystore, up to the evidence. -/
def DeviceCrypto.openKeys (disk : Disk) : Option Keys := do
  let file ← disk.keystore
  if crypto.passphrase = "" ∨ file.symlink ∨ disk.pending then none
  else if file.mode ≠ 0o600 ∨ crypto.directoryMode &&& 0o022 ≠ 0 then none
  else do
    let keys ← crypto.loadKeys (← file.content)
    if crypto.publicKey keys.edPriv ≠ keys.edPub then none else return keys

/-- The check of the evidence that a reader brings. -/
def PreviewSigningService.authorized (service : PreviewSigningService) (raw : Key)
    (clock : Instant) : Bool :=
  match service.evidenceReader with
  | none => true
  | some answer =>
    match service.maxAge, answer with
    | some maxAge, some evidence =>
      (checkEvidence evidence service.installId service.sellerId raw clock maxAge).isOk
    | _, _ => false

/-- `_keys` -/
def PreviewSigningService.keys (service : PreviewSigningService) (disk : Disk) (clock : Instant) :
    Except Raised Keys :=
  match crypto.openKeys disk with
  | some keys =>
    if service.authorized keys.edPub clock then .ok keys
    else refuseSigning "signing_authority_unavailable"
  | none => refuseSigning "signing_authority_unavailable"

/-- `_sign`, before the signature is encoded. -/
def PreviewSigningService.sign (service : PreviewSigningService) (disk : Disk) (clock : Instant)
    (preimage : Bytes) (reference : String) : Except Raised Bytes := do
  let keys ← service.keys crypto disk clock
  if reference ≠ service.installId ++ ":" ++ fingerprint keys.edPub then
    refuseSigning "signer_reference_mismatch"
  else return crypto.sign keys.edPriv preimage

/-! ## Rotation, activation, revocation -/

/-- The staged copy: the old keystore with a new pair. -/
def DeviceCrypto.replacement (generated : Generated) (old : Keystore) : Keystore :=
  crypto.setPair ed25519 (crypto.publicKey generated.priv) generated old

/-- The new public key and the file operations of a rotation that its checks let begin. -/
def DeviceCrypto.rotation (disk : Disk) (accessToken : String) (generated : Generated) :
    Option (Key × List FileOp) :=
  if accessToken = "" ∨ disk.pending ∨ disk.staged.isSome then none
  else do
    let old ← (← disk.keystore).content
    let _ ← crypto.loadKeys old
    return (crypto.publicKey generated.priv,
      [.createPending, .writeStaged (crypto.replacement generated old)])

/-- The file operations of an activation that its checks let begin. -/
def DeviceCrypto.activation (disk : Disk) (evidence : Json) (installId sellerId : String)
    (now : Instant) (maxAge : ℤ) : Option (List FileOp) := do
  let staged ← disk.staged
  if disk.pending = false ∨ staged.symlink then none
  else do
    let keys ← crypto.loadKeys (← staged.content)
    match checkEvidence evidence installId sellerId keys.edPub now maxAge with
    | .ok _ => return [.replace, .unlinkPending]
    | .error _ => none

end

def withPlatformKeys (platformEd25519Pub platformX25519Pub certificate : String)
    (keystore : Keystore) : Keystore :=
  ((keystore.insert "platform_ed25519_public_key" platformEd25519Pub).insert
    "platform_x25519_public_key" platformX25519Pub).insert "certificate" certificate

/-- `store_platform_keys` where there is a keystore. -/
def platformKeysStored (disk : Disk) (platformEd25519Pub platformX25519Pub certificate : String) :
    Option (List FileOp) := do
  let keystore ← (← disk.keystore).content
  if keystore.entries = [] then none
  else
    return [.writeKeystore
      (withPlatformKeys platformEd25519Pub platformX25519Pub certificate keystore)]

/-! ## Calls -/

/-- What the marketplace holds for the install. -/
structure Registry where
  key : Key
  revoked : Bool := false

/-- The files and the registry, with what the calls so far have been: the times of the
    revocations, and whether a rotation or revocation is open. -/
structure World where
  disk : Disk
  registry : Registry
  revocations : List Instant := []
  opened : Bool := false

/-- A call; `cut` file operations are performed, and `applied` tells whether the request has
    its effect at the marketplace, whatever the reply. -/
inductive Event where
  | rotate (installId accessToken : String) (generated : Generated) (cut : ℕ) (applied : Bool)
    (reply : Reply)
  | activate (evidence : Json) (installId sellerId : String) (now : Instant) (maxAge : ℤ)
    (cut : ℕ)
  | revoke (time : Instant) (accessToken : String) (applied : Bool) (reply : Reply)
  | storePlatformKeys (platformEd25519Pub platformX25519Pub certificate : String) (cut : ℕ)
  | sign (service : PreviewSigningService) (clock : Instant) (preimage : Bytes)
    (reference : String)

inductive Outcome where
  | crashed
  | returned (value : Option String)
  | raised (e : Raised)
  | signed (signature : Bytes)

/-- `response.status_code != 200 or response.json().get("install_id") != install_id` -/
def rotationConfirmed (installId : String) : Reply → Bool
  | .response 200 (.ok (.obj fields)) _ => fields.lookup "install_id" = some (.str installId)
  | _ => false

def revocationConfirmed : Reply → Bool
  | .response 204 _ _ => true
  | _ => false

def signingError (code : String) : Outcome := .raised ⟨"SigningError", code⟩

/-- The evidence is active evidence for the key. -/
def activeFor (evidence : Json) (key : Key) : Bool :=
  match registrationEvidence evidence with
  | some dump => getStr (asObj dump) "status" = "active" ∧
      getStr (asObj dump) "fingerprint" = fingerprint key
  | none => false

/-- The public key in the keystore. -/
def DeviceCrypto.keystoreKey (crypto : DeviceCrypto) (disk : Disk) : Option Key := do
  return (← crypto.loadKeys (← (← disk.keystore).content)).edPub

section

variable (crypto : DeviceCrypto)

def call (w : World) : Event → Outcome × World
  | .rotate installId accessToken generated cut applied reply =>
    match crypto.rotation w.disk accessToken generated with
    | none => (signingError "rotation_pending", w)
    | some (pub, ops) =>
      let w' := { w with disk := w.disk.perform ops cut, opened := w.opened || 0 < cut }
      if cut < ops.length then (.crashed, w')
      else
        (if rotationConfirmed installId reply then .returned (some "rotation_pending")
          else signingError "rotation_pending",
        if applied then { w' with registry := { w.registry with key := pub } } else w')
  | .activate evidence installId sellerId now maxAge cut =>
    match crypto.activation w.disk evidence installId sellerId now maxAge with
    | none => (signingError "rotation_pending", w)
    | some ops =>
      let disk := w.disk.perform ops cut
      if cut < ops.length then (.crashed, { w with disk := disk })
      else
        (.returned none, { w with
          disk := disk
          opened := w.opened && !(crypto.keystoreKey disk).any (activeFor evidence) })
  | .revoke time accessToken applied reply =>
    (if accessToken ≠ "" ∧ revocationConfirmed reply then .returned (some "revoked")
      else signingError "revocation_pending",
    { w with
      disk := w.disk.perform [.createPending] 1
      registry := { w.registry with
        revoked := w.registry.revoked || (accessToken ≠ "" && applied) }
      revocations := time :: w.revocations
      opened := true })
  | .storePlatformKeys platformEd25519Pub platformX25519Pub certificate cut =>
    match platformKeysStored w.disk platformEd25519Pub platformX25519Pub certificate with
    | none =>
      (.raised ⟨"RuntimeError", "Keystore not initialized — cannot store platform keys"⟩, w)
    | some ops =>
      (if cut < ops.length then .crashed else .returned none,
        { w with disk := w.disk.perform ops cut })
  | .sign service clock preimage reference =>
    match service.sign crypto w.disk clock preimage reference with
    | .ok signature => (.signed signature, w)
    | .error e => (.raised e, w)

def Step (w : World) (e : Event) (w' : World) : Prop := (call crypto w e).2 = w'

/-! ## What a step keeps -/

/-- The time of evidence. -/
def observedAt (evidence : Json) : Option ℤ :=
  (registrationEvidence evidence).map fun dump => nanoseconds (getStr (asObj dump) "observed_at")

/-- The evidence was observed before a revocation that has been called since. -/
def World.Outdated (w : World) (evidence : Json) : Prop :=
  ∃ observed ∈ observedAt evidence, ∃ time ∈ w.revocations, observed < nanoseconds time.1

/-- No signature while a rotation or revocation is open, and none becomes possible by an
    activation whose evidence is from before a revocation. -/
structure Guarded (w : World) (e : Event) (w' : World) : Prop where
  signed : ∀ service clock preimage reference signature,
    e = .sign service clock preimage reference → (call crypto w e).1 = .signed signature →
      w.opened = false
  revoked : ∀ evidence installId sellerId now maxAge cut,
    e = .activate evidence installId sellerId now maxAge cut → w.Outdated evidence →
      crypto.openKeys w.disk = none → crypto.openKeys w'.disk = none

/-- The checks of an activation pass, for a staged copy with these keys. -/
structure Passes (disk : Disk) (evidence : Json)
    (installId sellerId : String) (now : Instant) (maxAge : ℤ) (file : KeyFile)
    (keystore : Keystore) (keys : Keys) : Prop where
  pending : disk.pending = true
  staged : disk.staged = some file
  symlink : file.symlink = false
  content : file.content = some keystore
  loads : crypto.loadKeys keystore = some keys
  check : (checkEvidence evidence installId sellerId keys.edPub now maxAge).isOk = true

/-- No activation that runs to its end has evidence from before a revocation that passes the
    check of the staged key, for a copy that signatures can be made with. -/
def Unspent (w : World) (e : Event) : Prop :=
  ∀ evidence installId sellerId now maxAge cut,
    e = .activate evidence installId sellerId now maxAge cut → w.Outdated evidence → 2 ≤ cut →
      ∀ file keystore keys,
        Passes crypto w.disk evidence installId sellerId now maxAge file keystore keys →
          crypto.openKeys { keystore := some file } = none

/-- An open rotation or revocation has left the sentinel. -/
def Sentinel (w : World) : Prop := w.opened = true → w.disk.pending = true

end

/-! ## One step -/

section

variable {crypto : DeviceCrypto} {w w' : World} {e : Event}

/-- Evidence that passes is active evidence for the key. -/
theorem activeFor_of_check {evidence : Json} {installId sellerId : String} {key : Key}
    {now : Instant} {maxAge : ℤ}
    (h : (checkEvidence evidence installId sellerId key now maxAge).isOk = true) :
    activeFor evidence key = true := by
  cases hcheck : checkEvidence evidence installId sellerId key now maxAge with
  | error exc =>
    rw [hcheck] at h
    cases h
  | ok e =>
    obtain ⟨-, ⟨dump, hdump, rfl⟩, -, -, hkey, hstatus, -, -⟩ := checkEvidence_iff.1 hcheck
    rw [activeFor, hdump]
    exact decide_eq_true ⟨hstatus, hkey⟩

theorem rotation_iff {disk : Disk} {accessToken : String} {generated : Generated} {pub : Key}
    {ops : List FileOp} :
    crypto.rotation disk accessToken generated = some (pub, ops) ↔
      accessToken ≠ "" ∧ disk.pending = false ∧ disk.staged = none ∧
        pub = crypto.publicKey generated.priv ∧ ∃ file ∈ disk.keystore, ∃ old ∈ file.content,
          (∃ keys, crypto.loadKeys old = some keys) ∧
            ops = [.createPending, .writeStaged (crypto.replacement generated old)] := by
  rw [DeviceCrypto.rotation]
  by_cases hrefused : accessToken = "" ∨ disk.pending = true ∨ disk.staged.isSome = true
  · rw [if_pos hrefused]
    refine ⟨fun h => (by cases h), fun ⟨htoken, hpending, hstaged, _⟩ => ?_⟩
    rw [hpending, hstaged] at hrefused
    simp [htoken] at hrefused
  · rw [if_neg hrefused]
    simp only [not_or, Bool.not_eq_true, Option.isSome_eq_false_iff, Option.isNone_iff_eq_none]
      at hrefused
    constructor
    · intro h
      obtain ⟨file, hfile, h⟩ := Option.bind_eq_some_iff.1 h
      obtain ⟨old, hold, h⟩ := Option.bind_eq_some_iff.1 h
      obtain ⟨keys, hkeys, h⟩ := Option.bind_eq_some_iff.1 h
      obtain ⟨rfl, rfl⟩ := Prod.mk.inj (Option.some.inj h)
      exact ⟨hrefused.1, hrefused.2.1, hrefused.2.2, rfl, file, hfile, old, hold, ⟨keys, hkeys⟩,
        rfl⟩
    · rintro ⟨-, -, -, rfl, file, hfile, old, hold, ⟨keys, hkeys⟩, rfl⟩
      refine Option.bind_eq_some_iff.2 ⟨file, hfile, ?_⟩
      refine Option.bind_eq_some_iff.2 ⟨old, hold, ?_⟩
      exact Option.bind_eq_some_iff.2 ⟨keys, hkeys, rfl⟩

/-- What a rotation does: nothing, or it leaves the sentinel, or that and the staged copy. -/
inductive Rotating (crypto : DeviceCrypto) (w : World) (accessToken : String)
    (generated : Generated) (cut : ℕ) (applied : Bool) : World → Prop
  | left : Rotating crypto w accessToken generated cut applied w
  | begun : accessToken ≠ "" → w.disk.pending = false → w.disk.staged = none → cut = 1 →
    Rotating crypto w accessToken generated cut applied
      { w with disk := ⟨w.disk.keystore, none, true⟩, opened := true }
  | staged {file : KeyFile} {old : Keystore} {keys : Keys} : accessToken ≠ "" →
    w.disk.pending = false → w.disk.staged = none → 2 ≤ cut → w.disk.keystore = some file →
    file.content = some old → crypto.loadKeys old = some keys →
    Rotating crypto w accessToken generated cut applied
      { w with
        disk :=
          { keystore := w.disk.keystore
            staged := some { content := some (crypto.replacement generated old) }
            pending := true }
        registry := if applied then { w.registry with key := crypto.publicKey generated.priv }
          else w.registry
        opened := true }

/-- A rotation whose checks pass and that ends at the sentinel. -/
theorem step_begun (installId : String) {accessToken : String} (generated : Generated)
    (applied : Bool) (reply : Reply) {file : KeyFile} {old : Keystore} {keys : Keys}
    (htoken : accessToken ≠ "") (hpending : w.disk.pending = false)
    (hstaged : w.disk.staged = none) (hfile : w.disk.keystore = some file)
    (hold : file.content = some old) (hkeys : crypto.loadKeys old = some keys) :
    Step crypto w (.rotate installId accessToken generated 1 applied reply)
      { w with disk := ⟨w.disk.keystore, none, true⟩, opened := true } := by
  have hplan : crypto.rotation w.disk accessToken generated =
      some (crypto.publicKey generated.priv,
        [.createPending, .writeStaged (crypto.replacement generated old)]) :=
    rotation_iff.2 ⟨htoken, hpending, hstaged, rfl, file, hfile, old, hold, ⟨keys, hkeys⟩, rfl⟩
  have hbegun : w.disk.perform [.createPending,
      .writeStaged (crypto.replacement generated old)] 1 = ⟨w.disk.keystore, none, true⟩ := by
    rw [← hstaged]
    rfl
  rw [Step, call, hplan]
  dsimp only
  rw [if_pos (by simp), hbegun, decide_eq_true (by omega), Bool.or_true]

/-- A rotation whose checks pass and that runs to its request. -/
theorem step_rotated (installId : String) {accessToken : String} (generated : Generated) {cut : ℕ}
    (applied : Bool) (reply : Reply) {file : KeyFile} {old : Keystore} {keys : Keys}
    (htoken : accessToken ≠ "") (hpending : w.disk.pending = false)
    (hstaged : w.disk.staged = none) (hcut : 2 ≤ cut) (hfile : w.disk.keystore = some file)
    (hold : file.content = some old) (hkeys : crypto.loadKeys old = some keys) :
    Step crypto w (.rotate installId accessToken generated cut applied reply)
      { w with
        disk :=
          { keystore := w.disk.keystore
            staged := some { content := some (crypto.replacement generated old) }
            pending := true }
        registry := if applied then { w.registry with key := crypto.publicKey generated.priv }
          else w.registry
        opened := true } := by
  have hplan : crypto.rotation w.disk accessToken generated =
      some (crypto.publicKey generated.priv,
        [.createPending, .writeStaged (crypto.replacement generated old)]) :=
    rotation_iff.2 ⟨htoken, hpending, hstaged, rfl, file, hfile, old, hold, ⟨keys, hkeys⟩, rfl⟩
  have hends : ¬ cut < [FileOp.createPending,
      .writeStaged (crypto.replacement generated old)].length := not_lt.2 hcut
  have hcopied : w.disk.perform [.createPending,
      .writeStaged (crypto.replacement generated old)] cut =
        ⟨w.disk.keystore, some { content := some (crypto.replacement generated old) }, true⟩ := by
    rw [Disk.perform, List.take_of_length_le hcut]
    rfl
  rw [Step, call, hplan]
  dsimp only
  rw [if_neg hends, hcopied, decide_eq_true (by omega), Bool.or_true]
  cases applied with
  | true => rfl
  | false => rfl

theorem step_rotate {installId accessToken : String} {generated : Generated} {cut : ℕ}
    {applied : Bool} {reply : Reply}
    (h : Step crypto w (.rotate installId accessToken generated cut applied reply) w') :
    Rotating crypto w accessToken generated cut applied w' := by
  cases hplan : crypto.rotation w.disk accessToken generated with
  | none =>
    rw [Step, call, hplan] at h
    obtain rfl := h
    exact .left
  | some plan =>
    obtain ⟨pub, ops⟩ := plan
    obtain ⟨htoken, hpending, hstaged, rfl, file, hfile, old, hold, ⟨keys, hkeys⟩, rfl⟩ :=
      rotation_iff.1 hplan
    rcases cut with _ | _ | cut
    · rw [Step, call, hplan] at h
      obtain rfl := h
      dsimp only
      rw [if_pos (by simp), decide_eq_false (by omega), Bool.or_false]
      exact .left
    · obtain rfl := h.symm.trans (step_begun installId generated applied reply htoken hpending
        hstaged hfile hold hkeys)
      exact .begun htoken hpending hstaged rfl
    · obtain rfl := h.symm.trans (step_rotated installId generated applied reply htoken hpending
        hstaged (by omega) hfile hold hkeys)
      exact .staged htoken hpending hstaged (by omega) hfile hold hkeys

/-- What an activation does: nothing, or the move of the staged copy, or that and the removal
    of the sentinel. -/
inductive Activating (crypto : DeviceCrypto) (w : World) (evidence : Json)
    (installId sellerId : String) (now : Instant) (maxAge : ℤ) (cut : ℕ) : World → Prop
  | left : Activating crypto w evidence installId sellerId now maxAge cut w
  | moved {file : KeyFile} {keystore : Keystore} {keys : Keys} :
    Passes crypto w.disk evidence installId sellerId now maxAge file keystore keys → cut = 1 →
    Activating crypto w evidence installId sellerId now maxAge cut
      { w with disk := ⟨some file, none, true⟩ }
  | done {file : KeyFile} {keystore : Keystore} {keys : Keys} :
    Passes crypto w.disk evidence installId sellerId now maxAge file keystore keys → 2 ≤ cut →
    Activating crypto w evidence installId sellerId now maxAge cut
      { w with disk := ⟨some file, none, false⟩, opened := false }

section

variable {evidence : Json} {installId sellerId : String} {now : Instant} {maxAge : ℤ} {cut : ℕ}
  {file : KeyFile} {keystore : Keystore} {keys : Keys}

theorem activation_iff {disk : Disk} {ops : List FileOp} :
    crypto.activation disk evidence installId sellerId now maxAge = some ops ↔
      ops = [.replace, .unlinkPending] ∧ ∃ file keystore keys,
        Passes crypto disk evidence installId sellerId now maxAge file keystore keys := by
  constructor
  · intro h
    obtain ⟨file, hfile, h⟩ := Option.bind_eq_some_iff.1 h
    split_ifs at h with hrefused
    rw [not_or, Bool.not_eq_false, Bool.not_eq_true] at hrefused
    obtain ⟨keystore, hkeystore, h⟩ := Option.bind_eq_some_iff.1 h
    obtain ⟨keys, hkeys, h⟩ := Option.bind_eq_some_iff.1 h
    cases hcheck : checkEvidence evidence installId sellerId keys.edPub now maxAge with
    | error exc =>
      rw [hcheck] at h
      cases h
    | ok checked =>
      rw [hcheck] at h
      refine ⟨(Option.some.inj h).symm, file, keystore, keys, hrefused.1, hfile, hrefused.2,
        hkeystore, hkeys, ?_⟩
      rw [hcheck]
      rfl
  · rintro ⟨rfl, file, keystore, keys, hpasses⟩
    refine Option.bind_eq_some_iff.2 ⟨file, hpasses.staged, ?_⟩
    rw [if_neg (by simp [hpasses.pending, hpasses.symlink])]
    refine Option.bind_eq_some_iff.2 ⟨keystore, hpasses.content, ?_⟩
    refine Option.bind_eq_some_iff.2 ⟨keys, hpasses.loads, ?_⟩
    cases h : checkEvidence evidence installId sellerId keys.edPub now maxAge with
    | error exc =>
      have hcheck := hpasses.check
      rw [h] at hcheck
      cases hcheck
    | ok checked => rfl

/-- An activation whose checks pass and that ends after the move. -/
theorem step_moved
    (h : Passes crypto w.disk evidence installId sellerId now maxAge file keystore keys) :
    Step crypto w (.activate evidence installId sellerId now maxAge 1)
      { w with disk := ⟨some file, none, true⟩ } := by
  have hmoved : w.disk.perform [.replace, .unlinkPending] 1 = ⟨some file, none, true⟩ := by
    rw [← h.staged, ← h.pending]
    rfl
  rw [Step, call, activation_iff.2 ⟨rfl, file, keystore, keys, h⟩]
  dsimp only
  rw [if_pos (by decide), hmoved]

/-- An activation whose checks pass and that runs to its end. -/
theorem step_activated
    (h : Passes crypto w.disk evidence installId sellerId now maxAge file keystore keys)
    (hcut : 2 ≤ cut) :
    Step crypto w (.activate evidence installId sellerId now maxAge cut)
      { w with disk := ⟨some file, none, false⟩, opened := false } := by
  have hends : ¬ cut < [FileOp.replace, FileOp.unlinkPending].length := not_lt.2 hcut
  have hdone : w.disk.perform [.replace, .unlinkPending] cut = ⟨some file, none, false⟩ := by
    rw [Disk.perform, List.take_of_length_le hcut, ← h.staged]
    rfl
  have hkey : crypto.keystoreKey ⟨some file, none, false⟩ = some keys.edPub := by
    simp [DeviceCrypto.keystoreKey, h.content, h.loads]
  rw [Step, call, activation_iff.2 ⟨rfl, file, keystore, keys, h⟩]
  dsimp only
  rw [if_neg hends, hdone, hkey, Option.any_some, activeFor_of_check h.check, Bool.not_true,
    Bool.and_false]

theorem step_activate
    (h : Step crypto w (.activate evidence installId sellerId now maxAge cut) w') :
    Activating crypto w evidence installId sellerId now maxAge cut w' := by
  cases hplan : crypto.activation w.disk evidence installId sellerId now maxAge with
  | none =>
    rw [Step, call, hplan] at h
    obtain rfl := h
    exact .left
  | some ops =>
    obtain ⟨rfl, file, keystore, keys, hpasses⟩ := activation_iff.1 hplan
    rcases cut with _ | _ | cut
    · rw [Step, call, hplan] at h
      obtain rfl := h
      exact .left
    · obtain rfl := h.symm.trans (step_moved hpasses)
      exact .moved hpasses rfl
    · obtain rfl := h.symm.trans (step_activated hpasses (by omega))
      exact .done hpasses (by omega)

end

theorem step_sign {service : PreviewSigningService} {clock : Instant} {preimage : Bytes}
    {reference : String} (h : Step crypto w (.sign service clock preimage reference) w') :
    w' = w := by
  rw [Step, call] at h
  cases hsign : service.sign crypto w.disk clock preimage reference <;>
    rw [hsign] at h <;> exact h.symm

/-- Platform keys are stored beside the other files. -/
theorem step_storePlatformKeys {platformEd25519Pub platformX25519Pub certificate : String}
    {cut : ℕ}
    (h : Step crypto w (.storePlatformKeys platformEd25519Pub platformX25519Pub certificate cut)
      w') :
    w' = w ∨ ∃ file ∈ w.disk.keystore, ∃ keystore ∈ file.content,
      w' = { w with disk := (w.disk.apply (.writeKeystore
        (withPlatformKeys platformEd25519Pub platformX25519Pub certificate keystore))) } := by
  rw [Step, call] at h
  cases hplan : platformKeysStored w.disk platformEd25519Pub platformX25519Pub certificate with
  | none =>
    rw [hplan] at h
    exact Or.inl h.symm
  | some ops =>
    rw [hplan] at h
    obtain ⟨file, hfile, hplan⟩ := Option.bind_eq_some_iff.1 hplan
    obtain ⟨keystore, hkeystore, hplan⟩ := Option.bind_eq_some_iff.1 hplan
    split_ifs at hplan
    obtain rfl := Option.some.inj hplan
    rcases cut with _ | cut
    · exact Or.inl h.symm
    · refine Or.inr ⟨file, hfile, keystore, hkeystore, h.symm.trans ?_⟩
      dsimp only
      rw [Disk.perform, List.take_of_length_le (by simp)]
      rfl

/-- Keys are opened where no sentinel is. -/
theorem openKeys_pending {disk : Disk} (h : disk.pending = true) : crypto.openKeys disk = none := by
  rw [DeviceCrypto.openKeys, h]
  cases disk.keystore with
  | none => rfl
  | some file => simp

/-- Keys are opened where the keystore is as it was written, its public key that of its private
    key, and no sentinel is. -/
theorem openKeys_written {keystore : Keystore} {staged : Option KeyFile} {keys : Keys}
    (hpassphrase : crypto.passphrase ≠ "") (hdirectory : crypto.directoryMode &&& 0o022 = 0)
    (hkeys : crypto.loadKeys keystore = some keys)
    (hpair : crypto.publicKey keys.edPriv = keys.edPub) :
    crypto.openKeys ⟨some { content := some keystore }, staged, false⟩ = some keys := by
  simp [DeviceCrypto.openKeys, hpassphrase, hdirectory, hkeys, hpair]

/-- A signature is made with the keys of the keystore. -/
theorem openKeys_of_signed {service : PreviewSigningService} {clock : Instant} {preimage : Bytes}
    {reference : String} {signature : Bytes}
    (h : (call crypto w (.sign service clock preimage reference)).1 = .signed signature) :
    crypto.openKeys w.disk ≠ none := by
  intro hnone
  have hsign : service.sign crypto w.disk clock preimage reference =
      refuseSigning "signing_authority_unavailable" := by
    rw [PreviewSigningService.sign, PreviewSigningService.keys, hnone]
    rfl
  rw [call, hsign] at h
  cases h

theorem sentinel_step (hw : Sentinel w) (h : Step crypto w e w') : Sentinel w' := by
  rcases e with ⟨installId, token, generated, cut, applied, reply⟩ |
    ⟨evidence, installId, sellerId, now, maxAge, cut⟩ | ⟨time, token, applied, reply⟩ |
    ⟨ed, x, certificate, cut⟩ | ⟨service, clock, preimage, reference⟩
  · cases step_rotate h with
    | left => exact hw
    | begun _ _ _ _ => exact fun _ => rfl
    | staged _ _ _ _ _ _ _ => exact fun _ => rfl
  · cases step_activate h with
    | left => exact hw
    | moved _ _ => exact fun _ => rfl
    | done _ _ => exact fun h => by cases h
  · obtain rfl := h
    exact fun _ => rfl
  · rcases step_storePlatformKeys h with rfl | ⟨file, -, keystore, -, rfl⟩
    · exact hw
    · exact hw
  · rw [step_sign h]
    exact hw

/-- A step is guarded, or is an activation with evidence from before a revocation that makes
    signing possible. -/
theorem guarded_iff (hw : Sentinel w) (h : Step crypto w e w') :
    Guarded crypto w e w' ↔ Unspent crypto w e := by
  constructor
  · rintro hguarded evidence installId sellerId now maxAge cut rfl houtdated hcut file keystore
      keys hpasses
    obtain rfl := h.symm.trans (step_activated hpasses hcut)
    exact hguarded.revoked _ _ _ _ _ _ rfl houtdated (openKeys_pending hpasses.pending)
  · intro hunspent
    refine ⟨?_, ?_⟩
    · rintro service clock preimage reference signature rfl hsigned
      by_contra hopened
      rw [Bool.not_eq_false] at hopened
      exact openKeys_of_signed hsigned (openKeys_pending (hw hopened))
    · rintro evidence installId sellerId now maxAge cut rfl houtdated hnone
      cases step_activate h with
      | left => exact hnone
      | moved _ _ => exact openKeys_pending rfl
      | done hpasses hcut => exact hunspent _ _ _ _ _ _ rfl houtdated hcut _ _ _ hpasses

end

/-! ## A run -/

/-- **From where an open rotation or revocation has left the sentinel, a run makes no signature
    while one is open and gets none back by evidence from before a revocation just when no
    activation that passes brings such evidence for a usable copy.** -/
theorem guarded_iff_unspent {crypto : DeviceCrypto} {w w' : World} {events : List Event}
    (hw : Sentinel w) :
    Run (fun t e t' => Step crypto t e t' ∧ Guarded crypto t e t') w events w' ↔
      Run (fun t e t' => Step crypto t e t' ∧ Unspent crypto t e) w events w' :=
  Run.restrict_iff (fun ht h => sentinel_step ht h) (fun ht h => guarded_iff ht h) hw

/-! ## Signing after a revocation -/

/-- An install whose libraries do nothing to keys and tokens. -/
def plain : DeviceCrypto where
  passphrase := "p"
  directoryMode := 0o700
  publicKey := id
  exchangeKey := id
  sign := fun _ preimage => preimage
  encrypt := fun _ _ raw => raw
  decrypt := fun _ token => some token

theorem plain_decrypts : plain.Decrypts := fun _ _ _ => rfl

def generated (b : UInt8) : Generated := ⟨⟨List.replicate 32 b, List.length_replicate⟩, [], []⟩

def install : Uuid := ⟨"00000000-0000-4000-8000-000000000001", rfl⟩

def seller : Uuid := ⟨"00000000-0000-4000-8000-000000000002", rfl⟩

def instantOne : Instant := ⟨"2024-01-01T00:00:01.000000Z", by decide +kernel⟩

def instantTwo : Instant := ⟨"2024-01-01T00:00:02.000000Z", by decide +kernel⟩

def instantThree : Instant := ⟨"2024-01-01T00:00:03.000000Z", by decide +kernel⟩

/-- An install that signs with its first key. -/
def installed : World where
  disk := { keystore := some { content := some (plain.saveKeys (generated 1) (generated 2)) } }
  registry := { key := (generated 1).priv }

/-- The copy that a rotation stages. -/
def copied : Keystore := plain.replacement (generated 3) (plain.saveKeys (generated 1) (generated 2))

def rotated : World :=
  { installed with
    disk := ⟨installed.disk.keystore, some { content := some copied }, true⟩
    registry := { key := (generated 3).priv }
    opened := true }

def rotateCall : Event := .rotate install.1 "t" (generated 3) 2 true .timeout

def revokeCall : Event := .revoke instantTwo "t" true (.response 204 (.ok .null) "")

def evidenceOne : Json := registration install seller (generated 3).priv "active" instantOne

def activateCall : Event := .activate evidenceOne install.1 seller.1 instantThree 3600000000000 2

def revoked : World :=
  { rotated with
    registry := { rotated.registry with revoked := true }
    revocations := [instantTwo] }

/-- The staged key is the keystore's, and no sentinel is left. -/
def activated : World :=
  { revoked with disk := ⟨some { content := some copied }, none, false⟩, opened := false }

theorem loadKeys_copied : plain.loadKeys copied =
    some ⟨(generated 3).priv, (generated 3).priv, (generated 2).priv, (generated 2).priv⟩ :=
  loadKeys_setPair plain_decrypts _ _ (loadKeys_saveKeys plain_decrypts (generated 1) (generated 2))

theorem step_installed : Step plain installed rotateCall rotated :=
  step_rotated install.1 (generated 3) true .timeout (by decide) rfl rfl le_rfl rfl rfl
    (loadKeys_saveKeys plain_decrypts (generated 1) (generated 2))

theorem check_evidenceOne : (checkEvidence evidenceOne install.1 seller.1 (generated 3).priv
    instantThree 3600000000000).isOk = true := by
  obtain ⟨e, he⟩ := checkEvidence_registration install seller (generated 3).priv
    (show nanoseconds instantOne.1 ≤ nanoseconds instantThree.1 by decide +kernel)
    (show nanoseconds instantThree.1 - nanoseconds instantOne.1 < 3600000000000 by
      decide +kernel)
  rw [evidenceOne, he]
  rfl

/-- **The install is revoked, and signs again by evidence from before its revocation.** -/
theorem revoked_signs :
    Run (Step plain) installed [rotateCall, revokeCall] revoked ∧
      Step plain revoked activateCall activated ∧
      ¬ Guarded plain revoked activateCall activated := by
  refine ⟨.cons step_installed (.cons rfl .nil),
    step_activated ⟨rfl, rfl, rfl, rfl, loadKeys_copied, check_evidenceOne⟩ le_rfl,
    fun hguarded => ?_⟩
  have houtdated : revoked.Outdated evidenceOne :=
    ⟨nanoseconds instantOne.1, congrArg (Option.map _) (closed_ok (closed_registration install
      seller (generated 3).priv (by decide) instantOne)), instantTwo, List.mem_singleton_self _,
      by decide +kernel⟩
  have hnone := hguarded.revoked _ _ _ _ _ _ rfl houtdated (openKeys_pending rfl)
  have hopen : plain.openKeys activated.disk = some _ :=
    openKeys_written (by decide) (by decide) loadKeys_copied rfl
  rw [hopen] at hnone
  cases hnone

/-- A rotation that runs to its request is guarded. -/
theorem rotation_guarded :
    Run (fun t e t' => Step plain t e t' ∧ Guarded plain t e t') installed [rotateCall] rotated :=
  (guarded_iff_unspent (fun h => by cases h)).2
    (.cons ⟨step_installed, fun _ _ _ _ _ _ h => by cases h⟩ .nil)

end InstallKey

end AimData
