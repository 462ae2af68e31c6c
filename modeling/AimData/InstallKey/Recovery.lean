/-
  The way out of a rotation that stopped.

  A rotation that is open is left by an activation of its staged copy alone, so an install
  signs again unless the sentinel stands without a copy of the registered key
  (`recoverable_iff`).  Crashes at the sentinel or between the two steps of an activation, and
  a request without effect, lead there; and an activation takes back the platform keys that
  were stored since the copy was made (`kept_iff_whole`).
-/
import AimData.InstallKey.Rotation

namespace AimData

namespace InstallKey

open Contract
open RawListings (Reply)

/-! ## Keystores as they are written -/

/-- The file is as `_write_keystore` leaves it, and holds a private key with its public key. -/
def Holds (crypto : DeviceCrypto) (file : KeyFile) (keys : Keys) : Prop :=
  ∃ keystore, file = { content := some keystore } ∧ crypto.loadKeys keystore = some keys ∧
    crypto.publicKey keys.edPriv = keys.edPub

/-- The keystore holds a pair, and so does a staged copy, which no sentinel is missing from. -/
structure Intact (crypto : DeviceCrypto) (disk : Disk) : Prop where
  keystore : ∃ file keys, disk.keystore = some file ∧ Holds crypto file keys
  staged : ∀ file, disk.staged = some file →
    disk.pending = true ∧ ∃ keys, Holds crypto file keys

/-- The passphrase and the directory are as signing asks, and tokens decrypt. -/
structure Ready (crypto : DeviceCrypto) : Prop where
  passphrase : crypto.passphrase ≠ ""
  directory : crypto.directoryMode &&& 0o022 = 0
  decrypts : crypto.Decrypts

/-! ## Recovery -/

/-- Evidence calls active no key but the registered one, and none once that is revoked. -/
def Registry.Truthful (registry : Registry) (evidence : Json) : Prop :=
  ∀ dump, registrationEvidence evidence = some dump → getStr (asObj dump) "status" = "active" →
    getStr (asObj dump) "fingerprint" = fingerprint registry.key ∧ registry.revoked = false

section

variable (crypto : DeviceCrypto) (install seller : Uuid) (now : Instant)

/-- Further calls: rotations, and activations with truthful evidence. -/
inductive Further : World → Event → World → Prop
  | rotate {w w' : World} {installId accessToken : String} {generated : Generated} {cut : ℕ}
    {applied : Bool} {reply : Reply} :
    Step crypto w (.rotate installId accessToken generated cut applied reply) w' →
    Further w (.rotate installId accessToken generated cut applied reply) w'
  | activate {w w' : World} {evidence : Json} {maxAge : ℤ} {cut : ℕ} :
    Step crypto w (.activate evidence install.1 seller.1 now maxAge cut) w' →
    w.registry.Truthful evidence →
    Further w (.activate evidence install.1 seller.1 now maxAge cut) w'

/-- Signing works with the registered key. -/
def Works (w : World) : Prop :=
  ∃ keys, crypto.openKeys w.disk = some keys ∧ keys.edPub = w.registry.key

def Recoverable (w : World) : Prop :=
  ∃ events w', Run (Further crypto install seller now) w events w' ∧ Works crypto w'

/-- Where the sentinel is, the staged key is the registered one. -/
def Matching (w : World) : Prop :=
  w.disk.pending = true → ∃ file keys, w.disk.staged = some file ∧ Holds crypto file keys ∧
    fingerprint keys.edPub = fingerprint w.registry.key

end

section

variable {crypto : DeviceCrypto} {install seller : Uuid} {now : Instant} {w w' : World} {e : Event}

theorem Holds.passes {disk : Disk} {file : KeyFile} {keys : Keys} {evidence : Json}
    {installId sellerId : String} {maxAge : ℤ} (h : Holds crypto file keys)
    (hpending : disk.pending = true) (hstaged : disk.staged = some file)
    (hcheck : (checkEvidence evidence installId sellerId keys.edPub now maxAge).isOk = true) :
    ∃ keystore, Passes crypto disk evidence installId sellerId now maxAge file keystore keys := by
  obtain ⟨keystore, rfl, hkeys, -⟩ := h
  exact ⟨keystore, hpending, hstaged, rfl, rfl, hkeys, hcheck⟩

/-- The keys of a file that holds a pair. -/
theorem Holds.keys_eq {file : KeyFile} {keystore : Keystore} {keys keys' : Keys}
    (h : Holds crypto file keys) (hcontent : file.content = some keystore)
    (hkeys : crypto.loadKeys keystore = some keys') : keys = keys' := by
  obtain ⟨keystore', rfl, hkeys', -⟩ := h
  obtain rfl := Option.some.inj hcontent
  exact Option.some.inj (hkeys'.symm.trans hkeys)

theorem Holds.opens (hready : Ready crypto) {file : KeyFile} {keys : Keys}
    {staged : Option KeyFile} (h : Holds crypto file keys) :
    crypto.openKeys ⟨some file, staged, false⟩ = some keys := by
  obtain ⟨keystore, rfl, hkeys, hpair⟩ := h
  exact openKeys_written hready.passphrase hready.directory hkeys hpair

/-- The copy that a rotation stages holds the new pair. -/
theorem holds_replacement (hready : Ready crypto) (generated : Generated) {old : Keystore}
    {keys : Keys} (hkeys : crypto.loadKeys old = some keys) :
    Holds crypto { content := some (crypto.replacement generated old) }
      { keys with edPriv := generated.priv, edPub := crypto.publicKey generated.priv } :=
  ⟨_, rfl, loadKeys_setPair hready.decrypts _ generated hkeys, rfl⟩

theorem Intact.staged_none (h : Intact crypto w.disk) (hpending : w.disk.pending = false) :
    w.disk.staged = none := by
  cases hstaged : w.disk.staged with
  | none => rfl
  | some file =>
    have := (h.staged file hstaged).1
    rw [hpending] at this
    cases this

/-! ### Worlds without a way out -/

/-- **A call changes nothing where the sentinel stands without a copy of the registered key.** -/
theorem further_stuck (hintact : Intact crypto w.disk) (hpending : w.disk.pending = true)
    (hother : ∀ file keys, w.disk.staged = some file → Holds crypto file keys →
      fingerprint keys.edPub ≠ fingerprint w.registry.key)
    (h : Further crypto install seller now w e w') : w' = w := by
  cases h with
  | rotate h =>
    cases step_rotate h with
    | left => rfl
    | begun _ hnone _ _ => rw [hpending] at hnone; cases hnone
    | staged _ hnone _ _ _ _ _ => rw [hpending] at hnone; cases hnone
  | activate h htruthful =>
    have hrefused {file : KeyFile} {keystore : Keystore} {keys : Keys} {evidence : Json}
        {maxAge : ℤ} (htruthful : w.registry.Truthful evidence)
        (hpasses : Passes crypto w.disk evidence install.1 seller.1 now maxAge file keystore
          keys) : False := by
      obtain ⟨-, keys', hholds⟩ := hintact.staged file hpasses.staged
      obtain rfl := hholds.keys_eq hpasses.content hpasses.loads
      cases hcheck : checkEvidence evidence install.1 seller.1 keys'.edPub now maxAge with
      | error exc =>
        have := hpasses.check
        rw [hcheck] at this
        cases this
      | ok checked =>
        obtain ⟨-, ⟨dump, hdump, rfl⟩, -, -, hkey, hstatus, -, -⟩ := checkEvidence_iff.1 hcheck
        exact hother file keys' hpasses.staged hholds
          (hkey.symm.trans (htruthful dump hdump hstatus).1)
    cases step_activate h with
    | left => rfl
    | moved hpasses _ => exact (hrefused htruthful hpasses).elim
    | done hpasses _ => exact (hrefused htruthful hpasses).elim

theorem not_recoverable (hintact : Intact crypto w.disk) (hpending : w.disk.pending = true)
    (hother : ∀ file keys, w.disk.staged = some file → Holds crypto file keys →
      fingerprint keys.edPub ≠ fingerprint w.registry.key) :
    ¬ Recoverable crypto install seller now w := by
  rintro ⟨events, w', hrun, keys, hopen, -⟩
  have hsame : w' = w := by
    induction hrun with
    | nil => rfl
    | cons hstep _ ih =>
      obtain rfl := further_stuck hintact hpending hother hstep
      exact ih hintact hpending hother hopen
  rw [hsame, openKeys_pending hpending] at hopen
  cases hopen

/-! ### The way out -/

/-- Truthful evidence of the registered key. -/
theorem truthful_registration {registry : Registry} (hlive : registry.revoked = false)
    (observed : Instant) :
    registry.Truthful (registration install seller registry.key "active" observed) := by
  intro dump hdump _
  have hclosed := closed_ok (closed_registration install seller registry.key
    (by decide : "active" ∈ ["active", "rotated", "revoked"]) observed)
  obtain rfl := Option.some.inj (hdump.symm.trans hclosed)
  exact ⟨rfl, hlive⟩

/-- An activation of a staged copy of a key with the registered fingerprint. -/
theorem further_activates (install seller : Uuid) (now : Instant)
    (hlive : w.registry.revoked = false) (hpending : w.disk.pending = true)
    {file : KeyFile} {keys : Keys} (hstaged : w.disk.staged = some file)
    (hholds : Holds crypto file keys)
    (hkey : fingerprint keys.edPub = fingerprint w.registry.key) :
    ∃ e, Further crypto install seller now w e
      { w with disk := ⟨some file, none, false⟩, opened := false } := by
  have hcheck : (checkEvidence (registration install seller w.registry.key "active" now)
      install.1 seller.1 keys.edPub now 1).isOk = true := by
    obtain ⟨e, he⟩ := checkEvidence_registration install seller w.registry.key (le_refl
      (nanoseconds now.1)) (show nanoseconds now.1 - nanoseconds now.1 < 1 by omega)
    have hsame := checkEvidence_iff.1 he
    rw [checkEvidence_iff.2 ⟨hsame.1, hsame.2.1, hsame.2.2.1, hsame.2.2.2.1,
      hsame.2.2.2.2.1.trans hkey.symm, hsame.2.2.2.2.2⟩]
    rfl
  obtain ⟨keystore, hpasses⟩ := hholds.passes hpending hstaged hcheck
  exact ⟨_, .activate (step_activated hpasses le_rfl) (truthful_registration hlive now)⟩

/-- A rotation that takes effect and its activation. -/
theorem recoverable_of_closed (install seller : Uuid) (now : Instant) (hready : Ready crypto)
    (hintact : Intact crypto w.disk)
    (hlive : w.registry.revoked = false) (hpending : w.disk.pending = false) :
    Recoverable crypto install seller now w := by
  obtain ⟨file, keys, hfile, old, rfl, hkeys, -⟩ := hintact.keystore
  have hrotated := step_rotated install.1 (generated 0) true .timeout
    (show "token" ≠ "" by decide) hpending (hintact.staged_none hpending) le_rfl hfile rfl hkeys
  obtain ⟨e, hactivated⟩ := further_activates install seller now
    (w := { w with
      disk := ⟨w.disk.keystore, some { content := some (crypto.replacement (generated 0) old) },
        true⟩
      registry := { w.registry with key := crypto.publicKey (generated 0).priv }
      opened := true }) hlive rfl rfl (holds_replacement hready (generated 0) hkeys) rfl
  exact ⟨_, _, .cons (.rotate hrotated) (.cons hactivated .nil), _,
    (holds_replacement hready (generated 0) hkeys).opens hready, rfl⟩

/-- **The install signs again just when a sentinel stands beside a copy of the registered key.** -/
theorem recoverable_iff (hready : Ready crypto) (hintact : Intact crypto w.disk)
    (hlive : w.registry.revoked = false) :
    Recoverable crypto install seller now w ↔ Matching crypto w := by
  constructor
  · intro hrecoverable hpending
    by_contra hnone
    refine not_recoverable hintact hpending (fun file keys hstaged hholds hkey => ?_) hrecoverable
    exact hnone ⟨file, keys, hstaged, hholds, hkey⟩
  · intro hmatching
    by_cases hpending : w.disk.pending = true
    · obtain ⟨file, keys, hstaged, hholds, hkey⟩ := hmatching hpending
      obtain ⟨e, hactivated⟩ := further_activates install seller now
        hlive hpending hstaged hholds hkey
      have hintact' : Intact crypto ⟨some file, none, false⟩ :=
        ⟨⟨file, keys, rfl, hholds⟩, fun _ h => by cases h⟩
      obtain ⟨events, w', hrun, hworks⟩ := recoverable_of_closed install seller now
        (w := { w with disk := ⟨some file, none, false⟩, opened := false }) hready hintact' hlive
        rfl
      exact ⟨_, w', .cons hactivated hrun, hworks⟩
    · rw [Bool.not_eq_true] at hpending
      exact recoverable_of_closed install seller now hready hintact hlive hpending

end

/-! ## What a step keeps -/

def platformFields : List String :=
  ["platform_ed25519_public_key", "platform_x25519_public_key", "certificate"]

/-- A field of the keystore. -/
def Disk.field (disk : Disk) (name : String) : Option String := do
  (← (← disk.keystore).content).lookup name

/-- The calls of an install that is not revoked. -/
def Live (e : Event) : Prop :=
  ∀ time accessToken applied reply, e ≠ .revoke time accessToken applied reply

section

variable (crypto : DeviceCrypto) (install seller : Uuid) (now : Instant)

/-- The keystore holds a private key with its public key, and the platform keys and the
    certificate that are stored in it; and the install can sign again. -/
structure Kept (w : World) (e : Event) (w' : World) : Prop where
  paired : ∃ file keys, w'.disk.keystore = some file ∧ Holds crypto file keys
  platform : (∀ platformEd25519Pub platformX25519Pub certificate cut,
      e ≠ .storePlatformKeys platformEd25519Pub platformX25519Pub certificate cut) →
    ∀ name ∈ platformFields, ∀ value, w.disk.field name = some value →
      w'.disk.field name = some value
  recovers : Recoverable crypto install seller now w'

/-- A rotation that begins is not cut off at its sentinel, and its request takes effect; an
    activation that begins is not cut off at its move, and its copy has the platform keys that
    are stored. -/
structure Whole (w : World) (e : Event) : Prop where
  rotates : ∀ installId accessToken generated cut applied reply,
    e = .rotate installId accessToken generated cut applied reply → accessToken ≠ "" →
      w.disk.pending = false → cut ≠ 1 ∧ (2 ≤ cut → applied = true ∨
        fingerprint (crypto.publicKey generated.priv) = fingerprint w.registry.key)
  activates : ∀ evidence installId sellerId now maxAge cut file keystore keys,
    e = .activate evidence installId sellerId now maxAge cut →
      Passes crypto w.disk evidence installId sellerId now maxAge file keystore keys →
        cut ≠ 1 ∧ (2 ≤ cut → ∀ name ∈ platformFields, ∀ value,
          w.disk.field name = some value → keystore.lookup name = some value)

end

section

variable {crypto : DeviceCrypto} {install seller : Uuid} {now : Instant} {w w' : World} {e : Event}

/-- Storing platform keys keeps every other field. -/
theorem lookup_withPlatformKeys {name : String} (hname : name ∉ platformFields)
    (platformEd25519Pub platformX25519Pub certificate : String) (keystore : Keystore) :
    (withPlatformKeys platformEd25519Pub platformX25519Pub certificate keystore).lookup name =
      keystore.lookup name := by
  simp only [platformFields, List.mem_cons, List.not_mem_nil, or_false, not_or] at hname
  rw [withPlatformKeys, AList.lookup_insert_ne hname.2.2, AList.lookup_insert_ne hname.2.1,
    AList.lookup_insert_ne hname.1]

/-- Storing platform keys keeps the pair. -/
theorem Holds.withPlatformKeys {file : KeyFile} {keystore : Keystore} {keys : Keys}
    (h : Holds crypto file keys) (hcontent : file.content = some keystore)
    (platformEd25519Pub platformX25519Pub certificate : String) :
    Holds crypto (.written
      (withPlatformKeys platformEd25519Pub platformX25519Pub certificate keystore)) keys := by
  obtain ⟨keystore', rfl, hkeys, hpair⟩ := h
  obtain rfl := Option.some.inj hcontent
  refine ⟨_, rfl, ?_, hpair⟩
  have hsame (slot : Slot) (hpub : slot.publicKey ∉ platformFields)
      (hpriv : slot.privateKey ∉ platformFields) (hsalt : slot.salt ∉ platformFields) :=
    loadPair_congr crypto (lookup_withPlatformKeys hpub platformEd25519Pub
      platformX25519Pub certificate keystore') (lookup_withPlatformKeys hpriv _ _ _ keystore')
      (lookup_withPlatformKeys hsalt _ _ _ keystore')
  rw [DeviceCrypto.loadKeys, hsame ed25519 (by decide) (by decide) (by decide),
    hsame x25519 (by decide) (by decide) (by decide), ← DeviceCrypto.loadKeys, hkeys]

theorem intact_step (hready : Ready crypto) (hintact : Intact crypto w.disk)
    (h : Step crypto w e w') (hlive : Live e) : Intact crypto w'.disk := by
  rcases e with ⟨installId, token, generated, cut, applied, reply⟩ |
    ⟨evidence, installId, sellerId, now, maxAge, cut⟩ | ⟨time, token, applied, reply⟩ |
    ⟨ed, x, certificate, cut⟩ | ⟨service, clock, preimage, reference⟩
  · cases step_rotate h with
    | left => exact hintact
    | begun _ _ _ _ => exact ⟨hintact.keystore, fun _ h => by cases h⟩
    | staged _ _ _ _ _ _ hkeys =>
      refine ⟨hintact.keystore, fun file hstaged => ⟨rfl, ?_⟩⟩
      obtain rfl := Option.some.inj hstaged
      exact ⟨_, holds_replacement hready generated hkeys⟩
  · cases step_activate h with
    | left => exact hintact
    | moved hpasses _ =>
      obtain ⟨-, keys, hholds⟩ := hintact.staged _ hpasses.staged
      exact ⟨⟨_, keys, rfl, hholds⟩, fun _ h => by cases h⟩
    | done hpasses _ =>
      obtain ⟨-, keys, hholds⟩ := hintact.staged _ hpasses.staged
      exact ⟨⟨_, keys, rfl, hholds⟩, fun _ h => by cases h⟩
  · exact absurd rfl (hlive time token applied reply)
  · rcases step_storePlatformKeys h with rfl | ⟨file, hfile, keystore, hkeystore, rfl⟩
    · exact hintact
    · obtain ⟨file', keys, hfile', hholds⟩ := hintact.keystore
      obtain rfl := Option.some.inj (hfile'.symm.trans hfile)
      exact ⟨⟨_, keys, rfl, hholds.withPlatformKeys hkeystore ed x certificate⟩, hintact.staged⟩
  · rw [step_sign h]
    exact hintact

theorem revoked_step (hrevoked : w.registry.revoked = false) (h : Step crypto w e w')
    (hlive : Live e) : w'.registry.revoked = false := by
  rcases e with ⟨installId, token, generated, cut, applied, reply⟩ |
    ⟨evidence, installId, sellerId, now, maxAge, cut⟩ | ⟨time, token, applied, reply⟩ |
    ⟨ed, x, certificate, cut⟩ | ⟨service, clock, preimage, reference⟩
  · cases step_rotate h with
    | left => exact hrevoked
    | begun _ _ _ _ => exact hrevoked
    | staged _ _ _ _ _ _ _ =>
      dsimp only
      split_ifs
      · exact hrevoked
      · exact hrevoked
  · cases step_activate h with
    | left => exact hrevoked
    | moved _ _ => exact hrevoked
    | done _ _ => exact hrevoked
  · exact absurd rfl (hlive time token applied reply)
  · rcases step_storePlatformKeys h with rfl | ⟨file, -, keystore, -, rfl⟩
    · exact hrevoked
    · exact hrevoked
  · rw [step_sign h]
    exact hrevoked

/-- A whole call leaves no sentinel without a copy of the registered key. -/
theorem matching_step (hready : Ready crypto) (hmatching : Matching crypto w)
    (h : Step crypto w e w') (hlive : Live e) (hwhole : Whole crypto w e) :
    Matching crypto w' := by
  rcases e with ⟨installId, token, generated, cut, applied, reply⟩ |
    ⟨evidence, installId, sellerId, now, maxAge, cut⟩ | ⟨time, token, applied, reply⟩ |
    ⟨ed, x, certificate, cut⟩ | ⟨service, clock, preimage, reference⟩
  · have hrotates := hwhole.rotates installId token generated cut applied reply rfl
    cases step_rotate h with
    | left => exact hmatching
    | begun htoken hpending _ hcut => exact absurd hcut (hrotates htoken hpending).1
    | staged htoken hpending _ hcut _ _ hkeys =>
      refine fun _ => ⟨_, _, rfl, holds_replacement hready generated hkeys, ?_⟩
      dsimp only
      by_cases happlied : applied = true
      · rw [if_pos happlied]
      · rw [if_neg happlied]
        exact ((hrotates htoken hpending).2 hcut).resolve_left happlied
  · have hactivates := hwhole.activates evidence installId sellerId now maxAge cut
    cases step_activate h with
    | left => exact hmatching
    | moved hpasses hcut => exact absurd hcut (hactivates _ _ _ rfl hpasses).1
    | done _ _ => exact fun hpending => by cases hpending
  · exact absurd rfl (hlive time token applied reply)
  · rcases step_storePlatformKeys h with rfl | ⟨file, -, keystore, -, rfl⟩
    · exact hmatching
    · exact hmatching
  · rw [step_sign h]
    exact hmatching

/-- A whole call keeps the platform keys. -/
theorem platform_step (h : Step crypto w e w') (hlive : Live e) (hwhole : Whole crypto w e)
    (hstore : ∀ platformEd25519Pub platformX25519Pub certificate cut,
      e ≠ .storePlatformKeys platformEd25519Pub platformX25519Pub certificate cut)
    {name : String} (hname : name ∈ platformFields) {value : String}
    (hvalue : w.disk.field name = some value) : w'.disk.field name = some value := by
  rcases e with ⟨installId, token, generated, cut, applied, reply⟩ |
    ⟨evidence, installId, sellerId, now, maxAge, cut⟩ | ⟨time, token, applied, reply⟩ |
    ⟨ed, x, certificate, cut⟩ | ⟨service, clock, preimage, reference⟩
  · cases step_rotate h with
    | left => exact hvalue
    | begun _ _ _ _ => exact hvalue
    | staged _ _ _ _ _ _ _ => exact hvalue
  · have hactivates := hwhole.activates evidence installId sellerId now maxAge cut
    cases step_activate h with
    | left => exact hvalue
    | moved hpasses hcut => exact absurd hcut (hactivates _ _ _ rfl hpasses).1
    | done hpasses hcut =>
      have hcopied := (hactivates _ _ _ rfl hpasses).2 hcut name hname value hvalue
      rw [Disk.field]
      simpa [hpasses.content] using hcopied
  · exact absurd rfl (hlive time token applied reply)
  · exact absurd rfl (hstore ed x certificate cut)
  · rw [step_sign h]
    exact hvalue

/-- The install of a world is not revoked, and has a way out. -/
structure Sound (crypto : DeviceCrypto) (w : World) : Prop where
  intact : Intact crypto w.disk
  revoked : w.registry.revoked = false
  matching : Matching crypto w

/-- **A call keeps the keystore and the way out just when it is whole.** -/
theorem kept_iff (hready : Ready crypto) (hw : Sound crypto w) (h : Step crypto w e w')
    (hlive : Live e) : Kept crypto install seller now w e w' ↔ Whole crypto w e := by
  have hintact := hw.intact
  have hintact' := intact_step hready hintact h hlive
  have hrevoked' := revoked_step hw.revoked h hlive
  constructor
  · intro hkept
    have hmatching' := (recoverable_iff hready hintact' hrevoked').1 hkept.recovers
    refine ⟨?_, ?_⟩
    · rintro installId token generated cut applied reply rfl htoken hpending
      obtain ⟨file, keys, hfile, old, rfl, hkeys, -⟩ := hintact.keystore
      refine ⟨?_, fun hcut => ?_⟩
      · rintro rfl
        obtain rfl := h.symm.trans (step_begun installId generated applied reply htoken hpending
          (hintact.staged_none hpending) hfile rfl hkeys)
        obtain ⟨_, _, hstaged, -⟩ := hmatching' rfl
        cases hstaged
      · by_contra hnone
        rw [not_or] at hnone
        obtain rfl := h.symm.trans (step_rotated installId generated applied reply htoken hpending
          (hintact.staged_none hpending) hcut hfile rfl hkeys)
        obtain ⟨file, keys', hstaged, hholds, hkey⟩ := hmatching' rfl
        obtain rfl := Option.some.inj hstaged
        rw [hholds.keys_eq rfl (loadKeys_setPair hready.decrypts _ generated hkeys)] at hkey
        dsimp only at hkey
        rw [if_neg hnone.1] at hkey
        exact hnone.2 hkey
    · rintro evidence installId sellerId now' maxAge cut file keystore keys rfl hpasses
      refine ⟨?_, fun hcut name hname value hvalue => ?_⟩
      · rintro rfl
        obtain rfl := h.symm.trans (step_moved hpasses)
        obtain ⟨_, _, hstaged, -⟩ := hmatching' rfl
        cases hstaged
      · obtain rfl := h.symm.trans (step_activated hpasses hcut)
        have hkept := hkept.platform (fun _ _ _ _ h => by cases h) name hname value hvalue
        rw [Disk.field] at hkept
        simpa [hpasses.content] using hkept
  · intro hwhole
    refine ⟨hintact'.keystore, fun hstore name hname value hvalue => ?_, ?_⟩
    · exact platform_step h hlive hwhole hstore hname hvalue
    · exact (recoverable_iff hready hintact' hrevoked').2
        (matching_step hready hw.matching h hlive hwhole)

end

/-! ## A run -/

/-- **From an install without an open rotation, a run of calls other than a revocation keeps the
    pair, the platform keys and the way out just when every rotation and activation in it is
    whole.** -/
theorem kept_iff_whole {crypto : DeviceCrypto} {w w' : World} {events : List Event}
    (install seller : Uuid) (now : Instant) (hready : Ready crypto)
    (hintact : Intact crypto w.disk) (hpending : w.disk.pending = false)
    (hrevoked : w.registry.revoked = false) :
    Run (fun t e t' => (Step crypto t e t' ∧ Live e) ∧ Kept crypto install seller now t e t') w
        events w' ↔
      Run (fun t e t' => (Step crypto t e t' ∧ Live e) ∧ Whole crypto t e) w events w' := by
  have hw : Sound crypto w := ⟨hintact, hrevoked, fun h => by rw [hpending] at h; cases h⟩
  constructor
  · refine fun h => h.mono (I := Sound crypto) (fun ht ⟨⟨hstep, hlive⟩, hkept⟩ => ?_) hw
    have hintact' := intact_step hready ht.intact hstep hlive
    have hrevoked' := revoked_step ht.revoked hstep hlive
    exact ⟨⟨hintact', hrevoked', (recoverable_iff hready hintact' hrevoked').1 hkept.recovers⟩,
      ⟨hstep, hlive⟩, (kept_iff hready ht hstep hlive).1 hkept⟩
  · refine fun h => h.mono (I := Sound crypto) (fun ht ⟨⟨hstep, hlive⟩, hwhole⟩ => ?_) hw
    exact ⟨⟨intact_step hready ht.intact hstep hlive, revoked_step ht.revoked hstep hlive,
      matching_step hready ht.matching hstep hlive hwhole⟩, ⟨hstep, hlive⟩,
      (kept_iff hready ht hstep hlive).2 hwhole⟩

/-! ## Rotations that stop or go back -/

theorem plain_ready : Ready plain := ⟨by decide, by decide, plain_decrypts⟩

theorem intact_installed : Intact plain installed.disk :=
  ⟨⟨_, _, rfl, _, rfl, loadKeys_saveKeys plain_decrypts (generated 1) (generated 2), rfl⟩,
    fun _ h => by cases h⟩

/-- The crash of a rotation that has left its sentinel. -/
def crashed : World :=
  { installed with disk := ⟨installed.disk.keystore, none, true⟩, opened := true }

/-- Platform keys are stored while the rotation is open. -/
def stored : World :=
  { rotated with disk := rotated.disk.apply (.writeKeystore
    (withPlatformKeys "a" "b" "c" (plain.saveKeys (generated 1) (generated 2)))) }

def storeCall : Event := .storePlatformKeys "a" "b" "c" 1

def goneBack : World :=
  { stored with disk := ⟨some { content := some copied }, none, false⟩, opened := false }

/-- **No further call brings signing back after a crash at the sentinel; and an activation with
    truthful evidence takes back a certificate that was stored during the rotation.** -/
theorem rotation_loses :
    (Step plain installed (.rotate install.1 "t" (generated 3) 1 false .timeout) crashed ∧
      ¬ Recoverable plain install seller instantThree crashed) ∧
    Run (Step plain) installed [rotateCall, storeCall] stored ∧
      stored.registry.Truthful evidenceOne ∧ Step plain stored activateCall goneBack ∧
      stored.disk.field "certificate" = some "c" ∧
      goneBack.disk.field "certificate" = none := by
  have hloads := loadKeys_saveKeys plain_decrypts (generated 1) (generated 2)
  have hcrashed : Step plain installed (.rotate install.1 "t" (generated 3) 1 false .timeout)
      crashed :=
    step_begun install.1 (generated 3) false .timeout (by decide) rfl rfl rfl rfl hloads
  refine ⟨⟨hcrashed, ?_⟩, .cons step_installed (.cons rfl .nil),
    truthful_registration rfl instantOne,
    step_activated ⟨rfl, rfl, rfl, rfl, loadKeys_copied, check_evidenceOne⟩ le_rfl, ?_, ?_⟩
  · exact not_recoverable (intact_step plain_ready intact_installed hcrashed
      fun _ _ _ _ h => by cases h) rfl fun _ _ h => by cases h
  · decide
  · decide

/-- A rotation that takes effect is kept. -/
theorem rotation_kept :
    Run (fun t e t' => (Step plain t e t' ∧ Live e) ∧
      Kept plain install seller instantThree t e t') installed [rotateCall] rotated :=
  (kept_iff_whole install seller instantThree plain_ready intact_installed rfl rfl).2
    (.cons ⟨⟨step_installed, fun _ _ _ _ h => by cases h⟩,
      fun _ _ _ _ _ _ h _ _ => by cases h; exact ⟨by decide, fun _ => Or.inl rfl⟩,
      fun _ _ _ _ _ _ _ _ _ h => by cases h⟩ .nil)

end InstallKey

end AimData
