/-
  The keystore of an install: its encrypted key pairs and what else it holds, and the
  registration evidence that a key is checked against.

  The curves and the encryption under the passphrase are parameters.  A key that was
  encrypted for the keystore is loaded from it again (`loadKeys_saveKeys`), and evidence that
  states the registration of a key passes the check of that key (`checkEvidence_ofKey`).
-/
import AimData.Preview.Signing
import Mathlib.Data.List.AList

namespace AimData

namespace InstallKey

open Contract

/-! ## Texts of bytes -/

/-- `bytes.decode("latin-1")` -/
def latin1 (b : Bytes) : String := String.ofList (b.map fun x => Char.ofNat x.toNat)

/-- `str.encode("latin-1")` -/
def encodeLatin1 (s : String) : Option Bytes :=
  s.toList.mapM fun c => if c.toNat < 256 then some (UInt8.ofNat c.toNat) else none

def hexValue (c : Char) : Option ℕ :=
  if '0' ≤ c ∧ c ≤ '9' then some (c.toNat - 48)
  else if 'a' ≤ c ∧ c ≤ 'f' then some (c.toNat - 87)
  else if 'A' ≤ c ∧ c ≤ 'F' then some (c.toNat - 55)
  else none

def blank (c : Char) : Bool := c = ' ' ∨ 9 ≤ c.toNat ∧ c.toNat ≤ 13

/-- `bytes.fromhex`: blanks may stand between the bytes. -/
def fromHex : List Char → Option Bytes
  | [] => some []
  | [c] => if blank c then some [] else none
  | c :: d :: cs =>
    if blank c then fromHex (d :: cs)
    else do
      let high ← hexValue c
      let low ← hexValue d
      return UInt8.ofNat (high * 16 + low) :: (← fromHex cs)

theorem encodeLatin1_latin1 (b : Bytes) : encodeLatin1 (latin1 b) = some b := by
  rw [encodeLatin1, latin1, String.toList_ofList]
  induction b with
  | nil => rfl
  | cons x b ih =>
    have hx := x.toNat_lt
    have hchar : (Char.ofNat x.toNat).toNat = x.toNat := by
      rw [Char.ofNat, dif_pos (Or.inl (by omega))]
      rfl
    rw [List.map_cons, List.mapM_cons, hchar, if_pos (by omega), ih]
    simp

theorem fromHex_hex (b : Bytes) : fromHex (hex b).toList = some b := by
  rw [hex, String.toList_ofList]
  induction b with
  | nil => rfl
  | cons x b ih =>
    have hdigit : ∀ n : Fin 16, blank (Nat.digitChar n) = false ∧
        hexValue (Nat.digitChar n) = some n.1 := by decide
    have hx := x.toNat_lt
    have hhigh := hdigit ⟨x.toNat / 16, by omega⟩
    have hlow := hdigit ⟨x.toNat % 16, by omega⟩
    have hbyte : UInt8.ofNat (x.toNat / 16 * 16 + x.toNat % 16) = x := by
      rw [show x.toNat / 16 * 16 + x.toNat % 16 = x.toNat by omega, UInt8.ofNat_toNat]
    rw [List.flatMap_cons]
    simp only [List.cons_append, List.nil_append, fromHex, hhigh.1, hhigh.2, hlow.2, ih,
      Bool.false_eq_true, if_false, Option.bind_eq_bind, Option.bind_some, hbyte]
    rfl

/-! ## Keys -/

/-- A raw key of either curve. -/
def Key : Type := { b : Bytes // b.length = 32 }
  deriving DecidableEq

/-- `from_public_bytes`, `from_private_bytes` -/
def Key.ofBytes (b : Bytes) : Option Key := if h : b.length = 32 then some ⟨b, h⟩ else none

theorem Key.ofBytes_val (k : Key) : Key.ofBytes k.1 = some k := dif_pos k.2

structure Keys where
  edPriv : Key
  edPub : Key
  xPub : Key
  xPriv : Key

/-- `DeviceCrypto`: the passphrase and the libraries under it, and the permissions of the
    directory of the keystore. -/
structure DeviceCrypto where
  passphrase : String
  directoryMode : ℕ
  /-- `Ed25519PrivateKey.public_key` -/
  publicKey : Key → Key
  /-- `X25519PrivateKey.public_key` -/
  exchangeKey : Key → Key
  sign : Key → Bytes → Bytes
  /-- The token of a raw key, by the salt and the random part of the token. -/
  encrypt : Bytes → Bytes → Bytes → Bytes
  decrypt : Bytes → Bytes → Option Bytes

/-- A token decrypts to what was encrypted. -/
def DeviceCrypto.Decrypts (crypto : DeviceCrypto) : Prop :=
  ∀ salt nonce raw, crypto.decrypt salt (crypto.encrypt salt nonce raw) = some raw

/-- The object in a keystore file. -/
abbrev Keystore := AList fun _ : String => String

def DeviceCrypto.decryptPrivateKey (crypto : DeviceCrypto) (token salt : Bytes) : Option Key := do
  Key.ofBytes (← crypto.decrypt salt token)

/-- The fields of a pair in the keystore. -/
structure Slot where
  publicKey : String
  privateKey : String
  salt : String

def ed25519 : Slot :=
  ⟨"ed25519_public_key", "encrypted_ed25519_private_key", "ed25519_salt"⟩

def x25519 : Slot := ⟨"x25519_public_key", "encrypted_x25519_private_key", "x25519_salt"⟩

/-- A pair, its public key first. -/
def DeviceCrypto.loadPair (crypto : DeviceCrypto) (slot : Slot) (keystore : Keystore) :
    Option (Key × Key) := do
  let pub ← Key.ofBytes (← fromHex (← keystore.lookup slot.publicKey).toList)
  let priv ← crypto.decryptPrivateKey (← encodeLatin1 (← keystore.lookup slot.privateKey))
    (← fromHex (← keystore.lookup slot.salt).toList)
  return (pub, priv)

/-- `_load_keys` -/
def DeviceCrypto.loadKeys (crypto : DeviceCrypto) (keystore : Keystore) : Option Keys := do
  let ed ← crypto.loadPair ed25519 keystore
  let x ← crypto.loadPair x25519 keystore
  return { edPub := ed.1, edPriv := ed.2, xPub := x.1, xPriv := x.2 }

/-- A new private key, with the salt and the random part of its token. -/
structure Generated where
  priv : Key
  salt : Bytes
  nonce : Bytes

/-- A keystore with a new pair. -/
def DeviceCrypto.setPair (crypto : DeviceCrypto) (slot : Slot) (pub : Key)
    (generated : Generated) (keystore : Keystore) : Keystore :=
  ((keystore.insert slot.publicKey (hex pub.1)).insert slot.privateKey
    (latin1 (crypto.encrypt generated.salt generated.nonce generated.priv.1))).insert slot.salt
      (hex generated.salt)

/-- `_save_keys` of an install that has no keystore. -/
def DeviceCrypto.saveKeys (crypto : DeviceCrypto) (ed x : Generated) : Keystore :=
  crypto.setPair x25519 (crypto.exchangeKey x.priv) x
    (crypto.setPair ed25519 (crypto.publicKey ed.priv) ed ∅)

section

variable {crypto : DeviceCrypto} {keystore : Keystore}

theorem decryptPrivateKey_encrypt (h : crypto.Decrypts) (generated : Generated) :
    crypto.decryptPrivateKey
      (crypto.encrypt generated.salt generated.nonce generated.priv.1) generated.salt =
        some generated.priv := by
  rw [DeviceCrypto.decryptPrivateKey, h]
  exact Key.ofBytes_val _

/-- A pair is loaded again. -/
theorem loadPair_setPair (h : crypto.Decrypts) (slot : Slot)
    (hpub : slot.publicKey ≠ slot.privateKey ∧ slot.publicKey ≠ slot.salt)
    (hpriv : slot.privateKey ≠ slot.salt) (pub : Key) (generated : Generated)
    (keystore : Keystore) :
    crypto.loadPair slot (crypto.setPair slot pub generated keystore) =
      some (pub, generated.priv) := by
  rw [DeviceCrypto.loadPair, DeviceCrypto.setPair, AList.lookup_insert_ne hpub.2,
    AList.lookup_insert_ne hpub.1, AList.lookup_insert, AList.lookup_insert_ne hpriv,
    AList.lookup_insert, AList.lookup_insert]
  simp only [Option.bind_eq_bind, Option.bind_some, fromHex_hex, encodeLatin1_latin1,
    Key.ofBytes_val, decryptPrivateKey_encrypt h]
  rfl

/-- A field of the keystore that is no field of the pair. -/
theorem lookup_setPair {slot : Slot} {name : String} (hpub : name ≠ slot.publicKey)
    (hpriv : name ≠ slot.privateKey) (hsalt : name ≠ slot.salt) (pub : Key)
    (generated : Generated) (keystore : Keystore) :
    (crypto.setPair slot pub generated keystore).lookup name = keystore.lookup name := by
  rw [DeviceCrypto.setPair, AList.lookup_insert_ne hsalt, AList.lookup_insert_ne hpriv,
    AList.lookup_insert_ne hpub]

variable (crypto) in
/-- Keystores with the same fields of a pair. -/
theorem loadPair_congr {slot : Slot} {keystore' : Keystore}
    (hpub : keystore.lookup slot.publicKey = keystore'.lookup slot.publicKey)
    (hpriv : keystore.lookup slot.privateKey = keystore'.lookup slot.privateKey)
    (hsalt : keystore.lookup slot.salt = keystore'.lookup slot.salt) :
    crypto.loadPair slot keystore = crypto.loadPair slot keystore' := by
  rw [DeviceCrypto.loadPair, DeviceCrypto.loadPair, hpub, hpriv, hsalt]

/-- **The Ed25519 pair of a keystore is replaced, and its other pair stays.** -/
theorem loadKeys_setPair (h : crypto.Decrypts) (pub : Key) (generated : Generated)
    {keys : Keys} (hkeys : crypto.loadKeys keystore = some keys) :
    crypto.loadKeys (crypto.setPair ed25519 pub generated keystore) =
      some { keys with edPriv := generated.priv, edPub := pub } := by
  have hed := loadPair_setPair h ed25519 (by decide) (by decide) pub generated keystore
  have hx : crypto.loadPair x25519 (crypto.setPair ed25519 pub generated keystore) =
      crypto.loadPair x25519 keystore :=
    loadPair_congr _ (lookup_setPair (by decide) (by decide) (by decide) _ _ _)
      (lookup_setPair (by decide) (by decide) (by decide) _ _ _)
      (lookup_setPair (by decide) (by decide) (by decide) _ _ _)
  rw [DeviceCrypto.loadKeys] at hkeys
  obtain ⟨ed, -, hkeys⟩ := Option.bind_eq_some_iff.1 hkeys
  obtain ⟨x, hx', hkeys⟩ := Option.bind_eq_some_iff.1 hkeys
  rw [DeviceCrypto.loadKeys, hed, hx, hx', ← Option.some.inj hkeys]
  rfl

/-- **The keys of a new keystore.** -/
theorem loadKeys_saveKeys (h : crypto.Decrypts) (ed x : Generated) :
    crypto.loadKeys (crypto.saveKeys ed x) =
      some ⟨ed.priv, crypto.publicKey ed.priv, crypto.exchangeKey x.priv, x.priv⟩ := by
  have hx := loadPair_setPair h x25519 (by decide) (by decide)
    (crypto.exchangeKey x.priv) x (crypto.setPair ed25519 (crypto.publicKey ed.priv) ed ∅)
  have hed : crypto.loadPair ed25519 (crypto.saveKeys ed x) =
      some (crypto.publicKey ed.priv, ed.priv) :=
    (loadPair_congr _ (lookup_setPair (by decide) (by decide) (by decide) _ _ _)
      (lookup_setPair (by decide) (by decide) (by decide) _ _ _)
      (lookup_setPair (by decide) (by decide) (by decide) _ _ _)).trans
      (loadPair_setPair h _ (by decide) (by decide) _ _ _)
  rw [DeviceCrypto.loadKeys, hed, DeviceCrypto.saveKeys, hx]
  rfl

end

/-! ## Instants -/

/-- An aware `datetime`, by its canonical text. -/
def Instant : Type := { s : String // canonicalRfc3339Utc s = some s }

/-- The nanosecond a timestamp text denotes. -/
def nanoseconds (s : String) : ℤ := (timestampInstant none s).getD 0

/-! ## Evidence -/

/-- `RegistrationEvidence` -/
def registrationEvidence : Validator := wireModel
  [⟨"install_id", uuidField, none⟩, ⟨"seller_id", uuidField, none⟩,
    ⟨"fingerprint", hexDigestField, none⟩,
    ⟨"status", literalField ["active", "rotated", "revoked"], none⟩,
    ⟨"observed_at", timestampField, none⟩] fun _ => true

def fingerprint (raw : Key) : String := hex (sha256 raw.1).1

/-- `check_evidence` at an aware `now`. -/
def checkEvidence (evidence : Json) (installId sellerId : String) (rawKey : Key) (now : Instant)
    (maxAge : ℤ) : Except Raised (List (String × Json)) :=
  if maxAge ≤ 0 then refuseSigning "invalid_evidence_policy"
  else do
    let e := asObj (← closed registrationEvidence evidence)
    let observed := nanoseconds (getStr e "observed_at")
    if getStr e "install_id" ≠ installId ∨ getStr e "seller_id" ≠ sellerId then
      refuseSigning "registration_owner_mismatch"
    else if getStr e "fingerprint" ≠ fingerprint rawKey then
      refuseSigning "registration_key_mismatch"
    else if getStr e "status" ≠ "active" then refuseSigning "registration_inactive"
    else if observed > nanoseconds now.1 ∨ nanoseconds now.1 - observed ≥ maxAge then
      refuseSigning "registration_evidence_stale"
    else return e

/-! ### Evidence that passes -/

/-- A UUID as `str` writes it. -/
def Uuid : Type := { s : String // uuidField (.str s) = some (.str s) }

/-- The evidence of a registration, as the registry states it. -/
def registration (installId sellerId : Uuid) (rawKey : Key) (status : String)
    (observed : Instant) : Json :=
  .obj [("install_id", .str installId.1), ("seller_id", .str sellerId.1),
    ("fingerprint", .str (fingerprint rawKey)), ("status", .str status),
    ("observed_at", .str observed.1)]

theorem hexDigits_length (n : ℕ) : ∀ w, (hexDigits w n).length = w := by
  intro w
  induction w generalizing n with
  | zero => rfl
  | succ w ih => rw [hexDigits, List.length_append, ih, List.length_singleton]

theorem Uuid.length (id : Uuid) : id.1.length = 36 := by
  obtain ⟨t, ht, hst⟩ := Option.map_eq_some_iff.1 id.2
  obtain ⟨n, -, hn⟩ := Option.map_eq_some_iff.1 ht
  have hlength := hexDigits_length n 32
  rw [← Json.str.inj hst, ← hn, uuidText, String.length_ofList]
  simp [hlength]

theorem Instant.length (instant : Instant) : instant.1.length = 27 := by
  obtain ⟨s, hs⟩ := instant
  have h := hs
  unfold canonicalRfc3339Utc at h
  dsimp only at h
  split at h
  · rename_i rest _
    obtain ⟨date, -, h⟩ := Option.bind_eq_some_iff.1 h
    obtain ⟨clock, -, h⟩ := Option.bind_eq_some_iff.1 h
    obtain ⟨micros, -, h⟩ := Option.bind_eq_some_iff.1 h
    have hlength := congrArg String.length (Option.some.inj h)
    rw [← hlength, String.length_ofList]
    simp [isoDate_length, isoClock_length, Numeral.length_pad]
  · cases h

theorem hexDigestField_hex {b : Bytes} (h : b.length = 32) :
    hexDigestField (.str (hex b)) = some (.str (hex b)) := by
  have hlength : (hex b).length = 64 := by
    rw [← String.length_toList, hex_length, h]
  have hall : (hex b).toList.all lowerHex = true := by
    have hdigit : ∀ n : Fin 16, lowerHex (Nat.digitChar n) = true := by decide
    rw [hex, String.toList_ofList, List.all_eq_true]
    intro c hc
    obtain ⟨x, -, hc⟩ := List.mem_flatMap.1 hc
    have hx := x.toNat_lt
    rcases List.mem_pair.1 hc with rfl | rfl
    · exact hdigit ⟨x.toNat / 16, by omega⟩
    · exact hdigit ⟨x.toNat % 16, by omega⟩
  rw [hexDigestField, patternField, textWhere, text, hlength, hall]
  rfl

theorem closed_registration (installId sellerId : Uuid) (rawKey : Key) {status : String}
    (hstatus : status ∈ ["active", "rotated", "revoked"]) (observed : Instant) :
    closed registrationEvidence (registration installId sellerId rawKey status observed) =
      .ok (registration installId sellerId rawKey status observed) := by
  have hdigest : hexDigestField (.str (fingerprint rawKey)) = some (.str (fingerprint rawKey)) :=
    hexDigestField_hex (sha256 rawKey.1).2
  have hfingerprint : (fingerprint rawKey).length = 64 := by
    rw [fingerprint, ← String.length_toList, hex_length, (sha256 rawKey.1).2]
  have hstatusField : literalField ["active", "rotated", "revoked"] (.str status) =
      some (.str status) := by
    rw [literalField, textWhere, text, if_pos (by simpa using hstatus)]
    rfl
  have hstatusLength : status.length ≤ 7 := by
    simp only [List.mem_cons, List.not_mem_nil, or_false] at hstatus
    rcases hstatus with rfl | rfl | rfl <;> decide
  have hobserved : timestampField (.str observed.1) = some (.str observed.1) := by
    rw [timestampField, text, observed.2]
    rfl
  have hmetadata :
      metadataOnly (registration installId sellerId rawKey status observed) 0 = true := by
    have hkeys : ∀ key ∈ ["install_id", "seller_id", "fingerprint", "status", "observed_at"],
        contentKey key = false := by decide
    simp only [List.mem_cons, List.not_mem_nil, or_false, forall_eq_or_imp, forall_eq] at hkeys
    simp only [registration, metadataOnly, metadataOnlyFields, hkeys, installId.length,
      sellerId.length, observed.length, hfingerprint, maxMetadataDepth, maxMetadataString]
    simp
    exact decide_eq_true (by omega)
  have hmodel : registrationEvidence (registration installId sellerId rawKey status observed) =
      some (registration installId sellerId rawKey status observed) := by
    rw [registrationEvidence, wireModel, hmetadata]
    simp [registration, safeMetadata, safeMetadataFields, closedModel, Field.dump, List.lookup_cons,
      installId.2, sellerId.2, hdigest, hstatusField, hobserved]
  rw [closed, hmodel]

/-- What the evidence states is read from it. -/
theorem checkEvidence_iff {evidence : Json} {installId sellerId : String} {rawKey : Key}
    {now : Instant} {maxAge : ℤ} {e : List (String × Json)} :
    checkEvidence evidence installId sellerId rawKey now maxAge = .ok e ↔
      0 < maxAge ∧ (∃ dump, registrationEvidence evidence = some dump ∧ e = asObj dump) ∧
        getStr e "install_id" = installId ∧ getStr e "seller_id" = sellerId ∧
        getStr e "fingerprint" = fingerprint rawKey ∧ getStr e "status" = "active" ∧
        nanoseconds (getStr e "observed_at") ≤ nanoseconds now.1 ∧
        nanoseconds now.1 - nanoseconds (getStr e "observed_at") < maxAge := by
  unfold checkEvidence closed
  by_cases hage : maxAge ≤ 0
  · rw [if_pos hage]
    exact ⟨fun h => (by cases h), fun h => absurd h.1 (by omega)⟩
  rw [if_neg hage]
  cases hmodel : registrationEvidence evidence with
  | none => exact ⟨fun h => (by cases h), fun ⟨_, ⟨_, h, _⟩, _⟩ => (by cases h)⟩
  | some dump =>
    constructor
    · intro h
      change (if _ then _ else _) = _ at h
      split_ifs at h with howner hkey hstatus hold
      all_goals try cases h
      simp only [not_or, not_not, not_lt, not_le, gt_iff_lt, ge_iff_le] at howner hkey hstatus hold
      exact ⟨by omega, ⟨dump, rfl, rfl⟩, howner.1, howner.2, hkey, hstatus, hold.1, hold.2⟩
    · rintro ⟨-, ⟨_, ⟨⟩, rfl⟩, hinstall, hseller, hkey, hstatus, hnow, hyoung⟩
      change (if _ then _ else _) = _
      rw [if_neg (by simp [hinstall, hseller]), if_neg (by simp [hkey]), if_neg (by simp [hstatus]),
        if_neg (by omega)]
      rfl

/-- **Evidence of a key's active registration passes while it is young.** -/
theorem checkEvidence_registration (installId sellerId : Uuid) (rawKey : Key)
    {observed now : Instant} {maxAge : ℤ} (hobserved : nanoseconds observed.1 ≤ nanoseconds now.1)
    (hyoung : nanoseconds now.1 - nanoseconds observed.1 < maxAge) :
    ∃ e, checkEvidence (registration installId sellerId rawKey "active" observed) installId.1
      sellerId.1 rawKey now maxAge = .ok e := by
  refine ⟨_, checkEvidence_iff.2 ⟨by omega, ⟨_, closed_ok
    (closed_registration installId sellerId rawKey (by decide) observed), rfl⟩, rfl, rfl, rfl, rfl,
      hobserved, hyoung⟩⟩

end InstallKey

end AimData
