/-
  The byte strings handed to the install key.

  Commitments, proofs, reattestations and disclosures are canonical JSON after
  a tag; receipts are bare JSON; handshake transcripts are length-prefixed
  fields after a tag; action tokens are two base64url parts joined by a dot.
  What is signed is the `Content` of an object, and its bytes determine it
  (`Content.bytes_inj`), so no two kinds share a signature
  (`preimages_domain_separated`).
-/
import AimData.Preview.Signing
import AimData.TrustChannel.Protocol

namespace AimData

open TrustChannel (Transcript handshakeTranscript transcriptTag lengthPrefixed)

/-! ## Receipts -/

mutual
/-- The value with the keys of every dict sorted. -/
def sortedJson : Json → Json
  | .arr l => .arr (sortedList l)
  | .obj l => .obj (sortKeys (sortedFields l))
  | v => v

def sortedList : List Json → List Json
  | [] => []
  | v :: l => sortedJson v :: sortedList l

def sortedFields : List (String × Json) → List (String × Json)
  | [] => []
  | (k, v) :: l => (k, sortedJson v) :: sortedFields l
end

mutual
/-- No float is infinite or not a number. -/
def finiteJson : Json → Bool
  | .float text => Json.floatText text
  | .arr l => finiteList l
  | .obj l => finiteFields l
  | _ => true

def finiteList : List Json → Bool
  | [] => true
  | v :: l => finiteJson v && finiteList l

def finiteFields : List (String × Json) → Bool
  | [] => true
  | (_, v) :: l => finiteJson v && finiteFields l
end

/-- `canonical_json_bytes` of the action signer. -/
def actionJsonBytes (value : Json) : Except Raised Bytes :=
  if finiteJson value then .ok (Utf8.encode (sortedJson value).dumps)
  else raise "ValueError" "Out of range float values are not JSON compliant"

/-- The given keys of a report. -/
def reportFields (report : List (String × Json)) : List String → Except Raised (List (String × Json))
  | [] => .ok []
  | key :: keys =>
    match report.lookup key with
    | none => raise "KeyError" key
    | some v => do return (key, v) :: (← reportFields report keys)

def receiptKeys : List String :=
  ["spec_hash", "nonce_echo", "install_key_id", "artifact_locator_commitment", "content_sha256",
    "started_at_utc", "completed_at_utc", "duration_ms", "coverage", "fingerprint_hash"]

def terminalReceiptKeys : List String :=
  ["verification_id", "listing_id", "source_handle_id", "spec_id", "spec_version", "spec_hash",
    "nonce_echo", "install_key_id", "agent_version", "connector_type", "connector_version",
    "terminal_error_code", "completed_at_utc", "canonicalization_version", "signature_algorithm"]

/-- `receipt_signature_binding` -/
def receiptSignatureBinding (report : List (String × Json)) : Except Raised Json := do
  return .obj (← reportFields report receiptKeys)

/-- `terminal_receipt_signature_binding` -/
def terminalReceiptSignatureBinding (report : List (String × Json)) : Except Raised Json := do
  return .obj (← reportFields report terminalReceiptKeys)

/-- The signing input of an action token, from the JSON of its header and claims. -/
def actionSigningInput (header claims : Bytes) : Bytes :=
  ascii (encodeBase64url header ++ "." ++ encodeBase64url claims)

/-! ## Signed objects -/

/-- A value whose objects are dicts. -/
structure PyJson where
  value : Json
  dicts : Dicts value

/-- What the install key signs. -/
inductive SignedObject where
  | commitment (commitment : PyJson)
  | proof (context proof : PyJson)
  | reattestation (reattestation : PyJson)
  | disclosure (binding : PyJson)
  | receipt (report : PyJson)
  | terminalReceipt (report : PyJson)
  | handshake (transcript : Transcript)
  | action (header claims : Bytes)

inductive SignedKind where
  | commitment | proof | reattestation | disclosure
  | receipt | terminalReceipt | handshake | action
  deriving DecidableEq, Repr

/-- What a signature stands for: JSON in its normal form, or the fields of a
    transcript or a token. -/
inductive Content where
  | json (kind : SignedKind) (value : Json)
  | handshake (transcript : Transcript)
  | action (header claims : Bytes)

def SignedObject.kind : SignedObject → SignedKind
  | .commitment _ => .commitment
  | .proof _ _ => .proof
  | .reattestation _ => .reattestation
  | .disclosure _ => .disclosure
  | .receipt _ => .receipt
  | .terminalReceipt _ => .terminalReceipt
  | .handshake _ => .handshake
  | .action _ _ => .action

/-- `normalize` among the errors of signing. -/
def normalForm (value : Json) : Except Raised Json :=
  match normalize value with
  | .ok w => .ok w
  | .error e => raise "CommitmentValidationError" e.code

/-- A report in its normal form. -/
def sortedReport (value : Json) : Except Raised Json :=
  if finiteJson value then .ok (sortedJson value)
  else raise "ValueError" "Out of range float values are not JSON compliant"

section
variable (nfc : String → String) (validateUrl : String → Bool)

/-- The byte string handed to the signer. -/
def SignedObject.preimage : SignedObject → Except Raised Bytes
  | .commitment c => commitmentBytes validateUrl c.value
  | .proof context p => proofBytes validateUrl context.value p.value
  | .reattestation r => reattestationBytes r.value
  | .disclosure b => disclosureBytes nfc b.value
  | .receipt r => do actionJsonBytes (← receiptSignatureBinding (Contract.asObj r.value))
  | .terminalReceipt r => do
    actionJsonBytes (← terminalReceiptSignatureBinding (Contract.asObj r.value))
  | .handshake t => handshakeTranscript t
  | .action header claims => .ok (actionSigningInput header claims)

/-- The signed content. -/
def SignedObject.content : SignedObject → Except Raised Content
  | .commitment c => do
    return .json .commitment (← normalForm (← commitmentContent validateUrl c.value))
  | .proof context p => do
    return .json .proof (← normalForm (← proofContent validateUrl context.value p.value))
  | .reattestation r => do
    return .json .reattestation (← normalForm (← reattestationContent r.value))
  | .disclosure b => do
    return .json .disclosure (← normalForm (← closed (Contract.disclosureBinding nfc) b.value))
  | .receipt r => do
    return .json .receipt (← sortedReport (← receiptSignatureBinding (Contract.asObj r.value)))
  | .terminalReceipt r => do
    return .json .terminalReceipt
      (← sortedReport (← terminalReceiptSignatureBinding (Contract.asObj r.value)))
  | .handshake t => .ok (.handshake t)
  | .action header claims => .ok (.action header claims)

end

/-! ## Bytes of a content -/

/-- The tag before the JSON of a kind. -/
def SignedKind.tag : SignedKind → Bytes
  | .commitment => commitmentTag
  | .proof => proofTag
  | .reattestation => reattestationTag
  | .disclosure => disclosureTag
  | _ => []

def Content.bytes : Content → Bytes
  | .json kind v => kind.tag ++ Utf8.encode v.dumps
  | .handshake t => transcriptTag ++ t.fields.flatMap lengthPrefixed
  | .action header claims => actionSigningInput header claims

/-- What the code can sign: proper objects, of a receipt with its own number of
    fields, and fields that fit their length prefix. -/
def Content.Signable : Content → Prop
  | .json kind v => v.Proper ∧ ∃ l, v = .obj l ∧
      (kind = .receipt → l.length = receiptKeys.length) ∧
      (kind = .terminalReceipt → l.length = terminalReceiptKeys.length) ∧
      kind ≠ .handshake ∧ kind ≠ .action
  | .handshake t => ∀ field ∈ t.fields, field.length ≤ 65535
  | .action _ _ => True

def Content.kind : Content → SignedKind
  | .json kind _ => kind
  | .handshake _ => .handshake
  | .action _ _ => .action

/-- The forms of a preimage, told apart by their bytes. -/
inductive Form where
  | json | transcript | tagged | token
  deriving DecidableEq, Repr

def formOf (b : Bytes) : Form :=
  if b.head? = some 123 then .json
  else if transcriptTag.isPrefixOf b then .transcript
  else if 0 ∈ b then .tagged
  else .token

def SignedKind.form : SignedKind → Form
  | .receipt | .terminalReceipt => .json
  | .handshake => .transcript
  | .action => .token
  | _ => .tagged

/-- The byte of a base64url character. -/
def sextetByte (n : ℕ) : UInt8 := UInt8.ofNat (Base64Url.char n).toNat

theorem sextetByte_spec {n : ℕ} (h : n < 64) :
    sextetByte n ≠ 0 ∧ sextetByte n ≠ 32 ∧ sextetByte n ≠ 46 ∧ sextetByte n ≠ 123 := by
  have : ∀ n : Fin 64, sextetByte n ≠ 0 ∧ sextetByte n ≠ 32 ∧ sextetByte n ≠ 46 ∧
      sextetByte n ≠ 123 := by decide +kernel
  exact this ⟨n, h⟩

theorem sextetByte_inj {n m : ℕ} (hn : n < 64) (hm : m < 64) (h : sextetByte n = sextetByte m) :
    n = m := by
  have : ∀ n m : Fin 64, sextetByte n = sextetByte m → n = m := by decide +kernel
  exact congrArg Fin.val (this ⟨n, hn⟩ ⟨m, hm⟩ h)

theorem actionSigningInput_eq (header claims : Bytes) : actionSigningInput header claims =
    (Base64Url.toSextets header).map sextetByte ++ 46 :: (Base64Url.toSextets claims).map sextetByte := by
  simp only [actionSigningInput, ascii, encodeBase64url, Base64Url.encode, String.toList_append,
    String.toList_ofList, Base64Url.encodeChars_eq, List.map_append, List.map_map]
  rw [List.append_assoc]
  rfl

/-- A token has no zero, no space and no brace. -/
theorem mem_actionSigningInput {header claims : Bytes} {b : UInt8}
    (h : b ∈ actionSigningInput header claims) : b ≠ 0 ∧ b ≠ 32 ∧ b ≠ 123 := by
  have hpart : ∀ p : Bytes, b ∈ (Base64Url.toSextets p).map sextetByte → b ≠ 0 ∧ b ≠ 32 ∧ b ≠ 123 := by
    intro p hp
    obtain ⟨n, hn, rfl⟩ := List.mem_map.1 hp
    obtain ⟨h0, h1, -, h2⟩ := sextetByte_spec (Base64Url.toSextets_lt p n hn)
    exact ⟨h0, h1, h2⟩
  rw [actionSigningInput_eq] at h
  rcases List.mem_append.1 h with h | h
  · exact hpart header h
  · rcases List.mem_cons.1 h with rfl | h
    · decide
    · exact hpart claims h

/-! ## The form of a preimage -/

theorem transcriptTag_eq : transcriptTag = 97 :: 105 :: 46 :: transcriptTag.drop 3 := by decide +kernel

theorem space_mem_transcriptTag : 32 ∈ transcriptTag := by decide +kernel

/-- The tags of the JSON kinds start with `aim` and hold a zero byte. -/
theorem formOf_tagged {tag : Bytes} (htag : tag = 97 :: 105 :: 109 :: tag.drop 3) (hzero : 0 ∈ tag)
    (rest : Bytes) : formOf (tag ++ rest) = .tagged := by
  have hprefix : transcriptTag.isPrefixOf (tag ++ rest) = false := by
    rw [transcriptTag_eq, htag]
    simp [List.isPrefixOf]
  have hhead : (tag ++ rest).head? ≠ some 123 := by
    rw [htag]
    simp
  rw [formOf, if_neg hhead, hprefix, if_neg Bool.false_ne_true,
    if_pos (List.mem_append_left _ hzero)]

theorem formOf_object (l : List (String × Json)) : formOf (Utf8.encode (Json.obj l).dumps) = .json := by
  have h : ∃ cs, (Json.obj l).dumps = '{' :: cs := by
    rcases l with _ | ⟨⟨k, v⟩, l⟩ <;> exact ⟨_, by rw [Json.dumps]⟩
  obtain ⟨cs, hcs⟩ := h
  have hb : Utf8.encode ('{' :: cs) = 123 :: Utf8.encode cs := rfl
  rw [hcs, hb, formOf, if_pos (by simp)]

theorem formOf_transcript (rest : Bytes) : formOf (transcriptTag ++ rest) = .transcript := by
  have hprefix : transcriptTag.isPrefixOf (transcriptTag ++ rest) = true :=
    List.isPrefixOf_iff_prefix.2 (List.prefix_append _ _)
  have hhead : (transcriptTag ++ rest).head? ≠ some 123 := by
    rw [transcriptTag_eq]
    simp
  rw [formOf, if_neg hhead, if_pos hprefix]

theorem formOf_token (header claims : Bytes) : formOf (actionSigningInput header claims) = .token := by
  have hmem := fun b => @mem_actionSigningInput header claims b
  have hhead : (actionSigningInput header claims).head? ≠ some 123 := fun h =>
    (hmem _ (List.mem_of_mem_head? h)).2.2 rfl
  have hprefix : ¬ transcriptTag.isPrefixOf (actionSigningInput header claims) = true := fun h =>
    (hmem 32 ((List.isPrefixOf_iff_prefix.1 h).subset space_mem_transcriptTag)).2.1 rfl
  have hzero : 0 ∉ actionSigningInput header claims := fun h => (hmem 0 h).1 rfl
  rw [formOf, if_neg hhead, if_neg hprefix, if_neg hzero]

/-- **The bytes of a content show its form.** -/
theorem formOf_bytes {c : Content} (h : c.Signable) : formOf c.bytes = c.kind.form := by
  cases c with
  | json kind v =>
    obtain ⟨-, l, rfl, -, -, hh, ha⟩ := h
    cases kind with
    | commitment => exact formOf_tagged (by decide +kernel) (by decide +kernel) _
    | proof => exact formOf_tagged (by decide +kernel) (by decide +kernel) _
    | reattestation => exact formOf_tagged (by decide +kernel) (by decide +kernel) _
    | disclosure => exact formOf_tagged (by decide +kernel) (by decide +kernel) _
    | receipt => exact formOf_object l
    | terminalReceipt => exact formOf_object l
    | handshake => exact absurd rfl hh
    | action => exact absurd rfl ha
  | handshake t => exact formOf_transcript _
  | action header claims => exact formOf_token header claims

/-! ## The bytes determine the content -/

/-- The tags of the JSON kinds end with their only zero byte. -/
theorem tag_takeWhile {kind : SignedKind} (h : kind.form = .tagged) (rest : Bytes) :
    (kind.tag ++ rest).takeWhile (· ≠ 0) = kind.tag.dropLast := by
  have key : ∀ tag : Bytes, tag = tag.dropLast ++ [0] → (∀ b ∈ tag.dropLast, b ≠ 0) →
      (tag ++ rest).takeWhile (· ≠ 0) = tag.dropLast := by
    intro tag htag hne
    conv_lhs => rw [htag, List.append_assoc]
    rw [List.takeWhile_append_of_pos fun b hb => decide_eq_true (hne b hb)]
    simp
  cases kind with
  | commitment => exact key _ (by decide +kernel) (by decide +kernel)
  | proof => exact key _ (by decide +kernel) (by decide +kernel)
  | reattestation => exact key _ (by decide +kernel) (by decide +kernel)
  | disclosure => exact key _ (by decide +kernel) (by decide +kernel)
  | _ => cases h

theorem tag_inj {k k' : SignedKind} (h : k.form = .tagged) (h' : k'.form = .tagged)
    (he : k.tag.dropLast = k'.tag.dropLast) : k = k' := by
  cases k <;> cases k' <;>
    first
    | rfl
    | exact absurd h (by decide)
    | exact absurd h' (by decide)
    | exact absurd he (by decide +kernel)

theorem lengthPrefixed_inj {a b s t : Bytes} (ha : a.length ≤ 65535) (hb : b.length ≤ 65535)
    (h : lengthPrefixed a ++ s = lengthPrefixed b ++ t) : a = b ∧ s = t := by
  rw [lengthPrefixed, lengthPrefixed, List.append_assoc, List.append_assoc] at h
  obtain ⟨hlen, h⟩ := List.append_inj h (by rw [Bytes.length_ofNat, Bytes.length_ofNat])
  have hlen := Bytes.ofNat_inj (by omega) (by omega) hlen
  exact List.append_inj h hlen

theorem flatMap_lengthPrefixed_inj : ∀ {l m : List Bytes}, l.length = m.length →
    (∀ a ∈ l, a.length ≤ 65535) → (∀ a ∈ m, a.length ≤ 65535) →
    l.flatMap lengthPrefixed = m.flatMap lengthPrefixed → l = m
  | [], [], _, _, _, _ => rfl
  | a :: l, b :: m, hlen, hl, hm, h => by
    rw [List.flatMap_cons, List.flatMap_cons] at h
    obtain ⟨hab, hlm⟩ := lengthPrefixed_inj (hl a (by simp)) (hm b (by simp)) h
    rw [hab, flatMap_lengthPrefixed_inj (by simpa using hlen) (fun x hx => hl x (by simp [hx]))
      (fun x hx => hm x (by simp [hx])) hlm]

theorem transcript_inj {t u : Transcript} (ht : ∀ field ∈ t.fields, field.length ≤ 65535)
    (hu : ∀ field ∈ u.fields, field.length ≤ 65535)
    (h : t.fields.flatMap lengthPrefixed = u.fields.flatMap lengthPrefixed) : t = u := by
  have hf := flatMap_lengthPrefixed_inj (l := t.fields) (m := u.fields) rfl ht hu h
  obtain ⟨d, e, x, c, s, p⟩ := t
  obtain ⟨d', e', x', c', s', p'⟩ := u
  simp only [Transcript.fields, List.cons.injEq, and_true] at hf
  obtain ⟨hd, rfl, rfl, rfl, rfl, rfl⟩ := hf
  rw [String.toList_inj.1 (Utf8.encode_inj hd)]

theorem map_sextetByte_inj {a b : Bytes}
    (h : (Base64Url.toSextets a).map sextetByte = (Base64Url.toSextets b).map sextetByte) : a = b := by
  have key : ∀ {l m : List ℕ}, (∀ n ∈ l, n < 64) → (∀ n ∈ m, n < 64) →
      l.map sextetByte = m.map sextetByte → l = m := by
    intro l
    induction l with
    | nil => intro m _ _ h; exact (List.map_eq_nil_iff.1 h.symm).symm
    | cons n l ih =>
      intro m hl hm h
      cases m with
      | nil => cases h
      | cons n' m =>
        rw [List.map_cons, List.map_cons, List.cons.injEq] at h
        rw [sextetByte_inj (hl n (by simp)) (hm n' (by simp)) h.1,
          ih (fun x hx => hl x (by simp [hx])) (fun x hx => hm x (by simp [hx])) h.2]
  have := key (Base64Url.toSextets_lt a) (Base64Url.toSextets_lt b) h
  exact Option.some.inj ((Base64Url.ofSextets_toSextets a).symm.trans
    ((congrArg Base64Url.ofSextets this).trans (Base64Url.ofSextets_toSextets b)))

theorem action_inj {h c h' c' : Bytes} (he : actionSigningInput h c = actionSigningInput h' c') :
    h = h' ∧ c = c' := by
  have hdot : ∀ a : Bytes, ∀ b ∈ (Base64Url.toSextets a).map sextetByte, decide (b ≠ 46) = true := by
    intro a b hb
    obtain ⟨n, hn, rfl⟩ := List.mem_map.1 hb
    exact decide_eq_true (sextetByte_spec (Base64Url.toSextets_lt a n hn)).2.2.1
  have htake : ∀ a rest : Bytes,
      ((Base64Url.toSextets a).map sextetByte ++ 46 :: rest).takeWhile (fun b => decide (b ≠ 46)) =
        (Base64Url.toSextets a).map sextetByte := by
    intro a rest
    rw [List.takeWhile_append_of_pos (hdot a)]
    simp
  rw [actionSigningInput_eq, actionSigningInput_eq] at he
  have hheader := congrArg (List.takeWhile fun b => decide (b ≠ 46)) he
  rw [htake, htake] at hheader
  rw [hheader] at he
  exact ⟨map_sextetByte_inj hheader, map_sextetByte_inj (List.cons.inj (List.append_cancel_left he)).2⟩

theorem SignedKind.form_json {k : SignedKind} (h : k.form = .json) :
    k = .receipt ∨ k = .terminalReceipt := by
  cases k with
  | receipt => exact Or.inl rfl
  | terminalReceipt => exact Or.inr rfl
  | _ => cases h

/-- Two JSON contents of one form have one kind: by their tags, or by the number
    of their fields. -/
theorem json_kind_eq {k k' : SignedKind} {v w : Json} (hv : (Content.json k v).Signable)
    (hw : (Content.json k' w).Signable) (hform : k.form = k'.form)
    (h : (Content.json k v).bytes = (Content.json k' w).bytes) : k = k' := by
  obtain ⟨hpv, l, rfl, hr, ht, hh, ha⟩ := hv
  obtain ⟨hpw, l', rfl, hr', ht', -, -⟩ := hw
  cases hk : k.form with
  | tagged =>
    have hk' : k'.form = .tagged := hform.symm.trans hk
    have := congrArg (List.takeWhile (· ≠ 0)) h
    rw [Content.bytes, Content.bytes, tag_takeWhile hk, tag_takeWhile hk'] at this
    exact tag_inj hk hk' this
  | transcript => cases k <;> first | exact absurd rfl hh | cases hk
  | token => cases k <;> first | exact absurd rfl ha | cases hk
  | json =>
    -- bare JSON on both sides
    have hll : k.tag = [] → k'.tag = [] → l = l' := fun h1 h2 => by
      rw [Content.bytes, Content.bytes, h1, h2] at h
      exact Json.obj.inj (Json.dumps_inj hpv hpw (Utf8.encode_inj h))
    rcases SignedKind.form_json hk with rfl | rfl <;>
      rcases SignedKind.form_json (hform.symm.trans hk) with rfl | rfl
    · rfl
    · have := (hr rfl).symm.trans ((congrArg List.length (hll rfl rfl)).trans (ht' rfl))
      exact absurd this (by decide)
    · have := (ht rfl).symm.trans ((congrArg List.length (hll rfl rfl)).trans (hr' rfl))
      exact absurd this (by decide)
    · rfl

theorem SignedKind.form_ne {k : SignedKind} (hh : k ≠ .handshake) (ha : k ≠ .action) :
    k.form ≠ .transcript ∧ k.form ≠ .token := by
  cases k with
  | handshake => exact absurd rfl hh
  | action => exact absurd rfl ha
  | _ => exact ⟨by decide, by decide⟩

/-- **The bytes determine the content**, its kind included. -/
theorem Content.bytes_inj {c d : Content} (hc : c.Signable) (hd : d.Signable)
    (h : c.bytes = d.bytes) : c = d := by
  have hform : c.kind.form = d.kind.form := by rw [← formOf_bytes hc, ← formOf_bytes hd, h]
  cases c with
  | handshake t =>
    cases d with
    | handshake u => rw [transcript_inj hc hd (List.append_cancel_left h)]
    | json k v =>
      obtain ⟨-, -, -, -, -, hh, ha⟩ := hd
      exact absurd hform.symm (SignedKind.form_ne hh ha).1
    | action _ _ => cases hform
  | action header claims =>
    cases d with
    | action header' claims' =>
      obtain ⟨rfl, rfl⟩ := action_inj h
      rfl
    | json k v =>
      obtain ⟨-, -, -, -, -, hh, ha⟩ := hd
      exact absurd hform.symm (SignedKind.form_ne hh ha).2
    | handshake _ => cases hform
  | json k v =>
    cases d with
    | handshake _ =>
      obtain ⟨-, -, -, -, -, hh, ha⟩ := hc
      exact absurd hform (SignedKind.form_ne hh ha).1
    | action _ _ =>
      obtain ⟨-, -, -, -, -, hh, ha⟩ := hc
      exact absurd hform (SignedKind.form_ne hh ha).2
    | json k' w =>
      obtain rfl := json_kind_eq hc hd hform h
      have := Json.dumps_inj hc.1 hd.1 (Utf8.encode_inj (List.append_cancel_left h))
      rw [this]

/-! ## The preimage is the content's bytes -/

mutual
theorem proper_sortedJson : ∀ {v : Json}, Dicts v → finiteJson v = true → (sortedJson v).Proper
  | .null, _, _ => trivial
  | .bool _, _, _ => trivial
  | .int _, _, _ => trivial
  | .float _, _, h => h
  | .str _, _, _ => trivial
  | .arr _, hd, h => proper_sortedList hd h
  | .obj l, hd, h => by
    have hp := List.perm_insertionSort (fun a b : String × Json => codePoints a.1 ≤ codePoints b.1)
      (sortedFields l)
    have hkeys : (sortedFields l).map Prod.fst = l.map Prod.fst := sortedFields_keys l
    refine ⟨?_, properFields_of_forall fun f hf => ?_⟩
    · rw [show sortKeys (sortedFields l) = List.insertionSort _ (sortedFields l) from rfl,
        (hp.map Prod.fst).nodup_iff, hkeys]
      exact hd.1
    · exact proper_sortedFields hd.2 h (hp.subset hf)

theorem proper_sortedList : ∀ {l : List Json}, DictsList l → finiteList l = true →
    Json.ProperList (sortedList l)
  | [], _, _ => trivial
  | _ :: _, hd, h => by
    rw [finiteList, Bool.and_eq_true] at h
    exact ⟨proper_sortedJson hd.1 h.1, proper_sortedList hd.2 h.2⟩

theorem proper_sortedFields : ∀ {l : List (String × Json)} {f : String × Json}, DictsFields l →
    finiteFields l = true → f ∈ sortedFields l → Json.Proper f.2
  | (k, v) :: l, f, hd, h, hf => by
    rw [finiteFields, Bool.and_eq_true] at h
    rcases List.mem_cons.1 hf with rfl | hf
    · exact proper_sortedJson hd.1 h.1
    · exact proper_sortedFields hd.2 h.2 hf

theorem sortedFields_keys : ∀ l : List (String × Json),
    (sortedFields l).map Prod.fst = l.map Prod.fst
  | [] => rfl
  | (k, v) :: l => by rw [sortedFields, List.map_cons, List.map_cons, sortedFields_keys l]
end

/-- A dict in its normal form can be signed under a tag. -/
theorem tagged_signable {k : SignedKind} {l : List (String × Json)} {b : Bytes}
    (hkind : k.form = .tagged) (hd : Dicts (.obj l)) (h : signingJsonBytes (.obj l) = .ok b) :
    ∃ w, normalForm (.obj l) = .ok w ∧ (Content.json k w).Signable ∧ b = Utf8.encode w.dumps := by
  rw [signingJsonBytes, canonicalJsonBytes] at h
  cases hn : normalize (.obj l) with
  | error e => rw [hn] at h; cases h
  | ok w =>
    rw [hn] at h
    cases h
    refine ⟨w, by rw [normalForm, hn], ⟨proper_normalize hd hn, ?_⟩, rfl⟩
    have hobj : ∃ l', w = .obj l' := by
      rw [normalize] at hn
      split_ifs at hn
      · cases hn
      · obtain ⟨l', -, h⟩ := Except.bind_eq_ok.1 hn
        cases h
        exact ⟨l', rfl⟩
    obtain ⟨l', rfl⟩ := hobj
    refine ⟨l', rfl, ?_, ?_, ?_, ?_⟩ <;> rintro rfl <;> cases hkind

theorem dictsFields_append : ∀ {l m : List (String × Json)}, DictsFields l → DictsFields m →
    DictsFields (l ++ m)
  | [], _, _, hm => hm
  | _ :: _, _, hl, hm => ⟨hl.1, dictsFields_append hl.2 hm⟩

theorem dictsFields_map_get {d : List (String × Json)} (hd : DictsFields d) : ∀ keys : List String,
    DictsFields (keys.map fun k => (k, Contract.get d k))
  | [] => trivial
  | k :: keys => ⟨Contract.dicts_get hd k, dictsFields_map_get hd keys⟩

theorem dictsFields_asObj {v : Json} (h : Dicts v) : DictsFields (Contract.asObj v) := by
  cases v with
  | obj l => exact h.2
  | _ => trivial

theorem dicts_pop {key : String} {v : Json} (h : Dicts v) : Dicts (.obj (pop key v)) := by
  cases v with
  | obj l => exact Contract.dicts_filter h
  | _ => exact ⟨List.nodup_nil, trivial⟩

/-- The dict that a proof's signature covers. -/
theorem dicts_proofContent {c p : Json} (hc : Dicts c) (hp : Dicts p) :
    Dicts (.obj (contextKeys.map (fun k => (k, Contract.get (Contract.asObj c) k)) ++
      [("proof", .obj (pop "signature" p))])) := by
  refine ⟨?_, dictsFields_append (dictsFields_map_get (dictsFields_asObj hc) _)
    ⟨dicts_pop hp, trivial⟩⟩
  rw [List.map_append, List.map_map]
  change (contextKeys.map id ++ ["proof"]).Nodup
  rw [List.map_id]
  decide

theorem reportFields_ok {report : List (String × Json)} (hd : DictsFields report) :
    ∀ {keys : List String} {l : List (String × Json)}, reportFields report keys = .ok l →
      l.map Prod.fst = keys ∧ DictsFields l
  | [], l, h => by cases h; exact ⟨rfl, trivial⟩
  | key :: keys, l, h => by
    rw [reportFields] at h
    cases hk : report.lookup key with
    | none => rw [hk] at h; cases h
    | some v =>
      rw [hk] at h
      obtain ⟨l', hl', h⟩ := Except.bind_eq_ok.1 h
      cases h
      obtain ⟨hkeys, hdicts⟩ := reportFields_ok hd hl'
      exact ⟨by rw [List.map_cons, hkeys], Contract.dicts_lookup hd hk, hdicts⟩

/-- The sorted fields of a report can be signed bare. -/
theorem report_signable {k : SignedKind} {keys : List String} {report l : List (String × Json)}
    {b : Bytes} (hd : DictsFields report) (hnd : keys.Nodup)
    (hlen : (k = .receipt → keys.length = receiptKeys.length) ∧
      (k = .terminalReceipt → keys.length = terminalReceiptKeys.length))
    (hkind : k ≠ .handshake ∧ k ≠ .action) (hl : reportFields report keys = .ok l)
    (h : actionJsonBytes (.obj l) = .ok b) :
    sortedReport (.obj l) = .ok (sortedJson (.obj l)) ∧
      (Content.json k (sortedJson (.obj l))).Signable ∧
      b = Utf8.encode (sortedJson (.obj l)).dumps := by
  obtain ⟨hkeys, hdl⟩ := reportFields_ok hd hl
  rw [actionJsonBytes] at h
  split_ifs at h with hf
  · cases h
    have hlength : (sortKeys (sortedFields l)).length = keys.length := by
      rw [sortKeys, List.length_insertionSort, ← List.length_map (f := Prod.fst),
        sortedFields_keys, hkeys]
    refine ⟨by rw [sortedReport, if_pos hf], ⟨proper_sortedJson ⟨by rw [hkeys]; exact hnd, hdl⟩ hf,
      sortKeys (sortedFields l), rfl, ?_, ?_, hkind.1, hkind.2⟩, rfl⟩
    · intro hk; rw [hlength, hlen.1 hk]
    · intro hk; rw [hlength, hlen.2 hk]
  · cases h

section
variable {nfc : String → String} {validateUrl : String → Bool}

/-- **The signer is handed the bytes of the content.** -/
theorem preimage_content {x : SignedObject} {b : Bytes}
    (h : x.preimage nfc validateUrl = .ok b) :
    ∃ c, x.content nfc validateUrl = .ok c ∧ c.Signable ∧ c.kind = x.kind ∧ b = c.bytes := by
  cases x with
  | commitment c =>
    obtain ⟨v, hv, h⟩ := Except.bind_eq_ok.1 h
    obtain ⟨bytes, hb, h⟩ := Except.bind_eq_ok.1 h
    cases h
    obtain ⟨w, hw, hv'⟩ := Except.bind_eq_ok.1 hv
    cases hv'
    have hd := Contract.keepsDicts_commitment validateUrl c.dicts (closed_ok hw)
    obtain ⟨n, hn, hs, rfl⟩ := tagged_signable (k := .commitment) rfl (dicts_pop hd) hb
    refine ⟨.json .commitment n, ?_, hs, rfl, rfl⟩
    rw [SignedObject.content, hv, Except.ok_bind, hn]
    rfl
  | proof context p =>
    obtain ⟨v, hv, h⟩ := Except.bind_eq_ok.1 h
    obtain ⟨bytes, hb, h⟩ := Except.bind_eq_ok.1 h
    cases h
    obtain ⟨w, hw, hv'⟩ := Except.bind_eq_ok.1 hv
    obtain ⟨c, hc, hv'⟩ := Except.bind_eq_ok.1 hv'
    cases hv'
    have hd := dicts_proofContent
      (Contract.keepsDicts_commitment validateUrl context.dicts (closed_ok hc))
      (Contract.keepsDicts_previewProof validateUrl p.dicts (closed_ok hw))
    obtain ⟨n, hn, hs, rfl⟩ := tagged_signable (k := .proof) rfl hd hb
    refine ⟨.json .proof n, ?_, hs, rfl, rfl⟩
    rw [SignedObject.content, hv, Except.ok_bind, hn]
    rfl
  | reattestation r =>
    obtain ⟨v, hv, h⟩ := Except.bind_eq_ok.1 h
    obtain ⟨bytes, hb, h⟩ := Except.bind_eq_ok.1 h
    cases h
    obtain ⟨w, hw, hv'⟩ := Except.bind_eq_ok.1 hv
    cases hv'
    have hd := Contract.keepsDicts_reattestation r.dicts (closed_ok hw)
    obtain ⟨n, hn, hs, rfl⟩ := tagged_signable (k := .reattestation) rfl (dicts_pop hd) hb
    refine ⟨.json .reattestation n, ?_, hs, rfl, rfl⟩
    rw [SignedObject.content, hv, Except.ok_bind, hn]
    rfl
  | disclosure binding =>
    obtain ⟨bytes, hb, h⟩ := Except.bind_eq_ok.1 h
    cases h
    obtain ⟨w, hw, hb⟩ := Except.bind_eq_ok.1 hb
    have hm := closed_ok hw
    have hd := Contract.keepsDicts_binding nfc binding.dicts hm
    obtain ⟨v, -, rfl⟩ := Option.map_eq_some_iff.1 hm
    obtain ⟨n, hn, hs, rfl⟩ := tagged_signable (k := .disclosure) rfl hd hb
    refine ⟨.json .disclosure n, ?_, hs, rfl, rfl⟩
    rw [SignedObject.content, hw, Except.ok_bind, hn]
    rfl
  | receipt r =>
    obtain ⟨v, hv, h⟩ := Except.bind_eq_ok.1 h
    obtain ⟨l, hl, hv'⟩ := Except.bind_eq_ok.1 hv
    cases hv'
    obtain ⟨hn, hs, rfl⟩ := report_signable (k := .receipt) (dictsFields_asObj r.dicts)
      (by decide) ⟨fun _ => rfl, by rintro ⟨⟩⟩ ⟨by decide, by decide⟩ hl h
    refine ⟨.json .receipt _, ?_, hs, rfl, rfl⟩
    rw [SignedObject.content, hv, Except.ok_bind, hn]
    rfl
  | terminalReceipt r =>
    obtain ⟨v, hv, h⟩ := Except.bind_eq_ok.1 h
    obtain ⟨l, hl, hv'⟩ := Except.bind_eq_ok.1 hv
    cases hv'
    obtain ⟨hn, hs, rfl⟩ := report_signable (k := .terminalReceipt) (dictsFields_asObj r.dicts)
      (by decide) ⟨by rintro ⟨⟩, fun _ => rfl⟩ ⟨by decide, by decide⟩ hl h
    refine ⟨.json .terminalReceipt _, ?_, hs, rfl, rfl⟩
    rw [SignedObject.content, hv, Except.ok_bind, hn]
    rfl
  | handshake t =>
    simp only [SignedObject.preimage, handshakeTranscript] at h
    split_ifs at h with hlong
    · cases h
    · cases h
      refine ⟨.handshake t, rfl, ?_, rfl, rfl⟩
      intro field hfield
      by_contra hlt
      exact hlong (List.any_eq_true.2 ⟨field, hfield, decide_eq_true (by omega)⟩)
  | action header claims =>
    cases h
    exact ⟨.action header claims, rfl, trivial, rfl, rfl⟩

/-- **Preimages are domain separated and injective**: two objects with one
    preimage are of one kind and have one signed content. -/
theorem preimages_domain_separated {x y : SignedObject} {b : Bytes}
    (hx : x.preimage nfc validateUrl = .ok b) (hy : y.preimage nfc validateUrl = .ok b) :
    x.kind = y.kind ∧ ∃ c, x.content nfc validateUrl = .ok c ∧ y.content nfc validateUrl = .ok c := by
  obtain ⟨c, hxc, hcs, hck, hcb⟩ := preimage_content hx
  obtain ⟨d, hyd, hds, hdk, hdb⟩ := preimage_content hy
  obtain rfl := Content.bytes_inj hcs hds (hcb.symm.trans hdb)
  exact ⟨hck.symm.trans hdk, c, hxc, hyd⟩

/-- The fields of a success receipt, all empty texts, and the same in another order. -/
def emptyReport : List (String × Json) := receiptKeys.map fun k => (k, .str "")

def emptyReceipt : PyJson := ⟨.obj emptyReport, by decide, by
  simp [emptyReport, receiptKeys, DictsFields, Dicts]⟩

def reorderedReceipt : PyJson := ⟨.obj emptyReport.reverse, by decide, by
  simp [emptyReport, receiptKeys, DictsFields, Dicts]⟩

theorem preimages_domain_separated_reordered :
    (SignedObject.receipt emptyReceipt).kind = (SignedObject.receipt reorderedReceipt).kind ∧
    ∃ c, (SignedObject.receipt emptyReceipt).content id (fun _ => true) = .ok c ∧
      (SignedObject.receipt reorderedReceipt).content id (fun _ => true) = .ok c :=
  preimages_domain_separated (x := .receipt emptyReceipt) (y := .receipt reorderedReceipt)
    (b := Utf8.encode (sortedJson (.obj emptyReport)).dumps) (by decide +kernel) (by decide +kernel)

end

end AimData
