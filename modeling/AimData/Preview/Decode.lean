/-
  Packing and decoding.  `validate_envelope` takes the normal form of what it
  takes, with the same bytes; so a package decodes to the envelope that was
  packed.
-/
import AimData.Preview.KeyOrder

namespace AimData

open Contract

section
variable {nfc : String → String} {schema : CanonicalSchema} {root : HashValue}

/-! ## The checks of one entry -/

theorem keysAre_perm {l l' : List (String × Json)} (h : (l'.map Prod.fst).Perm (l.map Prod.fst))
    (keys : List String) : keysAre l' keys = keysAre l keys := by
  have hall : (l'.all fun f => f.1 ∈ keys) = l.all fun f => f.1 ∈ keys := by
    have hp := h.all_eq (f := fun k => decide (k ∈ keys))
    rw [List.all_map, List.all_map] at hp
    exact hp
  have hmem : (keys.all (· ∈ l'.map Prod.fst)) = keys.all (· ∈ l.map Prod.fst) := by
    simp only [h.mem_iff]
  rw [keysAre, keysAre, hall, hmem]

theorem blind_len : Blind len := by
  refine blind_of_containers (fun l l' _ hl => ?_) fun l l' _ h => ?_
  · rw [len, len, normalizeList_length hl]
  · have hkeys := (normalize_obj_keys h).length_eq
    rw [List.length_map, List.length_map] at hkeys
    rw [len, len, hkeys]

theorem blind_canonicalUuidOf : Blind canonicalUuidOf :=
  blind_of_heads (fun _ _ => rfl) fun _ _ => rfl

theorem blind_hashValue : Blind hashValue :=
  blind_of_heads (fun _ _ => rfl) fun _ _ => rfl

theorem blind_siblingOf : Blind siblingOf := by
  intro v w hd h
  have hdir := blind_hashValue.get "direction" hd h
  rw [siblingOf, siblingOf]
  refine congrArg₂ Sibling.mk (blind_hashValue.get "hash" hd h) ?_
  dsimp only at hdir
  generalize Contract.get (asObj w) "direction" = x at hdir ⊢
  generalize Contract.get (asObj v) "direction" = y at hdir ⊢
  cases x <;> cases y <;> cases hdir <;> rfl

theorem Blind.map {α : Type} {f : Json → α} (hf : Blind f) : ∀ {l l' : List Json}, DictsList l →
    normalizeList l = .ok l' → l'.map f = l.map f := by
  intro l
  induction l with
  | nil =>
    intro l' _ h
    cases h
    rfl
  | cons v l ih =>
    intro l' hd h
    obtain ⟨v', hv, h⟩ := Except.bind_eq_ok.1 h
    obtain ⟨l'', hl, h⟩ := Except.bind_eq_ok.1 h
    cases h
    rw [List.map_cons, List.map_cons, hf hd.1 hv, ih hd.2 hl]

/-- A loop over values, each step of which does not see the order of keys. -/
theorem Blind.foldlM {σ ε : Type} {f : σ → Json → Except ε σ} (hf : ∀ s, Blind (f s)) :
    ∀ {l l' : List Json} (s : σ), DictsList l → normalizeList l = .ok l' →
      l'.foldlM f s = l.foldlM f s
  | [], l', s, _, h => by cases h; rfl
  | v :: l, l', s, hd, h => by
    obtain ⟨v', hv, h⟩ := Except.bind_eq_ok.1 h
    obtain ⟨l'', hl, h⟩ := Except.bind_eq_ok.1 h
    cases h
    rw [List.foldlM_cons, List.foldlM_cons, hf s hd.1 hv]
    exact bind_congr fun s => Blind.foldlM hf s hd.2 hl

theorem blind_siblings : Blind fun v => (match v with
    | .arr l => l
    | _ => ([] : List Json)).map siblingOf :=
  blind_of_containers (fun _ _ hd hl => blind_siblingOf.map hd hl) fun _ _ _ _ => rfl

/-- **The loop over the entries** does not see the order of keys. -/
theorem blind_validateEntry (seen : Seen) : Blind (validateEntry nfc schema root seen) := by
  refine blind_of_containers (fun _ _ _ _ => rfl) fun l l' hd h => ?_
  have hget : ∀ {α : Type} {f : Json → α}, Blind f → ∀ key, f (get l' key) = f (get l key) :=
    fun hf key => hf (dicts_get hd.2 key) (get_normalize h hd.1 key)
  have hsiblings : (getList l' "siblings").map siblingOf = (getList l "siblings").map siblingOf :=
    hget blind_siblings "siblings"
  have hrow : entryRow nfc schema l' = entryRow nfc schema l := by
    rw [entryRow, entryRow, hget (blind_canonicalRow schema) "row"]
  rw [validateEntry, validateEntry, keysAre_perm (normalize_obj_keys h),
    hget blind_canonicalUuidOf "proof_id", hget blind_len "siblings", hget blind_len "row",
    entryProof_normalize hd h, hrow]
  simp only [entryBound, hsiblings]

/-! ## The checks of the envelope -/

theorem normalize_int {i : ℤ} {w : Json} (h : normalize (.int i) = .ok w) : w = .int i := by
  rw [normalize] at h
  split_ifs at h
  · cases h
  · exact (Except.ok.inj h).symm

/-- A field with a text has it in the normal form as well, and no other field has. -/
theorem blind_isStr (s : String) : Blind fun v => decide (v = .str s) :=
  blind_of_heads (fun _ _ => by simp) fun _ _ => by simp

/-- **What is checked before the entries** holds of the normal form. -/
theorem envelopeEntries_normalize {envelope w : Json} {manifestBytes : ℤ} {entries : List Json}
    (hd : Dicts envelope) (hw : normalize envelope = .ok w)
    (h : envelopeEntries envelope schema manifestBytes = .ok entries) :
    ∃ entries', normalizeList entries = .ok entries' ∧
      envelopeEntries w schema manifestBytes = .ok entries' := by
  cases envelope with
  | obj l =>
    obtain ⟨l', rfl, -, -⟩ := normalize_obj_ok hw
    have hget : ∀ {α : Type} {f : Json → α}, Blind f → ∀ key, f (get l' key) = f (get l key) :=
      fun hf key => hf (dicts_get hd.2 key) (get_normalize hw hd.1 key)
    have hstr : ∀ (key s : String), get l' key = .str s ↔ get l key = .str s := by
      intro key s
      have hb := hget (blind_isStr s) key
      rwa [decide_eq_decide] at hb
    rw [envelopeEntries] at h ⊢
    rw [keysAre_perm (normalize_obj_keys hw), hget blind_canonicalUuidOf "commitment_id",
      hget blind_canonicalUuidOf "disclosure_version"]
    simp only [ne_eq, hstr] at h ⊢
    split_ifs at h ⊢
    · obtain ⟨c, hc, h⟩ := Except.bind_eq_ok.1 h
      obtain ⟨d, hdisclosure, h⟩ := Except.bind_eq_ok.1 h
      rw [hc, hdisclosure, Except.ok_bind, Except.ok_bind]
      have hentries := get_normalize hw hd.1 "entries"
      split at h
      · rename_i first rest hl
        rw [hl] at hentries
        obtain ⟨entries', hl', hnormal⟩ := normalize_arr_ok hentries
        obtain ⟨u, hrows, h⟩ := Except.bind_eq_ok.1 h
        obtain ⟨u', hfields, h⟩ := Except.bind_eq_ok.1 h
        obtain ⟨u'', hmanifest, h⟩ := Except.bind_eq_ok.1 h
        obtain ⟨n, hbudget, h⟩ := Except.bind_eq_ok.1 h
        cases h
        obtain ⟨m, hm⟩ := valueBudget_normalize hd hw hbudget
        have hlen := normalizeList_length hnormal
        obtain ⟨first', rest', rfl⟩ : ∃ first' rest', entries' = first' :: rest' := by
          cases entries' with
          | nil => cases hlen
          | cons f r => exact ⟨f, r, rfl⟩
        refine ⟨_, hnormal, ?_⟩
        rw [hl']
        simp only [List.length_cons, Nat.add_right_cancel_iff] at hlen
        simp only [hlen, hrows, hfields, hmanifest, hm, Except.ok_bind, Except.pure_eq_ok]
      · cases h
    · obtain ⟨_, -, h⟩ := Except.bind_eq_ok.1 h
      obtain ⟨_, -, h⟩ := Except.bind_eq_ok.1 h
      cases h
    · cases h
  | _ => cases h

/-- What an accepted entry adds to the sample hash. -/
theorem sampleValueOf_normalize {e e' : List (String × Json)} (hd : Dicts (.obj e))
    (h : normalize (.obj e) = .ok (.obj e')) (haccepted : AcceptedEntry nfc schema root e) :
    sampleValueOf e' = sampleValueOf e := by
  have hint : ∀ key ∈ ["duplicate_ordinal", "leaf_index", "tree_size"], get e' key = get e key := by
    intro key hkey
    have hk := get_normalize h hd.1 key
    rw [haccepted.positions key hkey] at hk
    rw [normalize_int hk, haccepted.positions key hkey]
  have hid := blind_canonicalUuidOf (dicts_get hd.2 "proof_id") (get_normalize h hd.1 "proof_id")
  have hhash :=
    blind_hashValue (dicts_get hd.2 "base_row_digest") (get_normalize h hd.1 "base_row_digest")
  rw [sampleValueOf, sampleValueOf, hid, hhash, hint "duplicate_ordinal" (by simp),
    hint "leaf_index" (by simp)]

theorem sampleValues_normalize : ∀ {es : List (List (String × Json))} {l' : List Json},
    DictsList (es.map .obj) → normalizeList (es.map .obj) = .ok l' →
    (∀ e ∈ es, AcceptedEntry nfc schema root e) →
    (l'.mapM fun e => sampleValueOf (asObj e)) =
      (es.map Json.obj).mapM fun e => sampleValueOf (asObj e)
  | [], l', _, h, _ => by cases h; rfl
  | e :: es, l', hd, h, haccepted => by
    obtain ⟨v', hv, h⟩ := Except.bind_eq_ok.1 h
    obtain ⟨l'', hl, h⟩ := Except.bind_eq_ok.1 h
    cases h
    obtain ⟨e', rfl, -, -⟩ := normalize_obj_ok hv
    rw [List.map_cons, List.mapM_cons, List.mapM_cons,
      sampleValues_normalize hd.2 hl fun x hx => haccepted x (List.mem_cons_of_mem _ hx)]
    simp only [asObj, sampleValueOf_normalize hd.1 hv (haccepted e List.mem_cons_self)]

/-- **The normal form of an accepted envelope is accepted**, with the same bytes. -/
theorem validateBody_normalize {envelope w : Json} {manifestBytes : ℤ} {encoded : Bytes}
    (hd : Dicts envelope) (hw : normalize envelope = .ok w)
    (h : validateBody nfc envelope schema root manifestBytes = .ok encoded) :
    validateBody nfc w schema root manifestBytes = .ok encoded := by
  obtain ⟨entries, hentries, h⟩ := Except.bind_eq_ok.1 h
  obtain ⟨seen, hseen, h⟩ := Except.bind_eq_ok.1 h
  split_ifs at h with hshape
  · cases h
  obtain ⟨digest, hdigest, h⟩ := Except.bind_eq_ok.1 h
  split_ifs at h with hsample
  · cases h
  obtain ⟨bytes, hbytes, h⟩ := Except.bind_eq_ok.1 h
  obtain ⟨u, hlimit, h⟩ := Except.bind_eq_ok.1 h
  cases h
  obtain ⟨entries', hnormal, hentries'⟩ := envelopeEntries_normalize hd hw hentries
  obtain ⟨hget, -⟩ := envelopeEntries_ok hentries
  obtain ⟨es, rfl, hes, -⟩ := validateEntries_ok hseen
  have hdicts : DictsList (es.map .obj) := by
    have hd' : Dicts (get (asObj envelope) "entries") := by
      cases envelope with
      | obj l => exact dicts_get hd.2 _
      | _ => trivial
    rwa [hget] at hd'
  have hsample' : sampleHashOf entries' = .ok digest := by
    rw [← hdigest, sampleHashOf, sampleHashOf, sampleValues_normalize hdicts hnormal hes]
  have hstr : get (asObj w) "sample_hash" = .str digest := by
    have hb := (blind_isStr digest).get "sample_hash" hd hw
    simp only [decide_eq_decide] at hb
    exact hb.2 (not_not.1 hsample)
  rw [validateBody, hentries', Except.ok_bind, Blind.foldlM blind_validateEntry {} hdicts hnormal,
    hseen, Except.ok_bind, if_neg hshape, hsample', Except.ok_bind, if_neg (not_not.2 hstr),
    canonicalJsonBytes_normal hw, hbytes, Except.ok_bind, hlimit]
  rfl

theorem keepsDistinct_pairs : Json.KeepsDistinct pairs := fun l hl => by
  rw [pairs, if_pos hl]

theorem validateBody_identities {envelope : Json} {manifestBytes : ℤ} {encoded : Bytes}
    (h : validateBody nfc envelope schema root manifestBytes = .ok encoded) :
    ∃ c, (get (asObj envelope) "commitment_id" = .str c ∧ canonicalUuid c = true) ∧
      ∃ d, get (asObj envelope) "disclosure_version" = .str d ∧ canonicalUuid d = true := by
  obtain ⟨entries, hentries, -⟩ := Except.bind_eq_ok.1 h
  cases envelope with
  | obj l =>
    rw [envelopeEntries] at hentries
    split_ifs at hentries
    · obtain ⟨_, -, h⟩ := Except.bind_eq_ok.1 hentries
      obtain ⟨_, -, h⟩ := Except.bind_eq_ok.1 h
      cases h
    · obtain ⟨c, hc, h⟩ := Except.bind_eq_ok.1 hentries
      obtain ⟨d, hd, -⟩ := Except.bind_eq_ok.1 h
      exact ⟨c, canonicalUuidOf_ok hc, d, canonicalUuidOf_ok hd⟩
    · cases hentries
  | _ => cases hentries

/-- **The bytes of an accepted envelope decode to it.** -/
theorem decodeEnvelope_encoded {envelope : Json} {manifestBytes : ℤ} {encoded : Bytes}
    (hd : Dicts envelope) (h : validateBody nfc envelope schema root manifestBytes = .ok encoded) :
    ∃ w, normalize envelope = .ok w ∧
      decodeEnvelope nfc encoded schema root manifestBytes "identity" = .ok w := by
  obtain ⟨hbytes, hsize, es, hes, -⟩ := validateBody_ok h
  obtain ⟨w, hw, -⟩ := canonicalJsonBytes_ok hbytes
  have hobj : ∃ l, envelope = .obj l := by
    cases envelope with
    | obj l => exact ⟨l, rfl⟩
    | _ => cases hes
  have hload := loadBytes_canonicalJsonBytes keepsDistinct_pairs hd (Or.inr hobj) hw hbytes
  have hlimit : limit "envelope_bytes" encoded.length = .ok () := by
    rw [limit, if_neg]
    simp only [not_or, not_lt, show (caps.lookup "envelope_bytes").getD 0 = 1048576 from rfl]
    exact ⟨by positivity, by exact_mod_cast hsize⟩
  refine ⟨w, hw, ?_⟩
  rw [decodeEnvelope, hlimit, packageErrors, Except.ok_bind, if_neg (not_not.2 rfl), hload]
  simp only [validateEnvelope, validateBody_normalize hd hw h, packageErrors]

end

/-! ## What the builder packs -/

theorem indexErrors_ok {α : Type} {r : Except Raised α} {a : α} (h : indexErrors r = .ok a) :
    r = .ok a := by
  cases r with
  | ok b => exact h
  | error e =>
    rw [indexErrors] at h
    split_ifs at h
    · cases h

namespace CommitmentPreviewBuilder

variable {nfc : String → String} {validateUrl : String → Except Raised Unit}
  {builder : CommitmentPreviewBuilder}

/-- An entry is of a row that has a canonical text. -/
theorem entry_ok {index : ℤ} {e : List (String × Json)} (h : builder.entry nfc index = .ok e) :
    ∃ row proof rowBytes, e = entryFields row proof ∧
      builder.schema.canonicalRow nfc false none (PyValue.ofJson row) = .ok rowBytes := by
  obtain ⟨proof, -, h⟩ := Except.bind_eq_ok.1 (indexErrors_ok h)
  obtain ⟨entries, -, h⟩ := Except.bind_eq_ok.1 h
  dsimp only at h
  split_ifs at h
  · cases h
  · cases h
  obtain ⟨rows, -, h⟩ := Except.bind_eq_ok.1 h
  obtain ⟨_, -, h⟩ := Except.bind_eq_ok.1 h
  split_ifs at h
  · cases h
  obtain ⟨digest, -, h⟩ := Except.bind_eq_ok.1 h
  split_ifs at h
  · cases h
  obtain ⟨triples, -, h⟩ := Except.bind_eq_ok.1 h
  obtain ⟨row, -, h⟩ := Except.bind_eq_ok.1 h
  obtain ⟨again, hagain, h⟩ := Except.bind_eq_ok.1 h
  split_ifs at h
  · cases h
  cases h
  exact ⟨row, proof, again, rfl, commitmentErrors_ok.1 hagain⟩

theorem dicts_siblingJson (s : Sibling) : Dicts (siblingJson s) := by
  refine ⟨by simp, ?_, ?_, trivial⟩
  · cases s.hash <;> trivial
  · cases s.direction <;> trivial

/-- An entry with a text for its identity is a dict. -/
theorem dicts_entry {index : ℤ} {pid : String} {e : List (String × Json)}
    (h : builder.entry nfc index = .ok e) : Dicts (.obj (("proof_id", .str pid) :: e)) := by
  obtain ⟨row, proof, rowBytes, rfl, hrow⟩ := entry_ok h
  refine ⟨by simp [entryFields], trivial, dicts_of_canonicalRow hrow, trivial, trivial, trivial,
    trivial, ?_, trivial⟩
  refine dictsList_of_forall fun v hv => ?_
  obtain ⟨s, -, rfl⟩ := List.mem_map.1 hv
  exact dicts_siblingJson s

/-- The fields of a built envelope. -/
theorem envelope_ok {indices proofIds : List Json} {commitmentId disclosureVersion envelope : Json}
    (h : builder.envelope nfc indices proofIds commitmentId disclosureVersion = .ok envelope) :
    ∃ (selected : List (ℤ × Json)) (entries : List Json) (digest : String),
      (selected.mapM fun p => do
        return Json.obj (("proof_id", p.2) :: (← builder.entry nfc p.1))) = .ok entries ∧
      sampleHashOf entries = .ok digest ∧ envelope = .obj [("package_profile", .str packageProfile), ("commitment_id", commitmentId),
        ("schema_digest", .str (encodeBase64url builder.schema.digest.1)),
        ("disclosure_version", disclosureVersion), ("sample_hash", .str digest),
        ("entries", .arr entries)] := by
  obtain ⟨selected, -, h⟩ := Except.bind_eq_ok.1 h
  obtain ⟨_, -, h⟩ := Except.bind_eq_ok.1 h
  obtain ⟨entries, hentries, h⟩ := Except.bind_eq_ok.1 h
  obtain ⟨digest, hdigest, h⟩ := Except.bind_eq_ok.1 h
  cases h
  exact ⟨selected, entries, digest, hentries, hdigest, rfl⟩

/-- The entries of a selection, the identities of which are texts, are dicts. -/
theorem dicts_entries : ∀ {selected : List (ℤ × Json)} {entries : List Json},
    (selected.mapM fun p => do
      return Json.obj (("proof_id", p.2) :: (← builder.entry nfc p.1))) = .ok entries →
    (∀ e ∈ entries, ∃ pid, get (asObj e) "proof_id" = .str pid) → DictsList entries
  | [], entries, h, _ => by cases h; trivial
  | (i, pid) :: selected, entries, h, hids => by
    obtain ⟨e, es, he, hes, rfl⟩ := List.mapM_cons_ok.1 h
    obtain ⟨e', he', he⟩ := Except.bind_eq_ok.1 he
    cases he
    obtain ⟨s, hs⟩ := hids _ List.mem_cons_self
    obtain rfl : pid = .str s := hs
    exact ⟨dicts_entry he', dicts_entries hes fun e h => hids e (List.mem_cons_of_mem _ h)⟩

/-- **A built envelope that is accepted** is a dict at every depth. -/
theorem dicts_envelope {indices proofIds : List Json} {commitmentId disclosureVersion envelope : Json}
    {root : HashValue} {manifestBytes : ℤ} {encoded : Bytes}
    (h : builder.envelope nfc indices proofIds commitmentId disclosureVersion = .ok envelope)
    (hvalid : validateBody nfc envelope builder.schema root manifestBytes = .ok encoded) :
    Dicts envelope := by
  obtain ⟨selected, entries, digest, hentries, -, rfl⟩ := envelope_ok h
  obtain ⟨-, -, es, hes, haccepted⟩ := validateBody_ok hvalid
  obtain ⟨c, ⟨hc, -⟩, d, ⟨hd, -⟩⟩ := validateBody_identities hvalid
  obtain rfl : commitmentId = .str c := hc
  obtain rfl : disclosureVersion = .str d := hd
  obtain rfl : entries = es.map .obj := Json.arr.inj hes
  refine ⟨by simp, trivial, trivial, trivial, trivial, trivial, ?_, trivial⟩
  refine dicts_entries hentries fun e he => ?_
  obtain ⟨x, hx, rfl⟩ := List.mem_map.1 he
  exact ⟨_, (haccepted.entry x hx).identity⟩

/-- What `prepare` has packed. -/
theorem prepare_ok {indices proofIds : List Json} {commitmentId disclosureVersion : Json}
    {scannedAt : String} {consent : Consent} {manifestBytes : ℤ} {packageUrl : String}
    {prepared : Prepared}
    (h : builder.prepare nfc validateUrl indices proofIds commitmentId disclosureVersion scannedAt
      consent manifestBytes packageUrl = .ok prepared) :
    ∃ envelope, builder.envelope nfc indices proofIds commitmentId disclosureVersion = .ok envelope ∧
      validateBody nfc envelope builder.schema (.bytes builder.tree.root) manifestBytes =
        .ok prepared.payload := by
  obtain ⟨envelope, henvelope, h⟩ := Except.bind_eq_ok.1 h
  obtain ⟨payload, hpayload, h⟩ := Except.bind_eq_ok.1 h
  obtain ⟨fixture, -, h⟩ := Except.bind_eq_ok.1 h
  obtain ⟨_, -, h⟩ := Except.bind_eq_ok.1 h
  obtain ⟨rows, -, h⟩ := Except.bind_eq_ok.1 h
  obtain ⟨scan, -, h⟩ := Except.bind_eq_ok.1 h
  cases h
  refine ⟨envelope, henvelope, packageErrors_ok.1 ?_⟩
  rw [validateEnvelope] at hpayload
  cases hr : packageErrors (validateBody nfc envelope builder.schema (.bytes builder.tree.root)
      manifestBytes) with
  | ok p =>
    rw [hr] at hpayload
    cases hpayload
    rfl
  | error e =>
    rw [hr] at hpayload
    cases hpayload

end CommitmentPreviewBuilder

/-! ## What the store takes -/

theorem hexLower_digitChar : ∀ n < 16, hexLower (Nat.digitChar n) = true := by decide

theorem digestText_hex (d : Digest) : digestText (hex d.1) = true := by
  rw [digestText, hex_length, d.2]
  refine decide_eq_true ⟨rfl, ?_⟩
  rw [hex, String.toList_ofList, List.all_flatMap, List.all_eq_true]
  intro x _
  have hx := UInt8.toNat_lt x
  rw [List.all_cons, List.all_cons, hexLower_digitChar _ (by omega),
    hexLower_digitChar _ (by omega)]
  rfl

theorem field?_of_get {l : List (String × Json)} {key s : String} (h : get l key = .str s) :
    field? l key = some (.str s) := by
  have hfield : field? l key = l.lookup key := by
    clear h
    induction l with
    | nil => rfl
    | cons f l ih =>
      obtain ⟨k, v⟩ := f
      rw [field?] at ih ⊢
      by_cases hk : k = key
      · subst hk
        simp
      · rw [List.find?_cons_of_neg (by simpa using hk), ih, List.lookup_cons,
          beq_eq_false_iff_ne.2 (Ne.symm hk)]
  rw [Contract.get] at h
  rw [hfield]
  cases hl : l.lookup key with
  | none => rw [hl] at h; cases h
  | some v => rw [hl] at h; exact congrArg some h

/-- **A prepared package is one that the store takes.** -/
theorem CommitmentPreviewBuilder.prepare_package {nfc : String → String}
    {validateUrl : String → Except Raised Unit} {builder : CommitmentPreviewBuilder}
    {indices proofIds : List Json} {commitmentId disclosureVersion : Json} {scannedAt : String}
    {consent : Consent} {manifestBytes : ℤ} {packageUrl : String} {prepared : Prepared}
    (h : builder.prepare nfc validateUrl indices proofIds commitmentId disclosureVersion scannedAt
      consent manifestBytes packageUrl = .ok prepared) :
    ∃ package : PreparedPackage, package.payload = prepared.payload := by
  obtain ⟨envelope, henvelope, hvalid⟩ := prepare_ok h
  have hd := dicts_envelope henvelope hvalid
  obtain ⟨hbytes, hsize, -⟩ := validateBody_ok hvalid
  obtain ⟨w, hw, -⟩ := canonicalJsonBytes_ok hbytes
  obtain ⟨c, ⟨hc, hcid⟩, v, ⟨hv, hvid⟩⟩ := validateBody_identities hvalid
  obtain ⟨selected, entries, sample, -, hsample, hfields⟩ := envelope_ok henvelope
  obtain ⟨l', rfl, -, -⟩ := normalize_obj_ok (hfields ▸ hw)
  have hget : ∀ key s, get (asObj envelope) key = .str s → field? l' key = some (.str s) := by
    intro key s hs
    have hb := (blind_isStr s).get key hd hw
    simp only [decide_eq_decide] at hb
    exact field?_of_get (hb.2 hs)
  refine ⟨⟨prepared.payload, ⟨c, encodeBase64url builder.schema.digest.1, v, sample⟩, ?_, hcid,
    ⟨builder.schema.digest, rfl⟩, hvid, ?_, hsize⟩, rfl⟩
  · rw [envelopeOf, loads_canonicalJsonBytes hd hw hbytes]
    simp [hget _ _ hc, hget _ _ hv, hget "schema_digest" _ (by rw [hfields]; rfl),
      hget "sample_hash" _ (by rw [hfields]; rfl)]
  · obtain ⟨values, -, hsample⟩ := Except.bind_eq_ok.1 hsample
    obtain ⟨bytes, -, hsample⟩ := Except.bind_eq_ok.1 hsample
    cases hsample
    exact digestText_hex _

end AimData
