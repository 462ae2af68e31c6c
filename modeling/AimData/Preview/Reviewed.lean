/-
  What the seller reviewed, and what the seller's key signs.

  `candidate` and `withdraw` propose a binding, and have the one signed that
  ai.market answers with.  A key of it is tied to the proposal by the request's
  own rules, by the signed commitment, or by nothing.
-/
import AimData.Preview.Succession

namespace AimData

namespace PreviewBuild

open Contract Lifecycle Program

/-! ## Before the signature -/

/-- A request whose binding is about to be signed. -/
structure Unsigned where
  request : Json
  binding : List (String × Json)
  preimage : Bytes

/-- A binding that goes on to be signed, and the one that was proposed. -/
structure Signing where
  job : Job
  proposed : List (String × Json)
  candidate : LocalCandidate
  signer : Signer
  unsigned : Unsigned

section
variable (nfc : String → String) (validateUrl : String → Bool)

/-- `construct_request`, up to the call of the keystore. -/
def unsigned (candidate : LocalCandidate) (commitment : Json) (proofs : List Json) (signer : Signer)
    (approvedP1 : List (String × Json)) : Except Raised Unsigned := do
  let b ← candidate.binding nfc
  if ¬ (Lifecycle.sameKeys approvedP1 p1Fields ∧
      p1Fields.all fun key => get approvedP1 key = get b key) then
    refuseSigning "p1_reference_mismatch"
  else do
    let request ← closed (previewDisclosureRequest nfc validateUrl)
      (unsignedRequest b commitment proofs)
    checkRequestSignatures validateUrl signer (asObj request)
    let binding ← closed (disclosureBinding nfc) (.obj b)
    if get (asObj binding) "seller_id" ≠ .str signer.sellerId then
      refuseSigning "registration_owner_mismatch"
    else do
      let preimage ← disclosureBytes nfc binding
      if get (asObj binding) "signer_reference" ≠ .str (← signer.reference) then
        refuseSigning "signer_reference_mismatch"
      else return ⟨request, asObj binding, preimage⟩

/-- `construct_request`, from the call of the keystore on. -/
def sign (signer : Signer) (u : Unsigned) : Except Raised Json := do
  let signature ← signer.sign u.preimage
  let signed := withField "seller_signature" (.str (encodeBase64url signature)) u.request
  let _ ← manifestBudget nfc validateUrl signed
  closed (previewDisclosureRequest nfc validateUrl) signed

/-- `candidate`, up to the signature of the binding, if it comes to one. -/
def candidateSigning (c : CandidateCall) : Build (Option Signing) := do
  let job ← load c.load
  checkSource c.version job
  let rights ← lift (checkConsent job c.consent)
  let listingId ← lift (listed c.listingId)
  if job.candidate.isSome then return none
  else do
    let summary ← lift (transportError c.summary)
    let signer ← lift c.signer
    let publication ← lift (present job.publication)
    let origin ← lift (present job.origin)
    let proofs ← lift (proofsOf job c.download)
    let proposal ← lift
      (proposal validateUrl job c listingId signer summary rights publication origin proofs)
    let proposed ← lift (LocalCandidate.validate nfc proposal.binding)
    let binding ← lift (proposed.binding nfc)
    let allocated ← allocate (.obj binding) c.allocate
    let candidate ← lift (LocalCandidate.validate nfc (.obj allocated))
    let p1 ← lift (p1Of allocated)
    let unsigned ← lift (unsigned nfc validateUrl candidate proposal.commitment proposal.proofs
      signer p1)
    return some ⟨{ job with proofs := some proofs }, binding, candidate, signer, unsigned⟩

/-- `withdrawalRequest`, up to the signature of the binding: a withdrawal that is
    frozen is not signed again. -/
def withdrawalSigning (c : WithdrawCall) (job : Job) (publicationKey : Key) :
    Build (Json ⊕ Signing) := do
  let old ← readRequest publicationKey
  if decisionOf old = .str "withdraw" then return .inl old
  else do
    let proposed ← lift (withdrawalCandidate nfc (.obj (bindingOf old)) c.disclosureVersion
      c.requestId c.approvedAt)
    let binding ← lift (proposed.binding nfc)
    let allocated ← allocate (.obj binding) c.allocate
    let candidate ← lift (LocalCandidate.validate nfc (.obj allocated))
    let p1 ← lift (p1Of allocated)
    let signer ← lift c.signer
    let unsigned ← lift (unsigned nfc validateUrl candidate .null [] signer p1)
    return .inr ⟨job, binding, candidate, signer, unsigned⟩

/-- `withdraw`, up to the signature of the binding, if it comes to one. -/
def withdrawSigning (c : WithdrawCall) : Build (Option Signing) := do
  let job ← load c.load
  let _ ← lift (packaged job)
  match ← lift (publicationKeyOf job) with
  | some key =>
    if job.state ∈ [JobState.withdrawn, .retired] then return none
    else do
      return (← withdrawalSigning nfc validateUrl c
        { job with publicationJournalKey := some key } key).getRight?
  | none => return none

/-- The rest of `candidate`. -/
def finishCandidate (c : CandidateCall) : Option Signing → Build Unit
  | none => status c.again
  | some s => do
    let request ← lift (sign nfc validateUrl s.signer s.unsigned)
    let job ← freeze nfc validateUrl s.job s.candidate request
    save job
    status c.again

/-- The rest of `withdrawalRequest`. -/
def finishWithdrawal (job : Job) : Json ⊕ Signing → Build (Job × Json)
  | .inl old => return (job, old)
  | .inr s => do
    let request ← lift (sign nfc validateUrl s.signer s.unsigned)
    let job ← freeze nfc validateUrl s.job s.candidate request
    return (job, request)

end

section
variable {nfc : String → String} {validateUrl : String → Bool}

theorem constructRequest_eq (candidate : LocalCandidate) (commitment : Json) (proofs : List Json)
    (signer : Signer) (p1 : List (String × Json)) :
    constructRequest nfc validateUrl candidate commitment proofs signer p1 =
      unsigned nfc validateUrl candidate commitment proofs signer p1 >>=
        sign nfc validateUrl signer := by
  rw [constructRequest, unsigned]
  cases candidate.binding nfc with
  | error e => rfl
  | ok b =>
    rw [Except.ok_bind, Except.ok_bind]
    split_ifs with hp1
    · cases closed (previewDisclosureRequest nfc validateUrl)
          (unsignedRequest b commitment proofs) with
      | error e => rfl
      | ok request =>
        rw [Except.ok_bind, Except.ok_bind]
        cases checkRequestSignatures validateUrl signer (asObj request) with
        | error e => rfl
        | ok u =>
          rw [Except.ok_bind, Except.ok_bind, signDisclosure]
          cases closed (disclosureBinding nfc) (.obj b) with
          | error e => rfl
          | ok binding =>
            rw [Except.ok_bind, Except.ok_bind]
            split_ifs with hseller
            · rfl
            · cases disclosureBytes nfc binding with
              | error e => rfl
              | ok preimage =>
                rw [Except.ok_bind, Except.ok_bind, Signer.signBytes]
                cases signer.reference with
                | error e => rfl
                | ok reference =>
                  rw [Except.ok_bind, Except.ok_bind]
                  split_ifs with hreference
                  · rfl
                  · cases hsign : signer.sign preimage with
                    | error e =>
                      simp only [Except.pure_eq_ok, Except.ok_bind, Except.error_bind, sign, hsign]
                    | ok signature => simp only [Except.pure_eq_ok, Except.ok_bind, sign, hsign]
    · rfl

theorem lift_bind {α β : Type} (x : Except Raised α) (f : α → Except Raised β) :
    lift (x >>= f) = lift x >>= fun a => lift (f a) := by
  cases x with
  | error e => rfl
  | ok a => rfl

/-- **`candidate` signs what `candidateSigning` gives**, and nothing before. -/
theorem candidate_eq (c : CandidateCall) : candidate nfc validateUrl c =
    releaseOnExit (candidateSigning nfc validateUrl c >>= finishCandidate nfc validateUrl c) := by
  rw [candidate, candidateSigning]
  refine congrArg releaseOnExit ?_
  simp only [bind_assoc]
  refine bind_congr fun job => bind_congr fun _ => bind_congr fun rights =>
    bind_congr fun listingId => ?_
  split_ifs with hcandidate
  · rfl
  · simp only [bind_assoc, pure_bind, constructRequest_eq, lift_bind, finishCandidate]

/-- **A withdrawal signs what `withdrawalSigning` gives**, and nothing before. -/
theorem withdrawalRequest_eq (c : WithdrawCall) (job : Job) (key : Key) :
    withdrawalRequest nfc validateUrl c job key =
      withdrawalSigning nfc validateUrl c job key >>= finishWithdrawal nfc validateUrl job := by
  rw [withdrawalRequest, withdrawalSigning, bind_assoc]
  refine bind_congr fun old => ?_
  split_ifs with hold
  · rfl
  · simp only [bind_assoc, pure_bind, constructRequest_eq, lift_bind, finishWithdrawal]

theorem exec_releaseOnExit_congr {x y : Build Unit} {w w' : World} (h : exec x w = exec y w') :
    exec (releaseOnExit x) w = exec (releaseOnExit y) w' := by
  rw [releaseOnExit, releaseOnExit, exec_andFinally, exec_andFinally, h]

/-- **`withdraw` signs what `withdrawSigning` gives**, and nothing before. -/
theorem exec_withdraw_signing {c : WithdrawCall} {w w' : World} {s : Signing}
    (h : Returns (withdrawSigning nfc validateUrl c) w (some s) w') :
    ∃ key publication, exec (withdraw nfc validateUrl c) w = exec (releaseOnExit do
      let (job, request) ← finishWithdrawal nfc validateUrl s.job (.inr s)
      send .withdraw request c.response
      markSubmitted (← lift (journalKeyOf job))
      retireJob validateUrl c job (some key) publication) w' := by
  obtain ⟨job, w₁, hload, h⟩ := returns_bind.1 h
  obtain ⟨publication, w₂, hpackaged, h⟩ := returns_bind.1 h
  obtain ⟨publicationKey, w₃, hkey, h⟩ := returns_bind.1 h
  cases publicationKey with
  | none => cases (returns_pure.1 h).1
  | some key =>
    dsimp only at h
    split_ifs at h with hstate
    · cases (returns_pure.1 h).1
    · obtain ⟨signing, w₄, hsigning, h⟩ := returns_bind.1 h
      obtain ⟨hs, rfl⟩ := returns_pure.1 h
      cases signing with
      | inl old => cases hs
      | inr s' =>
        cases hs
        refine ⟨key, publication, exec_releaseOnExit_congr ?_⟩
        rw [hload.exec_bind, hpackaged.exec_bind, hkey.exec_bind, withdrawnJob, if_neg hstate,
          withdrawPublished, withdrawalRequest_eq]
        simp only [bind_assoc, pure_bind]
        rw [hsigning.exec_bind]
        rfl

end

/-! ## What is checked before the signature -/

section
variable {nfc : String → String} {validateUrl : String → Bool} {b d : List (String × Json)}

/-- What `construct_request` knows of a binding that it has signed. -/
structure Checked (nfc : String → String) (validateUrl : String → Bool) (commitment : Json)
    (proofs : List Json) (signer : Signer) (binding : List (String × Json)) : Prop where
  own : OwnDump nfc binding
  request : ∃ x r, previewDisclosureRequest nfc validateUrl (unsignedRequest x commitment proofs) =
    some (.obj r) ∧ getObj r "binding" = binding ∧ requestRules validateUrl r = true
  seller : get binding "seller_id" = .str signer.sellerId
  reference : ∃ reference, signer.reference = .ok reference ∧
    get binding "signer_reference" = .str reference

theorem unsigned_checked {candidate : LocalCandidate} {commitment : Json} {proofs : List Json}
    {signer : Signer} {p1 : List (String × Json)} {u : Unsigned}
    (h : unsigned nfc validateUrl candidate commitment proofs signer p1 = .ok u) :
    Checked nfc validateUrl commitment proofs signer u.binding := by
  obtain ⟨x, -, h⟩ := Except.bind_eq_ok.1 h
  split_ifs at h with hp1
  · obtain ⟨request, hrequest, h⟩ := Except.bind_eq_ok.1 h
    obtain ⟨-, -, h⟩ := Except.bind_eq_ok.1 h
    obtain ⟨binding, hbinding, h⟩ := Except.bind_eq_ok.1 h
    split_ifs at h with hseller
    · cases h
    · obtain ⟨preimage, -, h⟩ := Except.bind_eq_ok.1 h
      obtain ⟨reference, href, h⟩ := Except.bind_eq_ok.1 h
      split_ifs at h with hreference
      · cases h
      · cases h
        have hdump := closed_ok hbinding
        obtain ⟨_, r', -, rfl, -, -⟩ := disclosureBinding_some hdump
        have hclosed := closed_ok hrequest
        obtain ⟨_, r, -, rfl, -, hrules⟩ := disclosureRequest_some hclosed
        have hsame : disclosureBinding nfc (.obj x) = some (get r "binding") :=
          disclosureRequest_binding hclosed
        refine ⟨dump_own hdump, ⟨x, r, hclosed, ?_, hrules⟩, not_not.1 hseller, reference, href,
          not_not.1 hreference⟩
        rw [← asObj_get, ← Option.some.inj (hdump.symm.trans hsame)]
  · cases h

/-- What a binding with a sample says whatever the sample is. -/
structure Granted (d : List (String × Json)) : Prop where
  sample : get d "sample_decision" = .str "approved"
  decision : get d "decision" = .str "approve"
  preview : get d "preview_type" = .str "table"
  content : get d "content_type" = .str "tabular"
  permission : get d "public_preview_permission" = .bool true

theorem OwnDump.follows (h : OwnDump nfc d) :
    get d "supersedes" = get d "expected_current_disclosure_id" := by
  have hrules := h.rules
  rw [bindingRules] at hrules
  simp only [Bool.and_eq_true, decide_eq_true_eq, and_assoc] at hrules
  exact hrules.1

/-- A field that takes one literal, and is not null. -/
theorem OwnDump.literal (h : OwnDump nfc d) {key s : String}
    (hf : (⟨key, optional (literalField [s]), none⟩ : Field) ∈ bindingFields)
    (hne : key ≠ "aggregate_hash_profile") (hnull : get d key ≠ .null) : get d key = .str s := by
  have htype := h.type hf hne
  dsimp only at htype
  cases hd : get d key with
  | null => exact absurd hd hnull
  | _ =>
    rw [hd] at htype
    obtain ⟨-, t, ht, hs⟩ := literal_eq htype
    rw [hs, List.mem_singleton.1 ht]

/-- **A binding without a sample is bare.** -/
theorem OwnDump.bare (h : OwnDump nfc d) (hsample : get d "sample_decision" = .str "none") :
    Bare d := by
  have hrules := h.rules
  rw [bindingRules, if_pos hsample] at hrules
  simp only [Bool.and_eq_true, decide_eq_true_eq, List.all_eq_true, and_assoc] at hrules
  obtain ⟨-, -, -, hgrants, hproofs, hschema, hselected⟩ := hrules
  have hlist : ∀ (key : String) (type : Validator), ⟨key, type, none⟩ ∈ bindingFields →
      key ≠ "aggregate_hash_profile" → (∀ v, type v = some v → ∃ l, v = .arr l) →
      getList d key = [] → get d key = .arr [] := by
    intro key type hf hne harr hnil
    obtain ⟨l, hl⟩ := harr _ (h.type hf hne)
    rw [getList, hl] at hnil
    rw [hl, show l = [] from hnil]
  have harr : ∀ (f : Validator) (min max : ℕ) (v : Json), listField f min max v = some v →
      ∃ l, v = .arr l := by
    intro f min max v hv
    cases v with
    | arr l => exact ⟨l, rfl⟩
    | _ => cases hv
  have hany : ∀ v : Json, anyList 500 v = some v → ∃ l, v = .arr l := by
    intro v hv
    cases v with
    | arr l => exact ⟨l, rfl⟩
    | _ => cases hv
  refine ⟨hsample, fun key hkey => of_decide_eq_true (hgrants key hkey), ?_⟩
  simp only [listNames, List.forall_mem_cons]
  exact ⟨hlist _ (listField (textWhere fun s => 1 ≤ s.length ∧ s.length ≤ 255) 0 25)
      (by simp [bindingFields]) (by decide) (harr _ _ _) hselected,
    hlist _ (anyList 500) (by simp [bindingFields]) (by decide) hany hschema,
    hlist _ (listField uuidField 0 100) (by simp [bindingFields]) (by decide) (harr _ _ _) hproofs,
    fun key hkey => by cases hkey⟩

theorem OwnDump.granted (h : OwnDump nfc d) (hsample : get d "sample_decision" ≠ .str "none") :
    Granted d := by
  have hrules := h.rules
  rw [bindingRules, if_neg hsample] at hrules
  simp only [Bool.and_eq_true, decide_eq_true_eq, List.all_eq_true, and_assoc] at hrules
  obtain ⟨-, -, -, hgrants, hpermission, -⟩ := hrules
  have hnull : ∀ key ∈ grantKeys, get d key ≠ .null := fun key hkey hd => by
    have := hgrants key hkey
    rw [hd] at this
    cases this
  have hdecision := h.type (f := ⟨"decision", literalField ["approve", "withdraw"], none⟩)
    (by simp [bindingFields]) (by decide)
  have happroved := h.type (f := ⟨"sample_decision", literalField ["none", "approved"], none⟩)
    (by simp [bindingFields]) (by decide)
  refine ⟨?_, ?_, h.literal (by simp [bindingFields]) (by decide) (hnull _ (by decide)),
    h.literal (by simp [bindingFields]) (by decide) (hnull _ (by decide)), hpermission⟩
  · obtain ⟨-, s, hs, hd⟩ := literal_eq happroved
    rcases List.mem_pair.1 hs with rfl | rfl
    · exact absurd hd hsample
    · exact hd
  · obtain ⟨-, s, hs, hd⟩ := literal_eq hdecision
    rcases List.mem_pair.1 hs with rfl | rfl
    · exact hd
    · exact absurd (bindingRules_withdraw h.rules hd) hsample

/-- What is signed without a commitment is bare. -/
theorem Checked.bare {proofs : List Json} {signer : Signer}
    (h : Checked nfc validateUrl .null proofs signer b) : Bare b := by
  obtain ⟨x, r, hrequest, hbinding, hrules⟩ := h.request
  refine h.own.bare ?_
  by_contra hsample
  have hcommitment : get r "commitment" = .null :=
    (Option.some.inj (disclosureRequest_commitment hrequest)).symm
  rw [requestRules, hbinding, if_neg hsample, hcommitment] at hrules
  simp at hrules

/-- What is signed with a commitment has a sample, and agrees with the
    commitment. -/
theorem Checked.agrees {commitment : Json} {proofs : List Json} {signer : Signer}
    (h : Checked nfc validateUrl commitment proofs signer b) (hne : commitment ≠ .null) :
    Granted b ∧ ∃ c, datasetCommitmentContract validateUrl commitment = some c ∧
      ∀ key ∈ ["listing_id", "commitment_id", "schema_digest", "seller_dataset_version"],
        get b key = get (asObj c) key := by
  obtain ⟨x, r, hrequest, hbinding, hrules⟩ := h.request
  have hcommitment := disclosureRequest_commitment hrequest
  have hnull : get r "commitment" ≠ .null := commitment_ne_null hcommitment hne
  have hsample : get b "sample_decision" ≠ .str "none" := by
    intro hnone
    exact hnull (requestRules_none hrules (hbinding ▸ hnone))
  refine ⟨h.own.granted hsample, get r "commitment", ?_, ?_⟩
  · cases commitment with
    | null => exact absurd rfl hne
    | _ => exact hcommitment
  · rw [requestRules, hbinding, if_neg hsample] at hrules
    simp only [Bool.and_eq_true, sampleAgreement, List.all_eq_true, decide_eq_true_eq,
      and_assoc] at hrules
    obtain ⟨-, -, -, -, hkeys, -⟩ := hrules
    rw [asObj_get]
    exact hkeys

end

/-! ## The proposals -/

section
variable {nfc : String → String} {validateUrl : String → Bool} {b d : List (String × Json)}

theorem dicts_of_own (h : OwnDump nfc d) (hdescriptors : Dicts (get d "schema_descriptors")) :
    Dicts (.obj d) := by
  refine ⟨h.nodup, dictsFields_of_forall fun p hp => ?_⟩
  have hmem : p.1 ∈ d.map Prod.fst := List.mem_map_of_mem hp
  obtain ⟨f, hf, hname⟩ := List.mem_map.1 (h.named hmem)
  have hvalue : get d f.name = p.2 := hname ▸ get_of_mem h.nodup hp
  have htype := h.types f hf (hname ▸ hmem)
  rw [hvalue] at htype
  by_cases hlist : f.name ∈ listNames
  · simp only [listNames, List.mem_cons, List.not_mem_nil, or_false] at hlist
    rcases hlist with hkey | hkey | hkey
    · obtain rfl := field_unique hf (show (⟨"selected_fields",
        listField (textWhere fun s => 1 ≤ s.length ∧ s.length ≤ 255) 0 25, none⟩ : Field) ∈
          bindingFields by simp [bindingFields]) hkey
      exact makesDicts_list (makesDicts_textWhere _) 0 25 htype
    · rw [hkey] at hvalue
      exact hvalue ▸ hdescriptors
    · obtain rfl := field_unique hf (show (⟨"proof_ids", listField uuidField 0 100, none⟩ : Field) ∈
        bindingFields by simp [bindingFields]) hkey
      exact makesDicts_list makesDicts_uuid 0 100 htype
  · exact (settles_binding f hf hlist htype).2.dicts

/-- **A candidate gives back the flat values** that it carries. -/
theorem Carries.get_flat {c : LocalCandidate} (h : Carries nfc c d) (hdicts : Dicts (.obj d))
    (hb : c.binding nfc = .ok b) {key : String} (hkey : key ∈ bindingNames)
    (hne : key ≠ "aggregate_hash_profile") (hlist : key ∉ listNames) : get b key = get d key := by
  obtain ⟨f, hf, rfl⟩ := List.mem_map.1 hkey
  have hd := settles_binding f hf hlist (h.own.type hf hne)
  rw [LocalCandidate.binding, if_neg (not_not.2 h.kind)] at hb
  obtain ⟨value, hvalue, hb⟩ := Except.bind_eq_ok.1 hb
  obtain ⟨data, hdata, hb⟩ := Except.bind_eq_ok.1 hb
  obtain ⟨again, -, hb⟩ := Except.bind_eq_ok.1 hb
  split_ifs at hb with hsame
  · cases hb
  · cases hb
    obtain ⟨normal, hnormal, -⟩ := Except.bind_eq_ok.1 h.bytes
    have hloads := loads_canonicalJsonBytes hdicts hnormal h.bytes
    have hvalue' : value = normal := Option.some.inj ((loadJson_ok hvalue).symm.trans hloads)
    subst hvalue'
    have hdump := closed_ok hdata
    obtain ⟨n, r, rfl, rfl, -⟩ := disclosureBinding_some hdump
    have hread := disclosureBinding_field hdump hf (default_none f hf hne) hne
    have hget : get n f.name = get d f.name := by
      rcases lookup_normalize hnormal h.own.nodup f.name with ⟨hl, hl'⟩ | ⟨v, v', hl, hl', hv⟩
      · rw [Contract.get, Contract.get, hl, hl']
      · rw [get_of_lookup hl'] 
        rw [get_of_lookup hl] at hd ⊢
        rw [hd.2.normalize] at hv
        exact (Except.ok.inj hv).symm
    rw [show asObj (.obj n) = n from rfl, hget, hd.1] at hread
    exact (Option.some.inj hread).symm

/-- A flat value of the proposal is what its field makes of the value given. -/
theorem proposed_field {x : List (String × Json)} {c : LocalCandidate}
    (hc : LocalCandidate.validate nfc (.obj x) = .ok c) (hb : c.binding nfc = .ok b)
    (hdicts : ∀ v, anyList 500 (get x "schema_descriptors") = some v → Dicts v) {f : Field}
    (hf : f ∈ bindingFields) (hne : f.name ≠ "aggregate_hash_profile")
    (hlist : f.name ∉ listNames) : f.type (get x f.name) = some (get b f.name) := by
  obtain ⟨d, hd, hcarries⟩ := validate_carries hc
  have hdescriptors := disclosureBinding_field (f := ⟨"schema_descriptors", anyList 500, none⟩) hd
    (by simp [bindingFields]) rfl (by decide)
  have hobj := dicts_of_own hcarries.own (hdicts _ hdescriptors)
  rw [hcarries.get_flat hobj hb (List.mem_map_of_mem hf) hne hlist]
  exact disclosureBinding_field hd hf (default_none f hf hne) hne

theorem proposed_own {c : LocalCandidate} (hb : c.binding nfc = .ok b) : OwnDump nfc b := by
  obtain ⟨-, v, hv⟩ := candidate_binding hb
  exact dump_own hv

theorem literal_self {values : List String} {s : String} {y : Json}
    (h : literalField values (.str s) = some y) : y = .str s := (literal_eq h).1

/-- **The proposed withdrawal is bare.** -/
theorem withdrawalCandidate_bare {old : Json} {v r t : String} {c : LocalCandidate}
    (hc : withdrawalCandidate nfc old v r t = .ok c) (hb : c.binding nfc = .ok b) : Bare b := by
  obtain ⟨prior, -, hc⟩ := Except.bind_eq_ok.1 hc
  have hsample : get (withdrawalOf (asObj prior) v r t) "sample_decision" = .str "none" :=
    get_withdrawal_set (by simp [withdrawalSets]) (by decide)
  have hempty : get (withdrawalOf (asObj prior) v r t) "schema_descriptors" = .arr [] :=
    get_withdrawal_null (by simp [withdrawalNulls])
  have hfield := proposed_field (f := ⟨"sample_decision", literalField ["none", "approved"], none⟩)
    hc hb (fun y hy => by rw [hempty] at hy; cases hy; trivial) (by simp [bindingFields])
    (by decide) (by decide)
  dsimp only at hfield
  rw [hsample] at hfield
  exact (proposed_own hb).bare (literal_self hfield)

/-- What `candidate` proposes, and the commitment that it signs. -/
structure Proposes (validateUrl : String → Bool) (job : Job) (listingId : String) (signer : Signer)
    (out : Proposal) : Prop where
  commitment : ∃ fields c signature, datasetCommitmentContract validateUrl (.obj fields) = some c ∧
    out.commitment = withField "seller_signature" signature c ∧
    get fields "listing_id" = .str listingId ∧ get fields "commitment_id" = .str job.commitmentId ∧
    get fields "seller_dataset_version" = .str job.sourceVersion
  binding : ∃ l reference, out.binding = .obj l ∧ signer.reference = .ok reference ∧
    ∀ p ∈ [("sample_decision", .str "approved"), ("listing_id", .str listingId),
      ("commitment_id", .str job.commitmentId),
      ("schema_digest", get (asObj out.commitment) "schema_digest"),
      ("seller_dataset_version", .str job.sourceVersion), ("seller_id", .str job.owner),
      ("signer_reference", .str reference), ("schema_descriptors", .arr job.descriptors)],
      get l p.1 = p.2

theorem keywords_ok {l : List (String × Json)} {v : Json} (h : keywords l = .ok v) :
    v = .obj l ∧ (l.map Prod.fst).Nodup := by
  rw [keywords] at h
  split_ifs at h with hnd
  · cases h
    exact ⟨rfl, hnd⟩
  · cases h

theorem signCommitment_ok {signer : Signer} {x out : Json}
    (h : signCommitment validateUrl signer x = .ok out) :
    ∃ c signature, datasetCommitmentContract validateUrl x = some c ∧
      out = withField "seller_signature" signature c := by
  obtain ⟨c, hc, h⟩ := Except.bind_eq_ok.1 h
  obtain ⟨-, -, h⟩ := Except.bind_eq_ok.1 h
  obtain ⟨bytes, -, h⟩ := Except.bind_eq_ok.1 h
  obtain ⟨signature, -, h⟩ := Except.bind_eq_ok.1 h
  cases h
  exact ⟨c, signature, closed_ok hc, rfl⟩

theorem proposal_proposes {job : Job} {c : CandidateCall} {listingId origin : String}
    {signer : Signer} {summary rights : List (String × Json)} {publication : Publication}
    {proofs : List (List (String × Json))} {out : Proposal}
    (h : proposal validateUrl job c listingId signer summary rights publication origin proofs =
      .ok out) : Proposes validateUrl job listingId signer out := by
  obtain ⟨reference, hreference, h⟩ := Except.bind_eq_ok.1 h
  obtain ⟨p1, hp1, h⟩ := Except.bind_eq_ok.1 h
  obtain ⟨fields, hfields, h⟩ := Except.bind_eq_ok.1 h
  obtain ⟨attested, -, h⟩ := Except.bind_eq_ok.1 h
  obtain ⟨digest, -, h⟩ := Except.bind_eq_ok.1 h
  obtain ⟨records, -, h⟩ := Except.bind_eq_ok.1 h
  obtain ⟨signed, -, h⟩ := Except.bind_eq_ok.1 h
  obtain ⟨commitment, hcommitment, h⟩ := Except.bind_eq_ok.1 h
  obtain ⟨binding, hbinding, h⟩ := Except.bind_eq_ok.1 h
  cases h
  constructor
  · obtain ⟨c₀, signature, hc₀, rfl⟩ := signCommitment_ok hcommitment
    obtain ⟨previous, -, hfields⟩ := Except.bind_eq_ok.1 hfields
    obtain ⟨schema, -, hfields⟩ := Except.bind_eq_ok.1 hfields
    obtain ⟨root, -, hfields⟩ := Except.bind_eq_ok.1 hfields
    obtain ⟨count, -, hfields⟩ := Except.bind_eq_ok.1 hfields
    cases hfields
    exact ⟨_, c₀, signature, hc₀, rfl, rfl, rfl, rfl⟩
  · obtain ⟨id, -, hp1⟩ := Except.bind_eq_ok.1 hp1
    obtain ⟨hash, -, hp1⟩ := Except.bind_eq_ok.1 hp1
    obtain ⟨render, -, hp1⟩ := Except.bind_eq_ok.1 hp1
    obtain ⟨source, -, hp1⟩ := Except.bind_eq_ok.1 hp1
    cases hp1
    obtain ⟨supersedes, -, hbinding⟩ := Except.bind_eq_ok.1 hbinding
    obtain ⟨sampled, -, hbinding⟩ := Except.bind_eq_ok.1 hbinding
    obtain ⟨scanned, -, hbinding⟩ := Except.bind_eq_ok.1 hbinding
    obtain ⟨rfl, hnd⟩ := keywords_ok hbinding
    refine ⟨_, reference, rfl, hreference, fun p hp => get_of_mem hnd ?_⟩
    simp only [List.mem_append, List.mem_cons, List.not_mem_nil, or_false] at hp ⊢
    rcases hp with rfl | rfl | rfl | rfl | rfl | rfl | rfl | rfl <;> simp

end

/-! ## What is tied to the proposal -/

/-- The keys whose values ai.market allocates. -/
def allocatedKeys : List String :=
  ["summary_id", "summary_approval_id", "summary_hash", "render_hash", "aggregate_hash",
    "aggregate_hash_profile", "content_revision", "source_revision", "listing_version_id"]

/-- What is signed is what was proposed, but for what ai.market allocates. -/
def Signing.Reviewed (s : Signing) : Prop :=
  ∀ key ∈ bindingNames, key ∉ allocatedKeys → get s.unsigned.binding key = get s.proposed key

/-- An action that has a binding signed. -/
inductive Preparation where
  | candidate (c : CandidateCall)
  | withdraw (c : WithdrawCall)

/-- The action, started in `w`, comes to the signature of a binding. -/
def Preparation.Signs (nfc : String → String) (validateUrl : String → Bool) (w : World)
    (s : Signing) : Preparation → Prop
  | .candidate c => ∃ w', Returns (candidateSigning nfc validateUrl c) w (some s) w'
  | .withdraw c => ∃ w', Returns (withdrawSigning nfc validateUrl c) w (some s) w'

/-- The keys of an approval that are not compared with the proposal: those of the
    sample enter digests, the others nothing. -/
def approvalKeys : List String :=
  ["disclosure_version", "selected_fields", "sample_hash", "schema_descriptors", "proof_ids",
    "sampled_leaf_list_digest", "scan_attestation_digest", "rights_basis_digest",
    "rights_basis_code", "approved_by", "approved_at", "last_attested_by_seller_at",
    "update_cadence_days", "approval_expires_at", "supersedes", "request_id"]

/-- The keys of a withdrawal that are not compared with the proposal. -/
def withdrawKeys : List String :=
  ["decision", "disclosure_version", "seller_id", "listing_id", "approved_by", "approved_at",
    "last_attested_by_seller_at", "update_cadence_days", "approval_expires_at", "supersedes",
    "request_id", "signer_reference"]

def Preparation.unchecked : Preparation → List String
  | .candidate _ => approvalKeys
  | .withdraw _ => withdrawKeys

/-- The keys of an approval that are compared. -/
def pinnedKeys : List String :=
  ["profile", "decision", "seller_id", "listing_id", "preview_type", "content_type",
    "sample_decision", "commitment_id", "schema_digest", "seller_dataset_version",
    "public_preview_permission", "signer_reference", "signature_algorithm", "signature_profile"]

section
variable {nfc : String → String} {validateUrl : String → Bool} {b d : List (String × Json)}
  {w w' : World} {s : Signing}

theorem OwnDump.single (h : OwnDump nfc d) {key t : String}
    (hf : (⟨key, literalField [t], none⟩ : Field) ∈ bindingFields)
    (hne : key ≠ "aggregate_hash_profile") : get d key = .str t := by
  obtain ⟨-, t', ht, hd⟩ := literal_eq (h.type hf hne)
  rw [hd, List.mem_singleton.1 ht]

theorem returns_lift_iff {α : Type} {x : Except Raised α} {a : α} :
    Returns (lift x) w a w' ↔ x = .ok a ∧ w = w' := returns_ofExcept

/-- What `candidate` proposes and what it has signed. -/
theorem candidateSigning_ok {c : CandidateCall}
    (h : Returns (candidateSigning nfc validateUrl c) w (some s) w') :
    ∃ listingId out proposed, Proposes validateUrl s.job listingId s.signer out ∧
      LocalCandidate.validate nfc out.binding = .ok proposed ∧
      proposed.binding nfc = .ok s.proposed ∧ out.commitment ≠ .null ∧
      Checked nfc validateUrl out.commitment out.proofs s.signer s.unsigned.binding := by
  obtain ⟨job, w₁, -, h⟩ := returns_bind.1 h
  obtain ⟨-, w₂, -, h⟩ := returns_bind.1 h
  obtain ⟨rights, w₃, -, h⟩ := returns_bind.1 h
  obtain ⟨listingId, w₄, -, h⟩ := returns_bind.1 h
  rcases returns_ite.1 h with ⟨-, h⟩ | ⟨-, h⟩
  · cases (returns_pure.1 h).1
  · obtain ⟨summary, w₅, -, h⟩ := returns_bind.1 h
    obtain ⟨signer, w₆, -, h⟩ := returns_bind.1 h
    obtain ⟨publication, w₇, -, h⟩ := returns_bind.1 h
    obtain ⟨origin, w₈, -, h⟩ := returns_bind.1 h
    obtain ⟨proofs, w₉, -, h⟩ := returns_bind.1 h
    obtain ⟨out, w₁₀, hout, h⟩ := returns_bind.1 h
    obtain ⟨proposed, w₁₁, hproposed, h⟩ := returns_bind.1 h
    obtain ⟨binding, w₁₂, hbinding, h⟩ := returns_bind.1 h
    obtain ⟨allocated, w₁₃, -, h⟩ := returns_bind.1 h
    obtain ⟨candidate, w₁₄, -, h⟩ := returns_bind.1 h
    obtain ⟨p1, w₁₅, -, h⟩ := returns_bind.1 h
    obtain ⟨u, w₁₆, hunsigned, h⟩ := returns_bind.1 h
    obtain ⟨hs, -⟩ := returns_pure.1 h
    cases hs
    have hproposal := (returns_lift_iff.1 hout).1
    exact ⟨listingId, out, proposed, proposal_proposes hproposal, (returns_lift_iff.1 hproposed).1,
      (returns_lift_iff.1 hbinding).1, proposal_commitment hproposal,
      unsigned_checked (returns_lift_iff.1 hunsigned).1⟩

/-- What `withdraw` proposes and what it has signed. -/
theorem withdrawSigning_ok {c : WithdrawCall}
    (h : Returns (withdrawSigning nfc validateUrl c) w (some s) w') :
    ∃ old v r t proposed, withdrawalCandidate nfc old v r t = .ok proposed ∧
      proposed.binding nfc = .ok s.proposed ∧
      Checked nfc validateUrl .null [] s.signer s.unsigned.binding := by
  obtain ⟨job, w₁, -, h⟩ := returns_bind.1 h
  obtain ⟨publication, w₂, -, h⟩ := returns_bind.1 h
  obtain ⟨publicationKey, w₃, -, h⟩ := returns_bind.1 h
  cases publicationKey with
  | none => cases (returns_pure.1 h).1
  | some key =>
    rcases returns_ite.1 h with ⟨-, h⟩ | ⟨-, h⟩
    · cases (returns_pure.1 h).1
    · obtain ⟨signing, w₄, hsigning, h⟩ := returns_bind.1 h
      obtain ⟨hs, -⟩ := returns_pure.1 h
      obtain ⟨old, w₅, -, hsigning⟩ := returns_bind.1 hsigning
      rcases returns_ite.1 hsigning with ⟨-, hsigning⟩ | ⟨-, hsigning⟩
      · rw [← (returns_pure.1 hsigning).1] at hs
        cases hs
      · obtain ⟨proposed, w₆, hproposed, hsigning⟩ := returns_bind.1 hsigning
        obtain ⟨binding, w₇, hbinding, hsigning⟩ := returns_bind.1 hsigning
        obtain ⟨allocated, w₈, -, hsigning⟩ := returns_bind.1 hsigning
        obtain ⟨candidate, w₉, -, hsigning⟩ := returns_bind.1 hsigning
        obtain ⟨p1, w₁₀, -, hsigning⟩ := returns_bind.1 hsigning
        obtain ⟨signer, w₁₁, -, hsigning⟩ := returns_bind.1 hsigning
        obtain ⟨u, w₁₂, hunsigned, hsigning⟩ := returns_bind.1 hsigning
        rw [← (returns_pure.1 hsigning).1] at hs
        cases hs
        exact ⟨_, _, _, _, proposed, (returns_lift_iff.1 hproposed).1,
          (returns_lift_iff.1 hbinding).1, unsigned_checked (returns_lift_iff.1 hunsigned).1⟩

/-- A value that the commitment dumps. -/
theorem commitment_field {v y : Json} (h : datasetCommitmentContract validateUrl v = some y)
    {f : Field} (hf : f ∈ datasetCommitmentFields validateUrl) (hdef : f.default = none) :
    f.type (get (asObj v) f.name) = some (get (asObj y) f.name) := by
  rw [datasetCommitmentContract, wireModel] at h
  split_ifs at h
  obtain ⟨r, rfl, -⟩ := closedModel_keys h
  cases v with
  | obj l =>
    obtain ⟨x, y, hx, hy, hr⟩ := closedModel_get h (by simp [datasetCommitmentFields]) hf hdef
    rw [asObj, asObj, get_of_lookup hx, get_of_lookup hr]
    exact hy
  | _ => cases h

/-- A value that the signed commitment carries on. -/
theorem committed_get {x c c' : Json} {signature : Json} {f : Field}
    (hc : datasetCommitmentContract validateUrl x = some c)
    (hc' : datasetCommitmentContract validateUrl (withField "seller_signature" signature c) =
      some c')
    (hf : f ∈ datasetCommitmentFields validateUrl) (hdef : f.default = none)
    (hname : f.name ≠ "seller_signature") (hsettles : Settles f.type) :
    f.type (get (asObj x) f.name) = some (get (asObj c') f.name) := by
  have hfirst := commitment_field hc hf hdef
  have hagain := commitment_field hc' hf hdef
  rw [get_withField_of_ne hname, (hsettles hfirst).1] at hagain
  rw [hfirst, hagain]

/-- **What an approval ties to its proposal.** -/
theorem candidate_pinned {c : CandidateCall}
    (h : Returns (candidateSigning nfc validateUrl c) w (some s) w')
    (howner : s.signer.sellerId = s.job.owner) (hdicts : ∀ v ∈ s.job.descriptors, Dicts v) :
    ∀ key ∈ pinnedKeys, get s.unsigned.binding key = get s.proposed key := by
  obtain ⟨listingId, out, proposed, hproposes, hvalidate, hbinding, hne, hchecked⟩ :=
    candidateSigning_ok h
  obtain ⟨fields, c₀, signature, hc₀, hcommitment, hlisting, hid, hversion⟩ := hproposes.commitment
  obtain ⟨l, reference, hl, hreference, hvalues⟩ := hproposes.binding
  obtain ⟨hgranted, c', hc', hagrees⟩ := hchecked.agrees hne
  rw [hl] at hvalidate
  simp only [List.forall_mem_cons] at hvalues hagrees
  obtain ⟨hsample, hlistingL, hidL, hschemaL, hversionL, hsellerL, hsignerL, hdescriptors, -⟩ :=
    hvalues
  obtain ⟨hlistingB, hidB, hschemaB, hversionB, -⟩ := hagrees
  have hown := proposed_own hbinding
  have hfield : ∀ {f : Field}, f ∈ bindingFields → f.name ≠ "aggregate_hash_profile" →
      f.name ∉ listNames → f.type (get l f.name) = some (get s.proposed f.name) :=
    proposed_field hvalidate hbinding fun v hv => by
      rw [hdescriptors, anyList] at hv
      split_ifs at hv
      cases hv
      exact dictsList_of_forall hdicts
  have hgrantedP : Granted s.proposed := by
    refine hown.granted ?_
    have hsampleP := hfield (f := ⟨"sample_decision", literalField ["none", "approved"], none⟩)
      (by simp [bindingFields]) (by decide) (by decide)
    dsimp only at hsampleP
    rw [hsample] at hsampleP
    rw [literal_self hsampleP]
    decide
  rw [hcommitment] at hc' hschemaL
  -- what the signed commitment ties: both sides are what the field makes of one value
  have htied : ∀ (key : String) (type type' : Validator) {t : String},
      ⟨key, type, none⟩ ∈ datasetCommitmentFields validateUrl → key ≠ "seller_signature" →
      Settles type → get fields key = .str t → ⟨key, type', none⟩ ∈ bindingFields →
      key ≠ "aggregate_hash_profile" → key ∉ listNames → type' (.str t) = type (.str t) →
      get l key = .str t → get s.unsigned.binding key = get (asObj c') key →
      get s.unsigned.binding key = get s.proposed key := by
    intro key type type' t hf hname hsettles hvalue hf' hne' hlist htype hvalue' hagree
    have hcommitted : type (get fields key) = some (get (asObj c') key) :=
      committed_get hc₀ hc' hf rfl hname hsettles
    have hproposed : type' (get l key) = some (get s.proposed key) := hfield hf' hne' hlist
    rw [hvalue] at hcommitted
    rw [hvalue', htype, hcommitted] at hproposed
    rw [hagree, Option.some.inj hproposed]
  have hsingle : ∀ (key t : String), ⟨key, literalField [t], none⟩ ∈ bindingFields →
      key ≠ "aggregate_hash_profile" → get s.unsigned.binding key = get s.proposed key :=
    fun key t hf hne' => (hchecked.own.single hf hne').trans (hown.single hf hne').symm
  have hschema : get s.unsigned.binding "schema_digest" = get s.proposed "schema_digest" := by
    have hcommitted := commitment_field (f := ⟨"schema_digest", digestField, none⟩) hc'
      (by simp [datasetCommitmentFields]) rfl
    obtain ⟨hsame, t, ht, -⟩ := textWhere_some hcommitted
    have hproposed : optional digestField (get l "schema_digest") =
        some (get s.proposed "schema_digest") :=
      hfield (f := ⟨"schema_digest", optional digestField, none⟩) (by simp [bindingFields])
        (by decide) (by decide)
    rw [hschemaL, ht] at hproposed
    have hdigest : base64Field 43 32 (.str t) = some (get s.proposed "schema_digest") := hproposed
    rw [hschemaB, hsame, ht, (textWhere_some hdigest).1]
  have hseller : get s.unsigned.binding "seller_id" = get s.proposed "seller_id" := by
    have hproposed := hfield (f := ⟨"seller_id", uuidField, none⟩) (by simp [bindingFields])
      (by decide) (by decide)
    have hsigned := hchecked.own.type (f := ⟨"seller_id", uuidField, none⟩)
      (by simp [bindingFields]) (by decide)
    dsimp only at hproposed hsigned
    rw [hsellerL, ← howner, ← hchecked.seller, hsigned] at hproposed
    exact Option.some.inj hproposed
  have hsigner : get s.unsigned.binding "signer_reference" = get s.proposed "signer_reference" := by
    obtain ⟨reference', hreference', hsigned⟩ := hchecked.reference
    cases hreference.symm.trans hreference'
    have hproposed := hfield (f := ⟨"signer_reference", signerReferenceField, none⟩)
      (by simp [bindingFields]) (by decide) (by decide)
    dsimp only at hproposed
    rw [hsignerL] at hproposed
    rw [hsigned, (textWhere_some hproposed).1]
  simp only [pinnedKeys, List.forall_mem_cons]
  exact ⟨hsingle _ "aim-preview-disclosure-v1" (by simp [bindingFields]) (by decide),
    hgranted.decision.trans hgrantedP.decision.symm, hseller,
    htied _ uuidField uuidField (by simp [datasetCommitmentFields]) (by decide) settles_uuid
      hlisting (by simp [bindingFields]) (by decide) (by decide) rfl hlistingL hlistingB,
    hgranted.preview.trans hgrantedP.preview.symm, hgranted.content.trans hgrantedP.content.symm,
    hgranted.sample.trans hgrantedP.sample.symm,
    htied _ uuidField (optional uuidField) (by simp [datasetCommitmentFields]) (by decide)
      settles_uuid hid (by simp [bindingFields]) (by decide) (by decide) rfl hidL hidB,
    hschema,
    htied _ codeField (optional codeField) (by simp [datasetCommitmentFields]) (by decide)
      (settles_pattern 1 (by norm_num) _) hversion (by simp [bindingFields]) (by decide) (by decide)
      rfl hversionL hversionB,
    hgranted.permission.trans hgrantedP.permission.symm, hsigner,
    hsingle _ "ed25519" (by simp [bindingFields]) (by decide),
    hsingle _ "aim-preview-disclosure-signature-v1" (by simp [bindingFields]) (by decide),
    fun key hkey => by cases hkey⟩

/-- The keys of a withdrawal that are compared. -/
def bareKeys : List String :=
  ["profile", "sample_decision", "signature_algorithm", "signature_profile"] ++ grantKeys ++
    listNames

/-- **What a withdrawal ties to its proposal.** -/
theorem withdraw_pinned {c : WithdrawCall}
    (h : Returns (withdrawSigning nfc validateUrl c) w (some s) w') :
    ∀ key ∈ bareKeys, get s.unsigned.binding key = get s.proposed key := by
  obtain ⟨old, v, r, t, proposed, hproposed, hbinding, hchecked⟩ := withdrawSigning_ok h
  have hown := proposed_own hbinding
  have hbare := hchecked.bare
  have hbareP := withdrawalCandidate_bare hproposed hbinding
  have hsingle : ∀ (key t : String), ⟨key, literalField [t], none⟩ ∈ bindingFields →
      key ≠ "aggregate_hash_profile" → get s.unsigned.binding key = get s.proposed key :=
    fun key t hf hne => (hchecked.own.single hf hne).trans (hown.single hf hne).symm
  intro key hkey
  rw [bareKeys, List.append_assoc, List.mem_append, List.mem_append] at hkey
  rcases hkey with hkey | hkey | hkey
  · revert key
    simp only [List.forall_mem_cons]
    exact ⟨hsingle _ "aim-preview-disclosure-v1" (by simp [bindingFields]) (by decide),
      hbare.sample.trans hbareP.sample.symm,
      hsingle _ "ed25519" (by simp [bindingFields]) (by decide),
      hsingle _ "aim-preview-disclosure-signature-v1" (by simp [bindingFields]) (by decide),
      fun key hkey => by cases hkey⟩
  · rw [hbare.grants key hkey, hbareP.grants key hkey]
  · rw [hbare.lists key hkey, hbareP.lists key hkey]

/-- A review is one of the keys that are not tied to the proposal. -/
theorem reviewed_iff_of {unchecked pinned : List String} (hown : OwnDump nfc s.unsigned.binding)
    (hownP : OwnDump nfc s.proposed) (hsupersedes : "supersedes" ∈ unchecked)
    (hnamed : ∀ key ∈ unchecked, key ∈ bindingNames ∧ key ∉ allocatedKeys)
    (hcases : ∀ key ∈ bindingNames, key ∈ allocatedKeys ∨ key ∈ pinned ∨
      key = "expected_current_disclosure_id" ∨ key ∈ unchecked)
    (hpinned : ∀ key ∈ pinned, get s.unsigned.binding key = get s.proposed key) :
    s.Reviewed ↔ ∀ key ∈ unchecked, get s.unsigned.binding key = get s.proposed key := by
  constructor
  · intro hreviewed key hkey
    exact hreviewed key (hnamed key hkey).1 (hnamed key hkey).2
  · intro hunchecked key hkey hallocated
    rcases hcases key hkey with hkey | hkey | rfl | hkey
    · exact absurd hkey hallocated
    · exact hpinned key hkey
    · rw [← hown.follows, ← hownP.follows, hunchecked _ hsupersedes]
    · exact hunchecked key hkey

end

/-! ## A withdrawal that is answered with another approver -/

section
variable {nfc : String → String} {validateUrl : String → Bool} {d : List (String × Json)}
  {w : World} {key key' : Key} {old answer : List (String × Json)} {c : WithdrawCall}

theorem unsigned_bare (validateUrl : String → Bool) {candidate : LocalCandidate} {signer : Signer}
    (hcandidate : candidate.binding nfc = .ok d) (h : BareBinding nfc d)
    (hsigns : PreviewBuild.Signs signer d) :
    unsigned nfc validateUrl candidate .null [] signer (allocatedP1 d) =
      .ok ⟨bareRequest d dummySignature, d, disclosureTag ++ bindingBytes d⟩ := by
  obtain ⟨reference, href, hreference⟩ := hsigns.reference
  have hdummy : signatureField dummySignature = some dummySignature :=
    signatureField_encode (by simp)
  have hunsigned : closed (previewDisclosureRequest nfc validateUrl) (unsignedRequest d .null []) =
      .ok (bareRequest d dummySignature) := by
    rw [show unsignedRequest d .null [] = bareRequest d dummySignature from rfl, closed,
      bareRequest_dump validateUrl h hdummy]
  have hcheck : checkRequestSignatures validateUrl signer (asObj (bareRequest d dummySignature)) =
      .ok () := by
    unfold checkRequestSignatures
    exact if_pos rfl
  have hclosed : closed (disclosureBinding nfc) (.obj d) = .ok (.obj d) := by
    rw [closed, h.flat.dump (.refl d)]
  have hpreimage : disclosureBytes nfc (.obj d) = .ok (disclosureTag ++ bindingBytes d) := by
    rw [disclosureBytes, h.flat.serialize]
    rfl
  rw [unsigned, hcandidate, Except.ok_bind, if_neg (not_not.2 allocatedP1_agrees), hunsigned,
    Except.ok_bind, hcheck, Except.ok_bind, hclosed, Except.ok_bind, asObj,
    if_neg (not_not.2 hsigns.seller), hpreimage, Except.ok_bind, href, Except.ok_bind,
    if_neg (not_not.2 hreference)]
  rfl

/-- **What ai.market answers to a withdrawal is signed**, if it is bare. -/
theorem signs_withdrawal (validateUrl : String → Bool) (hoffered : Offered w key)
    (hpublishes : Publishes nfc w key old) (hcall : Unsent nfc old c answer key') :
    ∃ s, (Preparation.withdraw c).Signs nfc validateUrl w s ∧ c.signer = .ok s.signer ∧
      s.job = { w.job with publicationJournalKey := some key } ∧
      s.proposed = withdrawalOf old c.disclosureVersion c.requestId c.approvedAt ∧
      s.unsigned.binding = answer := by
  obtain ⟨row, raw, r, hrow, hraw, hloads, hdecision, hold⟩ := hpublishes.frozen
  obtain ⟨signer, hsigner, hsigns⟩ := hcall.signer
  obtain ⟨publication, hpublication⟩ := Option.ne_none_iff_exists'.1 hoffered.publication
  have hproposed := (withdrawal_bare hold hcall.disclosureVersion hcall.requestId hcall.approvedAt
    hcall.fresh).flat.candidate
  have hanswer := hcall.bare.flat.candidate
  have hunsigned := unsigned_bare validateUrl hanswer.2 hcall.bare hsigns
  generalize hwd : withdrawalOf old c.disclosureVersion c.requestId c.approvedAt = wd at hproposed
  have hcandidate : withdrawalCandidate nfc (.obj (bindingOf r)) c.disclosureVersion c.requestId
      c.approvedAt = .ok ⟨bindingBytes wd, "marketplace_candidate"⟩ := by
    rw [withdrawalCandidate, closed, hold, Except.ok_bind, asObj, hwd]
    exact hproposed.1
  have hallocate : Returns (allocate (.obj wd) c.allocate) w answer
      { w with trace := w.trace ++ [.allocated (.obj wd)] } := by
    refine returns_bind.2 ⟨(), _, returns_record _, ?_⟩
    refine returns_bind.2 ⟨[("binding", .obj answer)], _, returns_lift ?_,
      returns_pure.2 ⟨rfl, rfl⟩⟩
    rw [hcall.allocate]
    rfl
  have hpackaged : packaged w.job = .ok publication := by
    rw [packaged, hpublication]
  refine ⟨⟨{ w.job with publicationJournalKey := some key }, wd,
    ⟨bindingBytes answer, "marketplace_candidate"⟩, signer,
    ⟨bareRequest answer dummySignature, answer, disclosureTag ++ bindingBytes answer⟩⟩,
    ⟨{ w with trace := w.trace ++ [.allocated (.obj wd)] }, ?_⟩, hsigner, rfl, rfl, rfl⟩
  refine returns_bind.2 ⟨w.job, w, hoffered.load hcall.owned, ?_⟩
  refine returns_bind.2 ⟨publication, w, returns_lift hpackaged, ?_⟩
  refine returns_bind.2 ⟨some key, w, returns_lift hoffered.key, ?_⟩
  dsimp only
  rw [if_neg (by rw [hoffered.state]; decide)]
  refine returns_bind.2 ⟨.inr _, _, ?_, returns_pure.2 ⟨rfl, rfl⟩⟩
  refine returns_bind.2 ⟨r, w, returns_readRequest hoffered.faults hrow hraw hloads, ?_⟩
  rw [if_neg (by rw [hdecision]; decide)]
  refine returns_bind.2 ⟨_, w, returns_lift hcandidate, ?_⟩
  refine returns_bind.2 ⟨wd, w, returns_lift hproposed.2, ?_⟩
  refine returns_bind.2 ⟨answer, _, hallocate, ?_⟩
  refine returns_bind.2 ⟨_, _, returns_lift hanswer.1, ?_⟩
  refine returns_bind.2 ⟨_, _, returns_lift (p1Of_flat hcall.bare.flat), ?_⟩
  refine returns_bind.2 ⟨signer, _, returns_lift hsigner, ?_⟩
  refine returns_bind.2 ⟨_, _, returns_lift hunsigned, ?_⟩
  exact returns_pure.2 ⟨rfl, rfl⟩

/-- A bare binding with another value of a key that no rule reads. -/
theorem BareBinding.setField (h : BareBinding nfc d) {f : Field} {y : Json} (hf : f ∈ bindingFields)
    (hmem : f.name ∈ d.map Prod.fst) (hne : f.name ≠ "aggregate_hash_profile")
    (hfree : f.name ∉ ruleKeys) (htype : f.type y = some y) (hflat : Flat y) :
    BareBinding nfc (Json.setField f.name y d) := by
  have hget : ∀ key ∈ ruleKeys, get (Json.setField f.name y d) key = get d key := by
    intro key hkey
    rw [get_setField, if_neg fun he : key = f.name => hfree (he ▸ hkey)]
  refine ⟨⟨?_, ?_, (bindingRules_congr hget).trans h.flat.rules⟩, ?_⟩
  · rw [map_fst_setField y hmem, get_setField, if_neg (Ne.symm hne)]
    exact h.flat.names
  · intro g hg hmemg
    rw [map_fst_setField y hmem] at hmemg
    by_cases hname : g.name = f.name
    · obtain rfl := field_unique hg hf hname
      exact .of_get (by rw [get_setField, if_pos rfl]) htype hflat
    · have htakes := h.flat.takes g hg hmemg
      rw [Takes, get_setField, if_neg hname]
      exact htakes
  · rw [hget _ (by decide)]
    exact h.sample

end

/-- A withdrawal of the publication whose answer names another approver. -/
def otherApprover : List (String × Json) :=
  Json.setField "approved_by" (.str (uuidText 15))
    (withdrawalOf approved (uuidText 11) (uuidText 12) "2026-01-03T00:00:00.000000Z")

def answeredCall : WithdrawCall :=
  { withdrawCall 11 12 with allocate := .ok [("binding", .obj otherApprover)] }

theorem get_otherApprover {key : String} (h : key ≠ "approved_by") : get otherApprover key =
    get (withdrawalOf approved (uuidText 11) (uuidText 12) "2026-01-03T00:00:00.000000Z") key := by
  rw [otherApprover, get_setField, if_neg h]

theorem textAt_otherApprover {key : String} (h : key ≠ "approved_by") : textAt otherApprover key =
    textAt (withdrawalOf approved (uuidText 11) (uuidText 12) "2026-01-03T00:00:00.000000Z")
      key := by
  rw [textAt, textAt, otherApprover, lookup_setField_of_ne h]

theorem answeredCall_unsent : Unsent id approved answeredCall otherApprover
    ⟨uuidText 1, uuidText 5, uuidText 12⟩ := by
  have hcall := @withdrawCall_unsent 11 12 (by norm_num) (by norm_num) (by decide)
  obtain ⟨signer, hsigner, hsigns⟩ := hcall.signer
  have hmem : "approved_by" ∈ (withdrawalOf approved (uuidText 11) (uuidText 12)
      "2026-01-03T00:00:00.000000Z").map Prod.fst := by
    rw [withdrawalOf_names approved_dump]
    decide
  have huuid : uuidField (.str (uuidText 15)) = some (.str (uuidText 15)) :=
    uuidField_uuidText (by norm_num)
  have hbare : BareBinding id otherApprover :=
    hcall.bare.setField (f := ⟨"approved_by", uuidField, none⟩) (by simp [bindingFields]) hmem
      (by decide) (by decide) huuid (settles_uuid huuid).2
  have hkey : keyOf otherApprover = .ok ⟨uuidText 1, uuidText 5, uuidText 12⟩ := by
    rw [← hcall.key, keyOf, keyOf, textAt_otherApprover (by decide),
      textAt_otherApprover (by decide), textAt_otherApprover (by decide)]
  have hsigned : PreviewBuild.Signs signer otherApprover :=
    ⟨(get_otherApprover (by decide)).trans hsigns.seller, hsigns.reference.imp
      fun _ h => ⟨h.1, (get_otherApprover (by decide)).trans h.2⟩, hsigns.sign⟩
  exact ⟨hcall.owned, hcall.disclosureVersion, hcall.requestId, hcall.approvedAt, hcall.fresh, rfl,
    hbare, ⟨signer, hsigner, hsigned⟩, hkey, hcall.response⟩

/-! ## The review of what is signed -/

section
variable {nfc : String → String} {validateUrl : String → Bool} {w : World} {s : Signing}

/-- **What the seller reviewed is signed** exactly if ai.market answered with the
    proposed values of the keys that are not compared. -/
theorem signs_reviewed_iff {a : Preparation} (h : a.Signs nfc validateUrl w s)
    (howner : s.signer.sellerId = s.job.owner) (hdicts : ∀ v ∈ s.job.descriptors, Dicts v) :
    s.Reviewed ↔ ∀ key ∈ a.unchecked, get s.unsigned.binding key = get s.proposed key := by
  cases a with
  | candidate c =>
    obtain ⟨w', h⟩ := h
    obtain ⟨listingId, out, proposed, -, -, hbinding, -, hchecked⟩ := candidateSigning_ok h
    have hreviewed : s.Reviewed ↔
        ∀ key ∈ approvalKeys, get s.unsigned.binding key = get s.proposed key :=
      reviewed_iff_of hchecked.own (proposed_own hbinding) (by decide) (by decide) (by decide)
        (candidate_pinned h howner hdicts)
    exact hreviewed
  | withdraw c =>
    obtain ⟨w', h⟩ := h
    obtain ⟨old, v, r, t, proposed, -, hbinding, hchecked⟩ := withdrawSigning_ok h
    have hreviewed : s.Reviewed ↔
        ∀ key ∈ withdrawKeys, get s.unsigned.binding key = get s.proposed key :=
      reviewed_iff_of hchecked.own (proposed_own hbinding) (by decide) (by decide) (by decide)
        (withdraw_pinned h)
    exact hreviewed

/-- The withdrawal that is allocated as it was reviewed. -/
theorem signs_reviewed_iff_approved : ∃ s,
    (Preparation.withdraw (withdrawCall 11 12)).Signs id (fun _ => true) approvedWorld s ∧
    (s.Reviewed ↔ ∀ key ∈ (Preparation.withdraw (withdrawCall 11 12)).unchecked,
      get s.unsigned.binding key = get s.proposed key) := by
  obtain ⟨s, hsigns, hsigner, hjob, -, -⟩ := signs_withdrawal (fun _ => true)
    approved_offered approved_published (@withdrawCall_unsent 11 12 (by norm_num) (by norm_num)
      (by decide))
  have hkey : installKey = s.signer := Except.ok.inj hsigner
  refine ⟨s, hsigns, signs_reviewed_iff hsigns ?_ ?_⟩
  · rw [← hkey, hjob]
    rfl
  · rw [hjob]
    intro v hv
    obtain rfl := List.mem_singleton.1 hv
    simp [Dicts, DictsList, DictsFields]

/-- **A withdrawal that names another approver than the seller reviewed is signed.** -/
theorem other_approver_signed : ∃ s,
    (Preparation.withdraw answeredCall).Signs id (fun _ => true) approvedWorld s ∧
    s.signer.sellerId = s.job.owner ∧ (∀ v ∈ s.job.descriptors, Dicts v) ∧ ¬ s.Reviewed := by
  obtain ⟨s, hsigns, hsigner, hjob, hproposed, hbinding⟩ := signs_withdrawal
    (fun _ => true) approved_offered approved_published answeredCall_unsent
  have hkey : installKey = s.signer := Except.ok.inj hsigner
  refine ⟨s, hsigns, ?_, ?_, fun hreviewed => ?_⟩
  · rw [← hkey, hjob]
    rfl
  · rw [hjob]
    intro v hv
    obtain rfl := List.mem_singleton.1 hv
    simp [Dicts, DictsList, DictsFields]
  · have happroved := hreviewed "approved_by" (by decide) (by decide)
    rw [hbinding, hproposed, otherApprover, get_setField, if_pos rfl,
      get_withdrawal_kept (by decide) (by decide) (by decide)] at happroved
    exact absurd happroved (by decide)

end

end PreviewBuild

end AimData
