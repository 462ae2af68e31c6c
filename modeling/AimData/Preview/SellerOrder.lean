/-
  The order of the seller's actions: what a job keeps over every run of them, and
  the runs that break it.

  A withdrawal that is frozen and not sent leaves its key in the job: `submit`
  then sends it to be approved, and the next `withdraw` asks for another one.
-/
import AimData.Preview.Withdrawal

namespace AimData

namespace PreviewBuild

open Contract Lifecycle Program

/-! ## A publication that is frozen to be approved -/

/-- A digest of one digit. -/
def digits64 (c : Char) : String := String.ofList (List.replicate 64 c)

def installReference : String :=
  "00000000-0000-0000-0000-000000000004:aaaaaaaaaaaaaaaaaaaaaaaaaaaaaaaaaaaaaaaaaaaaaaaaaaaaaaaaaaaaaaaa"

/-- The binding of a publication of one row, as its model dumps it. -/
def approved : List (String × Json) :=
  [("profile", .str "aim-preview-disclosure-v1"), ("decision", .str "approve"),
    ("summary_id", .str (uuidText 6)), ("disclosure_version", .str (uuidText 2)),
    ("seller_id", .str (uuidText 1)), ("listing_id", .str (uuidText 5)),
    ("listing_version_id", .null), ("content_revision", .str (uuidText 8)),
    ("source_revision", .str (digits64 'e')), ("summary_approval_id", .str (uuidText 7)),
    ("summary_hash", .str (digits64 'c')), ("render_hash", .str (digits64 'd')),
    ("selected_fields", .arr [.str "a"]), ("preview_type", .str "table"),
    ("content_type", .str "tabular"), ("sample_decision", .str "approved"),
    ("sample_hash", .str "e757e0761294c3437dd418d180b8a46bdae2803bfc40988754c2ce3ef87d048e"),
    ("aggregate_hash", .str (digits64 '0')), ("commitment_id", .str (uuidText 3)),
    ("schema_digest", .str "XonM9kjpxifNKyk_Oqiv9-eIP1Dq80M-hD-Fj169GLE"),
    ("seller_dataset_version", .str "v1"),
    ("schema_descriptors", .arr [.arr [.str "a", .str "string", .bool false, .obj []]]),
    ("proof_ids", .arr [.str (uuidText 10)]),
    ("sampled_leaf_list_digest", .str "rTYRmIuDIPycyCY5HWvO6yjEZvmnQqvQ3_WcJbREkxc"),
    ("scan_attestation_digest", .str "f193c1b2a63fc112553406896ca1ab5d112fe6e88260b2948739de64910005e2"),
    ("rights_basis_digest", .str (digits64 'b')), ("rights_basis_code", .str "owner"),
    ("public_preview_permission", .bool true), ("approved_by", .str (uuidText 1)),
    ("approved_at", .str "2026-01-02T00:00:00.000000Z"),
    ("last_attested_by_seller_at", .str "2026-01-02T00:00:00.000000Z"),
    ("update_cadence_days", .null), ("approval_expires_at", .null), ("supersedes", .null),
    ("request_id", .str (uuidText 9)), ("expected_current_disclosure_id", .null),
    ("signer_reference", .str installReference), ("signature_algorithm", .str "ed25519"),
    ("signature_profile", .str "aim-preview-disclosure-signature-v1")]

/-- The proof of its row. -/
def signedProof : List (String × Json) :=
  [("base_row_digest", .str "AAAAAAAAAAAAAAAAAAAAAAAAAAAAAAAAAAAAAAAAAAA"),
    ("duplicate_ordinal", .int 0), ("leaf_index", .int 0), ("package_byte_ceiling", .int 1048576),
    ("package_media_type", .str "application/vnd.aim.preview+json"),
    ("package_profile", .str "aim-preview-package-v2"),
    ("preview_package_url", .str "https://example.com/p"), ("proof_id", .str (uuidText 10)),
    ("sampled_leaf_list_digest", .str "rTYRmIuDIPycyCY5HWvO6yjEZvmnQqvQ3_WcJbREkxc"),
    ("scan_policy", .str "aim-preview-policy-v2"), ("scan_policy_version", .str "2.0.0"),
    ("scan_verdict", .str "passed"), ("scanned_at", .str "2026-01-01T00:00:00.000000Z"),
    ("siblings", .arr []), ("signature", dummySignature), ("signature_algorithm", .str "ed25519"),
    ("signer_reference", .str installReference), ("tree_size", .int 1)]

def signedCommitment : List (String × Json) :=
  [("aim_data_signer_reference", .str installReference),
    ("canonicalization_profile", .str "aim-dataset-merkle-v1"),
    ("commitment_id", .str (uuidText 3)),
    ("dataset_merkle_root", .str "u57lTMO6jCp_gbFNvq90AHW7wtrAMrytDRN49YE_5JE"),
    ("hash_algorithm", .str "sha-256"), ("leaf_count", .int 1), ("listing_id", .str (uuidText 5)),
    ("previous_commitment_id", .null), ("proofs", .arr [.obj signedProof]),
    ("schema_digest", .str "XonM9kjpxifNKyk_Oqiv9-eIP1Dq80M-hD-Fj169GLE"),
    ("seller_attestation_digest", .str "GhGwRNR6K9MltmaGoYC1QA_7G4ix5kkFUtzm2iMWf7o"),
    ("seller_dataset_version", .str "v1"), ("seller_signature", dummySignature),
    ("signature_algorithm", .str "ed25519"), ("signed_at", .str "2026-01-02T00:00:00.000000Z")]

/-- The request of its approval, in the order of the frozen bytes. -/
def approvedRequest : Json :=
  .obj [("binding", .obj (sortKeys approved)), ("commitment", .obj signedCommitment),
    ("profile", .str "aim-preview-disclosure-v1"), ("proofs", .arr [.obj signedProof]),
    ("seller_signature", dummySignature), ("summary_id", .str (uuidText 6))]

def approvedKey : Key := ⟨uuidText 1, uuidText 5, uuidText 9⟩

/-- The journal's row of it. -/
def approvedRow : Row where
  kind := "marketplace_candidate"
  state := .signedCandidate
  candidate := bindingBytes approved
  request := some (Utf8.encode approvedRequest.dumps)
  digest := some "55e12cc3e37b99f4b31bb2a8b3d35bc68c37236cb9987fab6b799d5e24f69724"

/-- Its job, before it is submitted. -/
def approvedJob : Job where
  owner := uuidText 1
  state := .signedCandidate
  sourceVersion := "v1"
  disclosureVersion := uuidText 2
  displayColumns := [.str "a"]
  descriptors := [.arr [.str "a", .str "string", .bool false, .obj []]]
  commitmentId := uuidText 3
  commitment := [("schema_digest", .str "XonM9kjpxifNKyk_Oqiv9-eIP1Dq80M-hD-Fj169GLE"),
    ("dataset_merkle_root", .str "u57lTMO6jCp_gbFNvq90AHW7wtrAMrytDRN49YE_5JE"),
    ("leaf_count", .int 1)]
  rights := some [("rights_basis_digest", .str (digits64 'b')), ("rights_basis_code", .str "owner"),
    ("public_preview_permission", .bool true)]
  scan := [("scan_policy", .str "aim-preview-policy-v2"), ("scan_policy_version", .str "2.0.0"),
    ("scan_verdict", .str "passed"), ("scanned_at", .str "2026-01-01T00:00:00.000000Z"),
    ("sampled_leaf_list_digest", .str "rTYRmIuDIPycyCY5HWvO6yjEZvmnQqvQ3_WcJbREkxc")]
  publication := some ⟨uuidText 2, "e757e0761294c3437dd418d180b8a46bdae2803bfc40988754c2ce3ef87d048e"⟩
  origin := some "https://example.com/p"
  receipts := [.null]
  proofs := some [[("base_row_digest", .str "AAAAAAAAAAAAAAAAAAAAAAAAAAAAAAAAAAAAAAAAAAA"),
    ("duplicate_ordinal", .int 0), ("leaf_index", .int 0), ("tree_size", .int 1),
    ("siblings", .arr [])]]
  proofIds := [.str (uuidText 10)]
  priorBinding := none
  candidate := some ⟨"marketplace_candidate",
    "55e12cc3e37b99f4b31bb2a8b3d35bc68c37236cb9987fab6b799d5e24f69724", digits64 'a',
    get approved "sample_hash", get approved "disclosure_version"⟩
  journalKey := some approvedKey
  publicationJournalKey := none
  policyCompatibility := none

def approvedWorld : World :=
  ⟨approvedJob, Journal.empty.put approvedKey approvedRow, .none, [], []⟩

def openLoad : LoadCall := ⟨.ok (), false⟩

/-- The keystore of the install that published it. -/
def installKey : Signer where
  sellerId := uuidText 1
  reference := .ok installReference
  sign _ := .ok (List.replicate 64 0)
  verify _ _ := .ok true

/-- ai.market does not answer. -/
def unanswered : Except Raised Unit := .error ⟨"PreviewTransportError", "marketplace_unavailable"⟩

def submitCall : SubmitCall :=
  ⟨openLoad, .ok "v1", .ok (), unanswered, .ok (), .ok (), openLoad⟩

/-- What `withdraw` asks for is allocated as it is, and the send of it fails. -/
def withdrawCall (disclosureVersion requestId : ℕ) : WithdrawCall where
  load := openLoad
  disclosureVersion := uuidText disclosureVersion
  requestId := uuidText requestId
  approvedAt := "2026-01-03T00:00:00.000000Z"
  allocate := .ok [("binding", .obj (withdrawalOf approved (uuidText disclosureVersion)
    (uuidText requestId) "2026-01-03T00:00:00.000000Z"))]
  signer := .ok installKey
  response := unanswered
  urlPath := .ok "p"
  storePath := .ok "p"
  storeRetire := .ok ()
  receiptReader := .error ⟨"OriginError", "http_status"⟩
  again := openLoad

theorem uuidField_uuidText {n : ℕ} (h : n < 16 ^ 32) :
    uuidField (.str (uuidText n)) = some (.str (uuidText n)) := by
  rw [uuidField, text, uuid_uuidText h]
  rfl

theorem timestampField_approved :
    timestampField (.str "2026-01-02T00:00:00.000000Z") = some (.str "2026-01-02T00:00:00.000000Z") :=
  rfl

theorem hexDigestField_digits64 {c : Char} (h : c ∈ ['0', 'b', 'c', 'd', 'e']) :
    hexDigestField (.str (digits64 c)) = some (.str (digits64 c)) := by
  simp only [List.mem_cons, List.not_mem_nil, or_false] at h
  rcases h with rfl | rfl | rfl | rfl | rfl <;> rfl

theorem types_approved : ∀ f ∈ bindingFields, f.name ∈ approved.map Prod.fst →
    f.type (get approved f.name) = some (get approved f.name) := by
  have huuid : ∀ {n : ℕ}, n < 16 ^ 32 → uuidField (.str (uuidText n)) = some (.str (uuidText n)) :=
    uuidField_uuidText
  have hproof : listField uuidField 0 100 (.arr [.str (uuidText 10)]) =
      some (.arr [.str (uuidText 10)]) := by
    rw [listField, if_pos (by decide), List.mapM_cons, huuid (by norm_num)]
    rfl
  have hnil : ∀ f ∈ ([] : List Field), f.name ∈ approved.map Prod.fst →
      f.type (get approved f.name) = some (get approved f.name) := fun f hf => by cases hf
  simp only [bindingFields, List.forall_mem_cons]
  exact ⟨fun _ => rfl, fun _ => rfl, fun _ => huuid (by norm_num),
    fun _ => huuid (by norm_num), fun _ => huuid (by norm_num), fun _ => huuid (by norm_num),
    fun _ => rfl, fun _ => huuid (by norm_num), fun _ => hexDigestField_digits64 (by decide),
    fun _ => huuid (by norm_num), fun _ => hexDigestField_digits64 (by decide),
    fun _ => hexDigestField_digits64 (by decide), fun _ => rfl,
    fun _ => rfl, fun _ => rfl, fun _ => rfl,
    fun _ => rfl, fun _ => hexDigestField_digits64 (by decide),
    fun h => absurd h (by decide +kernel), fun _ => optional_of (huuid (by norm_num)),
    fun _ => rfl, fun _ => rfl, fun _ => rfl,
    fun _ => hproof, fun _ => rfl, fun _ => rfl,
    fun _ => optional_of (hexDigestField_digits64 (by decide)), fun _ => rfl,
    fun _ => rfl, fun _ => huuid (by norm_num), fun _ => timestampField_approved,
    fun _ => timestampField_approved, fun _ => rfl, fun _ => rfl, fun _ => rfl,
    fun _ => huuid (by norm_num), fun _ => rfl, fun _ => by decide +kernel,
    fun _ => rfl, fun _ => rfl, hnil⟩

theorem approved_own : OwnDump id approved :=
  ⟨Or.inr rfl, types_approved, by decide +kernel⟩

/-- The binding of the frozen bytes is dumped as the model dumps it. -/
theorem approved_dump : disclosureBinding id (.obj (sortKeys approved)) = some (.obj approved) := by
  have hsub : ∀ p ∈ sortKeys approved, p ∈ approved := (sortKeys_perm approved).subset
  have hsafe : ∀ p ∈ approved, safeMetadata p.2 = true := by decide
  have hmetadata : ∀ p ∈ approved, metadataOnly p.2 1 = true := by
    intro p hp
    have hmem : p.1 ∈ approved.map Prod.fst := List.mem_map_of_mem hp
    obtain ⟨f, hf, hname⟩ := List.mem_map.1 (approved_own.named hmem)
    have hget := get_of_mem approved_own.nodup hp
    by_cases hlist : p.1 ∈ listNames
    · have hlists : ∀ key ∈ listNames, metadataOnly (get approved key) 1 = true := by decide
      exact hget ▸ hlists p.1 hlist
    · have htype := types_approved f hf (hname ▸ hmem)
      have hflat := (settles_binding f hf (hname ▸ hlist) htype).2
      rw [hname, hget] at hflat
      exact hflat.metadataOnly (by decide)
  refine approved_own.dump (sortKeys_perm approved)
    (safeMetadataFields_iff.2 fun p hp => hsafe p (hsub p hp)) ?_
  rw [metadataOnly, Bool.and_eq_true]
  exact ⟨by decide, metadataOnlyFields_iff.2 fun p hp =>
    ⟨contentKey_bindingNames _ (approved_own.named (List.mem_map_of_mem (hsub p hp))),
      hmetadata p (hsub p hp)⟩⟩

theorem proper_approved : (Json.obj (sortKeys approved)).Proper := by
  have hproper : ∀ p ∈ approved, p.2.Proper := by
    have hnil : ∀ p ∈ ([] : List (String × Json)), p.2.Proper := fun p hp => by cases hp
    simp only [approved, List.forall_mem_cons, Json.Proper, Json.ProperList, Json.ProperFields,
      List.map_nil, List.nodup_nil, and_self, true_and]
    exact hnil
  refine ⟨((sortKeys_perm approved).map Prod.fst).nodup_iff.2 approved_own.nodup, ?_⟩
  exact properFields_of_forall fun p hp => hproper p ((sortKeys_perm approved).subset hp)

theorem proper_approvedRequest : approvedRequest.Proper := by
  have hproof : (Json.obj signedProof).Proper := by
    refine ⟨by simp [signedProof], ?_⟩
    simp only [signedProof, Json.ProperFields, Json.Proper, Json.ProperList, dummySignature, and_self]
  have hcommitment : (Json.obj signedCommitment).Proper := by
    refine ⟨by simp [signedCommitment], ?_⟩
    simp only [signedCommitment, Json.ProperFields, Json.Proper, Json.ProperList, dummySignature,
      and_self, true_and, and_true]
    exact hproof
  refine ⟨by simp, proper_approved, hcommitment, trivial, ⟨hproof, trivial⟩, ?_⟩
  simp only [Json.ProperFields, Json.Proper, dummySignature, and_self]

theorem approvedWorld_row : approvedWorld.journal.candidates approvedKey = some approvedRow :=
  (puts_put []).row

theorem loads_approvedRequest :
    loads (Utf8.encode approvedRequest.dumps) = some approvedRequest :=
  loads_dumps proper_approvedRequest

theorem decision_approvedRequest : decisionOf approvedRequest = .str "approve" :=
  (get_perm approved_own.nodup (sortKeys_perm approved) "decision").trans rfl

theorem approved_published : Publishes id approvedWorld approvedKey approved :=
  ⟨⟨approvedRow, _, approvedRequest, approvedWorld_row, rfl, loads_approvedRequest,
    decision_approvedRequest, approved_dump⟩⟩

theorem approved_offered : Offered approvedWorld approvedKey :=
  ⟨rfl, rfl, by decide, rfl, Option.some_ne_none _, Option.some_ne_none _, rfl⟩

theorem approved_fresh : Fresh approvedWorld :=
  ⟨fun _ => ⟨approvedKey, rfl, approvedRow, _, approvedRequest, approvedWorld_row, rfl,
    loads_approvedRequest, decision_approvedRequest⟩, rfl, by decide, rfl⟩

theorem textAt_of_get {b : List (String × Json)} {key s : String} (h : get b key = .str s) :
    textAt b key = .ok s := by
  rw [textAt]
  cases hl : b.lookup key with
  | none =>
    rw [Contract.get, hl] at h
    cases h
  | some y =>
    rw [get_of_lookup hl] at h
    rw [h]

/-- A withdrawal of the publication that is allocated as it was asked for. -/
theorem withdrawCall_unsent {v r : ℕ} (hv : v < 16 ^ 32) (hr : r < 16 ^ 32)
    (hne : uuidText v ≠ uuidText 2) :
    Unsent id approved (withdrawCall v r) (withdrawalOf approved (uuidText v) (uuidText r)
      "2026-01-03T00:00:00.000000Z") ⟨uuidText 1, uuidText 5, uuidText r⟩ := by
  have htime : timestampField (.str "2026-01-03T00:00:00.000000Z") =
      some (.str "2026-01-03T00:00:00.000000Z") := rfl
  have hversion : get approved "disclosure_version" ≠ .str (uuidText v) :=
    fun h => hne (Json.str.inj h).symm
  have hkept : ∀ key ∈ ["seller_id", "listing_id", "signer_reference"],
      get (withdrawalOf approved (uuidText v) (uuidText r) "2026-01-03T00:00:00.000000Z") key =
        get approved key := by
    intro key hkey
    have hnames : ∀ key ∈ ["seller_id", "listing_id", "signer_reference"],
        key ≠ "aggregate_hash_profile" ∧
          key ∉ ["decision", "sample_decision", "disclosure_version", "request_id", "approved_at",
            "supersedes", "expected_current_disclosure_id"] ∧
          key ∉ withdrawalNulls.map Prod.fst := by decide
    exact get_withdrawal_kept (hnames key hkey).1 (hnames key hkey).2.1 (hnames key hkey).2.2
  simp only [List.forall_mem_cons] at hkept
  obtain ⟨hseller, hlisting, hsigner, -⟩ := hkept
  have hrequest : get (withdrawalOf approved (uuidText v) (uuidText r)
      "2026-01-03T00:00:00.000000Z") "request_id" = .str (uuidText r) :=
    get_withdrawal_set (by simp [withdrawalSets]) (by decide)
  exact
    { owned := rfl
      disclosureVersion := uuidField_uuidText hv
      requestId := uuidField_uuidText hr
      approvedAt := htime
      fresh := hversion
      allocate := rfl
      bare := withdrawal_bare approved_dump (uuidField_uuidText hv) (uuidField_uuidText hr) htime hversion
      signer := ⟨installKey, rfl, hseller, ⟨installReference, rfl, hsigner⟩,
        fun _ => ⟨_, rfl, List.length_replicate⟩⟩
      key := by rw [keyOf, textAt_of_get hseller, textAt_of_get hlisting, textAt_of_get hrequest]; rfl
      response := ⟨_, rfl⟩ }

theorem approvedWorld_none {key : Key} (h : key ≠ approvedKey) :
    approvedWorld.journal.candidates key = none :=
  (puts_put []).others key h

theorem approved_settled : ∀ key, approvedWorld.job.journalKey = some key →
    ¬ FrozenAs approvedWorld.journal key "withdraw" := by
  intro key hkey hfrozen
  cases hkey
  obtain ⟨row, raw, r, hrow, hraw, hloads, hdecision⟩ := hfrozen
  rw [approvedWorld_row] at hrow
  cases hrow
  cases hraw
  rw [loads_approvedRequest] at hloads
  cases hloads
  rw [decision_approvedRequest] at hdecision
  exact absurd hdecision (by decide)

/-! ## Runs over a withdrawal that is not sent -/

section
variable {nfc : String → String} {validateUrl : String → Bool} {w : World} {key key' key'' : Key}
  {old answer answer' : List (String × Json)} {c c' : WithdrawCall}

theorem faultless_eq (h : w.faults = []) : { w with faults := [] } = w := by
  cases w
  cases h
  rfl

/-- What a run of the seller's actions leaves. -/
def Performs (nfc : String → String) (validateUrl : String → Bool) (w : World)
    (as : List SellerAction) (w' : World) : Prop :=
  Run (fun w a w' => w' = a.perform nfc validateUrl w) w as w'

variable (validateUrl) in
theorem performs_withdraw (hoffered : Offered w key) (hpublishes : Publishes nfc w key old)
    (hcall : Unsent nfc old c answer key') (hnew : w.journal.candidates key' = none) :
    ∃ w', LeftUnsent nfc validateUrl w key old answer c key' w' ∧
      w' = SellerAction.perform nfc validateUrl w (.withdraw [] c) := by
  refine ⟨_, withdraw_unsent hoffered hpublishes hcall hnew, ?_⟩
  rw [SellerAction.perform, faultless_eq hoffered.faults]

/-- `submit` after a withdrawal that is not sent sends it to be approved. -/
theorem submit_after_unsent {cs : SubmitCall} {e : Raised} (hoffered : Offered w key)
    (hpublishes : Publishes nfc w key old) (hcall : Unsent nfc old c answer key')
    (hnew : w.journal.candidates key' = none) (hload : cs.load.owned = .ok ())
    (howned : cs.owned = .ok ()) (hversion : cs.version = .ok w.job.sourceVersion)
    (hresponse : cs.response = .error e) (hdecision : get answer "decision" = .str "withdraw") :
    ∃ w' r, Performs nfc validateUrl w [.withdraw [] c, .submit [] cs] w' ∧
      .sent .approve r ∈ w'.trace ∧ decisionOf r = .str "withdraw" := by
  obtain ⟨w₁, hleft, hw₁⟩ := performs_withdraw validateUrl hoffered hpublishes hcall hnew
  obtain ⟨signature, raw, row, hrow, hraw, hrequest, -⟩ := hleft.frozen
  have hflat := hcall.bare.flat
  obtain ⟨r, hloads, hr⟩ := loads_requestBytes hrequest (dicts_flat hflat.nodup hflat.flat)
  have hsends := submit_sends hleft.offered hleft.journalKey hrow hraw hloads hload howned
    (hleft.sourceVersion ▸ hversion) hresponse
  refine ⟨_, r, .cons hw₁ (.cons rfl .nil), ?_, hr.trans hdecision⟩
  rw [SellerAction.perform, faultless_eq hleft.offered.faults, hsends]
  exact List.mem_append_right _ List.mem_cons_self

theorem LeftUnsent.withdrawals {w' : World}
    (h : LeftUnsent nfc validateUrl w key old answer c key' w') :
    (withdrawals w'.trace).length = (withdrawals w.trace).length + 1 := by
  obtain ⟨signature, raw, row, -, -, -, htrace⟩ := h.frozen
  rw [htrace, PreviewBuild.withdrawals, List.filterMap_append, List.length_append]
  rfl

/-- `withdraw` after a withdrawal that is not sent freezes another one. -/
theorem withdraw_after_unsent (hoffered : Offered w key) (hpublishes : Publishes nfc w key old)
    (hcall : Unsent nfc old c answer key') (hnew : w.journal.candidates key' = none)
    (hcall' : Unsent nfc old c' answer' key'') (hnew' : w.journal.candidates key'' = none)
    (hne : key'' ≠ key') :
    ∃ w', Performs nfc validateUrl w [.withdraw [] c, .withdraw [] c'] w' ∧
      (withdrawals w'.trace).length = (withdrawals w.trace).length + 2 := by
  obtain ⟨w₁, hleft, hw₁⟩ := performs_withdraw validateUrl hoffered hpublishes hcall hnew
  obtain ⟨w₂, hleft', hw₂⟩ := performs_withdraw validateUrl hleft.offered
    (hleft.publishes hpublishes hnew) hcall' ((hleft.others key'' hne).trans hnew')
  refine ⟨w₂, .cons hw₁ (.cons hw₂ .nil), ?_⟩
  rw [hleft'.withdrawals, hleft.withdrawals]

end

/-! ## The seller's actions in any order -/

section
variable {nfc : String → String} {validateUrl : String → Bool}

/-- **`submit` sends approvals only, and a withdrawal goes to the withdraw action
    only**, in every run in which no job is submitted between the freeze of its
    withdrawal and the record of it. -/
theorem submit_sends_approvals {as : List SellerAction} {w w' : World}
    (hrun : Run (fun w a w' => w' = a.perform nfc validateUrl w ∧ SubmitsSettled w a) w as w')
    (hw : Fresh w) {action : Action} {r : Json} (hsent : .sent action r ∈ w'.trace) :
    (action = .approve → decisionOf r = .str "approve") ∧
      (decisionOf r = .str "withdraw" → action = .withdraw) := by
  have hinv : Inv nfc validateUrl True False w' := by
    refine @Run.invariant _ _ _ _ _ _ (Inv nfc validateUrl True False) ?_ hrun hw.inv
    rintro t a t' ht ⟨rfl, hsettled⟩
    exact inv_perform ht a (fun _ => hsettled) fun h => h.elim
  have happrove : action = .approve → decisionOf r = .str "approve" := by
    rintro rfl
    exact hinv.1.approved trivial r hsent
  refine ⟨happrove, fun hwithdraw => ?_⟩
  cases action with
  | withdraw => rfl
  | approve =>
    rw [happrove rfl] at hwithdraw
    exact absurd hwithdraw (by decide)

/-- The publication is submitted. -/
theorem submit_sends_approvals_approved :
    (Action.approve = .approve → decisionOf approvedRequest = .str "approve") ∧
      (decisionOf approvedRequest = .str "withdraw" → Action.approve = .withdraw) := by
  refine @submit_sends_approvals id (fun _ => true) [.submit [] submitCall] approvedWorld _
    (.cons ⟨rfl, ?_⟩ .nil) approved_fresh .approve approvedRequest ?_
  · rintro _ _ -
    exact Or.inr approved_settled
  · rw [SellerAction.perform, faultless_eq rfl, submit_sends approved_offered rfl approvedWorld_row
      rfl loads_approvedRequest rfl rfl rfl rfl]
    exact List.mem_append_right _ List.mem_cons_self

/-- **A withdrawal that was not sent is submitted**: it is sent to be approved. -/
theorem submit_sends_withdrawal : Fresh approvedWorld ∧ ∃ w' r,
    Performs id (fun _ => true) approvedWorld
      [.withdraw [] (withdrawCall 11 12), .submit [] submitCall] w' ∧
    .sent .approve r ∈ w'.trace ∧ decisionOf r = .str "withdraw" := by
  refine ⟨approved_fresh, submit_after_unsent approved_offered approved_published
    (withdrawCall_unsent (by norm_num) (by norm_num) (by decide))
    (approvedWorld_none (by decide)) rfl rfl rfl rfl ?_⟩
  exact get_withdrawal_set (by simp [withdrawalSets]) (by decide)

/-- **One withdrawal is frozen, and it is the one that is sent**, in every run in
    which no job is withdrawn between the freeze of its withdrawal and the record
    of it. -/
theorem withdraw_once {as : List SellerAction} {w w' : World}
    (hrun : Run (fun w a w' => w' = a.perform nfc validateUrl w ∧ WithdrawsUnasked w a) w as w')
    (hw : Fresh w) : (withdrawals w'.trace).length ≤ 1 ∧
      ∀ r, .sent .withdraw r ∈ w'.trace → FrozenIn nfc validateUrl r w' := by
  have hinv : Inv nfc validateUrl False True w' := by
    refine @Run.invariant _ _ _ _ _ _ (Inv nfc validateUrl False True) ?_ hrun hw.inv
    rintro t a t' ht ⟨rfl, hunasked⟩
    exact inv_perform ht a (fun h => h.elim) fun _ => hunasked
  exact ⟨hinv.1.once trivial, hinv.1.resent trivial⟩

/-- The publication is withdrawn. -/
theorem withdraw_once_approved :
    ∃ w', Performs id (fun _ => true) approvedWorld [.withdraw [] (withdrawCall 11 12)] w' ∧
      (withdrawals w'.trace).length ≤ 1 ∧
      ∀ r, .sent .withdraw r ∈ w'.trace → FrozenIn id (fun _ => true) r w' :=
  ⟨_, .cons rfl .nil, withdraw_once (.cons ⟨rfl, fun _ _ _ => Or.inl rfl⟩ .nil) approved_fresh⟩

/-- **A withdrawal that was not sent is asked for again**: two are frozen. -/
theorem withdraw_twice : Fresh approvedWorld ∧ ∃ w',
    Performs id (fun _ => true) approvedWorld
      [.withdraw [] (withdrawCall 11 12), .withdraw [] (withdrawCall 13 14)] w' ∧
    (withdrawals w'.trace).length = 2 := by
  refine ⟨approved_fresh, withdraw_after_unsent approved_offered approved_published
    (withdrawCall_unsent (by norm_num) (by norm_num) (by decide))
    (approvedWorld_none (by decide))
    (withdrawCall_unsent (by norm_num) (by norm_num) (by decide))
    (approvedWorld_none (by decide)) (by decide)⟩

end

end PreviewBuild

end AimData
