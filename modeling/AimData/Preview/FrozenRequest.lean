/-
  What `construct_request` returns, and what the journal keeps of it: the bytes
  that are frozen load back to a request of the same decision.
-/
import AimData.Preview.Decode
import AimData.Preview.Journal
import AimData.Preview.SellerJob

namespace AimData

namespace PreviewBuild

open Contract Lifecycle

/-! ## Dumps of bindings and of requests -/

theorem asObj_get (d : List (String × Json)) (key : String) : asObj (get d key) = getObj d key := by
  rw [getObj]
  cases get d key <;> rfl

theorem lookup_dropLegacyProfile {key : String} (hkey : key ≠ "aggregate_hash_profile")
    (b : List (String × Json)) : (dropLegacyProfile b).lookup key = b.lookup key := by
  rw [dropLegacyProfile]
  split_ifs with h
  · have := lookup_filter_keys (fun k => decide (k ≠ "aggregate_hash_profile")) key b
    rw [this, if_pos (decide_eq_true hkey)]
  · rfl

section
variable {nfc : String → String} {validateUrl : String → Bool} {v w : Json}

theorem disclosureBinding_some (h : disclosureBinding nfc v = some w) :
    ∃ d r, v = .obj d ∧ w = .obj (dropLegacyProfile r) ∧
      closedModel bindingFields (bindingRules nfc) (.obj d) = some (.obj r) ∧
      bindingRules nfc r = true := by
  obtain ⟨w', hw', rfl⟩ := Option.map_eq_some_iff.1 h
  rw [wireModel] at hw'
  split_ifs at hw'
  obtain ⟨r, rfl, -, hrules⟩ := closedModel_keys hw'
  cases v with
  | obj d => exact ⟨d, r, rfl, rfl, hw', hrules⟩
  | _ => cases hw'

/-- A field of a dumped binding is what its type makes of the field given. -/
theorem disclosureBinding_field (h : disclosureBinding nfc v = some w) {f : Field}
    (hf : f ∈ bindingFields) (hdef : f.default = none) (hname : f.name ≠ "aggregate_hash_profile") :
    f.type (get (asObj v) f.name) = some (get (asObj w) f.name) := by
  obtain ⟨d, r, rfl, rfl, hmodel, -⟩ := disclosureBinding_some h
  obtain ⟨x, y, hx, hy, hr⟩ := closedModel_get hmodel (by decide) hf hdef
  rw [asObj, asObj, get_of_lookup hx, get_of_lookup ((lookup_dropLegacyProfile hname r).trans hr)]
  exact hy

theorem literal_eq {values : List String} (h : literalField values v = some w) :
    w = v ∧ ∃ s ∈ values, v = .str s := by
  obtain ⟨rfl, s, rfl, hs⟩ := textWhere_some h
  exact ⟨rfl, s, of_decide_eq_true hs, rfl⟩

theorem disclosureRequest_some (h : previewDisclosureRequest nfc validateUrl v = some w) :
    ∃ d r, v = .obj d ∧ w = .obj r ∧
      closedModel (requestFields nfc validateUrl) (requestRules validateUrl) (.obj d) =
        some (.obj r) ∧
      requestRules validateUrl r = true := by
  rw [previewDisclosureRequest] at h
  split_ifs at h
  rw [wireModel] at h
  split_ifs at h
  obtain ⟨r, rfl, -, hrules⟩ := closedModel_keys h
  cases v with
  | obj d => exact ⟨d, r, rfl, rfl, h, hrules⟩
  | _ => cases h

/-- A field of a dumped request is what its type makes of the field given. -/
theorem disclosureRequest_field (h : previewDisclosureRequest nfc validateUrl v = some w)
    {f : Field} (hf : f ∈ requestFields nfc validateUrl) :
    f.type (get (asObj v) f.name) = some (get (asObj w) f.name) := by
  obtain ⟨d, r, rfl, rfl, hmodel, -⟩ := disclosureRequest_some h
  have hdef : f.default = none := by
    rw [requestFields] at hf
    fin_cases hf <;> rfl
  obtain ⟨x, y, hx, hy, hr⟩ := closedModel_get hmodel (by simp [requestFields]) hf hdef
  rw [asObj, asObj, get_of_lookup hx, get_of_lookup hr]
  exact hy

theorem disclosureRequest_binding (h : previewDisclosureRequest nfc validateUrl v = some w) :
    disclosureBinding nfc (get (asObj v) "binding") = some (get (asObj w) "binding") := by
  refine disclosureRequest_field (f := ⟨"binding", disclosureBinding nfc, none⟩) h ?_
  simp [requestFields]

theorem disclosureRequest_commitment (h : previewDisclosureRequest nfc validateUrl v = some w) :
    optional (datasetCommitmentContract validateUrl) (get (asObj v) "commitment") =
      some (get (asObj w) "commitment") := by
  refine disclosureRequest_field
    (f := ⟨"commitment", optional (datasetCommitmentContract validateUrl), none⟩) h ?_
  simp [requestFields]

theorem bindingDecision_literal (h : disclosureBinding nfc v = some w) :
    get (asObj w) "decision" = get (asObj v) "decision" ∧
      ∃ s ∈ ["approve", "withdraw"], get (asObj v) "decision" = .str s := by
  have hfield := disclosureBinding_field (f := ⟨"decision", literalField ["approve", "withdraw"], none⟩)
    h (by simp [bindingFields]) rfl (by decide)
  exact literal_eq hfield

/-- The decision of a request is the one of its dump. -/
theorem decisionOf_dump (h : previewDisclosureRequest nfc validateUrl v = some w) :
    decisionOf w = decisionOf v := (bindingDecision_literal (disclosureRequest_binding h)).1

theorem decisionOf_cases (h : previewDisclosureRequest nfc validateUrl v = some w) :
    decisionOf w = .str "approve" ∨ decisionOf w = .str "withdraw" := by
  rw [decisionOf_dump h]
  obtain ⟨s, hs, hdecision⟩ := (bindingDecision_literal (disclosureRequest_binding h)).2
  rcases List.mem_pair.1 hs with rfl | rfl
  · exact Or.inl hdecision
  · exact Or.inr hdecision

/-- A withdrawal has no sample. -/
theorem bindingRules_withdraw {b : List (String × Json)} (h : bindingRules nfc b = true)
    (hwithdraw : get b "decision" = .str "withdraw") : get b "sample_decision" = .str "none" := by
  rw [bindingRules, hwithdraw] at h
  by_contra hsample
  simp [hsample] at h

theorem requestRules_none {r : List (String × Json)} (h : requestRules validateUrl r = true)
    (hnone : get (getObj r "binding") "sample_decision" = .str "none") :
    get r "commitment" = .null := by
  rw [requestRules, hnone] at h
  simp only [if_true, Bool.and_eq_true, decide_eq_true_eq] at h
  exact h.1.2.1

/-- **Only an approval carries a commitment.** -/
theorem decisionOf_approve (h : previewDisclosureRequest nfc validateUrl v = some w)
    (hcommitment : get (asObj w) "commitment" ≠ .null) : decisionOf w = .str "approve" := by
  refine (decisionOf_cases h).resolve_right fun hwithdraw => hcommitment ?_
  obtain ⟨d, r, rfl, rfl, -, hrules⟩ := disclosureRequest_some h
  obtain ⟨-, b, -, hb, -, hbinding⟩ := disclosureBinding_some (disclosureRequest_binding h)
  have hget : ∀ key ≠ "aggregate_hash_profile", get (bindingOf (.obj r)) key = get b key := by
    intro key hkey
    rw [bindingOf, hb, asObj, Contract.get, Contract.get, lookup_dropLegacyProfile hkey]
  have hnone : get b "sample_decision" = .str "none" := by
    refine bindingRules_withdraw hbinding ?_
    rw [← hget "decision" (by decide)]
    exact hwithdraw
  refine requestRules_none hrules ?_
  rw [← asObj_get]
  exact (hget "sample_decision" (by decide)).trans hnone

/-! ## Dicts -/

/-- The dump of a request is a dict if its binding is one. -/
theorem dicts_request (h : previewDisclosureRequest nfc validateUrl v = some w)
    (hbinding : Dicts (get (asObj v) "binding")) : Dicts w := by
  obtain ⟨d, r, rfl, rfl, hmodel, -⟩ := disclosureRequest_some h
  obtain ⟨r', hr, hkeys, -⟩ := closedModel_keys hmodel
  cases hr
  have hnd : (r.map Prod.fst).Nodup := by
    rw [hkeys]
    simp [requestFields]
  refine ⟨hnd, dictsFields_iff.2 fun p hp => ?_⟩
  have hname : p.1 ∈ (requestFields nfc validateUrl).map Field.name :=
    hkeys ▸ List.mem_map_of_mem hp
  obtain ⟨f, hf, hfp⟩ := List.mem_map.1 hname
  have hvalue : get r f.name = p.2 := get_of_lookup ((lookup_iff_mem hnd).2 (hfp ▸ hp))
  have hfield := disclosureRequest_field h hf
  rw [asObj, asObj, hvalue] at hfield
  simp only [requestFields, List.mem_cons, List.not_mem_nil, or_false] at hf
  rcases hf with rfl | rfl | rfl | rfl | rfl | rfl
  · exact makesDicts_literal _ hfield
  · exact makesDicts_uuid hfield
  · exact keepsDicts_binding nfc hbinding hfield
  · exact makesDicts_signature hfield
  · exact makesDicts_optional (makesDicts_commitment validateUrl) hfield
  · exact makesDicts_list (makesDicts_previewProof validateUrl) 0 100 hfield

theorem dicts_requestBinding (h : previewDisclosureRequest nfc validateUrl v = some w)
    (hbinding : Dicts (get (asObj v) "binding")) : Dicts (get (asObj w) "binding") :=
  keepsDicts_binding nfc hbinding (disclosureRequest_binding h)

theorem signingJsonBytes_ok {raw : Bytes} (h : signingJsonBytes v = .ok raw) :
    canonicalJsonBytes v = .ok raw := by
  rw [signingJsonBytes] at h
  split at h
  · rename_i b hb
    cases h
    exact hb
  · cases h

theorem loadJson_ok {raw : Bytes} (h : loadJson raw = .ok v) : loads raw = some v := by
  rw [loadJson] at h
  split at h
  · rename_i x hx
    cases h
    exact hx
  · cases h

/-- **The bytes of a request load back** to a request of the same decision. -/
theorem loads_requestBytes {request : Json} {raw : Bytes}
    (h : requestBytes nfc validateUrl request = .ok raw)
    (hbinding : Dicts (get (asObj request) "binding")) :
    ∃ r, loads raw = some r ∧ decisionOf r = decisionOf request := by
  obtain ⟨dump, hclosed, hbytes⟩ := Except.bind_eq_ok.1 h
  have hdump := closed_ok hclosed
  have hdicts : Dicts dump := dicts_request hdump hbinding
  have hcanonical := signingJsonBytes_ok hbytes
  obtain ⟨normal, hnormal, -⟩ := Except.bind_eq_ok.1 hcanonical
  refine ⟨normal, loads_canonicalJsonBytes hdicts hnormal hcanonical, ?_⟩
  have hblind : ∀ s, decide (decisionOf normal = .str s) = decide (decisionOf dump = .str s) :=
    fun s => ((blind_isStr s).get "decision").get "binding" hdicts hnormal
  have hsame : ∀ {s}, decisionOf dump = .str s → decisionOf normal = .str s := by
    intro s hs
    exact of_decide_eq_true ((hblind s).trans (decide_eq_true hs))
  rw [← decisionOf_dump hdump]
  rcases decisionOf_cases hdump with hs | hs
  · rw [hs, hsame hs]
  · rw [hs, hsame hs]

/-! ## `construct_request` -/

theorem lookup_setField_of_ne {key k : String} (hkey : k ≠ key) (x : Json) :
    ∀ l : List (String × Json), (Json.setField key x l).lookup k = l.lookup k
  | [] => by
    rw [Json.setField, List.lookup_cons, beq_eq_false_iff_ne.2 hkey]
  | (k', x') :: l => by
    rw [Json.setField]
    split_ifs with h
    · subst h
      rw [List.lookup_cons, List.lookup_cons, beq_eq_false_iff_ne.2 hkey]
    · rw [List.lookup_cons, List.lookup_cons, lookup_setField_of_ne hkey x l]

theorem get_withField_of_ne {key k : String} (hkey : k ≠ key) (x : Json) :
    get (asObj (withField key x v)) k = get (asObj v) k := by
  rw [withField, asObj, Contract.get, Contract.get, lookup_setField_of_ne hkey]

theorem candidate_binding {candidate : LocalCandidate} {b : List (String × Json)}
    (h : candidate.binding nfc = .ok b) :
    Dicts (.obj b) ∧ ∃ v, disclosureBinding nfc v = some (.obj b) := by
  unfold LocalCandidate.binding at h
  split_ifs at h with hkind
  · cases h
  · obtain ⟨value, hvalue, h⟩ := Except.bind_eq_ok.1 h
    obtain ⟨data, hdata, h⟩ := Except.bind_eq_ok.1 h
    obtain ⟨again, -, h⟩ := Except.bind_eq_ok.1 h
    split_ifs at h with hsame
    · cases h
    · cases h
      have hmodel := closed_ok hdata
      obtain ⟨-, r, -, rfl, -⟩ := disclosureBinding_some hmodel
      exact ⟨keepsDicts_binding nfc (dicts_loads (loadJson_ok hvalue)) hmodel, value, hmodel⟩

/-- What `construct_request` checks and returns. -/
theorem constructRequest_ok {candidate : LocalCandidate} {commitment request : Json}
    {proofs : List Json} {signer : Signer} {p1 : List (String × Json)}
    (h : constructRequest nfc validateUrl candidate commitment proofs signer p1 = .ok request) :
    ∃ b unsigned signature, candidate.binding nfc = .ok b ∧
      previewDisclosureRequest nfc validateUrl (unsignedRequest b commitment proofs) =
        some unsigned ∧
      signDisclosure nfc signer (.obj b) = .ok signature ∧
      previewDisclosureRequest nfc validateUrl (withField "seller_signature" signature unsigned) =
        some request := by
  obtain ⟨b, hb, h⟩ := Except.bind_eq_ok.1 h
  refine ⟨b, ?_⟩
  dsimp only at h
  split_ifs at h with hp1
  · obtain ⟨unsigned, hunsigned, h⟩ := Except.bind_eq_ok.1 h
    obtain ⟨-, -, h⟩ := Except.bind_eq_ok.1 h
    obtain ⟨signature, hsignature, h⟩ := Except.bind_eq_ok.1 h
    obtain ⟨-, -, h⟩ := Except.bind_eq_ok.1 h
    exact ⟨unsigned, signature, hb, closed_ok hunsigned, hsignature, closed_ok h⟩
  · cases h

/-- The dump of a commitment that is given is not null. -/
theorem commitment_ne_null {x y : Json}
    (h : optional (datasetCommitmentContract validateUrl) x = some y) (hx : x ≠ .null) :
    y ≠ .null := by
  have hcontract : datasetCommitmentContract validateUrl x = some y := by
    cases x with
    | null => exact absurd rfl hx
    | _ => exact h
  obtain ⟨r, rfl, -⟩ := wireModel_keys hcontract
  exact fun h => by cases h

/-- **What is signed is of a known decision**, and an approval when it carries a
    commitment; and what is frozen of it loads back to the same decision. -/
theorem constructRequest_decision {candidate : LocalCandidate} {commitment request : Json}
    {proofs : List Json} {signer : Signer} {p1 : List (String × Json)}
    (h : constructRequest nfc validateUrl candidate commitment proofs signer p1 = .ok request) :
    (decisionOf request = .str "approve" ∨ decisionOf request = .str "withdraw") ∧
      (commitment ≠ .null → decisionOf request = .str "approve") ∧
      Dicts (get (asObj request) "binding") := by
  obtain ⟨b, unsigned, signature, hb, hunsigned, -, hsigned⟩ := constructRequest_ok h
  have hbinding : get (asObj (withField "seller_signature" signature unsigned)) "binding" =
      get (asObj unsigned) "binding" := get_withField_of_ne (by decide) signature
  have hcommitment : get (asObj (withField "seller_signature" signature unsigned)) "commitment" =
      get (asObj unsigned) "commitment" := get_withField_of_ne (by decide) signature
  refine ⟨decisionOf_cases hsigned, fun hne => decisionOf_approve hsigned ?_, ?_⟩
  · have hfirst := commitment_ne_null (disclosureRequest_commitment hunsigned) hne
    refine commitment_ne_null (disclosureRequest_commitment hsigned) ?_
    rw [hcommitment]
    exact hfirst
  · refine dicts_requestBinding hsigned ?_
    rw [hbinding]
    exact dicts_requestBinding hunsigned (candidate_binding hb).1

/-! ## What the journal keeps frozen -/

/-- The request frozen under `key` loads to one of the decision `decision`. -/
def FrozenAs (j : Journal) (key : Key) (decision : String) : Prop :=
  ∃ row raw r, j.candidates key = some row ∧ row.request = some raw ∧ loads raw = some r ∧
    decisionOf r = .str decision

theorem FrozenAs.kept {j j' : Journal} {key : Key} {decision : String} (hkept : Kept j j')
    (h : FrozenAs j key decision) : FrozenAs j' key decision := by
  obtain ⟨row, raw, r, hrow, hraw, hloads, hdecision⟩ := h
  obtain ⟨row', hrow', hk⟩ := hkept key row hrow
  have hne : row.request ≠ none := by
    rw [hraw]
    exact Option.some_ne_none raw
  exact ⟨row', raw, r, hrow', (hk.request hne).1.trans hraw, hloads, hdecision⟩

theorem freezeRow_frozen {key : Key} {binding : Json} {raw : Bytes} {digest : String}
    {frozen : Bytes × String} {j j' : Journal}
    (h : freezeRow nfc key binding raw digest j = .ok (frozen, j')) :
    frozen.1 = raw ∧ ∃ row, j'.candidates key = some row ∧ row.request = some raw := by
  unfold freezeRow at h
  split at h
  · cases h
  · rename_i old hold
    obtain ⟨candidate, -, h⟩ := Except.bind_eq_ok.1 h
    split_ifs at h with hchanged
    · cases h
    · split at h
      · rename_i request hrequest
        split_ifs at h with hconflict
        · cases h
        · cases h
          have hraw : request = raw := not_not.1 fun hne => hconflict (Or.inl hne)
          exact ⟨hraw, old, hold, hraw ▸ hrequest⟩
      · obtain ⟨⟨u, j₁⟩, hmove, h⟩ := Except.bind_eq_ok.1 h
        cases h
        obtain ⟨row, state, hrow, -, -, -, rfl⟩ := transitionRow_ok hmove
        rw [candidates_put] at hrow
        cases hrow
        exact ⟨rfl, _, candidates_put _ key _, rfl⟩

/-- `freeze` leaves the bytes that it returns in the row. -/
theorem freeze_ok {fault : Option Raised} {key : Key} {request : Json} {frozen : Bytes × String}
    {j j' : Journal} (h : Lifecycle.freeze nfc validateUrl fault key request j = (.ok frozen, j')) :
    requestBytes nfc validateUrl request = .ok frozen.1 ∧
      ∃ row, j'.candidates key = some row ∧ row.request = some frozen.1 := by
  unfold Lifecycle.freeze at h
  extract_lets checked at h
  cases hchecked : checked with
  | error e =>
    rw [hchecked] at h
    cases h
  | ok r =>
    rw [hchecked] at h
    obtain ⟨raw, hraw, hr⟩ := Except.bind_eq_ok.1 hchecked
    obtain ⟨digest, -, hr⟩ := Except.bind_eq_ok.1 hr
    obtain ⟨own, -, hr⟩ := Except.bind_eq_ok.1 hr
    split_ifs at hr with hkey
    · cases hr
    · cases hr
      dsimp only at h
      rcases transaction_cases fault (freezeRow nfc key (get (asObj request) "binding") raw digest) j
        with ⟨a, j₁, hok, hrun⟩ | ⟨e, hrun⟩
      · rw [hrun] at h
        cases h
        obtain ⟨hfrozen, row, hrow, hrequest⟩ := freezeRow_frozen hok
        rw [hfrozen]
        exact ⟨hraw, row, hrow, hrequest⟩
      · rw [hrun] at h
        cases h

theorem frozenAs_freeze {fault : Option Raised} {key : Key} {request : Json} {decision : String}
    {frozen : Bytes × String} {j j' : Journal}
    (h : Lifecycle.freeze nfc validateUrl fault key request j = (.ok frozen, j'))
    (hbinding : Dicts (get (asObj request) "binding"))
    (hdecision : decisionOf request = .str decision) : FrozenAs j' key decision := by
  obtain ⟨hraw, row, hrow, hrequest⟩ := freeze_ok h
  obtain ⟨r, hloads, hr⟩ := loads_requestBytes hraw hbinding
  exact ⟨row, frozen.1, r, hrow, hrequest, hloads, hr.trans hdecision⟩

end

end PreviewBuild

end AimData
