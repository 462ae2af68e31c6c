/-
  The entry of a committed leaf: what `_entry` reads of it from the files of a
  disk tree, and what the checks of `validate_envelope` say to it.
-/
import AimData.Preview.ReadBack

namespace AimData

open Contract
open Merkle (Side)

/-! ## The proof of a leaf -/

/-- A step of an inclusion path as JSON. -/
def stepJson (s : Side × Digest) : Json :=
  .obj [("hash", .str (encodeBase64url s.2.1)), ("direction", .str (direction s.1))]

/-- The proof of leaf `i`, of the record `p`, in the tree over `ls`. -/
def leafProof (ls : List Digest) (p : Record × ℕ) (i : ℕ) : DiskProof where
  baseRowDigest := encodeBase64url p.1.base.1
  duplicateOrdinal := p.2
  leafIndex := i
  treeSize := ls.length
  siblings := (stepSiblings (Merkle.path nodeHash ls i)).map Sibling.text

theorem siblingJson_text (s : Side × Digest) :
    siblingJson (Sibling.text (Sibling.mk' s.1 s.2)) = stepJson s := rfl

theorem siblingOf_stepJson (s : Side × Digest) :
    siblingOf (stepJson s) = Sibling.text (Sibling.mk' s.1 s.2) := rfl

theorem leafProof_siblings (ls : List Digest) (p : Record × ℕ) (i : ℕ) :
    (leafProof ls p i).siblings.map siblingJson = (Merkle.path nodeHash ls i).map stepJson := by
  simp [leafProof, stepSiblings, siblingJson_text]

/-- The verifier's loop reads the text of a digest as the digest. -/
theorem walkSiblings_text (p : List (Side × Digest)) : ∀ (sides : List Side) (a : Digest),
    walkSiblings a (((stepSiblings p).map Sibling.text).zip sides) =
      walkSiblings a ((stepSiblings p).zip sides) := by
  induction p with
  | nil => exact fun _ _ => rfl
  | cons s p ih =>
    intro sides a
    cases sides with
    | nil => rfl
    | cons d sides =>
      have hdecode : decodeDigest (Sibling.text (Sibling.mk' s.1 s.2)).hash = .ok s.2 :=
        decodeDigest_encode s.2
      have hdigest : decodeDigest (Sibling.mk' s.1 s.2).hash = .ok s.2 := decodeDigest_ofDigest s.2
      simp only [stepSiblings, List.map_cons, List.zip_cons_cons] at ih ⊢
      rw [walkSiblings, walkSiblings, hdecode, hdigest]
      simp only [Except.ok_bind, ih]
      rfl

theorem verifyInclusionProof_text (leafHash root : HashValue) (i n : ℤ)
    (p : List (Side × Digest)) :
    verifyInclusionProof leafHash i n ((stepSiblings p).map Sibling.text) root =
      verifyInclusionProof leafHash i n (stepSiblings p) root := by
  rw [verifyInclusionProof, verifyInclusionProof, verifyInclusionBody, verifyInclusionBody]
  simp only [List.length_map, walkSiblings_text]

/-- The steps of an inclusion path stand on the sides of its schedule. -/
theorem path_sides {ls : List Digest} (hne : ls ≠ []) (i : ℕ) :
    (Merkle.path nodeHash ls i).map Prod.fst = Merkle.sides i ls.length := by
  rw [Merkle.path, List.map_fst_zip]
  rw [Merkle.length_sibs nodeHash _ hne]

theorem length_path {ls : List Digest} (hne : ls ≠ []) (i : ℕ) :
    (Merkle.path nodeHash ls i).length = (Merkle.sides i ls.length).length := by
  rw [← path_sides hne, List.length_map]

/-- **The proof of a leaf is verified** against the root. -/
theorem verifyInclusionProof_leaf {ls : List Digest} {p : Record × ℕ} (hmax : ls.length ≤ maxTreeSize) {i : ℕ}
    (hi : i < ls.length) :
    verifyInclusionProof (.ofDigest ls[i]) i ls.length (leafProof ls p i).siblings
      (.ofDigest (Merkle.mth nodeHash ls)) = true := by
  have hne : ls ≠ [] := List.length_pos_iff.1 (by omega)
  rw [leafProof, verifyInclusionProof_text]
  exact verifyInclusionProof_steps (decodeDigest_ofDigest _) hi hmax (path_sides hne i)
    (Merkle.climb_path nodeHash _ hne hi)

/-! ## Reading a leaf -/

/-- The row of a leaf and the record read back from it. -/
structure ReadsLeaf (nfc : String → String) (schema : CanonicalSchema) (p : Record) (row : Json) :
    Prop where
  loads : ∃ triples, jsonLoads p.row = .ok triples ∧
    logicalRecord triples schema.descriptors = .ok row
  again : schema.canonicalRow nfc false none (PyValue.ofJson row) = .ok p.row
  base : computeBaseRowDigest (.ofDigest schema.digest) p.row = .ok p.base

/-- A canonical row is not longer than the limit of a record. -/
theorem canonicalRow_length {nfc : String → String} {text : Bool} {offset : Option String}
    {schema : CanonicalSchema} {v : PyValue} {b : Bytes}
    (h : schema.canonicalRow nfc text offset v = .ok b) : b.length ≤ maxRecordBytes := by
  obtain ⟨n, -, h⟩ := Except.bind_eq_ok.1 h
  obtain ⟨⟨js, c⟩, -, h⟩ := Except.bind_eq_ok.1 h
  obtain ⟨encoded, -, h⟩ := Except.bind_eq_ok.1 h
  split_ifs at h with hlimit
  · cases h
  · cases h
    exact not_lt.1 hlimit

/-- A record is read at its offset. -/
theorem readAt_encodeRecords {ps : List Record} {i : ℕ} (hi : i < ps.length) :
    Bytes.readAt (encodeRecords ps) (encodeRecords (ps.take i)).length 36 =
        ps[i].base.1 ++ Bytes.ofNat ps[i].row.length 4 ∧
      Bytes.readAt (encodeRecords ps) ((encodeRecords (ps.take i)).length + 36)
        ps[i].row.length = ps[i].row := by
  obtain ⟨rest, hrest⟩ : ∃ rest, encodeRecords ps =
      encodeRecords (ps.take i) ++ (encodeRecord ps[i] ++ rest) := by
    refine ⟨encodeRecords (ps.drop (i + 1)), ?_⟩
    conv_lhs => rw [← List.take_append_drop i ps, List.drop_eq_getElem_cons hi]
    rw [encodeRecords, List.flatMap_append, List.flatMap_cons]
    rfl
  have hb := ps[i].base.2
  have hlen : (ps[i].base.1 ++ Bytes.ofNat ps[i].row.length 4).length = 36 := by simp [hb]
  rw [hrest, encodeRecord]
  constructor
  · rw [Bytes.readAt, List.drop_left, List.append_assoc, List.take_append_of_le_length hlen.ge,
      List.take_of_length_le hlen.le]
  · rw [Bytes.readAt, ← List.drop_drop, List.drop_left, List.append_assoc,
      List.drop_append_of_le_length hlen.ge, List.drop_of_length_le hlen.le, List.nil_append,
      List.take_left]

theorem indexEntry_offset (offset : ℕ) (p : Record × ℕ) :
    (indexEntry offset p).take 8 = Bytes.ofNat offset 8 := by
  have h : indexEntry offset p = Bytes.ofNat offset 8 ++ (Bytes.ofNat p.1.row.length 4 ++
      (Bytes.ofNat p.2 8 ++ (p.1.base.1 ++ List.replicate 4 0))) := by simp [indexEntry]
  rw [h, List.take_append_of_le_length (by simp), List.take_of_length_le (by simp)]

theorem indexEntry_length (offset : ℕ) (p : Record × ℕ) :
    ((indexEntry offset p).drop 8).take 4 = Bytes.ofNat p.1.row.length 4 := by
  have h : indexEntry offset p = Bytes.ofNat offset 8 ++ (Bytes.ofNat p.1.row.length 4 ++
      (Bytes.ofNat p.2 8 ++ (p.1.base.1 ++ List.replicate 4 0))) := by simp [indexEntry]
  rw [h, List.drop_append_of_le_length (by simp), List.drop_of_length_le (by simp),
    List.nil_append, List.take_append_of_le_length (by simp), List.take_of_length_le (by simp)]

namespace CommitmentPreviewBuilder

variable {nfc : String → String} {builder : CommitmentPreviewBuilder}

/-- Where the record of leaf `i` begins. -/
def leafOffset (ps : List (Record × ℕ)) (i : ℕ) : ℕ :=
  (encodeRecords ((ps.take i).map Prod.fst)).length

/-- **An entry is read back from the files**, unless its offset is out of the
    range of `seek`. -/
theorem entryBody_leaf {ps : List (Record × ℕ)} {ls : List Digest} {row : Json} {i : ℕ}
    (h : builder.tree.Represents builder.files ps ls) (hmax : ls.length ≤ maxTreeSize)
    (hi : i < ps.length) (hleaf : ReadsLeaf nfc builder.schema ps[i].1 row) :
    builder.entryBody nfc i = seekable (leafOffset ps i) >>= fun _ =>
      .ok (entryFields row (leafProof ls ps[i] i)) := by
  obtain ⟨proof, hproof, htree⟩ := h.proof hmax hi
  have hlen := List.mapM_ok_length h.leaves
  rw [buildInclusionProof_eq (mapM_decodeDigest_ofDigest ls) (by simpa using hmax)
    (by simpa using (by omega : i < ls.length))] at hproof
  obtain rfl := Except.ok.inj hproof
  have hslot := slot_indexFile 0 hi
  rw [Bytes.slot, Nat.zero_add] at hslot
  have hmaxrow : ps[i].1.row.length ≤ 8 * 1024 ^ 2 := canonicalRow_length hleaf.again
  have hi' : i < (ps.map Prod.fst).length := by simpa using hi
  have hreadable := readAt_encodeRecords hi'
  rw [← List.map_take, List.getElem_map] at hreadable
  obtain ⟨hheader, hrow⟩ := hreadable
  obtain ⟨triples, htriples, hrecord⟩ := hleaf.loads
  rw [entryBody, htree, faultErrors, Except.ok_bind, openTreeFile, h.index, Except.ok_bind,
    Int.toNat_natCast]
  simp only
  rw [hslot, if_neg (by simp), indexEntry_offset, indexEntry_length, indexEntry_base,
    Bytes.toNat_ofNat_of_lt (h.offsets i hi), Bytes.toNat_ofNat_of_lt (by omega),
    if_neg (by omega), openTreeFile, h.rows, Except.ok_bind]
  refine bind_congr fun _ => ?_
  rw [hheader, hrow, if_neg (by simp), hleaf.base, commitmentErrors, Except.ok_bind,
    if_neg (not_not.2 rfl), htriples, Except.ok_bind, hrecord, Except.ok_bind, hleaf.again,
    commitmentErrors, Except.ok_bind, if_neg (not_not.2 rfl)]
  rfl

end CommitmentPreviewBuilder

/-! ## The checks of an entry -/

/-- A field of a model that is dumped as it stands. -/
def DumpsAsIs (f : Field) (p : String × Json) : Prop := f.name = p.1 ∧ f.type p.2 = some p.2

theorem mapM_dump_own {d : List (String × Json)} {fields : List Field} {l : List (String × Json)}
    (h : List.Forall₂ DumpsAsIs fields l) (hl : ∀ p ∈ l, d.lookup p.1 = some p.2) :
    fields.mapM (·.dump d) = some l := by
  induction h with
  | nil => rfl
  | cons hp _ ih =>
    obtain ⟨hname, htype⟩ := hp
    rw [List.mapM_cons, Field.dump, hname, hl _ List.mem_cons_self,
      ih fun q hq => hl q (List.mem_cons_of_mem _ hq)]
    simp only [htype, Option.map_some]
    rfl

/-- **A dict of such fields is its own dump.** -/
theorem closedModel_own {fields : List Field} {rules : List (String × Json) → Bool}
    {d : List (String × Json)} (hnd : (d.map Prod.fst).Nodup) (h : List.Forall₂ DumpsAsIs fields d)
    (hrules : rules d = true) : closedModel fields rules (.obj d) = some (.obj d) := by
  have hall : (d.all fun p => p.1 ∈ fields.map Field.name) = true := by
    rw [List.all_eq_true]
    intro p hp
    obtain ⟨f, hf, hname, -⟩ := forall₂_mem_right h hp
    exact decide_eq_true (hname ▸ List.mem_map_of_mem hf)
  rw [closedModel, if_pos hall, mapM_dump_own h fun p hp => (lookup_iff_mem hnd).2 hp]
  simp [hrules]

/-- A selected leaf: its index, the identity of its proof, its record with the
    ordinal, and the record read back from its row. -/
structure Chosen where
  index : ℕ
  proofId : String
  leaf : Record × ℕ
  row : Json

namespace Chosen

/-- The entry of a selected leaf, in the tree over `ls`. -/
def entry (ls : List Digest) (c : Chosen) : List (String × Json) :=
  ("proof_id", .str c.proofId) :: entryFields c.row (leafProof ls c.leaf c.index)

/-- The leaf is the one at its index in the tree over `ls`. -/
structure Committed (nfc : String → String) (schema : CanonicalSchema) (ls : List Digest)
    (c : Chosen) : Prop where
  identity : canonicalUuid c.proofId = true
  reads : ReadsLeaf nfc schema c.leaf.1 c.row
  leaf : ∃ d, pairLeaf c.leaf = .ok d ∧ ls[c.index]? = some d
  ordinal : c.leaf.2 ≤ c.index

section
variable {nfc : String → String} {schema : CanonicalSchema} {ls : List Digest} {c : Chosen}

theorem Committed.lt (h : c.Committed nfc schema ls) : c.index < ls.length := by
  obtain ⟨d, -, hd⟩ := h.leaf
  exact (List.getElem?_eq_some_iff.1 hd).1

/-- The proof of the entry. -/
def proofFields (ls : List Digest) (c : Chosen) : List (String × Json) :=
  [("base_row_digest", .str (encodeBase64url c.leaf.1.base.1)),
    ("duplicate_ordinal", .int c.leaf.2), ("leaf_index", .int c.index),
    ("tree_size", .int ls.length),
    ("siblings", .arr ((Merkle.path nodeHash ls c.index).map stepJson))]

theorem entry_eq : c.entry ls = ("proof_id", .str c.proofId) :: ("row", c.row) ::
    c.proofFields ls := by
  rw [entry, entryFields, leafProof_siblings]
  rfl

theorem entry_keys : keysAre (c.entry ls) entryKeys = true := by
  rw [entry_eq]
  rfl

/-- The fields that are the proof's. -/
theorem entry_filter :
    ((c.entry ls).filter fun p => p.1 ≠ "row" ∧ p.1 ≠ "proof_id") = c.proofFields ls := by
  rw [entry_eq]
  rfl

theorem proofSibling_stepJson (s : Side × Digest) : proofSibling (stepJson s) = some (stepJson s) := by
  have hhash : digestTextField (.str (encodeBase64url s.2.1)) =
      some (.str (encodeBase64url s.2.1)) := by
    simp [digestTextField, textWhere, text, decodeDigest_encode]
  have hdirection : literalField ["left", "right"] (.str (direction s.1)) =
      some (.str (direction s.1)) := by
    cases s.1 <;> rfl
  rw [proofSibling, closedMetadata, if_pos (by rfl), stepJson]
  exact closedModel_own (by simp)
    (.cons ⟨rfl, hhash⟩ (.cons ⟨rfl, hdirection⟩ .nil)) rfl

theorem mapM_proofSibling (p : List (Side × Digest)) :
    (p.map stepJson).mapM proofSibling = some (p.map stepJson) := by
  induction p with
  | nil => rfl
  | cons s p ih =>
    rw [List.map_cons, List.mapM_cons, proofSibling_stepJson, ih]
    rfl

theorem safeMetadata_steps (p : List (Side × Digest)) :
    safeMetadataList (p.map stepJson) = true := by
  induction p with
  | nil => rfl
  | cons s p ih =>
    rw [List.map_cons, safeMetadataList, ih]
    rfl

/-- **The proof of an entry is a model** exactly in a tree whose size is a safe
    integer. -/
theorem Committed.entryProof (h : c.Committed nfc schema ls) (hmax : ls.length ≤ maxTreeSize) :
    AimData.entryProof (c.entry ls) =
      if (ls.length : ℤ) ≤ safeInteger then .ok (c.proofFields ls)
      else raise "ValidationError" "CommitmentProof" := by
  have hlt := h.lt
  have hordinal := h.ordinal
  have hpath : (Merkle.path nodeHash ls c.index).length ≤ 63 := by
    rw [length_path (List.length_pos_iff.1 (by omega))]
    exact Merkle.length_sides_le 63 (hmax.trans (by decide)) _
  have hhash : digestTextField (.str (encodeBase64url c.leaf.1.base.1)) =
      some (.str (encodeBase64url c.leaf.1.base.1)) := by
    simp [digestTextField, textWhere, text, decodeDigest_encode]
  have hsiblings : listField proofSibling 0 63
      (.arr ((Merkle.path nodeHash ls c.index).map stepJson)) =
        some (.arr ((Merkle.path nodeHash ls c.index).map stepJson)) := by
    rw [listField, if_pos (by simpa using hpath), mapM_proofSibling]
    rfl
  rw [AimData.entryProof, entry_filter, commitmentProof, closedMetadata]
  by_cases hsafe : (ls.length : ℤ) ≤ safeInteger
  · have hint : ∀ min n : ℤ, min ≤ n → n ≤ safeInteger →
        intField min safeMax (.int n) = some (.int n) := fun min n h1 h2 => by
      rw [intField, if_pos ⟨h1, h2⟩]
    have hmeta : safeMetadata (.obj (c.proofFields ls)) = true := by
      simp only [proofFields, safeMetadata, safeMetadataFields, safeMetadata_steps, Bool.and_true,
        Bool.true_and, Bool.and_eq_true, decide_eq_true_eq, Int.natAbs_natCast]
      omega
    have hmodel : closedModel (⟨"base_row_digest", digestTextField, none⟩ :: positionFields)
        validPositions (.obj (c.proofFields ls)) = some (.obj (c.proofFields ls)) := by
      refine closedModel_own (by simp [proofFields]) (.cons ⟨rfl, hhash⟩ (.cons ⟨rfl, hint 0 _ ?_ ?_⟩
        (.cons ⟨rfl, hint 0 _ ?_ ?_⟩ (.cons ⟨rfl, hint 1 _ ?_ hsafe⟩
          (.cons ⟨rfl, hsiblings⟩ .nil))))) ?_
      · omega
      · omega
      · omega
      · omega
      · omega
      · refine decide_eq_true ?_
        show (c.index : ℤ) < ls.length ∧ (c.leaf.2 : ℤ) < ls.length
        omega
    rw [if_pos hsafe, if_pos hmeta, hmodel]
    rfl
  · have hmeta : safeMetadata (.obj (c.proofFields ls)) = false := by
      simp only [proofFields, safeMetadata, safeMetadataFields, safeMetadata_steps, Bool.and_true,
        Bool.true_and, Bool.and_eq_false_iff, decide_eq_false_iff_not, Int.natAbs_natCast]
      omega
    rw [if_neg hsafe, if_neg (by rw [hmeta]; simp)]

/-- The row of the entry is the row of its leaf. -/
theorem Committed.entryRow (h : c.Committed nfc schema ls) :
    AimData.entryRow nfc schema (c.entry ls) = .ok c.leaf.1.row := by
  obtain ⟨triples, htriples, hrow⟩ := h.reads.loads
  have hget : Contract.get (c.entry ls) "row" = c.row := by
    rw [entry_eq]
    rfl
  rw [AimData.entryRow, hget, h.reads.again, commitmentErrors, Except.ok_bind, htriples,
    Except.ok_bind, hrow]
  rfl

theorem getList_siblings : (getList (c.entry ls) "siblings").map siblingOf =
    (leafProof ls c.leaf c.index).siblings := by
  have hlist : getList (c.entry ls) "siblings" =
      (Merkle.path nodeHash ls c.index).map stepJson := by
    rw [entry_eq]
    rfl
  rw [hlist, List.map_map, leafProof, stepSiblings, List.map_map]
  exact List.map_congr_left fun s _ => siblingOf_stepJson s

/-- The entry is bound to the root. -/
theorem Committed.entryBound (h : c.Committed nfc schema ls) (hmax : ls.length ≤ maxTreeSize) :
    AimData.entryBound schema (.ofDigest (Merkle.mth nodeHash ls)) (c.entry ls) (c.proofFields ls)
      c.leaf.1.row = .ok () := by
  obtain ⟨d, hd, hleaf⟩ := h.leaf
  obtain ⟨hlt, rfl⟩ := List.getElem?_eq_some_iff.1 hleaf
  have hbase : hashValue (Contract.get (c.proofFields ls) "base_row_digest") =
      .text (encodeBase64url c.leaf.1.base.1) := rfl
  have hordinal : getInt (c.proofFields ls) "duplicate_ordinal" = c.leaf.2 := rfl
  have hindex : getInt (c.proofFields ls) "leaf_index" = c.index := rfl
  have hsize : getInt (c.proofFields ls) "tree_size" = ls.length := rfl
  have hleaf' : computeLeafHash (.text (encodeBase64url c.leaf.1.base.1)) c.leaf.2 =
      .ok ls[c.index] := by
    rw [← hd, pairLeaf, computeLeafHash, computeLeafHash, decodeDigest_encode, decodeDigest_ofDigest]
  rw [AimData.entryBound, h.reads.base, commitmentErrors, Except.ok_bind, hbase,
    decodeDigest_encode, commitmentErrors, Except.ok_bind, if_neg (not_not.2 rfl), hordinal,
    hleaf', commitmentErrors, Except.ok_bind, hindex, hsize, getList_siblings,
    verifyInclusionProof_leaf hmax hlt, if_pos rfl]

/-- A row has no more fields than its schema. -/
theorem Committed.len_row (h : c.Committed nfc schema ls) :
    ∃ n : ℕ, len c.row = .ok n ∧ n ≤ schema.descriptors.names.length := by
  obtain ⟨n, hn, -⟩ := Except.bind_eq_ok.1 h.reads.again
  cases hrow : c.row with
  | obj l =>
    rw [hrow] at hn
    obtain ⟨m, hm, hn⟩ := Except.bind_eq_ok.1 hn
    rw [normalizeKeys_ofJson] at hm
    split_ifs at hm with hkeys
    · cases hm
      split_ifs at hn with hall
      · refine ⟨l.length, rfl, ?_⟩
        rw [← List.length_map (fun f : String × Json => nfc f.1)]
        refine (hkeys.1.subperm fun name hname => ?_).length_le
        obtain ⟨f, hf, rfl⟩ := List.mem_map.1 hname
        exact of_decide_eq_true (List.all_eq_true.1 hall _ (List.mem_map_of_mem hf))
      · cases hn
    · cases hm
  | _ =>
    rw [hrow] at hn
    cases hn

theorem limit_of_le {kind : String} {amount : ℤ} (h0 : 0 ≤ amount)
    (h : amount ≤ (caps.lookup kind).getD 0) : limit kind amount = .ok () := by
  rw [limit, if_neg]
  omega

theorem limit_of_gt {kind : String} {amount : ℤ} (h : (caps.lookup kind).getD 0 < amount) :
    limit kind amount = refuseEnvelope (kind ++ "_limit") := by
  rw [limit, if_pos (Or.inr h)]

/-- What the loop over the entries has seen after a selected leaf. -/
def sees (ls : List Digest) (seen : Seen) (c : Chosen) : Seen :=
  ⟨c.proofId :: seen.ids, seen.indices ++ [(c.index : ℤ)], (ls.length : ℤ) :: seen.sizes,
    seen.canonicalBytes + c.leaf.1.row.length⟩

/-- **The loop over the entries takes a committed leaf** as far as the tree's size
    is a safe integer and the rows fit. -/
theorem Committed.validateEntry (h : c.Committed nfc schema ls) (hmax : ls.length ≤ maxTreeSize)
    (hfields : schema.descriptors.names.length ≤ 25) {seen : Seen} (hnew : c.proofId ∉ seen.ids) :
    AimData.validateEntry nfc schema (.ofDigest (Merkle.mth nodeHash ls)) seen
        (.obj (c.entry ls)) =
      if (ls.length : ℤ) ≤ safeInteger then
        if seen.canonicalBytes + c.leaf.1.row.length ≤ 250000 then .ok (c.sees ls seen)
        else refuseEnvelope "canonical_bytes_limit"
      else raise "ValidationError" "CommitmentProof" := by
  have hlt := h.lt
  obtain ⟨n, hn, hle⟩ := h.len_row
  have hpid : Contract.get (c.entry ls) "proof_id" = .str c.proofId := rfl
  have hrow : Contract.get (c.entry ls) "row" = c.row := by
    rw [entry_eq]
    rfl
  have hsiblings : Contract.get (c.entry ls) "siblings" =
      .arr ((Merkle.path nodeHash ls c.index).map stepJson) := by
    rw [entry_eq]
    rfl
  have hpath : (Merkle.path nodeHash ls c.index).length ≤ 63 := by
    rw [length_path (List.length_pos_iff.1 (by omega))]
    exact Merkle.length_sides_le 63 (hmax.trans (by decide)) _
  have hlimit : limit "siblings" (Merkle.path nodeHash ls c.index).length = .ok () :=
    limit_of_le (by omega) (by exact_mod_cast hpath)
  have hlimit' : limit "fields" n = .ok () :=
    limit_of_le (by omega) (by exact_mod_cast hle.trans hfields)
  rw [AimData.validateEntry, if_pos entry_keys, hpid, canonicalUuidOf, if_pos h.identity,
    Except.ok_bind, if_neg hnew, hsiblings, len, Except.ok_bind, List.length_map, hlimit,
    Except.ok_bind, h.entryProof hmax]
  by_cases hsafe : (ls.length : ℤ) ≤ safeInteger
  · rw [if_pos hsafe, if_pos hsafe, Except.ok_bind, hrow, hn, Except.ok_bind, hlimit',
      Except.ok_bind, h.entryRow, Except.ok_bind]
    by_cases hbytes : seen.canonicalBytes + c.leaf.1.row.length ≤ 250000
    · rw [if_pos hbytes, limit_of_le (by omega) (by exact_mod_cast hbytes), Except.ok_bind,
        h.entryBound hmax]
      rfl
    · rw [if_neg hbytes, limit_of_gt (by exact_mod_cast not_le.1 hbytes)]
      rfl
  · rw [if_neg hsafe, if_neg hsafe]
    rfl

/-- The loop over the entries of selected leaves. -/
theorem validateEntries_committed {cs : List Chosen} (hcs : ∀ c ∈ cs, c.Committed nfc schema ls)
    (hmax : ls.length ≤ maxTreeSize) (hsafe : (ls.length : ℤ) ≤ safeInteger)
    (hfields : schema.descriptors.names.length ≤ 25) (hnodup : (cs.map Chosen.proofId).Nodup)
    {seen : Seen} (hnew : ∀ c ∈ cs, c.proofId ∉ seen.ids) :
    (cs.map fun c => Json.obj (c.entry ls)).foldlM
        (AimData.validateEntry nfc schema (.ofDigest (Merkle.mth nodeHash ls))) seen =
      if seen.canonicalBytes + (cs.map fun c => c.leaf.1.row.length).sum ≤ 250000 ∨ cs = [] then
        .ok (cs.foldl (sees ls) seen)
      else refuseEnvelope "canonical_bytes_limit" := by
  induction cs generalizing seen with
  | nil =>
    rw [if_pos (Or.inr rfl)]
    rfl
  | cons c cs ih =>
    rw [List.map_cons, List.nodup_cons] at hnodup
    rw [List.map_cons, List.foldlM_cons, (hcs c List.mem_cons_self).validateEntry hmax hfields
      (hnew c List.mem_cons_self), if_pos hsafe, List.map_cons, List.sum_cons]
    by_cases hbytes : seen.canonicalBytes + c.leaf.1.row.length ≤ 250000
    · have hnew' : ∀ c' ∈ cs, c'.proofId ∉ (c.sees ls seen).ids := by
        intro c' hc' hmem
        rcases List.mem_cons.1 hmem with he | hmem
        · exact hnodup.1 (he ▸ List.mem_map_of_mem hc')
        · exact hnew c' (List.mem_cons_of_mem _ hc') hmem
      rw [if_pos hbytes, Except.ok_bind,
        ih (fun c' hc' => hcs c' (List.mem_cons_of_mem _ hc')) hnodup.2 hnew', List.foldl_cons]
      cases cs with
      | nil =>
        rw [if_pos (Or.inr rfl), if_pos]
        exact Or.inl (by simpa using hbytes)
      | cons c' cs =>
        simp only [sees, reduceCtorEq, or_false, Nat.add_assoc]
    · rw [if_neg hbytes, if_neg]
      · rfl
      · rintro (hle | hnil)
        · omega
        · cases hnil

end

end Chosen

end AimData
