/-
  The chunks of a manifest delivery: where the plan puts them, and what is read for them.

  A member is read in pieces of one size, and its digest is only known after the last of
  them; so the chunks of a file that has changed are yielded before the error is raised.
-/
import AimData.Fulfillment.Manifest

namespace AimData

namespace Fulfillment

/-! ## Reading -/

/-- A member that is open: the size that `fstat` gives, and what each `read` gives. -/
structure OpenMember where
  size : ℕ
  read : ℕ → Bytes

/-- `min(CHUNK_SIZE, member.size - local_index * CHUNK_SIZE)` -/
def Member.pieceLength (m : Member) (localIndex : ℕ) : ℕ :=
  min chunkSize (m.size - localIndex * chunkSize)

/-- The loop of `chunks` over the pieces of a member that are left, with the bytes digested
    so far: what is yielded, and the bytes digested at the end. -/
def readPieces (m : Member) (transferId : String) (stream : OpenMember) :
    ℕ → ℕ → Bytes → List ManifestChunk × Except Raised Bytes
  | 0, _, digested => ([], .ok digested)
  | left + 1, localIndex, digested =>
    let raw := stream.read localIndex
    if raw.length ≠ m.pieceLength localIndex then
      ([], raise "ValueError" "Retained member truncated during delivery")
    else
      let message := (⟨m.index, m.startChunk + localIndex, m.startByte + localIndex * chunkSize,
        raw.length⟩ : Position).message transferId raw
      let (chunks, result) := readPieces m transferId stream left (localIndex + 1) (digested ++ raw)
      (message :: chunks, result)

/-- What `chunks` yields of a member, and what it raises. -/
def readMember (m : Member) (transferId : String) (opened : Except Raised OpenMember) :
    List ManifestChunk × Option Raised :=
  match opened with
  | .error e => ([], some e)
  | .ok stream =>
    if stream.size ≠ m.size then ([], some ⟨"ValueError", "Retained member size changed"⟩)
    else match readPieces m transferId stream m.chunks 0 [] with
      | (chunks, .error e) => (chunks, some e)
      | (chunks, .ok digested) =>
        if stream.read m.chunks ≠ [] ∨ hex (sha256 digested).1 ≠ m.sha256 then
          (chunks, some ⟨"ValueError", "Retained member bytes changed; completion withheld"⟩)
        else (chunks, none)

/-- `ManifestSender.chunks` over members: what is yielded, and what is raised at the end. -/
def readMembers (transferId : String) (openMember : Member → Except Raised OpenMember)
    (verified : List ℤ) : List Member → List ManifestChunk × Option Raised
  | [] => ([], none)
  | m :: members =>
    if (m.index : ℤ) ∈ verified then readMembers transferId openMember verified members
    else match readMember m transferId (openMember m) with
      | (chunks, some e) => (chunks, some e)
      | (chunks, none) =>
        let (rest, result) := readMembers transferId openMember verified members
        (chunks ++ rest, result)

/-- `ManifestSender.chunks` -/
def Delivery.chunks (d : Delivery) (transferId : String)
    (openMember : Member → Except Raised OpenMember) (verified : List ℤ) :
    List ManifestChunk × Option Raised :=
  readMembers transferId openMember verified d.plan

/-! ## The plan -/

/-- The number of chunks of a member. -/
def chunkCount (size : ℕ) : ℕ := max 1 ((size + chunkSize - 1) / chunkSize)

/-- **A plan covers the data**: its members are the data rows in order, and their chunks and
    bytes follow each other from the first to the last. -/
structure Covers (rows : List ManifestRow) (d : Delivery) : Prop where
  rows : d.plan.map (fun m => (m.index, m.size, m.sha256)) =
    (rows.filter fun row => row.role = "data").map fun row =>
      (row.index, row.sizeBytes, row.sha256)
  counts : ∀ m ∈ d.plan, m.chunks = chunkCount m.size
  chunks : d.plan.flatMap (fun m => List.range' m.startChunk m.chunks) = List.range d.totalChunks
  bytes : d.plan.flatMap (fun m => List.range' m.startByte m.size) = List.range d.totalBytes

theorem planRows_covers {maxMemberBytes : ℕ} {rows : List ManifestRow}
    {chunkOffset byteOffset chunkEnd byteEnd : ℕ} {plan : List Member}
    (h : planRows maxMemberBytes rows chunkOffset byteOffset = .ok (plan, chunkEnd, byteEnd)) :
    plan.map (fun m => (m.index, m.size, m.sha256)) =
        (rows.filter fun row => row.role = "data").map
          (fun row => (row.index, row.sizeBytes, row.sha256)) ∧
      (∀ m ∈ plan, m.chunks = chunkCount m.size) ∧
      (chunkOffset ≤ chunkEnd ∧ plan.flatMap (fun m => List.range' m.startChunk m.chunks) =
        List.range' chunkOffset (chunkEnd - chunkOffset)) ∧
      (byteOffset ≤ byteEnd ∧ plan.flatMap (fun m => List.range' m.startByte m.size) =
        List.range' byteOffset (byteEnd - byteOffset)) := by
  have hjoin : ∀ {s n e : ℕ}, s + n ≤ e →
      List.range' s n ++ List.range' (s + n) (e - (s + n)) = List.range' s (e - s) := by
    intro s n e hle
    rw [List.range'_append_1]
    congr 1
    omega
  induction rows generalizing chunkOffset byteOffset plan with
  | nil =>
    cases h
    simp
  | cons row rows ih =>
    rw [planRows] at h
    by_cases hrole : row.role = "data"
    · rw [if_neg (not_not.2 hrole)] at h
      split_ifs at h
      · cases h
      · obtain ⟨⟨plan', chunkEnd', byteEnd'⟩, hrows, h⟩ := Except.bind_eq_ok.1 h
        cases h
        obtain ⟨hkeys, hcounts, ⟨hchunk, hchunks⟩, hbyte, hbytes⟩ := ih hrows
        refine ⟨?_, ?_, ⟨(Nat.le_add_right _ _).trans hchunk, ?_⟩,
          (Nat.le_add_right _ _).trans hbyte, ?_⟩
        · simp [hrole, hkeys]
        · exact List.forall_mem_cons.2 ⟨rfl, hcounts⟩
        · rw [List.flatMap_cons, hchunks]
          exact hjoin hchunk
        · rw [List.flatMap_cons, hbytes]
          exact hjoin hbyte
    · rw [if_pos hrole] at h
      obtain ⟨hkeys, hrest⟩ := ih h
      refine ⟨?_, hrest⟩
      simp [hrole, hkeys]

theorem loadPlan_covers {settings : Settings} {name orderId listingId manifestHash : String}
    {rows : List ManifestRow} {d : Delivery}
    (h : loadPlan settings name orderId listingId manifestHash rows = .ok d) : Covers rows d := by
  rw [loadPlan] at h
  obtain ⟨⟨plan, chunkEnd, byteEnd⟩, hrows, h⟩ := Except.bind_eq_ok.1 h
  dsimp only at h
  split_ifs at h
  · cases h
  · cases h
    obtain ⟨hkeys, hcounts, ⟨-, hchunks⟩, -, hbytes⟩ := planRows_covers hrows
    refine ⟨hkeys, hcounts, ?_, ?_⟩
    · rw [List.range_eq_range']
      simpa using hchunks
    · rw [List.range_eq_range']
      simpa using hbytes

/-! ## The pieces of a member -/

/-- A chunk of a member. -/
def Member.piece (m : Member) (localIndex : ℕ) : Position :=
  ⟨m.index, m.startChunk + localIndex, m.startByte + localIndex * chunkSize,
    m.pieceLength localIndex⟩

/-- What is read of a member is what the manifest says. -/
structure OpenMember.Matches (stream : OpenMember) (m : Member) : Prop where
  size : stream.size = m.size
  pieces : ∀ i < m.chunks, (stream.read i).length = m.pieceLength i
  atEnd : stream.read m.chunks = []
  digest : hex (sha256 ((List.range m.chunks).map stream.read).flatten).1 = m.sha256

section

variable {m : Member} {transferId : String} {stream : OpenMember}

theorem readPieces_ok : ∀ {left localIndex : ℕ} {digested : Bytes},
    (∀ i ∈ List.range' localIndex left, (stream.read i).length = m.pieceLength i) →
    readPieces m transferId stream left localIndex digested =
      ((List.range' localIndex left).map fun i => (m.piece i).message transferId (stream.read i),
        .ok (digested ++ ((List.range' localIndex left).map stream.read).flatten)) := by
  intro left
  induction left with
  | zero =>
    intro localIndex digested _
    simp [readPieces]
  | succ left ih =>
    intro localIndex digested h
    rw [List.range'_succ, List.forall_mem_cons] at h
    rw [readPieces, if_neg (not_not.2 h.1), ih h.2, List.range'_succ]
    simp [h.1, Member.piece]

theorem readPieces_error : ∀ {left localIndex : ℕ} {digested : Bytes},
    ¬ (∀ i ∈ List.range' localIndex left, (stream.read i).length = m.pieceLength i) →
    ∃ chunks e, readPieces m transferId stream left localIndex digested = (chunks, .error e) := by
  intro left
  induction left with
  | zero =>
    intro localIndex digested h
    exact absurd (fun i hi => absurd hi List.not_mem_nil) h
  | succ left ih =>
    intro localIndex digested h
    rw [List.range'_succ, List.forall_mem_cons] at h
    rw [readPieces]
    by_cases hlength : (stream.read localIndex).length = m.pieceLength localIndex
    · obtain ⟨chunks, e, hrest⟩ := @ih (localIndex + 1) (digested ++ stream.read localIndex)
        fun hrest => h ⟨hlength, hrest⟩
      rw [if_neg (not_not.2 hlength), hrest]
      exact ⟨_, e, rfl⟩
    · exact ⟨[], _, if_pos hlength⟩

/-- A member that matches is yielded piece by piece. -/
theorem readMember_matches (h : stream.Matches m) : readMember m transferId (.ok stream) =
    ((List.range m.chunks).map fun i => (m.piece i).message transferId (stream.read i),
      none) := by
  have hpieces := @readPieces_ok m transferId stream m.chunks 0 [] (by simpa using h.pieces)
  rw [← List.range_eq_range'] at hpieces
  rw [readMember, if_neg (not_not.2 h.size), hpieces]
  simp [h.atEnd, h.digest]

/-- A member that does not match is not read to its end. -/
theorem readMember_none_iff {opened : Except Raised OpenMember} :
    (readMember m transferId opened).2 = none ↔ ∃ stream, opened = .ok stream ∧ stream.Matches m := by
  constructor
  · intro h
    cases opened with
    | error e => cases h
    | ok stream =>
      refine ⟨stream, rfl, ?_⟩
      rw [readMember] at h
      by_cases hsize : stream.size = m.size
      · rw [if_neg (not_not.2 hsize)] at h
        by_cases hpieces : ∀ i ∈ List.range' 0 m.chunks,
            (stream.read i).length = m.pieceLength i
        · rw [readPieces_ok hpieces, ← List.range_eq_range'] at h
          dsimp only at h
          split_ifs at h with hover
          · push Not at hover
            exact ⟨hsize, by simpa using hpieces, hover.1, hover.2⟩
        · obtain ⟨chunks, e, hread⟩ := @readPieces_error m transferId stream _ _ _ hpieces
          rw [hread] at h
          cases h
      · rw [if_pos hsize] at h
        cases h
  · rintro ⟨stream, rfl, h⟩
    rw [readMember_matches h]

/-! ## All members -/

variable {openMember : Member → Except Raised OpenMember} {verified : List ℤ}

/-- The members that are still to send. -/
def unverified (verified : List ℤ) (members : List Member) : List Member :=
  members.filter fun m => (m.index : ℤ) ∉ verified

/-- The members are read to the end iff each of them matches, and then one after the other. -/
theorem readMembers_none_iff {members : List Member} {chunks : List ManifestChunk} :
    readMembers transferId openMember verified members = (chunks, none) ↔
      (∀ m ∈ unverified verified members, (readMember m transferId (openMember m)).2 = none) ∧
        chunks = (unverified verified members).flatMap
          fun m => (readMember m transferId (openMember m)).1 := by
  induction members generalizing chunks with
  | nil => simp [readMembers, unverified, eq_comm]
  | cons m members ih =>
    rw [readMembers]
    by_cases hverified : (m.index : ℤ) ∈ verified
    · rw [if_pos hverified, ih]
      simp [unverified, hverified]
    · have hcons : unverified verified (m :: members) = m :: unverified verified members := by
        simp [unverified, hverified]
      rw [if_neg hverified, hcons, List.forall_mem_cons, List.flatMap_cons]
      rcases readMember m transferId (openMember m) with ⟨first, _ | e⟩
      · rcases hrest : readMembers transferId openMember verified members with ⟨rest, result⟩
        cases result with
        | none =>
          obtain ⟨hall, hchunks⟩ := ih.1 hrest
          simp only [Prod.mk.injEq, and_true, true_and]
          rw [← hchunks]
          constructor
          · rintro rfl
            exact ⟨hall, rfl⟩
          · rintro ⟨-, rfl⟩
            rfl
        | some e =>
          simp only [Prod.mk.injEq, reduceCtorEq, and_false, true_and, false_iff]
          rintro ⟨hall, -⟩
          have hnone := ih.2 ⟨hall, rfl⟩
          rw [hrest] at hnone
          cases hnone
      · simp

/-! ## What is delivered -/

theorem sum_pieceLength (m : Member) (k : ℕ) :
    ((List.range k).map m.pieceLength).sum = min (k * chunkSize) m.size := by
  induction k with
  | zero => simp
  | succ k ih =>
    rw [List.range_succ, List.map_append, List.sum_append, ih, List.map_singleton,
      List.sum_singleton, Member.pieceLength, Nat.succ_mul]
    omega

theorem size_le_chunks (size : ℕ) : size ≤ chunkCount size * chunkSize := by
  rw [chunkCount, chunkSize]
  omega

/-- The chunks of a file of a size and a digest, at the places of its member. -/
def Delivers (transferId : String) (m : Member) (chunks : List ManifestChunk) : Prop :=
  ∃ raws : List Bytes,
    chunks = List.zipWith (fun p raw => p.message transferId raw) m.positions raws ∧
    raws.map List.length = m.positions.map Position.length ∧
    raws.flatten.length = m.size ∧ hex (sha256 raws.flatten).1 = m.sha256

theorem delivers_of_matches (hcount : m.chunks = chunkCount m.size) (h : stream.Matches m) :
    Delivers transferId m
      ((List.range m.chunks).map fun i => (m.piece i).message transferId (stream.read i)) := by
  have hpositions : m.positions = (List.range m.chunks).map m.piece := rfl
  have hlengths : (List.range m.chunks).map (fun i => (stream.read i).length) =
      (List.range m.chunks).map m.pieceLength :=
    List.map_congr_left fun i hi => h.pieces i (List.mem_range.1 hi)
  refine ⟨(List.range m.chunks).map stream.read, ?_, ?_, ?_, h.digest⟩
  · rw [hpositions, List.zipWith_map]
    simp
  · rw [hpositions, List.map_map, List.map_map]
    exact hlengths
  · rw [List.length_flatten, List.map_map]
    change ((List.range m.chunks).map fun i => (stream.read i).length).sum = m.size
    rw [hlengths, sum_pieceLength, hcount]
    exact min_eq_right (size_le_chunks m.size)

/-! ### Files that stay as they are -/

/-- A file that does not change while it is read. -/
def staticMember (m : Member) (content : Bytes) : OpenMember where
  size := content.length
  read i := if i < m.chunks then (content.drop (i * chunkSize)).take (m.pieceLength i)
    else (content.drop m.size).take 1

theorem flatten_pieces {content : Bytes} (hsize : content.length = m.size) (k : ℕ) :
    ((List.range k).map fun i =>
      (content.drop (i * chunkSize)).take (m.pieceLength i)).flatten =
        content.take (k * chunkSize) := by
  induction k with
  | zero => simp
  | succ k ih =>
    rw [List.range_succ, List.map_append, List.flatten_append, ih, List.map_singleton,
      List.flatten_singleton, Nat.succ_mul, List.take_add, Member.pieceLength, ← hsize,
      ← List.length_drop, ← List.take_eq_take_min]

theorem staticMember_matches_iff {content : Bytes} (hcount : m.chunks = chunkCount m.size) :
    (staticMember m content).Matches m ↔
      content.length = m.size ∧ hex (sha256 content).1 = m.sha256 := by
  have hread : content.length = m.size →
      ((List.range m.chunks).map (staticMember m content).read).flatten = content := by
    intro hsize
    have hpieces : (List.range m.chunks).map (staticMember m content).read =
        (List.range m.chunks).map fun i =>
          (content.drop (i * chunkSize)).take (m.pieceLength i) :=
      List.map_congr_left fun i hi => if_pos (List.mem_range.1 hi)
    rw [hpieces, flatten_pieces hsize, hcount]
    exact List.take_of_length_le (hsize ▸ size_le_chunks m.size)
  constructor
  · intro h
    refine ⟨h.size, ?_⟩
    rw [← h.digest, hread h.size]
  · rintro ⟨hsize, hdigest⟩
    refine ⟨hsize, ?_, ?_, by rw [hread hsize, hdigest]⟩
    · intro i hi
      change (if i < m.chunks then _ else _ : Bytes).length = _
      rw [if_pos hi, List.length_take, List.length_drop, hsize]
      exact min_eq_left (min_le_right _ _)
    · change (if m.chunks < m.chunks then _ else _ : Bytes) = []
      rw [if_neg (lt_irrefl _), ← hsize, List.drop_length]
      rfl

end

/-- **The plan and the chunks**: a plan covers the data; when the chunks end, they are those of
    the unverified members, each of them a file of its size and digest; and they end for files
    that stay as they are iff these are the files of the manifest. -/
theorem chunks_exact {settings : Settings} {name orderId listingId manifestHash : String}
    {rows : List ManifestRow} {d : Delivery}
    (h : loadPlan settings name orderId listingId manifestHash rows = .ok d) :
    Covers rows d ∧ ∀ transferId verified,
      (∀ openMember chunks, d.chunks transferId openMember verified = (chunks, none) →
        chunks.map ManifestChunk.position = d.positions verified ∧
        ∃ blocks, chunks = blocks.flatten ∧
          List.Forall₂ (Delivers transferId) (unverified verified d.plan) blocks) ∧
      ∀ content : Member → Bytes,
        (d.chunks transferId (fun m => .ok (staticMember m (content m))) verified).2 = none ↔
          ∀ m ∈ unverified verified d.plan,
            (content m).length = m.size ∧ hex (sha256 (content m)).1 = m.sha256 := by
  have hcovers := loadPlan_covers h
  have hcount : ∀ {verified m}, m ∈ unverified verified d.plan → m.chunks = chunkCount m.size :=
    fun hm => hcovers.counts _ (List.mem_of_mem_filter hm)
  refine ⟨hcovers, ?_⟩
  intro transferId verified
  constructor
  · intro openMember chunks hchunks
    obtain ⟨hall, rfl⟩ := readMembers_none_iff.1 hchunks
    have hblock : ∀ m ∈ unverified verified d.plan, ∃ stream : OpenMember, stream.Matches m ∧
        (readMember m transferId (openMember m)).1 =
          (List.range m.chunks).map fun i => (m.piece i).message transferId (stream.read i) := by
      intro m hm
      obtain ⟨stream, hstream, hmatches⟩ := readMember_none_iff.1 (hall m hm)
      refine ⟨stream, hmatches, ?_⟩
      rw [hstream, readMember_matches hmatches]
    constructor
    · rw [Delivery.positions, List.map_flatMap]
      refine List.flatMap_congr fun m hm => ?_
      obtain ⟨stream, -, hread⟩ := hblock m hm
      rw [hread, List.map_map]
      rfl
    · refine ⟨(unverified verified d.plan).map fun m =>
        (readMember m transferId (openMember m)).1, List.flatMap_def .., ?_⟩
      rw [List.forall₂_map_right_iff, List.forall₂_same]
      intro m hm
      obtain ⟨stream, hmatches, hread⟩ := hblock m hm
      rw [hread]
      exact delivers_of_matches (hcount hm) hmatches
  · intro content
    have hends : (d.chunks transferId (fun m => .ok (staticMember m (content m))) verified).2 =
        none ↔ ∀ m ∈ unverified verified d.plan,
          (readMember m transferId (.ok (staticMember m (content m)))).2 = none := by
      rcases hresult : d.chunks transferId (fun m => .ok (staticMember m (content m))) verified
        with ⟨chunks, result⟩
      constructor
      · intro hnone
        cases hnone
        exact (readMembers_none_iff.1 hresult).1
      · intro hall
        have hread := readMembers_none_iff.2 ⟨hall, rfl⟩
        rw [Delivery.chunks, hread] at hresult
        exact (congrArg Prod.snd hresult).symm
    rw [hends]
    refine forall₂_congr fun m hm => ?_
    rw [readMember_none_iff, ← staticMember_matches_iff (hcount hm)]
    simp

/-- A data row, a row of documentation, and a data row with no bytes. -/
def threeRows : List ManifestRow :=
  [⟨0, chunkSize + 1, "a", "data"⟩, ⟨1, 5, "b", "documentation"⟩, ⟨2, 0, "c", "data"⟩]

def threeDelivery : Delivery :=
  ⟨"d", "o", "l", "h", [⟨0, chunkSize + 1, "a", 0, 0, 2⟩, ⟨2, 0, "c", 2, chunkSize + 1, 1⟩], 3,
    chunkSize + 1⟩

theorem chunks_exact_three :
    loadPlan ⟨100000, 100000, 1⟩ "d" "o" "l" "h" threeRows = .ok threeDelivery ∧
      Covers threeRows threeDelivery := by
  have hplan : loadPlan ⟨100000, 100000, 1⟩ "d" "o" "l" "h" threeRows = .ok threeDelivery := rfl
  exact ⟨hplan, (chunks_exact hplan).1⟩

end Fulfillment

end AimData
