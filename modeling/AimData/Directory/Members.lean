/-
  What scans do to the members of a dataset.

  The index of a path is given once and to no other path, also when the file goes and
  comes back, and a scan leaves the seller's choices alone: `members_across_scans`.
-/
import AimData.Directory.Registration

namespace AimData

namespace Directory

section
variable {env : Env} {name path before : String} {reads : List Read} {walk walk' : Walk}
  {m m' : Member} {v : Values} {rows : List Values} {old members : List Member} {now : ℤ}

/-! ## Listings -/

/-- Every path is listed once, and nothing is listed as removed. -/
structure Listing (rows : List Values) : Prop where
  nodup : (rows.map Values.relativePath).Nodup
  status : ∀ v ∈ rows, v.status ≠ .removed

/-- The rows of a walk have different keys, which the walk has seen. -/
structure Walk.Wf (env : Env) (walk : Walk) : Prop where
  nodup : (walk.rows.map fun v => env.casefold v.relativePath).Nodup
  seen : ∀ v ∈ walk.rows, env.casefold v.relativePath ∈ walk.seen.map Prod.fst
  status : ∀ v ∈ walk.rows, v.status ≠ .removed

theorem Walk.Wf.start : Walk.Wf env .start where
  nodup := List.nodup_nil
  seen := fun _ h => absurd h List.not_mem_nil
  status := fun _ h => absurd h List.not_mem_nil

/-- An admitted path is new. -/
theorem enterPath_ok (h : enterPath env name walk = .ok (path, walk')) :
    walk'.rows = walk.rows ∧ env.casefold path ∉ walk.seen.map Prod.fst ∧
      walk'.seen = (env.casefold path, name) :: walk.seen := by
  rw [enterPath, Except.bind_eq_ok] at h
  obtain ⟨canonical, -, h⟩ := h
  cases hkey : walk.seen.lookup (env.casefold canonical) with
  | some other =>
    rw [hkey] at h
    cases h
  | none =>
    rw [hkey] at h
    obtain ⟨rfl, rfl⟩ := Prod.mk.inj (Except.ok.inj h)
    refine ⟨rfl, ?_, rfl⟩
    intro hmem
    obtain ⟨⟨key, other⟩, hentry, rfl⟩ := List.mem_map.1 hmem
    rw [List.lookup_eq_none_iff] at hkey
    simpa using hkey _ hentry

theorem wf_enterPath (h : enterPath env name walk = .ok (path, walk')) (hwf : walk.Wf env) :
    walk'.Wf env := by
  obtain ⟨hrows, -, hseen⟩ := enterPath_ok h
  refine ⟨hrows ▸ hwf.nodup, ?_, hrows ▸ hwf.status⟩
  intro v hv
  rw [hseen, List.map_cons]
  exact List.mem_cons_of_mem _ (hwf.seen v (hrows ▸ hv))

/-- A kept file is a row of the path that was admitted for it. -/
theorem keepFile_ok (h : keepFile env name path reads walk = .ok walk') :
    ∃ row : Values, row.relativePath = path ∧ row.status ≠ .removed ∧
      walk'.rows = walk.rows ++ [row] ∧ walk'.seen = walk.seen := by
  rw [keepFile] at h
  split_ifs at h
  · cases h
  · simp only [Except.bind_eq_ok, Except.pure_eq_ok, Except.ok.injEq] at h
    obtain ⟨_, -, ⟨digest, info⟩, -, rfl⟩ := h
    refine ⟨_, rfl, ?_, rfl, rfl⟩
    dsimp only
    split_ifs
    · exact Status.noConfusion
    · exact Status.noConfusion

theorem wf_file (henter : enterPath env name walk = .ok (path, walk')) {base : String} {walk'' : Walk}
    (hkeep : keepFile env base path reads walk' = .ok walk'') (hwf : walk.Wf env) :
    walk''.Wf env := by
  obtain ⟨hrows, hnew, hseen⟩ := enterPath_ok henter
  obtain ⟨row, hpath, hstatus, hrows', hseen'⟩ := keepFile_ok hkeep
  have hwf' := wf_enterPath henter hwf
  refine ⟨?_, ?_, ?_⟩
  · rw [hrows', List.map_append, hrows]
    refine List.nodup_append.2 ⟨hwf.nodup, List.nodup_singleton _, ?_⟩
    intro key hkey key' hkey'
    obtain ⟨v, hv, rfl⟩ := List.mem_map.1 hkey
    rw [List.map_singleton, List.mem_singleton] at hkey'
    rintro heq
    exact hnew (hpath ▸ hkey' ▸ heq ▸ hwf.seen v hv)
  · intro v hv
    rw [hrows', List.mem_append, List.mem_singleton] at hv
    rw [hseen']
    rcases hv with hv | rfl
    · exact hwf'.seen v hv
    · rw [hseen, hpath]
      exact List.mem_cons_self
  · intro v hv
    rw [hrows', List.mem_append, List.mem_singleton] at hv
    rcases hv with hv | rfl
    · exact hwf'.status v hv
    · exact hstatus

mutual
theorem wf_walkEntry {before : String} {walk walk' : Walk} : ∀ entry : Entry, walk.Wf env →
    walkEntry env before walk entry = .ok walk' → walk'.Wf env
  | .file name reads, hwf, h => by
    rw [walkEntry] at h
    split_ifs at h
    · exact Except.ok.inj h ▸ hwf
    · obtain ⟨⟨path, walk₁⟩, henter, hkeep⟩ := Except.bind_eq_ok.1 h
      exact wf_file henter hkeep hwf
  | .directory name entries, hwf, h => by
    rw [walkEntry] at h
    split_ifs at h
    · exact Except.ok.inj h ▸ hwf
    · obtain ⟨⟨path, walk₁⟩, henter, hrest⟩ := Except.bind_eq_ok.1 h
      exact wf_walkEntries entries (wf_enterPath henter hwf) hrest
  | .symlink name, hwf, h => by
    rw [walkEntry] at h
    exact Except.ok.inj h ▸ hwf
  | .other name, hwf, h => by
    rw [walkEntry] at h
    split_ifs at h
    · exact Except.ok.inj h ▸ hwf
    · obtain ⟨⟨path, walk₁⟩, henter, hrest⟩ := Except.bind_eq_ok.1 h
      exact Except.ok.inj hrest ▸ wf_enterPath henter hwf
  | .unreadable name osError, hwf, h => by
    rw [walkEntry] at h
    split_ifs at h
    · exact Except.ok.inj h ▸ hwf
    · obtain ⟨_, -, hrest⟩ := Except.bind_eq_ok.1 h
      cases hrest

theorem wf_walkEntries {before : String} {walk walk' : Walk} : ∀ entries : List Entry,
    walk.Wf env → walkEntries env before walk entries = .ok walk' → walk'.Wf env
  | [], hwf, h => by
    rw [walkEntries] at h
    exact Except.ok.inj h ▸ hwf
  | entry :: entries, hwf, h => by
    rw [walkEntries] at h
    obtain ⟨walk₁, hentry, hrest⟩ := Except.bind_eq_ok.1 h
    exact wf_walkEntries entries (wf_walkEntry entry hwf hentry) hrest
end

/-- **What a scan lists is a listing.** -/
theorem scanRoot_listing {entries : List Entry} (h : scanRoot env entries = .ok rows) :
    Listing rows := by
  rw [scanRoot] at h
  obtain ⟨walk, hwalk, h⟩ := Except.bind_eq_ok.1 h
  have hperm : rows.Perm walk.rows := by
    rw [← Except.ok.inj h]
    exact List.perm_insertionSort _ _
  have hwf := wf_walkEntries entries Walk.Wf.start hwalk
  refine ⟨(hperm.map _).nodup_iff.2 ?_, fun v hv => hwf.status v (hperm.mem_iff.1 hv)⟩
  have hmap := hwf.nodup
  rw [← Function.comp_def, ← List.map_map] at hmap
  exact hmap.of_map _

/-! ## Updates of a member -/

@[simp] theorem ofValues_relativePath {index : ℕ} :
    (Member.ofValues index now v).relativePath = v.relativePath := rfl

@[simp] theorem ofValues_index {index : ℕ} : (Member.ofValues index now v).index = index := rfl

/-- A member of the same path, at the same index and with the same choices. -/
structure Member.Same (m m' : Member) : Prop where
  path : m'.relativePath = m.relativePath
  index : m'.index = m.index
  role : m'.role = m.role
  isSample : m'.isSample = m.isSample

theorem Member.Same.refl (m : Member) : m.Same m := ⟨rfl, rfl, rfl, rfl⟩

theorem Member.Same.trans {m'' : Member} (h : m.Same m') (h' : m'.Same m'') : m.Same m'' :=
  ⟨h'.path.trans h.path, h'.index.trans h.index, h'.role.trans h.role,
    h'.isSample.trans h.isSample⟩

/-- A member is as it is listed. -/
structure Member.Lists (v : Values) (m : Member) : Prop where
  path : m.relativePath = v.relativePath
  size : m.sizeBytes = v.sizeBytes
  digest : m.sha256 = some v.sha256
  status : m.status = v.status

theorem lists_ofValues {index : ℕ} : (Member.ofValues index now v).Lists v := ⟨rfl, rfl, rfl, rfl⟩

theorem lists_update : (m.update now v).Lists v := by
  rw [Member.update]
  split_ifs with h
  · rw [← h]
    exact ⟨rfl, rfl, rfl, rfl⟩
  · exact ⟨rfl, rfl, rfl, rfl⟩

theorem same_update (h : m.relativePath = v.relativePath) : m.Same (m.update now v) := by
  rw [Member.update]
  split_ifs
  · exact Member.Same.refl m
  · exact ⟨h.symm, rfl, rfl, rfl⟩

theorem same_markRemoved (now : ℤ) (present : List String) (m : Member) :
    m.Same (markRemoved now present m) := by
  rw [markRemoved]
  split_ifs
  · exact ⟨rfl, rfl, rfl, rfl⟩
  · exact Member.Same.refl m

/-- What a scan makes of a known member, before members are removed. -/
def mergeKnown (now : ℤ) (rows : List Values) (m : Member) : Member :=
  rows.foldl (fun m v => if m.relativePath = v.relativePath then m.update now v else m) m

theorem mergeKnown_cons : mergeKnown now (v :: rows) m =
    mergeKnown now rows (if m.relativePath = v.relativePath then m.update now v else m) := rfl

theorem same_mergeKnown : m.Same (mergeKnown now rows m) := by
  induction rows generalizing m with
  | nil => exact Member.Same.refl m
  | cons v rows ih =>
    rw [mergeKnown_cons]
    split_ifs with h
    · exact (same_update h).trans ih
    · exact ih

theorem mergeKnown_of_notMem (h : m.relativePath ∉ rows.map Values.relativePath) :
    mergeKnown now rows m = m := by
  induction rows with
  | nil => rfl
  | cons v rows ih =>
    rw [List.map_cons, List.mem_cons, not_or] at h
    rw [mergeKnown_cons, if_neg h.1, ih h.2]

theorem lists_mergeKnown (hnodup : (rows.map Values.relativePath).Nodup) (hv : v ∈ rows)
    (h : m.relativePath = v.relativePath) : (mergeKnown now rows m).Lists v := by
  induction rows with
  | nil => cases hv
  | cons w rows ih =>
    obtain ⟨hw, hnodup⟩ := List.nodup_cons.1 hnodup
    rw [mergeKnown_cons]
    rcases List.mem_cons.1 hv with rfl | hv
    · rw [if_pos h, mergeKnown_of_notMem]
      · exact lists_update
      · rw [(same_update h).path, h]
        exact hw
    · rw [if_neg]
      · exact ih hnodup hv
      · rintro heq
        exact hw (heq ▸ h ▸ List.mem_map_of_mem hv)

/-! ## New members -/

theorem index_lt_nextIndex (h : m ∈ members) : m.index < nextIndex members := by
  rw [nextIndex]
  cases hmax : (members.map Member.index).max? with
  | none =>
    rw [List.max?_eq_none_iff, List.map_eq_nil_iff] at hmax
    exact absurd h (hmax ▸ List.not_mem_nil)
  | some index =>
    exact Nat.lt_succ_of_le ((List.max?_eq_some_iff.1 hmax).2 _ (List.mem_map_of_mem h))

/-- The listed files that are not of known members, numbered on. -/
def numbered (now : ℤ) (next : ℕ) (rows : List Values) : List Member :=
  (rows.zipIdx next).map fun p => Member.ofValues p.2 now p.1

def unknownRows (old : List Member) (rows : List Values) : List Values :=
  rows.filter fun v => v.relativePath ∉ old.map Member.relativePath

def knownRows (old : List Member) (rows : List Values) : List Values :=
  rows.filter fun v => v.relativePath ∈ old.map Member.relativePath

theorem knownRows_pos (h : v.relativePath ∈ old.map Member.relativePath) :
    knownRows old (v :: rows) = v :: knownRows old rows :=
  List.filter_cons_of_pos (decide_eq_true h)

theorem knownRows_neg (h : v.relativePath ∉ old.map Member.relativePath) :
    knownRows old (v :: rows) = knownRows old rows :=
  List.filter_cons_of_neg fun hv => h (of_decide_eq_true hv)

theorem unknownRows_pos (h : v.relativePath ∉ old.map Member.relativePath) :
    unknownRows old (v :: rows) = v :: unknownRows old rows :=
  List.filter_cons_of_pos (decide_eq_true h)

theorem unknownRows_neg (h : v.relativePath ∈ old.map Member.relativePath) :
    unknownRows old (v :: rows) = unknownRows old rows :=
  List.filter_cons_of_neg fun hv => of_decide_eq_true hv h

theorem map_index_numbered {next : ℕ} :
    (numbered now next rows).map Member.index = List.range' next rows.length := by
  rw [numbered, List.map_map]
  exact List.zipIdx_map_snd next rows

theorem map_path_numbered {next : ℕ} :
    (numbered now next rows).map Member.relativePath = rows.map Values.relativePath := by
  rw [numbered, List.map_map]
  conv_rhs => rw [← List.zipIdx_map_fst next rows, List.map_map]
  rfl

theorem mem_numbered {next : ℕ} (h : m ∈ numbered now next rows) : ∃ v ∈ rows, m.Lists v := by
  obtain ⟨⟨v, index⟩, hp, rfl⟩ := List.mem_map.1 h
  exact ⟨v, List.fst_mem_of_mem_zipIdx hp, lists_ofValues⟩

/-- A merge updates the known members and adds the others. -/
theorem foldl_mergeRow {added : List Member} {next : ℕ} (known : List Member)
    (hadded : ∀ m ∈ added, m.relativePath ∉ old.map Member.relativePath) :
    (rows.foldl (mergeRow old now) (known ++ added, next)).1 =
      known.map (mergeKnown now (knownRows old rows))
        ++ (added ++ numbered now next (unknownRows old rows)) := by
  induction rows generalizing known added next with
  | nil =>
    change known ++ added = known.map id ++ (added ++ [])
    rw [List.map_id, List.append_nil]
  | cons v rows ih =>
    rw [List.foldl_cons, mergeRow]
    by_cases hv : v.relativePath ∈ old.map Member.relativePath
    · have hfixed : added.map (fun m => if m.relativePath = v.relativePath then m.update now v
          else m) = added := by
        refine (List.map_congr_left ?_).trans (List.map_id added)
        intro m hm
        rw [if_neg]
        · rfl
        · rintro heq
          exact hadded m hm (heq ▸ hv)
      rw [if_pos hv, List.map_append, hfixed, ih _ hadded, List.map_map, knownRows_pos hv,
        unknownRows_neg hv]
      rfl
    · have hadded' : ∀ m ∈ added ++ [Member.ofValues next now v],
          m.relativePath ∉ old.map Member.relativePath := by
        intro m hm
        rcases List.mem_append.1 hm with hm | hm
        · exact hadded m hm
        · rw [List.mem_singleton.1 hm]
          exact hv
      rw [if_neg hv, List.append_assoc, ih _ hadded', knownRows_neg hv, unknownRows_pos hv,
        List.append_assoc]
      rfl

theorem storeMembers_eq : storeMembers old now rows =
    (old.map (mergeKnown now (knownRows old rows)) ++
      numbered now (nextIndex old) (unknownRows old rows)).map
        (markRemoved now (rows.map Values.relativePath)) := by
  have h : (rows.foldl (mergeRow old now) (old ++ [], nextIndex old)).1 = _ :=
    foldl_mergeRow old fun m hm => absurd hm List.not_mem_nil
  rw [List.append_nil, List.nil_append] at h
  rw [storeMembers, mergeRows, h]

/-! ## What a scan stores -/

/-- The members have different paths and different indices, as the table demands. -/
structure Distinct (members : List Member) : Prop where
  paths : (members.map Member.relativePath).Nodup
  indices : (members.map Member.index).Nodup

theorem distinct_nil : Distinct [] := ⟨List.nodup_nil, List.nodup_nil⟩

theorem Distinct.eq_of_path (h : Distinct members) (hm : m ∈ members) (hm' : m' ∈ members)
    (hpath : m.relativePath = m'.relativePath) : m = m' :=
  List.inj_on_of_nodup_map h.paths hm hm' hpath

theorem Distinct.eq_of_index (h : Distinct members) (hm : m ∈ members) (hm' : m' ∈ members)
    (hindex : m.index = m'.index) : m = m' :=
  List.inj_on_of_nodup_map h.indices hm hm' hindex

/-- What keeps the members' paths and indices keeps them distinct. -/
theorem Distinct.map {f : Member → Member} (h : Distinct members)
    (hf : ∀ m, (f m).relativePath = m.relativePath ∧ (f m).index = m.index) :
    Distinct (members.map f) := by
  refine ⟨?_, ?_⟩
  · rw [List.map_map]
    exact (List.map_congr_left fun m _ => (hf m).1) ▸ h.paths
  · rw [List.map_map]
    exact (List.map_congr_left fun m _ => (hf m).2) ▸ h.indices

theorem Distinct.append (h : Distinct old) (h' : Distinct members)
    (hpaths : ∀ m ∈ old, ∀ m' ∈ members, m.relativePath ≠ m'.relativePath)
    (hindices : ∀ m ∈ old, ∀ m' ∈ members, m.index ≠ m'.index) : Distinct (old ++ members) := by
  refine ⟨?_, ?_⟩
  · rw [List.map_append]
    refine List.nodup_append.2 ⟨h.paths, h'.paths, ?_⟩
    intro path hpath path' hpath'
    obtain ⟨m, hm, rfl⟩ := List.mem_map.1 hpath
    obtain ⟨m', hm', rfl⟩ := List.mem_map.1 hpath'
    exact hpaths m hm m' hm'
  · rw [List.map_append]
    refine List.nodup_append.2 ⟨h.indices, h'.indices, ?_⟩
    intro index hindex index' hindex'
    obtain ⟨m, hm, rfl⟩ := List.mem_map.1 hindex
    obtain ⟨m', hm', rfl⟩ := List.mem_map.1 hindex'
    exact hindices m hm m' hm'

theorem distinct_numbered {next : ℕ} (h : (rows.map Values.relativePath).Nodup) :
    Distinct (numbered now next rows) := by
  refine ⟨?_, ?_⟩
  · rw [map_path_numbered]
    exact h
  · rw [map_index_numbered]
    exact List.nodup_range'

theorem le_index_numbered {next : ℕ} (h : m ∈ numbered now next rows) : next ≤ m.index := by
  have hmem := List.mem_map_of_mem (f := Member.index) h
  rw [map_index_numbered, List.mem_range'_1] at hmem
  exact hmem.1

/-- New members get indices above all that were given before. -/
theorem distinct_storeMembers (hold : Distinct old) (hrows : Listing rows) :
    Distinct (storeMembers old now rows) := by
  have hknown : Distinct (old.map (mergeKnown now (knownRows old rows))) :=
    hold.map fun m => ⟨same_mergeKnown.path, same_mergeKnown.index⟩
  have hunknown : ((unknownRows old rows).map Values.relativePath).Nodup :=
    hrows.nodup.sublist (List.filter_sublist.map _)
  rw [storeMembers_eq]
  refine Distinct.map ?_ fun m => ⟨(same_markRemoved _ _ m).path, (same_markRemoved _ _ m).index⟩
  refine hknown.append (distinct_numbered hunknown) ?_ ?_
  · intro m₁ hm₁ m' hm' heq
    obtain ⟨m, hm, rfl⟩ := List.mem_map.1 hm₁
    obtain ⟨v, hv, hlists⟩ := mem_numbered hm'
    have hnew := of_decide_eq_true (List.mem_filter.1 hv).2
    rw [same_mergeKnown.path, hlists.path] at heq
    exact hnew (heq ▸ List.mem_map_of_mem hm)
  · intro m₁ hm₁ m' hm' heq
    obtain ⟨m, hm, rfl⟩ := List.mem_map.1 hm₁
    rw [same_mergeKnown.index] at heq
    exact absurd (index_lt_nextIndex hm) (not_lt.2 (heq ▸ le_index_numbered hm'))

/-- A member stays. -/
theorem exists_storeMembers (now : ℤ) (rows : List Values) (hm : m ∈ old) : ∃ m' ∈ storeMembers old now rows, m.Same m' := by
  rw [storeMembers_eq]
  exact ⟨_, List.mem_map_of_mem (List.mem_append_left _ (List.mem_map_of_mem hm)),
    same_mergeKnown.trans (same_markRemoved _ _ _)⟩

/-- What is in the listing is not marked removed, and what is not in it is. -/
theorem markRemoved_of_mem {present : List String} (h : m.relativePath ∈ present) :
    markRemoved now present m = m := if_neg fun hnot => hnot.1 h

theorem status_markRemoved {present : List String} (h : m.relativePath ∉ present) :
    (markRemoved now present m).status = .removed := by
  rw [markRemoved]
  split_ifs with hstatus
  · rfl
  · exact not_not.1 fun hne => hstatus ⟨h, hne⟩

/-- **The members that a scan leaves are what it listed.** -/
theorem mem_storeMembers (hrows : Listing rows) (hm : m ∈ storeMembers old now rows)
    (hstatus : m.status ≠ .removed) : ∃ v ∈ rows, m.Lists v := by
  rw [storeMembers_eq] at hm
  obtain ⟨m₀, hm₀, rfl⟩ := List.mem_map.1 hm
  by_cases hpath : m₀.relativePath ∈ rows.map Values.relativePath
  · rw [markRemoved_of_mem hpath]
    rcases List.mem_append.1 hm₀ with hknown | hnew
    · obtain ⟨m, hmold, rfl⟩ := List.mem_map.1 hknown
      obtain ⟨v, hv, hvpath⟩ := List.mem_map.1 hpath
      rw [same_mergeKnown.path] at hvpath
      have hvknown : v ∈ knownRows old rows :=
        List.mem_filter.2 ⟨hv, decide_eq_true (hvpath ▸ List.mem_map_of_mem hmold)⟩
      exact ⟨v, hv, lists_mergeKnown (hrows.nodup.sublist (List.filter_sublist.map _)) hvknown
        hvpath.symm⟩
    · obtain ⟨v, hv, hlists⟩ := mem_numbered hnew
      exact ⟨v, List.mem_of_mem_filter hv, hlists⟩
  · exact absurd (status_markRemoved hpath) hstatus

/-- **What a scan listed is among the members.** -/
theorem exists_lists (old : List Member) (now : ℤ) (hrows : Listing rows) (hv : v ∈ rows) :
    ∃ m ∈ storeMembers old now rows, m.Lists v := by
  have hstays : ∀ m₀, m₀.Lists v →
      markRemoved now (rows.map Values.relativePath) m₀ = m₀ := by
    intro m₀ h
    exact markRemoved_of_mem (h.path ▸ List.mem_map_of_mem hv)
  rw [storeMembers_eq]
  by_cases hold : v.relativePath ∈ old.map Member.relativePath
  · obtain ⟨m, hm, hpath⟩ := List.mem_map.1 hold
    have hlists : (mergeKnown now (knownRows old rows) m).Lists v :=
      lists_mergeKnown (hrows.nodup.sublist (List.filter_sublist.map _))
        (List.mem_filter.2 ⟨hv, decide_eq_true hold⟩) hpath
    exact ⟨_, List.mem_map.2 ⟨_, List.mem_append_left _ (List.mem_map_of_mem hm),
      hstays _ hlists⟩, hlists⟩
  · have hnew : v ∈ ((unknownRows old rows).zipIdx (nextIndex old)).map Prod.fst := by
      rw [List.zipIdx_map_fst]
      exact List.mem_filter.2 ⟨hv, decide_eq_true hold⟩
    obtain ⟨p, hp, rfl⟩ := List.mem_map.1 hnew
    exact ⟨_, List.mem_map.2 ⟨_, List.mem_append_right _ (List.mem_map_of_mem hp),
      hstays _ lists_ofValues⟩, lists_ofValues⟩

end

/-! ## Runs -/

def members : Option Registered → List Member
  | none => []
  | some dataset => dataset.members

inductive Event where
  | scan (rows : List Values)
  | patch (index : ℕ)
  | refused

/-- One transaction on a dataset.  A scan is of a directory or of an uploaded file. -/
inductive Step (env : Env) : Option Registered → Event → Option Registered → Prop
  | scan {s : Option Registered} {d : Registered} {root : Root} {now : ℤ} {createdAt : String}
    {entries : List Entry} {rows : List Values} : scanRoot env entries = .ok rows →
    registerDirectory env root now createdAt entries s = .ok d → Step env s (.scan rows) (some d)
  | upload {d d' : Registered} {root : Root} {now : ℤ} {createdAt filename : String}
    {reads : List Read} {v : Values} :
    registerUploadedFile env root now createdAt filename reads d = .ok (v, d') →
    Step env (some d) (.scan [v]) (some d')
  | patch {d d' : Registered} {index : ℕ} {now : ℤ} {patch : MemberPatch} :
    patchMember env index now patch d = .ok d' → Step env (some d) (.patch index) (some d')
  | refused {s : Option Registered} : Step env s .refused s

section
variable {env : Env} {rows : List Values} {now : ℤ}

theorem members_datasetOf {root : Root} {createdAt : String} {s : Option Registered} :
    (datasetOf root createdAt s).members = members s := by
  cases s <;> rfl

theorem members_refresh {d d' : Registered} (h : refreshDirectoryMetadata env d = .ok d') :
    d'.members = d.members := by
  rw [refreshDirectoryMetadata] at h
  split_ifs at h
  · rw [← Except.ok.inj h]
  · obtain ⟨manifest, -, h⟩ := Except.bind_eq_ok.1 h
    rw [← Except.ok.inj h]

theorem members_store {root : Root} {createdAt : String} {s : Option Registered} {d : Registered}
    (h : store env root now createdAt rows s = .ok d) :
    d.members = storeMembers (members s) now rows := by
  rw [store, Except.bind_eq_ok] at h
  obtain ⟨_, -, h⟩ := h
  rw [members_refresh h, members_datasetOf]

/-- A patch changes the choices of a member, and nothing else. -/
theorem members_patch {index : ℕ} {patch : MemberPatch} {d d' : Registered}
    (h : patchMember env index now patch d = .ok d') :
    ∃ role isSample, d'.members = d.members.map (Member.choose index role isSample now) := by
  simp only [patchMember, Except.bind_eq_ok, S3.check_ok, S3.found_ok] at h
  obtain ⟨_, -, _, -, m, -, _, -, h⟩ := h
  by_cases hroot : d.record.rootPath.getD "" = ""
  · rw [if_pos hroot] at h
    exact ⟨_, _, by rw [← Except.ok.inj h]⟩
  · rw [if_neg hroot] at h
    exact ⟨_, _, members_refresh h⟩

theorem choose_keeps {index : ℕ} {role : Role} {isSample : Bool} (m : Member) :
    (m.choose index role isSample now).relativePath = m.relativePath ∧
      (m.choose index role isSample now).index = m.index := by
  rw [Member.choose]
  split_ifs
  · exact ⟨rfl, rfl⟩
  · exact ⟨rfl, rfl⟩

/-- A scan stores a listing. -/
theorem step_scan {s s' : Option Registered} (h : Step env s (.scan rows) s') :
    Listing rows ∧ ∃ now, members s' = storeMembers (members s) now rows := by
  cases h with
  | @scan _ _ _ now _ _ _ hrows hstore =>
    rw [registerDirectory, hrows] at hstore
    exact ⟨scanRoot_listing hrows, now, members_store hstore⟩
  | @upload _ _ _ now _ _ _ v hstore =>
    simp only [registerUploadedFile, Except.bind_eq_ok, Except.pure_eq_ok, Except.ok.injEq,
      Prod.mk.injEq] at hstore
    obtain ⟨path, -, _, -, ⟨digest, info⟩, -, d', hstore, rfl, rfl⟩ := hstore
    refine ⟨⟨List.nodup_singleton _, ?_⟩, now, members_store hstore⟩
    intro v hv
    rw [List.mem_singleton.1 hv]
    exact Status.noConfusion

/-- What one transaction keeps. -/
theorem step_keeps {s s' : Option Registered} {e : Event} (hs : Distinct (members s))
    (h : Step env s e s') : Distinct (members s') ∧ ∀ m ∈ members s, ∃ m' ∈ members s',
      m'.relativePath = m.relativePath ∧ m'.index = m.index := by
  cases e with
  | scan rows =>
    obtain ⟨hrows, now, hmembers⟩ := step_scan h
    rw [hmembers]
    refine ⟨distinct_storeMembers hs hrows, ?_⟩
    intro m hm
    obtain ⟨m', hm', hsame⟩ := exists_storeMembers now rows hm
    exact ⟨m', hm', hsame.path, hsame.index⟩
  | patch index =>
    cases h with
    | patch hpatch =>
      obtain ⟨role, isSample, hmembers⟩ := members_patch hpatch
      rw [members, members, hmembers]
      exact ⟨hs.map choose_keeps, fun m hm => ⟨_, List.mem_map_of_mem hm, choose_keeps m⟩⟩
  | refused =>
    cases h with
    | refused => exact ⟨hs, fun m hm => ⟨m, hm, rfl, rfl⟩⟩

theorem run_distinct {s s' : Option Registered} {es : List Event} (hs : Distinct (members s))
    (h : Run (Step env) s es s') : Distinct (members s') := by
  induction h with
  | nil => exact hs
  | cons hstep _ ih => exact ih (step_keeps hs hstep).1

/-- What a run keeps. -/
theorem run_keeps {s s' : Option Registered} {es : List Event} (hs : Distinct (members s))
    (h : Run (Step env) s es s') : ∀ m ∈ members s, ∃ m' ∈ members s',
      m'.relativePath = m.relativePath ∧ m'.index = m.index := by
  induction h with
  | nil => exact fun m hm => ⟨m, hm, rfl, rfl⟩
  | cons hstep _ ih =>
    intro m hm
    obtain ⟨ht, hkeeps⟩ := step_keeps hs hstep
    obtain ⟨m', hm', hpath, hindex⟩ := hkeeps m hm
    obtain ⟨m'', hm'', hpath', hindex'⟩ := ih ht m' hm'
    exact ⟨m'', hm'', hpath'.trans hpath, hindex'.trans hindex⟩

/-- **Over any run of scans, a path keeps its index and no other path gets it, and a scan
    keeps the choices of the members and leaves what it listed.** -/
theorem members_across_scans {s t u : Option Registered} {es es' : List Event}
    (hs : Distinct (members s)) (h : Run (Step env) s es t) (h' : Run (Step env) t es' u) :
    Distinct (members u) ∧
      (∀ m ∈ members t, ∃ m' ∈ members u,
        m'.relativePath = m.relativePath ∧ m'.index = m.index) ∧
      (∀ m ∈ members t, ∀ m' ∈ members u,
        m.relativePath = m'.relativePath ↔ m.index = m'.index) ∧
      ∀ rows w, Step env u (.scan rows) w →
        (∀ m ∈ members u, ∀ m' ∈ members w, m.relativePath = m'.relativePath →
          m'.role = m.role ∧ m'.isSample = m.isSample) ∧
        ∀ path size digest,
          (∃ m ∈ members w, m.status ≠ .removed ∧ m.relativePath = path ∧ m.sizeBytes = size ∧
            m.sha256 = digest) ↔
          ∃ v ∈ rows, v.relativePath = path ∧ v.sizeBytes = size ∧ some v.sha256 = digest := by
  have ht := run_distinct hs h
  have hu := run_distinct ht h'
  have hkeeps := run_keeps ht h'
  refine ⟨hu, hkeeps, ?_, ?_⟩
  · intro m hm m' hm'
    obtain ⟨m'', hm'', hpath, hindex⟩ := hkeeps m hm
    constructor
    · intro heq
      rw [← hu.eq_of_path hm'' hm' (hpath.trans heq), hindex]
    · intro heq
      rw [← hu.eq_of_index hm'' hm' (hindex.trans heq), hpath]
  · intro rows w hstep
    have hw := (step_keeps hu hstep).1
    obtain ⟨hrows, now, hmembers⟩ := step_scan hstep
    refine ⟨?_, ?_⟩
    · intro m hm m' hm' heq
      obtain ⟨m'', hm'', hsame⟩ := exists_storeMembers now rows hm
      rw [← hmembers] at hm''
      rw [← hw.eq_of_path hm'' hm' (hsame.path.trans heq)]
      exact ⟨hsame.role, hsame.isSample⟩
    · intro path size digest
      rw [hmembers]
      constructor
      · rintro ⟨m, hm, hstatus, rfl, rfl, rfl⟩
        obtain ⟨v, hv, hlists⟩ := mem_storeMembers hrows hm hstatus
        exact ⟨v, hv, hlists.path.symm, hlists.size.symm, hlists.digest.symm⟩
      · rintro ⟨v, hv, rfl, rfl, rfl⟩
        obtain ⟨m, hm, hlists⟩ := exists_lists (members u) now hrows hv
        exact ⟨m, hm, hlists.status ▸ hrows.status v hv, hlists.path, hlists.size, hlists.digest⟩

end

section

/-- Tables of text without capitals and combining characters. -/
def plainEnv : Env := ⟨id, id, id, id, 10, 1000, 3⟩

/-- A file that does not change while it is read. -/
def plainFile (name : String) : Entry :=
  let stat : Stat := ⟨1, 1, 5, 0, 0⟩
  let read : Read := ⟨stat, true, String.ofList (List.replicate 64 '0'), 5, stat, stat⟩
  .file name [read, read]

def plainScan (entries : List Entry) (s : Option Registered) : Except Raised Registered :=
  registerDirectory plainEnv ⟨"/data", "data"⟩ 0 "" entries s

theorem step_plainScan {entries : List Entry} {s : Option Registered} {d : Registered}
    (h : plainScan entries s = .ok d) :
    ∃ rows, scanRoot plainEnv entries = .ok rows ∧ Step plainEnv s (.scan rows) (some d) := by
  have hscan := h
  rw [plainScan, registerDirectory, Except.bind_eq_ok] at hscan
  obtain ⟨rows, hrows, -⟩ := hscan
  exact ⟨rows, hrows, .scan hrows h⟩

/-- A file goes, another one comes, and the first comes back. -/
theorem members_across_scans_return : ∃ (d d' : Registered) (es es' : List Event),
    Run (Step plainEnv) none es (some d) ∧ Run (Step plainEnv) (some d) es' (some d') ∧
      es.length = 1 ∧ es'.length = 2 ∧
      ∀ m ∈ d.members, ∀ m' ∈ d'.members, m.relativePath = m'.relativePath ↔ m.index = m'.index := by
  have hscans : (do
      let d ← plainScan [plainFile "b.txt"] none
      let d' ← plainScan [plainFile "a.txt"] (some d)
      plainScan [plainFile "a.txt", plainFile "b.txt"] (some d')).isOk = true := by
    decide +kernel
  obtain ⟨d'', h⟩ := Except.exists_of_isOk hscans
  simp only [Except.bind_eq_ok] at h
  obtain ⟨d, h, d', h', h''⟩ := h
  obtain ⟨rows, -, hstep⟩ := step_plainScan h
  obtain ⟨rows', -, hstep'⟩ := step_plainScan h'
  obtain ⟨rows'', -, hstep''⟩ := step_plainScan h''
  refine ⟨d, d'', _, _, .cons hstep .nil, .cons hstep' (.cons hstep'' .nil), rfl, rfl, ?_⟩
  have hempty : Distinct (members none) := distinct_nil
  exact (members_across_scans hempty (.cons hstep .nil) (.cons hstep' (.cons hstep'' .nil))).2.2.1

end

end Directory

end AimData
