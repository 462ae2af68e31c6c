/-
  What a journal keeps, over every sequence of calls.

  A committed transaction either inserts a row in `building` or moves one row
  along `transitions` (`Change`); the invariant and what later journals keep are
  read off this, once for all operations.
-/
import AimData.Preview.Lifecycle

namespace AimData

namespace Lifecycle

open Contract

/-! ## What a transaction changes -/

/-- A move of a row along the table. -/
structure Moves (row row' : Row) : Prop where
  candidate : row'.candidate = row.candidate
  request : row.request ≠ none → row'.request = row.request ∧ row'.digest = row.digest
  state : row'.state ∈ transitions row.state
  signed : row'.state = .signedCandidate → row'.request ≠ none
  retired : row'.state = .retired → row'.receipts ≠ none

/-- A row is moved, and the move is logged. -/
def Journal.move (j : Journal) (key : Key) (row row' : Row) : Journal :=
  { j.put key row' with transitions := j.transitions ++ [⟨key, row.state, row'.state⟩] }

inductive Change : Journal → Journal → Prop
  | insert {j : Journal} {key : Key} {row : Row} : j.candidates key = none →
    row.state = .building → Change j (j.put key row)
  | move {j : Journal} {key : Key} {row row' : Row} : j.candidates key = some row →
    Moves row row' → Change j (j.move key row row')

theorem put_put (j : Journal) (key : Key) (row row' : Row) :
    (j.put key row).put key row' = j.put key row' := by
  rw [Journal.put, Journal.put, Journal.put, Function.update_idem]

theorem candidates_put (j : Journal) (key : Key) (row : Row) :
    (j.put key row).candidates key = some row := Function.update_self ..

theorem candidates_put_of_ne {key key' : Key} (h : key' ≠ key) (j : Journal) (row : Row) :
    (j.put key row).candidates key' = j.candidates key' := Function.update_of_ne h ..

/-- `_transition` moves the row. -/
theorem transitionRow_ok {key : Key} {new : Option State} {j j' : Journal} {u : Unit}
    (h : transitionRow key new j = .ok (u, j')) :
    ∃ row state, j.candidates key = some row ∧ new = some state ∧
      state ∈ transitions row.state ∧ (state = .signedCandidate → row.request ≠ none) ∧
      j' = j.move key row { row with state := state } := by
  unfold transitionRow at h
  split at h
  · rename_i row state hrow
    by_cases hstate : state ∉ transitions row.state
    · rw [if_pos hstate] at h
      cases h
    · rw [if_neg hstate] at h
      by_cases hrequest : state = .signedCandidate ∧ row.request = none
      · rw [if_pos hrequest] at h
        cases h
      · rw [if_neg hrequest] at h
        cases h
        exact ⟨row, state, hrow, rfl, not_not.1 hstate, fun hs hr => hrequest ⟨hs, hr⟩, rfl⟩
  · cases h

theorem transaction_cases {α : Type} (fault : Option Raised)
    (body : Journal → Except Raised (α × Journal)) (j : Journal) :
    (∃ a j', body j = .ok (a, j') ∧ transaction fault body j = (.ok a, j')) ∨
      ∃ e, transaction fault body j = (.error e, j) := by
  unfold transaction
  cases hbody : body j with
  | error e => exact Or.inr ⟨e, rfl⟩
  | ok r =>
    cases fault with
    | none => exact Or.inl ⟨r.1, r.2, rfl, rfl⟩
    | some e => exact Or.inr ⟨e, rfl⟩

theorem insertCandidate_ok {key key' : Key} {candidate : LocalCandidate} {j j' : Journal}
    (h : insertCandidate key candidate j = .ok (key', j')) : j' = j ∨ Change j j' := by
  unfold insertCandidate at h
  split at h
  · rename_i old hold
    by_cases hconflict : old.candidate ≠ candidate.bindingBytes
    · rw [if_pos hconflict] at h
      cases h
    · rw [if_neg hconflict] at h
      cases h
      exact Or.inl rfl
  · rename_i hnone
    cases h
    exact Or.inr (.insert hnone rfl)

/-- A move of a row that was first updated, in one. -/
theorem change_of_update {key : Key} {state : State} {row row₁ : Row} {j j' : Journal} {u : Unit}
    (hrow : j.candidates key = some row)
    (h : transitionRow key (some state) (j.put key row₁) = .ok (u, j'))
    (hstate : row₁.state = row.state)
    (hmoves : state ∈ transitions row.state → (state = .signedCandidate → row₁.request ≠ none) →
      Moves row { row₁ with state := state }) : Change j j' := by
  obtain ⟨row', state', hrow', hstate', hmem, hsigned, rfl⟩ := transitionRow_ok h
  cases hstate'
  rw [candidates_put] at hrow'
  cases hrow'
  have hmove : (j.put key row₁).move key row₁ { row₁ with state := state } =
      j.move key row { row₁ with state := state } := by
    rw [Journal.move, Journal.move, put_put, hstate]
    rfl
  rw [hmove]
  exact .move hrow (hmoves (hstate ▸ hmem) hsigned)

theorem transition_change {key : Key} {state : State} {j j' : Journal} {u : Unit}
    (hretired : state ≠ .retired) (h : transitionRow key (some state) j = .ok (u, j')) :
    Change j j' := by
  obtain ⟨row, state', hrow, hstate, hmem, hsigned, rfl⟩ := transitionRow_ok h
  cases hstate
  exact .move hrow ⟨rfl, fun _ => ⟨rfl, rfl⟩, hmem, hsigned, fun h => absurd h hretired⟩

section
variable {nfc : String → String} {validateUrl : String → Bool}

theorem freezeRow_ok {key : Key} {binding : Json} {raw : Bytes} {digest : String}
    {frozen : Bytes × String} {j j' : Journal}
    (h : freezeRow nfc key binding raw digest j = .ok (frozen, j')) : j' = j ∨ Change j j' := by
  unfold freezeRow at h
  split at h
  · cases h
  · rename_i old hold
    obtain ⟨candidate, -, h⟩ := Except.bind_eq_ok.1 h
    by_cases hchanged : old.candidate ≠ candidate.bindingBytes
    · rw [if_pos hchanged] at h
      cases h
    · rw [if_neg hchanged] at h
      split at h
      · rename_i request hrequest
        by_cases hconflict : request ≠ raw ∨ old.digest ≠ some digest
        · rw [if_pos hconflict] at h
          cases h
        · rw [if_neg hconflict] at h
          cases h
          exact Or.inl rfl
      · rename_i hrequest
        obtain ⟨⟨u, j₁⟩, hmove, h⟩ := Except.bind_eq_ok.1 h
        cases h
        refine Or.inr (change_of_update hold hmove rfl ?_)
        intro hmem hsigned
        exact ⟨rfl, fun hne => absurd hrequest hne, hmem, hsigned, fun h => by cases h⟩

theorem retireRow_ok {key : Key} {receipts receipts' : Json} {origin : String} {j j' : Journal}
    (h : retireRow key receipts origin j = .ok (receipts', j')) : Change j j' := by
  unfold retireRow at h
  obtain ⟨bytes, -, h⟩ := Except.bind_eq_ok.1 h
  simp only at h
  split at h
  · cases h
  · rename_i row hrow
    obtain ⟨⟨u, j₁⟩, hmove, h⟩ := Except.bind_eq_ok.1 h
    cases h
    refine change_of_update hrow hmove rfl ?_
    intro hmem hsigned
    refine ⟨rfl, fun _ => ⟨rfl, rfl⟩, hmem, ?_, ?_⟩
    · intro h
      cases h
    · intro _ h
      cases h

/-! ## What a call changes -/

/-- What a call leaves: the journal as it was, or with one change; a `retire` first
    moves its row to `retirement_pending`. -/
inductive Leaves (j : Journal) : Except Raised Unit × Journal → Prop
  | same {r : Except Raised Unit} : Leaves j (r, j)
  | changed {u : Unit} {j' : Journal} : Change j j' → Leaves j (.ok u, j')

/-- One committed transaction, or none. -/
theorem leaves_transaction {α : Type} {fault : Option Raised}
    {body : Journal → Except Raised (α × Journal)} {j : Journal}
    (hbody : ∀ a j', body j = .ok (a, j') → j' = j ∨ Change j j') :
    Leaves j (outcome (transaction fault body j)) := by
  rcases transaction_cases fault body j with ⟨a, j', hok, h⟩ | ⟨e, h⟩
  · rw [h]
    rcases hbody a j' hok with rfl | hchange
    · exact .same
    · exact .changed hchange
  · rw [h]
    exact .same

theorem leaves_start (fault : Option Raised) (candidate : LocalCandidate) (j : Journal) :
    Leaves j (outcome (start nfc fault candidate j)) := by
  unfold start
  split
  · exact leaves_transaction fun _ _ h => insertCandidate_ok h
  · exact .same

theorem leaves_freeze (fault : Option Raised) (key : Key) (request : Json) (j : Journal) :
    Leaves j (outcome (freeze nfc validateUrl fault key request j)) := by
  unfold freeze
  extract_lets checked
  cases checked with
  | error e => exact .same
  | ok r => exact leaves_transaction fun _ _ h => freezeRow_ok h

theorem leaves_transition (fault : Option Raised) (key : Key) (state : Option State)
    (j : Journal) : Leaves j (outcome (transition fault key state j)) := by
  rw [transition]
  split_ifs with hevidence
  · exact .same
  · refine leaves_transaction fun u j' h => Or.inr ?_
    cases state with
    | none =>
      obtain ⟨_, _, _, hstate, -⟩ := transitionRow_ok h
      cases hstate
    | some state =>
      refine transition_change ?_ h
      rintro rfl
      exact hevidence (List.mem_cons_of_mem _ List.mem_cons_self)

theorem leaves_read (fault : Option Raised) (key : Key) (j : Journal) :
    Leaves j (outcome (read fault key j)) := by
  refine leaves_transaction fun row j' h => Or.inl ?_
  split at h
  · cases h
    rfl
  · cases h

theorem leaves_finish (fault : Option Raised) (key : Key) (r : Retirement) (j : Journal) :
    Leaves j (outcome (finishRetirement validateUrl fault key r j)) := by
  unfold finishRetirement
  split
  · exact leaves_transaction fun _ _ h => Or.inr (retireRow_ok h)
  · exact .same

/-- The row that a raising `retire` may leave. -/
def Pending (key : Key) (j j' : Journal) : Prop :=
  ∃ row, j.candidates key = some row ∧
    j' = j.move key row { row with state := .retirementPending } ∧ Change j j'

/-- What `retire` leaves: one of its two transactions, both, or none. -/
inductive LeavesRetired (key : Key) (j : Journal) : Except Raised Unit × Journal → Prop
  | same {r : Except Raised Unit} : LeavesRetired key j (r, j)
  | changed {u : Unit} {j' : Journal} : Change j j' → LeavesRetired key j (.ok u, j')
  | pending {r : Except Raised Unit} {j' : Journal} : Pending key j j' →
    LeavesRetired key j (r, j')
  | retired {u : Unit} {j' j'' : Journal} : Pending key j j' → Change j' j'' →
    LeavesRetired key j (.ok u, j'')

theorem Leaves.retires {key : Key} {j : Journal} {r : Except Raised Unit × Journal}
    (h : Leaves j r) : LeavesRetired key j r := by
  cases h with
  | same => exact .same
  | changed hchange => exact .changed hchange

theorem Leaves.pending {key : Key} {j j' : Journal} {r : Except Raised Unit × Journal}
    (h : Leaves j' r) (hpend : Pending key j j') : LeavesRetired key j r := by
  cases h with
  | same => exact .pending hpend
  | changed hchange => exact .retired hpend hchange

theorem LeavesRetired.changes {key : Key} {j : Journal} {r : Except Raised Unit × Journal}
    (h : LeavesRetired key j r) : Relation.ReflTransGen Change j r.2 := by
  cases h with
  | same => exact .refl
  | changed hchange => exact .single hchange
  | pending hpend =>
    obtain ⟨_, -, -, hchange⟩ := hpend
    exact .single hchange
  | retired hpend hchange' =>
    obtain ⟨_, -, -, hchange⟩ := hpend
    exact .tail (.single hchange) hchange'

theorem transition_pending (fault : Option Raised) (key : Key) (j : Journal) :
    (∃ u j', transition fault key (some .retirementPending) j = (.ok u, j') ∧ Pending key j j') ∨
      ∃ e, transition fault key (some .retirementPending) j = (.error e, j) := by
  have hplain : transition fault key (some .retirementPending) j =
      transaction fault (transitionRow key (some .retirementPending)) j := by
    rw [transition, if_neg (by decide)]
  rw [hplain]
  rcases transaction_cases fault (transitionRow key (some .retirementPending)) j with
    ⟨u, j', hok, h⟩ | ⟨e, h⟩
  · obtain ⟨row, state, hrow, hstate, -, -, hmoved⟩ := transitionRow_ok hok
    cases hstate
    exact Or.inl ⟨u, j', h, row, hrow, hmoved, transition_change (by decide) hok⟩
  · exact Or.inr ⟨e, h⟩

theorem leaves_retire (faultRead faultPending fault : Option Raised) (key : Key) (r : Retirement)
    (j : Journal) : LeavesRetired key j
      (outcome (retire validateUrl faultRead faultPending fault key r j)) := by
  unfold retire
  split
  · exact .same
  · rename_i row hread
    split
    · exact .same
    · split_ifs with hretired horigin hpending
      · exact .same
      · exact .same
      · rcases transition_pending faultPending key j with ⟨u, j', hmoved, hpend⟩ | ⟨e, hmoved⟩
        · rw [hmoved]
          exact (leaves_finish fault key r j').pending hpend
        · rw [hmoved]
          exact .same
      · exact (leaves_finish fault key r j).retires

/-- Every call is at most two changes. -/
theorem changes_call (j : Journal) (c : Call) :
    Relation.ReflTransGen Change j (c.run nfc validateUrl j).2 := by
  have hleaves : ∀ {r : Except Raised Unit × Journal}, Leaves j r →
      Relation.ReflTransGen Change j r.2 := by
    intro r h
    cases h with
    | same => exact .refl
    | changed hchange => exact .single hchange
  cases c with
  | start fault candidate => exact hleaves (leaves_start fault candidate j)
  | transition fault key state => exact hleaves (leaves_transition fault key state j)
  | freeze fault key request => exact hleaves (leaves_freeze fault key request j)
  | read fault key => exact hleaves (leaves_read fault key j)
  | retire faultRead faultPending fault key r =>
    exact (leaves_retire faultRead faultPending fault key r j).changes
  | reopen => exact .refl

/-! ## The invariant -/

/-- The moves of a row that are logged. -/
def Journal.log (j : Journal) (key : Key) : List (State × State) :=
  (j.transitions.filter fun t => t.key = key).map fun t => (t.oldState, t.newState)

/-- A path in the table of transitions. -/
def Path : State → List (State × State) → State → Prop
  | s, [], s' => s = s'
  | s, (old, new) :: l, s' => old = s ∧ new ∈ transitions old ∧ Path new l s'

/-- The states whose rows have a frozen request. -/
def frozenStates : List State :=
  [.signedCandidate, .submitted, .submissionUnknown, .withdrawalPending]

structure RowInv (row : Row) (log : List (State × State)) : Prop where
  frozen : row.state ∈ frozenStates → row.request ≠ none
  retired : row.state = .retired → row.receipts ≠ none
  path : Path .building log row.state

structure RowsInv (j : Journal) : Prop where
  row : ∀ key row, j.candidates key = some row → RowInv row (j.log key)
  absent : ∀ key, j.candidates key = none → j.log key = []

/-- What later journals keep of a row. -/
structure RowKept (row row' : Row) : Prop where
  candidate : row'.candidate = row.candidate
  request : row.request ≠ none → row'.request = row.request ∧ row'.digest = row.digest
  retired : row.state = .retired → row' = row

def Kept (j j' : Journal) : Prop :=
  ∀ key row, j.candidates key = some row →
    ∃ row', j'.candidates key = some row' ∧ RowKept row row'

theorem Path.snoc {new : State} : ∀ {l : List (State × State)} {s s' : State}, Path s l s' →
    new ∈ transitions s' → Path s (l ++ [(s', new)]) new
  | [], _, _, rfl, hnew => ⟨rfl, hnew, rfl⟩
  | (_, _) :: _, _, _, ⟨hold, hmem, hpath⟩, hnew => ⟨hold, hmem, hpath.snoc hnew⟩

theorem log_move {j : Journal} {key : Key} {row row' : Row} (key' : Key) :
    (j.move key row row').log key' =
      if key = key' then j.log key' ++ [(row.state, row'.state)] else j.log key' := by
  rw [Journal.log, Journal.move, List.filter_append, List.map_append]
  split_ifs with h
  · rw [List.filter_singleton, decide_eq_true h]
    rfl
  · rw [List.filter_singleton, decide_eq_false h]
    exact List.append_nil _

/-- From a frozen state only a frozen state or one without a request to keep is reached. -/
theorem frozen_of_transition {s s' : State} (h : s' ∈ transitions s) (hs' : s' ∈ frozenStates)
    (hsigned : s' ≠ .signedCandidate) : s ∈ frozenStates := by
  cases s <;> cases s' <;> simp_all [transitions, frozenStates]

theorem RowInv.moves {row row' : Row} {log : List (State × State)} (h : RowInv row log)
    (hmoves : Moves row row') : RowInv row' (log ++ [(row.state, row'.state)]) := by
  refine ⟨?_, hmoves.retired, h.path.snoc hmoves.state⟩
  intro hfrozen
  by_cases hsigned : row'.state = .signedCandidate
  · exact hmoves.signed hsigned
  · have hrequest := h.frozen (frozen_of_transition hmoves.state hfrozen hsigned)
    rw [(hmoves.request hrequest).1]
    exact hrequest

/-- **A change keeps the invariant.** -/
theorem rowsInv_change {j j' : Journal} (h : RowsInv j) (hchange : Change j j') : RowsInv j' := by
  cases hchange with
  | @insert key row hnone hbuilding =>
    refine ⟨?_, ?_⟩
    · intro key' row' hrow'
      by_cases hkey : key' = key
      · subst hkey
        rw [candidates_put] at hrow'
        cases hrow'
        refine ⟨?_, ?_, ?_⟩
        · intro hfrozen
          rw [hbuilding] at hfrozen
          exact absurd hfrozen (by decide)
        · intro hretired
          rw [hbuilding] at hretired
          cases hretired
        · show Path .building (j.log key') row.state
          rw [h.absent key' hnone, hbuilding]
          rfl
      · rw [candidates_put_of_ne hkey] at hrow'
        exact h.row key' row' hrow'
    · intro key' hnone'
      by_cases hkey : key' = key
      · subst hkey
        exact h.absent key' hnone
      · rw [candidates_put_of_ne hkey] at hnone'
        exact h.absent key' hnone'
  | @move key row row' hrow hmoves =>
    refine ⟨?_, ?_⟩
    · intro key' row'' hrow''
      rw [log_move]
      by_cases hkey : key' = key
      · subst hkey
        rw [Journal.move, candidates_put] at hrow''
        cases hrow''
        rw [if_pos rfl]
        exact (h.row key' row hrow).moves hmoves
      · rw [Journal.move, candidates_put_of_ne hkey] at hrow''
        rw [if_neg fun h => hkey h.symm]
        exact h.row key' row'' hrow''
    · intro key' hnone
      rw [log_move]
      by_cases hkey : key' = key
      · subst hkey
        rw [Journal.move, candidates_put] at hnone
        cases hnone
      · rw [Journal.move, candidates_put_of_ne hkey] at hnone
        rw [if_neg fun h => hkey h.symm]
        exact h.absent key' hnone

theorem RowKept.refl (row : Row) : RowKept row row := ⟨rfl, fun _ => ⟨rfl, rfl⟩, fun _ => rfl⟩

theorem RowKept.trans {row row' row'' : Row} (h : RowKept row row') (h' : RowKept row' row'') :
    RowKept row row'' := by
  refine ⟨h'.candidate.trans h.candidate, ?_, ?_⟩
  · intro hrequest
    obtain ⟨hr, hd⟩ := h.request hrequest
    obtain ⟨hr', hd'⟩ := h'.request (hr ▸ hrequest)
    exact ⟨hr'.trans hr, hd'.trans hd⟩
  · intro hretired
    have hrow := h.retired hretired
    rw [← hrow]
    exact h'.retired (hrow ▸ hretired)

theorem Kept.refl (j : Journal) : Kept j j := fun _ row hrow => ⟨row, hrow, .refl row⟩

theorem Kept.trans {j j' j'' : Journal} (h : Kept j j') (h' : Kept j' j'') : Kept j j'' := by
  intro key row hrow
  obtain ⟨row', hrow', hkept⟩ := h key row hrow
  obtain ⟨row'', hrow'', hkept'⟩ := h' key row' hrow'
  exact ⟨row'', hrow'', hkept.trans hkept'⟩

/-- **A change keeps every row**, but for its state and what it did not have. -/
theorem kept_change {j j' : Journal} (hchange : Change j j') : Kept j j' := by
  intro key' row'' hrow''
  cases hchange with
  | @insert key row hnone _ =>
    have hkey : key' ≠ key := by
      rintro rfl
      rw [hnone] at hrow''
      cases hrow''
    exact ⟨row'', (candidates_put_of_ne hkey j row).trans hrow'', .refl row''⟩
  | @move key row row' hrow hmoves =>
    by_cases hkey : key' = key
    · subst hkey
      rw [hrow] at hrow''
      cases hrow''
      refine ⟨row', candidates_put j key' row', hmoves.candidate, hmoves.request, ?_⟩
      intro hretired
      have hstate := hmoves.state
      rw [hretired] at hstate
      cases hstate
    · exact ⟨row'', (candidates_put_of_ne hkey j row').trans hrow'', .refl row''⟩

theorem kept_changes {j j' : Journal} (h : Relation.ReflTransGen Change j j') : Kept j j' := by
  induction h with
  | refl => exact .refl j
  | tail _ hchange ih => exact ih.trans (kept_change hchange)

theorem Leaves.kept {j : Journal} {r : Except Raised Unit × Journal} (h : Leaves j r) :
    Kept j r.2 := by
  cases h with
  | same => exact .refl j
  | changed hchange => exact kept_change hchange

theorem kept_start (fault : Option Raised) (candidate : LocalCandidate) (j : Journal) :
    Kept j (start nfc fault candidate j).2 := (leaves_start fault candidate j).kept

theorem kept_transition (fault : Option Raised) (key : Key) (state : Option State) (j : Journal) :
    Kept j (transition fault key state j).2 := (leaves_transition fault key state j).kept

theorem kept_freeze (fault : Option Raised) (key : Key) (request : Json) (j : Journal) :
    Kept j (freeze nfc validateUrl fault key request j).2 := (leaves_freeze fault key request j).kept

theorem kept_read (fault : Option Raised) (key : Key) (j : Journal) :
    Kept j (read fault key j).2 := (leaves_read fault key j).kept

theorem kept_retire (faultRead faultPending fault : Option Raised) (key : Key) (r : Retirement)
    (j : Journal) : Kept j (retire validateUrl faultRead faultPending fault key r j).2 :=
  kept_changes (leaves_retire faultRead faultPending fault key r j).changes

/-- What many changes keep. -/
theorem changes_keep {j j' : Journal} (h : Relation.ReflTransGen Change j j') (hj : RowsInv j) :
    RowsInv j' ∧ Kept j j' := by
  induction h with
  | refl => exact ⟨hj, .refl j⟩
  | tail _ hchange ih => exact ⟨rowsInv_change ih.1 hchange, ih.2.trans (kept_change hchange)⟩

/-- A row that is read is in the journal. -/
theorem read_ok {fault : Option Raised} {key : Key} {row : Row} {j j' : Journal}
    (h : read fault key j = (.ok row, j')) : j' = j ∧ j.candidates key = some row := by
  unfold read transaction at h
  dsimp only at h
  cases hrow : j.candidates key with
  | none =>
    rw [hrow] at h
    cases h
  | some row' =>
    rw [hrow] at h
    cases fault with
    | none =>
      cases h
      exact ⟨rfl, rfl⟩
    | some e => cases h

end

/-! ## Runs -/

/-- What a raising call leaves. -/
def Untouched (j j' : Journal) : Call → Prop
  | .retire _ _ _ key _ =>
    (∀ key', key' ≠ key → j'.candidates key' = j.candidates key') ∧
      (j' = j ∨ ∃ row, j.candidates key = some row ∧
        j'.candidates key = some { row with state := .retirementPending })
  | _ => j' = j

theorem Leaves.untouched {j : Journal} {r : Except Raised Unit × Journal} {e : Raised}
    (h : Leaves j r) (he : r.1 = .error e) : r.2 = j := by
  cases h with
  | same => rfl
  | changed => cases he

theorem untouched_call {nfc : String → String} {validateUrl : String → Bool} {j : Journal}
    {c : Call} {e : Raised} (he : (c.run nfc validateUrl j).1 = .error e) :
    Untouched j (c.run nfc validateUrl j).2 c := by
  cases c with
  | start fault candidate => exact (leaves_start fault candidate j).untouched he
  | transition fault key state => exact (leaves_transition fault key state j).untouched he
  | freeze fault key request => exact (leaves_freeze fault key request j).untouched he
  | read fault key => exact (leaves_read fault key j).untouched he
  | reopen => cases he
  | retire faultRead faultPending fault key r =>
    have h : LeavesRetired key j (Call.run nfc validateUrl j
        (.retire faultRead faultPending fault key r)) :=
      leaves_retire faultRead faultPending fault key r j
    revert h he
    generalize Call.run nfc validateUrl j (.retire faultRead faultPending fault key r) = final
    intro he h
    cases h with
    | same => exact ⟨fun _ _ => rfl, Or.inl rfl⟩
    | changed => cases he
    | retired => cases he
    | pending hpend =>
      obtain ⟨row, hrow, rfl, -⟩ := hpend
      refine ⟨fun key' hkey => candidates_put_of_ne hkey j _, Or.inr ⟨row, hrow, ?_⟩⟩
      exact candidates_put j key _

theorem runCalls_keep (nfc : String → String) (validateUrl : String → Bool) :
    ∀ (calls : List Call) {j : Journal}, RowsInv j →
      RowsInv (runCalls nfc validateUrl j calls) ∧ Kept j (runCalls nfc validateUrl j calls)
  | [], j, hj => ⟨hj, .refl j⟩
  | c :: calls, j, hj => by
    have hchanges : Relation.ReflTransGen Change j (c.run nfc validateUrl j).2 := changes_call j c
    obtain ⟨hinv, hkept⟩ := changes_keep hchanges hj
    obtain ⟨hend, hkept'⟩ := runCalls_keep nfc validateUrl calls hinv
    exact ⟨hend, hkept.trans hkept'⟩

/-- **The journal is safe.**  After every sequence of calls, every row has what its
    state needs, and its log is a path in the table; later calls keep its candidate and
    its frozen request, and a retired row as it is; and a call that raises leaves the
    rows untouched, a `retire` but for its own row's state. -/
theorem journal_safe (nfc : String → String) (validateUrl : String → Bool)
    (calls later : List Call) (c : Call) :
    let j := runCalls nfc validateUrl .empty calls
    RowsInv j ∧ Kept j (runCalls nfc validateUrl j later) ∧
      ∀ e, (c.run nfc validateUrl j).1 = .error e → Untouched j (c.run nfc validateUrl j).2 c := by
  intro j
  have hempty : RowsInv .empty := by
    refine ⟨?_, fun key _ => rfl⟩
    intro key row hrow
    cases hrow
  have hj : RowsInv j := (runCalls_keep nfc validateUrl calls hempty).1
  exact ⟨hj, (runCalls_keep nfc validateUrl later hj).2, fun e he => untouched_call he⟩

end Lifecycle

end AimData
