/-
  The offline queue: usage entries in a file of lines, the calls that append to it, and
  the flushes that send its entries.

  A flush reads the file, sends the entries one by one, and then clears the file and
  writes the entries back that were not accepted.  An entry stays in the file or is
  accepted, unless it is appended while a flush is under way, is appended to a line that
  a crash left unfinished, or is to be written back when a crash comes.
-/
import AimData.Lib.LineLog
import AimData.Lib.Run
import AimData.Lib.Json

namespace AimData

namespace Serial

/-! ## The file -/

def maxQueueEntries : ℕ := 50

/-- A usage entry; it is a JSON object. -/
abbrev Entry := List (String × Json)

/-- `append` -/
def append (file : LineLog Entry) (entry : Entry) : Bool × LineLog Entry :=
  if file.count ≥ maxQueueEntries then (false, file) else (true, file.write entry)

/-- The loop that writes the remaining entries back. -/
def appendAll (file : LineLog Entry) (entries : List Entry) : LineLog Entry :=
  entries.foldl (fun file entry => (append file entry).2) file

/-- `clear`, which only logs that it failed. -/
def clear (removed : Bool) (file : LineLog Entry) : LineLog Entry :=
  if removed then .empty else file

/-! ## Calls to the server -/

/-- The arguments of a metering call, as a flush makes them of an entry. -/
structure MeterCall where
  category : Json
  costUsd : Json
  requestId : Json
  description : Json
  deriving DecidableEq

/-- The call for an entry, which raises without a request id. -/
def meterCall (entry : Entry) : Option MeterCall := do
  return {
    category := (entry.lookup "category").getD (.str "setup")
    costUsd := (entry.lookup "cost_usd").getD (.str "0.00")
    requestId := ← entry.lookup "request_id"
    description := (entry.lookup "description").getD (.str "offline-queued") }

/-- `result.status_code in (200, 409)` -/
def isAccepted (statusCode : ℕ) : Bool := statusCode = 200 ∨ statusCode = 409

/-- A flush that waits for the answer to the first entry that it has not sent. -/
structure Flush where
  entries : List Entry
  sent : ℕ

/-- The file, the entries that the server has accepted, the flushes under way, and, for the
    statements, the entries for which `append` returned true: all of them, and those since a
    flush has read the file. -/
structure System where
  file : LineLog Entry
  accepted : List Entry
  flushes : ℕ → Option Flush
  queued : List Entry
  late : ℕ → List Entry

def System.start : System := ⟨.empty, [], fun _ => none, [], fun _ => []⟩

/-- What remains is written back to the cleared file. -/
def rewritten (removed : Bool) (file : LineLog Entry) (flush : Flush) : LineLog Entry :=
  appendAll (clear removed file) (flush.entries.drop flush.sent)

inductive Event where
  | append (entry : Entry) (result : Bool)
  | tear (entry : Entry) (complete : Bool)
  | flush (i : ℕ)
  | accept (i : ℕ)
  | finish (i : ℕ) (removed : Bool)
  | abort (i : ℕ)
  | crash
  | tearRewrite (i : ℕ) (written : ℕ) (text : Option Entry)
  deriving DecidableEq

inductive Step : System → Event → System → Prop
  | append {s : System} {entry : Entry} :
    Step s (.append entry (append s.file entry).1)
      { s with
        file := (append s.file entry).2
        queued := if (append s.file entry).1 then entry :: s.queued else s.queued
        late := fun i => if (append s.file entry).1 then entry :: s.late i else s.late i }
  /-- The write of an append stops, with all or a part of the entry written. -/
  | tear {s : System} {entry : Entry} {complete : Bool} : s.file.count < maxQueueEntries →
    Step s (.tear entry complete)
      { s with file := s.file.tear (if complete then some entry else none) }
  | flush {s : System} {i : ℕ} : s.flushes i = none → s.file.readAll ≠ [] →
    Step s (.flush i)
      { s with
        flushes := Function.update s.flushes i (some ⟨s.file.readAll, 0⟩)
        late := Function.update s.late i [] }
  /-- The server answers that it has the entry, and the next one is sent. -/
  | accept {s : System} {i : ℕ} {flush : Flush} {entry : Entry} {call : MeterCall}
    {statusCode : ℕ} : s.flushes i = some flush → flush.entries[flush.sent]? = some entry →
    meterCall entry = some call → isAccepted statusCode = true →
    flush.sent + 1 < flush.entries.length →
    Step s (.accept i)
      { s with
        accepted := entry :: s.accepted
        flushes := Function.update s.flushes i (some { flush with sent := flush.sent + 1 }) }
  /-- It answers so to the last entry. -/
  | last {s : System} {i : ℕ} {flush : Flush} {entry : Entry} {call : MeterCall}
    {statusCode : ℕ} {removed : Bool} : s.flushes i = some flush →
    flush.entries[flush.sent]? = some entry → meterCall entry = some call →
    isAccepted statusCode = true → flush.sent + 1 = flush.entries.length →
    Step s (.finish i removed)
      { s with
        file := clear removed s.file
        accepted := entry :: s.accepted
        flushes := Function.update s.flushes i none }
  /-- It gives another answer, whether the entry arrived or not. -/
  | refuse {s : System} {i : ℕ} {flush : Flush} {entry : Entry} {call : MeterCall}
    {statusCode : ℕ} {arrived removed : Bool} : s.flushes i = some flush →
    flush.entries[flush.sent]? = some entry → meterCall entry = some call →
    isAccepted statusCode = false →
    Step s (.finish i removed)
      { s with
        file := rewritten removed s.file flush
        accepted := if arrived then entry :: s.accepted else s.accepted
        flushes := Function.update s.flushes i none }
  /-- A call raises. -/
  | abort {s : System} {i : ℕ} {flush : Flush} : s.flushes i = some flush →
    Step s (.abort i) { s with flushes := Function.update s.flushes i none }
  | crash {s : System} : Step s .crash { s with flushes := fun _ => none }
  /-- After the file was cleared, writing back stops part-way. -/
  | tearRewrite {s : System} {i : ℕ} {flush : Flush} {written : ℕ} {text : Option Entry} :
    s.flushes i = some flush → written < (flush.entries.drop flush.sent).length →
    Step s (.tearRewrite i written text)
      { s with
        file := (appendAll .empty ((flush.entries.drop flush.sent).take written)).tear text
        flushes := Function.update s.flushes i none }

/-! ## No entry is lost -/

/-- Every queued entry is accepted or still read from the file. -/
def NoneLost (s : System) : Prop := ∀ entry ∈ s.queued, entry ∈ s.accepted ∨ entry ∈ s.file.readAll

/-- Nothing is appended to an unfinished line, no entry was queued since a flush that clears
    the file has read it, and writing back is not stopped. -/
def Careful (s : System) : Event → Prop
  | .append _ result => result = true → s.file.tail = none
  | .finish i removed => removed = true → s.late i = []
  | .tearRewrite _ _ _ => False
  | _ => True

/-- A flush under way has read every queued entry that is not accepted, unless it was
    queued later, and has got all accepted that it has sent. -/
structure FlushInv (s : System) (i : ℕ) (flush : Flush) : Prop where
  read : ∀ entry ∈ s.queued,
    entry ∈ s.accepted ∨ entry ∈ flush.entries ∨ entry ∈ s.late i
  sent : ∀ entry ∈ flush.entries.take flush.sent, entry ∈ s.accepted
  length : flush.entries.length ≤ maxQueueEntries

/-- What holds of the system while all steps are careful. -/
structure Inv (s : System) : Prop where
  held : ∀ entry ∈ s.queued, entry ∈ s.accepted ∨ some entry ∈ s.file.lines
  count : s.file.count ≤ maxQueueEntries
  flushes : ∀ i flush, s.flushes i = some flush → FlushInv s i flush

section
variable {file : LineLog Entry} {entry other : Entry} {entries : List Entry} {s s' : System}
  {e : Event} {es : List Event}

theorem mem_append (h : some other ∈ file.lines) : some other ∈ (append file entry).2.lines := by
  rw [append]
  split_ifs
  · exact h
  · exact LineLog.mem_write h

theorem count_append (h : file.count ≤ maxQueueEntries) :
    (append file entry).2.count ≤ maxQueueEntries := by
  rw [append]
  split_ifs with hfull
  · exact h
  · exact LineLog.count_write_le.trans (not_le.1 hfull)

theorem mem_appendAll (h : some other ∈ file.lines) :
    some other ∈ (appendAll file entries).lines := by
  induction entries generalizing file with
  | nil => exact h
  | cons entry entries ih => exact ih (mem_append h)

theorem count_appendAll (h : file.count ≤ maxQueueEntries) :
    (appendAll file entries).count ≤ maxQueueEntries := by
  induction entries generalizing file with
  | nil => exact h
  | cons entry entries ih => exact ih (count_append h)

/-- Entries that fit are all written. -/
theorem lines_appendAll (htail : file.tail = none)
    (h : file.lines.length + entries.length ≤ maxQueueEntries) :
    (appendAll file entries).lines = file.lines ++ entries.map some := by
  induction entries generalizing file with
  | nil => exact (List.append_nil _).symm
  | cons entry entries ih =>
    rw [List.length_cons] at h
    have hroom : ¬ file.count ≥ maxQueueEntries := by
      rw [LineLog.count, htail]
      simp only [Option.toList_none, List.length_nil]
      omega
    have hwrite : (append file entry).2 = file.write entry := by rw [append, if_neg hroom]
    have hlines := LineLog.lines_write (a := entry) htail
    change (appendAll (append file entry).2 entries).lines = _
    rw [hwrite, ih LineLog.tail_write, hlines, List.append_assoc]
    · rfl
    · rw [hlines, List.length_append, List.length_singleton]
      omega

theorem update_cases {flushes : ℕ → Option Flush} {i j : ℕ} {o : Option Flush} {flush : Flush}
    (h : Function.update flushes i o j = some flush) :
    (j = i ∧ o = some flush) ∨ (j ≠ i ∧ flushes j = some flush) := by
  by_cases heq : j = i
  · exact Or.inl ⟨heq, by rwa [heq, Function.update_self] at h⟩
  · exact Or.inr ⟨heq, by rwa [Function.update_of_ne heq] at h⟩

/-- What a flush has not sent holds every queued entry that is not accepted. -/
theorem FlushInv.mem_drop {i : ℕ} {flush : Flush} (h : FlushInv s i flush)
    (hlate : s.late i = []) (hentry : entry ∈ s.queued) :
    entry ∈ s.accepted ∨ entry ∈ flush.entries.drop flush.sent := by
  rcases h.read entry hentry with hacc | hread | hlate'
  · exact Or.inl hacc
  · rw [← List.take_append_drop flush.sent flush.entries] at hread
    exact (List.mem_append.1 hread).imp_left (h.sent entry)
  · exact absurd (hlate ▸ hlate') List.not_mem_nil

/-- More may be accepted. -/
theorem FlushInv.mono {i : ℕ} {flush : Flush} (h : FlushInv s i flush)
    (hqueued : s'.queued = s.queued) (hlate : s'.late i = s.late i)
    (hacc : ∀ entry ∈ s.accepted, entry ∈ s'.accepted) : FlushInv s' i flush := by
  refine ⟨?_, fun entry hentry => hacc entry (h.sent entry hentry), h.length⟩
  intro entry hentry
  rw [hlate]
  exact (h.read entry (hqueued ▸ hentry)).imp_left (hacc entry)

/-- The file after a flush that lost nothing. -/
theorem Inv.rewritten (h : Inv s) {i : ℕ} {flush : Flush} {removed : Bool}
    (hflush : s.flushes i = some flush) (hlate : removed = true → s.late i = []) :
    (∀ entry ∈ s.queued, entry ∈ s.accepted ∨
      some entry ∈ (rewritten removed s.file flush).lines) ∧
      (rewritten removed s.file flush).count ≤ maxQueueEntries := by
  rw [Serial.rewritten]
  cases removed with
  | false =>
    exact ⟨fun entry hentry => (h.held entry hentry).imp_right mem_appendAll,
      count_appendAll h.count⟩
  | true =>
    refine ⟨?_, count_appendAll (Nat.zero_le _)⟩
    intro entry hentry
    refine ((h.flushes i flush hflush).mem_drop (hlate rfl) hentry).imp_right ?_
    intro hdrop
    have hfits : (LineLog.empty : LineLog Entry).lines.length +
        (flush.entries.drop flush.sent).length ≤ maxQueueEntries := by
      rw [List.length_drop]
      have hlength := (h.flushes i flush hflush).length
      change 0 + _ ≤ _
      omega
    rw [clear, if_pos rfl, lines_appendAll rfl hfits]
    exact List.mem_append_right _ (List.mem_map_of_mem hdrop)

/-- The end of a flush, with no more accepted than before or some. -/
theorem Inv.finish (h : Inv s) {i : ℕ} {file : LineLog Entry} {accepted : List Entry}
    (hacc : ∀ entry ∈ s.accepted, entry ∈ accepted)
    (hheld : ∀ entry ∈ s.queued, entry ∈ accepted ∨ some entry ∈ file.lines)
    (hcount : file.count ≤ maxQueueEntries) :
    Inv { s with
      file := file
      accepted := accepted
      flushes := Function.update s.flushes i none } := by
  refine ⟨hheld, hcount, ?_⟩
  intro j flush hj
  rcases update_cases hj with ⟨-, hnone⟩ | ⟨-, hj⟩
  · cases hnone
  · exact (h.flushes j flush hj).mono rfl rfl hacc

theorem inv_start : Inv .start where
  held := fun _ h => absurd h List.not_mem_nil
  count := Nat.zero_le _
  flushes := fun _ _ h => nomatch h

theorem Inv.append (h : Inv s) (hcareful : (append s.file entry).1 = true → s.file.tail = none) :
    Inv { s with
      file := (append s.file entry).2
      queued := if (append s.file entry).1 then entry :: s.queued else s.queued
      late := fun i => if (append s.file entry).1 then entry :: s.late i else s.late i } := by
  by_cases hresult : (Serial.append s.file entry).1 = true
  · have hwrite : (Serial.append s.file entry).2 = s.file.write entry := by
      rw [Serial.append] at hresult ⊢
      split_ifs at hresult ⊢
      rfl
    have hlines := LineLog.lines_write (a := entry) (hcareful hresult)
    simp only [hresult, if_true]
    refine ⟨?_, count_append h.count, ?_⟩
    · intro other hother
      rw [hwrite, hlines]
      rcases List.mem_cons.1 hother with rfl | hother
      · exact Or.inr (List.mem_append_right _ List.mem_cons_self)
      · exact (h.held other hother).imp_right (List.mem_append_left _)
    · intro i flush hi
      refine ⟨?_, (h.flushes i flush hi).sent, (h.flushes i flush hi).length⟩
      intro other hother
      rcases List.mem_cons.1 hother with rfl | hother
      · exact Or.inr (Or.inr List.mem_cons_self)
      · exact ((h.flushes i flush hi).read other hother).imp_right
          (Or.imp_right (List.mem_cons_of_mem _))
  · simp only [hresult]
    exact ⟨fun other hother => (h.held other hother).imp_right mem_append, count_append h.count,
      fun i flush hi => (h.flushes i flush hi).mono rfl rfl fun _ => id⟩

/-- A careful step keeps the invariant. -/
theorem Inv.step (h : Inv s) (hstep : Step s e s') (hcareful : Careful s e) : Inv s' := by
  cases hstep with
  | append => exact h.append hcareful
  | tear hroom =>
    refine ⟨?_, LineLog.count_tear_le.trans hroom, fun i flush hi =>
      (h.flushes i flush hi).mono rfl rfl fun _ => id⟩
    intro other hother
    rw [LineLog.lines_tear]
    exact h.held other hother
  | @flush i hnone hsome =>
    refine ⟨h.held, h.count, ?_⟩
    intro j flush hj
    rcases update_cases hj with ⟨rfl, hread⟩ | ⟨hne, hj⟩
    · cases hread
      refine ⟨?_, fun _ hmem => absurd hmem List.not_mem_nil,
        LineLog.length_readAll_le.trans h.count⟩
      intro other hother
      exact (h.held other hother).imp_right fun hline => Or.inl (LineLog.mem_readAll hline)
    · exact (h.flushes j flush hj).mono rfl (Function.update_of_ne hne ..) fun _ => id
  | @accept i flush entry call statusCode hflush hentry hcall hok hmore =>
    have hacc : ∀ other ∈ s.accepted, other ∈ entry :: s.accepted :=
      fun other => List.mem_cons_of_mem _
    refine ⟨fun other hother => (h.held other hother).imp_left (hacc other), h.count, ?_⟩
    intro j flush' hj
    rcases update_cases hj with ⟨rfl, hsent⟩ | ⟨-, hj⟩
    · cases hsent
      have hinv := h.flushes j flush hflush
      refine ⟨fun other hother => (hinv.read other hother).imp_left (hacc other), ?_, hinv.length⟩
      intro other hother
      rw [List.take_add_one, hentry] at hother
      rcases List.mem_append.1 hother with hother | hother
      · exact hacc other (hinv.sent other hother)
      · exact List.mem_cons.2 (Or.inl (List.mem_singleton.1 hother))
    · exact (h.flushes j flush' hj).mono rfl rfl hacc
  | @last i flush entry call statusCode removed hflush hentry hcall hok hlast =>
    have hdrop : flush.entries.drop flush.sent = [entry] := by
      obtain ⟨hlt, hget⟩ := List.getElem?_eq_some_iff.1 hentry
      rw [List.drop_eq_getElem_cons hlt, hget, hlast, List.drop_length]
    refine h.finish (fun _ => List.mem_cons_of_mem _) ?_ ?_
    · intro other hother
      cases removed with
      | false => exact (h.held other hother).imp_left (List.mem_cons_of_mem _)
      | true =>
        rcases (h.flushes i flush hflush).mem_drop (hcareful rfl) hother with hacc | hrest
        · exact Or.inl (List.mem_cons_of_mem _ hacc)
        · rw [hdrop, List.mem_singleton] at hrest
          exact Or.inl (List.mem_cons.2 (Or.inl hrest))
    · cases removed with
      | false => exact h.count
      | true => exact Nat.zero_le _
  | @refuse i flush entry call statusCode arrived removed hflush hentry hcall hbad =>
    obtain ⟨hheld, hcount⟩ := h.rewritten hflush hcareful
    have hacc : ∀ other ∈ s.accepted,
        other ∈ if arrived = true then entry :: s.accepted else s.accepted := by
      intro other hother
      split_ifs
      · exact List.mem_cons_of_mem _ hother
      · exact hother
    exact h.finish hacc (fun other hother => (hheld other hother).imp_left (hacc other)) hcount
  | abort hflush => exact h.finish (fun _ => id) h.held h.count
  | crash => exact ⟨h.held, h.count, fun _ _ hj => nomatch hj⟩
  | tearRewrite => exact False.elim hcareful

/-- **In a run of careful steps no entry is lost.** -/
theorem none_lost_of_careful (h : Run (fun s e s' => Step s e s' ∧ Careful s e) .start es s) :
    NoneLost s := by
  have hinv : Inv s := Run.invariant (fun hinv hstep => Inv.step hinv hstep.1 hstep.2) h inv_start
  exact fun entry hentry => (hinv.held entry hentry).imp_right LineLog.mem_readAll

end

def usage (requestId : String) : Entry := [("request_id", .str requestId)]

/-- An entry that is sent before the next one is queued. -/
theorem none_lost_of_careful_sent : ∃ s, Run (fun s e s' => Step s e s' ∧ Careful s e) .start
    [.append (usage "a") true, .flush 0, .finish 0 true, .append (usage "b") true] s ∧
      s.accepted = [usage "a"] ∧ NoneLost s := by
  have hrun : Run (fun s e s' => Step s e s' ∧ Careful s e) .start
      [.append (usage "a") true, .flush 0, .finish 0 true, .append (usage "b") true] _ :=
    .cons ⟨.append, fun _ => rfl⟩ (.cons ⟨.flush rfl (List.cons_ne_nil _ _), trivial⟩
      (.cons ⟨@Step.last _ _ _ (usage "a") _ 200 true rfl rfl rfl rfl rfl, fun _ => rfl⟩
        (.cons ⟨.append, fun _ => rfl⟩ .nil)))
  exact ⟨_, hrun, rfl, none_lost_of_careful hrun⟩

/-- An entry that is queued while the one before it is sent. -/
theorem late_entry_lost : ∃ s, Run Step .start
    [.append (usage "a") true, .flush 0, .append (usage "b") true, .finish 0 true] s ∧
      usage "b" ∈ s.queued ∧ usage "b" ∉ s.accepted ∧ s.file.readAll = [] ∧ ¬ NoneLost s := by
  have hrun : Run Step .start
      [.append (usage "a") true, .flush 0, .append (usage "b") true, .finish 0 true] _ :=
    .cons .append (.cons (.flush rfl (List.cons_ne_nil _ _)) (.cons .append
      (.cons (@Step.last _ _ _ (usage "a") _ 200 true rfl rfl rfl rfl rfl) .nil)))
  have hqueued : usage "b" ∈ [usage "b", usage "a"] := List.mem_cons_self
  have haccepted : usage "b" ∉ [usage "a"] := by decide
  refine ⟨_, hrun, hqueued, haccepted, rfl, ?_⟩
  intro h
  rcases h _ hqueued with hmem | hmem
  · exact haccepted hmem
  · exact List.not_mem_nil hmem

end Serial

end AimData
