/-
  What a manifest delivery has done when it sends `complete`.

  The invariant ties the cursor of `stream` to the phase: the positions to send
  are those of the ended windows, of the window under way and of the rest, in
  this order; and in the window under way a message that is no longer pending
  was answered, or the window is covered.
-/
import AimData.Fulfillment.Manifest

namespace AimData

namespace Fulfillment

open TrustChannel (Dict get)

/-! ## Windows that have ended -/

/-- The data of a reply that is no refusal: an acknowledgement, or a success. -/
def Positive (data : Dict) : Prop :=
  get data "action" = ackAction ∨ get data "success" = .bool true

/-- One of the replies answers the request, successfully. -/
def Answered (id : String) (replies : List Dict) : Prop :=
  ∃ reply ∈ replies, get reply "request_id" = .str id ∧
    ∃ data, resultOf reply = .ok data ∧ Positive data

/-- An acknowledgement of the transfer through an index, or further. -/
def CoversThrough (transferId : String) (index : ℕ) (reply : Dict) : Prop :=
  ∃ data, resultOf reply = .ok data ∧ get data "action" = ackAction ∧
    get data "transfer_id" = .str transferId ∧
    ∃ acked : ℤ, get data "acked_through_index" = .int acked ∧ (index : ℤ) ≤ acked

/-- Each message of the window was answered, or an acknowledgement covers it. -/
structure Ended.Settled (w : Ended) : Prop where
  size : w.messages.length ≤ windowSize
  last : w.expected = lastIndex (w.messages.map Prod.fst)
  message : ∀ m ∈ w.messages,
    Answered m.2 w.replies ∨ ∃ reply ∈ w.replies, CoversThrough w.transferId w.expected reply

/-- The chunks of the ended windows. -/
def Phase.done (p : Phase) : List Position :=
  p.ended.flatMap fun w => w.messages.map fun m => m.1.position

/-- What is on the channel since the phase began. -/
def Sender.since (s : Sender) (p : Phase) : List Wire := s.wire.drop p.start

/-- **Every chunk of every member that is not verified** was sent since the latest
    metadata reply, in a settled window of the transfer. -/
def Delivered (d : Delivery) (s : Sender) : Prop :=
  ∃ p, s.phase = some p ∧
    ∀ m ∈ d.plan, (m.index : ℤ) ∉ p.verified → ∀ position ∈ m.positions,
      ∃ w ∈ p.ended, w.Settled ∧ w.transferId = s.transferId ∧
        ∃ c ∈ w.messages, c.1.position = position ∧ .chunk c.1 c.2 ∈ s.since p

/-! ## The invariant -/

/-- The windows of the phase were sent, and have settled. -/
def PhaseSettled (s : Sender) : Prop :=
  ∀ p, s.phase = some p → p.start ≤ s.wire.length ∧ ∀ w ∈ p.ended,
    w.Settled ∧ w.transferId = s.transferId ∧ ∀ m ∈ w.messages, .chunk m.1 m.2 ∈ s.since p

/-- The phase has sent everything. -/
def Done (d : Delivery) (s : Sender) : Prop :=
  ∃ p, s.phase = some p ∧ d.positions p.verified = p.done

/-- Where `complete` comes next. -/
def ManifestPc.completing : ManifestPc → Bool
  | .top needMetadata | .pausing needMetadata => !needMetadata
  | .request .complete | .reply .complete => true
  | _ => false

/-- The chunks of a window. -/
def Window.chunks (w : Window) : List ManifestChunk := w.sent.map Prod.fst ++ w.todo.map Prod.fst

/-- What holds of the window under way. -/
structure WindowInv (d : Delivery) (s : Sender) (w : Window) (st : Streaming) : Prop where
  cursor : ∃ p, s.phase = some p ∧
    d.positions p.verified = p.done ++ w.chunks.map ManifestChunk.position ++ st.rest
  size : w.chunks.length ≤ windowSize
  last : w.expected = lastIndex w.chunks
  empty : st.window = []
  progress : ∀ m ∈ w.sent, m.2 ∈ w.pending ∨ Answered m.2 w.replies ∨
    ∃ reply ∈ w.replies, CoversThrough s.transferId w.expected reply
  wire : ∀ p, s.phase = some p → ∀ m ∈ w.sent, .chunk m.1 m.2 ∈ s.since p

structure SenderInv (d : Delivery) (s : Sender) : Prop where
  settled : PhaseSettled s
  complete : s.pc.completing = true → Done d s
  stream : ∀ st, s.pc = .stream st → st.window.length < windowSize ∧ ∃ p, s.phase = some p ∧
    d.positions p.verified = p.done ++ st.window.map ManifestChunk.position ++ st.rest
  window : ∀ w st, s.pc = .window w st → WindowInv d s w st

section
variable {settings : Settings} {d : Delivery}

theorem PhaseSettled.congr {s s' : Sender} (h : PhaseSettled s) (hphase : s'.phase = s.phase)
    (htransfer : s'.transferId = s.transferId) (hwire : s'.wire = s.wire) : PhaseSettled s' := by
  intro p hp
  rw [htransfer, Sender.since, hwire]
  exact h p (hphase ▸ hp)

theorem mem_since_puts {s : Sender} {p : Phase} {m : Wire} (message : Wire) (h : m ∈ s.since p) :
    m ∈ (s.puts message).since p := by
  rw [Sender.since, Sender.puts, List.drop_append]
  exact List.mem_append_left _ h

theorem PhaseSettled.puts {s : Sender} (h : PhaseSettled s) (message : Wire) :
    PhaseSettled (s.puts message) := by
  intro p hp
  refine ⟨?_, fun w hw => ?_⟩
  · rw [Sender.puts, List.length_append]
    exact Nat.le_add_right_of_le (h p hp).1
  · obtain ⟨hsettled, htransfer, hwire⟩ := (h p hp).2 w hw
    exact ⟨hsettled, htransfer, fun m hm => mem_since_puts message (hwire m hm)⟩

/-- A sender that is not inside of `stream`. -/
theorem SenderInv.of_pc {s : Sender} (hs : PhaseSettled s)
    (hc : s.pc.completing = true → Done d s) (hstream : ∀ st, s.pc ≠ .stream st)
    (hwindow : ∀ w st, s.pc ≠ .window w st) : SenderInv d s :=
  ⟨hs, hc, fun st h => absurd h (hstream st), fun w st h => absurd h (hwindow w st)⟩

/-- What the handlers of `run` leave. -/
structure Handled (stage : Stage) (s s' : Sender) : Prop where
  phase : s'.phase = s.phase
  transferId : s'.transferId = s.transferId
  inbox : s'.inbox = s.inbox
  wire : s'.wire = s.wire
  pc : (∃ e, s'.pc = .raised e) ∨ ∃ needMetadata,
    (s'.pc = .top needMetadata ∨ s'.pc = .pausing needMetadata) ∧
      (needMetadata = false → stage = .complete)

theorem handled_pause (s : Sender) (now : ℚ) {stage : Stage} {needMetadata : Bool}
    (h : needMetadata = false → stage = .complete) :
    Handled stage s (s.pause settings now needMetadata) := by
  refine ⟨rfl, rfl, rfl, rfl, ?_⟩
  by_cases hb : (s.startBudget settings now).overBudget now = true
  · refine Or.inl ⟨budgetExhausted, ?_⟩
    rw [Sender.pause]
    exact if_pos hb
  · refine Or.inr ⟨needMetadata, Or.inr ?_, h⟩
    rw [Sender.pause]
    exact if_neg hb

theorem Handled.of_startBudget {stage : Stage} {s s' : Sender} {now : ℚ}
    (h : Handled stage (s.startBudget settings now) s') : Handled stage s s' :=
  ⟨h.phase, h.transferId, h.inbox, h.wire, h.pc⟩

/-- **The handlers** raise, or go back to the head of the loop; to `complete` only
    from an exchange of `complete`. -/
theorem handled (s : Sender) (now : ℚ) (stage : Stage) (e : Raised) :
    Handled stage s (s.handle settings now stage e) := by
  have hraised : ∀ e, Handled stage s { s with pc := .raised e } :=
    fun e => ⟨rfl, rfl, rfl, rfl, Or.inl ⟨e, rfl⟩⟩
  rw [Sender.handle]
  by_cases hrefusal : e.type = "Refusal"
  · rw [if_pos hrefusal]
    have hneed : decide (¬ (stage = .complete ∧ e.message = "finalizing")) = false →
        stage = .complete := by
      intro h
      exact (not_not.1 (of_decide_eq_false h)).1
    by_cases hcode : e.message ∉ retryCodes
    · rw [if_pos hcode]
      exact hraised e
    · rw [if_neg hcode]
      by_cases hbusy : e.message ∈ ["listener_busy", "finalizing"]
      · rw [if_pos hbusy]
        exact (handled_pause (s.startBudget settings now) now hneed).of_startBudget
      · rw [if_neg hbusy]
        exact ⟨rfl, rfl, rfl, rfl, Or.inr ⟨_, Or.inl rfl, hneed⟩⟩
  · rw [if_neg hrefusal]
    by_cases htimeout : e.type = "TimeoutError"
    · rw [if_pos htimeout]
      by_cases hchunk : stage = .chunk
      · rw [if_pos hchunk]
        exact hraised e
      · rw [if_neg hchunk]
        by_cases hover : (s.startBudget settings now).overBudget now = true
        · rw [if_pos hover]
          exact ⟨rfl, rfl, rfl, rfl, Or.inl ⟨_, rfl⟩⟩
        · rw [if_neg hover]
          by_cases hcomplete : stage = .complete
          · rw [if_pos hcomplete]
            exact (handled_pause (s.startBudget settings now) now fun _ => hcomplete).of_startBudget
          · rw [if_neg hcomplete]
            exact ⟨rfl, rfl, rfl, rfl, Or.inr ⟨true, Or.inl rfl, fun h => by cases h⟩⟩
    · rw [if_neg htimeout]
      by_cases hconnection : e.type = "ConnectionError"
      · rw [if_pos hconnection]
        exact handled_pause s now fun h => by cases h
      · rw [if_neg hconnection]
        exact hraised e

theorem Handled.inv {stage : Stage} {s s' : Sender} (h : Handled stage s s') (hs : PhaseSettled s)
    (hc : stage = .complete → Done d s) : SenderInv d s' := by
  have hsettled : PhaseSettled s' := hs.congr h.phase h.transferId h.wire
  rcases h.pc with ⟨e, he⟩ | ⟨need, hpc, hneed⟩
  · refine .of_pc hsettled ?_ ?_ ?_
    · intro hcomplete
      rw [he] at hcomplete
      cases hcomplete
    · intro st hst
      rw [he] at hst
      cases hst
    · intro w st hst
      rw [he] at hst
      cases hst
  · have hdone : s'.pc.completing = true → Done d s' := by
      intro hcomplete
      have hfalse : need = false := by
        rcases hpc with hpc | hpc
        · rw [hpc] at hcomplete
          simpa [ManifestPc.completing] using hcomplete
        · rw [hpc] at hcomplete
          simpa [ManifestPc.completing] using hcomplete
      obtain ⟨p, hp, hpos⟩ := hc (hneed hfalse)
      exact ⟨p, h.phase ▸ hp, hpos⟩
    refine .of_pc hsettled hdone ?_ ?_
    · intro st hst
      rcases hpc with hpc | hpc
      · rw [hpc] at hst
        cases hst
      · rw [hpc] at hst
        cases hst
    · intro w st hst
      rcases hpc with hpc | hpc
      · rw [hpc] at hst
        cases hst
      · rw [hpc] at hst
        cases hst

/-! ## The parts of a step -/

/-- The invariant reads the phase, the transfer's id and where the run stands. -/
theorem SenderInv.congr {s s' : Sender} (h : SenderInv d s) (hphase : s'.phase = s.phase)
    (htransfer : s'.transferId = s.transferId) (hwire : s'.wire = s.wire) (hpc : s'.pc = s.pc) :
    SenderInv d s' := by
  refine ⟨h.settled.congr hphase htransfer hwire, ?_, ?_, ?_⟩
  · intro hc
    obtain ⟨p, hp, hpos⟩ := h.complete (hpc ▸ hc)
    exact ⟨p, hphase ▸ hp, hpos⟩
  · intro st hst
    obtain ⟨hlt, p, hp, hpos⟩ := h.stream st (hpc ▸ hst)
    exact ⟨hlt, p, hphase ▸ hp, hpos⟩
  · intro w st hst
    have hw := h.window w st (hpc ▸ hst)
    obtain ⟨p, hp, hpos⟩ := hw.cursor
    refine ⟨⟨p, hphase ▸ hp, hpos⟩, hw.size, hw.last, hw.empty, ?_, ?_⟩
    · rw [htransfer]
      exact hw.progress
    · intro p hp
      rw [Sender.since, hwire]
      exact hw.wire p (hphase ▸ hp)

/-- A window under way, with the phase it belongs to. -/
theorem WindowInv.sender {s : Sender} {w : Window} {st : Streaming} (hs : PhaseSettled s)
    (hw : WindowInv d s w st) : SenderInv d { s with pc := .window w st } := by
  refine ⟨hs, ?_, ?_, ?_⟩
  · intro hc
    cases hc
  · intro st' hst
    cases hst
  · intro w' st' hst
    cases hst
    exact ⟨hw.cursor, hw.size, hw.last, hw.empty, hw.progress, hw.wire⟩

theorem beginAttempt_inv {s : Sender} {w : Window} {st : Streaming} (now : ℚ)
    (hs : PhaseSettled s) (hw : WindowInv d s w st) :
    SenderInv d (s.beginAttempt settings now w st) := by
  rw [Sender.beginAttempt]
  split_ifs with hover
  · exact (handled _ now .chunk budgetExhausted).inv hs fun h => by cases h
  · exact WindowInv.sender (s := { s with inbox := s.inbox.clear }) hs
      ⟨hw.cursor, hw.size, hw.last, hw.empty, hw.progress, hw.wire⟩

/-- An attempt has sent nothing. -/
theorem attempt_inv {s : Sender} {requireAck again : Bool} {expected : ℕ}
    {todo : List (ManifestChunk × Option String)} {st : Streaming}
    (hcursor : ∃ p, s.phase = some p ∧ d.positions p.verified =
      p.done ++ (todo.map Prod.fst).map ManifestChunk.position ++ st.rest)
    (hsize : (todo.map Prod.fst).length ≤ windowSize)
    (hlast : expected = lastIndex (todo.map Prod.fst)) (hempty : st.window = []) :
    WindowInv d s (attempt requireAck again expected todo) st :=
  ⟨hcursor, hsize, hlast, hempty, fun _ hm => absurd hm List.not_mem_nil,
    fun _ _ _ hm => absurd hm List.not_mem_nil⟩

theorem beginWindow_inv {s : Sender} {st : Streaming} {requireAck : Bool} (now : ℚ)
    (hs : PhaseSettled s) (hsize : st.window.length ≤ windowSize)
    (hcursor : ∃ p, s.phase = some p ∧
      d.positions p.verified = p.done ++ st.window.map ManifestChunk.position ++ st.rest) :
    SenderInv d (s.beginWindow settings now st requireAck) := by
  have hfst : (st.window.map fun c => (c, (none : Option String))).map Prod.fst = st.window := by
    rw [List.map_map]
    exact List.map_id _
  refine beginAttempt_inv now hs (attempt_inv ?_ ?_ ?_ rfl)
  · rw [hfst]
    exact hcursor
  · rw [hfst]
    exact hsize
  · rw [hfst]

theorem windowRaised_inv {s : Sender} {w : Window} {st : Streaming} {e : Raised} (now : ℚ)
    (hs : PhaseSettled s) (hw : WindowInv d s w st) :
    SenderInv d (s.windowRaised settings now w st e) := by
  have hhandled : ∀ e, SenderInv d (s.handle settings now .chunk e) :=
    fun e => (handled s now .chunk e).inv hs fun h => by cases h
  rw [Sender.windowRaised]
  split_ifs
  · exact hhandled _
  · have hfst : (w.sent.map (fun p => (p.1, some p.2)) ++ w.todo).map Prod.fst = w.chunks := by
      rw [List.map_append, List.map_map, Window.chunks]
      rfl
    refine beginAttempt_inv now hs (attempt_inv ?_ ?_ ?_ hw.empty)
    · rw [hfst]
      exact hw.cursor
    · rw [hfst]
      exact hw.size
    · rw [hfst]
      exact hw.last
  · exact hhandled _

/-- A reply that `consume` takes: it answers its request, or covers the window. -/
theorem consume_ok {transferId : String} {w w' : Window} {reply : Dict}
    (h : consume d transferId w reply = .ok w') :
    ∃ data, resultOf reply = .ok data ∧ Positive data ∧ w'.sent = w.sent ∧ w'.todo = w.todo ∧
      w'.expected = w.expected ∧ w'.replies = w.replies ++ [reply] ∧
      (w'.pending = discard w.pending (get reply "request_id") ∨
        w'.pending = [] ∧ CoversThrough transferId w.expected reply) := by
  rw [consume] at h
  obtain ⟨data, hdata, h⟩ := Except.bind_eq_ok.1 h
  refine ⟨data, hdata, ?_⟩
  simp only at h
  by_cases hack : get data "action" = ackAction
  · rw [if_pos hack] at h
    by_cases htransfer : get data "transfer_id" = .str transferId
    · rw [if_neg (not_not.2 htransfer)] at h
      split at h
      · rename_i acked hacked
        by_cases hrange : acked < 0 ∨ acked ≥ d.totalChunks
        · rw [if_pos hrange] at h
          cases h
        · rw [if_neg hrange] at h
          by_cases hstale : acked < w.expected
          · rw [if_pos hstale] at h
            cases h
            exact ⟨Or.inl hack, rfl, rfl, rfl, rfl, Or.inl rfl⟩
          · rw [if_neg hstale] at h
            split at h
            · cases h
              exact ⟨Or.inl hack, rfl, rfl, rfl, rfl,
                Or.inr ⟨rfl, data, hdata, hack, htransfer, acked, hacked, not_lt.1 hstale⟩⟩
            · cases h
      · cases h
    · rw [if_pos htransfer] at h
      cases h
  · rw [if_neg hack] at h
    by_cases hsuccess : get data "success" = .bool true
    · rw [if_neg (not_not.2 hsuccess)] at h
      cases h
      exact ⟨Or.inr hsuccess, rfl, rfl, rfl, rfl, Or.inl rfl⟩
    · rw [if_pos hsuccess] at h
      cases h

theorem mem_discard {id : String} {pending : List String} {requestId : Json} (h : id ∈ pending) :
    id ∈ discard pending requestId ∨ requestId = .str id := by
  by_cases hid : requestId = .str id
  · exact Or.inr hid
  · refine Or.inl ?_
    unfold discard
    split
    · rename_i other
      refine List.mem_filter.2 ⟨h, decide_eq_true ?_⟩
      intro hother
      exact hid (congrArg Json.str hother.symm)
    · exact h

theorem Answered.mono {id : String} {replies : List Dict} (h : Answered id replies) (reply : Dict) :
    Answered id (replies ++ [reply]) := by
  obtain ⟨r, hr, hanswer⟩ := h
  exact ⟨r, List.mem_append_left _ hr, hanswer⟩

/-- A consumed reply keeps the window's invariant. -/
theorem consume_inv {s : Sender} {w w' : Window} {st : Streaming} {reply : Dict}
    (hw : WindowInv d s w st) (h : consume d s.transferId w reply = .ok w') :
    WindowInv d s w' st := by
  obtain ⟨data, hdata, hpositive, hsent, htodo, hexpected, hreplies, hpending⟩ := consume_ok h
  have hchunks : w'.chunks = w.chunks := by rw [Window.chunks, Window.chunks, hsent, htodo]
  refine ⟨hchunks ▸ hw.cursor, hchunks ▸ hw.size, ?_, hw.empty, ?_, hsent ▸ hw.wire⟩
  · rw [hexpected, hchunks]
    exact hw.last
  · rw [hsent, hexpected, hreplies]
    intro m hm
    rcases hw.progress m hm with hp | ha | ⟨r, hr, hcovers⟩
    · rcases hpending with hdiscard | ⟨-, hcovers⟩
      · rw [hdiscard]
        rcases mem_discard hp with hstill | hid
        · exact Or.inl hstill
        · exact Or.inr (Or.inl ⟨reply, List.mem_append_right _ (List.mem_singleton_self _), hid,
            data, hdata, hpositive⟩)
      · exact Or.inr (Or.inr ⟨reply, List.mem_append_right _ (List.mem_singleton_self _), hcovers⟩)
    · exact Or.inr (Or.inl (ha.mono reply))
    · exact Or.inr (Or.inr ⟨r, List.mem_append_left _ hr, hcovers⟩)

theorem windowReceived_inv {s : Sender} {w : Window} {st : Streaming} {item : Item} (now : ℚ)
    (hs : PhaseSettled s) (hw : WindowInv d s w st) :
    SenderInv d (s.windowReceived settings d now w st item) := by
  rw [Sender.windowReceived]
  cases hresult : item.result >>= consume d s.transferId w with
  | error e => exact windowRaised_inv now hs hw
  | ok w' =>
    obtain ⟨m, -, hm⟩ := Except.bind_eq_ok.1 hresult
    exact (consume_inv hw hm).sender hs

/-- What `run` does with a reply it does not refuse. -/
theorem replied_ok {s s' : Sender} {stage : Stage} {message : Dict}
    (h : s.replied d stage message = .ok s') :
    ∃ data, resultOf message = .ok data ∧
      (hasGrant data = true ∧ s' = { s with pc := .returned data } ∨
        ∃ transferId verified, s' = { s with
          transferId := transferId
          inbox := { s.inbox with transferId := transferId }
          phase := some ⟨s.wire.length, verified, []⟩
          pc := .stream ⟨d.positions verified, [], none⟩ }) := by
  rw [Sender.replied] at h
  obtain ⟨data, hdata, h⟩ := Except.bind_eq_ok.1 h
  refine ⟨data, hdata, ?_⟩
  by_cases hgrant : hasGrant data = true
  · rw [if_pos hgrant] at h
    cases h
    exact Or.inl ⟨hgrant, rfl⟩
  · rw [if_neg hgrant] at h
    by_cases hstage : stage = .metadata
    · rw [if_pos hstage] at h
      obtain ⟨⟨transferId, verified⟩, -, h⟩ := Except.bind_eq_ok.1 h
      cases h
      exact Or.inr ⟨transferId, verified, rfl⟩
    · rw [if_neg hstage] at h
      cases h

theorem received_inv {s : Sender} {stage : Stage} {item : Item} (now : ℚ) (hs : PhaseSettled s)
    (hc : stage = .complete → Done d s) : SenderInv d (s.received settings d now stage item) := by
  rw [Sender.received]
  cases hresult : item.result >>= s.replied d stage with
  | error e => exact (handled s now stage e).inv hs hc
  | ok s' =>
    obtain ⟨m, -, hm⟩ := Except.bind_eq_ok.1 hresult
    obtain ⟨data, -, ⟨-, rfl⟩ | ⟨transferId, verified, rfl⟩⟩ := replied_ok hm
    · refine .of_pc hs ?_ ?_ ?_
      · intro h
        cases h
      · intro st h
        cases h
      · intro w st h
        cases h
    · refine ⟨?_, ?_, ?_, ?_⟩
      · intro p hp
        cases hp
        exact ⟨le_rfl, fun w hw => absurd hw List.not_mem_nil⟩
      · intro h
        cases h
      · intro st h
        cases h
        exact ⟨Nat.succ_pos 3, _, rfl, (List.append_nil _).symm ▸ rfl⟩
      · intro w st h
        cases h

theorem request_inv {s : Sender} {stage : Stage} (hs : PhaseSettled s)
    (hc : stage = .complete → Done d s) : SenderInv d { s with pc := .request stage } := by
  refine .of_pc hs ?_ ?_ ?_
  · intro h
    cases stage with
    | complete => exact hc rfl
    | metadata => cases h
    | chunk => cases h
  · intro st h
    cases h
  · intro w st h
    cases h

theorem beginExchange_inv {s : Sender} {stage : Stage} (now : ℚ) (hs : PhaseSettled s)
    (hc : stage = .complete → Done d s) : SenderInv d (s.beginExchange settings now stage) := by
  have hsettled : PhaseSettled { s with
      inbox := s.inbox.clear
      phase := if stage = Stage.metadata then none else s.phase } := by
    by_cases hmetadata : stage = .metadata
    · rw [if_pos hmetadata]
      intro p hp
      cases hp
    · rw [if_neg hmetadata]
      exact hs
  have hdone : stage = .complete → Done d { s with
      inbox := s.inbox.clear
      phase := if stage = Stage.metadata then none else s.phase } := by
    rintro rfl
    exact hc rfl
  unfold Sender.beginExchange
  extract_lets s'
  by_cases hover : s'.overBudget now = true
  · rw [if_pos hover]
    exact (handled s' now stage budgetExhausted).inv hsettled hdone
  · rw [if_neg hover]
    exact request_inv hsettled hdone

theorem pulled_inv {s : Sender} {st : Streaming} {p : Position} {rest : List Position}
    (raw : Bytes) (now : ℚ) (hs : SenderInv d s) (hst : s.pc = .stream st)
    (hrest : st.rest = p :: rest) : SenderInv d (s.pulled settings d now st p rest raw) := by
  obtain ⟨hlt, phase, hphase, hpos⟩ := hs.stream st hst
  have hcursor : d.positions phase.verified = phase.done ++
      (st.window ++ [p.message s.transferId raw]).map ManifestChunk.position ++ rest := by
    rw [hpos, hrest, List.map_append, List.append_assoc, List.append_assoc, List.append_assoc]
    rfl
  have hlength : (st.window ++ [p.message s.transferId raw]).length = st.window.length + 1 :=
    List.length_append
  rw [Sender.pulled]
  split_ifs with hdue
  · refine beginWindow_inv now hs.settled ?_ ⟨phase, hphase, hcursor⟩
    rw [hlength]
    exact hlt
  · refine ⟨hs.settled, ?_, ?_, ?_⟩
    · intro h
      cases h
    · intro st' h
      cases h
      refine ⟨?_, phase, hphase, hcursor⟩
      have hne := (not_or.1 hdue).2
      rw [hlength] at hne ⊢
      omega
    · intro w st' h
      cases h

theorem exhausted_inv {s : Sender} {st : Streaming} (now : ℚ) (hs : SenderInv d s)
    (hst : s.pc = .stream st) (hrest : st.rest = []) :
    SenderInv d (s.exhausted settings now st) := by
  obtain ⟨hlt, phase, hphase, hpos⟩ := hs.stream st hst
  rw [Sender.exhausted]
  by_cases hwindow : st.window ≠ []
  · rw [if_pos hwindow]
    exact beginWindow_inv now hs.settled hlt.le ⟨phase, hphase, hpos⟩
  · rw [if_neg hwindow]
    rw [not_not.1 hwindow, hrest] at hpos
    refine .of_pc hs.settled ?_ ?_ ?_
    · intro _
      refine ⟨phase, hphase, hpos.trans ?_⟩
      rw [List.map_nil, List.append_nil, List.append_nil]
    · intro st' h
      cases h
    · intro w st' h
      cases h

theorem windowEnded_inv {s : Sender} {w : Window} {st : Streaming} (hs : PhaseSettled s)
    (hw : WindowInv d s w st) (htodo : w.todo = []) (hpending : w.pending = []) :
    SenderInv d (s.windowEnded w st) := by
  have hchunks : w.chunks = w.sent.map Prod.fst := by
    rw [Window.chunks, htodo, List.map_nil, List.append_nil]
  have hended : Ended.Settled ⟨w.sent, w.expected, s.transferId, w.replies⟩ := by
    refine ⟨?_, hchunks ▸ hw.last, ?_⟩
    · have hsize := hw.size
      rw [hchunks, List.length_map] at hsize
      exact hsize
    · intro m hm
      rcases hw.progress m hm with hp | h
      · rw [hpending] at hp
        cases hp
      · exact h
  obtain ⟨p, hp, hpos⟩ := hw.cursor
  have hphase : (s.windowEnded w st).phase =
      some { p with ended := p.ended ++ [⟨w.sent, w.expected, s.transferId, w.replies⟩] } := by
    rw [Sender.windowEnded, hp]
    rfl
  refine ⟨?_, ?_, ?_, ?_⟩
  · intro q hq
    rw [hphase] at hq
    cases hq
    refine ⟨(hs p hp).1, fun e he => ?_⟩
    rcases List.mem_append.1 he with he | he
    · exact (hs p hp).2 e he
    · rw [List.mem_singleton.1 he]
      exact ⟨hended, rfl, hw.wire p hp⟩
  · intro h
    cases h
  · intro st' h
    cases h
    refine ⟨?_, _, hphase, ?_⟩
    · rw [hw.empty]
      exact Nat.succ_pos 3
    · rw [hpos, hw.empty, hchunks, Phase.done, Phase.done, List.flatMap_append, List.map_map,
        List.flatMap_singleton, List.map_nil, List.append_nil]
      rfl
  · intro w' st' h
    cases h

/-- **A step keeps the invariant.** -/
theorem senderInv_step {s s' : Sender} {e : SenderEvent} (hs : SenderInv d s)
    (hstep : SenderStep settings d s e s') : SenderInv d s' := by
  cases hstep with
  | arrive => exact hs.congr rfl rfl rfl rfl
  | disconnect => exact hs.congr rfl rfl rfl rfl
  | @begin now needMetadata hpc =>
    refine beginExchange_inv now hs.settled ?_
    intro h
    refine hs.complete ?_
    rw [hpc]
    cases needMetadata with
    | true => cases h
    | false => rfl
  | @request stage id hpc =>
    refine .of_pc (hs.settled.puts (.request stage s.transferId id)) ?_ ?_ ?_
    · intro h
      refine hs.complete ?_
      rw [hpc]
      cases stage with
      | complete => rfl
      | metadata => cases h
      | chunk => cases h
    · intro st h
      cases h
    · intro w st h
      cases h
  | @requestRaised stage id e now hpc =>
    refine (handled _ now stage e).inv (hs.settled.puts _) ?_
    rintro rfl
    exact hs.complete (by rw [hpc]; rfl)
  | @receive stage item queue now hpc =>
    refine received_inv now hs.settled ?_
    rintro rfl
    exact hs.complete (by rw [hpc]; rfl)
  | @replyTimeout stage now hpc =>
    refine (handled s now stage _).inv hs.settled ?_
    rintro rfl
    rcases hpc with hpc | hpc
    · exact hs.complete (by rw [hpc]; rfl)
    · exact hs.complete (by rw [hpc]; rfl)
  | @pull st p rest raw now hpc hrest => exact pulled_inv raw now hs hpc hrest
  | @pullRaised st e now hpc =>
    exact (handled s now .chunk e).inv hs.settled fun h => by cases h
  | @exhausted st now hpc hrest => exact exhausted_inv now hs hpc hrest
  | @chunk w st c known todo id hpc htodo =>
    have hw := hs.window w st hpc
    have hchunks : Window.chunks { w with
        sent := w.sent ++ [(c, id)], todo := todo, pending := id :: w.pending, draining := true } =
        w.chunks := by
      rw [Window.chunks, Window.chunks, htodo, List.map_append, List.append_assoc]
      rfl
    refine WindowInv.sender (s := s.puts (.chunk c id)) (hs.settled.puts _)
      ⟨hchunks ▸ hw.cursor, hchunks ▸ hw.size, hchunks ▸ hw.last, hw.empty, ?_, ?_⟩
    · intro m hm
      rcases List.mem_append.1 hm with hm | hm
      · rcases hw.progress m hm with hp | h
        · exact Or.inl (List.mem_cons_of_mem _ hp)
        · exact Or.inr h
      · rw [List.mem_singleton.1 hm]
        exact Or.inl List.mem_cons_self
    · intro p hp m hm
      rcases List.mem_append.1 hm with hm | hm
      · exact mem_since_puts _ (hw.wire p hp m hm)
      · rw [List.mem_singleton.1 hm, Sender.since, Sender.puts,
          List.drop_append_of_le_length (hs.settled p hp).1]
        exact List.mem_append_right _ (List.mem_singleton_self _)
  | @chunkRaised w st c known todo id e now hpc htodo =>
    have hw := hs.window w st hpc
    have hchunks : Window.chunks { w with todo := (c, some id) :: todo } = w.chunks := by
      rw [Window.chunks, Window.chunks, htodo]
      rfl
    exact windowRaised_inv now (hs.settled.puts _)
      ⟨hchunks ▸ hw.cursor, hchunks ▸ hw.size, hchunks ▸ hw.last, hw.empty, hw.progress,
        fun p hp m hm => mem_since_puts _ (hw.wire p hp m hm)⟩
  | @windowReceive w st item queue now hpc =>
    have hw := hs.window w st hpc
    exact windowReceived_inv now hs.settled
      ⟨hw.cursor, hw.size, hw.last, hw.empty, hw.progress, hw.wire⟩
  | @drained w st hpc =>
    have hw := hs.window w st hpc
    exact WindowInv.sender hs.settled ⟨hw.cursor, hw.size, hw.last, hw.empty, hw.progress, hw.wire⟩
  | @windowTimeout w st now hpc => exact windowRaised_inv now hs.settled (hs.window w st hpc)
  | @windowEnded w st hpc htodo _ hpending =>
    exact windowEnded_inv hs.settled (hs.window w st hpc) htodo hpending
  | @wake needMetadata now hpc =>
    refine .of_pc hs.settled ?_ ?_ ?_
    · intro h
      refine hs.complete ?_
      rw [hpc]
      split_ifs at h
      · cases h
      · exact h
    · intro st h
      split_ifs at h
    · intro w st h
      split_ifs at h

theorem senderInv_start (d : Delivery) (transferId : String) :
    SenderInv d (.start transferId) := by
  refine .of_pc ?_ ?_ ?_ ?_
  · intro p hp
    cases hp
  · intro h
    cases h
  · intro st h
    cases h
  · intro w st h
    cases h

/-- A phase that has sent everything has delivered it. -/
theorem Done.delivered {s : Sender} (h : Done d s) (hs : PhaseSettled s) : Delivered d s := by
  obtain ⟨p, hp, hpos⟩ := h
  refine ⟨p, hp, ?_⟩
  intro m hm hverified position hposition
  have hmem : position ∈ p.done := by
    rw [← hpos, Delivery.positions]
    exact List.mem_flatMap.2 ⟨m, List.mem_filter.2 ⟨hm, decide_eq_true hverified⟩, hposition⟩
  obtain ⟨w, hw, hc⟩ := List.mem_flatMap.1 hmem
  obtain ⟨c, hc, hcp⟩ := List.mem_map.1 hc
  obtain ⟨hsettled, htransfer, hwire⟩ := (hs p hp).2 w hw
  exact ⟨w, hw, hsettled, htransfer, c, hc, hcp, hwire c hc⟩

/-! ## How a run returns -/

/-- The run has returned. -/
def ManifestPc.over : ManifestPc → Bool
  | .returned _ => true
  | _ => false

theorem Handled.over {stage : Stage} {s s' : Sender} (h : Handled stage s s') :
    s'.pc.over = false := by
  rcases h.pc with ⟨e, he⟩ | ⟨need, hpc | hpc, -⟩
  · rw [he]
    rfl
  · rw [hpc]
    rfl
  · rw [hpc]
    rfl

theorem beginAttempt_over (s : Sender) (now : ℚ) (w : Window) (st : Streaming) :
    (s.beginAttempt settings now w st).pc.over = false := by
  rw [Sender.beginAttempt]
  split_ifs
  · exact (handled _ now .chunk budgetExhausted).over
  · rfl

theorem windowRaised_over (s : Sender) (now : ℚ) (w : Window) (st : Streaming) (e : Raised) :
    (s.windowRaised settings now w st e).pc.over = false := by
  rw [Sender.windowRaised]
  split_ifs
  · exact (handled s now .chunk _).over
  · exact beginAttempt_over s now _ st
  · exact (handled s now .chunk e).over

/-- The run returns with a reply that carries a grant. -/
theorem returned_step {s s' : Sender} {e : SenderEvent} (hstep : SenderStep settings d s e s')
    (hs : ¬ s.pc.over = true) (hs' : s'.pc.over = true) :
    ∃ stage m now data, e = .receive stage (.message m) now ∧ resultOf m = .ok data ∧
      hasGrant data = true := by
  have hquiet : s'.pc.over = false → False := by
    intro h
    rw [h] at hs'
    cases hs'
  cases hstep with
  | arrive => exact absurd hs' hs
  | disconnect => exact absurd hs' hs
  | @begin now needMetadata =>
    refine (hquiet ?_).elim
    unfold Sender.beginExchange
    extract_lets t
    by_cases hover : t.overBudget now = true
    · rw [if_pos hover]
      exact (handled t now _ budgetExhausted).over
    · rw [if_neg hover]
      rfl
  | request => exact (hquiet rfl).elim
  | @requestRaised stage id e now => exact (hquiet (handled _ now stage e).over).elim
  | @receive stage item queue now =>
    cases hresult : item.result >>= (s.dequeued queue).replied d stage with
    | error e =>
      refine (hquiet ?_).elim
      rw [Sender.received, hresult]
      exact (handled (s.dequeued queue) now stage e).over
    | ok t =>
      rw [Sender.received, hresult] at hs'
      obtain ⟨m, hitem, hm⟩ := Except.bind_eq_ok.1 hresult
      obtain ⟨data, hdata, ⟨hgrant, -⟩ | ⟨transferId, verified, rfl⟩⟩ := replied_ok hm
      · cases item with
        | message m' =>
          cases hitem
          exact ⟨stage, m, now, data, rfl, hdata, hgrant⟩
        | disconnected => cases hitem
      · cases hs'
  | @replyTimeout stage now => exact (hquiet (handled s now stage _).over).elim
  | @pull st p rest raw now =>
    refine (hquiet ?_).elim
    rw [Sender.pulled]
    split_ifs
    · exact beginAttempt_over s now _ _
    · rfl
  | @pullRaised st e now => exact (hquiet (handled s now .chunk e).over).elim
  | @exhausted st now =>
    refine (hquiet ?_).elim
    rw [Sender.exhausted]
    by_cases hwindow : st.window ≠ []
    · rw [if_pos hwindow]
      exact beginAttempt_over s now _ _
    · rw [if_neg hwindow]
      rfl
  | chunk => exact (hquiet rfl).elim
  | @chunkRaised w st c known todo id e now =>
    exact (hquiet (windowRaised_over _ now _ st e)).elim
  | @windowReceive w st item queue now =>
    refine (hquiet ?_).elim
    rw [Sender.windowReceived]
    cases item.result >>= consume d (s.dequeued queue).transferId w with
    | error e => exact windowRaised_over _ now w st e
    | ok w' => rfl
  | drained => exact (hquiet rfl).elim
  | @windowTimeout w st now => exact (hquiet (windowRaised_over s now w st _)).elim
  | windowEnded => exact (hquiet rfl).elim
  | @wake needMetadata now =>
    refine (hquiet ?_).elim
    show (if s.overBudget now then ManifestPc.raised budgetExhausted
      else .top needMetadata).over = false
    split_ifs
    · rfl
    · rfl

end

/-! ## Deliveries -/

/-- The event puts `complete` on the channel, or may have. -/
def SenderEvent.completes : SenderEvent → Bool
  | .request .complete _ | .requestRaised .complete _ _ _ => true
  | _ => false

/-- **A manifest delivery**: in every run, a window holds at most `windowSize`
    chunks; `complete` is sent only when everything was delivered since the latest
    metadata reply; and `completed` is logged only after a reply that carries a
    success and a token. -/
theorem manifest_delivery (settings : Settings) (d : Delivery) (transferId : String)
    (es : List SenderEvent) (s : Sender)
    (h : Run (SenderStep settings d) (.start transferId) es s) :
    (∀ w st, s.pc = .window w st → w.sent.length + w.todo.length ≤ windowSize) ∧
    (∀ e s', SenderStep settings d s e s' → e.completes = true → Delivered d s) ∧
    (s.logged = some "completed" → ∃ stage m now data token,
      .receive stage (.message m) now ∈ es ∧ resultOf m = .ok data ∧
      get data "success" = .bool true ∧ get data "token_id" = .str token ∧ token ≠ "") := by
  have hinv : SenderInv d s :=
    h.invariant (fun hs hstep => senderInv_step hs hstep) (senderInv_start d transferId)
  refine ⟨?_, ?_, ?_⟩
  · intro w st hpc
    have hsize := (hinv.window w st hpc).size
    rw [Window.chunks, List.length_append, List.length_map, List.length_map] at hsize
    exact hsize
  · intro e s' hstep hcompletes
    have hcompleting : s.pc.completing = true := by
      cases hstep with
      | @request stage id hpc =>
        cases stage with
        | complete => rw [hpc]; rfl
        | metadata => cases hcompletes
        | chunk => cases hcompletes
      | @requestRaised stage id e now hpc =>
        cases stage with
        | complete => rw [hpc]; rfl
        | metadata => cases hcompletes
        | chunk => cases hcompletes
      | _ => cases hcompletes
    exact (hinv.complete hcompleting).delivered hinv.settled
  · intro hlogged
    have hover : s.pc.over = true := by
      rw [Sender.logged] at hlogged
      split at hlogged
      · rename_i hpc
        rw [hpc]
        rfl
      · split_ifs at hlogged
        exact absurd (Option.some.inj hlogged) (by decide)
      · cases hlogged
    obtain ⟨t, e, t', he, hstep, ht, ht'⟩ := h.exists_step (P := fun s => s.pc.over = true)
      (fun hstart => by cases hstart) hover
    obtain ⟨stage, m, now, data, rfl, hdata, hgrant⟩ := returned_step hstep ht ht'
    rw [hasGrant] at hgrant
    split at hgrant
    · rename_i token hsuccess htoken
      exact ⟨stage, m, now, data, token, he, hdata, hsuccess, htoken, of_decide_eq_true hgrant⟩
    · cases hgrant

/-! ### A delivery of one empty member -/

def defaults : Settings := ⟨2 ^ 40, 2 ^ 40, 900⟩

def emptyMember : Delivery :=
  ⟨"data", "order", "listing", "hash", [⟨0, 0, "", 0, 0, 1⟩], 1, 0⟩

def metadataReply : Dict :=
  [("request_id", .str "a"), ("transfer_id", .str "t"), ("verified_member_indices", .arr [])]

def ackFrame : Dict :=
  [("action", ackAction), ("transfer_id", .str "t"), ("status", .str "continue"),
    ("acked_through_index", .int 0)]

def grantReply : Dict :=
  [("request_id", .str "c"), ("success", .bool true), ("token_id", .str "token")]

/-- The sender before `complete`. -/
def allSent : Sender :=
  let chunk := Position.message ⟨0, 0, 0, 0⟩ "t" []
  { Sender.start "t" with
    retryDeadline := some 900
    completionStarted := true
    sent := 1
    highwater := 0
    inbox := ⟨"t", ["b"], []⟩
    pc := .top false
    phase := some ⟨1, [], [⟨[(chunk, "b")], 0, "t", [ackFrame]⟩]⟩
    wire := [.request .metadata "t" "a", .chunk chunk "b"] }

def sendAll : List SenderEvent :=
  [.begin 0, .request .metadata "a", .arrive metadataReply,
    .receive .metadata (.message metadataReply) 0, .pull [] 0, .chunk "b", .arrive ackFrame,
    .windowReceive (.message ackFrame) 0, .drained, .windowEnded, .exhausted 0]

theorem run_sendAll : Run (SenderStep defaults emptyMember) (.start "t") sendAll allSent := by
  rw [allSent, ← zero_add (900 : ℚ)]
  exact .cons (.begin rfl) <| .cons (.request rfl List.not_mem_nil) <| .cons .arrive <|
    .cons (.receive rfl rfl) <| .cons (.pull rfl rfl rfl) <|
    .cons (.chunk rfl rfl (by intro h; cases h) (show "b" ∉ ["a"] by decide)) <|
    .cons .arrive <| .cons (.windowReceive rfl rfl (Or.inl rfl)) <|
    .cons (.drained rfl rfl rfl rfl) <| .cons (.windowEnded rfl rfl rfl rfl rfl) <|
    .cons (.exhausted rfl rfl) .nil

/-- `complete` is sent, and a message arrives first. -/
def completeWith (m : Dict) : List SenderEvent :=
  [.begin 0, .request .complete "c", .arrive m, .receive .complete (.message m) 0]

theorem step_begin : SenderStep defaults emptyMember allSent (.begin 0)
    { allSent with inbox := ⟨"t", [], []⟩, pc := .request .complete } := by
  have hover : ¬ allSent.overBudget 0 = true := by
    rw [Sender.overBudget, allSent, Option.any_some]
    norm_num
  have hbegin : allSent.beginExchange defaults 0 (stageOf false) =
      { allSent with inbox := ⟨"t", [], []⟩, pc := .request .complete } := if_neg hover
  exact hbegin ▸ .begin rfl

theorem run_granted : ∃ s : Sender, Run (SenderStep defaults emptyMember) allSent
    (completeWith grantReply) s ∧ s.logged = some "completed" :=
  ⟨_, .cons step_begin <| .cons (.request rfl (show "c" ∉ ["a", "b"] by decide)) <|
    .cons .arrive <| .cons (.receive rfl rfl) .nil, rfl⟩

theorem manifest_delivery_emptyMember : ∃ s : Sender, s.logged = some "completed" ∧
    ∃ stage m now data token, .receive stage (.message m) now ∈ sendAll ++ completeWith grantReply ∧
      resultOf m = .ok data ∧ get data "success" = .bool true ∧
      get data "token_id" = .str token ∧ token ≠ "" := by
  obtain ⟨s, h, hlogged⟩ := run_granted
  exact ⟨s, hlogged,
    (manifest_delivery defaults emptyMember "t" _ s (run_sendAll.append h)).2.2 hlogged⟩

end Fulfillment

end AimData
