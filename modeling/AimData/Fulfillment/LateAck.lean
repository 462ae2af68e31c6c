/-
  Late and duplicate acknowledgements in a manifest delivery.

  A window ignores an acknowledgement that is stale and takes one that covers
  it, so that none is refused there: this needs that every chunk on the channel
  is one of the plan, and that what a window finds in its inbox belongs to its
  transfer.  An exchange takes whatever arrives first for its reply.
-/
import AimData.Fulfillment.Delivery

namespace AimData

namespace Fulfillment

open TrustChannel (Dict get)

/-! ## Acknowledgement frames -/

/-- An acknowledgement frame for a chunk that was really sent, with neither grant
    nor metadata; its request id, if it is one of the channel, is of the transfer. -/
structure LateAck (wire : List Wire) (m : Dict) (data : Dict) (c : ManifestChunk) : Prop where
  result : resultOf m = .ok data
  action : get data "action" = ackAction
  status : get data "status" = .str "continue"
  sent : ∃ id, .chunk c id ∈ wire
  transferId : get data "transfer_id" = .str c.transferId
  index : get data "acked_through_index" = .int c.position.chunkIndex
  grant : hasGrant data = false
  metadata : get data "verified_member_indices" = .null
  requestId : ∀ id, get m "request_id" = .str id →
    ∀ c', .chunk c' id ∈ wire → c'.transferId = c.transferId

/-- The step takes an acknowledgement frame from the inbox. -/
def TakesAck (s : Sender) (e : SenderEvent) : Prop :=
  ∃ m data c, LateAck s.wire m data c ∧
    ((∃ stage now, e = .receive stage (.message m) now) ∨
      ∃ now, e = .windowReceive (.message m) now)

/-- The transfer is aborted by an acknowledgement frame. -/
def AbortedByAck (s : Sender) (e : SenderEvent) (s' : Sender) : Prop :=
  TakesAck s e ∧ ∃ raised, s'.pc = .raised raised

/-- An exchange takes an acknowledgement frame for its reply. -/
def AckAsReply (s : Sender) (e : SenderEvent) : Prop :=
  ∃ stage m now data c, e = .receive stage (.message m) now ∧ LateAck s.wire m data c

/-! ## The chunks of a plan -/

theorem planRows_bounds {maxMemberBytes : ℕ} : ∀ {rows : List ManifestRow} {chunkOffset byteOffset : ℕ}
    {plan : List Member} {totals : ℕ × ℕ},
    planRows maxMemberBytes rows chunkOffset byteOffset = .ok (plan, totals) →
    chunkOffset ≤ totals.1 ∧ ∀ m ∈ plan, m.startChunk + m.chunks ≤ totals.1
  | [], _, _, _, _, h => by
    cases h
    exact ⟨le_rfl, fun m hm => absurd hm List.not_mem_nil⟩
  | row :: rows, chunkOffset, byteOffset, plan, totals, h => by
    rw [planRows] at h
    by_cases hrole : row.role ≠ "data"
    · rw [if_pos hrole] at h
      exact planRows_bounds h
    · rw [if_neg hrole] at h
      by_cases hsize : row.sizeBytes > maxMemberBytes
      · rw [if_pos hsize] at h
        cases h
      · rw [if_neg hsize] at h
        obtain ⟨⟨plan', totals'⟩, hrows, h⟩ := Except.bind_eq_ok.1 h
        cases h
        obtain ⟨hoffset, hplan⟩ := planRows_bounds hrows
        refine ⟨le_trans (Nat.le_add_right _ _) hoffset, ?_⟩
        intro m hm
        rcases List.mem_cons.1 hm with rfl | hm
        · exact hoffset
        · exact hplan m hm

/-- Every chunk of the plan has an index below the total. -/
theorem loadPlan_chunkIndex {settings : Settings} {name orderId listingId manifestHash : String}
    {rows : List ManifestRow} {d : Delivery}
    (h : loadPlan settings name orderId listingId manifestHash rows = .ok d) {verified : List ℤ}
    {p : Position} (hp : p ∈ d.positions verified) : p.chunkIndex < d.totalChunks := by
  rw [loadPlan] at h
  obtain ⟨⟨plan, chunkOffset, byteOffset⟩, hrows, h⟩ := Except.bind_eq_ok.1 h
  simp only at h
  by_cases hempty : plan = [] ∨ byteOffset > settings.datasetMaxBytes
  · rw [if_pos hempty] at h
    cases h
  · rw [if_neg hempty] at h
    cases h
    obtain ⟨m, hm, hp⟩ := List.mem_flatMap.1 hp
    obtain ⟨localIndex, hlocal, rfl⟩ := List.mem_map.1 hp
    have hbound := (planRows_bounds hrows).2 m (List.mem_of_mem_filter hm)
    have hlt := List.mem_range.1 hlocal
    show m.startChunk + localIndex < chunkOffset
    omega

/-! ## What an acknowledgement does -/

theorem refusal_ne_ok {α : Type} (code : Json) (a : α) : refusal code ≠ .ok a := by
  intro h
  unfold refusal at h
  split at h
  · cases h
  · cases h

/-- The result of a message is what `dispatch` reads of it. -/
theorem actionOf_of_result {m data : Dict} (h : resultOf m = .ok data) : actionOf m = data := by
  have hdata : (m.lookup "data").getD (.obj m) = .obj data := by
    unfold resultOf at h
    split at h
    · rename_i result hresult
      simp only at h
      split at h
      · exact absurd h (refusal_ne_ok _ _)
      · split at h
        · exact absurd h (refusal_ne_ok _ _)
        · cases h
          exact hresult
    · exact absurd h (refusal_ne_ok _ _)
  rw [actionOf, TrustChannel.get]
  cases hlookup : m.lookup "data" with
  | none =>
    rw [hlookup] at hdata
    cases hdata
    rfl
  | some v =>
    rw [hlookup] at hdata
    cases hdata
    rfl

variable {settings : Settings} {d : Delivery}

/-- **A window** takes an acknowledgement of its transfer, or ignores it. -/
theorem consume_ack {wire : List Wire} {m data : Dict} {c : ManifestChunk} {transferId : String}
    (hm : LateAck wire m data c) (htransfer : c.transferId = transferId)
    (hindex : c.position.chunkIndex < d.totalChunks) (w : Window) :
    ∃ w', consume d transferId w m = .ok w' ∧ w'.chunks = w.chunks := by
  rw [consume, hm.result]
  simp only [Except.ok_bind, hm.action, if_true, hm.transferId, htransfer, ne_eq,
    not_true_eq_false, if_false, hm.index, hm.status]
  have hrange : ¬ ((c.position.chunkIndex : ℤ) < 0 ∨
      (c.position.chunkIndex : ℤ) ≥ d.totalChunks) := by omega
  rw [if_neg hrange]
  by_cases hstale : (c.position.chunkIndex : ℤ) < w.expected
  · rw [if_pos hstale]
    exact ⟨_, rfl, rfl⟩
  · have hcovers : validateAck ⟨"continue", c.position.chunkIndex⟩ w.expected transferId =
        .ok () := by
      rw [validateAck, if_neg (not_not.2 rfl), if_neg hstale]
    rw [if_neg hstale, hcovers]
    exact ⟨_, rfl, rfl⟩

/-- **An exchange** refuses an acknowledgement, and the run raises. -/
theorem received_ack {s : Sender} {m data : Dict} {c : ManifestChunk} (now : ℚ) (stage : Stage)
    (hm : LateAck s.wire m data c) (queue : List Item) :
    ∃ raised, ((s.dequeued queue).received settings d now stage (.message m)).pc =
      .raised raised := by
  have hrefused : ∃ code, code ∉ retryCodes ∧
      (s.dequeued queue).replied d stage m = .error ⟨"Refusal", code⟩ := by
    rw [Sender.replied, hm.result]
    simp only [Except.ok_bind, hm.grant, Bool.false_eq_true, if_false]
    by_cases hstage : stage = .metadata
    · rw [if_pos hstage, metadataOf, hm.transferId, hm.metadata]
      exact ⟨"invalid_metadata_response", by decide, rfl⟩
    · rw [if_neg hstage]
      exact ⟨"completion_not_confirmed", by decide, rfl⟩
  obtain ⟨code, hcode, hrefused⟩ := hrefused
  refine ⟨⟨"Refusal", code⟩, ?_⟩
  rw [Sender.received]
  simp only [Item.result, Except.ok_bind, hrefused, Sender.orHandle]
  rw [Sender.handle, if_pos rfl, if_pos hcode]

/-! ## The invariant -/

/-- The inbox is that of the transfer, and the channel has chunks of the plan. -/
def ChannelInv (d : Delivery) (s : Sender) : Prop :=
  s.inbox.transferId = s.transferId ∧
    ∀ c id, .chunk c id ∈ s.wire → c.position.chunkIndex < d.totalChunks

/-- The request id of a chunk of the transfer. -/
def OfTransfer (s : Sender) (id : String) : Prop :=
  ∃ c, .chunk c id ∈ s.wire ∧ c.transferId = s.transferId

/-- What a window may find in its inbox belongs to the transfer. -/
def Correlated (s : Sender) : Prop :=
  (∀ id ∈ s.inbox.pending, OfTransfer s id) ∧
    ∀ m, .message m ∈ s.inbox.queue →
      (∃ id, get m "request_id" = .str id ∧ OfTransfer s id) ∨
        get (actionOf m) "transfer_id" = .str s.transferId

/-- The chunks at hand are of the transfer. -/
def Current (s : Sender) (chunks : List ManifestChunk) : Prop :=
  ∀ c ∈ chunks, c.transferId = s.transferId

structure AckInv (d : Delivery) (s : Sender) : Prop where
  channel : ChannelInv d s
  stream : ∀ st, s.pc = .stream st → Current s st.window
  window : ∀ w st, s.pc = .window w st → Current s w.chunks ∧ Correlated s

theorem AckInv.of_pc {s : Sender} (hs : ChannelInv d s) (hstream : ∀ st, s.pc ≠ .stream st)
    (hwindow : ∀ w st, s.pc ≠ .window w st) : AckInv d s :=
  ⟨hs, fun st h => absurd h (hstream st), fun w st h => absurd h (hwindow w st)⟩

theorem Handled.ack {stage : Stage} {s s' : Sender} (h : Handled stage s s')
    (hs : ChannelInv d s) : AckInv d s' := by
  have hchannel : ChannelInv d s' := by
    rw [ChannelInv, h.inbox, h.transferId, h.wire]
    exact hs
  refine .of_pc hchannel ?_ ?_
  · intro st hst
    rcases h.pc with ⟨e, hpc⟩ | ⟨need, hpc | hpc, -⟩
    · rw [hpc] at hst
      cases hst
    · rw [hpc] at hst
      cases hst
    · rw [hpc] at hst
      cases hst
  · intro w st hst
    rcases h.pc with ⟨e, hpc⟩ | ⟨need, hpc | hpc, -⟩
    · rw [hpc] at hst
      cases hst
    · rw [hpc] at hst
      cases hst
    · rw [hpc] at hst
      cases hst

theorem ackInv_window {s : Sender} {w : Window} {st : Streaming} (hs : ChannelInv d s)
    (hchunks : Current s w.chunks) (hinbox : Correlated s) :
    AckInv d { s with pc := .window w st } := by
  refine ⟨hs, ?_, ?_⟩
  · intro st' h
    cases h
  · intro w' st' h
    cases h
    exact ⟨hchunks, hinbox⟩

/-- An attempt begins with an empty inbox. -/
theorem beginAttempt_ack {s : Sender} {w : Window} {st : Streaming} (now : ℚ)
    (hs : ChannelInv d s) (hchunks : Current s w.chunks) :
    AckInv d (s.beginAttempt settings now w st) := by
  rw [Sender.beginAttempt]
  split_ifs
  · exact (handled _ now .chunk budgetExhausted).ack hs
  · exact ackInv_window (s := { s with inbox := s.inbox.clear }) hs hchunks
      ⟨fun _ h => absurd h List.not_mem_nil, fun _ h => absurd h List.not_mem_nil⟩

theorem beginWindow_ack {s : Sender} {st : Streaming} {requireAck : Bool} (now : ℚ)
    (hs : ChannelInv d s) (hchunks : Current s st.window) :
    AckInv d (s.beginWindow settings now st requireAck) := by
  refine beginAttempt_ack now hs ?_
  have hfst : Window.chunks (attempt requireAck false (lastIndex st.window)
      (st.window.map fun c => (c, none))) = st.window := by
    rw [Window.chunks, attempt, List.map_nil, List.nil_append, List.map_map]
    exact List.map_id _
  rw [hfst]
  exact hchunks

theorem windowRaised_ack {s : Sender} {w : Window} {st : Streaming} {e : Raised} (now : ℚ)
    (hs : ChannelInv d s) (hchunks : Current s w.chunks) :
    AckInv d (s.windowRaised settings now w st e) := by
  rw [Sender.windowRaised]
  split_ifs
  · exact (handled s now .chunk _).ack hs
  · refine beginAttempt_ack now hs ?_
    have hfst : Window.chunks (attempt w.requireAck true w.expected
        (w.sent.map (fun p => (p.1, some p.2)) ++ w.todo)) = w.chunks := by
      rw [Window.chunks, attempt, List.map_nil, List.nil_append, List.map_append, List.map_map,
        Window.chunks]
      rfl
    rw [hfst]
    exact hchunks
  · exact (handled s now .chunk e).ack hs

/-- What arrives in a window either answers one of its requests or is of its transfer. -/
theorem Correlated.dispatch {s : Sender} (hs : ChannelInv d s) (h : Correlated s) (message : Dict) :
    Correlated { s with inbox := (s.inbox.dispatch message).1 } := by
  have hdiscard : ∀ requestId, ∀ id ∈ discard s.inbox.pending requestId, OfTransfer s id := by
    intro requestId id hid
    unfold discard at hid
    split at hid
    · exact h.1 id (List.mem_of_mem_filter hid)
    · exact h.1 id hid
  have hqueue : ∀ pending, ((∃ id, get message "request_id" = .str id ∧ OfTransfer s id) ∨
      get (actionOf message) "transfer_id" = .str s.transferId) →
      (∀ id ∈ pending, OfTransfer s id) →
      Correlated { s with inbox := { s.inbox with
        pending := pending, queue := s.inbox.queue ++ [.message message] } } := by
    intro pending hmessage hpending
    refine ⟨hpending, ?_⟩
    intro m hm
    rcases List.mem_append.1 hm with hm | hm
    · exact h.2 m hm
    · cases List.mem_singleton.1 hm
      exact hmessage
  rw [Inbox.dispatch]
  split_ifs with hpending hother
  · obtain ⟨id, hid, hrequest⟩ := hpending
    exact hqueue _ (Or.inl ⟨id, hrequest, h.1 id hid⟩) (hdiscard _)
  · exact h
  · refine hqueue s.inbox.pending (Or.inr ?_) h.1
    rw [← hs.1]
    exact not_not.1 (not_or.1 hother).2

theorem ChannelInv.request {s : Sender} (hs : ChannelInv d s) (stage : Stage)
    (transferId id : String) : ChannelInv d (s.puts (.request stage transferId id)) := by
  refine ⟨hs.1, ?_⟩
  intro c i hc
  rcases List.mem_append.1 hc with hc | hc
  · exact hs.2 c i hc
  · cases List.mem_singleton.1 hc

/-- A chunk of a window under way is one of the plan. -/
theorem ChannelInv.chunk {s : Sender} {w : Window} {st : Streaming} {c : ManifestChunk}
    (hplan : ∀ verified, ∀ p ∈ d.positions verified, p.chunkIndex < d.totalChunks)
    (hs : ChannelInv d s) (hw : WindowInv d s w st) (hc : c ∈ w.chunks) (id : String) :
    ChannelInv d (s.puts (.chunk c id)) := by
  obtain ⟨p, -, hpos⟩ := hw.cursor
  have hindex : c.position.chunkIndex < d.totalChunks := by
    refine hplan p.verified c.position ?_
    rw [hpos]
    exact List.mem_append_left _ (List.mem_append_right _ (List.mem_map_of_mem hc))
  refine ⟨hs.1, ?_⟩
  intro c' i hc'
  rcases List.mem_append.1 hc' with hc' | hc'
  · exact hs.2 c' i hc'
  · cases List.mem_singleton.1 hc'
    exact hindex

theorem mem_chunks_todo {w : Window} {c : ManifestChunk} {known : Option String}
    {todo : List (ManifestChunk × Option String)} (h : w.todo = (c, known) :: todo) :
    c ∈ w.chunks := by
  rw [Window.chunks, h]
  exact List.mem_append_right _ List.mem_cons_self

theorem replied_ack {s s' : Sender} {stage : Stage} {message : Dict} (hs : ChannelInv d s)
    (h : s.replied d stage message = .ok s') : AckInv d s' := by
  obtain ⟨data, -, ⟨-, rfl⟩ | ⟨transferId, verified, rfl⟩⟩ := replied_ok h
  · refine .of_pc hs ?_ ?_
    · intro st h
      cases h
    · intro w st h
      cases h
  · refine ⟨⟨rfl, hs.2⟩, ?_, ?_⟩
    · intro st h c hc
      cases h
      cases hc
    · intro w st h
      cases h

theorem received_ackInv {s : Sender} {stage : Stage} {item : Item} (now : ℚ)
    (hs : ChannelInv d s) : AckInv d (s.received settings d now stage item) := by
  rw [Sender.received]
  cases hresult : item.result >>= s.replied d stage with
  | error e => exact (handled s now stage e).ack hs
  | ok s' =>
    obtain ⟨m, -, hm⟩ := Except.bind_eq_ok.1 hresult
    exact replied_ack hs hm

theorem windowReceived_ack {s : Sender} {w : Window} {st : Streaming} {item : Item} (now : ℚ)
    (hs : ChannelInv d s) (hchunks : Current s w.chunks) (hinbox : Correlated s) :
    AckInv d (s.windowReceived settings d now w st item) := by
  rw [Sender.windowReceived]
  cases hresult : item.result >>= consume d s.transferId w with
  | error e => exact windowRaised_ack now hs hchunks
  | ok w' =>
    obtain ⟨m, -, hm⟩ := Except.bind_eq_ok.1 hresult
    obtain ⟨-, -, -, hsent, htodo, -⟩ := consume_ok hm
    refine ackInv_window hs ?_ hinbox
    rw [Window.chunks, hsent, htodo]
    exact hchunks

/-- **A step keeps the inbox's invariant.** -/
theorem ackInv_step (hplan : ∀ verified, ∀ p ∈ d.positions verified, p.chunkIndex < d.totalChunks)
    {s s' : Sender} {e : SenderEvent} (hinv : SenderInv d s) (hs : AckInv d s)
    (hstep : SenderStep settings d s e s') : AckInv d s' := by
  have hchannel := hs.channel
  cases hstep with
  | @arrive message =>
    have hkept : (s.inbox.dispatch message).1.transferId = s.inbox.transferId := by
      rw [Inbox.dispatch]
      split_ifs
      · rfl
      · rfl
      · rfl
    refine ⟨⟨hkept.trans hchannel.1, hchannel.2⟩, hs.stream, ?_⟩
    intro w st h
    obtain ⟨hchunks, hinbox⟩ := hs.window w st h
    exact ⟨hchunks, hinbox.dispatch hchannel message⟩
  | disconnect =>
    refine ⟨hchannel, hs.stream, ?_⟩
    intro w st h
    obtain ⟨hchunks, hpending, hqueue⟩ := hs.window w st h
    refine ⟨hchunks, hpending, ?_⟩
    intro m hm
    rcases List.mem_append.1 hm with hm | hm
    · exact hqueue m hm
    · cases List.mem_singleton.1 hm
  | @begin now needMetadata =>
    unfold Sender.beginExchange
    extract_lets t
    by_cases hover : t.overBudget now = true
    · rw [if_pos hover]
      exact (handled t now _ budgetExhausted).ack hchannel
    · rw [if_neg hover]
      exact .of_pc hchannel (fun st h => by cases h) fun w st h => by cases h
  | @request stage id =>
    exact .of_pc (hchannel.request stage s.transferId id) (fun st h => by cases h)
      fun w st h => by cases h
  | @requestRaised stage id e now =>
    exact (handled _ now stage e).ack (hchannel.request stage s.transferId id)
  | receive => exact received_ackInv _ hchannel
  | @replyTimeout stage now => exact (handled s now stage _).ack hchannel
  | @pull st p rest raw now hpc =>
    have hchunks : Current s (st.window ++ [p.message s.transferId raw]) := by
      intro c hc
      rcases List.mem_append.1 hc with hc | hc
      · exact hs.stream st hpc c hc
      · rw [List.mem_singleton.1 hc]
        rfl
    rw [Sender.pulled]
    split_ifs
    · exact beginWindow_ack now hchannel hchunks
    · refine ⟨hchannel, ?_, ?_⟩
      · intro st' h
        cases h
        exact hchunks
      · intro w st' h
        cases h
  | @pullRaised st e now => exact (handled s now .chunk e).ack hchannel
  | @exhausted st now hpc =>
    rw [Sender.exhausted]
    by_cases hwindow : st.window ≠ []
    · rw [if_pos hwindow]
      exact beginWindow_ack now hchannel (hs.stream st hpc)
    · rw [if_neg hwindow]
      exact .of_pc hchannel (fun st h => by cases h) fun w st h => by cases h
  | @chunk w st c known todo id hpc htodo =>
    obtain ⟨hchunks, hpending, hqueue⟩ := hs.window w st hpc
    have hc := mem_chunks_todo htodo
    have hmono : ∀ i, OfTransfer s i → OfTransfer (s.puts (.chunk c id)) i := by
      rintro i ⟨c', hc', htransfer⟩
      exact ⟨c', List.mem_append_left _ hc', htransfer⟩
    refine ackInv_window (hchannel.chunk hplan (hinv.window w st hpc) hc id) ?_ ⟨?_, ?_⟩
    · intro c' hc'
      refine hchunks c' ?_
      rw [Window.chunks, List.map_append, List.append_assoc] at hc'
      rw [Window.chunks, htodo]
      exact hc'
    · intro i hi
      rcases List.mem_cons.1 hi with rfl | hi
      · exact ⟨c, List.mem_append_right _ (List.mem_singleton_self _), hchunks c hc⟩
      · exact hmono i (hpending i hi)
    · intro m hm
      rcases hqueue m hm with ⟨i, hi, hof⟩ | htransfer
      · exact Or.inl ⟨i, hi, hmono i hof⟩
      · exact Or.inr htransfer
  | @chunkRaised w st c known todo id e now hpc htodo =>
    obtain ⟨hchunks, -⟩ := hs.window w st hpc
    refine windowRaised_ack now
      (hchannel.chunk hplan (hinv.window w st hpc) (mem_chunks_todo htodo) id) ?_
    intro c' hc'
    refine hchunks c' ?_
    rw [Window.chunks] at hc'
    rw [Window.chunks, htodo]
    exact hc'
  | @windowReceive w st item queue now hpc hqueue =>
    obtain ⟨hchunks, hpending, hmessages⟩ := hs.window w st hpc
    refine windowReceived_ack now hchannel hchunks ⟨hpending, ?_⟩
    intro m hm
    exact hmessages m (hqueue ▸ List.mem_cons_of_mem _ hm)
  | @drained w st hpc =>
    obtain ⟨hchunks, hinbox⟩ := hs.window w st hpc
    exact ackInv_window hchannel hchunks hinbox
  | @windowTimeout w st now hpc => exact windowRaised_ack now hchannel (hs.window w st hpc).1
  | @windowEnded w st hpc =>
    refine ⟨hchannel, ?_, ?_⟩
    · intro st' h c hc
      cases h
      rw [(hinv.window w st hpc).empty] at hc
      cases hc
    · intro w' st' h
      cases h
  | @wake needMetadata now =>
    refine .of_pc hchannel ?_ ?_
    · intro st h
      split_ifs at h
    · intro w st h
      split_ifs at h

/-! ## Late acknowledgements -/

/-- An acknowledgement in the inbox of a window is of its transfer. -/
theorem LateAck.current {s : Sender} {m data : Dict} {c : ManifestChunk}
    (hm : LateAck s.wire m data c) (hs : Correlated s) (hqueue : .message m ∈ s.inbox.queue) :
    c.transferId = s.transferId := by
  rcases hs.2 m hqueue with ⟨id, hid, c', hc', htransfer⟩ | htransfer
  · rw [← hm.requestId id hid c' hc']
    exact htransfer
  · rw [actionOf_of_result hm.result, hm.transferId] at htransfer
    exact Json.str.inj htransfer

/-- **A step aborts the transfer by an acknowledgement** exactly if an exchange takes
    it for its reply. -/
theorem abortedByAck_iff {s s' : Sender} {e : SenderEvent} (hs : AckInv d s)
    (hstep : SenderStep settings d s e s') : AbortedByAck s e s' ↔ AckAsReply s e := by
  constructor
  · rintro ⟨⟨m, data, c, hm, ⟨stage, now, rfl⟩ | ⟨now, rfl⟩⟩, raised, hraised⟩
    · exact ⟨stage, m, now, data, c, rfl, hm⟩
    · cases hstep with
      | @windowReceive w st item queue now hpc hqueue =>
        obtain ⟨-, hinbox⟩ := hs.window w st hpc
        have htransfer := hm.current hinbox (hqueue ▸ List.mem_cons_self)
        obtain ⟨id, hsent⟩ := hm.sent
        obtain ⟨w', hconsume, -⟩ := consume_ack (d := d) hm htransfer (hs.channel.2 c id hsent) w
        have hreceived : (s.dequeued queue).windowReceived settings d now w st (.message m) =
            { s.dequeued queue with pc := .window w' st } := by
          rw [Sender.windowReceived]
          simp only [Item.result, Except.ok_bind]
          rw [show (s.dequeued queue).transferId = s.transferId from rfl, hconsume]
          rfl
        rw [hreceived] at hraised
        cases hraised
  · rintro ⟨stage, m, now, data, c, rfl, hm⟩
    refine ⟨⟨m, data, c, hm, Or.inl ⟨stage, now, rfl⟩⟩, ?_⟩
    cases hstep with
    | @receive stage item queue now => exact received_ack now stage hm queue

/-- **Late and duplicate acknowledgements** are harmless in a run exactly if no
    metadata or completion exchange of it takes one for its reply. -/
theorem lateAcks_harmless_iff {settings : Settings} {d : Delivery}
    {name orderId listingId manifestHash : String} {rows : List ManifestRow}
    (hd : loadPlan settings name orderId listingId manifestHash rows = .ok d)
    (transferId : String) (es : List SenderEvent) (s : Sender) :
    Run (fun s e s' => SenderStep settings d s e s' ∧ ¬ AbortedByAck s e s')
        (.start transferId) es s ↔
      Run (fun s e s' => SenderStep settings d s e s' ∧ ¬ AckAsReply s e)
        (.start transferId) es s := by
  have hplan : ∀ verified, ∀ p ∈ d.positions verified, p.chunkIndex < d.totalChunks :=
    fun _ _ hp => loadPlan_chunkIndex hd hp
  refine Run.restrict_iff (I := fun s => SenderInv d s ∧ AckInv d s) ?_ ?_ ?_
  · intro s e s' hs hstep
    exact ⟨senderInv_step hs.1 hstep, ackInv_step hplan hs.1 hs.2 hstep⟩
  · intro s e s' hs hstep
    exact not_congr (abortedByAck_iff hs.2 hstep)
  · refine ⟨senderInv_start d transferId, .of_pc ⟨rfl, ?_⟩ ?_ ?_⟩
    · intro c id hc
      cases hc
    · intro st h
      cases h
    · intro w st h
      cases h

theorem loadPlan_emptyMember :
    loadPlan defaults "data" "order" "listing" "hash" [⟨0, 0, "", "data"⟩] = .ok emptyMember :=
  rfl

theorem lateAcks_harmless_emptyMember :
    Run (fun s e s' => SenderStep defaults emptyMember s e s' ∧ ¬ AbortedByAck s e s')
        (.start "t") sendAll allSent ↔
      Run (fun s e s' => SenderStep defaults emptyMember s e s' ∧ ¬ AckAsReply s e)
        (.start "t") sendAll allSent :=
  lateAcks_harmless_iff loadPlan_emptyMember "t" sendAll allSent

/-- The acknowledgement of the last window comes twice: `complete` takes the second. -/
theorem duplicateAck_aborts : ∃ s e s', Run (SenderStep defaults emptyMember) (.start "t")
      (sendAll ++ [.begin 0, .request .complete "c", .arrive ackFrame]) s ∧
    SenderStep defaults emptyMember s e s' ∧ AbortedByAck s e s' ∧
    s'.pc = .raised ⟨"Refusal", "completion_not_confirmed"⟩ := by
  have hm : LateAck [.request .metadata "t" "a", .chunk (Position.message ⟨0, 0, 0, 0⟩ "t" []) "b",
      .request .complete "t" "c"] ackFrame ackFrame (Position.message ⟨0, 0, 0, 0⟩ "t" []) := by
    refine ⟨rfl, rfl, rfl, ⟨"b", List.mem_cons_of_mem _ List.mem_cons_self⟩, rfl, rfl, rfl, rfl, ?_⟩
    intro id hid
    cases hid
  refine ⟨_, .receive .complete (.message ackFrame) 0, _, run_sendAll.append <|
    .cons step_begin <| .cons (.request rfl (show "c" ∉ ["a", "b"] by decide)) <|
    .cons .arrive .nil, .receive rfl rfl, ⟨⟨ackFrame, ackFrame, _, hm, Or.inl ⟨_, _, rfl⟩⟩, ?_⟩, ?_⟩
  · exact ⟨_, rfl⟩
  · rfl

end Fulfillment

end AimData
