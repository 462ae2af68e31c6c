/-
  The legacy sender: `_stream_chunks` sends a file in windows and waits for an
  acknowledgement of each; the waiter is registered after the window is sent.

  Acknowledgements arrive at any time, for any chunk that was really sent.  One
  that finds no waiter is dropped, and one that a waiter takes must cover the
  window (`validateAck`); the transfer is sound exactly as long as none that
  covers the window comes without a waiter, and none that does not comes to one.
-/
import AimData.Lib.Run
import AimData.Preview.Publication

namespace AimData

namespace Fulfillment

/-! ## Chunks and acknowledgements -/

/-- `CHUNK_SIZE` -/
def chunkSize : ℕ := 65536

/-- `WINDOW_SIZE` -/
def windowSize : ℕ := 4

/-- A `vai.fulfillment.chunk` message, without the ids of its transfer. -/
structure LegacyChunk where
  chunkIndex : ℕ
  byteOffset : ℕ
  payloadLength : ℕ
  chunkSha256 : String
  payload : String
  deriving DecidableEq

/-- What a transfer sends. -/
structure Transfer where
  transferId : String
  content : Bytes
  totalChunks : ℕ

def Transfer.message (t : Transfer) (chunkIndex : ℕ) : LegacyChunk :=
  let chunkData := Bytes.readAt t.content (chunkIndex * chunkSize) chunkSize
  ⟨chunkIndex, chunkIndex * chunkSize, chunkData.length, hex (sha256 chunkData).1,
    Base64.encode chunkData⟩

def Transfer.windowEnd (t : Transfer) (windowStart : ℕ) : ℕ :=
  min (windowStart + windowSize) t.totalChunks

/-- `window_messages` -/
def Transfer.windowMessages (t : Transfer) (windowStart : ℕ) : List LegacyChunk :=
  (List.range' windowStart (t.windowEnd windowStart - windowStart)).map t.message

/-- What `_validate_ack` reads of an acknowledgement, with its defaults. -/
structure Ack where
  status : String := ""
  ackedThroughIndex : ℤ := -1
  deriving DecidableEq

def validateAck (ack : Ack) (expectedAckIndex : ℕ) (transferId : String) : Except Raised Unit :=
  if ack.status ≠ "continue" then
    raise "ConnectionError" s!"ACK status={ack.status}, aborting transfer {transferId}"
  else if ack.ackedThroughIndex < expectedAckIndex then
    raise "ConnectionError" (s!"ACK acked_through_index={ack.ackedThroughIndex} < expected " ++
      s!"{expectedAckIndex} for transfer_id={transferId}")
  else .ok ()

/-! ## The transfer -/

/-- Where `_stream_chunks` stands: it sends the rest of a window, the first time
    or again; it waits with a future, which a dispatch resolves; or it is over. -/
inductive Pc where
  | sending (again : Bool) (messages : List LegacyChunk)
  | waiting (again : Bool) (future : Option Ack)
  | aborted (e : Raised)
  | returned (chunksSent : ℕ)

/-- A transfer under way, with the chunks really sent, and whether an
    acknowledgement that covers the window has arrived since it was sent. -/
structure Stream where
  windowStart : ℕ
  pc : Pc
  sent : List LegacyChunk
  arrived : Bool

/-- The head of the loop. -/
def Transfer.enter (t : Transfer) (chunksSent : ℕ) (sent : List LegacyChunk) : Stream where
  windowStart := chunksSent
  pc := if chunksSent < t.totalChunks then .sending false (t.windowMessages chunksSent)
    else .returned chunksSent
  sent := sent
  arrived := false

def Transfer.start (t : Transfer) : Stream := t.enter 0 []

/-- `window_end - 1` -/
def Transfer.ackIndex (t : Transfer) (s : Stream) : ℕ := t.windowEnd s.windowStart - 1

/-- An acknowledgement is awaited for every window but the last. -/
def Transfer.awaits (t : Transfer) (s : Stream) : Prop := t.windowEnd s.windowStart < t.totalChunks

instance (t : Transfer) (s : Stream) : Decidable (t.awaits s) :=
  inferInstanceAs (Decidable (_ < _))

/-- `_dispatch` of an acknowledgement: a waiter that is not done takes it, and it
    is dropped otherwise. -/
def Pc.dispatch (ack : Ack) : Pc → Pc
  | .waiting again none => .waiting again (some ack)
  | pc => pc

/-- The transfer is not over. -/
def Pc.underway : Pc → Bool
  | .sending _ _ | .waiting _ _ => true
  | _ => false

/-- The acknowledgement covers the window, which awaits one. -/
def Transfer.covers (t : Transfer) (s : Stream) (index : ℕ) : Prop :=
  s.pc.underway = true ∧ t.awaits s ∧ t.ackIndex s ≤ index

instance (t : Transfer) (s : Stream) (index : ℕ) : Decidable (t.covers s index) :=
  inferInstanceAs (Decidable (_ ∧ _ ∧ _))

/-- What happens in a step. -/
inductive StreamEvent where
  | send
  | wait
  | arrive (index : ℕ)
  | resume
  | timeout

/-- **One step of a transfer**, with acknowledgements of chunks really sent. -/
inductive StreamStep (t : Transfer) : Stream → StreamEvent → Stream → Prop
  | send {s : Stream} {again : Bool} {m : LegacyChunk} {ms : List LegacyChunk} :
    s.pc = .sending again (m :: ms) →
    StreamStep t s .send { s with pc := .sending again ms, sent := s.sent ++ [m] }
  -- `wait_for_action` registers the waiter after the last chunk of the window
  | wait {s : Stream} {again : Bool} : s.pc = .sending again [] →
    StreamStep t s .wait
      (if t.awaits s then { s with pc := .waiting again none }
        else t.enter (t.windowEnd s.windowStart) s.sent)
  | arrive {s : Stream} {index : ℕ} : index ∈ s.sent.map LegacyChunk.chunkIndex →
    StreamStep t s (.arrive index)
      { s with pc := s.pc.dispatch ⟨"continue", index⟩
               arrived := s.arrived || decide (t.covers s index) }
  | resume {s : Stream} {again : Bool} {ack : Ack} : s.pc = .waiting again (some ack) →
    StreamStep t s .resume
      (match validateAck ack (t.ackIndex s) t.transferId with
        | .ok _ => t.enter (t.windowEnd s.windowStart) s.sent
        | .error e => { s with pc := .aborted e })
  | resend {s : Stream} : s.pc = .waiting false none →
    StreamStep t s .timeout { s with pc := .sending true (t.windowMessages s.windowStart) }
  | giveUp {s : Stream} : s.pc = .waiting true none →
    StreamStep t s .timeout { s with pc := .aborted ⟨"TimeoutError", "No ACK after retry"⟩ }

/-- **No acknowledgement is lost, and none aborts**: a transfer that aborts has
    waited twice for an acknowledgement that did not arrive, and one that has
    arrived is with the waiter. -/
structure Sound (t : Transfer) (s : Stream) : Prop where
  aborted : ∀ e, s.pc = .aborted e → e.type = "TimeoutError" ∧ s.arrived = false
  delivered : s.arrived = true →
    ∃ again ack, s.pc = .waiting again (some ack) ∧ (t.ackIndex s : ℤ) ≤ ack.ackedThroughIndex

/-- The acknowledgement comes in time: a waiter that takes it waits for no more,
    and without a waiter it does not cover the window that is being sent. -/
def InTime (t : Transfer) (s : Stream) : StreamEvent → Prop
  | .arrive index =>
    match s.pc with
    | .waiting _ none => t.ackIndex s ≤ index
    | .sending _ _ => ¬ t.covers s index
    | _ => True
  | _ => True

def TimelyArrivals (t : Transfer) (s : Stream) (e : StreamEvent) (s' : Stream) : Prop :=
  StreamStep t s e s' ∧ InTime t s e

theorem validateAck_ok {ack : Ack} {expected : ℕ} {transferId : String}
    (hs : ack.status = "continue") (hi : (expected : ℤ) ≤ ack.ackedThroughIndex) :
    validateAck ack expected transferId = .ok () := by
  rw [validateAck, if_neg (not_not.2 hs), if_neg (not_lt.2 hi)]

theorem sound_enter (t : Transfer) (chunksSent : ℕ) (sent : List LegacyChunk) :
    Sound t (t.enter chunksSent sent) where
  aborted := by
    intro e he
    rw [Transfer.enter] at he
    dsimp only at he
    split_ifs at he
  delivered := by
    intro h
    cases h

/-- What holds while acknowledgements come in time. -/
structure StreamInv (t : Transfer) (s : Stream) : Prop where
  sound : Sound t s
  /-- A resolved waiter has an acknowledgement that covers the window. -/
  resolved : ∀ again ack, s.pc = .waiting again (some ack) →
    ack.status = "continue" ∧ (t.ackIndex s : ℤ) ≤ ack.ackedThroughIndex

theorem streamInv_enter (t : Transfer) (chunksSent : ℕ) (sent : List LegacyChunk) :
    StreamInv t (t.enter chunksSent sent) where
  sound := sound_enter t chunksSent sent
  resolved := by
    intro again ack h
    rw [Transfer.enter] at h
    dsimp only at h
    split_ifs at h

/-- A transfer that neither is over nor has a resolved waiter. -/
theorem StreamInv.not_arrived {t : Transfer} {s : Stream} (h : StreamInv t s)
    (hpc : ∀ again ack, s.pc ≠ .waiting again (some ack)) : s.arrived = false := by
  cases ha : s.arrived with
  | false => rfl
  | true =>
    obtain ⟨again, ack, hw, -⟩ := h.sound.delivered ha
    exact absurd hw (hpc again ack)

/-- A transfer under way without an acknowledgement. -/
theorem StreamInv.of_quiet {t : Transfer} {s : Stream} (ha : s.arrived = false)
    (he : ∀ e, s.pc ≠ .aborted e) (hw : ∀ again ack, s.pc ≠ .waiting again (some ack)) :
    StreamInv t s where
  sound :=
    { aborted := fun e hpc => absurd hpc (he e)
      delivered := fun h => by rw [ha] at h; cases h }
  resolved := fun again ack hpc => absurd hpc (hw again ack)

/-- An acknowledgement that comes in time. -/
theorem streamInv_arrive {t : Transfer} {s : Stream} {index : ℕ} (h : StreamInv t s)
    (htime : InTime t s (.arrive index)) :
    StreamInv t { s with pc := s.pc.dispatch ⟨"continue", index⟩
                         arrived := s.arrived || decide (t.covers s index) } := by
  have hquiet : (∀ again ack, s.pc ≠ .waiting again (some ack)) → ¬ t.covers s index →
      (s.arrived || decide (t.covers s index)) = false := by
    intro hw hc
    rw [h.not_arrived hw, decide_eq_false hc]
    rfl
  cases hpc : s.pc with
  | sending again ms =>
    have hc : ¬ t.covers s index := by
      simp only [InTime, hpc] at htime
      exact htime
    have ha := hquiet (fun a k hk => by rw [hpc] at hk; cases hk) hc
    exact .of_quiet ha (fun e he => by cases he) fun a k hk => by cases hk
  | waiting again future =>
    cases future with
    | none =>
      have hc : (t.ackIndex s : ℤ) ≤ index := by
        simp only [InTime, hpc] at htime
        exact_mod_cast htime
      refine ⟨⟨?_, fun _ => ⟨again, _, rfl, hc⟩⟩, ?_⟩
      · intro e he
        cases he
      · intro a k hk
        cases hk
        exact ⟨rfl, hc⟩
    | some ack =>
      have hr := h.resolved again ack hpc
      refine ⟨⟨?_, fun _ => ⟨again, ack, rfl, hr.2⟩⟩, ?_⟩
      · intro e he
        cases he
      · intro a k hk
        cases hk
        exact hr
  | aborted e =>
    have hc : ¬ t.covers s index := by
      rintro ⟨hu, -⟩
      rw [hpc] at hu
      cases hu
    have ha := hquiet (fun a k hk => by rw [hpc] at hk; cases hk) hc
    refine ⟨⟨?_, ?_⟩, ?_⟩
    · intro e' he'
      cases he'
      exact ⟨(h.sound.aborted e hpc).1, ha⟩
    · intro hs
      exact absurd (hs.symm.trans ha) (by simp)
    · intro a k hk
      cases hk
  | returned n =>
    have hc : ¬ t.covers s index := by
      rintro ⟨hu, -⟩
      rw [hpc] at hu
      cases hu
    have ha := hquiet (fun a k hk => by rw [hpc] at hk; cases hk) hc
    exact .of_quiet ha (fun e he => by cases he) fun a k hk => by cases hk

/-- **Every step keeps the transfer sound**, if its acknowledgement comes in time. -/
theorem streamInv_step {t : Transfer} {s s' : Stream} {e : StreamEvent} (h : StreamInv t s)
    (hstep : TimelyArrivals t s e s') : StreamInv t s' := by
  obtain ⟨hstep, htime⟩ := hstep
  cases hstep with
  | @send again m ms hpc =>
    have ha : s.arrived = false := h.not_arrived fun a k hk => by rw [hpc] at hk; cases hk
    exact .of_quiet ha (fun e he => by cases he) fun a k hk => by cases hk
  | @wait again hpc =>
    have ha : s.arrived = false := h.not_arrived fun a k hk => by rw [hpc] at hk; cases hk
    by_cases hw : t.awaits s
    · rw [if_pos hw]
      exact .of_quiet ha (fun e he => by cases he) fun a k hk => by cases hk
    · rw [if_neg hw]
      exact streamInv_enter t _ _
  | arrive hi => exact streamInv_arrive h htime
  | @resume again ack hpc =>
    obtain ⟨hstatus, hindex⟩ := h.resolved again ack hpc
    rw [validateAck_ok hstatus hindex]
    exact streamInv_enter t _ _
  | resend hpc =>
    have ha : s.arrived = false := h.not_arrived fun a k hk => by rw [hpc] at hk; cases hk
    exact .of_quiet ha (fun e he => by cases he) fun a k hk => by cases hk
  | giveUp hpc =>
    have ha : s.arrived = false := h.not_arrived fun a k hk => by rw [hpc] at hk; cases hk
    refine ⟨⟨?_, ?_⟩, ?_⟩
    · intro e he
      cases he
      exact ⟨rfl, ha⟩
    · intro hs
      exact absurd (hs.symm.trans ha) (by simp)
    · intro a k hk
      cases hk

/-- **A transfer whose acknowledgements come in time is sound**, in every run. -/
theorem streamChunks_sound {t : Transfer} {es : List StreamEvent} {s : Stream}
    (h : Run (TimelyArrivals t) t.start es s) : Sound t s := by
  have hinv : StreamInv t s :=
    h.invariant (fun hs hstep => streamInv_step hs hstep) (streamInv_enter t 0 [])
  exact hinv.sound

/-! ## An acknowledgement that is lost -/

/-- A file of five chunks. -/
def fiveChunks : Transfer := ⟨"t", List.replicate (4 * chunkSize + 1) 0, 5⟩

theorem fiveChunks_three :
    3 ∈ ([0, 1, 2, 3].map fiveChunks.message).map LegacyChunk.chunkIndex := by
  simp [Transfer.message]

/-- The acknowledgement of the first window arrives before its waiter, and the
    transfer then waits for it twice. -/
theorem streamChunks_loses_ack : ¬ ∀ (t : Transfer) (es : List StreamEvent) (s : Stream),
    Run (StreamStep t) t.start es s → Sound t s := by
  intro h
  have hrun : Run (StreamStep fiveChunks) fiveChunks.start
      [.send, .send, .send, .send, .arrive 3, .wait, .timeout, .send, .send, .send, .send, .wait,
        .timeout] _ :=
    .cons (.send rfl) (.cons (.send rfl) (.cons (.send rfl) (.cons (.send rfl)
      (.cons (.arrive fiveChunks_three) (.cons (.wait rfl) (.cons (.resend rfl)
      (.cons (.send rfl) (.cons (.send rfl) (.cons (.send rfl) (.cons (.send rfl)
      (.cons (.wait rfl) (.cons (.giveUp rfl) .nil))))))))))))
  have harrived := ((h fiveChunks _ _ hrun).aborted _ rfl).2
  cases harrived

/-- The acknowledgement arrives while the transfer waits for it. -/
theorem streamChunks_sound_fiveChunks : ∃ s, s.pc = .returned 5 ∧ Sound fiveChunks s := by
  have hrun : Run (TimelyArrivals fiveChunks) fiveChunks.start
      [.send, .send, .send, .send, .wait, .arrive 3, .resume, .send, .wait] _ :=
    .cons ⟨.send rfl, trivial⟩ (.cons ⟨.send rfl, trivial⟩ (.cons ⟨.send rfl, trivial⟩
      (.cons ⟨.send rfl, trivial⟩ (.cons ⟨.wait rfl, trivial⟩
      (.cons ⟨.arrive fiveChunks_three, le_refl 3⟩ (.cons ⟨.resume rfl, trivial⟩
      (.cons ⟨.send rfl, trivial⟩ (.cons ⟨.wait rfl, trivial⟩ .nil))))))))
  exact ⟨_, rfl, streamChunks_sound hrun⟩

end Fulfillment

end AimData
