/-
  `TrafficSession`: the encrypted traffic of an established Trust Channel.

  `encrypt` reserves its sequence before it calls the cipher, so that no IV is
  used twice whatever raises in between (`encrypt_ivs_unique`): its statements
  are the steps of `ChannelStep`, and a call may be left by an exception
  after any of them.  `receive` advances the session only after its last check
  (`receive_ok`), so that a rejected frame leaves no trace (`receive_in_order`).
-/
import AimData.Lib.Run
import AimData.TrustChannel.Protocol

namespace AimData.TrustChannel

/-- `AESGCM(key)` -/
structure Cipher where
  encrypt (iv plaintext : Bytes) : Except Raised Bytes
  decrypt (iv ciphertext : Bytes) : Except Raised Bytes

structure TrafficSession where
  c2s : Bytes
  s2c : Bytes
  nonce : Bytes
  outbound : ℤ := 0
  inbound : ℤ := -1

section
variable {Message : Type} (aesgcm : Bytes → Except Raised Cipher)
  (dumps : Message → Except Raised Bytes) (loads : Bytes → Except Raised Json)

namespace TrafficSession

/-! ## Sending -/

def dataFrame (sequence : ℤ) (encrypted : Bytes) : Dict :=
  [("type", .str "data"), ("sequence", .int sequence),
    ("ciphertext", .str (Base64.encode (encrypted.take (encrypted.length - 16)))),
    ("auth_tag", .str (Base64.encode (encrypted.drop (encrypted.length - 16))))]

/-- `AESGCM(key).encrypt(iv, plaintext, None)` -/
def sealData (key iv plaintext : Bytes) : Except Raised Bytes := do
  let cipher ← aesgcm key
  cipher.encrypt iv plaintext

/-- `encrypt`: the session it leaves, the IVs given to the cipher, and the
    frame or the exception. -/
def encrypt (s : TrafficSession) (message : Message) :
    TrafficSession × List Bytes × Except Raised Dict :=
  let sequence := s.outbound
  match deriveIv s.nonce (.int sequence) false with
  | .error e => (s, [], .error e)
  | .ok iv =>
    match dumps message with
    | .error e => (s, [], .error e)
    | .ok plaintext =>
      -- reserved before the cipher is called
      let s' := { s with outbound := s.outbound + 1 }
      match sealData aesgcm s.c2s iv plaintext with
      | .error e => (s', [iv], .error e)
      | .ok encrypted => (s', [iv], .ok (dataFrame sequence encrypted))

/-! ## Receiving -/

/-- `AESGCM(key).decrypt(iv, ciphertext + tag, None)`, its arguments evaluated in
    their order. -/
def openData (s : TrafficSession) (frame : Dict) (sequence : ℕ) : Except Raised Bytes := do
  let cipher ← aesgcm s.s2c
  let iv ← deriveIv s.nonce (.int sequence) true
  let ciphertext ← decodeB64 (get frame "ciphertext") none
  let tag ← decodeB64 (get frame "auth_tag") (some 16)
  cipher.decrypt iv (ciphertext ++ tag)

/-- The payload of a frame: decrypted for data, plain for events. -/
def payloadOf (s : TrafficSession) (frame : Dict) (sequence : ℕ) : Except Raised Json :=
  match frame.lookup "type" with
  | none => raise "KeyError" "type"
  | some type =>
    if type = .str "data" then do
      let plaintext ← openData aesgcm s frame sequence
      loads plaintext
    else .ok (get frame "payload")

def objectOf : Json → Except Raised Dict
  | .obj payload => .ok payload
  | _ => raise "ValueError" "Trust Channel application payload must be an object"

/-- The checks of `receive`, up to the update of the session. -/
def checkFrame (s : TrafficSession) (frame : Dict) : Except Raised (ℕ × Dict) := do
  let sequence ← validateSequence (get frame "sequence")
  if (sequence : ℤ) ≤ s.inbound then
    raise "ValueError" "Replayed or older Trust Channel sequence"
  else do
    let payload ← payloadOf aesgcm loads s frame sequence
    let payload ← objectOf payload
    return (sequence, payload)

def receive (s : TrafficSession) (frame : Dict) : TrafficSession × Except Raised Dict :=
  match checkFrame aesgcm loads s frame with
  | .error e => (s, .error e)
  | .ok (sequence, payload) => ({ s with inbound := sequence }, .ok payload)

/-- `receive` of every frame of a list. -/
def receiveAll : TrafficSession → List Dict → TrafficSession × List (Except Raised Dict)
  | s, [] => (s, [])
  | s, frame :: frames =>
    let (s', result) := receive aesgcm loads s frame
    let (s'', results) := receiveAll s' frames
    (s'', result :: results)

/-- The accepted frames of a list, with their payloads. -/
def accepted : TrafficSession → List Dict → List (Dict × Dict)
  | _, [] => []
  | s, frame :: frames =>
    match receive aesgcm loads s frame with
    | (s', .error _) => accepted s' frames
    | (s', .ok payload) => (frame, payload) :: accepted s' frames

/-- A frame's sequence number. -/
def sequenceOf (frame : Dict) : ℤ :=
  match get frame "sequence" with
  | .int i => i
  | _ => -1

/-- A data frame opens under the server's IV of its own sequence. -/
def OpensData (s : TrafficSession) (frame payload : Dict) : Prop :=
  ∃ cipher iv ciphertext tag plaintext,
    aesgcm s.s2c = .ok cipher ∧ deriveIv s.nonce (get frame "sequence") true = .ok iv ∧
    get frame "ciphertext" = .str (Base64.encode ciphertext) ∧
    get frame "auth_tag" = .str (Base64.encode tag) ∧ tag.length = 16 ∧
    cipher.decrypt iv (ciphertext ++ tag) = .ok plaintext ∧ loads plaintext = .ok (.obj payload)

end TrafficSession

end

open TrafficSession

section
variable {Message : Type} {aesgcm : Bytes → Except Raised Cipher}
  {dumps : Message → Except Raised Bytes} {loads : Bytes → Except Raised Json}

/-! ## What `receive` accepts -/

theorem receive_error {s : TrafficSession} {frame : Dict} {e : Raised}
    (h : (receive aesgcm loads s frame).2 = .error e) : receive aesgcm loads s frame = (s, .error e) := by
  rw [receive] at h ⊢
  cases hc : checkFrame aesgcm loads s frame with
  | error e' => rw [hc] at h; cases h; rfl
  | ok p => rw [hc] at h; cases h

theorem objectOf_ok {v : Json} {payload : Dict} (h : TrafficSession.objectOf v = .ok payload) :
    v = .obj payload := by
  cases v with
  | obj l => cases h; rfl
  | _ => cases h

/-- **An accepted frame is newer than every frame before it**, and only its
    sequence enters the session. -/
theorem receive_ok {s : TrafficSession} {frame payload : Dict}
    (h : (receive aesgcm loads s frame).2 = .ok payload) :
    receive aesgcm loads s frame = ({ s with inbound := sequenceOf frame }, .ok payload) ∧
      s.inbound < sequenceOf frame ∧
      (frame.lookup "type" = some (.str "data") → OpensData aesgcm loads s frame payload) := by
  rw [receive] at h ⊢
  cases hc : checkFrame aesgcm loads s frame with
  | error e => rw [hc] at h; cases h
  | ok p =>
    obtain ⟨n, payload'⟩ := p
    rw [hc] at h
    cases h
    obtain ⟨n', hn, hc⟩ := Except.bind_eq_ok.1 hc
    split_ifs at hc with hle
    · cases hc
    · obtain ⟨v, hv, hc⟩ := Except.bind_eq_ok.1 hc
      obtain ⟨payload', hp, hc⟩ := Except.bind_eq_ok.1 hc
      cases hc
      obtain ⟨hseq, -⟩ := validateSequence_ok.1 hn
      have hof : sequenceOf frame = n := by rw [sequenceOf, hseq]
      refine ⟨by rw [hof], by rw [hof]; omega, ?_⟩
      intro htype
      rw [payloadOf, htype] at hv
      simp only [if_true] at hv
      obtain ⟨plaintext, hopen, hv⟩ := Except.bind_eq_ok.1 hv
      obtain ⟨cipher, hcipher, hopen⟩ := Except.bind_eq_ok.1 hopen
      obtain ⟨iv, hiv, hopen⟩ := Except.bind_eq_ok.1 hopen
      obtain ⟨ciphertext, hct, hopen⟩ := Except.bind_eq_ok.1 hopen
      obtain ⟨tag, htag, hopen⟩ := Except.bind_eq_ok.1 hopen
      obtain ⟨htag, hlen⟩ := decodeB64_ok htag
      exact ⟨cipher, iv, ciphertext, tag, plaintext, hcipher, by rw [hseq]; exact hiv,
        (decodeB64_ok hct).1, htag, hlen 16 rfl, hopen, by rw [hv, objectOf_ok hp]⟩

theorem accepted_cons_error {s : TrafficSession} {frame : Dict} {frames : List Dict} {e : Raised}
    (h : (receive aesgcm loads s frame).2 = .error e) :
    accepted aesgcm loads s (frame :: frames) = accepted aesgcm loads s frames := by
  rw [accepted, receive_error h]

theorem accepted_cons_ok {s : TrafficSession} {frame payload : Dict} {frames : List Dict}
    (h : (receive aesgcm loads s frame).2 = .ok payload) :
    accepted aesgcm loads s (frame :: frames) =
      (frame, payload) :: accepted aesgcm loads { s with inbound := sequenceOf frame } frames := by
  rw [accepted, (receive_ok h).1]

/-- What is accepted later is newer than the session. -/
theorem inbound_lt_accepted : ∀ {frames : List Dict} {s : TrafficSession} {p : Dict × Dict},
    p ∈ accepted aesgcm loads s frames → s.inbound < sequenceOf p.1
  | frame :: frames, s, p, hp => by
    cases hr : (receive aesgcm loads s frame).2 with
    | error e =>
      rw [accepted_cons_error hr] at hp
      exact inbound_lt_accepted hp
    | ok payload =>
      rw [accepted_cons_ok hr] at hp
      have hlt := (receive_ok hr).2.1
      rcases List.mem_cons.1 hp with rfl | hp
      · exact hlt
      · exact hlt.trans (inbound_lt_accepted hp)

theorem accepted_sorted : ∀ (frames : List Dict) (s : TrafficSession),
    ((accepted aesgcm loads s frames).map fun p => sequenceOf p.1).Pairwise (· < ·)
  | [], _ => List.Pairwise.nil
  | frame :: frames, s => by
    cases hr : (receive aesgcm loads s frame).2 with
    | error e => rw [accepted_cons_error hr]; exact accepted_sorted frames s
    | ok payload =>
      rw [accepted_cons_ok hr, List.map_cons, List.pairwise_cons]
      refine ⟨?_, accepted_sorted frames _⟩
      intro n hn
      obtain ⟨p, hp, rfl⟩ := List.mem_map.1 hn
      exact inbound_lt_accepted hp

/-- The keys and the nonce never change, so a frame opens the same way later. -/
theorem accepted_opens : ∀ {frames : List Dict} {s : TrafficSession} {p : Dict × Dict},
    p ∈ accepted aesgcm loads s frames → p.1.lookup "type" = some (.str "data") →
      OpensData aesgcm loads s p.1 p.2
  | frame :: frames, s, p, hp, htype => by
    cases hr : (receive aesgcm loads s frame).2 with
    | error e =>
      rw [accepted_cons_error hr] at hp
      exact accepted_opens hp htype
    | ok payload =>
      rw [accepted_cons_ok hr] at hp
      rcases List.mem_cons.1 hp with rfl | hp
      · exact (receive_ok hr).2.2 htype
      · change OpensData aesgcm loads { s with inbound := sequenceOf frame } p.1 p.2
        exact accepted_opens hp htype

/-- **A rejected frame leaves no trace** in what comes after it. -/
theorem receiveAll_insert {bad : Dict} {e : Raised} {after : List Dict} :
    ∀ {before : List Dict} {s : TrafficSession},
      (receive aesgcm loads (receiveAll aesgcm loads s before).1 bad).2 = .error e →
      receiveAll aesgcm loads s (before ++ bad :: after) =
        ((receiveAll aesgcm loads s (before ++ after)).1,
          (receiveAll aesgcm loads s (before ++ after)).2.insertIdx before.length (.error e))
  | [], s, h => by
    have hbad : receive aesgcm loads s bad = (s, .error e) := receive_error h
    simp only [List.nil_append, receiveAll, hbad, List.length_nil, List.insertIdx_zero]
  | frame :: before, s, h => by
    simp only [List.cons_append, receiveAll, List.length_cons, List.insertIdx_succ_cons,
      receiveAll_insert (s := (receive aesgcm loads s frame).1) h]

/-- **Frames are accepted in order and once**: the accepted sequences increase
    strictly, an accepted data frame opens under the IV of its sequence, and a
    rejected frame changes neither the session nor what becomes of the others. -/
theorem receive_in_order (aesgcm : Bytes → Except Raised Cipher) (loads : Bytes → Except Raised Json)
    (s : TrafficSession) (frames : List Dict) :
    ((accepted aesgcm loads s frames).map fun p => sequenceOf p.1).Pairwise (· < ·) ∧
    ((accepted aesgcm loads s frames).map Prod.fst).Nodup ∧
    (∀ p ∈ accepted aesgcm loads s frames, p.1.lookup "type" = some (.str "data") →
      OpensData aesgcm loads s p.1 p.2) ∧
    (∀ frame e, (receive aesgcm loads s frame).2 = .error e →
      (receive aesgcm loads s frame).1 = s) ∧
    (∀ before bad after e, frames = before ++ bad :: after →
      (receive aesgcm loads (receiveAll aesgcm loads s before).1 bad).2 = .error e →
      receiveAll aesgcm loads s frames = ((receiveAll aesgcm loads s (before ++ after)).1,
        (receiveAll aesgcm loads s (before ++ after)).2.insertIdx before.length (.error e))) := by
  have hsorted : ((accepted aesgcm loads s frames).map fun p => sequenceOf p.1).Pairwise (· < ·) :=
    accepted_sorted frames s
  refine ⟨hsorted, ?_, fun p hp => accepted_opens hp, ?_, ?_⟩
  · apply List.Nodup.of_map sequenceOf
    rw [List.map_map]
    exact hsorted.imp fun h => h.ne
  · intro frame e h
    rw [receive_error h]
  · rintro before bad after e rfl h
    exact receiveAll_insert h

/-! ## IVs -/

/-- Where a call of `encrypt` stands, with what its statements have computed. -/
inductive Encrypting where
  | idle
  | derived (sequence : ℤ) (iv : Bytes)
  | dumped (sequence : ℤ) (iv plaintext : Bytes)
  | reserved (sequence : ℤ) (iv plaintext : Bytes)
  deriving DecidableEq, Repr

/-- A session, its running call, and the IVs given to the cipher so far. -/
structure Channel where
  session : TrafficSession
  call : Encrypting
  used : List Bytes

/-- A session before its first call. -/
def Channel.start (s : TrafficSession) : Channel := ⟨s, .idle, []⟩

/-- What happens in a step. -/
inductive ChannelEvent (Message : Type) where
  | derive (message : Message)
  | dumps (message : Message)
  | reserve
  | cipher
  | raised
  | receive (frame : Dict)

section
variable (aesgcm : Bytes → Except Raised Cipher) (dumps : Message → Except Raised Bytes)
  (loads : Bytes → Except Raised Json)

/-- The statements of `encrypt`, an exception at any of them, and `receive`. -/
inductive ChannelStep : Channel → ChannelEvent Message → Channel → Prop
  | derive {c : Channel} {message : Message} {iv : Bytes} :
    c.call = .idle → deriveIv c.session.nonce (.int c.session.outbound) false = .ok iv →
    ChannelStep c (.derive message) { c with call := .derived c.session.outbound iv }
  | dumps {c : Channel} {message : Message} {n : ℤ} {iv plaintext : Bytes} :
    c.call = .derived n iv → dumps message = .ok plaintext →
    ChannelStep c (.dumps message) { c with call := .dumped n iv plaintext }
  | reserve {c : Channel} {n : ℤ} {iv plaintext : Bytes} :
    c.call = .dumped n iv plaintext →
    ChannelStep c .reserve
      { c with session := { c.session with outbound := c.session.outbound + 1 }
               call := .reserved n iv plaintext }
  -- the cipher has the IV, whether it then returns or raises
  | cipher {c : Channel} {n : ℤ} {iv plaintext : Bytes} :
    c.call = .reserved n iv plaintext →
    ChannelStep c .cipher { c with call := .idle, used := c.used ++ [iv] }
  | raised {c : Channel} : ChannelStep c .raised { c with call := .idle }
  | receive {c : Channel} {frame : Dict} : c.call = .idle →
    ChannelStep c (.receive frame) { c with session := (receive aesgcm loads c.session frame).1 }

end

/-- A call of `encrypt` is a run of its statements. -/
theorem encrypt_run (s : TrafficSession) (used : List Bytes) (message : Message) :
    ∃ es, Run (ChannelStep aesgcm dumps loads) ⟨s, .idle, used⟩ es
      ⟨(encrypt aesgcm dumps s message).1, .idle, used ++ (encrypt aesgcm dumps s message).2.1⟩ := by
  rw [encrypt]
  cases hiv : deriveIv s.nonce (.int s.outbound) false with
  | error e => exact ⟨[], by simpa using Run.nil⟩
  | ok iv =>
    cases hp : dumps message with
    | error e => exact ⟨[], by simpa using Run.nil⟩
    | ok plaintext =>
      refine ⟨[.derive message, .dumps message, .reserve, .cipher], ?_⟩
      have hrun : Run (ChannelStep aesgcm dumps loads) ⟨s, .idle, used⟩
          [.derive message, .dumps message, .reserve, .cipher]
          ⟨{ s with outbound := s.outbound + 1 }, .idle, used ++ [iv]⟩ :=
        .cons (.derive rfl hiv) (.cons (.dumps rfl hp) (.cons (.reserve rfl) (.cons (.cipher rfl) .nil)))
      dsimp only
      cases sealData aesgcm s.c2s iv plaintext with
      | error e => exact hrun
      | ok encrypted => exact hrun

/-- The sequence below which every IV was given to the cipher. -/
def Channel.next (c : Channel) : ℤ :=
  match c.call with
  | .reserved n _ _ => n
  | _ => c.session.outbound

/-- The IVs given to the cipher are those of distinct sequences below `next`, and
    a running call holds the IV of a sequence that is not below it. -/
structure ChannelInv (nonce : Bytes) (c : Channel) : Prop where
  nonce_eq : c.session.nonce = nonce
  used_lt : ∀ iv ∈ c.used, ∃ n < c.next, deriveIv nonce (.int n) false = .ok iv
  used_nodup : c.used.Nodup
  pending : ∀ n iv plaintext, c.call = .derived n iv ∨ c.call = .dumped n iv plaintext →
    n = c.session.outbound ∧ deriveIv nonce (.int n) false = .ok iv
  reserved : ∀ n iv plaintext, c.call = .reserved n iv plaintext →
    n < c.session.outbound ∧ deriveIv nonce (.int n) false = .ok iv

theorem channelInv_start (s : TrafficSession) : ChannelInv s.nonce (.start s) where
  nonce_eq := rfl
  used_lt := by intro iv hiv; cases hiv
  used_nodup := List.nodup_nil
  pending := by rintro n iv plaintext (h | h) <;> cases h
  reserved := by intro n iv plaintext h; cases h

theorem Channel.next_le {nonce : Bytes} {c : Channel} (h : ChannelInv nonce c) :
    c.next ≤ c.session.outbound := by
  rw [Channel.next]
  cases hc : c.call with
  | reserved n iv plaintext => exact (h.reserved n iv plaintext hc).1.le
  | _ => exact le_rfl

theorem channelInv_step {nonce : Bytes} {c c' : Channel} {e : ChannelEvent Message}
    (h : ChannelInv nonce c) (hstep : ChannelStep aesgcm dumps loads c e c') : ChannelInv nonce c' := by
  -- the IVs used are below whatever the bound becomes, if it does not fall
  have hlt : ∀ m, c.next ≤ m → ∀ iv ∈ c.used, ∃ n < m, deriveIv nonce (.int n) false = .ok iv := by
    intro m hm iv hiv
    obtain ⟨n, hn, hd⟩ := h.used_lt iv hiv
    exact ⟨n, hn.trans_le hm, hd⟩
  have hnext := Channel.next_le h
  cases hstep with
  | @derive message iv hc hiv =>
    refine ⟨h.nonce_eq, hlt _ hnext, h.used_nodup, ?_, ?_⟩
    · rintro n iv' plaintext (hp | hp)
      · cases hp; exact ⟨rfl, by rw [← h.nonce_eq]; exact hiv⟩
      · cases hp
    · intro n iv' plaintext hp; cases hp
  | @dumps message n iv plaintext hc hp =>
    obtain ⟨hn, hiv⟩ := h.pending n iv plaintext (Or.inl hc)
    refine ⟨h.nonce_eq, hlt _ hnext, h.used_nodup, ?_, ?_⟩
    · rintro n' iv' plaintext' (hp | hp)
      · cases hp
      · cases hp; exact ⟨hn, hiv⟩
    · intro n' iv' plaintext' hp; cases hp
  | @reserve n iv plaintext hc =>
    obtain ⟨hn, hiv⟩ := h.pending n iv plaintext (Or.inr hc)
    refine ⟨h.nonce_eq, hlt _ (hn ▸ hnext), h.used_nodup, ?_, ?_⟩
    · rintro n' iv' plaintext' (hp | hp) <;> cases hp
    · intro n' iv' plaintext' hp
      cases hp
      exact ⟨by change n < c.session.outbound + 1; omega, hiv⟩
  | @cipher n iv plaintext hc =>
    obtain ⟨hn, hiv⟩ := h.reserved n iv plaintext hc
    have hc' : c.next = n := by rw [Channel.next, hc]
    refine ⟨h.nonce_eq, ?_, ?_, ?_, ?_⟩
    · intro iv' hiv'
      rcases List.mem_append.1 hiv' with hiv' | hiv'
      · exact hlt _ hnext iv' hiv'
      · obtain rfl := List.mem_singleton.1 hiv'
        exact ⟨n, hn, hiv⟩
    · rw [List.nodup_append]
      refine ⟨h.used_nodup, List.nodup_singleton iv, ?_⟩
      rintro iv₁ h₁ iv₂ h₂ rfl
      obtain rfl := List.mem_singleton.1 h₂
      obtain ⟨m, hm, hd⟩ := h.used_lt iv₁ h₁
      have := Json.int.inj (deriveIv_inj hd hiv).1
      omega
    · rintro n' iv' plaintext' (hp | hp) <;> cases hp
    · intro n' iv' plaintext' hp; cases hp
  | raised =>
    refine ⟨h.nonce_eq, hlt _ hnext, h.used_nodup, ?_, ?_⟩
    · rintro n iv plaintext (hp | hp) <;> cases hp
    · intro n iv plaintext hp; cases hp
  | @receive frame hc =>
    have hs : (receive aesgcm loads c.session frame).1.nonce = c.session.nonce ∧
        (receive aesgcm loads c.session frame).1.outbound = c.session.outbound := by
      rw [receive]
      cases checkFrame aesgcm loads c.session frame <;> exact ⟨rfl, rfl⟩
    have hle : c.next ≤ Channel.next ⟨(receive aesgcm loads c.session frame).1, c.call, c.used⟩ := by
      simp only [Channel.next, hc, hs.2, le_refl]
    refine ⟨hs.1.trans h.nonce_eq, hlt _ hle, h.used_nodup, ?_, ?_⟩
    · rintro n iv plaintext (hp | hp) <;> rw [hc] at hp <;> cases hp
    · intro n iv plaintext hp; rw [hc] at hp; cases hp

/-- Past the last sequence, `encrypt` raises before anything else. -/
theorem encrypt_exhausted {s : TrafficSession} (h : (limit : ℤ) ≤ s.outbound) (message : Message) :
    encrypt aesgcm dumps s message =
      (s, [], raise "ValueError" "Trust Channel sequence out of range") := by
  have hv : validateSequence (.int s.outbound) =
      raise "ValueError" "Trust Channel sequence out of range" := by
    rw [validateSequence, if_neg (by omega)]
  rw [encrypt, deriveIv, hv]
  rfl

/-- **No IV is used twice**: over any run of a session, with calls left by an
    exception anywhere, the IVs given to the cipher are distinct, none is an IV
    of the server's direction, and an exhausted session encrypts nothing. -/
theorem encrypt_ivs_unique {s : TrafficSession} {c : Channel} {es : List (ChannelEvent Message)}
    (h : Run (ChannelStep aesgcm dumps loads) (.start s) es c) :
    c.used.Nodup ∧
    (∀ iv ∈ c.used, ∀ sequence, deriveIv s.nonce sequence true ≠ .ok iv) ∧
    ((limit : ℤ) ≤ c.session.outbound → ∀ message, encrypt aesgcm dumps c.session message =
      (c.session, [], raise "ValueError" "Trust Channel sequence out of range")) := by
  have hinv : ChannelInv s.nonce c := h.invariant channelInv_step (channelInv_start s)
  refine ⟨hinv.used_nodup, ?_, encrypt_exhausted⟩
  intro iv hiv sequence hserver
  obtain ⟨n, -, hd⟩ := hinv.used_lt iv hiv
  have := (deriveIv_inj hd hserver).2
  cases this

end

/-- A key of no valid length, as `AESGCM` refuses it. -/
def refusedKey (_ : Bytes) : Except Raised Cipher :=
  raise "ValueError" "AESGCM key must be 128, 192, or 256 bits."

/-- Two calls under a key that the cipher refuses: the second has an IV of its own. -/
theorem encrypt_ivs_unique_refusedKey :
    ([List.replicate 12 0, List.replicate 11 0 ++ [1]] : List Bytes).Nodup ∧
    (∀ iv ∈ ([List.replicate 12 0, List.replicate 11 0 ++ [1]] : List Bytes), ∀ sequence,
      deriveIv (List.replicate 12 0) sequence true ≠ .ok iv) ∧
    ((limit : ℤ) ≤ 2 → ∀ message : Unit,
      encrypt refusedKey (fun _ => .ok [123, 125]) ⟨[], [], List.replicate 12 0, 2, -1⟩ message =
        (⟨[], [], List.replicate 12 0, 2, -1⟩, [],
          raise "ValueError" "Trust Channel sequence out of range")) := by
  have h : Run (ChannelStep refusedKey (fun _ : Unit => .ok [123, 125])
      fun _ => raise "ValueError" "") (.start ⟨[], [], List.replicate 12 0, 0, -1⟩)
      [.derive (), .dumps (), .reserve, .cipher, .derive (), .dumps (), .reserve, .cipher]
      ⟨⟨[], [], List.replicate 12 0, 2, -1⟩, .idle,
        [List.replicate 12 0, List.replicate 11 0 ++ [1]]⟩ :=
    .cons (.derive rfl rfl) (.cons (.dumps rfl rfl) (.cons (.reserve rfl) (.cons (.cipher rfl)
      (.cons (.derive rfl rfl) (.cons (.dumps rfl rfl) (.cons (.reserve rfl)
        (.cons (.cipher rfl) .nil)))))))
  exact encrypt_ivs_unique h

end AimData.TrustChannel
