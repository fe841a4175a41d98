/-
Stream-identity agreement: which frames the loops answer with a protocol error.

Every frame a loop produces is one its peer knows what to do with, except for two kinds. The Server hands a stream to its
caller before the Relay has tried the loopback connect; when sshd refuses, the Relay answers with StreamClosed and keeps no
target, and data the caller wrote meanwhile arrives for a stream id that is not in `targets`. And an OpenStream may find
`targets` full (`Capacity`). `relay_tunnel` answers both with RelayError::Protocol, and `run_forever` leaves its retry loop.

A stream ends the Server's loop in the same way without any frame: a write to its sshd fails, `relay_tunnel` returns
Transport, the WebSocket is dropped without a close handshake, and `run_tunnel` makes RelayError::Protocol of the error it reads.

Results:
- `pings_run`: the nonces outstanding are those of the pongs and pings on their way, in order;
- `server_never_protocol`: the Server answers no frame with a protocol error;
- `relay_protocol_iff`: the Relay does exactly for data of a refused stream and for an OpenStream beyond the capacity;
- `protocol_exit`: the Server's loop returns one for nothing but a used up counter and a Relay that is gone;
- `identity_agreement`: a run is free of protocol errors iff it has neither of the two and no such error is read;
- `refused_stream_ends_relay`: one refused connect ends the Relay process.
-/
import Mathlib.Tactic
import OwlMux.Relay.Capacity

namespace OwlMux.Relay

/-! ## Ping nonces -/

def ServerFrame.pingNonce : ServerFrame → Option ℕ
  | .ping n => some n
  | _ => none

def ClientFrame.pongNonce : ClientFrame → Option ℕ
  | .pong n => some n
  | _ => none

/-- pings travel down the wire and come back up as pongs, in order -/
structure Pings (s : St) : Prop where
  down_queue : ∀ f ∈ s.down.queue, f.stream ≠ none
  up_queue : ∀ f ∈ s.up.queue, f.stream ≠ none
  outstanding : s.outstandingPings =
    s.up.wire.filterMap ClientFrame.pongNonce ++ s.down.wire.filterMap ServerFrame.pingNonce

theorem pings_init : Pings init := by constructor <;> simp [init]

variable {s s' : St}

theorem pingNonce_of_stream {f : ServerFrame} (h : f.stream ≠ none) : f.pingNonce = none := by
  cases f <;> simp_all [ServerFrame.stream, ServerFrame.pingNonce]

theorem pongNonce_of_stream {f : ClientFrame} (h : f.stream ≠ none) : f.pongNonce = none := by
  cases f <;> simp_all [ClientFrame.stream, ClientFrame.pongNonce]

theorem enqueue_queue {F : Type*} {key : F → Option ℕ} {l : Lane F} (hk : l.Keyed key) (hq : ∀ f ∈ l.queue, key f ≠ none)
    (cap k : ℕ) : ∀ f ∈ (l.enqueue cap k).queue, key f ≠ none := by
  unfold Lane.enqueue
  split
  · exact hq
  · rename_i g hg
    split_ifs
    · intro f hf
      rcases List.mem_append.1 hf with hf | hf
      · exact hq f hf
      · simp only [List.mem_singleton] at hf; subst hf; simp [hk k _ hg]
    · exact hq

theorem Pings.flushDown (h : Pings s) {f : ServerFrame} {q : List ServerFrame} (hq : s.down.queue = f :: q) (c : Finset ℕ) :
    Pings { s with down := s.down.flush, closedSent := c } := by
  have hf := pingNonce_of_stream (h.down_queue f (by simp [hq]))
  refine { h with down_queue := fun g hg => ?_, outstanding := ?_ }
  · simp only [Lane.flush, hq] at hg
    exact h.down_queue g (by simp [hq, hg])
  · simpa [Lane.flush, hq, List.filterMap_append, hf] using h.outstanding

theorem Pings.flushUp (h : Pings s) {f : ClientFrame} {q : List ClientFrame} (hq : s.up.queue = f :: q) :
    Pings { s with up := s.up.flush } := by
  have hf := pongNonce_of_stream (h.up_queue f (by simp [hq]))
  refine { h with up_queue := fun g hg => ?_, outstanding := ?_ }
  · simp only [Lane.flush, hq] at hg
    exact h.up_queue g (by simp [hq, hg])
  · simpa [Lane.flush, hq, List.filterMap_append, hf] using h.outstanding

theorem Pings.move (h : Pings s) (hwf : Wf s) (m : Move s s') : Pings s' := by
  cases m with
  | flags | callerGone | sshdGone | callerData | callerEnd | sshdData | sshdEnd => exact { h with }
  | admitted => exact { h with outstanding := by simpa [admitStream, St.modify, ServerFrame.pingNonce, List.filterMap_cons] using h.outstanding }
  | callerEnqueue id =>
    exact { h with
      down_queue := enqueue_queue hwf.down_keyed h.down_queue _ _, outstanding := by simpa using h.outstanding }
  | serverSend f q hq => exact h.flushDown hq _
  | ping hn => exact { h with outstanding := by simp [h.outstanding, ServerFrame.pingNonce, List.filterMap_append] }
  | serverPong n w hw hn =>
    exact { h with outstanding := by simp [h.outstanding, hw, ClientFrame.pongNonce] }
  | serverOpened id w hw | serverData id d b w he hw | serverCut id d b k w he hw =>
    exact { h with outstanding := by simpa [hw, St.modify, ClientFrame.pongNonce, List.filterMap_cons] using h.outstanding }
  | serverEnd id f w he hw hf hid =>
    have hp := pongNonce_of_stream (f := f) (by simp [hid])
    exact { h with outstanding := by simpa [hw, hp] using h.outstanding }
  | serverFail f e w hw hf hid hp =>
    have hno : f.pongNonce = none := by
      cases f with
      | pong n => exact (hp n rfl (by simp [h.outstanding, hw, ClientFrame.pongNonce])).elim
      | _ => rfl
    exact { h with outstanding := by simpa [hw, hno] using h.outstanding }
  | sshdEnqueue id =>
    exact { h with up_queue := enqueue_queue hwf.up_keyed h.up_queue _ _, outstanding := by simpa using h.outstanding }
  | relaySend f q hq => exact h.flushUp hq
  | connect id w he hw | refuse id w he hw =>
    exact { h with
      outstanding := by
        simpa [hw, St.modify, ClientFrame.pongNonce, ServerFrame.pingNonce, List.filterMap_cons] using h.outstanding }
  | relayData id d b w he hw | relayCut id d b k w he hw =>
    exact { h with outstanding := by simpa [hw, St.modify, ServerFrame.pingNonce, List.filterMap_cons] using h.outstanding }
  | relayEnd id f w he hw hf hid =>
    have hp := pingNonce_of_stream (f := f) (by simp [hid])
    exact { h with outstanding := by simpa [hw, hp] using h.outstanding }
  | pong n w he hw =>
    exact { h with
      outstanding := by simp [h.outstanding, hw, ClientFrame.pongNonce, ServerFrame.pingNonce, List.filterMap_append] }
  | relayFail f e w hw hf hp =>
    have hno : f.pingNonce = none := by
      cases f with
      | ping n => exact (hp n rfl).elim
      | _ => rfl
    exact { h with outstanding := by simpa [hw, hno] using h.outstanding }

theorem pings_run (ops : List Op) : Pings (run init ops) :=
  run_inv_of_move pings_init (fun _ _ hwf m h => h.move hwf m) ops

/-! ## Answers -/

/-- this step receives a frame and answers it with a protocol error -/
def AnswersProtocol (s : St) : Op → Prop
  | .serverRecv w => s.serverExit = none ∧ ∃ f rest, s.up.wire = f :: rest ∧
      (serverOnFrame w { s with up := s.up.pop } f).1 = .error .protocol
  | .relayRecv connect w => s.relayExit = none ∧ ∃ f rest, s.down.wire = f :: rest ∧
      (relayOnFrame connect w { s with down := s.down.pop } f).1 = .error .protocol
  | _ => False

/-- **The Server knows what to do with every frame of the Relay.** -/
theorem server_never_protocol (ops : List Op) (w : Write) {f : ClientFrame} {rest : List ClientFrame}
    (hw : (run init ops).up.wire = f :: rest) :
    (serverOnFrame w { run init ops with up := (run init ops).up.pop } f).1 ≠ .error .protocol := by
  have hf : f.Sendable := (wf_run ops).up_sendable.wire f (by simp [hw])
  have hfit := hf.fits
  cases f with
  | streamOpened id | streamHalfClosed id => simp [serverOnFrame, hfit]
  | streamClosed id r => simp [serverOnFrame, hfit]
  | pong n =>
    have hn : n ∈ (run init ops).outstandingPings := by
      simp [(pings_run ops).outstanding, hw, ClientFrame.pongNonce]
    simp [serverOnFrame, hfit, hn]
  | streamData id d =>
    obtain ⟨b, hb, -, -, hl⟩ := hf.2.decode
    have hm : id ∈ (run init ops).writers := by
      by_contra hm
      have : (run init ops).up.transit ClientFrame.stream id = [] := ((flow_run ops id).gone hm).1
      simp [up_head hw rfl] at this
    by_cases hle : (run init ops).leaseOk = true
    · rcases writeData_payload ((run init ops).streams id).callerGone w hb hl with e | ⟨k, e⟩ <;>
        simp [serverOnFrame, hfit, hle, hm, e]
    · simp [serverOnFrame, hfit, hle]
  | _ => exact hf.elim

/-- data for a stream is in `targets` unless its connect was refused -/
theorem target_iff_not_refused (ops : List Op) {id : ℕ} {d : Text} {rest : List ServerFrame}
    (hr : (run init ops).relayExit = none) (hw : (run init ops).down.wire = .streamData id d :: rest) :
    id ∈ (run init ops).targets ↔ id ∉ (run init ops).refused := by
  have hok := flow_run ops id
  have hup : ((run init ops).flow id).relayUp = true := by simp [St.flow, hr]
  have hd : ((run init ops).flow id).down = _ := down_head hw rfl
  constructor
  · exact fun ht => hok.once (hok.target_connected ht)
  · intro hn
    have hc : id ∈ (run init ops).connected := by
      by_contra hc
      exact hok.seen_of_head hup hd (by simp) ⟨hc, hn⟩
    by_contra ht
    have := (hok.removed hup hc ht).1
    rw [hd] at this
    simp at this

/-- **Exactly two kinds of frames end the Relay with a protocol error**: data of a refused stream, and an OpenStream that
finds the table of targets full -/
theorem relay_protocol_iff (ops : List Op) (connect : Bool) (w : Write) {f : ServerFrame} {rest : List ServerFrame}
    (hr : (run init ops).relayExit = none) (hw : (run init ops).down.wire = f :: rest) :
    (relayOnFrame connect w { run init ops with down := (run init ops).down.pop } f).1 = .error .protocol ↔
      (∃ id d, f = .streamData id d ∧ id ∈ (run init ops).refused) ∨
      (∃ id, f = .openStream id ∧ maxStreams ≤ ((run init ops).admitted id ∩ (run init ops).connected).card) := by
  have hf : f.Sendable := (wf_run ops).down_sendable.wire f (by simp [hw])
  have hfit := hf.fits
  cases f with
  | openStream id =>
    rw [open_answer ops connect w hr hw, targets_eq ops hr hw]
    split_ifs with hc
    · simpa using hc
    · simpa using hc
  | streamData id d =>
    obtain ⟨b, hb, -, -, hl⟩ := hf.2.decode
    have ht := target_iff_not_refused ops hr hw
    by_cases hm : id ∈ (run init ops).targets
    · rcases writeData_payload ((run init ops).streams id).sshdGone w hb hl with e | ⟨k, e⟩ <;>
        simp [relayOnFrame, hfit, hm, e, ht.1 hm]
    · have : id ∈ (run init ops).refused := by by_contra hn; exact hm (ht.2 hn)
      simp [relayOnFrame, hfit, hm, this]
  | streamHalfClosed id => simp [relayOnFrame, hfit]
  | streamClosed id r => simp [relayOnFrame, hfit]
  | ping n =>
    have hpong : fitsFrame (ClientFrame.pong n).encode = true := ClientFrame.Sendable.fits (f := .pong n) hf
    simp [relayOnFrame, hfit, relaySendFrame, hpong]
  | _ => exact hf.elim

/-! ## Runs -/

/-- the Relay takes no data of a stream whose connect was refused, and no OpenStream at whose admission MAX_STREAMS
streams that are connected had not been ended by the Server -/
def Known (s : St) (o : Op) : Prop :=
  ∀ connect w, o = .relayRecv connect w → s.relayExit = none →
    (∀ id d rest, s.down.wire = .streamData id d :: rest → id ∉ s.refused) ∧
    (∀ id rest, s.down.wire = .openStream id :: rest → (s.admitted id ∩ s.connected).card < maxStreams)

theorem known_iff (pre : List Op) (o : Op) : ¬ AnswersProtocol (run init pre) o ↔ Known (run init pre) o := by
  constructor
  · rintro h connect w rfl hr
    refine ⟨fun id d rest hw hm => h ⟨hr, _, rest, hw, ?_⟩, fun id rest hw => ?_⟩
    · exact (relay_protocol_iff pre connect w hr hw).2 (Or.inl ⟨id, d, rfl, hm⟩)
    · by_contra hc
      exact h ⟨hr, _, rest, hw, (relay_protocol_iff pre connect w hr hw).2 (Or.inr ⟨id, rfl, not_lt.1 hc⟩)⟩
  · intro h ha
    cases o with
    | serverRecv w =>
      obtain ⟨-, f, rest, hw, hp⟩ := ha
      exact server_never_protocol pre w hw hp
    | relayRecv connect w =>
      obtain ⟨hr, f, rest, hw, hp⟩ := ha
      obtain ⟨h1, h2⟩ := h connect w rfl hr
      rcases (relay_protocol_iff pre connect w hr hw).1 hp with ⟨id, d, rfl, hm⟩ | ⟨id, rfl, hc⟩
      · exact h1 id d rest hw hm
      · exact absurd (h2 id rest hw) (by omega)
    | _ => exact ha

/-! ## Exits -/

/-- handling a frame ends no loop by itself: the exits are set from the answer -/
theorem serverOnFrame_exits (w : Write) (s : St) (f : ClientFrame) :
    (serverOnFrame w s f).2.serverExit = s.serverExit ∧ (serverOnFrame w s f).2.relayExit = s.relayExit := by
  cases hfit : fitsFrame f.encode with
  | false => simp [serverOnFrame, hfit]
  | true =>
    cases f with
    | pong n => by_cases hn : n ∈ s.outstandingPings <;> simp [serverOnFrame, hfit, hn]
    | streamData id d =>
      by_cases hl : s.leaseOk = true
      · by_cases hm : id ∈ s.writers
        · cases hw : writeData (s.streams id).callerGone w d <;> simp [serverOnFrame, hfit, hl, hm, hw, St.modify]
        · simp [serverOnFrame, hfit, hl, hm]
      · simp [serverOnFrame, hfit, hl]
    | _ => simp [serverOnFrame, hfit]

theorem relaySendFrame_exits (s : St) (f : ClientFrame) :
    (relaySendFrame s f).2.serverExit = s.serverExit ∧ (relaySendFrame s f).2.relayExit = s.relayExit ∧
      ∀ e, (relaySendFrame s f).1 = .error e → e = .protocol := by
  unfold relaySendFrame
  split_ifs
  · exact ⟨rfl, rfl, by simp⟩
  · exact ⟨rfl, rfl, by simp [eq_comm]⟩

/-- the Relay answers the frames `run_tunnel` sends with a protocol or a transport error, if any -/
theorem relayOnFrame_exits (connect : Bool) (w : Write) (s : St) {f : ServerFrame} (hf : f.Sendable) :
    (relayOnFrame connect w s f).2.serverExit = s.serverExit ∧ (relayOnFrame connect w s f).2.relayExit = s.relayExit ∧
      ∀ e, (relayOnFrame connect w s f).1 = .error e → e = .protocol ∨ e = .transport := by
  have hfit := hf.fits
  have hsend : ∀ s' g, (relaySendFrame s' g).2.serverExit = s'.serverExit ∧
      (relaySendFrame s' g).2.relayExit = s'.relayExit ∧
      ∀ e, (relaySendFrame s' g).1 = .error e → e = .protocol ∨ e = .transport := fun s' g =>
    ⟨(relaySendFrame_exits s' g).1, (relaySendFrame_exits s' g).2.1, fun e he =>
      Or.inl ((relaySendFrame_exits s' g).2.2 e he)⟩
  cases f with
  | openStream id =>
    by_cases hg : id = 0 ∨ maxStreams ≤ s.targets.card ∨ id ∈ s.targets
    · simp [relayOnFrame, hfit, hg, eq_comm]
    · cases connect with
      | true =>
        have e : relayOnFrame true w s (.openStream id) = relaySendFrame { s.modify id Stream.sshdStarts with
            targets := insert id s.targets, connected := insert id s.connected } (.streamOpened id) := by
          simp [relayOnFrame, hfit, hg]
        rw [e]; exact hsend _ _
      | false =>
        have e : relayOnFrame false w s (.openStream id) =
            relaySendFrame { s with refused := insert id s.refused } (.streamClosed id .connectFailed) := by
          simp [relayOnFrame, hfit, hg]
        rw [e]; exact hsend _ _
  | streamData id d =>
    by_cases hm : id ∈ s.targets
    · cases hw : writeData (s.streams id).sshdGone w d <;> simp [relayOnFrame, hfit, hm, hw, St.modify, eq_comm]
    · simp [relayOnFrame, hfit, hm, eq_comm]
  | streamHalfClosed id | streamClosed id r => simp [relayOnFrame, hfit]
  | ping n =>
    have e : relayOnFrame connect w s (.ping n) = relaySendFrame s (.pong n) := by simp [relayOnFrame, hfit]
    rw [e]; exact hsend _ _
  | _ => exact hf.elim

/-- how a step can end the Relay loop -/
theorem step_relayExit (h : Wf s) (o : Op) :
    (step s o).relayExit = s.relayExit ∨ (∃ x, (step s o).relayExit = some (.ok x)) ∨
      (step s o).relayExit = some (.error .transport) ∨ AnswersProtocol s o := by
  have keep : (step s o).relayExit = s.relayExit → (step s o).relayExit = s.relayExit ∨ (∃ x, (step s o).relayExit =
      some (.ok x)) ∨ (step s o).relayExit = some (.error .transport) ∨ AnswersProtocol s o := Or.inl
  cases o with
  | openStream => apply keep; simp only [step, serverOpen]; split_ifs <;> rfl
  | callerRead id r =>
    apply keep; simp only [step]; split_ifs
    · cases r with
      | failed => rfl
      | bytes b => simp only [callerReadStep]; split_ifs <;> rfl
    · rfl
  | sshdRead id r =>
    apply keep; simp only [step]; split_ifs
    · cases r with
      | failed => rfl
      | bytes b => simp only [sshdReadStep]; split_ifs <;> rfl
    · rfl
  | callerEnqueue id | sshdEnqueue id => apply keep; simp only [step]; split_ifs <;> rfl
  | serverSend =>
    apply keep; simp only [step]; split_ifs
    · rfl
    · unfold serverSendStep
      split
      · rfl
      · split_ifs <;> rfl
  | serverRecv w =>
    apply keep; simp only [step]; split_ifs
    · rfl
    · unfold serverRecvStep
      split
      · split_ifs <;> rfl
      · rename_i f rest hw
        have he := (serverOnFrame_exits w { s with up := s.up.pop } f).2
        simp only [St.settleServer]
        split <;> exact he
  | heartbeat => apply keep; simp only [step, heartbeatStep]; split_ifs <;> rfl
  | serverStop r =>
    apply keep; simp only [step]; split_ifs
    · rfl
    · cases r <;> simp only [serverStopStep] <;> try split_ifs
      all_goals rfl
  | closeDispatch | fence | callerDrop id | sshdClose id => exact keep rfl
  | relaySend =>
    apply keep; simp only [step]; split_ifs
    · rfl
    · simp only [relaySendStep]
      split
      · rfl
      · rename_i f q hq
        have hf : f.Sendable := h.up_sendable.queue f (by rw [hq]; exact List.mem_cons_self)
        rw [if_pos hf.fits]
  | relayStop r =>
    simp only [step]; split_ifs
    · exact Or.inl rfl
    · cases r with
      | ctrlC => exact Or.inr (Or.inl ⟨_, rfl⟩)
      | inboundDeadline => exact Or.inr (Or.inl ⟨_, rfl⟩)
      | sendFailed => exact Or.inr (Or.inr (Or.inl rfl))
  | relayRecv connect w =>
    simp only [step]; split_ifs with he
    · exact Or.inl rfl
    · have he' : s.relayExit = none := by simpa using he
      unfold relayRecvStep
      split
      · split_ifs
        · exact Or.inr (Or.inl ⟨_, rfl⟩)
        · exact Or.inl rfl
      · rename_i f rest hw
        have hf : f.Sendable := h.down_sendable.wire f (by rw [hw]; exact List.mem_cons_self)
        obtain ⟨-, hx, herr⟩ := relayOnFrame_exits connect w { s with down := s.down.pop } hf
        cases ha : (relayOnFrame connect w { s with down := s.down.pop } f).1 with
        | ok u => left; simp only [St.settleRelay, ha]; exact hx
        | error e =>
          rcases herr e ha with rfl | rfl
          · exact Or.inr (Or.inr (Or.inr ⟨he', f, rest, hw, ha⟩))
          · refine Or.inr (Or.inr (Or.inl ?_)); simp only [St.settleRelay, ha]

/-- the stream id or the ping nonce of the Server is used up -/
def Exhausted (s : St) : Prop := 2 ^ 32 ≤ s.nextStreamId + 1 ∨ 2 ^ 64 ≤ s.pingNonce + 1

/-- this step asks for the one that is used up -/
def Exhausts (s : St) : Op → Prop
  | .openStream => 2 ^ 32 ≤ s.nextStreamId + 1
  | .heartbeat => 2 ^ 64 ≤ s.pingNonce + 1
  | _ => False

theorem Exhausts.exhausted {o : Op} (h : Exhausts s o) : Exhausted s := by
  cases o with
  | openStream => exact Or.inl h
  | heartbeat => exact Or.inr h
  | _ => exact h.elim

theorem Exhausted.move (m : Move s s') (h : Exhausted s) : Exhausted s' := by
  cases m with
  | admitted => exact h.imp_left fun h => Nat.le_succ_of_le h
  | ping => exact h.imp_right fun h => Nat.le_succ_of_le h
  | _ => exact h

theorem Move.relayGone (m : Move s s') (h : s.relayExit.isSome = true) : s'.relayExit.isSome = true := by
  cases m with
  | flags b l se re hs hr =>
    cases re with
    | none => simp [hr rfl] at h
    | some r => rfl
  | relayCut | relayFail => rfl
  | _ => exact h

/-- how a step can end the Server loop with a protocol error -/
theorem protocol_exit (h : Wf s) (o : Op) (hp : (step s o).serverExit = some (.error .protocol)) :
    s.serverExit = some (.error .protocol) ∨ AnswersProtocol s o ∨ Exhausts s o ∨
      (o = .serverStop .socketError ∧ s.relayExit.isSome = true) := by
  cases o with
  | openStream =>
    simp only [step, serverOpen] at hp
    split_ifs at hp with h1 h2 h3 h4 h5
    · exact Or.inl hp
    · simp at hp
    · exact Or.inl hp
    · exact Or.inl hp
    · exact Or.inr (Or.inr (Or.inl h5))
    · exact Or.inl hp
  | callerRead id r =>
    simp only [step] at hp; split_ifs at hp
    · cases r with
      | failed => exact Or.inl hp
      | bytes b => simp only [callerReadStep] at hp; split_ifs at hp <;> exact Or.inl hp
    · exact Or.inl hp
  | sshdRead id r =>
    simp only [step] at hp; split_ifs at hp
    · cases r with
      | failed => exact Or.inl hp
      | bytes b => simp only [sshdReadStep] at hp; split_ifs at hp <;> exact Or.inl hp
    · exact Or.inl hp
  | callerEnqueue id | sshdEnqueue id => simp only [step] at hp; split_ifs at hp <;> exact Or.inl hp
  | serverSend =>
    simp only [step] at hp; split_ifs at hp
    · exact Or.inl hp
    · unfold serverSendStep at hp
      split at hp
      · exact Or.inl hp
      · split_ifs at hp
        · simp at hp
        · simp at hp
        · exact Or.inl hp
  | serverRecv w =>
    simp only [step] at hp; split_ifs at hp with he
    · exact Or.inl hp
    · unfold serverRecvStep at hp
      split at hp
      · split_ifs at hp
        · simp at hp
        · exact Or.inl hp
      · rename_i f rest hw
        have hx := (serverOnFrame_exits w { s with up := s.up.pop } f).1
        simp only [St.settleServer] at hp
        split at hp
        · exact Or.inl (hx.symm.trans hp)
        · rename_i e ha
          obtain rfl : e = .protocol := by simpa using hp
          exact Or.inr (Or.inl ⟨by simpa using he, f, rest, hw, ha⟩)
  | heartbeat =>
    simp only [step, heartbeatStep] at hp
    split_ifs at hp with h1 h2 h3
    · exact Or.inl hp
    · simp at hp
    · exact Or.inr (Or.inr (Or.inl h3))
    · simp at hp
    · simp at hp
    · exact Or.inl hp
  | serverStop r =>
    simp only [step] at hp; split_ifs at hp
    · exact Or.inl hp
    · cases r with
      | barrier => simp only [serverStopStep] at hp; split_ifs at hp <;> simp_all
      | fence => simp only [serverStopStep] at hp; split_ifs at hp <;> simp_all
      | inboundDeadline => simp [serverStopStep] at hp
      | sendFailed => simp [serverStopStep] at hp
      | socketError =>
        simp only [serverStopStep] at hp; split_ifs at hp with hr
        · exact Or.inr (Or.inr (Or.inr ⟨rfl, hr⟩))
        · exact Or.inl hp
  | closeDispatch | fence | callerDrop id | sshdClose id => exact Or.inl hp
  | relaySend =>
    simp only [step] at hp; split_ifs at hp
    · exact Or.inl hp
    · unfold relaySendStep at hp
      split at hp
      · exact Or.inl hp
      · split_ifs at hp <;> exact Or.inl hp
  | relayStop r =>
    simp only [step] at hp; split_ifs at hp
    · exact Or.inl hp
    · cases r <;> exact Or.inl hp
  | relayRecv connect w =>
    simp only [step] at hp; split_ifs at hp
    · exact Or.inl hp
    · unfold relayRecvStep at hp
      split at hp
      · split_ifs at hp <;> exact Or.inl hp
      · rename_i f rest hw
        have hf : f.Sendable := h.down_sendable.wire f (by rw [hw]; exact List.mem_cons_self)
        have hx := (relayOnFrame_exits connect w { s with down := s.down.pop } hf).1
        simp only [St.settleRelay] at hp
        split at hp <;> exact Or.inl (hx.symm.trans hp)

/-- no loop has returned a protocol error for a frame, and `run_forever` keeps retrying unless it was asked to stop -/
def ExitsClean (s : St) : Prop :=
  (∀ r, s.relayExit = some r → ∀ e, runForever r ≠ some (.error e)) ∧
  (s.serverExit = some (.error .protocol) → Exhausted s ∨ s.relayExit.isSome = true)

theorem exitsClean_step (h : Wf s) {o : Op} (hn : ¬ AnswersProtocol s o) (he : ExitsClean s) : ExitsClean (step s o) := by
  refine ⟨fun r hr e => ?_, fun hp => ?_⟩
  · rcases step_relayExit h o with hx | ⟨x, hx⟩ | hx | hx
    · exact he.1 r (hx ▸ hr) e
    · obtain rfl : Except.ok x = r := by simpa [hx] using hr
      cases x <;> simp [runForever]
    · obtain rfl : Except.error .transport = r := by simpa [hx] using hr
      simp [runForever]
    · exact (hn hx).elim
  · have m := step_move h o
    rcases protocol_exit h o hp with hx | hx | hx | ⟨-, hx⟩
    · exact (he.2 hx).imp (fun h => h.move m) m.relayGone
    · exact (hn hx).elim
    · exact Or.inl (hx.exhausted.move m)
    · exact Or.inr (m.relayGone hx)

/-- the failure of a stream makes the Server's loop return a protocol error: a write to its sshd has ended the Relay's loop,
and no counter is used up -/
def Spreads (s : St) (o : Op) : Prop :=
  s.serverExit = none ∧ (step s o).serverExit = some (.error .protocol) ∧ ¬ Exhausts s o ∧ s.cut ≠ ∅

/-- the Relay takes only frames it knows, and the Server does not read the error of a WebSocket that the Relay has dropped
because of a write to one sshd -/
structure Clean (s : St) (o : Op) : Prop where
  known : Known s o
  socket : o = .serverStop .socketError → s.serverExit = none → s.relayExit.isSome = true → s.cut = ∅

theorem clean_iff (pre : List Op) (o : Op) :
    ¬ AnswersProtocol (run init pre) o ∧ ¬ Spreads (run init pre) o ↔ Clean (run init pre) o := by
  constructor
  · intro h
    obtain ⟨ha, hs⟩ := h
    refine ⟨(known_iff pre o).1 ha, ?_⟩
    intro ho he hr
    subst ho
    by_contra hc
    exact hs ⟨he, by simp [step, serverStopStep, he, hr], id, hc⟩
  · intro h
    have ha : ¬ AnswersProtocol (run init pre) o := (known_iff pre o).2 h.known
    refine ⟨ha, ?_⟩
    intro hs
    obtain ⟨he, hp, hx, hc⟩ := hs
    rcases protocol_exit (wf_run pre) o hp with h1 | h1 | h1 | ⟨h1, h2⟩
    · simp [he] at h1
    · exact ha h1
    · exact hx h1
    · exact hc (h.socket h1 he h2)

/-- **Stream-identity agreement, exactly when it holds.** In a run no endpoint answers a frame with a protocol error and no
failed stream makes a loop return one, if and only if the Relay takes no data of a stream whose loopback connect was refused
and no OpenStream beyond the capacity, and the Server reads no error of a WebSocket dropped for the sake of one stream. -/
theorem identity_agreement (ops : List Op) :
    (Machine.Along step (fun s o => ¬ AnswersProtocol s o ∧ ¬ Spreads s o) init ops ∧ ExitsClean (run init ops)) ↔
      Machine.Along step Clean init ops := by
  have key : Machine.Along step (fun s o => ¬ AnswersProtocol s o ∧ ¬ Spreads s o) init ops ↔
      Machine.Along step Clean init ops := by
    rw [Machine.along_iff, Machine.along_iff]
    exact forall_congr' fun pre => forall_congr' fun o => forall_congr' fun post => imp_congr_right fun _ => clean_iff pre o
  refine ⟨fun h => key.1 h.1, fun h => ⟨key.2 h, ?_⟩⟩
  have hstep : ∀ s o, ¬ AnswersProtocol s o ∧ ¬ Spreads s o → Wf s ∧ ExitsClean s → Wf (step s o) ∧ ExitsClean (step s o) :=
    fun s o hn hs => ⟨(step_move hs.1 o).wf hs.1, exitsClean_step hs.1 hn.1 hs.2⟩
  exact (Machine.run_inv_along hstep init ops (key.2 h) ⟨wf_init, by simp [ExitsClean, init]⟩).2

/-- sshd closes the connection of the only stream; the Server reads the error of the WebSocket that the Relay then drops -/
example : (run init [.openStream, .relayRecv true .all, .callerRead 1 (.bytes [83, 83, 72]), .callerEnqueue 1, .serverSend,
    .sshdClose 1, .relayRecv true .all, .serverStop .socketError]).serverExit = some (.error .protocol) := by
  decide +kernel

/-- sshd refuses the connection of the first stream while the caller's first bytes are on their way -/
def refusedOps : List Op :=
  [.openStream, .callerRead 1 (.bytes [83, 83, 72]), .callerEnqueue 1, .serverSend, .relayRecv false .all,
    .relayRecv true .all]

/-- **One refused connect ends the Relay process.** The data of the refused stream is answered with a protocol error,
`relay_tunnel` returns it and `run_forever` leaves its retry loop. -/
theorem refused_stream_ends_relay :
    (run init (refusedOps.take 5)).down.wire = [.streamData 1 ['U', '1', 'N', 'I']] ∧
    (run init (refusedOps.take 5)).refused = {1} ∧
    (run init refusedOps).relayExit = some (.error .protocol) ∧
    runForever (.error .protocol) = some (.error .protocol) ∧
    ¬ ∀ ops, Machine.Along step (fun s o => ¬ AnswersProtocol s o ∧ ¬ Spreads s o) init ops ∧ ExitsClean (run init ops) := by
  have hx : (run init refusedOps).relayExit = some (.error .protocol) := by decide +kernel
  refine ⟨by decide +kernel, by decide +kernel, hx, rfl, fun h => ?_⟩
  exact (h refusedOps).2.1 _ hx .protocol rfl

end OwlMux.Relay
