/-
What one step of the joined loops can do, said once. `Move s s'` lists every way the state changes, each with the guards
that were checked; `step_move` shows that every step of a well-formed state is one of them. The invariants of the
multiplexer are proved over `Move`, never over `step`.

`Wf` is the part of the invariant that makes the step function total in practice: every frame on either lane is one the
loops produce, of a u32 stream id, so no size check refuses it.

Results:
- `step_move`: inversion of a step;
- `wf_run`: every reachable state is well formed;

-/
import Mathlib.Tactic
import OwlMux.Relay.Tunnel

namespace OwlMux.Relay

@[simp]
theorem modify_streams_self (s : St) (id : ℕ) (f : Stream → Stream) : (s.modify id f).streams id = f (s.streams id) := by
  simp [St.modify]

theorem modify_streams_ne (s : St) {id j : ℕ} (f : Stream → Stream) (h : j ≠ id) :
    (s.modify id f).streams j = s.streams j := by
  simp [St.modify, h]

/-- what holds of every stream still does when the changed one has it -/
theorem forall_modify {P : ℕ → Stream → Prop} {s : St} {id : ℕ} {f : Stream → Stream} (h : ∀ j, P j (s.streams j))
    (hid : P id (f (s.streams id))) (j : ℕ) : P j ((s.modify id f).streams j) := by
  by_cases hj : j = id
  · subst hj; rwa [modify_streams_self]
  · rw [modify_streams_ne s f hj]; exact h j

/-- a payload decodes to the bytes it was made from, within the bound of `write_data` -/
theorem Payload.decode {d : Text} (h : Payload d) :
    ∃ b, Base64Url.decode d = some b ∧ d = Base64Url.encode b ∧ 1 ≤ b.length ∧ b.length ≤ maxDataBytes := by
  obtain ⟨b, rfl, h1, h2⟩ := h
  exact ⟨b, Base64Url.decode_encode b, rfl, h1, h2⟩

/-- `write_data` never refuses a payload; it writes all of it, or fails after a first part -/
theorem writeData_payload (gone : Bool) (w : Write) {d : Text} {b : List UInt8} (hb : Base64Url.decode d = some b)
    (hl : b.length ≤ maxDataBytes) :
    writeData gone w d = .ok b ∨ ∃ k, writeData gone w d = .failed (b.take k) := by
  have hlt : ¬ maxDataBytes < b.length := by omega
  by_cases he : b = []
  · exact Or.inl (by simp [writeData, hb, he])
  · cases w with
    | all => cases gone with
      | false => exact Or.inl (by simp [writeData, hb, hlt, he])
      | true => exact Or.inr ⟨0, by simp [writeData, hb, hlt, he]⟩
    | cut k => exact Or.inr ⟨k, by simp [writeData, hb, hlt, he]⟩

/-! ## Well-formed states -/

/-- a reader task runs only under an admitted id -/
def ReaderIds (next : ℕ) (id : ℕ) (t : Stream) : Prop :=
  (t.callerReader = true → id < next) ∧ (t.sshdReader = true → id < 2 ^ 32)

structure Wf (s : St) : Prop where
  next_pos : 0 < s.nextStreamId
  next_lt : s.nextStreamId < 2 ^ 32
  nonce_lt : s.pingNonce < 2 ^ 64
  down_keyed : s.down.Keyed ServerFrame.stream
  up_keyed : s.up.Keyed ClientFrame.stream
  down_sendable : s.down.All ServerFrame.Sendable
  up_sendable : s.up.All ClientFrame.Sendable
  readers : ∀ id, ReaderIds s.nextStreamId id (s.streams id)

/-! ## Moves -/

/-- every way a step changes the state -/
inductive Move (s : St) : St → Prop
  /-- exits, barrier and lease: nothing else changes -/
  | flags (b l : Bool) (se : Option (Except RelayError Unit)) (re : Option (Except ClientError TunnelExit))
      (hs : se = none → s.serverExit = none) (hr : re = none → s.relayExit = none) :
      Move s { s with barrier := b, leaseOk := l, serverExit := se, relayExit := re }
  | callerGone (id : ℕ) : Move s (s.modify id Stream.callerDrops)
  | sshdGone (id : ℕ) : Move s (s.modify id Stream.sshdDrops)
  | admitted (he : s.serverExit = none) (hcap : s.writers.card < maxStreams) (hid : s.nextStreamId + 1 < 2 ^ 32) :
      Move s (admitStream s)
  | callerData (id : ℕ) (b : List UInt8) (hr : (s.streams id).callerReader = true) (hh : s.down.hand id = none)
      (h1 : 1 ≤ b.length) (h2 : b.length ≤ maxDataBytes) :
      Move s { s.modify id (Stream.callerReads b) with
        down := s.down.hold id (.streamData id (Base64Url.encode b)) }
  | callerEnd (id : ℕ) (f : ServerFrame) (hr : (s.streams id).callerReader = true) (hh : s.down.hand id = none)
      (hf : f = .streamHalfClosed id ∨ f = .streamClosed id .shutdown) :
      Move s { s.modify id Stream.callerEnds with down := s.down.hold id f }
  | callerEnqueue (id : ℕ) : Move s { s with down := s.down.enqueue outboundCapacity id }
  | serverSend (f : ServerFrame) (q : List ServerFrame) (hq : s.down.queue = f :: q) :
      Move s { s with down := s.down.flush, closedSent := noteClosing s.closedSent f }
  | ping (hn : s.pingNonce + 1 < 2 ^ 64) :
      Move s { s with
        pingNonce := s.pingNonce + 1
        down := s.down.push (.ping (s.pingNonce + 1))
        outstandingPings := s.outstandingPings ++ [s.pingNonce + 1] }
  | serverOpened (id : ℕ) (w : List ClientFrame) (hw : s.up.wire = .streamOpened id :: w) : Move s { s with up := s.up.pop }
  | serverPong (n : ℕ) (w : List ClientFrame) (hw : s.up.wire = .pong n :: w) (hn : n ∈ s.outstandingPings) :
      Move s { s with up := s.up.pop, outstandingPings := s.outstandingPings.erase n }
  | serverData (id : ℕ) (d : Text) (b : List UInt8) (w : List ClientFrame) (he : s.serverExit = none)
      (hw : s.up.wire = .streamData id d :: w) (hm : id ∈ s.writers) (hb : Base64Url.decode d = some b) :
      Move s { s.modify id (Stream.callerGets b) with up := s.up.pop }
  | serverCut (id : ℕ) (d : Text) (b : List UInt8) (k : ℕ) (w : List ClientFrame) (he : s.serverExit = none)
      (hw : s.up.wire = .streamData id d :: w) (hm : id ∈ s.writers) (hb : Base64Url.decode d = some b) :
      Move s { s.modify id (Stream.callerGets (b.take k)) with
        up := s.up.pop, serverExit := some (.error .unavailable) }
  | serverEnd (id : ℕ) (f : ClientFrame) (w : List ClientFrame) (he : s.serverExit = none) (hw : s.up.wire = f :: w)
      (hf : f.closing = true) (hid : f.stream = some id) :
      Move s { s with up := s.up.pop, writers := s.writers.erase id }
  | serverFail (f : ClientFrame) (e : RelayError) (w : List ClientFrame) (hw : s.up.wire = f :: w)
      (hf : f.closing = false) (hid : ∀ id, f.stream = some id → ∃ d, f = .streamData id d)
      (hp : ∀ n, f = .pong n → n ∉ s.outstandingPings) :
      Move s { s with up := s.up.pop, serverExit := some (.error e) }
  | sshdData (id : ℕ) (b : List UInt8) (hr : (s.streams id).sshdReader = true) (hh : s.up.hand id = none)
      (h1 : 1 ≤ b.length) (h2 : b.length ≤ maxDataBytes) :
      Move s { s.modify id (Stream.sshdReads b) with
        up := s.up.hold id (.streamData id (Base64Url.encode b)) }
  | sshdEnd (id : ℕ) (f : ClientFrame) (hr : (s.streams id).sshdReader = true) (hh : s.up.hand id = none)
      (hf : f = .streamHalfClosed id ∨ f = .streamClosed id .shutdown) :
      Move s { s.modify id Stream.sshdEnds with up := s.up.hold id f }
  | sshdEnqueue (id : ℕ) : Move s { s with up := s.up.enqueue outboundCapacity id }
  | relaySend (f : ClientFrame) (q : List ClientFrame) (hq : s.up.queue = f :: q) : Move s { s with up := s.up.flush }
  | connect (id : ℕ) (w : List ServerFrame) (he : s.relayExit = none) (hw : s.down.wire = .openStream id :: w)
      (hcap : s.targets.card < maxStreams) (hid : id ∉ s.targets) :
      Move s { s.modify id Stream.sshdStarts with
        down := s.down.pop, up := s.up.push (.streamOpened id)
        targets := insert id s.targets, connected := insert id s.connected }
  | refuse (id : ℕ) (w : List ServerFrame) (he : s.relayExit = none) (hw : s.down.wire = .openStream id :: w)
      (hcap : s.targets.card < maxStreams) (hid : id ∉ s.targets) :
      Move s { s with
        down := s.down.pop, up := s.up.push (.streamClosed id .connectFailed), refused := insert id s.refused }
  | relayData (id : ℕ) (d : Text) (b : List UInt8) (w : List ServerFrame) (he : s.relayExit = none)
      (hw : s.down.wire = .streamData id d :: w) (hm : id ∈ s.targets) (hb : Base64Url.decode d = some b) :
      Move s { s.modify id (Stream.sshdGets b) with down := s.down.pop }
  | relayCut (id : ℕ) (d : Text) (b : List UInt8) (k : ℕ) (w : List ServerFrame) (he : s.relayExit = none)
      (hw : s.down.wire = .streamData id d :: w) (hm : id ∈ s.targets) (hb : Base64Url.decode d = some b) :
      Move s { s.modify id (Stream.sshdGets (b.take k)) with
        down := s.down.pop, relayExit := some (.error .transport), cut := insert id s.cut }
  | relayEnd (id : ℕ) (f : ServerFrame) (w : List ServerFrame) (he : s.relayExit = none) (hw : s.down.wire = f :: w)
      (hf : f.closing = true) (hid : f.stream = some id) :
      Move s { s with down := s.down.pop, targets := s.targets.erase id }
  | pong (n : ℕ) (w : List ServerFrame) (he : s.relayExit = none) (hw : s.down.wire = .ping n :: w) :
      Move s { s with down := s.down.pop, up := s.up.push (.pong n) }
  | relayFail (f : ServerFrame) (e : ClientError) (w : List ServerFrame) (hw : s.down.wire = f :: w)
      (hf : f.closing = false) (hp : ∀ n, f ≠ .ping n) :
      Move s { s with down := s.down.pop, relayExit := some (.error e) }

variable {s : St}

theorem Move.idle : Move s s := Move.flags s.barrier s.leaseOk s.serverExit s.relayExit id id

theorem Move.serverExits (e : Except RelayError Unit) : Move s { s with serverExit := some e } :=
  Move.flags s.barrier s.leaseOk (some e) s.relayExit (fun h => by simp at h) id

theorem Move.relayExits (e : Except ClientError TunnelExit) : Move s { s with relayExit := some e } :=
  Move.flags s.barrier s.leaseOk s.serverExit (some e) id (fun h => by simp at h)

theorem serverOpen_move (he : s.serverExit = none) : Move s (serverOpen s) := by
  unfold serverOpen
  split_ifs with h1 h2 h3 h4
  · exact Move.serverExits _
  · exact Move.idle
  · exact Move.idle
  · exact Move.serverExits _
  · exact Move.admitted he (by omega) (by omega)

theorem take_nonempty {b : List UInt8} (h : ¬ b.take maxDataBytes = []) : 1 ≤ (b.take maxDataBytes).length :=
  List.length_pos_iff.2 h

theorem callerReadStep_move {id : ℕ} (hr : (s.streams id).callerReader = true) (hh : s.down.hand id = none) (r : Read) :
    Move s (callerReadStep s id r) := by
  cases r with
  | failed => exact Move.callerEnd id _ hr hh (Or.inr rfl)
  | bytes b =>
    simp only [callerReadStep]
    split_ifs with h
    · exact Move.callerEnd id _ hr hh (Or.inl rfl)
    · exact Move.callerData id _ hr hh (take_nonempty h) (List.length_take_le _ _)

theorem sshdReadStep_move {id : ℕ} (hr : (s.streams id).sshdReader = true) (hh : s.up.hand id = none) (r : Read) :
    Move s (sshdReadStep s id r) := by
  cases r with
  | failed => exact Move.sshdEnd id _ hr hh (Or.inr rfl)
  | bytes b =>
    simp only [sshdReadStep]
    split_ifs with h
    · exact Move.sshdEnd id _ hr hh (Or.inl rfl)
    · exact Move.sshdData id _ hr hh (take_nonempty h) (List.length_take_le _ _)

theorem serverSendStep_move : Move s (serverSendStep s) := by
  unfold serverSendStep
  split
  · exact Move.idle
  · rename_i f q hq
    split_ifs
    · exact Move.serverExits _
    · exact Move.serverExits _
    · exact Move.serverSend f q hq

theorem heartbeatStep_move : Move s (heartbeatStep s) := by
  unfold heartbeatStep
  split_ifs with h1 h2 h3 h4
  · exact Move.serverExits _
  · exact Move.serverExits _
  · exact Move.serverExits _
  · exact Move.serverExits _
  · exact Move.ping (by omega)

theorem serverRecvStep_move (h : Wf s) (he : s.serverExit = none) (w : Write) : Move s (serverRecvStep w s) := by
  unfold serverRecvStep
  split
  · split_ifs
    · exact Move.serverExits _
    · exact Move.idle
  · rename_i f rest hw
    have hf : f.Sendable := h.up_sendable.wire f (by rw [hw]; exact List.mem_cons_self)
    have hfit := hf.fits
    cases f with
    | streamOpened id => simpa [serverOnFrame, hfit, St.settleServer] using Move.serverOpened id rest hw
    | pong n =>
      by_cases hn : n ∈ s.outstandingPings
      · simpa [serverOnFrame, hfit, St.settleServer, hn] using Move.serverPong n rest hw hn
      · simpa [serverOnFrame, hfit, St.settleServer, hn] using
          Move.serverFail _ .protocol rest hw rfl (by simp [ClientFrame.stream]) (by simp [hn])
    | streamData id d =>
      obtain ⟨b, hb, -, -, hl⟩ := hf.2.decode
      have fail : ∀ e, Move s { s with up := s.up.pop, serverExit := some (.error e) } := fun e =>
        Move.serverFail _ e rest hw rfl (by rintro _ ⟨⟩; exact ⟨d, rfl⟩) (by simp)
      by_cases hl' : s.leaseOk = true
      · by_cases hm : id ∈ s.writers
        · rcases writeData_payload (s.streams id).callerGone w hb hl with hok | ⟨k, hk⟩
          · have e : serverOnFrame w { s with up := s.up.pop } (.streamData id d) =
                (.ok (), St.modify { s with up := s.up.pop } id (Stream.callerGets b)) := by
              simp [serverOnFrame, hfit, hl', hm, hok]
            rw [e]; exact Move.serverData id d b rest he hw hm hb
          · have e : serverOnFrame w { s with up := s.up.pop } (.streamData id d) =
                (.error .unavailable, St.modify { s with up := s.up.pop } id (Stream.callerGets (b.take k))) := by
              simp [serverOnFrame, hfit, hl', hm, hk]
            rw [e]; exact Move.serverCut id d b k rest he hw hm hb
        · simpa [serverOnFrame, hfit, St.settleServer, hl', hm] using fail .protocol
      · simpa [serverOnFrame, hfit, St.settleServer, hl'] using fail .fenced
    | streamHalfClosed id =>
      simpa [serverOnFrame, hfit, St.settleServer] using Move.serverEnd id _ rest he hw rfl rfl
    | streamClosed id r =>
      simpa [serverOnFrame, hfit, St.settleServer] using Move.serverEnd id _ rest he hw rfl rfl
    | _ => exact hf.elim

theorem relaySendStep_move (h : Wf s) : Move s (relaySendStep s) := by
  unfold relaySendStep
  split
  · exact Move.idle
  · rename_i f q hq
    have hf : f.Sendable := h.up_sendable.queue f (by rw [hq]; exact List.mem_cons_self)
    rw [if_pos hf.fits]
    exact Move.relaySend f q hq

theorem relayRecvStep_move (h : Wf s) (he : s.relayExit = none) (connect : Bool) (w : Write) :
    Move s (relayRecvStep connect w s) := by
  unfold relayRecvStep
  split
  · split_ifs
    · exact Move.relayExits _
    · exact Move.idle
  · rename_i f rest hw
    have hf : f.Sendable := h.down_sendable.wire f (by rw [hw]; exact List.mem_cons_self)
    have hfit := hf.fits
    cases f with
    | openStream id =>
      have hopened : fitsFrame (ClientFrame.streamOpened id).encode = true :=
        ClientFrame.Sendable.fits (f := .streamOpened id) hf.2
      have hrefused : fitsFrame (ClientFrame.streamClosed id .connectFailed).encode = true :=
        ClientFrame.Sendable.fits (f := .streamClosed id .connectFailed) hf.2
      by_cases hg : id = 0 ∨ maxStreams ≤ s.targets.card ∨ id ∈ s.targets
      · simpa [relayOnFrame, hfit, St.settleRelay, hg] using
          Move.relayFail (.openStream id) .protocol rest hw rfl (by simp)
      · have hcap : s.targets.card < maxStreams := by
          by_contra hc; exact hg (Or.inr (Or.inl (by omega)))
        have hid : id ∉ s.targets := fun hm => hg (Or.inr (Or.inr hm))
        cases connect with
        | true =>
          simp only [relayOnFrame, hfit, hg, relaySendFrame, hopened, Bool.not_true, Bool.false_eq_true, if_true, if_false]
          exact Move.connect id rest he hw hcap hid
        | false =>
          simp only [relayOnFrame, hfit, hg, relaySendFrame, hrefused, Bool.not_true, Bool.false_eq_true, if_true,
            if_false]
          exact Move.refuse id rest he hw hcap hid
    | streamData id d =>
      obtain ⟨b, hb, -, -, hl⟩ := hf.2.decode
      by_cases hm : id ∈ s.targets
      · rcases writeData_payload (s.streams id).sshdGone w hb hl with hok | ⟨k, hk⟩
        · have e : relayOnFrame connect w { s with down := s.down.pop } (.streamData id d) =
              (.ok (), St.modify { s with down := s.down.pop } id (Stream.sshdGets b)) := by
            simp [relayOnFrame, hfit, hm, hok]
          rw [e]; exact Move.relayData id d b rest he hw hm hb
        · have e : relayOnFrame connect w { s with down := s.down.pop } (.streamData id d) =
              (.error .transport, { St.modify { s with down := s.down.pop } id (Stream.sshdGets (b.take k)) with
                cut := insert id s.cut }) := by
            simp [relayOnFrame, hfit, hm, hk]
          rw [e]; exact Move.relayCut id d b k rest he hw hm hb
      · simpa [relayOnFrame, hfit, St.settleRelay, hm] using
          Move.relayFail (.streamData id d) .protocol rest hw rfl (by simp)
    | streamHalfClosed id => simpa [relayOnFrame, hfit, St.settleRelay] using Move.relayEnd id _ rest he hw rfl rfl
    | streamClosed id r => simpa [relayOnFrame, hfit, St.settleRelay] using Move.relayEnd id _ rest he hw rfl rfl
    | ping n =>
      have hpong : fitsFrame (ClientFrame.pong n).encode = true := ClientFrame.Sendable.fits (f := .pong n) hf
      simpa [relayOnFrame, hfit, St.settleRelay, relaySendFrame, hpong] using Move.pong n rest he hw
    | _ => exact hf.elim

/-- **Inversion of a step.** -/
theorem step_move (h : Wf s) (o : Op) : Move s (step s o) := by
  cases o with
  | openStream =>
    simp only [step]; split_ifs with he
    · exact Move.idle
    · exact serverOpen_move (by simpa using he)
  | callerRead id r =>
    simp only [step]; split_ifs with hc
    · exact callerReadStep_move hc.1 hc.2 r
    · exact Move.idle
  | callerEnqueue id =>
    simp only [step]; split_ifs
    · exact Move.idle
    · exact Move.callerEnqueue id
  | serverSend =>
    simp only [step]; split_ifs
    · exact Move.idle
    · exact serverSendStep_move
  | serverRecv w =>
    simp only [step]; split_ifs with he
    · exact Move.idle
    · exact serverRecvStep_move h (by simpa using he) w
  | heartbeat =>
    simp only [step]; split_ifs
    · exact Move.idle
    · exact heartbeatStep_move
  | serverStop r =>
    simp only [step]; split_ifs
    · exact Move.idle
    · cases r <;> simp only [serverStopStep] <;> try split_ifs
      all_goals first | exact Move.serverExits _ | exact Move.idle
  | closeDispatch => exact Move.flags true s.leaseOk s.serverExit s.relayExit id id
  | fence => exact Move.flags s.barrier false s.serverExit s.relayExit id id
  | callerDrop id => exact Move.callerGone id
  | sshdRead id r =>
    simp only [step]; split_ifs with hc
    · exact sshdReadStep_move hc.1 hc.2 r
    · exact Move.idle
  | sshdEnqueue id =>
    simp only [step]; split_ifs
    · exact Move.idle
    · exact Move.sshdEnqueue id
  | relaySend =>
    simp only [step]; split_ifs
    · exact Move.idle
    · exact relaySendStep_move h
  | relayRecv c w =>
    simp only [step]; split_ifs with he
    · exact Move.idle
    · exact relayRecvStep_move h (by simpa using he) c w
  | relayStop r =>
    simp only [step]; split_ifs
    · exact Move.idle
    · cases r <;> exact Move.relayExits _
  | sshdClose id => exact Move.sshdGone id

/-! ## Every reachable state is well formed -/

theorem wf_init : Wf init := by
  refine ⟨by decide, by decide, by decide, ?_, ?_, ⟨?_, ?_, ?_⟩, ⟨?_, ?_, ?_⟩, ?_⟩ <;>
    simp [init, Lane.Keyed, ReaderIds]

theorem endFrame_server {id : ℕ} {f : ServerFrame} (hf : f = .streamHalfClosed id ∨ f = .streamClosed id .shutdown) :
    f.stream = some id ∧ f.closing = true ∧ (id < 2 ^ 32 → f.Sendable) := by
  rcases hf with rfl | rfl <;> exact ⟨rfl, rfl, fun h => h⟩

theorem endFrame_client {id : ℕ} {f : ClientFrame} (hf : f = .streamHalfClosed id ∨ f = .streamClosed id .shutdown) :
    f.stream = some id ∧ f.closing = true ∧ (id < 2 ^ 32 → f.Sendable) := by
  rcases hf with rfl | rfl <;> exact ⟨rfl, rfl, fun h => h⟩

theorem payload_encode {b : List UInt8} (h1 : 1 ≤ b.length) (h2 : b.length ≤ maxDataBytes) :
    Payload (Base64Url.encode b) := ⟨b, rfl, h1, h2⟩

theorem Move.wf {s' : St} (m : Move s s') (h : Wf s) : Wf s' := by
  cases m with
  | flags b l se re hs hr => exact { h with }
  | callerGone id | sshdGone id => exact { h with readers := forall_modify h.readers (h.readers id) }
  | admitted he hcap hid =>
    have hr : ∀ j, ReaderIds (s.nextStreamId + 1) j (s.streams j) := fun j =>
      ⟨fun hj => Nat.lt_succ_of_lt ((h.readers j).1 hj), (h.readers j).2⟩
    exact { h with
      next_pos := Nat.succ_pos _, next_lt := hid, down_keyed := h.down_keyed.push _
      down_sendable := h.down_sendable.push ⟨h.next_pos, h.next_lt⟩
      readers := forall_modify hr ⟨fun _ => Nat.lt_succ_self _, (h.readers _).2⟩ }
  | callerData id b hr hh h1 h2 =>
    have hid : id < 2 ^ 32 := lt_trans ((h.readers id).1 hr) h.next_lt
    exact { h with
      down_keyed := h.down_keyed.hold rfl, down_sendable := h.down_sendable.hold id ⟨hid, payload_encode h1 h2⟩
      readers := forall_modify h.readers (h.readers id) }
  | callerEnd id f hr hh hf =>
    obtain ⟨h1, -, h3⟩ := endFrame_server hf
    have hid : id < 2 ^ 32 := lt_trans ((h.readers id).1 hr) h.next_lt
    exact { h with
      down_keyed := h.down_keyed.hold h1, down_sendable := h.down_sendable.hold id (h3 hid)
      readers := forall_modify h.readers ⟨fun hj => by simp [Stream.callerEnds] at hj, (h.readers id).2⟩ }
  | callerEnqueue id =>
    exact { h with down_keyed := h.down_keyed.enqueue _ _, down_sendable := h.down_sendable.enqueue _ _ }
  | serverSend f q hq => exact { h with down_keyed := h.down_keyed.flush, down_sendable := h.down_sendable.flush }
  | ping hn =>
    exact { h with nonce_lt := hn, down_keyed := h.down_keyed.push _, down_sendable := h.down_sendable.push hn }
  | serverOpened | serverPong | serverEnd | serverFail =>
    exact { h with up_keyed := h.up_keyed.pop, up_sendable := h.up_sendable.pop }
  | serverData id d b w he hw hm hb | serverCut id d b k w he hw hm hb =>
    exact { h with
      up_keyed := h.up_keyed.pop, up_sendable := h.up_sendable.pop
      readers := forall_modify h.readers (h.readers id) }
  | sshdData id b hr hh h1 h2 =>
    exact { h with
      up_keyed := h.up_keyed.hold rfl
      up_sendable := h.up_sendable.hold id ⟨(h.readers id).2 hr, payload_encode h1 h2⟩
      readers := forall_modify h.readers (h.readers id) }
  | sshdEnd id f hr hh hf =>
    obtain ⟨h1, -, h3⟩ := endFrame_client hf
    exact { h with
      up_keyed := h.up_keyed.hold h1, up_sendable := h.up_sendable.hold id (h3 ((h.readers id).2 hr))
      readers := forall_modify h.readers ⟨(h.readers id).1, fun hj => by simp [Stream.sshdEnds] at hj⟩ }
  | sshdEnqueue id => exact { h with up_keyed := h.up_keyed.enqueue _ _, up_sendable := h.up_sendable.enqueue _ _ }
  | relaySend f q hq => exact { h with up_keyed := h.up_keyed.flush, up_sendable := h.up_sendable.flush }
  | connect id w he hw hcap hid =>
    have hf : (ServerFrame.openStream id).Sendable := h.down_sendable.wire _ (by rw [hw]; exact List.mem_cons_self)
    exact { h with
      down_keyed := h.down_keyed.pop, down_sendable := h.down_sendable.pop
      up_keyed := h.up_keyed.push _, up_sendable := h.up_sendable.push hf.2
      readers := forall_modify h.readers ⟨(h.readers id).1, fun _ => hf.2⟩ }
  | refuse id w he hw hcap hid =>
    have hf : (ServerFrame.openStream id).Sendable := h.down_sendable.wire _ (by rw [hw]; exact List.mem_cons_self)
    exact { h with
      down_keyed := h.down_keyed.pop, down_sendable := h.down_sendable.pop
      up_keyed := h.up_keyed.push _, up_sendable := h.up_sendable.push hf.2 }
  | relayData id d b w he hw hm hb | relayCut id d b k w he hw hm hb =>
    exact { h with
      down_keyed := h.down_keyed.pop, down_sendable := h.down_sendable.pop
      readers := forall_modify h.readers (h.readers id) }
  | relayEnd | relayFail => exact { h with down_keyed := h.down_keyed.pop, down_sendable := h.down_sendable.pop }
  | pong n w he hw =>
    have hf : (ServerFrame.ping n).Sendable := h.down_sendable.wire _ (by rw [hw]; exact List.mem_cons_self)
    exact { h with
      down_keyed := h.down_keyed.pop, down_sendable := h.down_sendable.pop
      up_keyed := h.up_keyed.push _, up_sendable := h.up_sendable.push hf }

theorem wf_run (ops : List Op) : Wf (run init ops) :=
  Machine.run_inv (I := Wf) (fun _ o h => (step_move h o).wf h) init ops wf_init

/-- **Invariant rule over moves.** What every move of a well-formed state keeps holds in every reachable state. -/
theorem run_inv_of_move {I : St → Prop} (h0 : I init) (hm : ∀ s s', Wf s → Move s s' → I s → I s') (ops : List Op) :
    I (run init ops) := by
  have key := Machine.run_inv (I := fun s => Wf s ∧ I s)
    (fun s o h => ⟨(step_move h.1 o).wf h.1, hm s _ h.1 (step_move h.1 o) h.2⟩) init ops ⟨wf_init, h0⟩
  exact key.2

end OwlMux.Relay
