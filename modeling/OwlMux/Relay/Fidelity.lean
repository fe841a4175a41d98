/-
Byte-stream fidelity of the multiplexer: seen from its local ends, every stream is two independent byte pipes.

Per stream (`Flow.Ok`): the bytes delivered, then the bytes of the frames on their way, are the bytes read. The end frame
of a direction is its last frame, so nothing is on its way behind it: when it is applied, everything read has been
delivered, and its reader has returned, so nothing more is ever read (`Ended`).

Results:
- `Flow.Move.downEnded`, `Flow.Move.upEnded`: a direction that has ended stays complete;
- `byte_fidelity`: prefix at every moment, equality once the half-close is applied, sizes of every frame.
-/
import Mathlib.Tactic
import OwlMux.Relay.Flow

namespace OwlMux.Relay

namespace Flow

variable {id : ℕ} {v v' : Flow}

/-- the direction to sshd is over: nothing more is read, everything read was delivered -/
def DownEnded (v : Flow) : Prop := v.known ∧ v.callerReader = false ∧ v.sshdGot = v.callerRead

/-- the direction to the caller is over; the OpenStream was answered, or will never be -/
def UpEnded (v : Flow) : Prop :=
  (v.relayUp = true → v.connected ∨ v.refused) ∧ v.sshdReader = false ∧ v.callerGot = v.sshdRead

theorem prefix_eq {a b c : List UInt8} (h : a <+: b) (hb : b <+: c) (ha : a = c) : b = c :=
  hb.eq_of_length (le_antisymm hb.length_le (ha ▸ h.length_le))

/-- deliveries only append -/
theorem Move.sshdGot_prefix (m : Move id v v') : v.sshdGot <+: v'.sshdGot := by
  cases m <;> first | exact List.prefix_rfl | exact List.prefix_append _ _

theorem Move.callerGot_prefix (m : Move id v v') : v.callerGot <+: v'.callerGot := by
  cases m <;> first | exact List.prefix_rfl | exact List.prefix_append _ _

theorem Move.downEnded (m : Move id v v') (h : v.Ok id) (he : v.DownEnded) : v'.DownEnded := by
  obtain ⟨hk, hr, hb⟩ := he
  have hread : v'.known ∧ v'.callerReader = false ∧ v'.callerRead = v.callerRead := by
    cases m with
    | admitted hn => exact (hn hk).elim
    | callerData b h1 | callerEnd f h1 => simp [hr] at h1
    | _ => exact ⟨hk, hr, rfl⟩
  obtain ⟨h1, h2, h3⟩ := hread
  have hp := (m.ok h).down_head
  rw [h3] at hp
  exact ⟨h1, h2, (prefix_eq m.sshdGot_prefix hp hb).trans h3.symm⟩

theorem Move.upEnded (m : Move id v v') (h : v.Ok id) (he : v.UpEnded) : v'.UpEnded := by
  obtain ⟨hk, hr, hb⟩ := he
  have hread : (v'.relayUp = true → v'.connected ∨ v'.refused) ∧ v'.sshdReader = false ∧ v'.sshdRead = v.sshdRead := by
    cases m with
    | stay su ru hs hru => exact ⟨fun hu => hk (hru hu), hr, rfl⟩
    | sshdData b h1 | sshdEnd f h1 => simp [hr] at h1
    | connect r h1 h2 =>
      obtain ⟨hc, hf, -⟩ := h.unseen_of_open h1 h2
      exact (not_or.2 ⟨hc, hf⟩ (hk h1)).elim
    | refuse r h1 h2 => exact ⟨fun _ => Or.inr trivial, hr, rfl⟩
    | relayCut d b k r h1 h2 h3 => exact ⟨by simp, hr, rfl⟩
    | relayFail f r h1 => exact ⟨by simp, hr, rfl⟩
    | _ => exact ⟨hk, hr, rfl⟩
  obtain ⟨h1, h2, h3⟩ := hread
  have hp := (m.ok h).up_head
  rw [h3] at hp
  exact ⟨h1, h2, (prefix_eq m.callerGot_prefix hp hb).trans h3.symm⟩

/-- an end frame about to be applied: everything read has been delivered -/
theorem Ok.downEnded (h : v.Ok id) (he : v.relayUp = true) {f : ServerFrame} {r : List ServerFrame}
    (hd : v.down = f :: r) (hf : f.closing = true) : v.DownEnded := by
  have hr : r = [] := (hd ▸ h.down_last).eq_nil hf
  refine ⟨h.known_of_down hd, ?_, ?_⟩
  · by_contra hc
    simp [h.down_reader (by simpa using hc) f (by simp [hd])] at hf
  · simpa [hd, hr, bytes_of_closing hf] using h.down_bytes he

theorem Ok.upEnded (h : v.Ok id) (he : v.serverUp = true) {f : ClientFrame} {r : List ClientFrame}
    (hu : v.up = f :: r) (hf : f.closing = true) : v.UpEnded := by
  have hr : r = [] := (hu ▸ h.up_last).eq_nil hf
  refine ⟨fun hrel => ?_, ?_, ?_⟩
  · by_contra hc
    rw [not_or] at hc
    by_cases hk : v.known
    · simp [(h.unseen hrel hk hc.1 hc.2).2.1] at hu
    · simp [(h.gone (h.fresh hk).2.2.1).1] at hu
  · by_contra hc
    simp [h.up_reader (by simpa using hc) f (by simp [hu])] at hf
  · simpa [hu, hr, bytes_of_closing_up hf] using h.up_bytes he

end Flow

/-! ## Over runs of the joined loops -/

/-- what every move of a flow keeps holds after every continuation -/
theorem flow_keeps {Q : Flow → Prop} {id : ℕ} (hQ : ∀ v v', Flow.Move id v v' → v.Ok id → Q v → Q v') (pre post : List Op)
    (h : Q ((run init pre).flow id)) : Q ((run init (pre ++ post)).flow id) := by
  induction post generalizing pre with
  | nil => simpa using h
  | cons o post ih =>
    have hm := flow_move (wf_run pre) (flow_run pre) (step_move (wf_run pre) o) id
    have hs : step (run init pre) o = run init (pre ++ [o]) := (Machine.run_snoc init pre o).symm
    rw [hs] at hm
    have := ih (pre ++ [o]) (hQ _ _ hm (flow_run pre id) h)
    simpa using this

/-- what the size checks ask of a frame, and `write_data` of its payload -/
def ServerFrame.Sized (f : ServerFrame) : Prop :=
  fitsFrame f.encode = true ∧ ∀ i d, f = .streamData i d → ∃ b, Base64Url.decode d = some b ∧ 1 ≤ b.length ∧
    b.length ≤ maxDataBytes ∧ ∀ gone w, writeData gone w d ≠ .protocol

def ClientFrame.Sized (f : ClientFrame) : Prop :=
  fitsFrame f.encode = true ∧ ∀ i d, f = .streamData i d → ∃ b, Base64Url.decode d = some b ∧ 1 ≤ b.length ∧
    b.length ≤ maxDataBytes ∧ ∀ gone w, writeData gone w d ≠ .protocol

theorem Payload.sized {d : Text} (h : Payload d) : ∃ b, Base64Url.decode d = some b ∧ 1 ≤ b.length ∧
    b.length ≤ maxDataBytes ∧ ∀ gone w, writeData gone w d ≠ .protocol := by
  obtain ⟨b, hb, -, h1, h2⟩ := h.decode
  refine ⟨b, hb, h1, h2, fun gone w => ?_⟩
  rcases writeData_payload gone w hb h2 with e | ⟨k, e⟩ <;> simp [e]

theorem ServerFrame.Sendable.sized {f : ServerFrame} (h : f.Sendable) : f.Sized :=
  ⟨h.fits, fun i d e => by subst e; exact h.2.sized⟩

theorem ClientFrame.Sendable.sized {f : ClientFrame} (h : f.Sendable) : f.Sized :=
  ⟨h.fits, fun i d e => by subst e; exact h.2.sized⟩

/-- **Byte-stream fidelity.** In every reachable state, for every stream and direction: the bytes delivered are a prefix
of the bytes read; when a half-close is applied at a receiver that still has the stream, they are all of them, then and
after any continuation; and every frame anywhere on the lanes passes the peer's size checks. -/
theorem byte_fidelity (ops : List Op) (id : ℕ) :
    ((run init ops).streams id).sshdGot <+: ((run init ops).streams id).callerRead ∧
    ((run init ops).streams id).callerGot <+: ((run init ops).streams id).sshdRead ∧
    (∀ connect w rest ops', (run init ops).relayExit = none →
      (run init ops).down.wire = .streamHalfClosed id :: rest → id ∈ (run init ops).targets →
      ((run init (ops ++ .relayRecv connect w :: ops')).streams id).sshdGot =
        ((run init (ops ++ .relayRecv connect w :: ops')).streams id).callerRead) ∧
    (∀ w rest ops', (run init ops).serverExit = none →
      (run init ops).up.wire = .streamHalfClosed id :: rest → id ∈ (run init ops).writers →
      ((run init (ops ++ .serverRecv w :: ops')).streams id).callerGot =
        ((run init (ops ++ .serverRecv w :: ops')).streams id).sshdRead) ∧
    (run init ops).down.All ServerFrame.Sized ∧ (run init ops).up.All ClientFrame.Sized := by
  have hok := flow_run ops id
  have hwf := wf_run ops
  refine ⟨hok.down_head, hok.up_head, fun connect w rest ops' he hw _ => ?_, fun w rest ops' he hw _ => ?_, ?_, ?_⟩
  · have hend := hok.downEnded (by simp [St.flow, he]) (down_head hw rfl) rfl
    exact (flow_keeps (fun v v' m h hq => m.downEnded h hq) ops (.relayRecv connect w :: ops') hend).2.2
  · have hend := hok.upEnded (by simp [St.flow, he]) (up_head hw rfl) rfl
    exact (flow_keeps (fun v v' m h hq => m.upEnded h hq) ops (.serverRecv w :: ops') hend).2.2
  · exact hwf.down_sendable.mono fun f hf => hf.sized
  · exact hwf.up_sendable.mono fun f hf => hf.sized

/-- the caller of the first stream writes two bytes and ends its direction -/
def halfClosedOps : List Op :=
  [.openStream, .relayRecv true .all, .callerRead 1 (.bytes [104, 105]), .callerEnqueue 1, .serverSend,
    .relayRecv true .all, .callerRead 1 (.bytes []), .callerEnqueue 1, .serverSend]

/-- the half-close arrives at a Relay that has the stream, and both bytes were delivered -/
theorem halfClosed_delivers :
    (run init halfClosedOps).down.wire = [.streamHalfClosed 1] ∧ (run init halfClosedOps).targets = {1} ∧
    ((run init (halfClosedOps ++ [.relayRecv true .all])).streams 1).callerRead = [104, 105] ∧
    ((run init (halfClosedOps ++ [.relayRecv true .all])).streams 1).sshdGot =
      ((run init (halfClosedOps ++ [.relayRecv true .all])).streams 1).callerRead := by
  have hw : (run init halfClosedOps).down.wire = [.streamHalfClosed 1] := by decide +kernel
  have hr : (run init halfClosedOps).relayExit = none := by decide +kernel
  have ht : (run init halfClosedOps).targets = {1} := by decide +kernel
  have hread : ((run init (halfClosedOps ++ [.relayRecv true .all])).streams 1).callerRead = [104, 105] := by
    decide +kernel
  have hgot := (byte_fidelity halfClosedOps 1).2.2.1 true .all [] [] hr hw (by rw [ht]; exact Finset.mem_singleton_self 1)
  exact ⟨hw, ht, hread, hgot⟩

end OwlMux.Relay
