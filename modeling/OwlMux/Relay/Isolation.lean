/-
Stream isolation: what dropping the local end of one stream does to the others.

`drop e d` marks the caller's or sshd's end of stream `d` as gone and changes nothing else. Every step commutes with it
(`step_drop`), except the one that hands data of `d` to that end: the write fails and `write_data(..).await?` ends the whole
loop. So the run with the drop is the run without it, end marker apart, exactly as long as no such step is taken; at the
first one the tunnel is lost for every stream.

Results:
- `step_drop`, `run_drop`: lockstep of the runs with and without the drop;
- `stream_isolation`: the other streams see no difference at any moment iff no step hands data of `d` to its dropped end;
- `drop_ends_tunnel`: a caller that drops its end while data is in flight takes a second stream down with it.
-/
import Mathlib.Tactic
import OwlMux.Relay.Flow

namespace OwlMux.Relay

/-- the two local ends of a stream -/
inductive End where
  | caller
  | sshd
deriving DecidableEq, Repr

def End.drops : End → Stream → Stream
  | .caller => Stream.callerDrops
  | .sshd => Stream.sshdDrops

/-- the operation by which the end goes away -/
def End.dropOp (e : End) (d : ℕ) : Op :=
  match e with
  | .caller => .callerDrop d
  | .sshd => .sshdClose d

def St.drop (e : End) (d : ℕ) (s : St) : St := s.modify d e.drops

variable {s : St} {e : End} {d : ℕ}

theorem step_dropOp : step s (e.dropOp d) = s.drop e d := by cases e <;> rfl

@[simp]
theorem drop_callerReader (id : ℕ) : ((s.drop e d).streams id).callerReader = (s.streams id).callerReader :=
  forall_modify (P := fun j t => t.callerReader = (s.streams j).callerReader) (fun _ => rfl) (by cases e <;> rfl) id

@[simp]
theorem drop_sshdReader (id : ℕ) : ((s.drop e d).streams id).sshdReader = (s.streams id).sshdReader :=
  forall_modify (P := fun j t => t.sshdReader = (s.streams j).sshdReader) (fun _ => rfl) (by cases e <;> rfl) id

/-- a change of a stream that does not look at its end markers commutes with a drop -/
theorem modify_drop (f : Stream → Stream) (hf : ∀ (e : End) t, f (e.drops t) = e.drops (f t)) (id : ℕ) :
    (s.drop e d).modify id f = (s.modify id f).drop e d := by
  have hs : (s.drop e d).streams = Function.update s.streams d (e.drops (s.streams d)) := rfl
  have hm : (s.modify id f).streams = Function.update s.streams id (f (s.streams id)) := rfl
  have : ((s.drop e d).modify id f).streams = ((s.modify id f).drop e d).streams := by
    show Function.update (s.drop e d).streams id (f ((s.drop e d).streams id)) =
      Function.update (s.modify id f).streams d (e.drops ((s.modify id f).streams d))
    rw [hs, hm]
    by_cases h : id = d
    · subst h; simp [hf]
    · rw [Function.update_of_ne h, Function.update_of_ne (Ne.symm h), Function.update_comm h]
  exact congrArg (fun x => { s with streams := x }) this

/-! ## Steps that do not write to the dropped end -/

/-- this step completes a write of data of stream `d` to its end `e`, which is still there -/
def Hands (e : End) (d : ℕ) (s : St) (o : Op) : Prop :=
  match e with
  | .caller => o = .serverRecv .all ∧ s.serverExit = none ∧ s.leaseOk = true ∧ d ∈ s.writers ∧
      (s.streams d).callerGone = false ∧ ∃ data rest, s.up.wire = .streamData d data :: rest
  | .sshd => (∃ connect, o = .relayRecv connect .all) ∧ s.relayExit = none ∧ d ∈ s.targets ∧
      (s.streams d).sshdGone = false ∧ ∃ data rest, s.down.wire = .streamData d data :: rest

/-- what a loop does with a received frame, and its answer, both up to the drop -/
def dropPair {α : Type*} (e : End) (d : ℕ) (p : α × St) : α × St := (p.1, p.2.drop e d)

theorem writeData_drop {b : Bool} {w : Write} {data : Text} (h : w = .all → b = true) :
    writeData true w data = writeData b w data := by
  cases w with
  | all => rw [h rfl]
  | cut k => rfl

theorem serverOnFrame_drop (w : Write) (f : ClientFrame)
    (hn : ¬ (e = .caller ∧ w = .all ∧ s.leaseOk = true ∧ d ∈ s.writers ∧ (s.streams d).callerGone = false ∧
      ∃ data, f = .streamData d data)) :
    serverOnFrame w (s.drop e d) f = dropPair e d (serverOnFrame w s f) := by
  cases hfit : fitsFrame f.encode with
  | false => simp [serverOnFrame, hfit, dropPair]
  | true =>
    cases f with
    | pong n =>
      by_cases hm : n ∈ s.outstandingPings
      · have hm' : n ∈ (s.drop e d).outstandingPings := hm
        simp [serverOnFrame, hfit, hm, hm', dropPair]; rfl
      · have hm' : n ∉ (s.drop e d).outstandingPings := hm
        simp [serverOnFrame, hfit, hm, hm', dropPair]
    | streamData id data =>
      have hl' : (s.drop e d).leaseOk = s.leaseOk := rfl
      have hw' : (s.drop e d).writers = s.writers := rfl
      by_cases hl : s.leaseOk = true
      · by_cases hm : id ∈ s.writers
        · have hwd : writeData ((s.drop e d).streams id).callerGone w data = writeData (s.streams id).callerGone w data := by
            by_cases hid : id = d
            · subst hid
              cases e with
              | sshd => simp [St.drop, End.drops, Stream.sshdDrops]
              | caller =>
                have : ((s.drop .caller id).streams id).callerGone = true := by
                  simp [St.drop, End.drops, Stream.callerDrops]
                rw [this]
                refine writeData_drop fun hall => ?_
                by_contra hg
                exact hn ⟨rfl, hall, hl, hm, by simpa using hg, data, rfl⟩
            · simp [St.drop, modify_streams_ne s _ hid]
          have hc : ∀ b, (s.drop e d).modify id (Stream.callerGets b) = (s.modify id (Stream.callerGets b)).drop e d :=
            fun b => modify_drop (Stream.callerGets b) (by rintro (_ | _) t <;> rfl) id
          cases hres : writeData (s.streams id).callerGone w data <;>
            simp [serverOnFrame, hfit, hl', hl, hw', hm, hwd, hres, hc, dropPair]
        · simp [serverOnFrame, hfit, hl', hl, hw', hm, dropPair]
      · simp [serverOnFrame, hfit, hl', hl, dropPair]
    | streamHalfClosed id | streamClosed id r => simp [serverOnFrame, hfit, dropPair]; rfl
    | _ => simp [serverOnFrame, hfit, dropPair]

theorem relaySendFrame_drop (f : ClientFrame) : relaySendFrame (s.drop e d) f = dropPair e d (relaySendFrame s f) := by
  unfold relaySendFrame
  split_ifs <;> rfl

theorem relayOnFrame_drop (connect : Bool) (w : Write) (f : ServerFrame)
    (hn : ¬ (e = .sshd ∧ w = .all ∧ d ∈ s.targets ∧ (s.streams d).sshdGone = false ∧ ∃ data, f = .streamData d data)) :
    relayOnFrame connect w (s.drop e d) f = dropPair e d (relayOnFrame connect w s f) := by
  have ht : (s.drop e d).targets = s.targets := rfl
  cases hfit : fitsFrame f.encode with
  | false => simp [relayOnFrame, hfit, dropPair]
  | true =>
    cases f with
    | openStream id =>
      by_cases hg : id = 0 ∨ maxStreams ≤ s.targets.card ∨ id ∈ s.targets
      · simp [relayOnFrame, hfit, ht, hg, dropPair]
      · cases connect with
        | true =>
          have hc : (s.drop e d).modify id Stream.sshdStarts = (s.modify id Stream.sshdStarts).drop e d :=
            modify_drop Stream.sshdStarts (by rintro (_ | _) t <;> rfl) id
          simp only [relayOnFrame, hfit, ht, hg, hc, Bool.not_true, Bool.false_eq_true, if_true, if_false]
          exact relaySendFrame_drop (s := { s.modify id Stream.sshdStarts with
            targets := insert id s.targets, connected := insert id s.connected }) _
        | false =>
          simp only [relayOnFrame, hfit, ht, hg, Bool.not_true, Bool.false_eq_true, if_false]
          exact relaySendFrame_drop (s := { s with refused := insert id s.refused }) _
    | streamData id data =>
      by_cases hm : id ∈ s.targets
      · have hwd : writeData ((s.drop e d).streams id).sshdGone w data = writeData (s.streams id).sshdGone w data := by
          by_cases hid : id = d
          · subst hid
            cases e with
            | caller => simp [St.drop, End.drops, Stream.callerDrops]
            | sshd =>
              have : ((s.drop .sshd id).streams id).sshdGone = true := by simp [St.drop, End.drops, Stream.sshdDrops]
              rw [this]
              refine writeData_drop fun hall => ?_
              by_contra hg
              exact hn ⟨rfl, hall, hm, by simpa using hg, data, rfl⟩
          · simp [St.drop, modify_streams_ne s _ hid]
        have hc : ∀ b, (s.drop e d).modify id (Stream.sshdGets b) = (s.modify id (Stream.sshdGets b)).drop e d :=
          fun b => modify_drop (Stream.sshdGets b) (by rintro (_ | _) t <;> rfl) id
        cases hres : writeData (s.streams id).sshdGone w data with
        | protocol => simp [relayOnFrame, hfit, ht, hm, hwd, hres, dropPair]
        | ok b => simp [relayOnFrame, hfit, ht, hm, hwd, hres, hc, dropPair]
        | failed b => simp only [relayOnFrame, hfit, ht, hm, hwd, hres, hc, dropPair]; rfl
      · simp [relayOnFrame, hfit, ht, hm, dropPair]
    | streamHalfClosed id | streamClosed id r => simp [relayOnFrame, hfit, dropPair]; rfl
    | ping n => simpa [relayOnFrame, hfit] using relaySendFrame_drop (s := s) (.pong n)
    | _ => simp [relayOnFrame, hfit, dropPair]

theorem settleServer_drop (p : Except RelayError Unit × St) :
    St.settleServer (dropPair e d p) = (St.settleServer p).drop e d := by
  rcases p with ⟨a | a, s⟩ <;> rfl

theorem settleRelay_drop (p : Except ClientError Unit × St) :
    St.settleRelay (dropPair e d p) = (St.settleRelay p).drop e d := by
  rcases p with ⟨a | a, s⟩ <;> rfl

theorem admitStream_drop : admitStream (s.drop e d) = (admitStream s).drop e d := by
  have hc := modify_drop (s := s) (e := e) (d := d) Stream.callerStarts (by rintro (_ | _) t <;> rfl) s.nextStreamId
  have hn : (s.drop e d).nextStreamId = s.nextStreamId := rfl
  simp only [admitStream, hn, hc]
  rfl

theorem callerReadStep_drop (id : ℕ) (r : Read) : callerReadStep (s.drop e d) id r = (callerReadStep s id r).drop e d := by
  have h1 := modify_drop (s := s) (e := e) (d := d) Stream.callerEnds (by rintro (_ | _) t <;> rfl) id
  cases r with
  | failed => simp only [callerReadStep, h1]; rfl
  | bytes b =>
    have h2 := modify_drop (s := s) (e := e) (d := d) (Stream.callerReads (b.take maxDataBytes))
      (by rintro (_ | _) t <;> rfl) id
    simp only [callerReadStep]
    split_ifs
    · rw [h1]; rfl
    · rw [h2]; rfl

theorem sshdReadStep_drop (id : ℕ) (r : Read) : sshdReadStep (s.drop e d) id r = (sshdReadStep s id r).drop e d := by
  have h1 := modify_drop (s := s) (e := e) (d := d) Stream.sshdEnds (by rintro (_ | _) t <;> rfl) id
  cases r with
  | failed => simp only [sshdReadStep, h1]; rfl
  | bytes b =>
    have h2 := modify_drop (s := s) (e := e) (d := d) (Stream.sshdReads (b.take maxDataBytes))
      (by rintro (_ | _) t <;> rfl) id
    simp only [sshdReadStep]
    split_ifs
    · rw [h1]; rfl
    · rw [h2]; rfl

theorem serverRecvStep_drop (w : Write) (hn : ¬ Hands e d s (.serverRecv w)) (he : s.serverExit = none) :
    serverRecvStep w (s.drop e d) = (serverRecvStep w s).drop e d := by
  unfold serverRecvStep
  have hu : (s.drop e d).up = s.up := rfl
  rw [hu]
  cases hw : s.up.wire with
  | nil =>
    have hr : (s.drop e d).relayExit = s.relayExit := rfl
    simp only [hr]; split_ifs <;> rfl
  | cons f rest =>
    have hpair : serverOnFrame w ({ s with up := s.up.pop }.drop e d) f =
        dropPair e d (serverOnFrame w { s with up := s.up.pop } f) := by
      refine serverOnFrame_drop w f ?_
      rintro ⟨rfl, rfl, hl, hm, hg, data, rfl⟩
      exact hn ⟨rfl, he, hl, hm, hg, data, rest, hw⟩
    exact (congrArg St.settleServer hpair).trans (settleServer_drop _)

theorem relayRecvStep_drop (connect : Bool) (w : Write) (hn : ¬ Hands e d s (.relayRecv connect w))
    (he : s.relayExit = none) : relayRecvStep connect w (s.drop e d) = (relayRecvStep connect w s).drop e d := by
  unfold relayRecvStep
  have hu : (s.drop e d).down = s.down := rfl
  rw [hu]
  cases hw : s.down.wire with
  | nil =>
    have hr : (s.drop e d).serverExit = s.serverExit := rfl
    simp only [hr]; split_ifs <;> rfl
  | cons f rest =>
    have hpair : relayOnFrame connect w ({ s with down := s.down.pop }.drop e d) f =
        dropPair e d (relayOnFrame connect w { s with down := s.down.pop } f) := by
      refine relayOnFrame_drop connect w f ?_
      rintro ⟨rfl, rfl, hm, hg, data, rfl⟩
      exact hn ⟨⟨connect, rfl⟩, he, hm, hg, data, rest, hw⟩
    exact (congrArg St.settleRelay hpair).trans (settleRelay_drop _)

/-- **A step commutes with the drop** unless it hands data to the dropped end -/
theorem step_drop (o : Op) (hn : ¬ Hands e d s o) : step (s.drop e d) o = (step s o).drop e d := by
  have hs : (s.drop e d).serverExit = s.serverExit := rfl
  have hr : (s.drop e d).relayExit = s.relayExit := rfl
  cases o with
  | openStream =>
    simp only [step, hs]; split_ifs
    · rfl
    · simp only [serverOpen, admitStream_drop]
      have h1 : (s.drop e d).leaseOk = s.leaseOk := rfl
      have h2 : (s.drop e d).barrier = s.barrier := rfl
      have h3 : (s.drop e d).writers = s.writers := rfl
      have h4 : (s.drop e d).nextStreamId = s.nextStreamId := rfl
      rw [h1, h2, h3, h4]
      split_ifs <;> rfl
  | callerRead id r =>
    simp only [step, drop_callerReader, callerReadStep_drop]
    have h1 : (s.drop e d).down = s.down := rfl
    rw [h1]; split_ifs <;> rfl
  | sshdRead id r =>
    simp only [step, drop_sshdReader, sshdReadStep_drop]
    have h1 : (s.drop e d).up = s.up := rfl
    rw [h1]; split_ifs <;> rfl
  | callerEnqueue id => simp only [step, hs]; split_ifs <;> rfl
  | sshdEnqueue id => simp only [step, hr]; split_ifs <;> rfl
  | serverSend =>
    simp only [step, hs]; split_ifs
    · rfl
    · unfold serverSendStep
      have h1 : (s.drop e d).down = s.down := rfl
      have h2 : (s.drop e d).leaseOk = s.leaseOk := rfl
      have h3 : (s.drop e d).barrier = s.barrier := rfl
      rw [h1, h2, h3]
      split
      · rfl
      · split_ifs <;> rfl
  | serverRecv w =>
    simp only [step, hs]; split_ifs with he
    · rfl
    · exact serverRecvStep_drop w hn (by simpa using he)
  | heartbeat =>
    simp only [step, hs]; split_ifs
    · rfl
    · unfold heartbeatStep
      have h1 : (s.drop e d).outstandingPings = s.outstandingPings := rfl
      have h2 : (s.drop e d).leaseOk = s.leaseOk := rfl
      have h3 : (s.drop e d).barrier = s.barrier := rfl
      have h4 : (s.drop e d).pingNonce = s.pingNonce := rfl
      rw [h1, h2, h3, h4]
      split_ifs <;> rfl
  | serverStop r =>
    simp only [step, hs]; split_ifs
    · rfl
    · have h1 : (s.drop e d).barrier = s.barrier := rfl
      have h2 : (s.drop e d).leaseOk = s.leaseOk := rfl
      cases r with
      | barrier => simp only [serverStopStep, h1]; split_ifs <;> rfl
      | fence => simp only [serverStopStep, h2]; split_ifs <;> rfl
      | inboundDeadline => rfl
      | sendFailed => rfl
      | socketError => simp only [serverStopStep, hr]; split_ifs <;> rfl
  | closeDispatch | fence => rfl
  | callerDrop id => exact modify_drop Stream.callerDrops (by rintro (_ | _) t <;> rfl) id
  | sshdClose id => exact modify_drop Stream.sshdDrops (by rintro (_ | _) t <;> rfl) id
  | relaySend =>
    simp only [step, hr]; split_ifs
    · rfl
    · unfold relaySendStep
      have h1 : (s.drop e d).up = s.up := rfl
      rw [h1]
      split
      · rfl
      · split_ifs <;> rfl
  | relayRecv connect w =>
    simp only [step, hr]; split_ifs with he
    · rfl
    · exact relayRecvStep_drop connect w hn (by simpa using he)
  | relayStop r =>
    simp only [step, hr]; split_ifs
    · rfl
    · cases r <;> rfl

/-- the runs with and without the drop, in lockstep -/
theorem run_drop (s : St) (ops : List Op) (h : Machine.Along step (fun s o => ¬ Hands e d s o) s ops) :
    run (s.drop e d) ops = (run s ops).drop e d := by
  have hstep : ∀ (t t' : St) o, ¬ Hands e d t o → t' = t.drop e d → step t' o = (step t o).drop e d := by
    rintro t t' o hn rfl
    exact step_drop o hn
  exact Machine.run_rel (R := fun t t' => t' = t.drop e d) hstep s (s.drop e d) ops h rfl

/-! ## The step that does -/

theorem writeData_all (gone : Bool) {data : Text} (h : Payload data) :
    ∃ b, writeData gone .all data = if gone then .failed [] else .ok b := by
  obtain ⟨b, hb, -, h1, hl⟩ := h.decode
  have hlt : ¬ maxDataBytes < b.length := by omega
  have hne : b ≠ [] := List.length_pos_iff.1 h1
  exact ⟨b, by simp [writeData, hb, hlt, hne]⟩

theorem step_serverRecv {w : Write} {f : ClientFrame} {rest : List ClientFrame} (he : s.serverExit = none)
    (hw : s.up.wire = f :: rest) : step s (.serverRecv w) = St.settleServer (serverOnFrame w { s with up := s.up.pop } f) := by
  have hx : ¬ s.serverExit.isSome = true := by simp [he]
  simp only [step, if_neg hx]
  unfold serverRecvStep
  rw [hw]

theorem step_relayRecv {connect : Bool} {w : Write} {f : ServerFrame} {rest : List ServerFrame} (he : s.relayExit = none)
    (hw : s.down.wire = f :: rest) :
    step s (.relayRecv connect w) = St.settleRelay (relayOnFrame connect w { s with down := s.down.pop } f) := by
  have hx : ¬ s.relayExit.isSome = true := by simp [he]
  simp only [step, if_neg hx]
  unfold relayRecvStep
  rw [hw]

/-- the Server loop goes on without the drop, and ends with it -/
theorem hands_caller (h : Wf s) {o : Op} (hn : Hands .caller d s o) :
    (step s o).serverExit = none ∧ (step (s.drop .caller d) o).serverExit = some (.error .unavailable) := by
  obtain ⟨rfl, he, hl, hm, hg, data, rest, hw⟩ := hn
  have hf : (ClientFrame.streamData d data).Sendable := h.up_sendable.wire _ (by simp [hw])
  obtain ⟨b, hb⟩ := writeData_all false hf.2
  obtain ⟨b', hb'⟩ := writeData_all true hf.2
  have hg' : ((s.drop .caller d).streams d).callerGone = true := by simp [St.drop, End.drops, Stream.callerDrops]
  constructor
  · have e1 : serverOnFrame .all { s with up := s.up.pop } (.streamData d data) =
        (.ok (), St.modify { s with up := s.up.pop } d (Stream.callerGets b)) := by
      simp [serverOnFrame, hf.fits, hl, hm, hg, hb]
    rw [step_serverRecv he hw, e1]
    exact he
  · have e2 : serverOnFrame .all { s.drop .caller d with up := s.up.pop } (.streamData d data) =
        (.error .unavailable, St.modify { s.drop .caller d with up := s.up.pop } d (Stream.callerGets [])) := by
      have hl' : (s.drop .caller d).leaseOk = true := hl
      have hm' : d ∈ (s.drop .caller d).writers := hm
      simp [serverOnFrame, hf.fits, hl', hm', hg', hb']
    have he' : (s.drop .caller d).serverExit = none := he
    have hw' : (s.drop .caller d).up.wire = .streamData d data :: rest := hw
    rw [step_serverRecv he' hw']
    exact congrArg (fun p => (St.settleServer p).serverExit) e2

/-- the Relay loop goes on without the drop, and ends with it -/
theorem hands_sshd (h : Wf s) {o : Op} (hn : Hands .sshd d s o) :
    (step s o).relayExit = none ∧ (step (s.drop .sshd d) o).relayExit = some (.error .transport) := by
  obtain ⟨⟨connect, rfl⟩, he, hm, hg, data, rest, hw⟩ := hn
  have hf : (ServerFrame.streamData d data).Sendable := h.down_sendable.wire _ (by simp [hw])
  obtain ⟨b, hb⟩ := writeData_all false hf.2
  obtain ⟨b', hb'⟩ := writeData_all true hf.2
  have hg' : ((s.drop .sshd d).streams d).sshdGone = true := by simp [St.drop, End.drops, Stream.sshdDrops]
  constructor
  · have e1 : relayOnFrame connect .all { s with down := s.down.pop } (.streamData d data) =
        (.ok (), St.modify { s with down := s.down.pop } d (Stream.sshdGets b)) := by
      simp [relayOnFrame, hf.fits, hm, hg, hb]
    rw [step_relayRecv he hw, e1]
    exact he
  · have e2 : relayOnFrame connect .all { s.drop .sshd d with down := s.down.pop } (.streamData d data) =
        (.error .transport, { St.modify { s.drop .sshd d with down := s.down.pop } d (Stream.sshdGets []) with
          cut := insert d s.cut }) := by
      have hm' : d ∈ (s.drop .sshd d).targets := hm
      have hcut : (s.drop .sshd d).cut = s.cut := rfl
      simp [relayOnFrame, hf.fits, hm', hg', hb', hcut]
    have he' : (s.drop .sshd d).relayExit = none := he
    have hw' : (s.drop .sshd d).down.wire = .streamData d data :: rest := hw
    rw [step_relayRecv he' hw']
    exact congrArg (fun p => (St.settleRelay p).relayExit) e2

/-! ## Runs -/

/-- both loops are where they are in the other run, and so is every stream but `d`: its place in both maps, the bytes at
its ends and the frames on their way -/
structure SameElsewhere (d : ℕ) (s t : St) : Prop where
  serverExit : s.serverExit = t.serverExit
  relayExit : s.relayExit = t.relayExit
  writers : ∀ id, id ≠ d → (id ∈ s.writers ↔ id ∈ t.writers)
  targets : ∀ id, id ≠ d → (id ∈ s.targets ↔ id ∈ t.targets)
  streams : ∀ id, id ≠ d → s.streams id = t.streams id
  down : ∀ id, id ≠ d → s.down.transit ServerFrame.stream id = t.down.transit ServerFrame.stream id
  up : ∀ id, id ≠ d → s.up.transit ClientFrame.stream id = t.up.transit ClientFrame.stream id

theorem sameElsewhere_drop : SameElsewhere d (s.drop e d) s :=
  ⟨rfl, rfl, fun _ _ => Iff.rfl, fun _ _ => Iff.rfl, fun _ h => modify_streams_ne s _ h, fun _ _ => rfl, fun _ _ => rfl⟩

theorem not_sameElsewhere_of_hands (h : Wf s) {o : Op} (hn : Hands e d s o) :
    ¬ SameElsewhere d (step (s.drop e d) o) (step s o) := by
  intro hs
  cases e with
  | caller =>
    obtain ⟨h1, h2⟩ := hands_caller h hn
    have := hs.serverExit
    rw [h1, h2] at this
    simp at this
  | sshd =>
    obtain ⟨h1, h2⟩ := hands_sshd h hn
    have := hs.relayExit
    rw [h1, h2] at this
    simp at this

/-- **Stream isolation, exactly when it holds.** Drop the end `e` of stream `d` after `before`. At every moment of `after`
both loops and every other stream are as in the run without the drop, if and only if no step of `after` hands data of `d`
to that end. -/
theorem stream_isolation (e : End) (d : ℕ) (before after : List Op) :
    (∀ pre post, after = pre ++ post →
      SameElsewhere d (run init (before ++ e.dropOp d :: pre)) (run init (before ++ pre))) ↔
    Machine.Along step (fun s o => ¬ Hands e d s o) (run init before) after := by
  have hwith : ∀ pre, run init (before ++ e.dropOp d :: pre) = run ((run init before).drop e d) pre := by
    intro pre
    have h1 : run init (before ++ e.dropOp d :: pre) = run (step (run init before) (e.dropOp d)) pre :=
      Machine.run_append init before (e.dropOp d :: pre)
    rw [h1, step_dropOp]
  have hwithout : ∀ pre, run init (before ++ pre) = run (run init before) pre := fun pre => Machine.run_append init before pre
  constructor
  · intro h
    by_contra hn
    obtain ⟨pre, o, post, rfl, h1, h2⟩ := Machine.exists_first_of_not_along _ _ hn
    have hsame := h (pre ++ [o]) post (by simp)
    rw [hwith, hwithout] at hsame
    have e1 : run ((run init before).drop e d) (pre ++ [o]) = step ((run (run init before) pre).drop e d) o :=
      (Machine.run_snoc _ pre o).trans (congrArg (step · o) (run_drop _ pre h1))
    have e2 : run (run init before) (pre ++ [o]) = step (run (run init before) pre) o := Machine.run_snoc _ pre o
    rw [e1, e2] at hsame
    have hwf : Wf (run (run init before) pre) := by rw [← hwithout]; exact wf_run _
    exact not_sameElsewhere_of_hands hwf (not_not.1 h2) hsame
  · rintro h pre post rfl
    rw [hwith, hwithout, run_drop _ pre ((Machine.along_append _ pre post).1 h).1]
    exact sameElsewhere_drop

/-- two streams are open; sshd answers on the first while its caller goes away -/
def droppedBefore : List Op :=
  [.openStream, .openStream, .relayRecv true .all, .relayRecv true .all, .serverRecv .all, .serverRecv .all,
    .sshdRead 1 (.bytes [1]), .sshdEnqueue 1, .relaySend]

/-- **One dropped caller ends the tunnel of every stream.** The same byte arrives in both runs; with the drop `run_tunnel`
returns Unavailable, without it the second stream goes on. -/
theorem drop_ends_tunnel :
    (run init (droppedBefore ++ [.callerDrop 1, .serverRecv .all])).serverExit = some (.error .unavailable) ∧
    (run init (droppedBefore ++ [.serverRecv .all])).serverExit = none ∧
    ¬ ∀ (e : End) (d : ℕ) (before after pre post : List Op), after = pre ++ post →
      SameElsewhere d (run init (before ++ e.dropOp d :: pre)) (run init (before ++ pre)) := by
  have h1 : (run init (droppedBefore ++ [.callerDrop 1, .serverRecv .all])).serverExit = some (.error .unavailable) := by
    decide +kernel
  have h2 : (run init (droppedBefore ++ [.serverRecv .all])).serverExit = none := by decide +kernel
  refine ⟨h1, h2, fun h => ?_⟩
  have hs := (h .caller 1 droppedBefore [.serverRecv .all] [.serverRecv .all] [] rfl).serverExit
  rw [h2] at hs
  exact absurd (h1.symm.trans hs) (by simp)

end OwlMux.Relay
