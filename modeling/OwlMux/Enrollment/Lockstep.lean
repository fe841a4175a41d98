/-
The enrollment dialogue in lockstep: over reliable channels neither side receives a frame of a kind or a stream it does not
wait for, and every provisional stream is closed by the Server and acknowledged by the Relay, once, before the Server goes on.

Two kinds of runs are different. When a notice of the Relay crosses the Server's close, the Server takes the notice for the
acknowledgement, and the acknowledgement reaches its next wait, which for the discovery stream is the wait for HostKeyAccepted.
And the Relay takes an Error frame for a protocol violation while it waits for the credential, which is where the Server refuses
an account.

Results:
- `step_inv`, `run_inv`: every step and every run keeps `Inv` when no notice crosses the Server's close;
- `enrollment_lockstep`: so no such run surprises either side;
- `notice_crosses`: a run of each kind that does.
-/
import Mathlib.Tactic
import OwlMux.Lib.Machine
import OwlMux.Enrollment.Joint

namespace OwlMux.Enrollment

open OwlMux.Relay

variable {K : Keys} {isEd25519 : Text → Bool} {A : AcceptedEnrollment} {s : St}

/-! ## The Relay -/

theorem Inv.answer (h : Inv A s) {f : ClientFrame} {next : St} (hnext : Inv A { next with up := next.up.push f }) :
    Inv A (s.answer f next) := by
  unfold St.answer
  split_ifs
  · exact hnext
  · exact h.relayReturns rfl

/-- a wait of the Relay ends with the next one -/
theorem Inv.relayMove (h : Inv A s) {s' : St}
    (joint : Joint A s.discovered.publicKey s.serverPhase s'.relayPhase s'.down.wire s'.up.wire s'.acknowledged.length)
    (notice : s.serverExit = none → ∀ p id, s.serverPhase = .draining p id .ok → .streamClosed id .shutdown ∉ s'.up.wire)
    (acknowledged : s'.acknowledged = List.range' 1 s'.acknowledged.length)
    (hsame : s'.discovered = s.discovered ∧ s'.serverPhase = s.serverPhase ∧ s'.closed = s.closed ∧
      s'.down.queue = s.down.queue ∧ s'.down.hand = s.down.hand ∧ s'.up.queue = s.up.queue ∧ s'.up.hand = s.up.hand ∧
      s'.state.targetAccount = s.state.targetAccount ∧ s'.serverExit = s.serverExit ∧ s'.relayExit = s.relayExit) :
    Inv A s' := by
  obtain ⟨e1, e2, e3, e4, e5, e6, e7, e8, e9, e10⟩ := hsame
  refine h.move ?_ ?_ ?_ acknowledged ?_ ?_ e6 e7 e8 e9 e10
  · rw [e1, e2]
    exact joint
  · rw [e9, e2]
    exact notice
  · rw [e3, e2]
    exact h.closed
  · rw [e4, e2]
    exact h.downQueue
  · rw [e5, e2]
    exact h.downHand

/-- a frame of the stream arrives at the Relay -/
theorem Inv.carried (h : Inv A s) {f : ServerFrame} {down : List ServerFrame} {id n : ℕ} {c : Bool}
    (hrp : s.relayPhase = .streams (some id) n c) (hw : s.down.wire = f :: down) (hf : Carries id f) : Inv A s.takeDown := by
  refine h.relayMove ?_ h.notice h.acknowledged ⟨rfl, rfl, rfl, rfl, rfl, rfl, rfl, rfl, rfl, rfl⟩
  have hj := h.joint
  rw [hrp, hw] at hj
  show Joint A s.discovered.publicKey s.serverPhase s.relayPhase s.down.wire.tail s.up.wire s.acknowledged.length
  rw [hrp, hw, List.tail_cons]
  generalize s.serverPhase = sp at hj ⊢
  generalize s.up.wire = up at hj ⊢
  generalize s.acknowledged.length = a at hj ⊢
  generalize hd : f :: down = wire at hj
  cases hj with
  | opened => cases hd
  | streaming slot hdown hup =>
    subst hd
    exact .streaming slot (fun g hg => hdown g (List.mem_cons_of_mem _ hg)) hup
  | @closing _ _ _ _ rest _ slot hr hdown hup =>
    cases rest with
    | nil =>
      cases hd
      exact hf.elim
    | cons g rest =>
      cases hd
      exact .closing slot hr (fun g hg => hdown g (List.mem_cons_of_mem _ hg)) hup

theorem Inv.servedStream (h : Inv A s) (env : RelayEnv) {f : ServerFrame} {down : List ServerFrame} {id n : ℕ} {c : Bool}
    (hrp : s.relayPhase = .streams (some id) n c) (hw : s.down.wire = f :: down) (hf : Carries id f) :
    Inv A (s.served s.takeDown env (some id) n c f) := by
  have htaken := h.carried hrp hw hf
  cases f with
  | streamData i data =>
    obtain rfl : i = id := hf
    simp only [St.served, if_true]
    split
    · exact h.relayReturns rfl
    · exact htaken
    · exact h.relayReturns rfl
  | streamHalfClosed i =>
    obtain rfl : i = id := hf
    simp only [St.served, if_true]
    exact htaken
  | _ => exact hf.elim

/-- the Relay acknowledges the close -/
theorem Inv.acknowledges (h : Inv A s) {p : Purpose} {id : ℕ} {c : Bool} {r : Outcome RelayError} {up : List ClientFrame}
    (slot : Slot p id c) (hr : r.isUnexpected = false) (hup : ∀ f ∈ up, Flows id f)
    (hsp : s.serverPhase = .draining p id r) (hd : s.down.wire = [.streamClosed id .eof]) (hu : s.up.wire = up)
    (hack : s.acknowledged.length = id - 1) :
    Inv A (s.answer (.streamClosed id .eof)
      { s.takeDown with relayPhase := .streams none (id + 1) c, acknowledged := s.acknowledged ++ [id] }) := by
  have hacks : s.acknowledged ++ [id] = List.range' 1 id := by
    rw [h.acknowledged, hack, range_succ slot.pos]
  refine h.answer (h.relayMove ?_ ?_ ?_ ⟨rfl, rfl, rfl, rfl, rfl, rfl, rfl, rfl, rfl, rfl⟩)
  · show Joint A s.discovered.publicKey s.serverPhase (.streams none (id + 1) c) s.down.wire.tail
      (s.up.wire ++ [.streamClosed id .eof]) (s.acknowledged ++ [id]).length
    rw [hsp, hd, hu, hacks, List.length_range']
    exact .closed slot hr hup
  · intro hexit q i hq hmem
    rcases List.mem_append.1 hmem with hmem | hmem
    · exact h.notice hexit q i hq hmem
    · rw [List.mem_singleton] at hmem
      cases hmem
  · show s.acknowledged ++ [id] = List.range' 1 (s.acknowledged ++ [id]).length
    rw [hacks, List.length_range']

theorem Inv.served (h : Inv A s) (env : RelayEnv) {f : ServerFrame} {down : List ServerFrame} {target : Option ℕ} {n : ℕ}
    {c : Bool} (hrp : s.relayPhase = .streams target n c) (hw : s.down.wire = f :: down) :
    Inv A (s.served s.takeDown env target n c f) := by
  have hj := h.joint
  rw [hrp, hw] at hj
  generalize hsp : s.serverPhase = sp at hj
  generalize hu : s.up.wire = up at hj
  generalize hack : s.acknowledged.length = a at hj
  generalize hd : f :: down = wire at hj
  have hnotice : (∀ p id, sp ≠ .draining p id .ok) → ∀ up' : List ClientFrame, s.serverExit = none → ∀ p id,
      s.serverPhase = .draining p id .ok → ClientFrame.streamClosed id .shutdown ∉ up' := by
    intro hne up' _ p id hp
    exact (hne p id (hsp.symm.trans hp)).elim
  cases hj with
  | opening slot =>
    cases hd
    have hle : n ≤ 2 := by cases slot <;> omega
    simp only [St.served, hle, and_self, if_true]
    split_ifs
    · refine h.answer (h.relayMove ?_ (hnotice (by simp) _) h.acknowledged ⟨rfl, rfl, rfl, rfl, rfl, rfl, rfl, rfl, rfl, rfl⟩)
      show Joint A s.discovered.publicKey s.serverPhase _ s.down.wire.tail (s.up.wire ++ [_]) s.acknowledged.length
      rw [hsp, hw, hu, hack]
      exact .opened slot (by simp)
    · exact h.relayReturns rfl
  | streaming slot hdown hup =>
    subst hd
    exact h.servedStream env hrp hw (hdown f List.mem_cons_self)
  | @closing _ _ _ _ rest _ slot hr hdown hup =>
    cases rest with
    | nil =>
      cases hd
      simp only [St.served, if_true]
      exact h.acknowledges slot hr hup hsp hw hu hack
    | cons g rest =>
      cases hd
      exact h.servedStream env hrp hw (hdown f List.mem_cons_self)
  | hostKey fp =>
    cases hd
    simp only [St.served, and_self, if_true]
    split_ifs
    · refine h.answer (h.relayMove ?_ (hnotice (by simp) _) h.acknowledged ⟨rfl, rfl, rfl, rfl, rfl, rfl, rfl, rfl, rfl, rfl⟩)
      show Joint A s.discovered.publicKey s.serverPhase _ s.down.wire.tail (s.up.wire ++ [_]) s.acknowledged.length
      rw [hsp, hw, hu, hack]
      exact .hostKeyAccepted
    · exact h.relayReturns rfl
  | activated slot =>
    cases hd
    simp only [St.served, if_true]
    refine h.relayMove ?_ (hnotice (by simp) _) h.acknowledged ⟨rfl, rfl, rfl, rfl, rfl, rfl, rfl, rfl, rfl, rfl⟩
    show Joint A s.discovered.publicKey s.serverPhase _ s.down.wire.tail s.up.wire s.acknowledged.length
    rw [hsp, hw, hu, hack]
    exact .finishing slot .create
  | _ => cases hd

theorem Inv.relayOnFrame (h : Inv A s) (env : RelayEnv) {f : ServerFrame} {down : List ServerFrame}
    (hw : s.down.wire = f :: down) : Inv A (relayOnFrame K env s s.takeDown f) := by
  have hj := h.joint
  rw [hw] at hj
  generalize hsp : s.serverPhase = sp at hj
  generalize hrp : s.relayPhase = rp at hj
  generalize hu : s.up.wire = up at hj
  generalize hack : s.acknowledged.length = a at hj
  generalize hd : f :: down = wire at hj
  have hnotice : (∀ p id, sp ≠ .draining p id .ok) → ∀ up' : List ClientFrame, s.serverExit = none → ∀ p id,
      s.serverPhase = .draining p id .ok → ClientFrame.streamClosed id .shutdown ∉ up' := by
    intro hne up' _ p id hp
    exact (hne p id (hsp.symm.trans hp)).elim
  cases hj with
  | accepted =>
    cases hd
    simp only [Enrollment.relayOnFrame, hrp]
    refine h.relayMove ?_ (hnotice (by simp) _) h.acknowledged ⟨rfl, rfl, rfl, rfl, rfl, rfl, rfl, rfl, rfl, rfl⟩
    show Joint A s.discovered.publicKey s.serverPhase _ s.down.wire.tail s.up.wire s.acknowledged.length
    rw [hsp, hw, hu, hack]
    exact .persisting .create
  | credential i n k fp =>
    cases hd
    simp only [Enrollment.relayOnFrame, hrp]
    split_ifs
    · refine h.answer (h.relayMove ?_ (hnotice (by simp) _) h.acknowledged ⟨rfl, rfl, rfl, rfl, rfl, rfl, rfl, rfl, rfl, rfl⟩)
      show Joint A s.discovered.publicKey s.serverPhase _ s.down.wire.tail (s.up.wire ++ [_]) s.acknowledged.length
      rw [hsp, hw, hu, hack]
      exact .ready
    · exact h.relayReturns rfl
  | challenge n =>
    cases hd
    simp only [Enrollment.relayOnFrame, hrp, if_true]
    split
    · refine h.answer (h.relayMove ?_ (hnotice (by simp) _) h.acknowledged ⟨rfl, rfl, rfl, rfl, rfl, rfl, rfl, rfl, rfl, rfl⟩)
      show Joint A s.discovered.publicKey s.serverPhase _ s.down.wire.tail (s.up.wire ++ [_]) s.acknowledged.length
      rw [hsp, hw, hu, hack]
      exact .signature _
    · exact h.relayReturns rfl
  | opening slot =>
    simp only [Enrollment.relayOnFrame, hrp]
    exact h.served env hrp hw
  | streaming slot hdown hup =>
    simp only [Enrollment.relayOnFrame, hrp]
    exact h.served env hrp hw
  | closing slot hr hdown hup =>
    simp only [Enrollment.relayOnFrame, hrp]
    exact h.served env hrp hw
  | hostKey fp =>
    simp only [Enrollment.relayOnFrame, hrp]
    exact h.served env hrp hw
  | activated slot =>
    simp only [Enrollment.relayOnFrame, hrp]
    exact h.served env hrp hw
  | _ => cases hd

theorem Inv.relayRecv (h : Inv A s) (env : RelayEnv) : Inv A (relayRecv K env s) := by
  unfold Enrollment.relayRecv
  split
  · exact h
  · rename_i f down hw
    split_ifs
    · exact h.relayReturns rfl
    · exact h.relayOnFrame env hw

/-- nothing has been sent before `enroll` -/
theorem Inv.atIdle (h : Inv A s) (hrp : s.relayPhase = .idle) :
    s.serverPhase = .token ∧ s.down.wire = [] ∧ s.up.wire = [] ∧ s.acknowledged.length = 0 := by
  have hj := h.joint
  rw [hrp] at hj
  generalize s.serverPhase = sp at hj ⊢
  generalize s.down.wire = down at hj ⊢
  generalize s.up.wire = up at hj ⊢
  generalize s.acknowledged.length = a at hj ⊢
  cases hj with
  | idle => exact ⟨rfl, rfl, rfl, rfl⟩

theorem Inv.enroll (h : Inv A s) (token : Text) : Inv A (enroll s token) := by
  unfold Enrollment.enroll
  split
  · rename_i hrp
    obtain ⟨hsp, hd, hu, hack⟩ := h.atIdle hrp
    split_ifs
    · exact h.relayReturns rfl
    · refine h.answer (h.relayMove ?_ ?_ h.acknowledged ⟨rfl, rfl, rfl, rfl, rfl, rfl, rfl, rfl, rfl, rfl⟩)
      · show Joint A s.discovered.publicKey s.serverPhase _ s.down.wire (s.up.wire ++ [_]) s.acknowledged.length
        rw [hsp, hd, hu, hack]
        exact .token token
      · intro _ p id hp
        cases hsp.symm.trans hp
  · exact h

/-- inside `persist` the channels are empty -/
theorem Inv.inPersist (h : Inv A s) {k : Disk.Stage} {activated : Bool} (hrp : s.relayPhase = .persisting k activated) :
    s.down.wire = [] ∧ s.up.wire = [] ∧ (∀ p id r, s.serverPhase ≠ .draining p id r) ∧
      (activated = false → s.serverPhase = .setup ∧ s.acknowledged.length = 0) ∧
      ∀ j, Joint A s.discovered.publicKey s.serverPhase (.persisting j activated) [] [] s.acknowledged.length := by
  have hj := h.joint
  rw [hrp] at hj
  generalize s.serverPhase = sp at hj ⊢
  generalize s.down.wire = down at hj ⊢
  generalize s.up.wire = up at hj ⊢
  generalize s.acknowledged.length = a at hj ⊢
  cases hj with
  | persisting => exact ⟨rfl, rfl, by simp, fun _ => ⟨rfl, rfl⟩, fun j => .persisting j⟩
  | finishing slot => exact ⟨rfl, rfl, by simp, by simp, fun j => .finishing slot j⟩

theorem Inv.relayPersist (h : Inv A s) (ok : Bool) : Inv A (relayPersist K s ok) := by
  unfold Enrollment.relayPersist
  split
  · rename_i k activated hrp
    obtain ⟨hd, hu, hdraining, hsetup, hj⟩ := h.inPersist hrp
    have hnotice : ∀ up' : List ClientFrame, s.serverExit = none → ∀ p id,
        s.serverPhase = .draining p id .ok → ClientFrame.streamClosed id .shutdown ∉ up' := by
      intro up' _ p id hp
      exact (hdraining p id .ok hp).elim
    have hdisk : Inv A { s with disk := s.disk.advance s.state k } := h.stores _ s.db
    cases ok with
    | false => exact h.relayReturns rfl
    | true =>
      simp only [Bool.not_true, Bool.false_eq_true, if_false]
      cases hnext : k.next with
      | some j =>
        refine hdisk.relayMove ?_ (hnotice _) h.acknowledged ⟨rfl, rfl, rfl, rfl, rfl, rfl, rfl, rfl, rfl, rfl⟩
        show Joint A s.discovered.publicKey s.serverPhase _ s.down.wire s.up.wire s.acknowledged.length
        rw [hd, hu]
        exact hj j
      | none =>
        cases activated with
        | true => exact hdisk.relayReturns rfl
        | false =>
          obtain ⟨hsp, hack⟩ := hsetup rfl
          simp only [Bool.false_eq_true, if_false, St.sendSetup]
          split
          · exact hdisk.relayReturns rfl
          · refine hdisk.answer (hdisk.relayMove ?_ (hnotice _) h.acknowledged
              ⟨rfl, rfl, rfl, rfl, rfl, rfl, rfl, rfl, rfl, rfl⟩)
            show Joint A s.discovered.publicKey s.serverPhase _ s.down.wire
              (s.up.wire ++ [.setup version s.state.relayId _ endpoint s.state.targetAccount]) s.acknowledged.length
            rw [hsp, hd, hu, hack, h.account]
            exact .setup _ _
  · exact h

/-- the readers of the loopback socket hand over frames of their streams -/
theorem Inv.supply (h : Inv A s) {up : Lane ClientFrame} {reader : ℕ → Bool} (hwire : up.wire = s.up.wire)
    (hqueue : ∀ f ∈ up.queue, ∃ id, Flows id f) (hhand : ∀ k f, up.hand k = some f → ∃ id, Flows id f) :
    Inv A { s with up := up, targetReader := reader } where
  joint := by
    show Joint A s.discovered.publicKey s.serverPhase s.relayPhase s.down.wire up.wire s.acknowledged.length
    rw [hwire]
    exact h.joint
  notice := by
    show s.serverExit = none → ∀ p id, s.serverPhase = .draining p id .ok → .streamClosed id .shutdown ∉ up.wire
    rw [hwire]
    exact h.notice
  upQueue := hqueue
  upHand := hhand
  downQueue := h.downQueue
  downHand := h.downHand
  account := h.account
  closed := h.closed
  acknowledged := h.acknowledged
  server := h.server
  relay := h.relay

theorem Inv.targetRead (h : Inv A s) (id : ℕ) (r : Read) : Inv A (targetRead s id r) := by
  have hhold : ∀ f, Flows id f → ∀ k g, (s.up.hold id f).hand k = some g → ∃ i, Flows i g := by
    intro f hf k g hg
    by_cases hk : k = id
    · subst hk
      rw [show (s.up.hold k f).hand k = some f from Function.update_self ..] at hg
      cases hg
      exact ⟨k, hf⟩
    · rw [show (s.up.hold id f).hand k = s.up.hand k from Function.update_of_ne hk ..] at hg
      exact h.upHand k g hg
  unfold Enrollment.targetRead
  split_ifs
  · split
    · exact h.supply rfl h.upQueue (hhold _ ⟨rfl, rfl⟩)
    · split_ifs
      · exact h.supply rfl h.upQueue (hhold _ rfl)
      · exact h.supply rfl h.upQueue (hhold _ rfl)
  · exact h

theorem Inv.targetEnqueue (h : Inv A s) (id : ℕ) : Inv A { s with up := s.up.enqueue provisionalCapacity id } := by
  refine h.supply (Lane.enqueue_wire ..) ?_ ?_
  · unfold Lane.enqueue
    split
    · exact h.upQueue
    · rename_i f hf
      split_ifs
      · intro g hg
        rcases List.mem_append.1 hg with hg | hg
        · exact h.upQueue g hg
        · obtain rfl := List.mem_singleton.1 hg
          exact h.upHand id _ hf
      · exact h.upQueue
  · intro k g hg
    unfold Lane.enqueue at hg
    split at hg
    · exact h.upHand k g hg
    · split_ifs at hg
      · by_cases hk : k = id
        · dsimp only at hg
          rw [hk, Function.update_self] at hg
          cases hg
        · dsimp only at hg
          rw [Function.update_of_ne hk] at hg
          exact h.upHand k g hg
      · exact h.upHand k g hg

/-- the streams of the Relay's frames -/
theorem Flows.stream {id : ℕ} {f : ClientFrame} (h : Flows id f) : f.stream = some id := by
  cases f with
  | streamData i data =>
    obtain rfl : i = id := h
    rfl
  | streamHalfClosed i =>
    obtain rfl : i = id := h
    rfl
  | streamClosed i r =>
    obtain rfl : i = id := h.1
    rfl
  | _ => exact h.elim

/-- a frame of the target joins the frames on the channel -/
theorem Inv.forwards (h : Inv A s) {id n : ℕ} {c : Bool} (hrp : s.relayPhase = .streams (some id) n c) {f : ClientFrame}
    (hf : Flows id f) : Joint A s.discovered.publicKey s.serverPhase s.relayPhase s.down.wire (s.up.wire ++ [f])
      s.acknowledged.length := by
  have hall : ∀ up : List ClientFrame, (∀ g ∈ up, Flows id g) → ∀ g ∈ up ++ [f], Flows id g := by
    intro up hup g hg
    rcases List.mem_append.1 hg with hg | hg
    · exact hup g hg
    · rw [List.mem_singleton.1 hg]
      exact hf
  have hj := h.joint
  rw [hrp] at hj ⊢
  generalize s.serverPhase = sp at hj ⊢
  generalize s.down.wire = down at hj ⊢
  generalize s.up.wire = up at hj ⊢
  generalize s.acknowledged.length = a at hj ⊢
  cases hj with
  | opened slot hup => exact .opened slot (hall _ hup)
  | streaming slot hdown hup => exact .streaming slot hdown (hall _ hup)
  | closing slot hr hdown hup => exact .closing slot hr hdown (hall _ hup)

/-- while the Server waits for the acknowledgement of `i`, the target is that stream or none -/
theorem Inv.drainingTarget (h : Inv A s) {p : Purpose} {i id n : ℕ} {r : Outcome RelayError} {c : Bool}
    (hsp : s.serverPhase = .draining p i r) (hrp : s.relayPhase = .streams (some id) n c) : i = id := by
  have hj := h.joint
  rw [hsp, hrp] at hj
  generalize s.down.wire = down at hj
  generalize s.up.wire = up at hj
  generalize s.acknowledged.length = a at hj
  cases hj with
  | closing => rfl

theorem Inv.relaySend (h : Inv A s) (hlive : s.relayExit = none) (hok : Uncrossed s .relaySend) : Inv A (relaySend s) := by
  unfold Enrollment.relaySend
  split
  · rename_i target n c f queue hrp hqueue
    have hrest : ∀ g ∈ queue, ∃ id, Flows id g := by
      intro g hg
      refine h.upQueue g ?_
      rw [hqueue]
      exact List.mem_cons_of_mem _ hg
    split_ifs with htarget
    · obtain ⟨id, hid⟩ := Option.isSome_iff_exists.1 htarget.1
      obtain ⟨i, hf⟩ := h.upQueue f (by rw [hqueue]; exact List.mem_cons_self)
      obtain rfl : i = id := by
        have := htarget.2
        rw [hf.stream, hid] at this
        exact Option.some.inj this
      rw [hid] at hrp
      have hdropped : Inv A { s with up := { s.up with queue := queue } } := h.supply rfl hrest h.upHand
      refine h.answer (hdropped.relayMove (h.forwards hrp hf) ?_ h.acknowledged ⟨rfl, rfl, rfl, rfl, rfl, rfl, rfl, rfl, rfl, rfl⟩)
      intro hexit p j hp hmem
      rcases List.mem_append.1 hmem with hmem | hmem
      · exact h.notice hexit p j hp hmem
      · obtain rfl := List.mem_singleton.1 hmem
        obtain rfl := h.drainingTarget hp hrp
        exact hok.relaySend hexit hlive hp hrp hqueue
    · exact h.supply rfl hrest h.upHand
  · exact h

/-! ## Steps and runs -/

/-- the channels are reliable -/
def Op.reliable : Op → Bool
  | .loseUp _ => false
  | .loseDown _ => false
  | _ => true

theorem onServer_inv (h : Inv A s) {s' : St} (h' : s.serverExit = none → Inv A s') : Inv A (onServer s s') := by
  unfold onServer
  cases hexit : s.serverExit with
  | none => exact h' hexit
  | some o => exact h

theorem onRelay_inv (h : Inv A s) {s' : St} (h' : s.relayExit = none → Inv A s') : Inv A (onRelay s s') := by
  unfold onRelay
  cases hexit : s.relayExit with
  | none => exact h' hexit
  | some o => exact h

/-- **One step** keeps the dialogue in step, unless a frame is lost or a notice crosses the close. -/
theorem step_inv (h : Inv A s) (o : Op) (hreliable : o.reliable = true) (hok : Uncrossed s o) :
    Inv A (step K isEd25519 A s o) := by
  cases o with
  | enroll token => exact onRelay_inv h fun _ => h.enroll token
  | relayRecv env => exact onRelay_inv h fun _ => h.relayRecv env
  | relayPersist ok => exact onRelay_inv h fun _ => h.relayPersist ok
  | targetRead id r => exact onRelay_inv h fun _ => h.targetRead id r
  | targetEnqueue id => exact onRelay_inv h fun _ => h.targetEnqueue id
  | relaySend => exact onRelay_inv h fun hlive => h.relaySend hlive hok
  | relayStop e => exact onRelay_inv h fun _ => h.relayReturns rfl
  | relayCrash c => exact (onRelay_inv h fun _ => h.relayReturns rfl).stores _ _
  | serverRecv env => exact onServer_inv h fun hlive => h.serverRecv hlive env
  | pipeRead b => exact onServer_inv h fun _ => h.pipeRead b
  | pipeEnqueue => exact onServer_inv h fun _ => h.pipeEnqueue
  | serverSend => exact onServer_inv h fun _ => h.serverSend
  | operationDone result => exact onServer_inv h fun hlive => h.operationDone hlive hok
  | activate c => exact onServer_inv h fun _ => h.activateStep c
  | serverStop e => exact onServer_inv h fun _ => h.serverReturns rfl
  | elsewhere e => exact h.stores _ _
  | loseUp i => cases hreliable
  | loseDown i => cases hreliable
  | enrollAgain d m r recorded =>
    unfold step
    dsimp only
    split_ifs
    · unfold Enrollment.enrollAgain
      split
      · exact h
      · rename_i state hload
        cases hr : state.routeRevision.isSome with
        | true =>
          rw [if_pos rfl]
          exact h
        | false =>
          rw [if_neg Bool.false_ne_true]
          exact h.stores _ _
    · exact h
  | reset relayId secretKey =>
    unfold step
    dsimp only
    split_ifs
    · unfold Enrollment.reset
      split
      · exact h
      · exact h.stores _ _
    · exact h

/-- **Every run** of reliable channels without a crossing keeps it. -/
theorem run_inv (state : RelayState) (db : Db) (haccount : state.targetAccount = A.targetAccount) (ops : List Op)
    (hreliable : ∀ o ∈ ops, o.reliable = true) (hok : Machine.Along (step K isEd25519 A) Uncrossed (init state db) ops) :
    Inv A (run K isEd25519 A (init state db) ops) := by
  have hboth : Machine.Along (step K isEd25519 A) (fun s o => o.reliable = true ∧ Uncrossed s o) (init state db) ops := by
    rw [Machine.along_iff] at hok ⊢
    intro pre o post hops
    refine ⟨hreliable o ?_, hok pre o post hops⟩
    rw [hops]
    exact List.mem_append_right _ List.mem_cons_self
  refine Machine.run_inv_along ?_ _ ops hboth (inv_init state db haccount)
  intro s o ho hs
  exact step_inv hs o ho.1 ho.2

/-- a side has received a frame of a kind or a stream it did not wait for -/
def St.surprised (s : St) : Prop :=
  (∃ e, s.serverExit = some (.unexpected e)) ∨ (∃ e, s.relayExit = some (.unexpected e)) ∨
    ∃ p id e, s.serverPhase = .draining p id (.unexpected e)

theorem Inv.not_surprised (h : Inv A s) : ¬ s.surprised := by
  intro hs
  rcases hs with ⟨e, he⟩ | ⟨e, he⟩ | ⟨p, id, e, he⟩
  · cases h.server _ he
  · cases h.relay _ he
  · have hj := h.joint
    rw [he] at hj
    generalize s.relayPhase = rp at hj
    generalize s.down.wire = down at hj
    generalize s.up.wire = up at hj
    generalize s.acknowledged.length = a at hj
    cases hj with
    | closing slot hr => cases hr
    | closed slot hr => cases hr

/-- the streams the Server has gone on from are acknowledged, and nothing of them is on the channel -/
theorem Inv.completed_le (h : Inv A s) :
    completed s.serverPhase ≤ s.acknowledged.length ∧ completed s.serverPhase ≤ lastClosed s.serverPhase ∧
      ∀ f ∈ s.up.wire, ∀ i, f.stream = some i → completed s.serverPhase < i := by
  have hj := h.joint
  generalize s.serverPhase = sp at hj ⊢
  generalize s.relayPhase = rp at hj
  generalize s.down.wire = down at hj
  generalize s.up.wire = up at hj ⊢
  generalize s.acknowledged.length = a at hj ⊢
  have hflows : ∀ {id : ℕ} {up : List ClientFrame}, 1 ≤ id → (∀ f ∈ up, Flows id f) → ∀ f ∈ up, ∀ i, f.stream = some i →
      id - 1 < i := by
    intro id up hpos hup f hf i hi
    rw [(hup f hf).stream] at hi
    cases hi
    omega
  cases hj with
  | opened slot hup =>
    refine ⟨le_rfl, le_rfl, fun f hf i hi => ?_⟩
    rcases List.mem_cons.1 hf with rfl | hf
    · cases hi
      exact Nat.sub_lt slot.pos Nat.one_pos
    · exact hflows slot.pos hup f hf i hi
  | streaming slot hdown hup => exact ⟨le_rfl, le_rfl, hflows slot.pos hup⟩
  | closing slot hr hdown hup => exact ⟨le_rfl, Nat.sub_le _ _, hflows slot.pos hup⟩
  | closed slot hr hup =>
    refine ⟨Nat.sub_le _ _, Nat.sub_le _ _, fun f hf i hi => ?_⟩
    rcases List.mem_append.1 hf with hf | hf
    · exact hflows slot.pos hup f hf i hi
    · rw [List.mem_singleton.1 hf] at hi
      cases hi
      exact Nat.sub_lt slot.pos Nat.one_pos
  | _ => exact ⟨by simp [completed, lastClosed], le_rfl, by simp [ClientFrame.stream]⟩

theorem count_range' (n id : ℕ) : (List.range' 1 n).count id = if 1 ≤ id ∧ id ≤ n then 1 else 0 := by
  split_ifs with h
  · refine List.count_eq_one_of_mem List.nodup_range' ?_
    rw [List.mem_range'_1]
    omega
  · refine List.count_eq_zero_of_not_mem fun hmem => h ?_
    rw [List.mem_range'_1] at hmem
    omega

/-- **Lockstep.** In every run over reliable channels in which the account is the Machine's and no notice of the Relay crosses the
Server's close, no side is surprised; every stream is closed and acknowledged at most once, and exactly once before the Server
goes on, with nothing of it left on the channel. -/
theorem enrollment_lockstep (K : Keys) (isEd25519 : Text → Bool) (A : AcceptedEnrollment) (state : RelayState) (db : Db)
    (haccount : state.targetAccount = A.targetAccount) (ops : List Op) (hreliable : ∀ o ∈ ops, o.reliable = true)
    (hok : Machine.Along (step K isEd25519 A) Uncrossed (init state db) ops) :
    let s := run K isEd25519 A (init state db) ops
    ¬ s.surprised ∧ (∀ id, s.closed.count id ≤ 1 ∧ s.acknowledged.count id ≤ 1) ∧
      ∀ id, 1 ≤ id → id ≤ completed s.serverPhase →
        s.closed.count id = 1 ∧ s.acknowledged.count id = 1 ∧ ∀ f ∈ s.up.wire, f.stream ≠ some id := by
  intro s
  have h : Inv A s := run_inv state db haccount ops hreliable hok
  obtain ⟨hack, hclosed, hwire⟩ := h.completed_le
  have hcount : ∀ id, s.closed.count id = (if 1 ≤ id ∧ id ≤ lastClosed s.serverPhase then 1 else 0) ∧
      s.acknowledged.count id = if 1 ≤ id ∧ id ≤ s.acknowledged.length then 1 else 0 := by
    intro id
    rw [h.closed, count_range']
    refine ⟨rfl, ?_⟩
    conv_lhs => rw [h.acknowledged]
    exact count_range' _ id
  refine ⟨h.not_surprised, fun id => ?_, fun id h1 h2 => ⟨?_, ?_, fun f hf hi => ?_⟩⟩
  · rw [(hcount id).1, (hcount id).2]
    constructor
    · split_ifs <;> omega
    · split_ifs <;> omega
  · rw [(hcount id).1, if_pos ⟨h1, by omega⟩]
  · rw [(hcount id).2, if_pos ⟨h1, by omega⟩]
  · have := hwire f hf id hi
    omega

/-! ## A dialogue, and a crossing -/

/-- a Machine without a host pin -/
def newMachine : AcceptedEnrollment :=
  { deploymentId := 1, machineId := 2, attemptId := 3, routeRevision := 1, targetAccount := "owlmux".toList, hostIdentity := none }

/-- the state file before enrollment -/
def freshState : RelayState :=
  { protocol := 1, relayId := 4, secretKey := Base64Url.encode (List.replicate 32 7), targetAccount := "owlmux".toList,
    deploymentId := none, machineId := none, routeRevision := none }

def newRows : Db :=
  { serving := true, attempt := ⟨true, true, true, 1⟩, machine := ⟨.verifying, 1, none, true⟩, bindings := [] }

/-- a signature scheme with one signature -/
def plainKeys : Keys :=
  { verifyingKey := id, sign := fun _ _ => List.replicate 64 0, isKey := fun _ => true, verify := fun _ b _ => b == List.replicate 64 0 }

def serverEnv : ServerEnv := ⟨true, some (5, "key".toList, [], []), List.replicate 32 9, .all, false⟩

def relayEnv : RelayEnv := ⟨true, .all, false, true⟩

def foundKey : HostKey := ⟨"ssh-ed25519 AAAA".toList, "SHA256:x".toList⟩

/-- up to the select loop of the discovery stream -/
def handshakeOps : List Op :=
  [.enroll "token".toList, .serverRecv serverEnv, .relayRecv relayEnv, .relayPersist true, .relayPersist true,
    .relayPersist true, .relayPersist true, .serverRecv serverEnv, .relayRecv relayEnv, .serverRecv serverEnv,
    .relayRecv relayEnv, .serverRecv serverEnv, .relayRecv relayEnv, .serverRecv serverEnv]

/-- data, the discovered key, its confirmation, and the proof stream -/
def dialogueOps : List Op :=
  handshakeOps ++ [.targetRead 1 (.bytes [83]), .targetEnqueue 1, .relaySend, .serverRecv serverEnv,
    .operationDone (some foundKey), .relayRecv relayEnv, .serverRecv serverEnv, .relayRecv relayEnv, .serverRecv serverEnv,
    .relayRecv relayEnv, .serverRecv serverEnv, .operationDone (some foundKey), .relayRecv relayEnv, .serverRecv serverEnv]

theorem enrollment_lockstep_dialogue :
    completed (run plainKeys (fun _ => true) newMachine (init freshState newRows) dialogueOps).serverPhase = 2 ∧
      ¬ (run plainKeys (fun _ => true) newMachine (init freshState newRows) dialogueOps).surprised ∧
      (run plainKeys (fun _ => true) newMachine (init freshState newRows) dialogueOps).acknowledged.count 1 = 1 := by
  have hdone : completed (run plainKeys (fun _ => true) newMachine (init freshState newRows) dialogueOps).serverPhase = 2 := by
    decide +kernel
  obtain ⟨h1, -, h2⟩ := enrollment_lockstep plainKeys (fun _ => true) newMachine freshState newRows rfl dialogueOps
    (by decide +kernel) (by decide +kernel)
  exact ⟨hdone, h1, (h2 1 (by decide) (by rw [hdone]; decide)).2.1⟩

/-- the read of the loopback socket fails while the operation finishes: the Server takes the notice for the acknowledgement of its
close, and the acknowledgement for an answer to its host key -/
def crossingOps : List Op :=
  handshakeOps ++ [.targetRead 1 .failed, .targetEnqueue 1, .relaySend, .operationDone (some foundKey), .serverRecv serverEnv,
    .relayRecv relayEnv, .serverRecv serverEnv]

/-- the account is another one: the Server answers the setup with an Error frame, where the Relay waits for the credential -/
def refusedOps : List Op := handshakeOps.take 9

/-- both runs surprise a side -/
theorem notice_crosses :
    (∀ o ∈ crossingOps, o.reliable = true) ∧ freshState.targetAccount = newMachine.targetAccount ∧
      (run plainKeys (fun _ => true) newMachine (init freshState newRows) crossingOps).serverExit =
        some (.unexpected .invalidState) ∧
      (∀ o ∈ refusedOps, o.reliable = true) ∧
      (run plainKeys (fun _ => true) newMachine (init { freshState with targetAccount := "other".toList } newRows)
        refusedOps).relayExit = some (.unexpected .protocol) := by
  decide +kernel

end OwlMux.Enrollment
