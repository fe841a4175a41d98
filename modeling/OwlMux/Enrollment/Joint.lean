/-
The enrollment dialogue: which phases of the two sides occur together, and what the channels hold then.

One frame type is both notice and acknowledgement: when a read of the loopback socket fails, the Relay sends StreamClosed of its
own, and the Server's second loop takes the first StreamClosed of the stream for the answer to its own. `crosses` is the step in
which the two cross.

Results:
- `Joint`: the two phases and what the channels hold, for every pair of phases that occurs; `Inv`: with the frames that wait
  behind the channels;
- `Inv.serverRecv`, `Inv.operationDone` and the others: the steps of the Server keep it. Those of the Relay are in
  `Lockstep.lean`.
-/
import Mathlib.Tactic
import OwlMux.Enrollment.Dialogue

namespace OwlMux.Enrollment

open OwlMux.Relay

/-! ## What the channels hold -/

/-- a frame the target reader of a stream makes -/
def Flows (id : ℕ) : ClientFrame → Prop
  | .streamData i _ => i = id
  | .streamHalfClosed i => i = id
  | .streamClosed i r => i = id ∧ r = .shutdown
  | _ => False

/-- a frame `relay_reader` of a stream makes -/
def Carries (id : ℕ) : ServerFrame → Prop
  | .streamData i _ => i = id
  | .streamHalfClosed i => i = id
  | _ => False

/-- the streams of a dialogue: which operation, and whether the host key has been confirmed before it -/
inductive Slot : Purpose → ℕ → Bool → Prop where
  | discover : Slot .discover 1 false
  | pinned : Slot .verify 1 false
  | confirmed : Slot .verify 2 true

def Outcome.isUnexpected {ε : Type} : Outcome ε → Bool
  | .unexpected _ => true
  | _ => false

/-- the phases that occur together, with the frames on the channels and the number of acknowledged streams -/
inductive Joint (A : AcceptedEnrollment) (key : Text) :
    ServerPhase → RelayPhase → List ServerFrame → List ClientFrame → ℕ → Prop where
  | idle : Joint A key .token .idle [] [] 0
  | token (t : Text) : Joint A key .token .accepted [] [.token t] 0
  | accepted :
      Joint A key .setup .accepted [.accepted A.deploymentId A.machineId A.attemptId A.routeRevision] [] 0
  | persisting (k : Disk.Stage) : Joint A key .setup (.persisting k false) [] [] 0
  | setup (r : Uuid) (p : Text) : Joint A key .setup .credential [] [.setup version r p endpoint A.targetAccount] 0
  | credential (i : Uuid) (n k f : Text) : Joint A key .ready .credential [.credential i n k f] [] 0
  | ready : Joint A key .ready .challenge [] [.ready] 0
  | challenge (n : Text) : Joint A key .signature .challenge [.challenge .enrollment n] [] 0
  | signature (t : Text) : Joint A key .signature (.streams none 1 false) [] [.signature t] 0
  | opening {p : Purpose} {id : ℕ} {c : Bool} (slot : Slot p id c) :
      Joint A key (.opening p id) (.streams none id c) [.openStream id] [] (id - 1)
  | opened {p : Purpose} {id : ℕ} {c : Bool} {up : List ClientFrame} (slot : Slot p id c) (hup : ∀ f ∈ up, Flows id f) :
      Joint A key (.opening p id) (.streams (some id) (id + 1) c) [] (.streamOpened id :: up) (id - 1)
  | streaming {p : Purpose} {id : ℕ} {c : Bool} {down : List ServerFrame} {up : List ClientFrame} (slot : Slot p id c)
      (hdown : ∀ f ∈ down, Carries id f) (hup : ∀ f ∈ up, Flows id f) :
      Joint A key (.streaming p id) (.streams (some id) (id + 1) c) down up (id - 1)
  | closing {p : Purpose} {id : ℕ} {c : Bool} {r : Outcome RelayError} {down : List ServerFrame} {up : List ClientFrame}
      (slot : Slot p id c) (hr : r.isUnexpected = false) (hdown : ∀ f ∈ down, Carries id f) (hup : ∀ f ∈ up, Flows id f) :
      Joint A key (.draining p id r) (.streams (some id) (id + 1) c) (down ++ [.streamClosed id .eof]) up (id - 1)
  | closed {p : Purpose} {id : ℕ} {c : Bool} {r : Outcome RelayError} {up : List ClientFrame} (slot : Slot p id c)
      (hr : r.isUnexpected = false) (hup : ∀ f ∈ up, Flows id f) :
      Joint A key (.draining p id r) (.streams none (id + 1) c) [] (up ++ [.streamClosed id .eof]) id
  | hostKey (fingerprint : Text) : Joint A key .hostKey (.streams none 2 false) [.hostKey key fingerprint] [] 1
  | hostKeyAccepted : Joint A key .hostKey (.streams none 2 true) [] [.hostKeyAccepted key] 1
  | activating {id : ℕ} {c : Bool} (slot : Slot .verify id c) :
      Joint A key (.activating id) (.streams none (id + 1) c) [] [] id
  | activated {id : ℕ} {c : Bool} (slot : Slot .verify id c) :
      Joint A key (.finishing id) (.streams none (id + 1) c) [.activated A.routeRevision] [] id
  | finishing {id : ℕ} {c : Bool} (slot : Slot .verify id c) (k : Disk.Stage) :
      Joint A key (.finishing id) (.persisting k true) [] [] id

/-- the streams the Server has closed are 1 up to this one -/
def lastClosed : ServerPhase → ℕ
  | .opening _ id => id - 1
  | .streaming _ id => id - 1
  | .draining _ id _ => id
  | .hostKey => 1
  | .activating id => id
  | .finishing id => id
  | _ => 0

/-- the streams the Server has gone on from are 1 up to this one -/
def completed : ServerPhase → ℕ
  | .draining _ id _ => id - 1
  | p => lastClosed p

structure Inv (A : AcceptedEnrollment) (s : St) : Prop where
  joint : Joint A s.discovered.publicKey s.serverPhase s.relayPhase s.down.wire s.up.wire s.acknowledged.length
  /-- no notice waits in front of the acknowledgement of a stream the Server closes after success -/
  notice : s.serverExit = none → ∀ p id, s.serverPhase = .draining p id .ok → .streamClosed id .shutdown ∉ s.up.wire
  upQueue : ∀ f ∈ s.up.queue, ∃ id, Flows id f
  upHand : ∀ k f, s.up.hand k = some f → ∃ id, Flows id f
  downQueue : ∀ f ∈ s.down.queue, ∃ p id, s.serverPhase = .streaming p id ∧ Carries id f
  downHand : ∀ k f, s.down.hand k = some f → ∃ p id, s.serverPhase = .streaming p id ∧ Carries id f
  account : s.state.targetAccount = A.targetAccount
  closed : s.closed = List.range' 1 (lastClosed s.serverPhase)
  acknowledged : s.acknowledged = List.range' 1 s.acknowledged.length
  server : ∀ o, s.serverExit = some o → o.isUnexpected = false
  relay : ∀ o, s.relayExit = some o → o.isUnexpected = false

variable {K : Keys} {isEd25519 : Text → Bool} {A : AcceptedEnrollment} {s : St}

theorem inv_init (state : RelayState) (db : Db) (haccount : state.targetAccount = A.targetAccount) : Inv A (init state db) where
  joint := .idle
  notice := fun _ p id hp => by cases hp
  upQueue := fun f hf => by cases hf
  upHand := fun k f hf => by cases hf
  downQueue := fun f hf => by cases hf
  downHand := fun k f hf => by cases hf
  account := haccount
  closed := rfl
  acknowledged := rfl
  server := fun o ho => by cases ho
  relay := fun o ho => by cases ho

/-! ## A party returns -/

theorem Inv.serverReturns (h : Inv A s) {o : Outcome RelayError} (ho : o.isUnexpected = false) : Inv A (s.serverReturns o) where
  joint := h.joint
  notice := fun hexit => by cases hexit
  upQueue := h.upQueue
  upHand := h.upHand
  downQueue := h.downQueue
  downHand := h.downHand
  account := h.account
  closed := h.closed
  acknowledged := h.acknowledged
  server := fun o' ho' => by
    cases ho'
    exact ho
  relay := h.relay

theorem Inv.relayReturns (h : Inv A s) {o : Outcome ClientError} (ho : o.isUnexpected = false) : Inv A (s.relayReturns o) where
  joint := h.joint
  notice := h.notice
  upQueue := h.upQueue
  upHand := h.upHand
  downQueue := h.downQueue
  downHand := h.downHand
  account := h.account
  closed := h.closed
  acknowledged := h.acknowledged
  server := h.server
  relay := fun o' ho' => by
    cases ho'
    exact ho

/-- the file and the rows are no part of the dialogue -/
theorem Inv.stores (h : Inv A s) (disk : Disk RelayState) (db : Db) : Inv A { s with disk := disk, db := db } where
  joint := h.joint
  notice := h.notice
  upQueue := h.upQueue
  upHand := h.upHand
  downQueue := h.downQueue
  downHand := h.downHand
  account := h.account
  closed := h.closed
  acknowledged := h.acknowledged
  server := h.server
  relay := h.relay

/-! ## The Server receives -/

theorem Slot.pos {p : Purpose} {id : ℕ} {c : Bool} (h : Slot p id c) : 1 ≤ id := by cases h <;> omega

theorem range_succ {id : ℕ} (hpos : 1 ≤ id) : List.range' 1 (id - 1) ++ [id] = List.range' 1 id := by
  obtain ⟨n, rfl⟩ : ∃ n, id = n + 1 := ⟨id - 1, by omega⟩
  rw [List.range'_1_concat, Nat.add_comm 1 n]
  rfl

/-- what a step that changes phases and channels has to show -/
theorem Inv.move (h : Inv A s) {s' : St}
    (joint : Joint A s'.discovered.publicKey s'.serverPhase s'.relayPhase s'.down.wire s'.up.wire s'.acknowledged.length)
    (notice : s'.serverExit = none → ∀ p id, s'.serverPhase = .draining p id .ok → .streamClosed id .shutdown ∉ s'.up.wire)
    (closed : s'.closed = List.range' 1 (lastClosed s'.serverPhase))
    (acknowledged : s'.acknowledged = List.range' 1 s'.acknowledged.length)
    (downQueue : ∀ f ∈ s'.down.queue, ∃ p id, s'.serverPhase = .streaming p id ∧ Carries id f)
    (downHand : ∀ k f, s'.down.hand k = some f → ∃ p id, s'.serverPhase = .streaming p id ∧ Carries id f)
    (upQueue : s'.up.queue = s.up.queue) (upHand : s'.up.hand = s.up.hand)
    (account : s'.state.targetAccount = s.state.targetAccount) (server : s'.serverExit = s.serverExit)
    (relay : s'.relayExit = s.relayExit) : Inv A s' where
  joint := joint
  notice := notice
  upQueue := by
    rw [upQueue]
    exact h.upQueue
  upHand := by
    rw [upHand]
    exact h.upHand
  downQueue := downQueue
  downHand := downHand
  account := account.trans h.account
  closed := closed
  acknowledged := acknowledged
  server := by
    rw [server]
    exact h.server
  relay := by
    rw [relay]
    exact h.relay

/-- nothing waits behind the Server's channel outside the select loop -/
theorem Inv.quiet (h : Inv A s) (hp : ∀ p id, s.serverPhase ≠ .streaming p id) :
    s.down.queue = [] ∧ ∀ k, s.down.hand k = none := by
  constructor
  · refine List.eq_nil_iff_forall_not_mem.2 fun f hf => ?_
    obtain ⟨p, id, hphase, -⟩ := h.downQueue f hf
    exact hp p id hphase
  · intro k
    cases hk : s.down.hand k with
    | none => rfl
    | some f =>
      obtain ⟨p, id, hphase, -⟩ := h.downHand k f hk
      exact (hp p id hphase).elim

/-- a wait of the Server outside the streams ends with the next one -/
theorem Inv.serverMove (h : Inv A s) (hp : ∀ p id, s.serverPhase ≠ .streaming p id) {s' : St}
    (joint : Joint A s'.discovered.publicKey s'.serverPhase s.relayPhase s'.down.wire s'.up.wire s.acknowledged.length)
    (notice : ∀ p id, s'.serverPhase ≠ .draining p id .ok)
    (closed : lastClosed s'.serverPhase = lastClosed s.serverPhase)
    (hsame : s'.closed = s.closed ∧ s'.acknowledged = s.acknowledged ∧ s'.down.queue = s.down.queue ∧
      s'.down.hand = s.down.hand ∧ s'.up.queue = s.up.queue ∧ s'.up.hand = s.up.hand ∧ s'.state = s.state ∧
      s'.serverExit = s.serverExit ∧ s'.relayExit = s.relayExit ∧ s'.relayPhase = s.relayPhase) : Inv A s' := by
  obtain ⟨e1, e2, e3, e4, e5, e6, e7, e8, e9, e10⟩ := hsame
  obtain ⟨hq, hh⟩ := h.quiet hp
  refine h.move ?_ (fun _ p id hd => (notice p id hd).elim) ?_ ?_ ?_ ?_ e5 e6 (by rw [e7]) e8 e9
  · rw [e10, e2]
    exact joint
  · rw [e1, closed]
    exact h.closed
  · rw [e2]
    exact h.acknowledged
  · rw [e3, hq]
    intro f hf
    cases hf
  · rw [e4]
    intro k f hf
    rw [hh] at hf
    cases hf

/-- a frame of the stream, in the select loop -/
theorem Inv.streamed (h : Inv A s) (env : ServerEnv) {p : Purpose} {id : ℕ} {f : ClientFrame} {up : List ClientFrame}
    (hsp : s.serverPhase = .streaming p id) (hw : s.up.wire = f :: up) (hf : Flows id f) :
    Inv A (s.streamed s.takeUp env p id f) := by
  have htaken : Inv A s.takeUp := by
    refine h.move ?_ ?_ h.closed h.acknowledged h.downQueue h.downHand rfl rfl rfl rfl rfl
    · have hj := h.joint
      rw [hw, hsp] at hj
      show Joint A s.discovered.publicKey s.serverPhase s.relayPhase s.down.wire s.up.wire.tail s.acknowledged.length
      rw [hw, hsp, List.tail_cons]
      generalize s.relayPhase = rp at hj ⊢
      generalize s.acknowledged.length = a at hj ⊢
      cases hj with
      | streaming slot hdown hup => exact .streaming slot hdown fun g hg => hup g (List.mem_cons_of_mem _ hg)
    · intro _ q i hd
      cases hsp.symm.trans hd
  cases f with
  | streamData i data =>
    obtain rfl : i = id := hf
    simp only [St.streamed, if_true]
    split
    · exact h.serverReturns rfl
    · exact htaken
    · exact h.serverReturns rfl
  | streamHalfClosed i =>
    obtain rfl : i = id := hf
    simp only [St.streamed, if_true]
    split_ifs
    · exact htaken
    · exact h.serverReturns rfl
  | streamClosed i r =>
    obtain rfl : i = id := hf.1
    simp only [St.streamed, if_true]
    split_ifs
    · exact htaken
    · exact h.serverReturns rfl
  | _ => exact hf.elim

/-- the Server leaves the second loop with the acknowledgement in hand -/
theorem Inv.drained (h : Inv A s) {p : Purpose} {id : ℕ} {c : Bool} {r : Outcome RelayError} {a : CloseReason}
    (slot : Slot p id c) (hr : r.isUnexpected = false) (hsp : s.serverPhase = .draining p id r)
    (hrp : s.relayPhase = .streams none (id + 1) c) (hdown : s.down.wire = []) (hw : s.up.wire = [.streamClosed id a])
    (hack : s.acknowledged.length = id) :
    Inv A (s.drains s.takeUp p id r (.streamClosed id a)) := by
  have hno : ∀ q i, s.serverPhase ≠ .streaming q i := by
    intro q i hq
    rw [hsp] at hq
    cases hq
  simp only [St.drains, if_true]
  cases r with
  | ok =>
    cases slot with
    | discover =>
      refine h.serverMove hno ?_ (fun q i hq => by cases hq) (by rw [hsp]; rfl) ⟨rfl, rfl, rfl, rfl, rfl, rfl, rfl, rfl, rfl, rfl⟩
      show Joint A s.discovered.publicKey .hostKey s.relayPhase (s.down.wire ++ [_]) s.up.wire.tail _
      rw [hrp, hdown, hw, hack]
      exact .hostKey _
    | pinned =>
      refine h.serverMove hno ?_ (fun q i hq => by cases hq) (by rw [hsp]; rfl) ⟨rfl, rfl, rfl, rfl, rfl, rfl, rfl, rfl, rfl, rfl⟩
      show Joint A s.discovered.publicKey (.activating 1) s.relayPhase s.down.wire s.up.wire.tail _
      rw [hrp, hdown, hw, hack]
      exact .activating .pinned
    | confirmed =>
      refine h.serverMove hno ?_ (fun q i hq => by cases hq) (by rw [hsp]; rfl) ⟨rfl, rfl, rfl, rfl, rfl, rfl, rfl, rfl, rfl, rfl⟩
      show Joint A s.discovered.publicKey (.activating 2) s.relayPhase s.down.wire s.up.wire.tail _
      rw [hrp, hdown, hw, hack]
      exact .activating .confirmed
  | failed e => exact h.serverReturns rfl
  | unexpected e => cases hr

/-- what is left of the stream is dropped; a notice is not there when the Server goes on behind it -/
theorem Inv.dropped (h : Inv A s) (hlive : s.serverExit = none) {p : Purpose} {id : ℕ} {r : Outcome RelayError}
    {f : ClientFrame} {up : List ClientFrame} (hsp : s.serverPhase = .draining p id r) (hw : s.up.wire = f :: up)
    (hf : Flows id f) (hr : r.isUnexpected = false)
    (hj : Joint A s.discovered.publicKey (.draining p id r) s.relayPhase s.down.wire up s.acknowledged.length) :
    Inv A (s.drains s.takeUp p id r f) := by
  have htaken : Inv A s.takeUp := by
    refine h.move ?_ ?_ h.closed h.acknowledged h.downQueue h.downHand rfl rfl rfl rfl rfl
    · show Joint A s.discovered.publicKey s.serverPhase s.relayPhase s.down.wire s.up.wire.tail s.acknowledged.length
      rw [hw, hsp]
      exact hj
    · intro hexit q i hd
      exact fun hmem => h.notice hexit q i hd (List.mem_of_mem_tail hmem)
  cases f with
  | streamData i data =>
    obtain rfl : i = id := hf
    simp only [St.drains, if_true]
    exact htaken
  | streamHalfClosed i =>
    obtain rfl : i = id := hf
    simp only [St.drains, if_true]
    exact htaken
  | streamClosed i reason =>
    obtain ⟨rfl, rfl⟩ : i = id ∧ reason = .shutdown := hf
    simp only [St.drains, if_true]
    cases r with
    | ok =>
      refine (h.notice hlive p i hsp ?_).elim
      rw [hw]
      exact List.mem_cons_self
    | failed e => exact h.serverReturns rfl
    | unexpected e => cases hr
  | _ => exact hf.elim

/-- a frame in the second loop -/
theorem Inv.drains (h : Inv A s) (hlive : s.serverExit = none) {p : Purpose} {id : ℕ} {r : Outcome RelayError}
    {f : ClientFrame} {up : List ClientFrame} (hsp : s.serverPhase = .draining p id r) (hw : s.up.wire = f :: up) :
    Inv A (s.drains s.takeUp p id r f) := by
  have hj := h.joint
  rw [hw, hsp] at hj
  generalize hrp : s.relayPhase = rp at hj
  generalize hd : s.down.wire = down at hj
  generalize hack : s.acknowledged.length = a at hj
  generalize hup : f :: up = wire at hj
  cases hj with
  | closing slot hr hdown hflows =>
    subst hup
    refine h.dropped hlive hsp hw (hflows f List.mem_cons_self) hr ?_
    rw [hrp, hd, hack]
    exact .closing slot hr hdown fun g hg => hflows g (List.mem_cons_of_mem _ hg)
  | @closed _ _ c _ rest slot hr hflows =>
    cases rest with
    | nil =>
      cases hup
      exact h.drained slot hr hsp hrp hd hw hack
    | cons g rest =>
      cases hup
      refine h.dropped hlive hsp hw (hflows f List.mem_cons_self) hr ?_
      rw [hrp, hd, hack]
      exact .closed slot hr fun g hg => hflows g (List.mem_cons_of_mem _ hg)

theorem Inv.serverOnFrame (h : Inv A s) (hlive : s.serverExit = none) (env : ServerEnv) {f : ClientFrame}
    {up : List ClientFrame} (hw : s.up.wire = f :: up) :
    Inv A (serverOnFrame K isEd25519 A env s s.takeUp f) := by
  have hj := h.joint
  rw [hw] at hj
  generalize hsp : s.serverPhase = sp at hj
  generalize hrp : s.relayPhase = rp at hj
  generalize hd : s.down.wire = down at hj
  generalize hack : s.acknowledged.length = a at hj
  generalize hup : f :: up = wire at hj
  have hno : (∀ p id, sp ≠ .streaming p id) → ∀ p id, s.serverPhase ≠ .streaming p id := by
    intro hne p id heq
    exact hne p id (hsp.symm.trans heq)
  cases hj with
  | token t =>
    cases hup
    simp only [Enrollment.serverOnFrame, hsp]
    split_ifs
    · refine h.serverMove (hno (by simp)) ?_ (by simp) (by rw [hsp]; rfl) ⟨rfl, rfl, rfl, rfl, rfl, rfl, rfl, rfl, rfl, rfl⟩
      show Joint A s.discovered.publicKey .setup s.relayPhase (s.down.wire ++ [_]) s.up.wire.tail _
      rw [hrp, hd, hw, hack]
      exact .accepted
    · exact h.serverReturns rfl
  | setup r p =>
    cases hup
    simp only [Enrollment.serverOnFrame, hsp, and_self, if_true]
    split
    · exact h.serverReturns rfl
    · exact h.serverReturns rfl
    · refine h.serverMove (hno (by simp)) ?_ (by simp) (by rw [hsp]; rfl) ⟨rfl, rfl, rfl, rfl, rfl, rfl, rfl, rfl, rfl, rfl⟩
      show Joint A s.discovered.publicKey .ready s.relayPhase (s.down.wire ++ [_]) s.up.wire.tail _
      rw [hrp, hd, hw, hack]
      exact .credential _ _ _ _
  | ready =>
    cases hup
    simp only [Enrollment.serverOnFrame, hsp]
    refine h.serverMove (hno (by simp)) ?_ (by simp) (by rw [hsp]; rfl) ⟨rfl, rfl, rfl, rfl, rfl, rfl, rfl, rfl, rfl, rfl⟩
    show Joint A s.discovered.publicKey .signature s.relayPhase (s.down.wire ++ [_]) s.up.wire.tail _
    rw [hrp, hd, hw, hack]
    exact .challenge _
  | signature t =>
    cases hup
    simp only [Enrollment.serverOnFrame, hsp]
    split
    · exact h.serverReturns rfl
    · split
      · exact h.serverReturns rfl
      · unfold St.resolve
        split
        · split_ifs
          · refine h.serverMove (hno (by simp)) ?_ (by simp [St.openStream]) (by rw [hsp]; rfl)
              ⟨rfl, rfl, rfl, rfl, rfl, rfl, rfl, rfl, rfl, rfl⟩
            show Joint A s.discovered.publicKey (.opening .verify 1) s.relayPhase (s.down.wire ++ [_]) s.up.wire.tail _
            rw [hrp, hd, hw, hack]
            exact .opening .pinned
          · exact h.serverReturns rfl
        · refine h.serverMove (hno (by simp)) ?_ (by simp [St.openStream]) (by rw [hsp]; rfl)
            ⟨rfl, rfl, rfl, rfl, rfl, rfl, rfl, rfl, rfl, rfl⟩
          show Joint A s.discovered.publicKey (.opening .discover 1) s.relayPhase (s.down.wire ++ [_]) s.up.wire.tail _
          rw [hrp, hd, hw, hack]
          exact .opening .discover
  | opened slot hflows =>
    cases hup
    simp only [Enrollment.serverOnFrame, hsp, if_true]
    have hquiet := h.quiet (hno (by simp))
    refine h.move ?_ (fun _ q i hd => by cases hd) ?_ h.acknowledged ?_ ?_ rfl rfl rfl rfl rfl
    · show Joint A s.discovered.publicKey (.streaming _ _) s.relayPhase s.down.wire s.up.wire.tail s.acknowledged.length
      rw [hrp, hd, hw, hack]
      exact .streaming slot (by simp) hflows
    · show s.closed = _
      rw [h.closed, hsp]
      rfl
    · intro g hg
      rw [show s.takeUp.down.queue = [] from hquiet.1] at hg
      cases hg
    · intro k g hg
      rw [show s.takeUp.down.hand k = none from hquiet.2 k] at hg
      cases hg
  | streaming slot hdown hflows =>
    cases hup
    simp only [Enrollment.serverOnFrame, hsp]
    exact h.streamed env hsp hw (hflows f List.mem_cons_self)
  | closing slot hr hdown hflows =>
    simp only [Enrollment.serverOnFrame, hsp]
    exact h.drains hlive hsp hw
  | closed slot hr hflows =>
    simp only [Enrollment.serverOnFrame, hsp]
    exact h.drains hlive hsp hw
  | hostKeyAccepted =>
    cases hup
    simp only [Enrollment.serverOnFrame, hsp, if_true]
    refine h.serverMove (hno (by simp)) ?_ (by simp [St.openStream]) (by rw [hsp]; rfl)
      ⟨rfl, rfl, rfl, rfl, rfl, rfl, rfl, rfl, rfl, rfl⟩
    show Joint A s.discovered.publicKey (.opening .verify 2) s.relayPhase (s.down.wire ++ [_]) s.up.wire.tail _
    rw [hrp, hd, hw, hack]
    exact .opening .confirmed
  | _ => cases hup

theorem Inv.serverRecv (h : Inv A s) (hlive : s.serverExit = none) (env : ServerEnv) :
    Inv A (serverRecv K isEd25519 A env s) := by
  unfold Enrollment.serverRecv
  split
  · exact h
  · rename_i f up hw
    split_ifs
    · exact h.serverReturns rfl
    · exact h.serverOnFrame hlive env hw

/-! ## The Server's own steps -/

/-- in the select loop: what the two sides have on their way -/
theorem Inv.inStream (h : Inv A s) {p : Purpose} {id : ℕ} (hsp : s.serverPhase = .streaming p id) :
    ∃ c, Slot p id c ∧ s.relayPhase = .streams (some id) (id + 1) c ∧ (∀ f ∈ s.down.wire, Carries id f) ∧
      (∀ f ∈ s.up.wire, Flows id f) ∧ s.acknowledged.length = id - 1 := by
  have hj := h.joint
  rw [hsp] at hj
  generalize s.relayPhase = rp at hj ⊢
  generalize s.down.wire = down at hj ⊢
  generalize s.up.wire = up at hj ⊢
  generalize s.acknowledged.length = a at hj ⊢
  cases hj with
  | @streaming _ _ c _ _ slot hdown hup => exact ⟨c, slot, rfl, hdown, hup, rfl⟩

/-- a step of the reader of the pipe, or of the loop that sends its frames -/
theorem Inv.pipe (h : Inv A s) {p : Purpose} {id : ℕ} (hsp : s.serverPhase = .streaming p id) {down : Lane ServerFrame}
    {reader : Bool} (hwire : ∀ f ∈ down.wire, Carries id f) (hqueue : ∀ f ∈ down.queue, Carries id f)
    (hhand : ∀ k f, down.hand k = some f → Carries id f) : Inv A { s with down := down, pipeReader := reader } := by
  obtain ⟨c, slot, hrp, -, hup, hack⟩ := h.inStream hsp
  refine h.move ?_ h.notice h.closed h.acknowledged ?_ ?_ rfl rfl rfl rfl rfl
  · show Joint A s.discovered.publicKey s.serverPhase s.relayPhase down.wire s.up.wire s.acknowledged.length
    rw [hsp, hrp, hack]
    exact .streaming slot hwire hup
  · exact fun f hf => ⟨p, id, hsp, hqueue f hf⟩
  · exact fun k f hf => ⟨p, id, hsp, hhand k f hf⟩

/-- what waits behind the channel is of the stream of the loop -/
theorem Inv.waiting (h : Inv A s) {p : Purpose} {id : ℕ} (hsp : s.serverPhase = .streaming p id) :
    Lane.All (Carries id) s.down := by
  obtain ⟨-, -, -, hdown, -, -⟩ := h.inStream hsp
  refine ⟨fun k f hf => ?_, fun f hf => ?_, hdown⟩
  · obtain ⟨q, i, hphase, hc⟩ := h.downHand k f hf
    cases hsp.symm.trans hphase
    exact hc
  · obtain ⟨q, i, hphase, hc⟩ := h.downQueue f hf
    cases hsp.symm.trans hphase
    exact hc

theorem Inv.pipeRead (h : Inv A s) (b : List UInt8) : Inv A (pipeRead s b) := by
  unfold Enrollment.pipeRead
  split
  · rename_i p id hsp
    have hall := h.waiting hsp
    split_ifs
    · have hnew : Lane.All (Carries id) (s.down.hold id (.streamHalfClosed id)) := hall.hold id rfl
      exact h.pipe hsp hnew.wire hnew.queue hnew.hand
    · have hnew : Lane.All (Carries id) (s.down.hold id (.streamData id (Base64Url.encode (b.take maxDataBytes)))) :=
        hall.hold id rfl
      exact h.pipe hsp hnew.wire hnew.queue hnew.hand
    · exact h
  · exact h

theorem Inv.pipeEnqueue (h : Inv A s) : Inv A (pipeEnqueue s) := by
  unfold Enrollment.pipeEnqueue
  split
  · rename_i p id hsp
    have hnew := (h.waiting hsp).enqueue provisionalCapacity id
    exact h.pipe hsp hnew.wire hnew.queue hnew.hand
  · exact h

theorem Inv.serverSend (h : Inv A s) : Inv A (serverSend s) := by
  unfold Enrollment.serverSend
  split
  · rename_i p id hsp
    have hnew := (h.waiting hsp).flush
    exact h.pipe hsp hnew.wire hnew.queue hnew.hand
  · exact h

/-- the Server closes the stream -/
theorem Inv.closeStream (h : Inv A s) {p : Purpose} {id : ℕ} (hsp : s.serverPhase = .streaming p id) {r : Outcome RelayError}
    (hr : r.isUnexpected = false) (hnotice : r = .ok → .streamClosed id .shutdown ∉ s.up.wire) {key : HostKey} :
    Inv A { s.closeStream p id r with discovered := key } := by
  obtain ⟨c, slot, hrp, hdown, hup, hack⟩ := h.inStream hsp
  refine h.move ?_ ?_ ?_ h.acknowledged (fun f hf => by cases hf) (fun k f hf => by cases hf) rfl rfl rfl rfl rfl
  · show Joint A key.publicKey (.draining p id r) s.relayPhase (s.down.wire ++ [.streamClosed id .eof]) s.up.wire
      s.acknowledged.length
    rw [hrp, hack]
    exact .closing slot hr hdown hup
  · intro _ q i hd
    cases hd
    exact hnotice rfl
  · show s.closed ++ [id] = List.range' 1 id
    rw [h.closed, hsp]
    exact range_succ slot.pos

/-! ## No crossing -/

/-- a step in which a notice of the Relay crosses the Server's close of the stream after success: the operation finishes while
the notice is on the channel, or the notice is sent while the Server waits for the acknowledgement -/
def crosses (s : St) : Op → Bool
  | .operationDone (some _) =>
    match s.serverPhase with
    | .streaming _ id => s.serverExit.isNone && s.up.wire.contains (.streamClosed id .shutdown)
    | _ => false
  | .relaySend =>
    match s.serverPhase, s.relayPhase, s.up.queue with
    | .draining _ id .ok, .streams target _ _, f :: _ =>
      s.serverExit.isNone && s.relayExit.isNone && target = some id && f = .streamClosed id .shutdown
    | _, _, _ => false
  | _ => false

/-- the condition on a step -/
def Uncrossed (s : St) (o : Op) : Prop := crosses s o = false

instance (s : St) (o : Op) : Decidable (Uncrossed s o) := inferInstanceAs (Decidable (crosses s o = false))

theorem Uncrossed.operationDone {key : HostKey} (h : Uncrossed s (.operationDone (some key))) (hlive : s.serverExit = none)
    {p : Purpose} {id : ℕ} (hsp : s.serverPhase = .streaming p id) : .streamClosed id .shutdown ∉ s.up.wire := by
  have hc : crosses s (.operationDone (some key)) = false := h
  simp only [crosses, hsp, hlive, Option.isNone_none, Bool.true_and] at hc
  exact fun hmem => by simp [hmem] at hc

theorem Uncrossed.relaySend (h : Uncrossed s .relaySend) (hserver : s.serverExit = none) (hrelay : s.relayExit = none)
    {p : Purpose} {id n : ℕ} {c : Bool} {rest : List ClientFrame} (hsp : s.serverPhase = .draining p id .ok)
    (hrp : s.relayPhase = .streams (some id) n c) : s.up.queue ≠ .streamClosed id .shutdown :: rest := by
  intro hqueue
  have hc : crosses s .relaySend = false := h
  simp [crosses, hsp, hrp, hqueue, hserver, hrelay] at hc

theorem Inv.operationDone (h : Inv A s) (hlive : s.serverExit = none) {result : Option HostKey}
    (hok : Uncrossed s (.operationDone result)) : Inv A (operationDone s result) := by
  unfold Enrollment.operationDone
  split
  · rename_i hsp
    exact h.closeStream hsp rfl (fun hr => by cases hr)
  · rename_i hsp
    exact h.closeStream hsp rfl fun _ => hok.operationDone hlive hsp
  · rename_i hsp
    exact h.closeStream hsp rfl fun _ => hok.operationDone hlive hsp
  · exact h

theorem Inv.activateStep (h : Inv A s) (c : Commit) : Inv A (activateStep isEd25519 A s c) := by
  unfold Enrollment.activateStep
  split
  · rename_i id hsp
    have hno : ∀ p i, s.serverPhase ≠ .streaming p i := by
      intro p i hp
      cases hsp.symm.trans hp
    split
    · exact h.serverReturns rfl
    · split
      · refine h.serverMove hno ?_ (by simp) (by rw [hsp]; rfl) ⟨rfl, rfl, rfl, rfl, rfl, rfl, rfl, rfl, rfl, rfl⟩
        have hj := h.joint
        rw [hsp] at hj
        show Joint A s.discovered.publicKey (.finishing id) s.relayPhase (s.down.wire ++ [_]) s.up.wire _
        generalize s.relayPhase = rp at hj ⊢
        generalize s.down.wire = down at hj ⊢
        generalize s.up.wire = up at hj ⊢
        generalize s.acknowledged.length = a at hj ⊢
        cases hj with
        | activating slot => exact .activated slot
      · have hreturns : Inv A (s.serverReturns (.failed .ambiguous)) := h.serverReturns rfl
        exact hreturns.stores s.disk _
  · exact h

end OwlMux.Enrollment
