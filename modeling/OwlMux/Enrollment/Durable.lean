/-
Enrollment across crashes. The binding that `activate` commits names the Relay id and key of the setup frame; the setup frame is
sent after `persist` has returned. So when the row exists, the Relay's state file holds the same identity and route, whatever
crashed, was lost or timed out in between, and the second `persist`, behind Activated, writes what the file holds already.

Results:
- `Durable`: what the file, the channels, the Server's variables and the rows have to do with each other;
- `step_durable`: every step except `reset` keeps it, also lost frames, crashes, ambiguous commits, other transactions and later
  enrollments from the same file;
- `enrollment_durable`: so every active row of the enrollment is answered by the file, and a tunnel hello built from the file
  passes `binding_key` and `verify_signature`.
-/
import Mathlib.Tactic
import OwlMux.Lib.Machine
import OwlMux.Enrollment.Lockstep

namespace OwlMux.Enrollment

open OwlMux.Relay

/-! ## An ordinary tunnel hello -/

/-- `open_tunnel`: the hello of a state -/
def RelayState.hello (s : RelayState) (connectionId : Uuid) : Option ClientFrame :=
  match s.deploymentId, s.machineId, s.routeRevision with
  | some d, some m, some r => some (.tunnelHello version d m s.relayId connectionId r)
  | _, _, _ => none

/-- `send_signature` of `open_tunnel`, for the challenge `nonce` -/
def RelayState.signs (K : Keys) (s : RelayState) (connectionId : Uuid) (nonce : List UInt8) : Option ClientFrame :=
  match s.signingKey, s.deploymentId, s.machineId, s.routeRevision with
  | some key, some d, some m, some r =>
    some (.signature (Base64Url.encode (K.sign key (signatureMessage .tunnel d m s.relayId (some connectionId) r nonce))))
  | _, _, _, _ => none

/-- `tunnel`, from the hello to `verify_signature` -/
def admitTunnel (K : Keys) (deploymentId : Uuid) (rows : List Binding) (nonce : List UInt8) (hello answer : ClientFrame) :
    Except RelayError Unit :=
  match hello with
  | .tunnelHello protocol d m relayId connectionId r =>
    if protocol = version then
      match bindingKey rows m relayId r with
      | .error e => .error e
      | .ok key =>
        if d = deploymentId then
          match answer with
          | .signature signature =>
            match decodeSignature signature with
            | none => .error .protocol
            | some bytes => verifySignature K key bytes (signatureMessage .tunnel d m relayId (some connectionId) r nonce)
          | _ => .error .protocol
        else .error .invalidState
    else .error .protocol
  | _ => .error .protocol

/-! ## The relation -/

/-- frames of the Server carry the data of the accepted token -/
def Honest (A : AcceptedEnrollment) : ServerFrame → Prop
  | .accepted d m _ r => d = A.deploymentId ∧ m = A.machineId ∧ r = A.routeRevision
  | .activated r => r = A.routeRevision
  | _ => True

/-- what the state file holds once the token has been accepted -/
def goal (A : AcceptedEnrollment) (state : RelayState) : RelayState :=
  state.enrolled A.deploymentId A.machineId A.routeRevision

/-- the setup frame has been sent -/
def RelayPhase.sent : RelayPhase → Bool
  | .credential => true
  | .challenge => true
  | .streams _ _ _ => true
  | .persisting _ activated => activated
  | _ => false

/-- the setup frame has been received -/
def ServerPhase.known : ServerPhase → Bool
  | .token => false
  | .setup => false
  | _ => true

/-- a setup frame of this Relay -/
def Own (K : Keys) (state : RelayState) (key : List UInt8) : ClientFrame → Prop
  | .setup _ relayId publicKey _ _ => relayId = state.relayId ∧ publicKey = Base64Url.encode (K.verifyingKey key)
  | _ => True

def ClientFrame.isSetup : ClientFrame → Bool
  | .setup _ _ _ _ _ => true
  | _ => false

/-- at most one active row for each Machine: the unique index -/
def Unique (rows : List Binding) : Prop :=
  rows.Pairwise fun a b => a.active = true → b.active = true → a.machineId ≠ b.machineId

structure Durable (K : Keys) (A : AcceptedEnrollment) (state : RelayState) (key : List UInt8) (s : St) : Prop where
  down : Lane.All (Honest A) s.down
  up : Lane.All (Own K state key) s.up
  /-- the state of the process, before and after the token was accepted -/
  memory : s.state = state ∨ s.state = goal A state
  persists : s.relayExit = none → ∀ k b, s.relayPhase = .persisting k b → s.state = goal A state ∧ s.disk.Ready (goal A state) k
  relay : s.relayPhase.sent = true → s.state = goal A state ∧ s.disk.Holds (goal A state)
  setup : ∀ f ∈ s.up.wire, ClientFrame.isSetup f = true → s.disk.Holds (goal A state)
  waiting : ∀ f, (f ∈ s.up.queue ∨ ∃ k, s.up.hand k = some f) → ClientFrame.isSetup f = false
  server : s.serverPhase.known = true →
    s.disk.Holds (goal A state) ∧ s.relayId = state.relayId ∧ s.publicKey = K.verifyingKey key
  rows : ∀ b ∈ s.db.bindings, b.mine = true → s.disk.Holds (goal A state) ∧ b.machineId = A.machineId ∧
    b.relayId = state.relayId ∧ b.relayPublicKey = K.verifyingKey key ∧ b.routeRevision = A.routeRevision ∧
    b.relayPublicKey.length = 32
  unique : Unique s.db.bindings

variable {K : Keys} {isEd25519 : Text → Bool} {A : AcceptedEnrollment} {state : RelayState} {key : List UInt8} {s s' : St}

/-- nothing waits behind the channel -/
theorem all_wire {F : Type} {P : F → Prop} {wire : List F} (h : ∀ f ∈ wire, P f) :
    Lane.All P { hand := fun _ => none, queue := [], wire := wire } := by
  refine ⟨fun k f hf => ?_, fun f hf => ?_, h⟩
  · cases hf
  · cases hf

theorem durable_init {db : Db} (hrows : ∀ b ∈ db.bindings, b.mine = false) (hunique : Unique db.bindings) :
    Durable K A state key (init state db) where
  down := all_wire (by simp)
  up := all_wire (by simp)
  memory := .inl rfl
  persists := fun _ k b hp => by cases hp
  relay := fun hp => by cases hp
  setup := fun f hf => by cases hf
  waiting := fun f hf => by
    rcases hf with hf | ⟨k, hf⟩
    · cases hf
    · cases hf
  server := fun hp => by cases hp
  rows := fun b hb hm => by
    rw [hrows b hb] at hm
    cases hm
  unique := hunique

/-! ## The Server -/

/-- what a step of the Server does outside the setup frame and the transaction -/
structure Served (A : AcceptedEnrollment) (s s' : St) : Prop where
  disk : s'.disk = s.disk
  db : s'.db = s.db
  state : s'.state = s.state
  relayPhase : s'.relayPhase = s.relayPhase
  relayExit : s'.relayExit = s.relayExit
  up : s'.up = s.up ∨ s'.up = s.up.pop
  down : Lane.All (Honest A) s.down → Lane.All (Honest A) s'.down
  relayId : s'.relayId = s.relayId
  publicKey : s'.publicKey = s.publicKey
  known : s'.serverPhase.known = true → s.serverPhase.known = true

theorem Served.refl (s : St) : Served A s s := ⟨rfl, rfl, rfl, rfl, rfl, .inl rfl, id, rfl, rfl, id⟩

theorem Served.returns (s : St) (o : Outcome RelayError) : Served A s (s.serverReturns o) :=
  ⟨rfl, rfl, rfl, rfl, rfl, .inl rfl, id, rfl, rfl, id⟩

theorem Served.error (s : St) (e : RelayError) (o : Outcome RelayError) : Served A s (s.sendError e o) :=
  ⟨rfl, rfl, rfl, rfl, rfl, .inl rfl, fun h => h.push trivial, rfl, rfl, id⟩

theorem Served.taken (s : St) : Served A s s.takeUp := ⟨rfl, rfl, rfl, rfl, rfl, .inr rfl, id, rfl, rfl, id⟩

/-- the frames of a lane whose channel is dropped -/
theorem all_dropped {F : Type} {P : F → Prop} {l : Lane F} (h : Lane.All P l) {f : F} (hf : P f) :
    Lane.All P (Lane.push { l with hand := fun _ => none, queue := [] } f) :=
  (all_wire h.wire).push hf

theorem Served.closes (hknown : s.serverPhase.known = true) (p : Purpose) (id : ℕ) (r : Outcome RelayError) :
    Served A s (s.takeUp.closeStream p id r) :=
  ⟨rfl, rfl, rfl, rfl, rfl, .inr rfl, fun h => all_dropped h trivial, rfl, rfl, fun _ => hknown⟩

theorem Served.opens (hknown : s.serverPhase.known = true) (p : Purpose) (id : ℕ) (host : Text) :
    Served A s { s.takeUp.openStream p id with hostIdentity := host } :=
  ⟨rfl, rfl, rfl, rfl, rfl, .inr rfl, fun h => h.push trivial, rfl, rfl, fun _ => hknown⟩

theorem Served.streamed (hknown : s.serverPhase.known = true) (env : ServerEnv) (p : Purpose) (id : ℕ) (f : ClientFrame) :
    Served A s (s.streamed s.takeUp env p id f) := by
  cases f with
  | streamData i data =>
    simp only [St.streamed]
    split_ifs
    · split
      · exact .returns s _
      · exact .taken s
      · exact .returns s _
    · exact .closes hknown p id _
  | streamHalfClosed i =>
    simp only [St.streamed]
    split_ifs
    · exact .taken s
    · exact .returns s _
    · exact .closes hknown p id _
  | streamClosed i r =>
    simp only [St.streamed]
    split_ifs
    · exact .taken s
    · exact .returns s _
    · exact .closes hknown p id _
  | _ => exact .closes hknown p id _

theorem Served.drains (hknown : s.serverPhase.known = true) (p : Purpose) (id : ℕ) (r : Outcome RelayError) (f : ClientFrame) :
    Served A s (s.drains s.takeUp p id r f) := by
  have hdrained : Served A s (s.drained s.takeUp p id r) := by
    cases r with
    | ok =>
      cases p with
      | discover => exact ⟨rfl, rfl, rfl, rfl, rfl, .inr rfl, fun h => h.push trivial, rfl, rfl, fun _ => hknown⟩
      | verify => exact ⟨rfl, rfl, rfl, rfl, rfl, .inr rfl, fun h => h, rfl, rfl, fun _ => hknown⟩
    | failed e => exact .returns s _
    | unexpected e => exact .returns s _
  cases f with
  | streamData i data =>
    simp only [St.drains]
    split_ifs
    · exact .taken s
    · exact .returns s _
  | streamHalfClosed i =>
    simp only [St.drains]
    split_ifs
    · exact .taken s
    · exact .returns s _
  | streamClosed i reason =>
    simp only [St.drains]
    split_ifs
    · exact hdrained
    · exact .returns s _
  | _ => exact .returns s _

theorem Served.onFrame (hsetup : s.serverPhase ≠ .setup) (env : ServerEnv) (f : ClientFrame) :
    Served A s (serverOnFrame K isEd25519 A env s s.takeUp f) := by
  unfold serverOnFrame
  split
  · split
    · split_ifs
      · exact ⟨rfl, rfl, rfl, rfl, rfl, .inr rfl, fun h => h.push ⟨rfl, rfl, rfl⟩, rfl, rfl, fun hk => by cases hk⟩
      · exact .returns s _
    · exact .error s _ _
  · rename_i hsp
    exact (hsetup hsp).elim
  · rename_i hsp
    have hknown : s.serverPhase.known = true := by rw [hsp]; rfl
    split
    · exact ⟨rfl, rfl, rfl, rfl, rfl, .inr rfl, fun h => h.push trivial, rfl, rfl, fun _ => hknown⟩
    · exact .error s _ _
  · rename_i hsp
    have hknown : s.serverPhase.known = true := by rw [hsp]; rfl
    split
    · split
      · exact .returns s _
      · split
        · exact .returns s _
        · unfold St.resolve
          split
          · split_ifs
            · exact .opens hknown .verify 1 _
            · exact .returns s _
          · exact .opens hknown .discover 1 s.hostIdentity
    · exact .error s _ _
  · rename_i hsp
    have hknown : s.serverPhase.known = true := by rw [hsp]; rfl
    split
    · split_ifs
      · exact ⟨rfl, rfl, rfl, rfl, rfl, .inr rfl, fun h => h, rfl, rfl, fun _ => hknown⟩
      · exact .returns s _
    · exact .returns s _
  · rename_i hsp
    exact .streamed (by rw [hsp]; rfl) env _ _ f
  · rename_i hsp
    exact .drains (by rw [hsp]; rfl) _ _ _ f
  · rename_i hsp
    have hknown : s.serverPhase.known = true := by rw [hsp]; rfl
    split
    · split_ifs
      · exact .opens hknown .verify 2 _
      · exact .error s _ _
    · exact .error s _ _
  · exact .refl s
  · exact .taken s

/-- the setup frame: refused, or taken over with its Relay id and key -/
theorem setup_onFrame (hsp : s.serverPhase = .setup) (env : ServerEnv) (f : ClientFrame) :
    Served A s (serverOnFrame K isEd25519 A env s s.takeUp f) ∨
      ∃ v r p e a k, ∃ c : Uuid × Text × Text × Text, f = .setup v r p e a ∧ decode32 p = some k ∧
        serverOnFrame K isEd25519 A env s s.takeUp f =
          { s.takeUp.tell (.credential c.1 c.2.1 c.2.2.1 c.2.2.2) with serverPhase := .ready, relayId := r, publicKey := k } := by
  cases f with
  | setup v r p e a =>
    simp only [serverOnFrame, hsp]
    split_ifs
    · cases hk : decode32 p with
      | none => exact .inl (.returns s _)
      | some k =>
        cases hc : env.credential with
        | none => exact .inl (.returns s _)
        | some c => exact .inr ⟨v, r, p, e, a, k, c, rfl, hk, rfl⟩
    · exact .inl (.error s _ _)
  | _ =>
    simp only [serverOnFrame, hsp]
    exact .inl (.error s _ _)

/-- the frames of the channel are those that were there -/
theorem all_popped {F : Type} {P : F → Prop} {l l' : Lane F} (h : Lane.All P l) (hl : l' = l ∨ l' = l.pop) : Lane.All P l' := by
  rcases hl with rfl | rfl
  · exact h
  · exact h.pop

theorem popped_wire {F : Type} {l l' : Lane F} (hl : l' = l ∨ l' = l.pop) {f : F} (hf : f ∈ l'.wire) : f ∈ l.wire := by
  rcases hl with rfl | rfl
  · exact hf
  · exact List.mem_of_mem_tail hf

theorem popped_waiting {F : Type} {l l' : Lane F} (hl : l' = l ∨ l' = l.pop) : l'.queue = l.queue ∧ l'.hand = l.hand := by
  rcases hl with rfl | rfl
  · exact ⟨rfl, rfl⟩
  · exact ⟨rfl, rfl⟩

theorem Durable.served (h : Durable K A state key s) (hs : Served A s s') : Durable K A state key s' where
  down := hs.down h.down
  up := all_popped h.up hs.up
  memory := by
    rw [hs.state]
    exact h.memory
  persists := by
    rw [hs.relayExit, hs.relayPhase, hs.state, hs.disk]
    exact h.persists
  relay := by
    rw [hs.relayPhase, hs.state, hs.disk]
    exact h.relay
  setup := by
    rw [hs.disk]
    exact fun f hf => h.setup f (popped_wire hs.up hf)
  waiting := by
    rw [(popped_waiting hs.up).1, (popped_waiting hs.up).2]
    exact h.waiting
  server := by
    rw [hs.disk, hs.relayId, hs.publicKey]
    exact fun hk => h.server (hs.known hk)
  rows := by
    rw [hs.disk, hs.db]
    exact h.rows
  unique := by
    rw [hs.db]
    exact h.unique

theorem decode32_encode {k b : List UInt8} (h : decode32 (Base64Url.encode b) = some k) : k = b := by
  unfold decode32 at h
  rw [Base64Url.decode_encode] at h
  dsimp only at h
  split_ifs at h
  cases h
  rfl

theorem Durable.serverRecv (h : Durable K A state key s) (env : ServerEnv) :
    Durable K A state key (serverRecv K isEd25519 A env s) := by
  unfold Enrollment.serverRecv
  split
  · exact h
  · rename_i f rest hw
    split_ifs
    · exact h.served (.returns s _)
    · by_cases hsp : s.serverPhase = .setup
      · rcases @setup_onFrame K isEd25519 A s hsp env f with hserved | ⟨v, r, p, e, a, k, c, rfl, hk, heq⟩
        · exact h.served hserved
        · rw [heq]
          have hmem : ClientFrame.setup v r p e a ∈ s.up.wire := by
            rw [hw]
            exact List.mem_cons_self
          have hholds := h.setup _ hmem rfl
          obtain ⟨hr, hp⟩ := h.up.wire _ hmem
          have hkey : k = K.verifyingKey key := decode32_encode (hp ▸ hk)
          exact ⟨h.down.push trivial, h.up.pop, h.memory, h.persists, h.relay, fun g hg => h.setup g (List.mem_of_mem_tail hg),
            h.waiting, fun _ => ⟨hholds, hr, hkey⟩, h.rows, h.unique⟩
      · exact h.served (.onFrame hsp env f)

/-- a step of the Server's reader or select loop -/
theorem Durable.downLane (h : Durable K A state key s) {down : Lane ServerFrame} (hdown : Lane.All (Honest A) down)
    {reader : Bool} : Durable K A state key { s with down := down, pipeReader := reader } :=
  ⟨hdown, h.up, h.memory, h.persists, h.relay, h.setup, h.waiting, h.server, h.rows, h.unique⟩

theorem Durable.pipeRead (h : Durable K A state key s) (b : List UInt8) : Durable K A state key (pipeRead s b) := by
  unfold Enrollment.pipeRead
  split
  · split_ifs
    · exact h.downLane (h.down.hold _ (f := .streamHalfClosed _) trivial)
    · exact h.downLane (h.down.hold _ (f := .streamData _ _) trivial)
    · exact h
  · exact h

theorem Durable.operationDone (h : Durable K A state key s) (result : Option HostKey) :
    Durable K A state key (operationDone s result) := by
  have hcloses : ∀ p id r key', s.serverPhase = .streaming p id →
      Durable K A state key { s.closeStream p id r with discovered := key' } := by
    intro p id r key' hsp
    have hserver := h.server (by rw [hsp]; rfl)
    exact ⟨all_dropped h.down trivial, h.up, h.memory, h.persists, h.relay, h.setup, h.waiting, fun _ => hserver, h.rows, h.unique⟩
  unfold Enrollment.operationDone
  split
  · rename_i hsp
    exact hcloses _ _ _ s.discovered hsp
  · rename_i hsp
    exact hcloses _ _ _ _ hsp
  · rename_i hsp
    exact hcloses _ _ _ s.discovered hsp
  · exact h

/-! ## Rows -/

theorem unique_append {rows : List Binding} {b : Binding} (h : Unique rows) (hb : insertable rows b = true) {mine : Bool} :
    Unique (rows ++ [{ b with mine := mine }]) := by
  refine List.pairwise_append.2 ⟨h, List.pairwise_singleton _ _, fun r hr x hx hactive _ => ?_⟩
  rw [List.mem_singleton.1 hx]
  simp only [insertable, Bool.and_eq_true, List.all_eq_true, Bool.or_eq_true, Bool.not_eq_true', decide_eq_true_eq] at hb
  rcases hb.2 r hr with hr | hr
  · rw [hr] at hactive
    cases hactive
  · exact hr.1.1

/-- the transaction of `activate` adds one row, of this enrollment -/
theorem activate_ok {db db' : Db} {relayId : Uuid} {publicKey : List UInt8} {host : Text}
    (h : activate isEd25519 A db relayId publicKey host = .ok db') :
    insertable db.bindings ⟨A.machineId, relayId, publicKey, A.routeRevision, true, true⟩ = true ∧
      db'.bindings = db.bindings ++ [⟨A.machineId, relayId, publicKey, A.routeRevision, true, true⟩] := by
  unfold activate at h
  dsimp only at h
  split_ifs at h with h1 h2 h3 h4
  cases h
  exact ⟨by simpa using h4, rfl⟩

theorem Durable.commits (h : Durable K A state key s) (hknown : s.serverPhase.known = true) {db : Db} {host : Text}
    (hdb : activate isEd25519 A s.db s.relayId s.publicKey host = .ok db) :
    (∀ b ∈ db.bindings, b.mine = true → s.disk.Holds (goal A state) ∧ b.machineId = A.machineId ∧
      b.relayId = state.relayId ∧ b.relayPublicKey = K.verifyingKey key ∧ b.routeRevision = A.routeRevision ∧
      b.relayPublicKey.length = 32) ∧ Unique db.bindings := by
  obtain ⟨hins, hrows⟩ := activate_ok hdb
  obtain ⟨hholds, hid, hkey⟩ := h.server hknown
  rw [hrows]
  constructor
  · intro b hb hmine
    rcases List.mem_append.1 hb with hb | hb
    · exact h.rows b hb hmine
    · rw [List.mem_singleton.1 hb]
      have hlen : s.publicKey.length = 32 := by
        simp only [insertable, Bool.and_eq_true, decide_eq_true_eq] at hins
        exact hins.1.1
      exact ⟨hholds, rfl, hid, hkey, rfl, hlen⟩
  · exact unique_append h.unique hins

theorem Durable.activateStep (h : Durable K A state key s) (c : Commit) :
    Durable K A state key (activateStep isEd25519 A s c) := by
  unfold Enrollment.activateStep
  split
  · rename_i id hsp
    have hknown : s.serverPhase.known = true := by rw [hsp]; rfl
    split
    · exact h.served (.returns s _)
    · rename_i db hdb
      obtain ⟨hrows, hunique⟩ := h.commits hknown hdb
      split
      · exact ⟨h.down.push rfl, h.up, h.memory, h.persists, h.relay, h.setup, h.waiting, fun _ => h.server hknown, hrows, hunique⟩
      · rename_i applied
        cases applied with
        | true => exact ⟨h.down, h.up, h.memory, h.persists, h.relay, h.setup, h.waiting, h.server, hrows, hunique⟩
        | false => exact ⟨h.down, h.up, h.memory, h.persists, h.relay, h.setup, h.waiting, h.server, h.rows, h.unique⟩
  · exact h

theorem mem_modify {rows : List Binding} {i : ℕ} {b : Binding} (hb : b ∈ rows.modify i fun b => { b with active := false }) :
    ∃ c ∈ rows, b = c ∨ b = { c with active := false } := by
  obtain ⟨j, hj, rfl⟩ := List.mem_iff_getElem.1 hb
  rw [List.length_modify] at hj
  refine ⟨rows[j], List.getElem_mem hj, ?_⟩
  rw [List.getElem_modify]
  split_ifs
  · exact .inr rfl
  · exact .inl rfl

/-- rows only change to inactive ones -/
theorem unique_modify {rows : List Binding} (h : Unique rows) (i : ℕ) :
    Unique (rows.modify i fun b => { b with active := false }) := by
  induction rows generalizing i with
  | nil => cases i <;> exact h
  | cons b rows ih =>
    rw [Unique, List.pairwise_cons] at h
    cases i with
    | zero =>
      refine List.pairwise_cons.2 ⟨fun c _ hactive => ?_, h.2⟩
      cases hactive
    | succ i =>
      rw [List.modify_succ_cons]
      refine List.pairwise_cons.2 ⟨fun c hc hb hactive => ?_, ih h.2 i⟩
      obtain ⟨d, hd, rfl | rfl⟩ := mem_modify hc
      · exact h.1 _ hd hb hactive
      · cases hactive

theorem Durable.elsewhere (h : Durable K A state key s) (e : Elsewhere) :
    Durable K A state key { s with db := s.db.elsewhere e } := by
  have hdb : (∀ b ∈ (s.db.elsewhere e).bindings, b.mine = true → s.disk.Holds (goal A state) ∧ b.machineId = A.machineId ∧
      b.relayId = state.relayId ∧ b.relayPublicKey = K.verifyingKey key ∧ b.routeRevision = A.routeRevision ∧
      b.relayPublicKey.length = 32) ∧ Unique (s.db.elsewhere e).bindings := by
    cases e with
    | serving ok => exact ⟨h.rows, h.unique⟩
    | attempt row => exact ⟨h.rows, h.unique⟩
    | machine row => exact ⟨h.rows, h.unique⟩
    | insert row =>
      unfold Db.elsewhere
      dsimp only
      split_ifs with hins
      · refine ⟨fun b hb hmine => ?_, unique_append h.unique hins⟩
        rcases List.mem_append.1 hb with hb | hb
        · exact h.rows b hb hmine
        · rw [List.mem_singleton.1 hb] at hmine
          cases hmine
      · exact ⟨h.rows, h.unique⟩
    | revoke i =>
      refine ⟨fun b hb hmine => ?_, unique_modify h.unique i⟩
      obtain ⟨c, hc, rfl | rfl⟩ := mem_modify hb
      · exact h.rows _ hc hmine
      · exact h.rows c hc hmine
    | delete i =>
      exact ⟨fun b hb => h.rows b ((List.eraseIdx_sublist _ _).subset hb), h.unique.sublist (List.eraseIdx_sublist _ _)⟩
  exact ⟨h.down, h.up, h.memory, h.persists, h.relay, h.setup, h.waiting, h.server, hdb.1, hdb.2⟩

/-! ## The Relay -/

theorem Durable.relayReturns (h : Durable K A state key s) (o : Outcome ClientError) : Durable K A state key (s.relayReturns o) := by
  refine ⟨h.down, h.up, h.memory, fun hexit => ?_, h.relay, h.setup, h.waiting, h.server, h.rows, h.unique⟩
  cases hexit

theorem own_of_not_setup {f : ClientFrame} (hf : ClientFrame.isSetup f = false) : Own K state key f := by
  cases f with
  | setup => cases hf
  | _ => trivial

/-- a frame other than the setup frame is sent -/
theorem Durable.pushes (h : Durable K A state key s) {f : ClientFrame} (hf : ClientFrame.isSetup f = false) :
    Durable K A state key { s with up := s.up.push f } := by
  refine ⟨h.down, h.up.push (own_of_not_setup hf), h.memory, h.persists, h.relay, fun g hg hsetup => ?_, h.waiting, h.server,
    h.rows, h.unique⟩
  rcases List.mem_append.1 hg with hg | hg
  · exact h.setup g hg hsetup
  · rw [List.mem_singleton.1 hg, hf] at hsetup
    cases hsetup

theorem Durable.answer (h : Durable K A state key s) {f : ClientFrame} {next : St}
    (hnext : Durable K A state key { next with up := next.up.push f }) : Durable K A state key (s.answer f next) := by
  unfold St.answer
  split_ifs
  · exact hnext
  · exact h.relayReturns _

/-- the Relay goes on to another wait, outside `persist` -/
theorem Durable.goesOn (h : Durable K A state key s) {phase : RelayPhase} (hsent : phase.sent = true → s.relayPhase.sent = true)
    (hpersist : ∀ k b, phase ≠ .persisting k b) {down : Lane ServerFrame} (hdown : Lane.All (Honest A) down)
    {reader : ℕ → Bool} {acks : List ℕ} :
    Durable K A state key
      { s with down := down, relayPhase := phase, targetReader := reader, acknowledged := acks } := by
  refine ⟨hdown, h.up, h.memory, fun _ k b hp => (hpersist k b hp).elim, fun hp => h.relay (hsent hp), h.setup, h.waiting,
    h.server, h.rows, h.unique⟩

theorem goal_enrolled {t : RelayState} (h : t = state ∨ t = goal A state) :
    t.enrolled A.deploymentId A.machineId A.routeRevision = goal A state := by
  rcases h with rfl | rfl
  · rfl
  · rfl

theorem Durable.relayOnFrame (h : Durable K A state key s) (env : RelayEnv) {f : ServerFrame} {rest : List ServerFrame}
    (hw : s.down.wire = f :: rest) : Durable K A state key (relayOnFrame K env s s.takeDown f) := by
  have hhonest : Honest A f := h.down.wire f (by rw [hw]; exact List.mem_cons_self)
  have hpop : Lane.All (Honest A) s.down.pop := h.down.pop
  unfold Enrollment.relayOnFrame
  split
  · split
    · -- Accepted: the state of the process becomes the one that is persisted
      obtain ⟨rfl, rfl, rfl⟩ := hhonest
      have hgoal := goal_enrolled h.memory
      refine ⟨hpop, h.up, .inr hgoal, fun _ k b hp => ?_, fun hp => ?_, h.setup, h.waiting, h.server, h.rows, h.unique⟩
      · cases hp
        exact ⟨hgoal, trivial⟩
      · cases hp
    · exact h.relayReturns _
    · exact h.relayReturns _
  · rename_i hrp
    split
    · split_ifs
      · exact h.answer ((h.goesOn (fun _ => by rw [hrp]; rfl) (by simp) hpop).pushes rfl)
      · exact h.relayReturns _
    · exact h.relayReturns _
  · rename_i hrp
    split
    · split
      · split_ifs
        · exact h.answer ((h.goesOn (fun _ => by rw [hrp]; rfl) (by simp) hpop).pushes rfl)
        · exact h.relayReturns _
      · exact h.relayReturns _
    · exact h.relayReturns _
    · exact h.relayReturns _
  · rename_i target next confirmed hrp
    have hsent : s.relayPhase.sent = true := by rw [hrp]; rfl
    have hstreams : ∀ t n c reader acks, Durable K A state key
        { s.takeDown with relayPhase := .streams t n c, targetReader := reader, acknowledged := acks } :=
      fun t n c reader acks => h.goesOn (fun _ => hsent) (by simp) hpop
    have htaken : Durable K A state key s.takeDown :=
      ⟨hpop, h.up, h.memory, h.persists, h.relay, h.setup, h.waiting, h.server, h.rows, h.unique⟩
    unfold St.served
    split
    · split_ifs
      · exact h.answer ((hstreams _ _ _ _ _).pushes rfl)
      · exact h.relayReturns _
      · exact h.relayReturns _
    · split_ifs
      · split
        · exact h.relayReturns _
        · exact htaken
        · exact h.relayReturns _
      · exact h.relayReturns _
    · split_ifs
      · exact htaken
      · exact h.relayReturns _
    · split_ifs
      · exact h.answer ((hstreams _ _ _ _ _).pushes rfl)
      · exact h.relayReturns _
    · split_ifs
      · exact h.answer ((hstreams _ _ _ _ _).pushes rfl)
      · exact h.relayReturns _
      · exact h.relayReturns _
    · split_ifs
      · -- Activated: the revision is the one that is persisted already
        obtain rfl : _ = A.routeRevision := hhonest
        obtain ⟨hmemory, hholds⟩ := h.relay hsent
        have hgoal : { s.state with routeRevision := some A.routeRevision } = goal A state := by
          rw [hmemory]
          rfl
        refine ⟨hpop, h.up, .inr hgoal, fun _ k b hp => ?_, fun _ => ⟨hgoal, hholds⟩, h.setup, h.waiting, h.server, h.rows,
          h.unique⟩
        cases hp
        exact ⟨hgoal, trivial⟩
      · exact h.relayReturns _
    · exact h.answer (htaken.pushes rfl)
    · exact h.relayReturns _
    · exact h.relayReturns _
  · exact h
  · exact h

theorem Durable.relayRecv (h : Durable K A state key s) (env : RelayEnv) : Durable K A state key (relayRecv K env s) := by
  unfold Enrollment.relayRecv
  split
  · exact h
  · rename_i f rest hw
    split_ifs
    · exact h.relayReturns _
    · exact h.relayOnFrame env hw

theorem Durable.enroll (h : Durable K A state key s) (token : Text) : Durable K A state key (enroll s token) := by
  unfold Enrollment.enroll
  split
  · split_ifs
    · exact h.relayReturns _
    · exact h.answer ((h.goesOn (fun hp => by cases hp) (by simp) h.down).pushes rfl)
  · exact h

/-- the file changes and still holds what it held -/
theorem Durable.onDisk (h : Durable K A state key s) {disk : Disk RelayState} {phase : RelayPhase}
    (hholds : s.disk.Holds (goal A state) → disk.Holds (goal A state))
    (hpersists : s.relayExit = none → ∀ k b, phase = .persisting k b → s.state = goal A state ∧ disk.Ready (goal A state) k)
    (hrelay : phase.sent = true → s.state = goal A state ∧ disk.Holds (goal A state)) :
    Durable K A state key { s with disk := disk, relayPhase := phase } := by
  refine ⟨h.down, h.up, h.memory, hpersists, hrelay, fun f hf hs => hholds (h.setup f hf hs), h.waiting, fun hk => ?_,
    fun b hb hm => ?_, h.unique⟩
  · obtain ⟨h1, h2⟩ := h.server hk
    exact ⟨hholds h1, h2⟩
  · obtain ⟨h1, h2⟩ := h.rows b hb hm
    exact ⟨hholds h1, h2⟩

theorem Durable.relayPersist (h : Durable K A state key s) (hkey : state.signingKey = some key) (hlive : s.relayExit = none)
    (ok : Bool) : Durable K A state key (relayPersist K s ok) := by
  unfold Enrollment.relayPersist
  split
  · rename_i k activated hrp
    obtain ⟨hmemory, hready⟩ := h.persists hlive k activated hrp
    have hkeeps : s.disk.Holds (goal A state) → (s.disk.advance s.state k).Holds (goal A state) := by
      rw [hmemory]
      exact fun hd => hd.advance hready
    cases ok with
    | false => exact h.relayReturns _
    | true =>
      simp only [Bool.not_true, Bool.false_eq_true, if_false]
      cases hnext : k.next with
      | some j =>
        refine h.onDisk hkeeps (fun _ k' b hp => ?_) fun hsent => ?_
        · cases hp
          refine ⟨hmemory, ?_⟩
          rw [hmemory]
          exact hready.advance hnext
        · have hsent' : s.relayPhase.sent = true := by
            rw [hrp]
            exact hsent
          exact ⟨hmemory, hkeeps (h.relay hsent').2⟩
      | none =>
        -- the last stage: the directory is synced
        obtain rfl : k = .record := by
          cases k <;> cases hnext
          rfl
        have hholds : (s.disk.advance s.state .record).Holds (goal A state) := by
          rw [hmemory]
          exact Disk.holds_record hready
        have hdisk : Durable K A state key { s with disk := s.disk.advance s.state .record } := by
          refine h.onDisk (fun _ => hholds) (fun _ k' b hp => ?_) fun _ => ⟨hmemory, hholds⟩
          cases hrp.symm.trans hp
          exact ⟨hmemory, hholds.entry⟩
        cases activated with
        | true => exact hdisk.relayReturns _
        | false =>
          have hsign : s.state.signingKey = some key := by
            rw [hmemory]
            exact hkey
          simp only [Bool.false_eq_true, if_false, St.sendSetup, hsign]
          refine hdisk.answer ?_
          refine ⟨h.down, h.up.push ⟨?_, rfl⟩, h.memory, fun _ k' b hp => ?_, fun _ => ⟨hmemory, hholds⟩, fun _ _ _ => hholds,
            h.waiting, fun hk => ?_, fun b hb hm => ?_, h.unique⟩
          · rw [hmemory]
            rfl
          · cases hp
          · exact ⟨hholds, (h.server hk).2⟩
          · exact ⟨hholds, (h.rows b hb hm).2⟩
  · exact h

/-- the readers of the loopback socket hand over frames of streams -/
theorem Durable.upLane (h : Durable K A state key s) {up : Lane ClientFrame} {reader : ℕ → Bool} (hwire : up.wire = s.up.wire)
    (hup : ∀ f, (f ∈ up.queue ∨ ∃ k, up.hand k = some f) → ClientFrame.isSetup f = false) :
    Durable K A state key { s with up := up, targetReader := reader } := by
  refine ⟨h.down, ⟨fun k f hf => ?_, fun f hf => ?_, fun f hf => ?_⟩, h.memory, h.persists, h.relay, fun f hf => ?_, hup,
    h.server, h.rows, h.unique⟩
  · exact own_of_not_setup (hup f (.inr ⟨k, hf⟩))
  · exact own_of_not_setup (hup f (.inl hf))
  · exact h.up.wire f (hwire ▸ hf)
  · exact h.setup f (hwire ▸ hf)

theorem Durable.held (h : Durable K A state key s) {id : ℕ} {f : ClientFrame} (hf : ClientFrame.isSetup f = false) :
    ∀ g, (g ∈ (s.up.hold id f).queue ∨ ∃ k, (s.up.hold id f).hand k = some g) → ClientFrame.isSetup g = false := by
  intro g hg
  rcases hg with hg | ⟨k, hg⟩
  · exact h.waiting g (.inl hg)
  · by_cases hk : k = id
    · subst hk
      rw [show (s.up.hold k f).hand k = some f from Function.update_self ..] at hg
      cases hg
      exact hf
    · rw [show (s.up.hold id f).hand k = s.up.hand k from Function.update_of_ne hk ..] at hg
      exact h.waiting g (.inr ⟨k, hg⟩)

theorem Durable.targetRead (h : Durable K A state key s) (id : ℕ) (r : Read) : Durable K A state key (targetRead s id r) := by
  unfold Enrollment.targetRead
  split_ifs
  · split
    · exact h.upLane rfl (h.held rfl)
    · split_ifs
      · exact h.upLane rfl (h.held rfl)
      · exact h.upLane rfl (h.held rfl)
  · exact h

theorem Durable.targetEnqueue (h : Durable K A state key s) (id : ℕ) :
    Durable K A state key { s with up := s.up.enqueue provisionalCapacity id } := by
  refine h.upLane (Lane.enqueue_wire ..) ?_
  unfold Lane.enqueue
  cases hf : s.up.hand id with
  | none => exact h.waiting
  | some f =>
    dsimp only
    split_ifs
    · intro g hg
      rcases hg with hg | ⟨k, hg⟩
      · rcases List.mem_append.1 hg with hg | hg
        · exact h.waiting g (.inl hg)
        · rw [List.mem_singleton.1 hg]
          exact h.waiting f (.inr ⟨id, hf⟩)
      · by_cases hk : k = id
        · dsimp only at hg
          rw [hk, Function.update_self] at hg
          cases hg
        · dsimp only at hg
          rw [Function.update_of_ne hk] at hg
          exact h.waiting g (.inr ⟨k, hg⟩)
    · exact h.waiting

theorem Durable.relaySend (h : Durable K A state key s) : Durable K A state key (relaySend s) := by
  unfold Enrollment.relaySend
  split
  · rename_i target n c f queue hrp hqueue
    have hf : ClientFrame.isSetup f = false := h.waiting f (.inl (by rw [hqueue]; exact List.mem_cons_self))
    have hrest : Durable K A state key { s with up := { s.up with queue := queue } } := by
      refine h.upLane rfl fun g hg => ?_
      rcases hg with hg | hg
      · exact h.waiting g (.inl (by rw [hqueue]; exact List.mem_cons_of_mem _ hg))
      · exact h.waiting g (.inr hg)
    split_ifs
    · exact h.answer (hrest.pushes hf)
    · exact hrest
  · exact h

/-! ## Steps and runs -/

theorem onServer_durable (h : Durable K A state key s) (h' : Durable K A state key s') : Durable K A state key (onServer s s') := by
  unfold onServer
  split_ifs
  · exact h
  · exact h'

theorem onRelay_durable (h : Durable K A state key s) (h' : s.relayExit = none → Durable K A state key s') :
    Durable K A state key (onRelay s s') := by
  unfold onRelay
  cases hexit : s.relayExit with
  | none => exact h' hexit
  | some o => exact h

/-- a crash loses nothing that is held -/
theorem Durable.crash (h : Durable K A state key s) (c : Disk.Crash) :
    Durable K A state key { onRelay s (s.relayReturns (.failed .transport)) with disk := s.disk.crash c } := by
  have hreturned : Durable K A state key (onRelay s (s.relayReturns (.failed .transport))) :=
    onRelay_durable h fun _ => h.relayReturns _
  have hexit : (onRelay s (s.relayReturns (.failed .transport))).relayExit ≠ none := by
    unfold onRelay
    split_ifs with hsome
    · rw [Option.isSome_iff_ne_none] at hsome
      exact hsome
    · exact Option.some_ne_none _
  have hdisk : (onRelay s (s.relayReturns (.failed .transport))).disk = s.disk := by
    unfold onRelay
    split_ifs
    · rfl
    · rfl
  have hkeeps : (onRelay s (s.relayReturns (.failed .transport))).disk.Holds (goal A state) →
      (s.disk.crash c).Holds (goal A state) := by
    rw [hdisk]
    exact fun hd => hd.crash c
  refine hreturned.onDisk hkeeps (fun hnone => (hexit hnone).elim) fun hsent => ?_
  obtain ⟨h1, h2⟩ := hreturned.relay hsent
  exact ⟨h1, hkeeps h2⟩

/-- a later `enroll` refuses the file of this enrollment; another file is not spoken for -/
theorem Durable.enrollAgain (h : Durable K A state key s) (hexit : s.relayExit.isSome = true) (d m : Uuid) (r : ℤ)
    (recorded : Bool) : Durable K A state key (enrollAgain s d m r recorded) := by
  by_cases hheld : s.disk.Holds (goal A state)
  · unfold Enrollment.enrollAgain
    split
    · exact h
    · rename_i loaded hload
      have hroute : loaded.routeRevision.isSome = true := by
        rw [hheld.entry] at hload
        unfold load at hload
        dsimp only at hload
        split_ifs at hload
        cases hload
        rfl
      rw [if_pos hroute]
      exact h
  · unfold Enrollment.enrollAgain
    split
    · exact h
    · split
      · exact h
      · refine h.onDisk (fun hd => (hheld hd).elim) (fun hnone => ?_) fun hsent => (hheld (h.relay hsent).2).elim
        rw [hnone] at hexit
        cases hexit

/-- **One step** keeps the file behind the rows. -/
theorem step_durable (h : Durable K A state key s) (hkey : state.signingKey = some key) (o : Op)
    (hreset : ∀ i t, o ≠ .reset i t) : Durable K A state key (step K isEd25519 A s o) := by
  cases o with
  | enroll token => exact onRelay_durable h fun _ => h.enroll token
  | relayRecv env => exact onRelay_durable h fun _ => h.relayRecv env
  | relayPersist ok => exact onRelay_durable h fun hlive => h.relayPersist hkey hlive ok
  | targetRead id r => exact onRelay_durable h fun _ => h.targetRead id r
  | targetEnqueue id => exact onRelay_durable h fun _ => h.targetEnqueue id
  | relaySend => exact onRelay_durable h fun _ => h.relaySend
  | relayStop e => exact onRelay_durable h fun _ => h.relayReturns _
  | relayCrash c => exact h.crash c
  | serverRecv env => exact onServer_durable h (h.serverRecv env)
  | pipeRead b => exact onServer_durable h (h.pipeRead b)
  | pipeEnqueue =>
    refine onServer_durable h ?_
    unfold pipeEnqueue
    split
    · exact h.downLane (h.down.enqueue _ _)
    · exact h
  | serverSend =>
    refine onServer_durable h ?_
    unfold serverSend
    split
    · exact h.downLane h.down.flush
    · exact h
  | operationDone result => exact onServer_durable h (h.operationDone result)
  | activate c => exact onServer_durable h (h.activateStep c)
  | serverStop e => exact onServer_durable h (h.served (.returns s _))
  | elsewhere e => exact h.elsewhere e
  | loseUp i =>
    have hsub : ∀ f ∈ s.up.wire.eraseIdx i, f ∈ s.up.wire := fun f hf => (List.eraseIdx_sublist _ _).subset hf
    exact ⟨h.down, ⟨h.up.hand, h.up.queue, fun f hf => h.up.wire f (hsub f hf)⟩, h.memory, h.persists, h.relay,
      fun f hf => h.setup f (hsub f hf), h.waiting, h.server, h.rows, h.unique⟩
  | loseDown i =>
    have hsub : ∀ f ∈ s.down.wire.eraseIdx i, f ∈ s.down.wire := fun f hf => (List.eraseIdx_sublist _ _).subset hf
    exact ⟨⟨h.down.hand, h.down.queue, fun f hf => h.down.wire f (hsub f hf)⟩, h.up, h.memory, h.persists, h.relay, h.setup,
      h.waiting, h.server, h.rows, h.unique⟩
  | enrollAgain d m r recorded =>
    unfold step
    dsimp only
    split_ifs with hexit
    · exact h.enrollAgain hexit d m r recorded
    · exact h
  | reset i t => exact (hreset i t rfl).elim

theorem run_durable {db : Db} (hrows : ∀ b ∈ db.bindings, b.mine = false) (hunique : Unique db.bindings)
    (hkey : state.signingKey = some key) (ops : List Op) (hreset : ∀ i t, .reset i t ∉ ops) :
    Durable K A state key (run K isEd25519 A (init state db) ops) := by
  induction ops using List.reverseRecOn with
  | nil => exact durable_init hrows hunique
  | append_singleton ops o ih =>
    rw [run, Machine.run_snoc]
    refine step_durable (ih fun i t hmem => hreset i t (List.mem_append_left _ hmem)) hkey o fun i t ho => ?_
    rw [ho] at hreset
    exact hreset i t (List.mem_append_right _ List.mem_cons_self)

/-! ## The file answers the row -/

/-- the row of a Machine that is active is the one `binding_key` finds -/
theorem bindingKey_of_mem {rows : List Binding} (h : Unique rows) {b : Binding} (hb : b ∈ rows) (hactive : b.active = true)
    (hlen : b.relayPublicKey.length = 32) : bindingKey rows b.machineId b.relayId b.routeRevision = .ok b.relayPublicKey := by
  have hsymm : Std.Symm fun x y : Binding => x.active = true → y.active = true → x.machineId ≠ y.machineId :=
    ⟨fun x y hxy hy hx heq => hxy hx hy heq.symm⟩
  have hfind : rows.find? (fun c => c.machineId = b.machineId && c.relayId = b.relayId && c.routeRevision = b.routeRevision &&
      c.active) = some b := by
    cases hf : rows.find? (fun c => c.machineId = b.machineId && c.relayId = b.relayId && c.routeRevision = b.routeRevision &&
        c.active) with
    | none =>
      rw [List.find?_eq_none] at hf
      have := hf b hb
      simp [hactive] at this
    | some c =>
      have hc := List.find?_some hf
      simp only [Bool.and_eq_true, decide_eq_true_eq] at hc
      by_contra hne
      exact h.forall (List.mem_of_find?_eq_some hf) hb (fun heq => hne (by rw [heq])) hc.2 hactive hc.1.1.1
  rw [bindingKey, hfind]
  exact if_pos hlen

theorem decodeSignature_encode {b : List UInt8} (h : b.length = 64) : decodeSignature (Base64Url.encode b) = some b := by
  rw [decodeSignature, Base64Url.decode_encode]
  exact if_pos h

/-- a file that loads has a signing key of 32 bytes -/
theorem load_key {f : Option (File RelayState)} (h : load f = some state) :
    ∃ key, state.signingKey = some key ∧ key.length = 32 := by
  unfold load at h
  split at h
  · split_ifs at h with hok
    cases h
    obtain ⟨key, hkey⟩ := Option.isSome_iff_exists.1 hok.2.2
    refine ⟨key, hkey, ?_⟩
    unfold RelayState.signingKey decode32 at hkey
    split at hkey
    · split_ifs at hkey with hlen
      cases hkey
      exact hlen.1
    · cases hkey
  · cases h

/-- the file of the enrollment loads as its state did -/
theorem load_goal (h : load (some ⟨some state, true⟩) = some state) :
    load (some ⟨some (goal A state), true⟩) = some (goal A state) := by
  unfold load at h ⊢
  dsimp only at h ⊢
  split_ifs at h with hok
  exact if_pos hok

/-- **Crash safety.** In every run without `reset`, with crashes of either side, lost frames and disconnects at any point: for an
active row of this enrollment the state file holds, now and after every crash, the same Deployment, Machine, revision and Relay id
and the secret of its public key, and an ordinary tunnel hello built from the file is accepted. -/
theorem enrollment_durable (K : Keys)
    (hK : ∀ sk m, sk.length = 32 → K.isKey (K.verifyingKey sk) = true ∧ (K.sign sk m).length = 64 ∧
      K.verify (K.verifyingKey sk) (K.sign sk m) m = true)
    (isEd25519 : Text → Bool) (A : AcceptedEnrollment) (state : RelayState)
    (hload : load (some ⟨some state, true⟩) = some state) (db : Db) (hrows : ∀ b ∈ db.bindings, b.mine = false)
    (hunique : Unique db.bindings) (ops : List Op) (hreset : ∀ i t, .reset i t ∉ ops) :
    let s := run K isEd25519 A (init state db) ops
    ∀ b ∈ s.db.bindings, b.mine = true → b.active = true →
      ∃ file sk, s.disk.Holds file ∧ load s.disk.entry = some file ∧ file.deploymentId = some A.deploymentId ∧
        file.machineId = some b.machineId ∧ file.routeRevision = some b.routeRevision ∧ file.relayId = b.relayId ∧
        file.signingKey = some sk ∧ K.verifyingKey sk = b.relayPublicKey ∧
        ∀ connectionId nonce, ∃ hello answer, file.hello connectionId = some hello ∧
          file.signs K connectionId nonce = some answer ∧
          admitTunnel K A.deploymentId s.db.bindings nonce hello answer = .ok () := by
  intro s b hb hmine hactive
  obtain ⟨key, hkey, hlen⟩ := load_key hload
  have h : Durable K A state key s := run_durable hrows hunique hkey ops hreset
  obtain ⟨hholds, hmachine, hrelay, hpublic, hroute, hlen32⟩ := h.rows b hb hmine
  have hfind := bindingKey_of_mem h.unique hb hactive hlen32
  rw [hmachine, hrelay, hroute, hpublic] at hfind
  refine ⟨goal A state, key, hholds, ?_, rfl, ?_, ?_, hrelay.symm, hkey, hpublic.symm, fun connectionId nonce => ?_⟩
  · rw [hholds.entry]
    exact load_goal hload
  · rw [hmachine]
    rfl
  · rw [hroute]
    rfl
  · obtain ⟨hiskey, hsiglen, hverify⟩ := hK key (signatureMessage .tunnel A.deploymentId A.machineId state.relayId
      (some connectionId) A.routeRevision nonce) hlen
    refine ⟨.tunnelHello version A.deploymentId A.machineId state.relayId connectionId A.routeRevision,
      .signature (Base64Url.encode (K.sign key (signatureMessage .tunnel A.deploymentId A.machineId state.relayId
        (some connectionId) A.routeRevision nonce))), rfl, ?_, ?_⟩
    · show (match state.signingKey, some A.deploymentId, some A.machineId, some A.routeRevision with
        | some key, some d, some m, some r =>
          some (ClientFrame.signature (Base64Url.encode (K.sign key
            (signatureMessage .tunnel d m state.relayId (some connectionId) r nonce))))
        | _, _, _, _ => none) = _
      rw [hkey]
    · simp only [admitTunnel, if_true, hfind, decodeSignature_encode hsiglen, verifySignature, hiskey, Bool.not_true,
        Bool.false_eq_true, if_false, hverify]

/-- the activation is committed, its answer is lost, the power of the Relay fails, and the operator tries to enroll again -/
def strandedOps : List Op :=
  dialogueOps ++ [.activate .committed, .loseDown 0, .relayCrash (.power false), .enrollAgain 8 9 1 true]

theorem enrollment_durable_stranded :
    ∃ b ∈ (run plainKeys (fun _ => true) newMachine (init freshState newRows) strandedOps).db.bindings, b.relayId = 4 ∧
      ∃ file sk, (run plainKeys (fun _ => true) newMachine (init freshState newRows) strandedOps).disk.Holds file ∧
        file.relayId = 4 ∧ file.signingKey = some sk ∧ plainKeys.verifyingKey sk = b.relayPublicKey := by
  have hrow : (run plainKeys (fun _ => true) newMachine (init freshState newRows) strandedOps).db.bindings =
      [⟨2, 4, List.replicate 32 7, 1, true, true⟩] := by decide +kernel
  have hmem : (⟨2, 4, List.replicate 32 7, 1, true, true⟩ : Binding) ∈
      (run plainKeys (fun _ => true) newMachine (init freshState newRows) strandedOps).db.bindings := by
    rw [hrow]
    exact List.mem_cons_self
  obtain ⟨file, sk, h1, -, -, -, -, h2, h3, h4, -⟩ := enrollment_durable plainKeys
    (fun sk m _ => ⟨rfl, by simp [plainKeys], by simp [plainKeys]⟩) (fun _ => true) newMachine freshState (by decide +kernel) newRows (by decide)
    List.Pairwise.nil strandedOps (by simp [strandedOps, dialogueOps, handshakeOps]) _ hmem rfl rfl
  exact ⟨_, hmem, rfl, file, sk, h1, h2, h3, h4⟩

end OwlMux.Enrollment
