/-
Server incarnations over one database: the tunnels they claim, run and release (`owlmux-server/src/relay/mod.rs`), the
transitions of a Machine (`owlmux-server/src/api/mod.rs`) and the internal connection that prepares and finishes them on
the owner (`owlmux-server/src/internal.rs`).

- Every incarnation has its own lease (`Lease.St`); time passes for all of them at once. Its row in `server_nodes` is the
  row of that lease until `NodeLease::release` deletes it.
- Every transaction locks the deployment row first, so one at a time is open: `lock`. A client begins it (`begin`:
  deployment and node are validated), executes its statements (`execute`) and sends COMMIT; the database commits it or
  rolls it back, whatever the client has seen of it. The client gets the answer (`reply`) or an error (`lost`), which for a
  COMMIT says nothing about the outcome.
- A tunnel is one `tunnel` task with its `TunnelHandle`; `passes` is the guard of `RouteFence::dispatch` and
  `send_route_frame`.
- A transition is one request to disable, revoke or re-enrol a Machine: its coordinator, the guard (`MachineTransition`)
  on the owner, which is the coordinator's own node or the destination of an internal connection, and the three messages
  of that connection. A message that is sent may be delivered at any later step or never.

A task that is dropped, or whose node has crashed, is one that the schedule never moves again; a crash is a hard fence.
Reads outside transactions see the rows of the moment.
-/
import Mathlib.Tactic
import OwlMux.Lib.Machine
import OwlMux.Deployment.Lease
import OwlMux.Cluster.Database

namespace OwlMux.Cluster

open OwlMux.Relay (Uuid Text RouteIdentity)

/-! ## State -/

/-- the clocks, and the lease settings of each incarnation -/
structure Params where
  /-- `clock_timestamp()` at a real time -/
  db : ℕ → ℤ
  ttlSeconds : Uuid → ℕ
  marginSeconds : Uuid → ℕ
  boot0 : Uuid → ℕ

def Params.cfg (P : Params) (n : Uuid) : Lease.Cfg := ⟨P.ttlSeconds n, P.marginSeconds n, P.boot0 n, P.db⟩

inductive OwnerExitState where
  | transitioning (route : RouteIdentity)
  | releasing (route : RouteIdentity)
deriving DecidableEq, Repr

/-- an incarnation: its lease and its `RegistryState` -/
structure Node where
  config : Config
  lease : Lease.St
  /-- the row in `server_nodes` has been deleted -/
  released : Bool
  /-- `tunnels`: Machine and tunnel, which stands for its handle -/
  tunnels : List (Uuid × ℕ)
  /-- `pending_claims`: Machine, connection and the tunnel whose token it is -/
  pendingClaims : List (Uuid × Uuid × ℕ)
  ownerExits : Uuid → Option OwnerExitState
  /-- handles taken out of `tunnels` that are still to be closed -/
  closing : List ℕ

/-- `TunnelHandle` -/
structure Handle where
  route : RouteIdentity
  dispatchOpen : Bool
  /-- `barrier` is cancelled -/
  barrier : Bool
  /-- `cleanup_complete` is cancelled -/
  cleanupComplete : Bool
deriving DecidableEq, Repr

/-- how far a transaction is, for the client that waits for it -/
inductive Phase where
  | idle
  | began
  | executed
  /-- committed, the reply is on its way -/
  | committed
deriving DecidableEq, Repr

/-- where `tunnel` is, from the verified signature on; `installed`: after `install_reserved` has succeeded -/
inductive Pc where
  | absent
  | reserving
  | claiming (p : Phase)
  | installing
  | running
  | closing (installed : Bool)
  | cleaning
  | releasing (p : Phase) (installed : Bool)
  | cleanedUp (deferred : Bool)
  | unregistering
  | unreserving
  | ended
deriving DecidableEq, Repr

structure Tunnel where
  node : Uuid
  machine : Uuid
  connection : Uuid
  revision : ℤ
  /-- `connection_epoch` of the claim, once its statements have run -/
  epoch : ℤ
  pc : Pc
  handle : Option Handle
  /-- the token of its pending claim is cancelled -/
  completion : Bool
deriving DecidableEq, Repr

/-- where `begin_machine_transition` and `MachineTransition::finish` are -/
inductive GuardPc where
  | idle
  | closing
  | cleaning
  | prepared
  | releasing (p : Phase)
  | finishing
  | done
deriving DecidableEq, Repr

/-- `MachineTransition` with the handle and the pending claims its preparation waits for -/
structure Guard where
  pc : GuardPc
  route : RouteIdentity
  tunnel : ℕ
  pending : List ℕ
  armed : Bool
  /-- the outcome it was told: the argument of `finish` -/
  outcome : Option Bool
deriving DecidableEq, Repr

/-- what an administrator asks for -/
inductive Action where
  | disable
  | revokeRelay
  | reEnroll
deriving DecidableEq, Repr

/-- the lifecycle it leaves the Machine in -/
def Action.lifecycle : Action → Lifecycle
  | .disable | .revokeRelay => .disabled
  | .reEnroll => .pending

inductive Completion where
  | committed
  | aborted
  | indeterminate
deriving DecidableEq, Repr

/-- where `transition_active_machine_protected` is -/
inductive CoPc where
  | absent
  | resolving
  | resolvingNone
  /-- `begin_machine_transition` on the coordinator's own node -/
  | beginning
  /-- `prepare_invalidation` -/
  | preparing
  | committing (expected : OwnerExpectation) (p : Phase)
  | observing (expected : OwnerExpectation)
  | settled (expected : OwnerExpectation) (c : Completion)
  /-- `MachineTransition::finish` on the coordinator's own node -/
  | finishing
  | ended
deriving DecidableEq, Repr

/-- where `accept_owner_connection` and `handle_invalidation` are on the destination -/
inductive DestPc where
  | idle
  | validated
  | accepted
  | beginning
  | waiting
  | finishing
  | ended
deriving DecidableEq, Repr

structure Transition where
  node : Uuid
  machine : Uuid
  lifecycle : Lifecycle
  pc : CoPc
  /-- the owner and its route, as `resolve` found them -/
  owner : Uuid
  route : RouteIdentity
  dest : DestPc
  guard : Guard
  /-- `machine.invalidation.prepare`, `.ready` and `.finish` have been sent -/
  prepare : Bool
  ready : Bool
  finish : Option Bool
deriving DecidableEq, Repr

inductive Client where
  | tunnel (i : ℕ)
  | guard (j : ℕ)
  | coordinator (j : ℕ)
deriving DecidableEq, Repr

/-- who has locked the deployment row: a lease, or a transaction of an incarnation -/
inductive Lock where
  | lease (n : Uuid)
  | txn (client : Option Client) (incarnation : Uuid) (effect : Option Effect)
deriving DecidableEq, Repr

structure St where
  db : Db
  booted : List Uuid
  node : Uuid → Node
  tun : ℕ → Tunnel
  trans : ℕ → Transition
  lock : Option Lock

def noRoute : RouteIdentity := ⟨0, 0, 0⟩

def Node.init (config : Config) : Node :=
  { config := config, lease := Lease.init, released := false, tunnels := [], pendingClaims := [],
    ownerExits := fun _ => none, closing := [] }

def Tunnel.init : Tunnel :=
  { node := 0, machine := 0, connection := 0, revision := 0, epoch := 0, pc := .absent, handle := none, completion := false }

def Guard.init : Guard := { pc := .idle, route := noRoute, tunnel := 0, pending := [], armed := false, outcome := none }

def Transition.init : Transition :=
  { node := 0, machine := 0, lifecycle := .disabled, pc := .absent, owner := 0, route := noRoute, dest := .idle,
    guard := Guard.init, prepare := false, ready := false, finish := none }

/-- an empty deployment -/
def init (config : Config) : St :=
  { db := ⟨config, [], fun _ => none⟩, booted := [], node := fun _ => Node.init config, tun := fun _ => Tunnel.init,
    trans := fun _ => Transition.init, lock := none }

/-! ## Updates -/

namespace St

def setNode (s : St) (n : Uuid) (x : Node) : St := { s with node := Function.update s.node n x }
def setTun (s : St) (i : ℕ) (t : Tunnel) : St := { s with tun := Function.update s.tun i t }
def setTrans (s : St) (j : ℕ) (t : Transition) : St := { s with trans := Function.update s.trans j t }

def goto (s : St) (i : ℕ) (pc : Pc) : St := s.setTun i { s.tun i with pc := pc }
def setGuard (s : St) (j : ℕ) (g : Guard) : St := s.setTrans j { s.trans j with guard := g }
def setCo (s : St) (j : ℕ) (pc : CoPc) : St := s.setTrans j { s.trans j with pc := pc }
def setDest (s : St) (j : ℕ) (pc : DestPc) : St := s.setTrans j { s.trans j with dest := pc }

end St

variable (P : Params)

/-- one step of an incarnation's lease -/
def St.leaseStep (s : St) (n : Uuid) (o : Lease.Op) : St :=
  s.setNode n { s.node n with lease := Lease.step (P.cfg n) (s.node n).lease o }

def St.hardFence (s : St) (n : Uuid) : St := s.leaseStep P n .hardFence

/-- what `NodeLease::check` answers; the call itself is the lease's step `check` -/
def St.checks (s : St) (n : Uuid) (clock : Bool) : Bool :=
  match (Lease.check (P.cfg n) clock (s.node n).lease).1 with
  | .ok () => true
  | .error _ => false

/-- `NodeLease::is_ready` -/
def St.isReady (s : St) (n : Uuid) (clock : Bool) : Bool :=
  (s.node n).lease.dependencyReady && !(s.node n).lease.draining && s.checks P n clock

/-- `server_nodes` -/
def St.rows (s : St) : Nodes := fun n =>
  if n ∉ s.booted ∨ (s.node n).released then none
  else (s.node n).lease.row.map fun r => ⟨r.serving, (s.node n).config.configEpoch, (s.node n).config.serverBuildId, r.leaseUntil⟩

/-- `clock_timestamp()` of a statement of an incarnation -/
def St.clock (s : St) (n : Uuid) : ℤ := P.db (s.node n).lease.now

/-! ## The registry -/

/-- `TunnelHandle::close_dispatch` -/
def Tunnel.closeDispatch (t : Tunnel) : Tunnel :=
  { t with handle := t.handle.map fun h => { h with dispatchOpen := false, barrier := true } }

def St.closeDispatch (s : St) (i : ℕ) : St := s.setTun i (s.tun i).closeDispatch

def Node.tunnel (x : Node) (m : Uuid) : Option ℕ := (x.tunnels.find? fun p => p.1 == m).map Prod.snd

def Node.removeTunnel (x : Node) (m : Uuid) : Node := { x with tunnels := x.tunnels.filter fun p => !(p.1 == m) }

def Node.pending (x : Node) (m c : Uuid) : Bool := x.pendingClaims.any fun p => p.1 == m && p.2.1 == c

/-- `reserve_claim`, with its two readiness checks in one -/
def reserveClaim (s : St) (i : ℕ) (clock : Bool) : St :=
  let t := s.tun i
  let ready := s.isReady P t.node clock
  let x := s.node t.node
  let s := s.leaseStep P t.node (.check clock)
  if !ready || (x.ownerExits t.machine).isSome || (x.tunnel t.machine).isSome || x.pending t.machine t.connection then
    s.goto i .ended
  else
    (s.setNode t.node { s.node t.node with pendingClaims := (t.machine, t.connection, i) :: x.pendingClaims }).goto i (.claiming .idle)

/-- drop a pending claim and cancel its token -/
def St.completePending (s : St) (i : ℕ) : St :=
  let t := s.tun i
  let x := s.node t.node
  (s.setNode t.node
    { x with pendingClaims := x.pendingClaims.filter fun p => !(p.1 == t.machine && p.2.1 == t.connection) }).setTun i
    { t with completion := true }

/-- `install_reserved` -/
def installReserved (s : St) (i : ℕ) (clock : Bool) : St :=
  let t := s.tun i
  let ready := s.isReady P t.node clock
  let x := s.node t.node
  let s := s.leaseStep P t.node (.check clock)
  if !ready || (x.ownerExits t.machine).isSome || (x.tunnel t.machine).isSome || !x.pending t.machine t.connection then
    s.goto i (.closing false)
  else
    let s := s.setNode t.node { s.node t.node with tunnels := (t.machine, i) :: x.tunnels }
    (s.completePending i).goto i .running

/-- `begin_owner_release` -/
def beginOwnerRelease (s : St) (i : ℕ) : St :=
  let t := s.tun i
  let x := s.node t.node
  match t.handle with
  | none => s
  | some h =>
    match x.ownerExits t.machine with
    | some (.transitioning expected) => if expected = h.route then s.goto i (.cleanedUp true) else s.goto i .ended
    | some (.releasing _) => s.goto i .ended
    | none =>
      (s.setNode t.node { x with ownerExits := Function.update x.ownerExits t.machine (some (.releasing h.route)) }).goto i
        (.releasing .idle true)

/-- `finish_owner_release` -/
def finishOwnerRelease (s : St) (i : ℕ) : St :=
  let t := s.tun i
  match t.handle with
  | none => s
  | some h =>
    let x := s.node t.node
    let current := (x.tunnel t.machine).any fun k => (s.tun k).handle.any fun g => g.route == h.route
    let x := if current then x.removeTunnel t.machine else x
    (s.setNode t.node
      { x with
        ownerExits :=
          if x.ownerExits t.machine = some (.releasing h.route) then Function.update x.ownerExits t.machine none
          else x.ownerExits }).goto i .ended

/-- `close_all` takes every handle out of the map, then closes one after the other -/
def closeAll (s : St) (n : Uuid) : St :=
  let x := s.node n
  s.setNode n { x with tunnels := [], closing := x.tunnels.map Prod.snd ++ x.closing }

def closeDrained (s : St) (n : Uuid) (i : ℕ) : St :=
  let x := s.node n
  if i ∈ x.closing then (s.setNode n { x with closing := x.closing.erase i }).closeDispatch i else s

/-! ## Transactions -/

/-- the incarnation a client runs on -/
def St.nodeOf (s : St) : Client → Uuid
  | .tunnel i => (s.tun i).node
  | .guard j => (s.trans j).owner
  | .coordinator j => (s.trans j).node

/-- how far the client's transaction is, if it wants one -/
def St.phase (s : St) : Client → Option Phase
  | .tunnel i =>
    match (s.tun i).pc with
    | .claiming p | .releasing p _ => some p
    | _ => none
  | .guard j =>
    match (s.trans j).guard.pc with
    | .releasing p => some p
    | _ => none
  | .coordinator j =>
    match (s.trans j).pc with
    | .committing _ p => some p
    | _ => none

def St.setPhase (s : St) (x : Client) (p : Phase) : St :=
  match x with
  | .tunnel i =>
    match (s.tun i).pc with
    | .claiming _ => s.goto i (.claiming p)
    | .releasing _ b => s.goto i (.releasing p b)
    | _ => s
  | .guard j =>
    match (s.trans j).guard.pc with
    | .releasing _ => s.setGuard j { (s.trans j).guard with pc := .releasing p }
    | _ => s
  | .coordinator j =>
    match (s.trans j).pc with
    | .committing e _ => s.setCo j (.committing e p)
    | _ => s

/-- a release may be made by a draining node -/
def St.releases (s : St) : Client → Bool
  | .tunnel i =>
    match (s.tun i).pc with
    | .releasing .. => true
    | _ => false
  | .guard _ => true
  | .coordinator _ => false

/-- where `release_owner` of a tunnel returns to -/
def afterRelease (installed : Bool) : Pc := if installed then .cleanedUp false else .unreserving

/-- the task that holds the guard ends -/
def St.endHandler (s : St) (j : ℕ) : St :=
  if (s.trans j).dest = .idle then s.setCo j .ended else s.setDest j .ended

/-- the guard is gone: its node is fenced, explicitly or by `Drop` -/
def St.dropGuard (s : St) (j : ℕ) : St :=
  ((s.hardFence P (s.trans j).owner).setGuard j { (s.trans j).guard with pc := .done, armed := false }).endHandler j

/-- an error before COMMIT, or of a release at any time -/
def St.refused (s : St) (x : Client) : St :=
  match x with
  | .tunnel i =>
    match (s.tun i).pc with
    | .claiming _ => s.goto i .unreserving
    | .releasing _ b => (s.hardFence P (s.tun i).node).goto i (afterRelease b)
    | _ => s
  | .guard j => s.dropGuard P j
  | .coordinator j =>
    match (s.trans j).pc with
    | .committing e _ => s.setCo j (.settled e .aborted)
    | _ => s

/-- an error of COMMIT -/
def St.ambiguous (s : St) (x : Client) : St :=
  match x with
  | .tunnel i =>
    match (s.tun i).pc with
    | .claiming _ => (s.hardFence P (s.tun i).node).goto i .unreserving
    | _ => s.refused P x
  | .guard _ => s.refused P x
  | .coordinator j =>
    match (s.trans j).pc with
    | .committing e _ => s.setCo j (.observing e)
    | _ => s

/-- `Ok` of a claim, a release or a transition; the claim makes the handle -/
def St.succeeded (s : St) (x : Client) : St :=
  match x with
  | .tunnel i =>
    let t := s.tun i
    match t.pc with
    | .claiming _ =>
      s.setTun i { t with handle := some ⟨⟨t.revision, t.epoch, t.connection⟩, true, false, false⟩, pc := .installing }
    | .releasing _ b => s.goto i (afterRelease b)
    | _ => s
  | .guard j => s.setGuard j { (s.trans j).guard with pc := .finishing }
  | .coordinator j =>
    match (s.trans j).pc with
    | .committing e _ => s.setCo j (.settled e .committed)
    | _ => s

/-- the deployment row is locked and configuration and node are validated -/
def begin (s : St) (x : Client) (clock : Bool) : St :=
  if s.phase x ≠ some .idle ∨ s.lock ≠ none then s
  else
    let n := s.nodeOf x
    let config := (s.node n).config
    let ok := s.checks P n clock
    let valid := decide (s.db.deployment = config) && validateNode s.rows (s.clock P n) config (s.releases x) n
    let s := s.leaseStep P n (.check clock)
    if ok && valid then { s.setPhase x .began with lock := some (.txn (some x) n none) }
    else s.refused P x

/-- what the statements of a client do on its incarnation, or their error -/
def St.statement (s : St) (n : Uuid) : Client → Option Effect
  | .tunnel i =>
    let t := s.tun i
    match t.pc with
    | .claiming _ =>
      match claimOwner s.db s.rows (s.clock P n) t.machine t.revision with
      | .ok epoch => some (.claim t.machine epoch n t.connection t.revision)
      | .error _ => none
    | _ =>
      match releaseOwner s.db t.machine n t.connection t.epoch with
      | .ok () => some (.release t.machine)
      | .error _ => none
  | .guard j =>
    let t := s.trans j
    match releaseOwner s.db t.machine n t.guard.route.connectionId t.guard.route.connectionEpoch with
    | .ok () => some (.release t.machine)
    | .error _ => none
  | .coordinator j =>
    let t := s.trans j
    match t.pc with
    | .committing expected _ =>
      match commitTransition s.db s.rows (s.clock P n) (s.node n).config t.machine expected with
      | .ok revision => some (.transition t.machine t.lifecycle revision)
      | .error _ => none
    | _ => none

/-- the epoch a claim has computed -/
def St.noteEpoch (s : St) (x : Client) (e : Effect) : St :=
  match x, e with
  | .tunnel i, .claim _ epoch _ _ _ => s.setTun i { s.tun i with epoch := epoch }
  | _, _ => s

def execute (s : St) (x : Client) : St :=
  match s.lock with
  | some (.txn (some y) n none) =>
    if y = x ∧ s.phase x = some .began then
      match s.statement P n x with
      | some e => { (s.noteEpoch x e).setPhase x .executed with lock := some (.txn (some x) n (some e)) }
      | none => { s with lock := none }.refused P x
    else s
  | _ => s

/-- the connection fails before COMMIT is sent -/
def fail (s : St) (x : Client) : St :=
  if s.phase x = some .idle ∨ s.phase x = some .began then
    match s.lock with
    | some (.txn (some y) _ none) => if y = x then { s with lock := none }.refused P x else s.refused P x
    | _ => s.refused P x
  else s

/-- the rows after the commit of an effect -/
def St.apply (s : St) (e : Effect) : St :=
  let s := { s with db := e.apply s.db, lock := none }
  match e with
  | .deleteNode n => s.setNode n { s.node n with released := true }
  | _ => s

/-- the database commits the open transaction -/
def commit (s : St) : St :=
  match s.lock with
  | some (.txn client _ (some e)) =>
    let s := s.apply e
    match client with
    | some x => if s.phase x = some .executed then s.setPhase x .committed else s
    | none => s
  | _ => s

/-- the database gives the open transaction up -/
def rollback (s : St) : St :=
  match s.lock with
  | some (.txn ..) => { s with lock := none }
  | _ => s

def reply (s : St) (x : Client) : St := if s.phase x = some .committed then s.succeeded x else s

/-- nobody waits for the open transaction any more -/
def St.disown (s : St) (x : Client) : St :=
  match s.lock with
  | some (.txn (some y) n e) => if y = x then { s with lock := some (.txn none n e) } else s
  | _ => s

def lost (s : St) (x : Client) : St :=
  if s.phase x = some .executed ∨ s.phase x = some .committed then (s.disown x).ambiguous P x else s

/-! ## Transitions of a Machine -/

/-- `resolve` up to its first statement; an owner elsewhere is reached only in a clustered deployment -/
def resolve (s : St) (j : ℕ) (clock : Bool) : St :=
  let t := s.trans j
  if t.pc ≠ .resolving then s
  else
    let ok := s.checks P t.node clock
    let found := resolveOwner s.db s.rows (s.clock P t.node) (s.node t.node).config t.machine
    let s := s.leaseStep P t.node (.check clock)
    if !ok then s.setCo j .ended
    else
      match found with
      | none => s.setCo j .resolvingNone
      | some (owner, route) =>
        if owner = t.node then s.setTrans j { t with owner := owner, route := route, pc := .beginning }
        else if (s.node t.node).config.clustered then s.setTrans j { t with owner := owner, route := route, pc := .preparing }
        else s.setCo j .ended

/-- its second statement -/
def resolveNone (s : St) (j : ℕ) (clock : Bool) : St :=
  let t := s.trans j
  if t.pc ≠ .resolvingNone then s
  else
    let ok := s.checks P t.node clock
    let found := resolveNoOwner s.db s.rows (s.clock P t.node) (s.node t.node).config t.machine
    let s := s.leaseStep P t.node (.check clock)
    match ok, found with
    | true, some revision => s.setCo j (.committing (.noValidOwner revision) .idle)
    | _, _ => s.setCo j .ended

/-- `accept_owner_connection` up to `validate_context` -/
def accept (s : St) (j : ℕ) (clock : Bool) : St :=
  let t := s.trans j
  if t.pc ≠ .preparing ∨ t.dest ≠ .idle then s
  else
    let ok := s.checks P t.owner clock
    let valid := validateContext s.db s.rows (s.clock P t.owner) (s.node t.owner).config t.node t.owner t.machine
      t.route.routeRevision t.route.connectionEpoch
    let s := s.leaseStep P t.owner (.check clock)
    s.setDest j (if ok && valid then .validated else .ended)

/-- `resolve_current_route` -/
def acceptRoute (s : St) (j : ℕ) (clock : Bool) : St :=
  let t := s.trans j
  if t.dest ≠ .validated then s
  else
    let ready := s.isReady P t.owner clock
    match resolveConnectionId s.db t.owner t.machine t.route.routeRevision t.route.connectionEpoch with
    | none => s.setDest j .ended
    | some c =>
      let route : RouteIdentity := ⟨t.route.routeRevision, t.route.connectionEpoch, c⟩
      let current := ((s.node t.owner).tunnel t.machine).any fun k =>
        (s.tun k).handle.any fun h => decide (h.route = route) && !h.barrier
      let s := s.leaseStep P t.owner (.check clock)
      if ready && current then s.setTrans j { t with dest := .accepted, guard := { t.guard with route := route } }
      else s.setDest j .ended

def sendPrepare (s : St) (j : ℕ) : St :=
  let t := s.trans j
  if t.pc = .preparing ∧ t.dest = .accepted then s.setTrans j { t with prepare := true } else s

def receivePrepare (s : St) (j : ℕ) : St :=
  let t := s.trans j
  if t.dest = .accepted ∧ t.prepare then s.setDest j .beginning else s

/-- `begin_machine_transition` up to its first await -/
def beginTransition (s : St) (j : ℕ) : St :=
  let t := s.trans j
  if ¬ ((t.pc = .beginning ∧ t.dest = .idle ∨ t.dest = .beginning) ∧ t.guard.pc = .idle) then s
  else
    let expected := if t.dest = .idle then t.route else t.guard.route
    let x := s.node t.owner
    match x.tunnel t.machine with
    | none => s.endHandler j
    | some k =>
      if (s.tun k).handle.map Handle.route = some expected ∧ x.ownerExits t.machine = none then
        (s.setNode t.owner
          { x.removeTunnel t.machine with
            ownerExits := Function.update x.ownerExits t.machine (some (.transitioning expected)) }).setGuard j
          { pc := .closing, route := expected, tunnel := k, armed := true, outcome := none
            pending := (x.pendingClaims.filter fun p => p.1 == t.machine).map fun p => p.2.2 }
      else s.endHandler j

def closeBarrier (s : St) (j : ℕ) : St :=
  let g := (s.trans j).guard
  if g.pc = .closing then (s.closeDispatch g.tunnel).setGuard j { g with pc := .cleaning } else s

/-- the tunnel's cleanup and the pending claims are complete -/
def prepared (s : St) (j : ℕ) (clock : Bool) : St :=
  let t := s.trans j
  let g := t.guard
  if g.pc = .cleaning ∧ (s.tun g.tunnel).handle.any Handle.cleanupComplete ∧ g.pending.all fun k => (s.tun k).completion then
    let ok := s.checks P t.owner clock
    let s := s.leaseStep P t.owner (.check clock)
    if !ok then s.dropGuard P j
    else if t.dest = .idle then
      s.setTrans j { t with guard := { g with pc := .prepared }, pc := .committing (.exact t.owner t.route) .idle }
    else s.setGuard j { g with pc := .prepared }
  else s

def sendReady (s : St) (j : ℕ) : St :=
  let t := s.trans j
  if t.dest = .beginning ∧ t.guard.pc = .prepared then s.setTrans j { t with ready := true, dest := .waiting } else s

def receiveReady (s : St) (j : ℕ) : St :=
  let t := s.trans j
  if t.pc = .preparing ∧ t.ready then s.setCo j (.committing (.exact t.owner t.route) .idle) else s

def Observation.completion : Observation → Completion
  | .committed => .committed
  | .aborted => .aborted
  | .indeterminate => .indeterminate

/-- `observe_machine_transition`; `answered`: the query returns in time -/
def observe (s : St) (j : ℕ) (clock answered : Bool) : St :=
  let t := s.trans j
  match t.pc with
  | .observing e =>
    let ok := s.checks P t.node clock
    let seen := observeTransition s.db s.rows (s.clock P t.node) (s.node t.node).config t.machine t.lifecycle e
    let s := s.leaseStep P t.node (.check clock)
    s.setCo j (.settled e (if ok && answered then seen.completion else .indeterminate))
  | _ => s

/-- `MachineTransition::finish` is called -/
def St.tellGuard (s : St) (j : ℕ) (committed : Bool) : St :=
  if (s.trans j).guard.pc = .prepared then
    s.setGuard j
      { (s.trans j).guard with
        outcome := some committed
        pc := if committed then .finishing else .releasing .idle }
  else s

/-- the end of `transition_active_machine_protected` -/
def conclude (s : St) (j : ℕ) : St :=
  let t := s.trans j
  match t.pc with
  | .settled (.noValidOwner _) _ => s.setCo j .ended
  | .settled (.exact ..) .indeterminate => if t.dest = .idle then s.dropGuard P j else s.setCo j .ended
  | .settled (.exact ..) c =>
    let committed := decide (c = .committed)
    if t.dest = .idle then (s.tellGuard j committed).setCo j .finishing
    else s.setTrans j { t with finish := some committed, pc := .ended }
  | _ => s

def receiveFinish (s : St) (j : ℕ) : St :=
  let t := s.trans j
  match t.dest, t.finish with
  | .waiting, some committed => (s.tellGuard j committed).setDest j .finishing
  | _, _ => s

/-- `finish_machine_transition` -/
def finishTransition (s : St) (j : ℕ) : St :=
  let t := s.trans j
  if t.guard.pc ≠ .finishing then s
  else
    let x := s.node t.owner
    ((s.setNode t.owner
      { x.removeTunnel t.machine with
        closing := (x.tunnel t.machine).toList ++ x.closing
        ownerExits :=
          if x.ownerExits t.machine = some (.transitioning t.guard.route) then Function.update x.ownerExits t.machine none
          else x.ownerExits }).setGuard j { t.guard with pc := .done, armed := false }).endHandler j

/-! ## Steps -/

/-- a step of an incarnation's lease; its transactions lock the deployment row and check the configuration -/
def leaseOp (s : St) (n : Uuid) (o : Lease.Op) : St :=
  if n ∉ s.booted then s
  else
    match o with
    | .tick _ => s
    | .execute | .drainExecute =>
      if s.lock ≠ none then s
      else if s.db.deployment ≠ (s.node n).config then s.leaseStep P n (if o = .execute then .fail else .drainFail)
      else
        let s := s.leaseStep P n o
        if (s.node n).lease.lock.isSome then { s with lock := some (.lease n) } else s
    | .commit | .rollback =>
      let s := s.leaseStep P n o
      if s.lock = some (.lease n) then { s with lock := none } else s
    | o => s.leaseStep P n o

/-- DELETE of `NodeLease::release`; the node is fenced whatever becomes of it -/
def releaseNode (s : St) (n : Uuid) : St :=
  if n ∉ s.booted ∨ s.lock ≠ none then s
  else if s.db.deployment = (s.node n).config ∧ (s.rows n).any (fun row => !row.serving) ∧
      s.db.machines.all (fun m => (s.db.machine m).all fun row => decide (row.owners.owner.map Prod.fst ≠ some n)) then
    { s with lock := some (.txn none n (some (.deleteNode n))) }
  else s.hardFence P n

inductive Op where
  | tick (d : ℕ)
  | boot (n : Uuid) (config : Config)
  | configure (n : Uuid)
  | lease (n : Uuid) (o : Lease.Op)
  | releaseNode (n : Uuid)
  | createMachine (m : Uuid)
  | acceptToken (m : Uuid)
  | activate (m : Uuid) (hostIdentity : Text)
  | failAttempt (m : Uuid)
  | reEnroll (m : Uuid)
  /-- a tunnel has verified its Relay -/
  | tunnel (i : ℕ) (n m c : Uuid) (revision : ℤ)
  | reserveClaim (i : ℕ) (clock : Bool)
  | installReserved (i : ℕ) (clock : Bool)
  /-- `run_tunnel` returns -/
  | runEnds (i : ℕ)
  | closeDispatch (i : ℕ)
  | beginOwnerRelease (i : ℕ)
  | cleanupComplete (i : ℕ)
  | finishOwnerRelease (i : ℕ)
  | finishPending (i : ℕ)
  | closeAll (n : Uuid)
  | closeDrained (n : Uuid) (i : ℕ)
  | begin (x : Client) (clock : Bool)
  | execute (x : Client)
  | fail (x : Client)
  | commit
  | rollback
  | reply (x : Client)
  | lost (x : Client)
  /-- a request to disable, revoke or re-enrol an active Machine -/
  | request (j : ℕ) (n m : Uuid) (action : Action)
  | resolve (j : ℕ) (clock : Bool)
  | resolveNone (j : ℕ) (clock : Bool)
  | accept (j : ℕ) (clock : Bool)
  | acceptRoute (j : ℕ) (clock : Bool)
  | sendPrepare (j : ℕ)
  | receivePrepare (j : ℕ)
  | beginTransition (j : ℕ)
  | closeBarrier (j : ℕ)
  | prepared (j : ℕ) (clock : Bool)
  | sendReady (j : ℕ)
  | receiveReady (j : ℕ)
  | observe (j : ℕ) (clock answered : Bool)
  | conclude (j : ℕ)
  | receiveFinish (j : ℕ)
  | finishTransition (j : ℕ)
  /-- the coordinator gives up before anything is prepared -/
  | giveUp (j : ℕ)
  /-- the destination gives up before anything is prepared -/
  | hangUp (j : ℕ)
  /-- an armed guard is dropped: a timeout, a lost connection, a wrong message, a cancelled task -/
  | abandon (j : ℕ)
deriving DecidableEq, Repr

/-- a transaction that touches neither owners nor revisions, in one step -/
def St.write (s : St) (m : Uuid) (f : MachineRow → MachineRow) : St :=
  if s.lock ≠ none then s else { s with db := s.db.modify m f }

def step (s : St) : Op → St
  | .tick d => { s with node := fun n => { s.node n with lease := Lease.step (P.cfg n) (s.node n).lease (.tick d) } }
  | .boot n config => if n ∈ s.booted then s else { s.setNode n { s.node n with config := config } with booted := n :: s.booted }
  | .configure n =>
    if n ∉ s.booted ∨ s.lock ≠ none then s
    else
      match configure s.db s.rows (s.clock P n) s.booted (s.node n).config with
      | some config => { s with lock := some (.txn none n (some (.configure config))) }
      | none => s
  | .lease n o => leaseOp P s n o
  | .releaseNode n => releaseNode P s n
  | .createMachine m => if s.lock ≠ none then s else { s with db := createMachine s.db m }
  | .acceptToken m => s.write m MachineRow.acceptToken
  | .activate m host => s.write m (MachineRow.activate host)
  | .failAttempt m => s.write m MachineRow.failAttempt
  | .reEnroll m => s.write m MachineRow.reEnroll
  | .tunnel i n m c revision =>
    if (s.tun i).pc = .absent ∧ n ∈ s.booted then
      s.setTun i { Tunnel.init with node := n, machine := m, connection := c, revision := revision, pc := .reserving }
    else s
  | .reserveClaim i clock => if (s.tun i).pc = .reserving then reserveClaim P s i clock else s
  | .installReserved i clock => if (s.tun i).pc = .installing then installReserved P s i clock else s
  | .runEnds i => if (s.tun i).pc = .running then s.goto i (.closing true) else s
  | .closeDispatch i =>
    match (s.tun i).pc with
    | .closing b => (s.closeDispatch i).goto i (if b then .cleaning else .releasing .idle false)
    | _ => s
  | .beginOwnerRelease i => if (s.tun i).pc = .cleaning then beginOwnerRelease s i else s
  | .cleanupComplete i =>
    match (s.tun i).pc with
    | .cleanedUp deferred =>
      s.setTun i
        { s.tun i with
          handle := (s.tun i).handle.map fun h => { h with cleanupComplete := true }
          pc := if deferred then .ended else .unregistering }
    | _ => s
  | .finishOwnerRelease i => if (s.tun i).pc = .unregistering then finishOwnerRelease s i else s
  | .finishPending i => if (s.tun i).pc = .unreserving then (s.completePending i).goto i .ended else s
  | .closeAll n => closeAll s n
  | .closeDrained n i => closeDrained s n i
  | .begin x clock => begin P s x clock
  | .execute x => execute P s x
  | .fail x => fail P s x
  | .commit => commit s
  | .rollback => rollback s
  | .reply x => reply s x
  | .lost x => lost P s x
  | .request j n m action =>
    if (s.trans j).pc = .absent ∧ n ∈ s.booted then
      s.setTrans j { Transition.init with node := n, machine := m, lifecycle := action.lifecycle, pc := .resolving }
    else s
  | .resolve j clock => resolve P s j clock
  | .resolveNone j clock => resolveNone P s j clock
  | .accept j clock => accept P s j clock
  | .acceptRoute j clock => acceptRoute P s j clock
  | .sendPrepare j => sendPrepare s j
  | .receivePrepare j => receivePrepare s j
  | .beginTransition j => beginTransition s j
  | .closeBarrier j => closeBarrier s j
  | .prepared j clock => prepared P s j clock
  | .sendReady j => sendReady s j
  | .receiveReady j => receiveReady s j
  | .observe j clock answered => observe P s j clock answered
  | .conclude j => conclude P s j
  | .receiveFinish j => receiveFinish s j
  | .finishTransition j => finishTransition s j
  | .giveUp j =>
    match (s.trans j).pc with
    | .resolving | .resolvingNone | .preparing => s.setCo j .ended
    | _ => s
  | .hangUp j =>
    match (s.trans j).dest with
    | .validated | .accepted => s.setDest j .ended
    | _ => s
  | .abandon j => if (s.trans j).guard.armed then s.dropGuard P j else s

def run (s : St) (ops : List Op) : St := Machine.run (step P) s ops

/-- the guard of `RouteFence::dispatch` and of `send_route_frame` -/
def passes (s : St) (i : ℕ) (clock : Bool) : Bool :=
  ((s.tun i).handle.any fun h => h.dispatchOpen && !h.barrier) && s.checks P (s.tun i).node clock

end OwlMux.Cluster
