/-
The rows that decide who owns a Machine, and the statements that read and write them: `claim_owner` and `release_owner`
(`owlmux-server/src/relay/mod.rs`), `commit_active_machine_transition` and `observe_machine_transition`
(`owlmux-server/src/api/mod.rs`), `resolve` (`owlmux-server/src/owner.rs`), `initialize_or_validate`
(`owlmux-server/src/storage.rs`).

- `MachineRow`: the rows of one Machine in `machines`, `machine_owners` and `relay_bindings`;
- `NodeRow`: a row of `server_nodes`; states other than serving and draining do not exist;
- every statement is a function of the rows and of `clock_timestamp()`. One that writes returns an `Effect`, which the
  commit of its transaction applies.

`machine_owners` has both of incarnation and connection or neither (CHECK), `relay_bindings` at most one active row for a
Machine (unique index), and a node that owns a Machine cannot be deleted (ON DELETE RESTRICT).
-/
import Mathlib.Tactic
import OwlMux.Relay.Tunnel

namespace OwlMux.Cluster

open OwlMux.Relay (Uuid Text RouteIdentity RelayError)

def i64Max : ℤ := 2 ^ 63 - 1

/-- `checked_add(1)` -/
def checkedSucc (n : ℤ) : Option ℤ := if n + 1 ≤ i64Max then some (n + 1) else none

/-! ## Rows -/

/-- what a Server is configured with and the `deployment` row holds -/
structure Config where
  configEpoch : ℤ
  serverBuildId : Text
  /-- profile = 'clustered'; otherwise 'single_node' -/
  clustered : Bool
  configProof : Option Text
deriving DecidableEq, Repr

structure NodeRow where
  /-- state = 'serving'; otherwise 'draining' -/
  serving : Bool
  configEpoch : ℤ
  serverBuildId : Text
  leaseUntil : ℤ
deriving DecidableEq, Repr

inductive Lifecycle where
  | pending
  | verifying
  | active
  | disabled
deriving DecidableEq, Repr

/-- `machine_owners`; `owner` is owner_incarnation_id with relay_connection_id -/
structure OwnerRow where
  connectionEpoch : ℤ
  owner : Option (Uuid × Uuid)
  routeRevision : ℤ
deriving DecidableEq, Repr

structure MachineRow where
  lifecycle : Lifecycle
  routeRevision : ℤ
  hostIdentity : Option Text
  /-- route_revision of the active row of `relay_bindings` -/
  activeBinding : Option ℤ
  /-- route_revision of the revoked ones -/
  revokedBindings : List ℤ
  owners : OwnerRow
deriving DecidableEq, Repr

structure Db where
  deployment : Config
  machines : List Uuid
  machine : Uuid → Option MachineRow

/-- `server_nodes`, as the statements see it -/
abbrev Nodes := Uuid → Option NodeRow

def Db.set (db : Db) (m : Uuid) (row : MachineRow) : Db := { db with machine := Function.update db.machine m (some row) }

/-! ## Effects -/

/-- what an open transaction will do -/
inductive Effect where
  | claim (machine : Uuid) (connectionEpoch : ℤ) (incarnation connection : Uuid) (routeRevision : ℤ)
  | release (machine : Uuid)
  | transition (machine : Uuid) (lifecycle : Lifecycle) (routeRevision : ℤ)
  | configure (config : Config)
  | deleteNode (incarnation : Uuid)
deriving DecidableEq, Repr

/-- UPDATE of `machine_owners` and `machines` in `claim_owner` -/
def MachineRow.claim (row : MachineRow) (epoch : ℤ) (n c : Uuid) (revision : ℤ) : MachineRow :=
  { row with
    owners := { row.owners with connectionEpoch := epoch, owner := some (n, c) }
    lifecycle := if row.lifecycle = .verifying ∧ row.routeRevision = revision then .active else row.lifecycle }

/-- UPDATE of `release_owner` -/
def MachineRow.release (row : MachineRow) : MachineRow := { row with owners := { row.owners with owner := none } }

/-- UPDATEs of `commit_active_machine_transition`; the revision is the Machine's before it -/
def MachineRow.transition (row : MachineRow) (lifecycle : Lifecycle) (revision : ℤ) : MachineRow :=
  { row with
    lifecycle := lifecycle
    routeRevision := revision + 1
    activeBinding := none
    revokedBindings := revision :: row.revokedBindings
    owners := { row.owners with owner := none, routeRevision := revision + 1 } }

def Db.modify (db : Db) (m : Uuid) (f : MachineRow → MachineRow) : Db :=
  match db.machine m with
  | some row => db.set m (f row)
  | none => db

/-- the rows after a commit; `deleteNode` is about `server_nodes` -/
def Effect.apply (db : Db) : Effect → Db
  | .claim m epoch n c revision => db.modify m fun row => row.claim epoch n c revision
  | .release m => db.modify m MachineRow.release
  | .transition m lifecycle revision => db.modify m fun row => row.transition lifecycle revision
  | .configure config => { db with deployment := config }
  | .deleteNode _ => db

/-! ## Predicates on nodes -/

/-- `EXISTS(.. n.state IN ('serving', 'draining') AND n.lease_until > clock_timestamp())` -/
def NodeRow.valid (row : NodeRow) (clock : ℤ) : Bool := decide (clock < row.leaseUntil)

/-- the same with `n.config_epoch` and `n.server_build_id` compared to the statement's own -/
def NodeRow.validFor (row : NodeRow) (clock : ℤ) (config : Config) : Bool :=
  row.valid clock && decide (row.configEpoch = config.configEpoch) && decide (row.serverBuildId = config.serverBuildId)

/-- `validate_node` and `lock_current_deployment`; `validate_releasing_node` also takes a draining node -/
def validateNode (nodes : Nodes) (clock : ℤ) (config : Config) (releasing : Bool) (n : Uuid) : Bool :=
  (nodes n).any fun row => row.validFor clock config && (row.serving || releasing)

/-- `owner_valid` of `claim_owner`, which compares no configuration -/
def ownerValid (nodes : Nodes) (clock : ℤ) (o : OwnerRow) : Bool :=
  o.owner.any fun p => (nodes p.1).any fun row => row.valid clock

/-- `owner_valid` of the other statements -/
def ownerValidFor (nodes : Nodes) (clock : ℤ) (config : Config) (o : OwnerRow) : Bool :=
  o.owner.any fun p => (nodes p.1).any fun row => row.validFor clock config

/-! ## Statements of the tunnels -/

/-- `claim_owner` after its validation: the epoch of the claim -/
def claimOwner (db : Db) (nodes : Nodes) (clock : ℤ) (m : Uuid) (revision : ℤ) : Except RelayError ℤ :=
  match db.machine m with
  | none => .error .invalidState
  | some row =>
    if row.owners.routeRevision = revision ∧ (row.lifecycle = .verifying ∨ row.lifecycle = .active) ∧
        row.hostIdentity.isSome ∧ row.routeRevision = revision ∧ row.activeBinding = some revision then
      if ownerValid nodes clock row.owners then .error .ownerConflict
      else (checkedSucc row.owners.connectionEpoch).elim (.error .invalidState) .ok
    else .error .invalidState

/-- `release_owner` after its validation: exactly one row must match -/
def releaseOwner (db : Db) (m n c : Uuid) (epoch : ℤ) : Except RelayError Unit :=
  match db.machine m with
  | none => .error .fenced
  | some row => if row.owners.owner = some (n, c) ∧ row.owners.connectionEpoch = epoch then .ok () else .error .fenced

/-! ## Statements of the transitions -/

inductive OwnerExpectation where
  | exact (incarnation : Uuid) (route : RouteIdentity)
  | noValidOwner (routeRevision : ℤ)
deriving DecidableEq, Repr

def OwnerExpectation.routeRevision : OwnerExpectation → ℤ
  | .exact _ route => route.routeRevision
  | .noValidOwner revision => revision

/-- errors of `commit_active_machine_transition` before its COMMIT -/
inductive ApiError where
  | conflict
  | temporarilyUnavailable
  | internal
deriving DecidableEq, Repr

def OwnerExpectation.holds (e : OwnerExpectation) (nodes : Nodes) (clock : ℤ) (config : Config) (o : OwnerRow) : Bool :=
  match e with
  | .exact n route => decide (o.owner = some (n, route.connectionId)) && decide (o.connectionEpoch = route.connectionEpoch)
  | .noValidOwner _ => !ownerValidFor nodes clock config o

/-- `commit_active_machine_transition` after its validation: the revision it starts from -/
def commitTransition (db : Db) (nodes : Nodes) (clock : ℤ) (config : Config) (m : Uuid) (expected : OwnerExpectation) :
    Except ApiError ℤ :=
  match db.machine m with
  | none => .error .conflict
  | some row =>
    if row.lifecycle ≠ .active then .error .conflict
    else if row.routeRevision ≠ expected.routeRevision then .error .temporarilyUnavailable
    else if ¬ (row.owners.routeRevision = row.routeRevision ∧ expected.holds nodes clock config row.owners) then
      .error .temporarilyUnavailable
    else if (checkedSucc row.routeRevision).isNone ∨ row.activeBinding ≠ some row.routeRevision then .error .internal
    else .ok row.routeRevision

inductive Observation where
  | committed
  | aborted
  | indeterminate
deriving DecidableEq, Repr

/-- `observe_machine_transition`, between its lease checks -/
def observeTransition (db : Db) (nodes : Nodes) (clock : ℤ) (config : Config) (m : Uuid) (lifecycle : Lifecycle)
    (expected : OwnerExpectation) : Observation :=
  match db.machine m, checkedSucc expected.routeRevision with
  | some row, some next =>
    if row.lifecycle = lifecycle ∧ row.routeRevision = next ∧ row.owners.routeRevision = next ∧ row.owners.owner = none ∧
        expected.routeRevision ∈ row.revokedBindings then .committed
    else if row.lifecycle = .active ∧ row.routeRevision = expected.routeRevision ∧
        row.owners.routeRevision = expected.routeRevision ∧ row.activeBinding = some expected.routeRevision ∧
        expected.holds nodes clock config row.owners then .aborted
    else .indeterminate
  | _, _ => .indeterminate

/-- the first statement of `resolve`: the owner and its route -/
def resolveOwner (db : Db) (nodes : Nodes) (clock : ℤ) (config : Config) (m : Uuid) : Option (Uuid × RouteIdentity) :=
  match db.machine m with
  | none => none
  | some row =>
    if row.lifecycle = .active ∧ row.activeBinding = some row.routeRevision ∧ row.owners.routeRevision = row.routeRevision ∧
        0 < row.owners.connectionEpoch ∧ ownerValidFor nodes clock config row.owners then
      row.owners.owner.map fun p => (p.1, ⟨row.routeRevision, row.owners.connectionEpoch, p.2⟩)
    else none

/-- its second statement, made when the first finds no row -/
def resolveNoOwner (db : Db) (nodes : Nodes) (clock : ℤ) (config : Config) (m : Uuid) : Option ℤ :=
  match db.machine m with
  | none => none
  | some row =>
    if row.lifecycle = .active ∧ row.activeBinding = some row.routeRevision ∧ row.owners.routeRevision = row.routeRevision ∧
        !ownerValidFor nodes clock config row.owners then some row.routeRevision
    else none

/-- `validate_context` of the destination -/
def validateContext (db : Db) (nodes : Nodes) (clock : ℤ) (config : Config) (source destination m : Uuid)
    (revision epoch : ℤ) : Bool :=
  decide (db.deployment = config) && config.clustered && validateNode nodes clock config false source &&
    validateNode nodes clock config false destination &&
    (db.machine m).any fun row => decide (row.lifecycle = .active ∧ row.routeRevision = revision ∧
      row.owners.owner.map Prod.fst = some destination ∧ row.owners.routeRevision = revision ∧
      row.owners.connectionEpoch = epoch ∧ row.activeBinding = some revision)

/-- `resolve_connection_id` of the destination -/
def resolveConnectionId (db : Db) (destination m : Uuid) (revision epoch : ℤ) : Option Uuid :=
  match db.machine m with
  | none => none
  | some row =>
    if row.owners.routeRevision = revision ∧ row.owners.connectionEpoch = epoch then
      (row.owners.owner.filter fun p => p.1 = destination).map Prod.snd
    else none

/-! ## Statements outside the tunnels and transitions -/

/-- `create_machine` -/
def createMachine (db : Db) (m : Uuid) : Db :=
  if (db.machine m).isSome then db
  else { db.set m ⟨.pending, 1, none, none, [], ⟨0, none, 1⟩⟩ with machines := m :: db.machines }

/-- `accept_token`: the enrolment of a pending Machine begins -/
def MachineRow.acceptToken (row : MachineRow) : MachineRow :=
  if row.lifecycle = .pending then { row with lifecycle := .verifying } else row

/-- `activate`: host key and binding of the Machine's present revision -/
def MachineRow.activate (hostIdentity : Text) (row : MachineRow) : MachineRow :=
  if row.lifecycle = .verifying ∧ (row.hostIdentity = none ∨ row.hostIdentity = some hostIdentity) ∧
      row.activeBinding = none then
    { row with hostIdentity := some hostIdentity, activeBinding := some row.routeRevision }
  else row

/-- `fail_attempt` and `recover_expired_attempts` -/
def MachineRow.failAttempt (row : MachineRow) : MachineRow :=
  if row.lifecycle = .verifying ∧ row.activeBinding ≠ some row.routeRevision then { row with lifecycle := .pending } else row

/-- `re_enroll_disabled_machine` -/
def MachineRow.reEnroll (row : MachineRow) : MachineRow :=
  if row.lifecycle = .disabled then { row with lifecycle := .pending } else row

/-- `initialize_or_validate` of an existing deployment: the next configuration replaces the present one when no lease is
valid -/
def configure (db : Db) (nodes : Nodes) (clock : ℤ) (booted : List Uuid) (config : Config) : Option Config :=
  if config.configEpoch = db.deployment.configEpoch + 1 ∧ booted.all (fun n => (nodes n).all fun row => !row.valid clock) then
    some config
  else none

end OwlMux.Cluster
