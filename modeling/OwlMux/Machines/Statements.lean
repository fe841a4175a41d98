/-
The transactions that change the life of a Machine, statement by statement: `owlmux-server/src/relay/mod.rs` (enrollment and
ownership), `owlmux-server/src/api/mod.rs` (what the operator asks for), `owlmux-server/src/deployment.rs` (the nodes) and
`initialize_or_validate` of `owlmux-server/src/storage.rs`.

Every transaction begins by locking the deployment row, so transactions run one after the other and each is a function of the
rows. It returns the rows as committed, or an error, and then nothing has changed. `now k` is the `clock_timestamp()` of the
k-th statement that reads it, `n` the node that runs the transaction, with the answer of `lease.check()`. Fresh ids and random
bytes are arguments.
-/
import Mathlib.Tactic
import OwlMux.Lib.Base64Url
import OwlMux.Machines.Tables

namespace OwlMux.Machines

open OwlMux.Relay (Uuid Text RelayError RouteIdentity byteLen)
open OwlMux.Cluster (Config Lifecycle checkedSucc i64Max OwnerExpectation)
open OwlMux.Table

abbrev Clock := ℕ → ℤ

/-- a Server, as its transactions see it -/
structure Node where
  incarnationId : Uuid
  config : Config
  /-- the answer of `lease.check()` -/
  leaseOk : Bool
deriving DecidableEq, Repr

inductive ApiError where
  | notFound
  | conflict (code message : String)
  | temporarilyUnavailable
  | internal
deriving DecidableEq, Repr

def tokenTtlSeconds : ℤ := 900
def enrollmentAttemptSeconds : ℤ := 120
def maxMachines : ℕ := 1024
def maxCredentials : ℕ := 256
def enrollmentPrefix : Text := "owlmux_enroll_v1_".toList

/-! ## Authority -/

/-- a row of `server_nodes` with this incarnation and configuration and a lease that has not expired -/
def Db.nodeValid (db : Db) (n : Node) (clock : ℤ) (draining : Bool) : Bool :=
  db.nodes.any fun r => decide (r.incarnationId = n.incarnationId) && (r.serving || draining) &&
    decide (r.configEpoch = n.config.configEpoch) && decide (r.serverBuildId = n.config.serverBuildId) &&
    decide (clock < r.leaseUntil)

/-- `lock_deployment` -/
def lockDeployment (n : Node) (db : Db) : Except RelayError Unit := ensure .fenced (db.deployment = n.config)

/-- `validate_node` -/
def validateNode (n : Node) (clock : ℤ) (db : Db) : Except RelayError Unit :=
  ensure .fenced (n.leaseOk = true ∧ db.nodeValid n clock false = true)

/-- `validate_releasing_node` -/
def validateReleasingNode (n : Node) (clock : ℤ) (db : Db) : Except RelayError Unit :=
  ensure .fenced (n.leaseOk = true ∧ db.nodeValid n clock true = true)

/-- `lock_current_deployment` -/
def lockCurrentDeployment (n : Node) (clock : ℤ) (db : Db) : Except ApiError Unit :=
  ensure .temporarilyUnavailable (db.deployment = n.config ∧ n.leaseOk = true ∧ db.nodeValid n clock false = true)

/-- `map_write` of a constraint -/
def writeConflict : ApiError := .conflict "conflict" "The requested state conflicts with current state."

/-! ## Enrollment -/

/-- `enrollment_token` -/
def enrollmentToken (random : List UInt8) : Text := enrollmentPrefix ++ Base64Url.encode random

structure AcceptedEnrollment where
  machineId : Uuid
  attemptId : Uuid
  routeRevision : ℤ
  targetAccount : Text
  hostIdentity : Option Text
deriving DecidableEq, Repr

/-- the SELECT of `accept_token` -/
def Db.acceptable (db : Db) (digest : Digest) (clock : ℤ) : Option (EnrollmentRow × MachineRow) :=
  db.enrollments.findSome? fun e =>
    if e.tokenDigest = digest ∧ e.status = .issued ∧ clock < e.tokenExpiresAt then
      (db.machines.find? fun m => decide (m.id = e.machineId) && decide (m.lifecycle = .pending)).map fun m => (e, m)
    else none

/-- `accept_token` -/
def acceptToken (hash : Text → Digest) (n : Node) (now : Clock) (token : Text) (attemptId : Uuid) (db : Db) :
    Except RelayError (Db × AcceptedEnrollment) := do
  ensure .invalidToken (enrollmentPrefix.isPrefixOf token = true ∧ byteLen token ≤ 80)
  lockDeployment n db
  let (e, m) ← orError .invalidToken (db.acceptable (hash token) (now 0))
  validateNode n (now 1) db
  let db ← db.updateEnrollments RelayError.unavailable (fun r => decide (r.id = e.id)) fun r => { r with status := .consumed }
  let db ← db.updateMachines RelayError.unavailable (fun r => decide (r.id = m.id)) fun r => { r with lifecycle := .verifying }
  let db ← db.insertAttempt RelayError.unavailable ⟨attemptId, m.id, e.id, some n.incarnationId, m.routeRevision, .verifying,
    now 2 + enrollmentAttemptSeconds⟩
  pure (db.appendAudit "enrollment" (some m.id) none "accept_token",
    ⟨m.id, attemptId, m.routeRevision, m.targetAccount, m.hostIdentity⟩)

/-- the EXISTS of `activate` -/
def Db.activatable (db : Db) (n : Node) (accepted : AcceptedEnrollment) (clock : ℤ) : Bool :=
  db.attempts.any fun a => decide (a.id = accepted.attemptId) && decide (a.machineId = accepted.machineId) &&
    decide (a.status = .verifying) && decide (clock < a.deadline) &&
    decide (a.executingIncarnationId = some n.incarnationId) &&
    db.machines.any fun m => decide (m.id = a.machineId) && decide (a.routeRevision = m.routeRevision) &&
      decide (m.lifecycle = .verifying) && db.credentials.any fun c => decide (c.id = m.sshCredentialId) && c.active

/-- the Machines whose host key `activate` may set -/
def pinnable (accepted : AcceptedEnrollment) (hostIdentity : Text) (m : MachineRow) : Bool :=
  decide (m.id = accepted.machineId) && decide (m.lifecycle = .verifying) && decide (m.routeRevision = accepted.routeRevision) &&
    decide (m.hostIdentity = none ∨ m.hostIdentity = some hostIdentity)

/-- `activate`; `isEd25519` is `is_ed25519_host_identity` -/
def activate (isEd25519 : Text → Bool) (n : Node) (now : Clock) (accepted : AcceptedEnrollment) (bindingId relayId : Uuid)
    (publicKey : List UInt8) (hostIdentity : Text) (db : Db) : Except RelayError Db := do
  lockDeployment n db
  validateNode n (now 0) db
  ensure .invalidState (db.activatable n accepted (now 1) = true ∧ isEd25519 hostIdentity = true)
  let hostChanged := affected (pinnable accepted hostIdentity) db.machines
  let db ← db.updateMachines RelayError.unavailable (pinnable accepted hostIdentity) fun m =>
    { m with hostIdentity := m.hostIdentity.or (some hostIdentity) }
  ensure .invalidState (hostChanged = 1)
  let db := if accepted.hostIdentity.isNone then db.appendAudit "machine" (some accepted.machineId) none "pin_ssh_host_key" else db
  let db ← db.insertBinding RelayError.conflict
    ⟨bindingId, accepted.machineId, relayId, publicKey, accepted.routeRevision, true⟩
  let db ← db.updateAttempts RelayError.unavailable (fun a => decide (a.id = accepted.attemptId)) fun a =>
    { a with status := .activated }
  pure (db.appendAudit "relay_binding" (some accepted.machineId) none "activate")

/-- `UPDATE relay_verification_attempts SET status = 'failed' .. WHERE id = $1 AND status = 'verifying'` -/
def failing (attemptId : Uuid) (a : AttemptRow) : Bool := decide (a.id = attemptId) && decide (a.status = .verifying)

def AttemptRow.fail (a : AttemptRow) : AttemptRow := { a with status := .failed }

/-- `fail_attempt`; an error of any statement rolls the transaction back -/
def failAttempt (n : Node) (now : Clock) (accepted : AcceptedEnrollment) (db : Db) : Except RelayError Db := do
  lockDeployment n db
  validateNode n (now 0) db
  let changed := affected (failing accepted.attemptId) db.attempts
  let db ← db.updateAttempts RelayError.unavailable (failing accepted.attemptId) AttemptRow.fail
  if changed = 1 then
    db.updateMachines RelayError.unavailable
      (fun m => decide (m.id = accepted.machineId) && decide (m.lifecycle = .verifying) &&
        decide (m.routeRevision = accepted.routeRevision))
      fun m => { m with lifecycle := .pending }
  else pure db

/-- one turn of the loop of `recover_expired_attempts` -/
def recoverAttempt (db : Db) (row : AttemptRow) : Except RelayError Db := do
  let changed := affected (failing row.id) db.attempts
  let db ← db.updateAttempts RelayError.unavailable (failing row.id) AttemptRow.fail
  if changed = 1 then
    let db ← db.updateMachines RelayError.unavailable
      (fun m => decide (m.id = row.machineId) && decide (m.lifecycle = .verifying) &&
        decide (m.routeRevision = row.routeRevision) &&
        !db.bindings.any fun b => decide (b.machineId = row.machineId) && decide (b.routeRevision = row.routeRevision) && b.active)
      fun m => { m with lifecycle := .pending }
    pure (db.appendAudit "enrollment" (some row.machineId) none "recover_expired_attempt")
  else pure db

/-- the batch of `recover_expired_attempts` -/
def Db.expired (db : Db) (machineId : Option Uuid) (clock : ℤ) : List AttemptRow :=
  ((db.attempts.filter fun a => machineId.all (fun m => decide (a.machineId = m)) && decide (a.status = .verifying) &&
    decide (a.deadline ≤ clock)).mergeSort fun a b => decide (a.deadline ≤ b.deadline)).take 128

/-- `recover_expired_attempts` -/
def recoverExpiredAttempts (n : Node) (now : Clock) (machineId : Option Uuid) (db : Db) : Except RelayError Db := do
  lockDeployment n db
  validateNode n (now 0) db
  (db.expired machineId (now 1)).foldlM recoverAttempt db

/-! ## Ownership -/

/-- `server_nodes` has the owner with a lease that has not expired -/
def Db.ownerLive (db : Db) (o : OwnerRow) (clock : ℤ) : Bool :=
  o.owner.any fun p => db.nodes.any fun r => decide (r.incarnationId = p.1) && decide (clock < r.leaseUntil)

/-- the SELECT of `claim_owner` -/
def Db.claimable (db : Db) (m : Uuid) (routeRevision : ℤ) : Option OwnerRow :=
  db.owners.find? fun o => decide (o.machineId = m) && decide (o.routeRevision = routeRevision) &&
    (db.machines.any fun r => decide (r.id = m) && decide (r.lifecycle = .verifying ∨ r.lifecycle = .active) &&
      r.hostIdentity.isSome && decide (r.routeRevision = routeRevision)) &&
    db.bindings.any fun b => decide (b.machineId = m) && b.active && decide (b.routeRevision = routeRevision)

/-- `claim_owner`: the rows and the epoch of the claim -/
def claimOwner (n : Node) (now : Clock) (m connectionId : Uuid) (routeRevision : ℤ) (db : Db) : Except RelayError (Db × ℤ) := do
  lockDeployment n db
  validateNode n (now 0) db
  let o ← orError .invalidState (db.claimable m routeRevision)
  ensure .ownerConflict (db.ownerLive o (now 1) = false)
  let epoch ← orError .invalidState (checkedSucc o.connectionEpoch)
  let db ← db.updateOwners RelayError.unavailable (fun r => decide (r.machineId = m)) fun r =>
    { r with connectionEpoch := epoch, owner := some (n.incarnationId, connectionId) }
  let db ← db.updateMachines RelayError.unavailable
    (fun r => decide (r.id = m) && decide (r.lifecycle = .verifying) && decide (r.routeRevision = routeRevision))
    fun r => { r with lifecycle := .active }
  pure (db.appendAudit "machine_owner" (some m) none "claim", epoch)

/-- the row that `release_owner` releases -/
def releasable (n : Node) (m connectionId : Uuid) (epoch : ℤ) (o : OwnerRow) : Bool :=
  decide (o.machineId = m) && decide (o.owner = some (n.incarnationId, connectionId)) && decide (o.connectionEpoch = epoch)

/-- `release_owner` -/
def releaseOwner (n : Node) (now : Clock) (m connectionId : Uuid) (epoch : ℤ) (db : Db) : Except RelayError Db := do
  lockDeployment n db
  validateReleasingNode n (now 0) db
  let changed := affected (releasable n m connectionId epoch) db.owners
  let db ← db.updateOwners RelayError.unavailable (releasable n m connectionId epoch) fun o => { o with owner := none }
  ensure .fenced (changed = 1)
  pure (db.appendAudit "machine_owner" (some m) none "release")

/-! ## What the operator asks for -/

structure CreateMachineInput where
  aliasKey : Text
  sshCredentialId : Option Uuid
  targetAccount : Text
deriving DecidableEq, Repr

/-- SELECT .. FROM ssh_credentials WHERE id = $1 AND status = 'active' -/
def Db.credentialActive (db : Db) (id : Uuid) : Bool := db.credentials.any fun c => decide (c.id = id) && c.active

/-- `insert_enrollment` -/
def Db.issueToken (hash : Text → Digest) (enrollmentId m : Uuid) (random : List UInt8) (clock : ℤ) (db : Db) : Except ApiError Db :=
  db.insertEnrollment writeConflict ⟨enrollmentId, m, hash (enrollmentToken random), clock + tokenTtlSeconds, .issued⟩

/-- `create_machine`, its input validated -/
def createMachine (hash : Text → Digest) (n : Node) (now : Clock) (input : CreateMachineInput) (machineId enrollmentId : Uuid)
    (random : List UInt8) (db : Db) : Except ApiError Db := do
  lockCurrentDeployment n (now 0) db
  ensure (.conflict "machine_limit" "The Deployment Machine limit has been reached.") (db.machines.length < maxMachines)
  let credentialId := input.sshCredentialId.getD db.defaultSshCredentialId
  ensure .notFound (db.credentialActive credentialId = true)
  let db ← db.insertMachine writeConflict ⟨machineId, credentialId, input.aliasKey, .pending, 1, 1, input.targetAccount, none⟩
  let db ← db.insertOwner writeConflict ⟨machineId, 0, none, 1⟩
  let db ← db.issueToken hash enrollmentId machineId random (now 1)
  pure (db.appendAudit "machine" (some machineId) none "create")

/-- `UPDATE relay_enrollments SET status = 'cancelled' .. WHERE machine_id = $1 AND status = 'issued'` -/
def cancellable (m : Uuid) (r : EnrollmentRow) : Bool := decide (r.machineId = m) && decide (r.status = .issued)

def EnrollmentRow.cancel (r : EnrollmentRow) : EnrollmentRow := { r with status := .cancelled }

/-- `issue_enrollment_token`, after its `recover_expired_attempts` -/
def issueEnrollmentToken (hash : Text → Digest) (n : Node) (now : Clock) (m enrollmentId : Uuid) (random : List UInt8) (db : Db) :
    Except ApiError Db := do
  lockCurrentDeployment n (now 0) db
  ensure (.conflict "invalid_lifecycle" "Machine is not pending.") ((machineIn db.machines m).map MachineRow.lifecycle = some .pending)
  let db ← db.updateEnrollments writeConflict (cancellable m) EnrollmentRow.cancel
  let db ← db.issueToken hash enrollmentId m random (now 1)
  pure (db.appendAudit "enrollment" (some m) none "issue_token")

/-- `cancel_enrollment_token` -/
def cancelEnrollmentToken (n : Node) (now : Clock) (m : Uuid) (db : Db) : Except ApiError Db := do
  lockCurrentDeployment n (now 0) db
  ensure .notFound ((machineIn db.machines m).isSome = true)
  let changed := affected (cancellable m) db.enrollments
  let db ← db.updateEnrollments writeConflict (cancellable m) EnrollmentRow.cancel
  ensure .notFound (changed ≠ 0)
  pure (db.appendAudit "enrollment" (some m) none "cancel_token")

/-- `re_enroll_disabled_machine` -/
def reEnrollDisabledMachine (n : Node) (now : Clock) (m : Uuid) (db : Db) : Except ApiError Db := do
  lockCurrentDeployment n (now 0) db
  let disabled := fun r : MachineRow => decide (r.id = m) && decide (r.lifecycle = .disabled)
  let changed := affected disabled db.machines
  let db ← db.updateMachines writeConflict disabled fun r => { r with lifecycle := .pending }
  ensure (.conflict "invalid_lifecycle" "Machine is not disabled.") (changed = 1)
  pure (db.appendAudit "machine" (some m) none "re_enroll")

/-- `rebind_machine_credential` -/
def rebindMachineCredential (n : Node) (now : Clock) (m credentialId : Uuid) (db : Db) : Except ApiError Db := do
  lockCurrentDeployment n (now 0) db
  let machine ← orError .notFound (machineIn db.machines m)
  ensure (.conflict "invalid_lifecycle" "Only an active Machine can be rebound.") (machine.lifecycle = .active)
  ensure (.conflict "conflict" "Machine already uses that SSH credential.") (machine.sshCredentialId ≠ credentialId)
  let next ← orError .internal (checkedSucc machine.credentialRevision)
  ensure .notFound (db.credentialActive credentialId = true)
  let current := fun r : MachineRow => decide (r.id = m) && decide (r.lifecycle = .active) &&
    decide (r.credentialRevision = machine.credentialRevision)
  let changed := affected current db.machines
  let db ← db.updateMachines writeConflict current fun r => { r with sshCredentialId := credentialId, credentialRevision := next }
  ensure .temporarilyUnavailable (changed = 1)
  pure (db.appendAudit "machine" (some m) (some credentialId) "rebind")

/-- what `transition_active_machine` is called for -/
inductive Transition where
  | reEnroll
  | disable
  | revokeRelay
deriving DecidableEq, Repr

def Transition.lifecycle : Transition → Lifecycle
  | .reEnroll => .pending
  | .disable | .revokeRelay => .disabled

def Transition.action : Transition → String
  | .reEnroll => "re_enroll"
  | .disable => "disable"
  | .revokeRelay => "revoke_relay"

/-- `owner_valid` of the transitions: the owner's row has the statement's configuration too -/
def Db.ownerValid (db : Db) (n : Node) (o : OwnerRow) (clock : ℤ) : Bool :=
  o.owner.any fun p => db.nodes.any fun r => decide (r.incarnationId = p.1) &&
    decide (r.configEpoch = n.config.configEpoch) && decide (r.serverBuildId = n.config.serverBuildId) &&
    decide (clock < r.leaseUntil)

def ownerMatches (db : Db) (n : Node) (expected : OwnerExpectation) (o : OwnerRow) (clock : ℤ) : Bool :=
  match expected with
  | .exact incarnation route =>
    decide (o.owner = some (incarnation, route.connectionId)) && decide (o.connectionEpoch = route.connectionEpoch)
  | .noValidOwner _ => !db.ownerValid n o clock

/-- `commit_active_machine_transition` -/
def commitActiveMachineTransition (n : Node) (now : Clock) (m : Uuid) (kind : Transition) (expected : OwnerExpectation) (db : Db) :
    Except ApiError Db := do
  lockCurrentDeployment n (now 0) db
  let machine ← orError (.conflict "invalid_lifecycle" "Machine is not active.")
    (db.machines.find? fun r => decide (r.id = m) && decide (r.lifecycle = .active))
  let revision := machine.routeRevision
  ensure .temporarilyUnavailable (revision = expected.routeRevision)
  let o ← orError .internal (ownerIn db.owners m)
  ensure .temporarilyUnavailable (o.routeRevision = revision ∧ ownerMatches db n expected o (now 1) = true)
  let next ← orError .internal (checkedSucc revision)
  let current := fun b : BindingRow => decide (b.machineId = m) && b.active && decide (b.routeRevision = revision)
  let revoked := affected current db.bindings
  let db ← db.updateBindings writeConflict current fun b => { b with active := false }
  ensure .internal (revoked = 1)
  let db ← db.updateAttempts writeConflict (fun a => decide (a.machineId = m) && decide (a.status = .verifying)) AttemptRow.fail
  let db ← db.updateEnrollments writeConflict (cancellable m) EnrollmentRow.cancel
  let owned := fun o : OwnerRow => decide (o.machineId = m) && decide (o.routeRevision = revision)
  let ownerChanged := affected owned db.owners
  let db ← db.updateOwners writeConflict owned fun o => { o with owner := none, routeRevision := next }
  let active := fun r : MachineRow => decide (r.id = m) && decide (r.lifecycle = .active) && decide (r.routeRevision = revision)
  let machineChanged := affected active db.machines
  let db ← db.updateMachines writeConflict active fun r => { r with lifecycle := kind.lifecycle, routeRevision := next }
  ensure .internal (ownerChanged = 1 ∧ machineChanged = 1)
  pure (db.appendAudit "machine" (some m) none kind.action)

/-! ## Credentials -/

/-- `create_credential`, its name validated -/
def createCredential (n : Node) (now : Clock) (id : Uuid) (nameKey : Text) (db : Db) : Except ApiError Db := do
  lockCurrentDeployment n (now 0) db
  ensure (.conflict "credential_limit" "Deployment SSH credential limit reached.") (db.credentials.length < maxCredentials)
  let db ← db.insertCredential writeConflict ⟨id, nameKey, true⟩
  pure (db.appendAudit "ssh_credential" none (some id) "create")

/-- `set_default_credential` -/
def setDefaultCredential (n : Node) (now : Clock) (id : Uuid) (db : Db) : Except ApiError Db := do
  lockCurrentDeployment n (now 0) db
  ensure .notFound (db.credentialActive id = true)
  let db ← write writeConflict { db with defaultSshCredentialId := id }
  pure (db.appendAudit "ssh_credential" none (some id) "set_default")

/-- `reset_default_credential`, its name validated -/
def resetDefaultCredential (n : Node) (now : Clock) (id : Uuid) (nameKey : Text) (db : Db) : Except ApiError Db := do
  lockCurrentDeployment n (now 0) db
  ensure (.conflict "credential_limit" "Deployment SSH credential limit reached.") (db.credentials.length < maxCredentials)
  let db ← db.insertCredential writeConflict ⟨id, nameKey, true⟩
  let db ← write writeConflict { db with defaultSshCredentialId := id }
  pure (db.appendAudit "ssh_credential" none (some id) "reset_default")

/-- `retire_credential` -/
def retireCredential (n : Node) (now : Clock) (id : Uuid) (db : Db) : Except ApiError Db := do
  lockCurrentDeployment n (now 0) db
  ensure .notFound (id ∈ db.credentials.map CredentialRow.id)
  let unused := fun c : CredentialRow => decide (c.id = id) && c.active && decide (db.defaultSshCredentialId ≠ c.id) &&
    !db.machines.any fun m => decide (m.sshCredentialId = c.id)
  let changed := affected unused db.credentials
  let db ← db.updateCredentials writeConflict unused fun c => { c with active := false }
  ensure (.conflict "credential_in_use" "Credential is default, bound, retired, or missing.") (changed = 1)
  pure (db.appendAudit "ssh_credential" none (some id) "retire")

/-! ## Nodes -/

inductive NodeError where
  | fenced
  | database
  | configurationMismatch
  | configurationTransitionBlocked
deriving DecidableEq, Repr

/-- `validate_deployment` -/
def validateDeployment (n : Node) (db : Db) : Except NodeError Unit := ensure .configurationMismatch (db.deployment = n.config)

/-- some node has a lease that has not expired -/
def Db.leased (db : Db) (clock : ℤ) : Bool := db.nodes.any fun r => decide (clock < r.leaseUntil)

/-- `register_database` -/
def registerNode (n : Node) (now : Clock) (ttl : ℤ) (db : Db) : Except NodeError Db := do
  validateDeployment n db
  ensure .configurationMismatch (n.config.clustered = true ∨ db.leased (now 0) = false)
  let db ← db.insertNode NodeError.database
    ⟨n.incarnationId, true, n.config.configEpoch, n.config.serverBuildId, now 1 + ttl⟩
  pure (db.appendAudit "server_node" none none "register")

/-- the row of `server_nodes` that a statement of its node asks for -/
def ownRow (n : Node) (r : NodeRow) : Bool :=
  decide (r.incarnationId = n.incarnationId) && decide (r.configEpoch = n.config.configEpoch) &&
    decide (r.serverBuildId = n.config.serverBuildId)

/-- `renew_database` -/
def renewNode (n : Node) (now : Clock) (ttl : ℤ) (db : Db) : Except NodeError Db := do
  validateDeployment n db
  let changed := affected (fun r => ownRow n r && r.serving) db.nodes
  let db ← db.updateNodes NodeError.database (fun r => ownRow n r && r.serving) fun r => { r with leaseUntil := now 0 + ttl }
  ensure .fenced (changed = 1)
  pure db

/-- `begin_drain`, after its check -/
def drainNode (n : Node) (now : Clock) (db : Db) : Except NodeError Db := do
  validateDeployment n db
  let serving := fun r : NodeRow => ownRow n r && r.serving && decide (now 0 < r.leaseUntil)
  let changed := affected serving db.nodes
  let db ← db.updateNodes NodeError.database serving fun r => { r with serving := false }
  ensure .fenced (changed = 1)
  pure (db.appendAudit "server_node" none none "drain")

/-- `ON DELETE SET NULL` of `relay_verification_attempts` -/
def AttemptRow.orphan (deleted : Uuid) (a : AttemptRow) : AttemptRow :=
  { a with executingIncarnationId := a.executingIncarnationId.filter fun i => decide (i ≠ deleted) }

/-- `release`: DELETE, with the attempts of the node set to NULL; the owners restrict it -/
def releaseNode (n : Node) (db : Db) : Except NodeError Db := do
  validateDeployment n db
  let drained := fun r : NodeRow => ownRow n r && !r.serving
  let changed := affected drained db.nodes
  let db ← write NodeError.database
    { db with
      nodes := db.nodes.filter fun r => !drained r
      attempts := if changed = 0 then db.attempts else db.attempts.map (AttemptRow.orphan n.incarnationId) }
  ensure .fenced (changed = 1)
  pure (db.appendAudit "server_node" none none "release")

/-- `initialize_or_validate` of an existing deployment: the next configuration replaces the present one when no lease is
valid -/
def configure (config : Config) (now : Clock) (db : Db) : Except NodeError Db := do
  ensure .configurationMismatch (config.configEpoch = db.deployment.configEpoch + 1)
  ensure .configurationTransitionBlocked (db.leased (now 0) = false)
  pure ({ db with deployment := config }.appendAudit "deployment" none none "configuration_transition")

end OwlMux.Machines
