/-
The tables of the Deployment database that carry the life of a Machine (`owlmux-server/migrations`): `machines`,
`relay_enrollments`, `relay_verification_attempts`, `relay_bindings`, `machine_owners`, `server_nodes`, with the credentials
they point to and the audit events of every transaction.

- rows follow the columns; times are `timestamptz` as integers of seconds, columns that no statement below reads are left out;
- `Db.Valid`: primary keys, unique indexes, CHECKs and foreign keys. PostgreSQL tests them after every statement, so a
  statement that writes is `write e db`, which fails with `e` when they are broken; `Db.updateMachines` also runs the
  trigger `machine_target_scope_immutable`;
- `machineIn`, `ownerIn`, `issuedIn`, `verifyingIn`, `boundIn`: the rows that say where one Machine is.
-/
import Mathlib.Tactic
import OwlMux.Cluster.Database
import OwlMux.Lib.Table

namespace OwlMux.Machines

open OwlMux.Relay (Uuid Text RelayError)
open OwlMux.Cluster (Config Lifecycle checkedSucc i64Max)
open OwlMux.Table

/-! ## Rows -/

/-- membership of an id is decided by its equality -/
instance : LawfulBEq Uuid := inferInstance

/-- octets of SHA-256 -/
abbrev Digest := BitVec 256

structure CredentialRow where
  id : Uuid
  /-- `lower(name)`, the key of the index -/
  nameKey : Text
  /-- status = 'active'; otherwise 'retired' -/
  active : Bool
deriving DecidableEq, Repr

structure MachineRow where
  id : Uuid
  sshCredentialId : Uuid
  /-- `lower(alias)`, the key of the index -/
  aliasKey : Text
  lifecycle : Lifecycle
  routeRevision : ℤ
  credentialRevision : ℤ
  targetAccount : Text
  hostIdentity : Option Text
deriving DecidableEq, Repr

inductive EnrollmentStatus where
  | issued
  | consumed
  | cancelled
deriving DecidableEq, Repr

structure EnrollmentRow where
  id : Uuid
  machineId : Uuid
  tokenDigest : Digest
  tokenExpiresAt : ℤ
  status : EnrollmentStatus
deriving DecidableEq, Repr

inductive AttemptStatus where
  | verifying
  | activated
  | failed
deriving DecidableEq, Repr

/-- `relay_verification_attempts` -/
structure AttemptRow where
  id : Uuid
  machineId : Uuid
  enrollmentId : Uuid
  executingIncarnationId : Option Uuid
  routeRevision : ℤ
  status : AttemptStatus
  deadline : ℤ
deriving DecidableEq, Repr

/-- `relay_bindings` -/
structure BindingRow where
  id : Uuid
  machineId : Uuid
  relayId : Uuid
  relayPublicKey : List UInt8
  routeRevision : ℤ
  /-- status = 'active'; otherwise 'revoked' -/
  active : Bool
deriving DecidableEq, Repr

/-- `machine_owners`; `owner` is owner_incarnation_id with relay_connection_id -/
structure OwnerRow where
  machineId : Uuid
  connectionEpoch : ℤ
  owner : Option (Uuid × Uuid)
  routeRevision : ℤ
deriving DecidableEq, Repr

/-- `server_nodes` -/
structure NodeRow where
  incarnationId : Uuid
  /-- state = 'serving'; otherwise 'draining' -/
  serving : Bool
  configEpoch : ℤ
  serverBuildId : Text
  leaseUntil : ℤ
deriving DecidableEq, Repr

/-- `audit_events`; every event below is a success -/
structure AuditRow where
  resourceKind : String
  machineId : Option Uuid
  sshCredentialId : Option Uuid
  action : String
deriving DecidableEq, Repr

structure Db where
  deployment : Config
  defaultSshCredentialId : Uuid
  credentials : List CredentialRow
  machines : List MachineRow
  enrollments : List EnrollmentRow
  attempts : List AttemptRow
  bindings : List BindingRow
  owners : List OwnerRow
  nodes : List NodeRow
  audit : List AuditRow

/-! ## Where a Machine is -/

/-- its row, by primary key -/
def machineIn (t : List MachineRow) (m : Uuid) : Option MachineRow := t.find? fun r => r.id = m

def ownerIn (t : List OwnerRow) (m : Uuid) : Option OwnerRow := t.find? fun r => r.machineId = m

/-- its tokens that can still be accepted -/
def issuedIn (t : List EnrollmentRow) (m : Uuid) : List EnrollmentRow :=
  t.filter fun r => decide (r.status = .issued) && decide (r.machineId = m)

/-- its attempts that run -/
def verifyingIn (t : List AttemptRow) (m : Uuid) : List AttemptRow :=
  t.filter fun r => decide (r.status = .verifying) && decide (r.machineId = m)

/-- its bindings in force -/
def boundIn (t : List BindingRow) (m : Uuid) : List BindingRow := t.filter fun r => r.active && decide (r.machineId = m)

/-! ## Constraints -/

def MachineRow.Check (r : MachineRow) : Prop :=
  0 < r.routeRevision ∧ 0 < r.credentialRevision ∧ (r.lifecycle = .active → r.hostIdentity.isSome)

def AttemptRow.Check (r : AttemptRow) : Prop :=
  0 < r.routeRevision ∧ (r.status = .verifying → r.executingIncarnationId.isSome)

instance (r : MachineRow) : Decidable r.Check := inferInstanceAs (Decidable (_ ∧ _))
instance (r : AttemptRow) : Decidable r.Check := inferInstanceAs (Decidable (_ ∧ _))

def anyRow {α : Type} (_ : α) : Bool := true

def CredentialsOk (t : List CredentialRow) : Prop := UniqueOn anyRow CredentialRow.id t ∧ UniqueOn anyRow CredentialRow.nameKey t

def MachinesOk (t : List MachineRow) : Prop :=
  UniqueOn anyRow MachineRow.id t ∧ UniqueOn anyRow MachineRow.aliasKey t ∧ ∀ r ∈ t, r.Check

def EnrollmentsOk (t : List EnrollmentRow) : Prop :=
  UniqueOn anyRow EnrollmentRow.id t ∧ UniqueOn anyRow EnrollmentRow.tokenDigest t ∧
    UniqueOn (fun r => decide (r.status = .issued)) EnrollmentRow.machineId t

def AttemptsOk (t : List AttemptRow) : Prop :=
  UniqueOn anyRow AttemptRow.id t ∧ UniqueOn anyRow AttemptRow.enrollmentId t ∧
    UniqueOn (fun r => decide (r.status = .verifying)) AttemptRow.machineId t ∧ ∀ r ∈ t, r.Check

def BindingsOk (t : List BindingRow) : Prop :=
  UniqueOn anyRow BindingRow.id t ∧ UniqueOn BindingRow.active BindingRow.machineId t ∧ UniqueOn BindingRow.active BindingRow.relayId t ∧
    UniqueOn BindingRow.active BindingRow.relayPublicKey t ∧ ∀ r ∈ t, 0 < r.routeRevision

def OwnersOk (t : List OwnerRow) : Prop :=
  UniqueOn anyRow OwnerRow.machineId t ∧ ∀ r ∈ t, 0 ≤ r.connectionEpoch ∧ 0 < r.routeRevision

def NodesOk (t : List NodeRow) : Prop := UniqueOn anyRow NodeRow.incarnationId t

instance (t : List CredentialRow) : Decidable (CredentialsOk t) := inferInstanceAs (Decidable (_ ∧ _))
instance (t : List MachineRow) : Decidable (MachinesOk t) := inferInstanceAs (Decidable (_ ∧ _))
instance (t : List EnrollmentRow) : Decidable (EnrollmentsOk t) := inferInstanceAs (Decidable (_ ∧ _))
instance (t : List AttemptRow) : Decidable (AttemptsOk t) := inferInstanceAs (Decidable (_ ∧ _))
instance (t : List BindingRow) : Decidable (BindingsOk t) := inferInstanceAs (Decidable (_ ∧ _))
instance (t : List OwnerRow) : Decidable (OwnersOk t) := inferInstanceAs (Decidable (_ ∧ _))
instance (t : List NodeRow) : Decidable (NodesOk t) := inferInstanceAs (Decidable (UniqueOn _ _ t))

/-- the foreign keys, on the columns they join -/
def References (credentials machines enrollments nodes : List Uuid) (db : Db) : Prop :=
  (db.defaultSshCredentialId ∈ credentials ∧ ∀ r ∈ db.machines, r.sshCredentialId ∈ credentials) ∧
  (∀ r ∈ db.enrollments, r.machineId ∈ machines) ∧
  (∀ r ∈ db.attempts, r.machineId ∈ machines ∧ r.enrollmentId ∈ enrollments ∧
    (r.executingIncarnationId.all fun n => decide (n ∈ nodes)) = true) ∧
  (∀ r ∈ db.bindings, r.machineId ∈ machines) ∧
  (∀ r ∈ db.owners, r.machineId ∈ machines ∧ (r.owner.all fun p => decide (p.1 ∈ nodes)) = true)

instance (credentials machines enrollments nodes : List Uuid) (db : Db) :
    Decidable (References credentials machines enrollments nodes db) := inferInstanceAs (Decidable (_ ∧ _))

def Db.Linked (db : Db) : Prop :=
  References (db.credentials.map CredentialRow.id) (db.machines.map MachineRow.id) (db.enrollments.map EnrollmentRow.id)
    (db.nodes.map NodeRow.incarnationId) db

instance (db : Db) : Decidable db.Linked := inferInstanceAs (Decidable (References _ _ _ _ db))

structure Db.Valid (db : Db) : Prop where
  credentials : CredentialsOk db.credentials
  machines : MachinesOk db.machines
  enrollments : EnrollmentsOk db.enrollments
  attempts : AttemptsOk db.attempts
  bindings : BindingsOk db.bindings
  owners : OwnersOk db.owners
  nodes : NodesOk db.nodes
  linked : db.Linked

instance (db : Db) : Decidable db.Valid :=
  decidable_of_iff (CredentialsOk db.credentials ∧ MachinesOk db.machines ∧ EnrollmentsOk db.enrollments ∧
      AttemptsOk db.attempts ∧ BindingsOk db.bindings ∧ OwnersOk db.owners ∧ NodesOk db.nodes ∧ db.Linked)
    ⟨fun ⟨a, b, c, d, e, f, g, h⟩ => ⟨a, b, c, d, e, f, g, h⟩, fun ⟨a, b, c, d, e, f, g, h⟩ => ⟨a, b, c, d, e, f, g, h⟩⟩

/-! ## Statements that write -/

variable {ε : Type}

/-- the end of a statement -/
def write (e : ε) (db : Db) : Except ε Db := if db.Valid then .ok db else .error e

/-- `reject_machine_scope_update`: the account stays, and the host key is only set, while the Machine is being verified -/
def ScopeKept (old new : MachineRow) : Prop :=
  new.targetAccount = old.targetAccount ∧
    (new.hostIdentity = old.hostIdentity ∨
      (old.hostIdentity = none ∧ new.hostIdentity.isSome ∧ old.lifecycle = .verifying ∧ new.lifecycle = .verifying))

instance (old new : MachineRow) : Decidable (ScopeKept old new) := inferInstanceAs (Decidable (_ ∧ _))

section
variable (e : ε) (db : Db)

/-! UPDATE .. SET f WHERE p, and INSERT of one row -/

def Db.updateCredentials (p : CredentialRow → Bool) (f : CredentialRow → CredentialRow) : Except ε Db :=
  write e { db with credentials := update p f db.credentials }

def Db.updateEnrollments (p : EnrollmentRow → Bool) (f : EnrollmentRow → EnrollmentRow) : Except ε Db :=
  write e { db with enrollments := update p f db.enrollments }

def Db.updateAttempts (p : AttemptRow → Bool) (f : AttemptRow → AttemptRow) : Except ε Db :=
  write e { db with attempts := update p f db.attempts }

def Db.updateBindings (p : BindingRow → Bool) (f : BindingRow → BindingRow) : Except ε Db :=
  write e { db with bindings := update p f db.bindings }

def Db.updateOwners (p : OwnerRow → Bool) (f : OwnerRow → OwnerRow) : Except ε Db :=
  write e { db with owners := update p f db.owners }

def Db.updateNodes (p : NodeRow → Bool) (f : NodeRow → NodeRow) : Except ε Db :=
  write e { db with nodes := update p f db.nodes }

def Db.insertCredential (r : CredentialRow) : Except ε Db := write e { db with credentials := r :: db.credentials }
def Db.insertMachine (r : MachineRow) : Except ε Db := write e { db with machines := r :: db.machines }
def Db.insertEnrollment (r : EnrollmentRow) : Except ε Db := write e { db with enrollments := r :: db.enrollments }
def Db.insertAttempt (r : AttemptRow) : Except ε Db := write e { db with attempts := r :: db.attempts }
def Db.insertBinding (r : BindingRow) : Except ε Db := write e { db with bindings := r :: db.bindings }
def Db.insertOwner (r : OwnerRow) : Except ε Db := write e { db with owners := r :: db.owners }
def Db.insertNode (r : NodeRow) : Except ε Db := write e { db with nodes := r :: db.nodes }

end

/-- UPDATE machines, with its trigger -/
def Db.updateMachines (e : ε) (p : MachineRow → Bool) (f : MachineRow → MachineRow) (db : Db) : Except ε Db :=
  if ∀ r ∈ db.machines, p r = true → ScopeKept r (f r) then write e { db with machines := update p f db.machines } else .error e

/-- `append_audit` -/
def Db.appendAudit (kind : String) (machine credential : Option Uuid) (action : String) (db : Db) : Db :=
  { db with audit := ⟨kind, machine, credential, action⟩ :: db.audit }

theorem write_eq_ok {e : ε} {db db' : Db} : write e db = .ok db' ↔ db.Valid ∧ db = db' := by
  unfold write
  split_ifs with h <;> simp [h]

theorem updateMachines_eq_ok {e : ε} {p : MachineRow → Bool} {f : MachineRow → MachineRow} {db db' : Db} :
    db.updateMachines e p f = .ok db' ↔ (∀ r ∈ db.machines, p r = true → ScopeKept r (f r)) ∧
      Db.Valid { db with machines := update p f db.machines } ∧ { db with machines := update p f db.machines } = db' := by
  unfold Db.updateMachines
  split_ifs with h
  · rw [write_eq_ok]
    exact ⟨fun hw => ⟨h, hw⟩, And.right⟩
  · simp [h]

end OwlMux.Machines
