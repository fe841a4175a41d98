/-
What a transaction that committed has read and written. One lemma for each transaction: the guards it passed and the rows it
left, so that no later proof looks inside a transaction again. Before them, how the rows of one Machine change with a
statement on a table.
-/
import Mathlib.Tactic
import OwlMux.Machines.Statements

namespace OwlMux.Machines

open OwlMux.Relay (Uuid Text RelayError RouteIdentity)
open OwlMux.Cluster (Config Lifecycle checkedSucc i64Max OwnerExpectation)
open OwlMux.Table

variable {db db' : Db} {n : Node} {now : Clock} {m : Uuid}

/-! ## The rows of one Machine -/

theorem machineIn_update {p : MachineRow → Bool} {f : MachineRow → MachineRow} {t : List MachineRow}
    (hf : ∀ r, (f r).id = r.id) (m : Uuid) :
    machineIn (update p f t) m = (machineIn t m).map fun r => if p r then f r else r := find?_update hf m

theorem ownerIn_update {p : OwnerRow → Bool} {f : OwnerRow → OwnerRow} {t : List OwnerRow}
    (hf : ∀ r, (f r).machineId = r.machineId) (m : Uuid) :
    ownerIn (update p f t) m = (ownerIn t m).map fun r => if p r then f r else r := find?_update hf m

theorem issuedIn_update {p : EnrollmentRow → Bool} {f : EnrollmentRow → EnrollmentRow} {t : List EnrollmentRow}
    (hf : ∀ r, (f r).status ≠ .issued) (m : Uuid) : issuedIn (update p f t) m = (issuedIn t m).filter fun r => !p r := by
  unfold issuedIn
  rw [filter_update_of_leaves fun r _ _ => by simp [hf r], List.filter_filter]
  exact List.filter_congr fun r _ => Bool.and_comm _ _

theorem verifyingIn_update {p : AttemptRow → Bool} {f : AttemptRow → AttemptRow} {t : List AttemptRow}
    (hf : ∀ r, (f r).status ≠ .verifying) (m : Uuid) :
    verifyingIn (update p f t) m = (verifyingIn t m).filter fun r => !p r := by
  unfold verifyingIn
  rw [filter_update_of_leaves fun r _ _ => by simp [hf r], List.filter_filter]
  exact List.filter_congr fun r _ => Bool.and_comm _ _

theorem boundIn_update {p : BindingRow → Bool} {f : BindingRow → BindingRow} {t : List BindingRow}
    (hf : ∀ r, (f r).active = false) (m : Uuid) : boundIn (update p f t) m = (boundIn t m).filter fun r => !p r := by
  unfold boundIn
  rw [filter_update_of_leaves fun r _ _ => by simp [hf r], List.filter_filter]
  exact List.filter_congr fun r _ => Bool.and_comm _ _

theorem mem_machineIn {t : List MachineRow} {r : MachineRow} (h : machineIn t m = some r) : r ∈ t ∧ r.id = m := mem_of_find? h
theorem mem_ownerIn {t : List OwnerRow} {r : OwnerRow} (h : ownerIn t m = some r) : r ∈ t ∧ r.machineId = m := mem_of_find? h

theorem mem_issuedIn {t : List EnrollmentRow} {r : EnrollmentRow} : r ∈ issuedIn t m ↔ r ∈ t ∧ r.status = .issued ∧ r.machineId = m := by
  simp [issuedIn]

theorem mem_verifyingIn {t : List AttemptRow} {r : AttemptRow} :
    r ∈ verifyingIn t m ↔ r ∈ t ∧ r.status = .verifying ∧ r.machineId = m := by
  simp [verifyingIn]

theorem mem_boundIn {t : List BindingRow} {r : BindingRow} : r ∈ boundIn t m ↔ r ∈ t ∧ r.active = true ∧ r.machineId = m := by
  simp [boundIn]

/-- the row of a Machine, by its primary key -/
theorem machineIn_eq_some {t : List MachineRow} (h : MachinesOk t) {r : MachineRow} (hr : r ∈ t) (hm : r.id = m) :
    machineIn t m = some r := by
  subst hm
  exact UniqueOn.find?_eq h.1 hr

theorem ownerIn_eq_some {t : List OwnerRow} (h : OwnersOk t) {r : OwnerRow} (hr : r ∈ t) (hm : r.machineId = m) :
    ownerIn t m = some r := by
  subst hm
  exact UniqueOn.find?_eq h.1 hr

/-! ## Audit events -/

theorem valid_appendAudit {kind action : String} {a b : Option Uuid} : (db.appendAudit kind a b action).Valid ↔ db.Valid :=
  ⟨fun h => ⟨h.1, h.2, h.3, h.4, h.5, h.6, h.7, h.8⟩, fun h => ⟨h.1, h.2, h.3, h.4, h.5, h.6, h.7, h.8⟩⟩

/-! ## Enrollment -/

theorem acceptable_eq_some {digest : Digest} {clock : ℤ} {e : EnrollmentRow} {r : MachineRow}
    (h : db.acceptable digest clock = some (e, r)) :
    (e ∈ db.enrollments ∧ e.tokenDigest = digest ∧ e.status = .issued ∧ clock < e.tokenExpiresAt) ∧
      r ∈ db.machines ∧ r.id = e.machineId ∧ r.lifecycle = .pending := by
  obtain ⟨e', he, hs⟩ := List.exists_of_findSome?_eq_some h
  split_ifs at hs with hc
  obtain ⟨r', hr', heq⟩ := Option.map_eq_some_iff.1 hs
  obtain ⟨rfl, rfl⟩ := Prod.mk.inj heq
  have hp := List.find?_some hr'
  simp only [Bool.and_eq_true, decide_eq_true_eq] at hp
  exact ⟨⟨he, hc⟩, List.mem_of_find?_eq_some hr', hp⟩

theorem acceptToken_spec {hash : Text → Digest} {token : Text} {attemptId : Uuid} {accepted : AcceptedEnrollment}
    (h : acceptToken hash n now token attemptId db = .ok (db', accepted)) :
    ∃ e r, db.acceptable (hash token) (now 0) = some (e, r) ∧ db.nodeValid n (now 1) false = true ∧ db'.Valid ∧
      accepted = ⟨r.id, attemptId, r.routeRevision, r.targetAccount, r.hostIdentity⟩ ∧
      db' = { db with
        enrollments := update (fun x => decide (x.id = e.id)) (fun x => { x with status := .consumed }) db.enrollments
        machines := update (fun x => decide (x.id = r.id)) (fun x => { x with lifecycle := .verifying }) db.machines
        attempts := ⟨attemptId, r.id, e.id, some n.incarnationId, r.routeRevision, .verifying,
          now 2 + enrollmentAttemptSeconds⟩ :: db.attempts
        audit := ⟨"enrollment", some r.id, none, "accept_token"⟩ :: db.audit } := by
  simp only [acceptToken, bind_eq_ok, ensure_eq_ok, orError_eq_ok, Db.updateEnrollments, Db.insertAttempt, write_eq_ok,
    updateMachines_eq_ok, lockDeployment, validateNode, pure_eq_ok, Prod.exists] at h
  obtain ⟨-, -, -, -, e, r, hs, -, ⟨-, hn⟩, _, ⟨-, rfl⟩, _, ⟨-, -, rfl⟩, _, ⟨hv, rfl⟩, heq⟩ := h
  obtain ⟨rfl, rfl⟩ := Prod.mk.inj heq
  exact ⟨e, r, hs, hn, valid_appendAudit.2 hv, rfl, rfl⟩

/-- the attempt that `activate` completes, its Machine and the Machine's credential -/
theorem activatable_eq_true {accepted : AcceptedEnrollment} {clock : ℤ} (h : db.activatable n accepted clock = true) :
    ∃ a ∈ db.attempts, (a.id = accepted.attemptId ∧ a.machineId = accepted.machineId ∧ a.status = .verifying ∧
        clock < a.deadline ∧ a.executingIncarnationId = some n.incarnationId) ∧
      ∃ r ∈ db.machines, r.id = a.machineId ∧ a.routeRevision = r.routeRevision ∧ r.lifecycle = .verifying ∧
        db.credentialActive r.sshCredentialId = true := by
  simp only [Db.activatable, List.any_eq_true, Bool.and_eq_true, decide_eq_true_eq] at h
  obtain ⟨a, ha, ⟨⟨⟨⟨h1, h2⟩, h3⟩, h4⟩, h5⟩, r, hr, ⟨⟨h6, h7⟩, h8⟩, c, hc, h9, h10⟩ := h
  refine ⟨a, ha, ⟨h1, h2, h3, h4, h5⟩, r, hr, h6, h7, h8, ?_⟩
  simp only [Db.credentialActive, List.any_eq_true, Bool.and_eq_true, decide_eq_true_eq]
  exact ⟨c, hc, h9, h10⟩

/-- the audit events of `activate` -/
def activationAudit (accepted : AcceptedEnrollment) (audit : List AuditRow) : List AuditRow :=
  ⟨"relay_binding", some accepted.machineId, none, "activate"⟩ ::
    if accepted.hostIdentity.isNone then ⟨"machine", some accepted.machineId, none, "pin_ssh_host_key"⟩ :: audit else audit

theorem activate_spec {isEd25519 : Text → Bool} {accepted : AcceptedEnrollment} {bindingId relayId : Uuid}
    {publicKey : List UInt8} {hostIdentity : Text}
    (h : activate isEd25519 n now accepted bindingId relayId publicKey hostIdentity db = .ok db') :
    db.nodeValid n (now 0) false = true ∧ db.activatable n accepted (now 1) = true ∧ isEd25519 hostIdentity = true ∧
      affected (pinnable accepted hostIdentity) db.machines = 1 ∧ db'.Valid ∧
      db' = { db with
        machines := update (pinnable accepted hostIdentity)
          (fun r => { r with hostIdentity := r.hostIdentity.or (some hostIdentity) }) db.machines
        bindings := ⟨bindingId, accepted.machineId, relayId, publicKey, accepted.routeRevision, true⟩ :: db.bindings
        attempts := update (fun a => decide (a.id = accepted.attemptId)) (fun a => { a with status := .activated }) db.attempts
        audit := activationAudit accepted db.audit } := by
  simp only [activate, bind_eq_ok, ensure_eq_ok, Db.updateAttempts, Db.insertBinding, write_eq_ok, updateMachines_eq_ok,
    lockDeployment, validateNode, pure_eq_ok] at h
  obtain ⟨-, -, -, ⟨-, hn⟩, -, ⟨ha, he⟩, _, ⟨-, -, rfl⟩, -, hc, _, ⟨-, rfl⟩, _, ⟨hv, rfl⟩, rfl⟩ := h
  refine ⟨hn, ha, he, hc, valid_appendAudit.2 hv, ?_⟩
  unfold activationAudit
  split_ifs <;> rfl

theorem failAttempt_spec {accepted : AcceptedEnrollment} (h : failAttempt n now accepted db = .ok db') :
    db.nodeValid n (now 0) false = true ∧ db'.Valid ∧
      db' = { db with
        attempts := update (failing accepted.attemptId) AttemptRow.fail db.attempts
        machines := if affected (failing accepted.attemptId) db.attempts = 1 then
            update (fun r => decide (r.id = accepted.machineId) && decide (r.lifecycle = .verifying) &&
              decide (r.routeRevision = accepted.routeRevision)) (fun r => { r with lifecycle := .pending }) db.machines
          else db.machines } := by
  simp only [failAttempt, bind_eq_ok, ensure_eq_ok, Db.updateAttempts, write_eq_ok, lockDeployment, validateNode] at h
  obtain ⟨-, -, -, ⟨-, hn⟩, _, ⟨hv, rfl⟩, h⟩ := h
  split_ifs at h ⊢ with hc
  · obtain ⟨-, hv', rfl⟩ := updateMachines_eq_ok.1 h
    exact ⟨hn, hv', rfl⟩
  · obtain rfl := pure_eq_ok.1 h
    exact ⟨hn, hv, rfl⟩

/-- no binding of the attempt's Machine and revision is in force -/
def unbound (db : Db) (row : AttemptRow) : Bool :=
  !db.bindings.any fun b => decide (b.machineId = row.machineId) && decide (b.routeRevision = row.routeRevision) && b.active

theorem recoverAttempt_spec {row : AttemptRow} (h : recoverAttempt db row = .ok db') :
    db'.Valid ∧ ∃ audit, db' = { db with
      attempts := update (failing row.id) AttemptRow.fail db.attempts
      machines := if affected (failing row.id) db.attempts = 1 then
          update (fun r => decide (r.id = row.machineId) && decide (r.lifecycle = .verifying) &&
            decide (r.routeRevision = row.routeRevision) && unbound db row) (fun r => { r with lifecycle := .pending }) db.machines
        else db.machines
      audit := audit } := by
  simp only [recoverAttempt, bind_eq_ok, Db.updateAttempts, write_eq_ok] at h
  obtain ⟨_, ⟨hv, rfl⟩, h⟩ := h
  split_ifs at h ⊢ with hc
  · simp only [bind_eq_ok, updateMachines_eq_ok, pure_eq_ok] at h
    obtain ⟨_, ⟨-, hv', rfl⟩, rfl⟩ := h
    exact ⟨valid_appendAudit.2 hv', _, rfl⟩
  · obtain rfl := pure_eq_ok.1 h
    exact ⟨hv, _, rfl⟩

theorem recoverExpiredAttempts_spec {machineId : Option Uuid} (h : recoverExpiredAttempts n now machineId db = .ok db') :
    db.nodeValid n (now 0) false = true ∧ (db.expired machineId (now 1)).foldlM recoverAttempt db = .ok db' := by
  simp only [recoverExpiredAttempts, bind_eq_ok, ensure_eq_ok, lockDeployment, validateNode] at h
  obtain ⟨-, -, -, ⟨-, hn⟩, h⟩ := h
  exact ⟨hn, h⟩

/-! ## Ownership -/

theorem claimable_eq_some {revision : ℤ} {o : OwnerRow} (h : db.claimable m revision = some o) :
    (o ∈ db.owners ∧ o.machineId = m ∧ o.routeRevision = revision) ∧
      (∃ r ∈ db.machines, r.id = m ∧ (r.lifecycle = .verifying ∨ r.lifecycle = .active) ∧ r.hostIdentity.isSome = true ∧
        r.routeRevision = revision) ∧
      ∃ b ∈ db.bindings, b.machineId = m ∧ b.active = true ∧ b.routeRevision = revision := by
  have hp := List.find?_some h
  simp only [Bool.and_eq_true, List.any_eq_true, decide_eq_true_eq] at hp
  obtain ⟨⟨⟨h1, h2⟩, r, hr, ⟨⟨h3, h4⟩, h5⟩, h6⟩, b, hb, ⟨h7, h8⟩, h9⟩ := hp
  exact ⟨⟨List.mem_of_find?_eq_some h, h1, h2⟩, ⟨r, hr, h3, h4, h5, h6⟩, b, hb, h7, h8, h9⟩

theorem checkedSucc_eq_some {k k' : ℤ} : checkedSucc k = some k' ↔ k + 1 ≤ i64Max ∧ k' = k + 1 := by
  unfold checkedSucc
  split_ifs with h
  · simp [h, eq_comm]
  · simp [h]

theorem claimOwner_spec {connectionId : Uuid} {revision epoch : ℤ}
    (h : claimOwner n now m connectionId revision db = .ok (db', epoch)) :
    ∃ o, db.nodeValid n (now 0) false = true ∧ db.claimable m revision = some o ∧ db.ownerLive o (now 1) = false ∧
      epoch = o.connectionEpoch + 1 ∧ db'.Valid ∧
      db' = { db with
        owners := update (fun r => decide (r.machineId = m))
          (fun r => { r with connectionEpoch := epoch, owner := some (n.incarnationId, connectionId) }) db.owners
        machines := update (fun r => decide (r.id = m) && decide (r.lifecycle = .verifying) && decide (r.routeRevision = revision))
          (fun r => { r with lifecycle := .active }) db.machines
        audit := ⟨"machine_owner", some m, none, "claim"⟩ :: db.audit } := by
  simp only [claimOwner, bind_eq_ok, ensure_eq_ok, orError_eq_ok, Db.updateOwners, write_eq_ok, updateMachines_eq_ok,
    lockDeployment, validateNode, pure_eq_ok] at h
  obtain ⟨-, -, -, ⟨-, hn⟩, o, ho, -, hl, e, he, _, ⟨-, rfl⟩, _, ⟨-, hv, rfl⟩, heq⟩ := h
  obtain ⟨rfl, rfl⟩ := Prod.mk.inj heq
  exact ⟨o, hn, ho, hl, (checkedSucc_eq_some.1 he).2, valid_appendAudit.2 hv, rfl⟩

theorem releaseOwner_spec {connectionId : Uuid} {epoch : ℤ} (h : releaseOwner n now m connectionId epoch db = .ok db') :
    db.nodeValid n (now 0) true = true ∧ affected (releasable n m connectionId epoch) db.owners = 1 ∧ db'.Valid ∧
      db' = { db with
        owners := update (releasable n m connectionId epoch) (fun o => { o with owner := none }) db.owners
        audit := ⟨"machine_owner", some m, none, "release"⟩ :: db.audit } := by
  simp only [releaseOwner, bind_eq_ok, ensure_eq_ok, Db.updateOwners, write_eq_ok, lockDeployment, validateReleasingNode,
    pure_eq_ok] at h
  obtain ⟨-, -, -, ⟨-, hn⟩, _, ⟨hv, rfl⟩, -, hc, rfl⟩ := h
  exact ⟨hn, hc, valid_appendAudit.2 hv, rfl⟩

/-! ## What the operator asks for -/

theorem createMachine_spec {hash : Text → Digest} {input : CreateMachineInput} {machineId enrollmentId : Uuid}
    {random : List UInt8} (h : createMachine hash n now input machineId enrollmentId random db = .ok db') :
    ∃ credentialId, db.credentialActive credentialId = true ∧ db'.Valid ∧
      db' = { db with
        machines := ⟨machineId, credentialId, input.aliasKey, .pending, 1, 1, input.targetAccount, none⟩ :: db.machines
        owners := ⟨machineId, 0, none, 1⟩ :: db.owners
        enrollments := ⟨enrollmentId, machineId, hash (enrollmentToken random), now 1 + tokenTtlSeconds, .issued⟩ :: db.enrollments
        audit := ⟨"machine", some machineId, none, "create"⟩ :: db.audit } := by
  simp only [createMachine, bind_eq_ok, ensure_eq_ok, Db.insertMachine, Db.insertOwner, Db.issueToken, Db.insertEnrollment,
    write_eq_ok, lockCurrentDeployment, pure_eq_ok] at h
  obtain ⟨-, -, -, -, -, hc, _, ⟨-, rfl⟩, _, ⟨-, rfl⟩, _, ⟨hv, rfl⟩, rfl⟩ := h
  exact ⟨_, hc, valid_appendAudit.2 hv, rfl⟩

theorem issueEnrollmentToken_spec {hash : Text → Digest} {enrollmentId : Uuid} {random : List UInt8}
    (h : issueEnrollmentToken hash n now m enrollmentId random db = .ok db') :
    (machineIn db.machines m).map MachineRow.lifecycle = some .pending ∧ db'.Valid ∧
      db' = { db with
        enrollments := ⟨enrollmentId, m, hash (enrollmentToken random), now 1 + tokenTtlSeconds, .issued⟩ ::
          update (cancellable m) EnrollmentRow.cancel db.enrollments
        audit := ⟨"enrollment", some m, none, "issue_token"⟩ :: db.audit } := by
  simp only [issueEnrollmentToken, bind_eq_ok, ensure_eq_ok, Db.updateEnrollments, Db.issueToken, Db.insertEnrollment,
    write_eq_ok, lockCurrentDeployment, pure_eq_ok] at h
  obtain ⟨-, -, -, hp, _, ⟨-, rfl⟩, _, ⟨hv, rfl⟩, rfl⟩ := h
  exact ⟨hp, valid_appendAudit.2 hv, rfl⟩

theorem cancelEnrollmentToken_spec (h : cancelEnrollmentToken n now m db = .ok db') :
    db'.Valid ∧ db' = { db with
      enrollments := update (cancellable m) EnrollmentRow.cancel db.enrollments
      audit := ⟨"enrollment", some m, none, "cancel_token"⟩ :: db.audit } := by
  simp only [cancelEnrollmentToken, bind_eq_ok, ensure_eq_ok, Db.updateEnrollments, write_eq_ok, lockCurrentDeployment,
    pure_eq_ok] at h
  obtain ⟨-, -, -, -, _, ⟨hv, rfl⟩, -, -, rfl⟩ := h
  exact ⟨valid_appendAudit.2 hv, rfl⟩

theorem reEnrollDisabledMachine_spec (h : reEnrollDisabledMachine n now m db = .ok db') :
    db'.Valid ∧ db' = { db with
      machines := update (fun r => decide (r.id = m) && decide (r.lifecycle = .disabled)) (fun r => { r with lifecycle := .pending })
        db.machines
      audit := ⟨"machine", some m, none, "re_enroll"⟩ :: db.audit } := by
  simp only [reEnrollDisabledMachine, bind_eq_ok, ensure_eq_ok, updateMachines_eq_ok, lockCurrentDeployment, pure_eq_ok] at h
  obtain ⟨-, -, _, ⟨-, hv, rfl⟩, -, -, rfl⟩ := h
  exact ⟨valid_appendAudit.2 hv, rfl⟩

theorem rebindMachineCredential_spec {credentialId : Uuid} (h : rebindMachineCredential n now m credentialId db = .ok db') :
    ∃ r, machineIn db.machines m = some r ∧ r.lifecycle = .active ∧ db.credentialActive credentialId = true ∧ db'.Valid ∧
      db' = { db with
        machines := update (fun x => decide (x.id = m) && decide (x.lifecycle = .active) &&
            decide (x.credentialRevision = r.credentialRevision))
          (fun x => { x with sshCredentialId := credentialId, credentialRevision := r.credentialRevision + 1 }) db.machines
        audit := ⟨"machine", some m, some credentialId, "rebind"⟩ :: db.audit } := by
  simp only [rebindMachineCredential, bind_eq_ok, ensure_eq_ok, orError_eq_ok, updateMachines_eq_ok, lockCurrentDeployment,
    pure_eq_ok] at h
  obtain ⟨-, -, r, hr, -, hl, -, -, next, hnext, -, hc, _, ⟨-, hv, rfl⟩, -, -, rfl⟩ := h
  obtain ⟨-, rfl⟩ := checkedSucc_eq_some.1 hnext
  exact ⟨r, hr, hl, hc, valid_appendAudit.2 hv, rfl⟩

/-- the bindings, owner and Machine rows that a transition from `revision` writes -/
def transitionBinding (m : Uuid) (revision : ℤ) (b : BindingRow) : Bool :=
  decide (b.machineId = m) && b.active && decide (b.routeRevision = revision)

def transitionOwner (m : Uuid) (revision : ℤ) (o : OwnerRow) : Bool := decide (o.machineId = m) && decide (o.routeRevision = revision)

def transitionMachine (m : Uuid) (revision : ℤ) (r : MachineRow) : Bool :=
  decide (r.id = m) && decide (r.lifecycle = .active) && decide (r.routeRevision = revision)

/-- the rows after a transition from `revision` -/
def Db.transitioned (db : Db) (m : Uuid) (kind : Transition) (revision : ℤ) : Db :=
  { db with
    bindings := update (transitionBinding m revision) (fun b => { b with active := false }) db.bindings
    attempts := update (fun a => decide (a.machineId = m) && decide (a.status = .verifying)) AttemptRow.fail db.attempts
    enrollments := update (cancellable m) EnrollmentRow.cancel db.enrollments
    owners := update (transitionOwner m revision) (fun o => { o with owner := none, routeRevision := revision + 1 }) db.owners
    machines := update (transitionMachine m revision)
      (fun r => { r with lifecycle := kind.lifecycle, routeRevision := revision + 1 }) db.machines
    audit := ⟨"machine", some m, none, kind.action⟩ :: db.audit }

theorem commitActiveMachineTransition_spec {kind : Transition} {expected : OwnerExpectation}
    (h : commitActiveMachineTransition n now m kind expected db = .ok db') :
    ∃ r o, (r ∈ db.machines ∧ r.id = m ∧ r.lifecycle = .active ∧ r.routeRevision = expected.routeRevision) ∧
      (ownerIn db.owners m = some o ∧ o.routeRevision = r.routeRevision ∧ ownerMatches db n expected o (now 1) = true) ∧
      affected (transitionBinding m r.routeRevision) db.bindings = 1 ∧ r.routeRevision + 1 ≤ i64Max ∧ db'.Valid ∧
      db' = db.transitioned m kind r.routeRevision := by
  simp only [commitActiveMachineTransition, bind_eq_ok, ensure_eq_ok, orError_eq_ok, updateMachines_eq_ok, Db.updateBindings,
    Db.updateAttempts, Db.updateEnrollments, Db.updateOwners, write_eq_ok, lockCurrentDeployment, pure_eq_ok] at h
  obtain ⟨-, -, r, hr, -, hrev, o, ho, -, ⟨hor, hm⟩, next, hnext, _, ⟨-, rfl⟩, -, hrevoked, _, ⟨-, rfl⟩, _, ⟨-, rfl⟩, _, ⟨-, rfl⟩,
    _, ⟨-, hv, rfl⟩, -, -, rfl⟩ := h
  obtain ⟨hmax, rfl⟩ := checkedSucc_eq_some.1 hnext
  have hp := List.find?_some hr
  simp only [Bool.and_eq_true, decide_eq_true_eq] at hp
  exact ⟨r, o, ⟨List.mem_of_find?_eq_some hr, hp.1, hp.2, hrev⟩, ⟨ho, hor, hm⟩, hrevoked, hmax, valid_appendAudit.2 hv, rfl⟩

/-! ## Credentials -/

theorem createCredential_spec {id : Uuid} {nameKey : Text} (h : createCredential n now id nameKey db = .ok db') :
    db'.Valid ∧ db' = { db with
      credentials := ⟨id, nameKey, true⟩ :: db.credentials
      audit := ⟨"ssh_credential", none, some id, "create"⟩ :: db.audit } := by
  simp only [createCredential, bind_eq_ok, ensure_eq_ok, Db.insertCredential, write_eq_ok, lockCurrentDeployment, pure_eq_ok] at h
  obtain ⟨-, -, -, -, _, ⟨hv, rfl⟩, rfl⟩ := h
  exact ⟨valid_appendAudit.2 hv, rfl⟩

theorem setDefaultCredential_spec {id : Uuid} (h : setDefaultCredential n now id db = .ok db') :
    db.credentialActive id = true ∧ db'.Valid ∧ db' = { db with
      defaultSshCredentialId := id
      audit := ⟨"ssh_credential", none, some id, "set_default"⟩ :: db.audit } := by
  simp only [setDefaultCredential, bind_eq_ok, ensure_eq_ok, write_eq_ok, lockCurrentDeployment, pure_eq_ok] at h
  obtain ⟨-, -, -, hc, _, ⟨hv, rfl⟩, rfl⟩ := h
  exact ⟨hc, valid_appendAudit.2 hv, rfl⟩

theorem resetDefaultCredential_spec {id : Uuid} {nameKey : Text} (h : resetDefaultCredential n now id nameKey db = .ok db') :
    db'.Valid ∧ db' = { db with
      credentials := ⟨id, nameKey, true⟩ :: db.credentials
      defaultSshCredentialId := id
      audit := ⟨"ssh_credential", none, some id, "reset_default"⟩ :: db.audit } := by
  simp only [resetDefaultCredential, bind_eq_ok, ensure_eq_ok, Db.insertCredential, write_eq_ok, lockCurrentDeployment,
    pure_eq_ok] at h
  obtain ⟨-, -, -, -, _, ⟨-, rfl⟩, _, ⟨hv, rfl⟩, rfl⟩ := h
  exact ⟨valid_appendAudit.2 hv, rfl⟩

/-- the credential is active, not the default and used by no Machine -/
def Db.unused (db : Db) (id : Uuid) (c : CredentialRow) : Bool :=
  decide (c.id = id) && c.active && decide (db.defaultSshCredentialId ≠ c.id) &&
    !db.machines.any fun m => decide (m.sshCredentialId = c.id)

theorem retireCredential_spec {id : Uuid} (h : retireCredential n now id db = .ok db') :
    db'.Valid ∧ db' = { db with
      credentials := update (db.unused id) (fun c => { c with active := false }) db.credentials
      audit := ⟨"ssh_credential", none, some id, "retire"⟩ :: db.audit } := by
  simp only [retireCredential, bind_eq_ok, ensure_eq_ok, Db.updateCredentials, write_eq_ok, lockCurrentDeployment,
    pure_eq_ok] at h
  obtain ⟨-, -, -, -, _, ⟨hv, rfl⟩, -, -, rfl⟩ := h
  exact ⟨valid_appendAudit.2 hv, rfl⟩

/-! ## Nodes -/

theorem registerNode_spec {ttl : ℤ} (h : registerNode n now ttl db = .ok db') :
    db'.Valid ∧ db' = { db with
      nodes := ⟨n.incarnationId, true, n.config.configEpoch, n.config.serverBuildId, now 1 + ttl⟩ :: db.nodes
      audit := ⟨"server_node", none, none, "register"⟩ :: db.audit } := by
  simp only [registerNode, bind_eq_ok, ensure_eq_ok, Db.insertNode, write_eq_ok, validateDeployment, pure_eq_ok] at h
  obtain ⟨-, -, -, -, _, ⟨hv, rfl⟩, rfl⟩ := h
  exact ⟨valid_appendAudit.2 hv, rfl⟩

theorem renewNode_spec {ttl : ℤ} (h : renewNode n now ttl db = .ok db') :
    db'.Valid ∧ db' = { db with
      nodes := update (fun r => ownRow n r && r.serving) (fun r => { r with leaseUntil := now 0 + ttl }) db.nodes } := by
  simp only [renewNode, bind_eq_ok, ensure_eq_ok, Db.updateNodes, write_eq_ok, validateDeployment, pure_eq_ok] at h
  obtain ⟨-, -, _, ⟨hv, rfl⟩, -, -, rfl⟩ := h
  exact ⟨hv, rfl⟩

theorem drainNode_spec (h : drainNode n now db = .ok db') :
    db'.Valid ∧ db' = { db with
      nodes := update (fun r => ownRow n r && r.serving && decide (now 0 < r.leaseUntil)) (fun r => { r with serving := false }) db.nodes
      audit := ⟨"server_node", none, none, "drain"⟩ :: db.audit } := by
  simp only [drainNode, bind_eq_ok, ensure_eq_ok, Db.updateNodes, write_eq_ok, validateDeployment, pure_eq_ok] at h
  obtain ⟨-, -, _, ⟨hv, rfl⟩, -, -, rfl⟩ := h
  exact ⟨valid_appendAudit.2 hv, rfl⟩

theorem releaseNode_spec (h : releaseNode n db = .ok db') :
    db'.Valid ∧ affected (fun r => ownRow n r && !r.serving) db.nodes = 1 ∧ db' = { db with
      nodes := db.nodes.filter fun r => !(ownRow n r && !r.serving)
      attempts := db.attempts.map (AttemptRow.orphan n.incarnationId)
      audit := ⟨"server_node", none, none, "release"⟩ :: db.audit } := by
  simp only [releaseNode, bind_eq_ok, ensure_eq_ok, write_eq_ok, validateDeployment, pure_eq_ok] at h
  obtain ⟨-, -, _, ⟨hv, rfl⟩, -, hc, rfl⟩ := h
  rw [if_neg (by omega)] at hv ⊢
  exact ⟨valid_appendAudit.2 hv, hc, rfl⟩

theorem configure_spec {config : Config} (h : configure config now db = .ok db') :
    config.configEpoch = db.deployment.configEpoch + 1 ∧ db.leased (now 0) = false ∧ db' = { db with
      deployment := config
      audit := ⟨"deployment", none, none, "configuration_transition"⟩ :: db.audit } := by
  simp only [configure, bind_eq_ok, ensure_eq_ok, pure_eq_ok] at h
  obtain ⟨-, he, -, hl, rfl⟩ := h
  exact ⟨he, hl, rfl⟩

end OwlMux.Machines
