/-
Transactions that cannot fail. On rows that keep the constraints a statement breaks none of them when its rows keep their keys
and pass their own CHECKs; with the guards of a transaction, this says that it commits.
-/
import Mathlib.Tactic
import OwlMux.Machines.Lifecycle

namespace OwlMux.Machines

open OwlMux.Relay (Uuid Text RelayError RouteIdentity)
open OwlMux.Cluster (Config Lifecycle checkedSucc i64Max OwnerExpectation)
open OwlMux.Table

variable {db : Db} {n : Node} {now : Clock} {m : Uuid}

/-! ## Statements that keep the constraints -/

theorem Db.Valid.updateMachines (hv : db.Valid) {p : MachineRow → Bool} {f : MachineRow → MachineRow}
    (hkey : ∀ r, (f r).id = r.id ∧ (f r).aliasKey = r.aliasKey ∧ (f r).sshCredentialId = r.sshCredentialId)
    (hcheck : ∀ r ∈ db.machines, p r = true → (f r).Check) : Db.Valid { db with machines := update p f db.machines } := by
  have hids := map_update (p := p) (t := db.machines) fun r => (hkey r).1
  refine { hv with machines := ⟨hv.machines.1.update fun r _ _ _ => ⟨rfl, (hkey r).1⟩,
    hv.machines.2.1.update fun r _ _ _ => ⟨rfl, (hkey r).2.1⟩,
    forall_mem_update hv.machines.2.2 fun r hr hp _ => hcheck r hr hp⟩, linked := ?_ }
  obtain ⟨⟨hd, hc⟩, hrest⟩ := hv.linked
  refine ⟨⟨hd, forall_mem_update hc fun r hr _ h => ?_⟩, ?_⟩
  · rw [(hkey r).2.2]
    exact h
  · simp only [hids]
    exact hrest

theorem Db.Valid.updateAttempts (hv : db.Valid) {p : AttemptRow → Bool} : Db.Valid { db with attempts := update p AttemptRow.fail db.attempts } := by
  refine { hv with attempts := ⟨hv.attempts.1.update fun r _ _ _ => ⟨rfl, rfl⟩, hv.attempts.2.1.update fun r _ _ _ => ⟨rfl, rfl⟩,
    hv.attempts.2.2.1.update fun r _ _ hq => by simp [AttemptRow.fail] at hq,
    forall_mem_update hv.attempts.2.2.2 fun r _ _ h => ⟨h.1, by simp [AttemptRow.fail]⟩⟩, linked := ?_ }
  obtain ⟨hc, he, ha, hb, ho⟩ := hv.linked
  exact ⟨hc, he, forall_mem_update ha fun r _ _ h => h, hb, ho⟩

theorem Db.Valid.updateEnrollments (hv : db.Valid) {p : EnrollmentRow → Bool} :
    Db.Valid { db with enrollments := update p EnrollmentRow.cancel db.enrollments } := by
  have hids : (update p EnrollmentRow.cancel db.enrollments).map EnrollmentRow.id = db.enrollments.map EnrollmentRow.id :=
    map_update fun r => rfl
  refine { hv with enrollments := ⟨hv.enrollments.1.update fun r _ _ _ => ⟨rfl, rfl⟩,
    hv.enrollments.2.1.update fun r _ _ _ => ⟨rfl, rfl⟩,
    hv.enrollments.2.2.update fun r _ _ hq => by simp [EnrollmentRow.cancel] at hq⟩, linked := ?_ }
  obtain ⟨hc, he, ha, hb, ho⟩ := hv.linked
  refine ⟨hc, forall_mem_update he fun r _ _ h => h, ?_, hb, ho⟩
  simp only [hids]
  exact ha

theorem Db.Valid.revokeBindings (hv : db.Valid) {p : BindingRow → Bool} :
    Db.Valid { db with bindings := update p (fun b => { b with active := false }) db.bindings } := by
  refine { hv with bindings := ⟨hv.bindings.1.update fun r _ _ _ => ⟨rfl, rfl⟩, hv.bindings.2.1.update fun r _ _ hq => by simp at hq,
    hv.bindings.2.2.1.update fun r _ _ hq => by simp at hq, hv.bindings.2.2.2.1.update fun r _ _ hq => by simp at hq,
    forall_mem_update hv.bindings.2.2.2.2 fun r _ _ h => h⟩, linked := ?_ }
  obtain ⟨hc, he, ha, hb, ho⟩ := hv.linked
  exact ⟨hc, he, ha, forall_mem_update hb fun r _ _ h => h, ho⟩

theorem Db.Valid.updateOwners (hv : db.Valid) {p : OwnerRow → Bool} {f : OwnerRow → OwnerRow}
    (hkey : ∀ o, (f o).machineId = o.machineId)
    (hcheck : ∀ o ∈ db.owners, p o = true → 0 ≤ (f o).connectionEpoch ∧ 0 < (f o).routeRevision)
    (hlink : ∀ o, ((f o).owner.all fun q => decide (q.1 ∈ db.nodes.map NodeRow.incarnationId)) = true) :
    Db.Valid { db with owners := update p f db.owners } := by
  refine { hv with owners := ⟨hv.owners.1.update fun r _ _ _ => ⟨rfl, hkey r⟩,
    forall_mem_update hv.owners.2 fun r hr hp _ => hcheck r hr hp⟩, linked := ?_ }
  obtain ⟨hc, he, ha, hb, ho⟩ := hv.linked
  refine ⟨hc, he, ha, hb, forall_mem_update ho fun r _ _ h => ⟨?_, hlink r⟩⟩
  rw [hkey r]
  exact h.1

theorem Db.Valid.insertNode (hv : db.Valid) {r : NodeRow} (hfresh : r.incarnationId ∉ db.nodes.map NodeRow.incarnationId) :
    Db.Valid { db with nodes := r :: db.nodes } := by
  refine { hv with nodes := uniqueOn_cons.2 ⟨fun b hb _ _ he => hfresh (he ▸ List.mem_map_of_mem hb), hv.nodes⟩, linked := ?_ }
  obtain ⟨hc, he, ha, hb, ho⟩ := hv.linked
  have hmono : ∀ {α : Type} (f : α → Uuid) (o : Option α),
      (o.all fun q => decide (f q ∈ db.nodes.map NodeRow.incarnationId)) = true →
      (o.all fun q => decide (f q ∈ (r :: db.nodes).map NodeRow.incarnationId)) = true := by
    intro α f o h
    cases o with
    | none => rfl
    | some q =>
      simp only [Option.all_some, decide_eq_true_eq, List.map_cons] at h ⊢
      exact List.mem_cons_of_mem _ h
  exact ⟨hc, he, fun a h => ⟨(ha a h).1, (ha a h).2.1, hmono id _ (ha a h).2.2⟩, hb, fun o h => ⟨(ho o h).1, hmono Prod.fst _ (ho o h).2⟩⟩

/-! ## Transactions that commit -/

/-- the node may run transactions of the operator at this time -/
structure Serves (db : Db) (n : Node) (clock : ℤ) : Prop where
  config : db.deployment = n.config
  leaseOk : n.leaseOk = true
  node : db.nodeValid n clock false = true

/-- the rows after `register_database` -/
def Db.registered (db : Db) (n : Node) (leaseUntil : ℤ) : Db :=
  { db with
    nodes := ⟨n.incarnationId, true, n.config.configEpoch, n.config.serverBuildId, leaseUntil⟩ :: db.nodes
    audit := ⟨"server_node", none, none, "register"⟩ :: db.audit }

theorem registerNode_ok {ttl : ℤ} (hv : db.Valid) (hc : db.deployment = n.config) (hl : db.leased (now 0) = false)
    (hfresh : n.incarnationId ∉ db.nodes.map NodeRow.incarnationId) :
    registerNode n now ttl db = .ok (db.registered n (now 1 + ttl)) := by
  simp only [registerNode, bind_eq_ok, ensure_eq_ok, Db.insertNode, write_eq_ok, validateDeployment, pure_eq_ok]
  exact ⟨(), hc, (), .inr hl, _, ⟨hv.insertNode hfresh, rfl⟩, rfl⟩

theorem serves_registered {clock leaseUntil : ℤ} (hc : db.deployment = n.config) (ho : n.leaseOk = true) (hlt : clock < leaseUntil) :
    Serves (db.registered n leaseUntil) n clock := by
  refine ⟨hc, ho, ?_⟩
  simp [Db.nodeValid, Db.registered, hlt]

/-- one attempt that runs is ended, and its Machine is pending -/
theorem recoverAttempt_ok (hs : Sound db) {a : AttemptRow} (ha : a ∈ db.attempts) (hav : a.status = .verifying) :
    ∃ db', recoverAttempt db a = .ok db' ∧ (machineIn db'.machines a.machineId).map MachineRow.lifecycle = some .pending := by
  obtain ⟨r, hrow, hrl, -, -, hrev, hb⟩ := shape_of_verifying hs ha hav
  have hr := mem_machineIn hrow
  have hchanged : affected (failing a.id) db.attempts = 1 := by
    have hle := UniqueOn.affected_le_one (p := failing a.id) (x := a.id) hs.valid.attempts.1 fun x _ hp => by
      simp [failing] at hp
      exact hp.1
    have hpos : 0 < affected (failing a.id) db.attempts := List.countP_pos_iff.2 ⟨a, ha, by simp [failing, hav]⟩
    omega
  have hunbound : unbound db a = true := by
    simp only [unbound, Bool.not_eq_true', List.any_eq_false, Bool.and_eq_true, decide_eq_true_eq]
    rintro b hb' ⟨⟨hbm, -⟩, hba⟩
    have : b ∈ boundIn db.bindings a.machineId := mem_boundIn.2 ⟨hb', hba, hbm⟩
    simp [hb] at this
  have hq : (decide (r.id = a.machineId) && decide (r.lifecycle = .verifying) && decide (r.routeRevision = a.routeRevision) &&
      unbound db a) = true := by
    simp [hr.2, hrl, hrev, hunbound]
  simp only [recoverAttempt, bind_eq_ok, Db.updateAttempts, write_eq_ok, hchanged, if_true, updateMachines_eq_ok, pure_eq_ok]
  refine ⟨_, ⟨_, ⟨hs.valid.updateAttempts, rfl⟩, _, ⟨?_, ?_, rfl⟩, rfl⟩, ?_⟩
  · exact fun x _ _ => ⟨rfl, .inl rfl⟩
  · exact hs.valid.updateAttempts.updateMachines (fun _ => ⟨rfl, rfl, rfl⟩) fun x hx _ =>
      ⟨(hs.valid.machines.2.2 x hx).1, (hs.valid.machines.2.2 x hx).2.1, by simp⟩
  · show (machineIn (update _ _ db.machines) a.machineId).map MachineRow.lifecycle = some .pending
    rw [machineIn_update (by intro; rfl), hrow]
    simp only [Option.map_some]
    rw [if_pos (by simpa [unbound] using hq)]

/-- a Machine whose attempt has passed its deadline is pending after `recover_expired_attempts` -/
theorem recoverExpiredAttempts_ok (hs : Sound db) (hn : Serves db n (now 0)) {a : AttemptRow}
    (hver : verifyingIn db.attempts m = [a]) (hdead : a.deadline ≤ now 1) :
    ∃ db', recoverExpiredAttempts n now (some m) db = .ok db' ∧
      (machineIn db'.machines m).map MachineRow.lifecycle = some .pending := by
  obtain ⟨ha, hav, ham⟩ := mem_verifyingIn.1 (hver ▸ List.mem_singleton_self a : a ∈ verifyingIn db.attempts m)
  have hexp : db.expired (some m) (now 1) = [a] := by
    have hfilter : (db.attempts.filter fun a => (some m).all (fun m => decide (a.machineId = m)) &&
        decide (a.status = .verifying) && decide (a.deadline ≤ now 1)) =
        (verifyingIn db.attempts m).filter fun a => decide (a.deadline ≤ now 1) := by
      unfold verifyingIn
      rw [List.filter_filter]
      refine List.filter_congr fun x _ => ?_
      simp only [Option.all_some]
      rw [Bool.and_comm (decide (x.machineId = m)), Bool.and_comm _ (decide (x.deadline ≤ now 1))]
    rw [Db.expired, hfilter, hver]
    simp [hdead]
  obtain ⟨db', hdb, hpend⟩ := recoverAttempt_ok hs ha hav
  rw [ham] at hpend
  refine ⟨db', ?_, hpend⟩
  simp only [recoverExpiredAttempts, bind_eq_ok, ensure_eq_ok, lockDeployment, validateNode, hexp]
  refine ⟨(), hn.config, (), ⟨hn.leaseOk, hn.node⟩, ?_⟩
  simp only [List.foldlM_cons, List.foldlM_nil, bind_eq_ok]
  exact ⟨db', hdb, rfl⟩

theorem reEnrollDisabledMachine_ok (hv : db.Valid) (hn : Serves db n (now 0)) {r : MachineRow}
    (hr : machineIn db.machines m = some r) (hl : r.lifecycle = .disabled) :
    ∃ db', reEnrollDisabledMachine n now m db = .ok db' ∧ (machineIn db'.machines m).map MachineRow.lifecycle = some .pending := by
  have hmem := mem_machineIn hr
  have hchanged : affected (fun r => decide (r.id = m) && decide (r.lifecycle = .disabled)) db.machines = 1 := by
    have hle := UniqueOn.affected_le_one (p := fun r => decide (r.id = m) && decide (r.lifecycle = .disabled)) (x := m)
      hv.machines.1 fun x _ hp => by simp at hp; exact hp.1
    have hpos : 0 < affected (fun r => decide (r.id = m) && decide (r.lifecycle = .disabled)) db.machines :=
      List.countP_pos_iff.2 ⟨r, hmem.1, by simp [hmem.2, hl]⟩
    omega
  simp only [reEnrollDisabledMachine, bind_eq_ok, ensure_eq_ok, updateMachines_eq_ok, lockCurrentDeployment, pure_eq_ok]
  refine ⟨_, ⟨(), ⟨hn.config, hn.leaseOk, hn.node⟩, _, ⟨fun x _ _ => ⟨rfl, .inl rfl⟩, ?_, rfl⟩, (), hchanged, rfl⟩, ?_⟩
  · exact hv.updateMachines (fun _ => ⟨rfl, rfl, rfl⟩) fun x hx _ =>
      ⟨(hv.machines.2.2 x hx).1, (hv.machines.2.2 x hx).2.1, by simp⟩
  · show (machineIn (update _ _ db.machines) m).map MachineRow.lifecycle = some .pending
    rw [machineIn_update (by intro; rfl), hr]
    simp [hmem.2, hl]

/-- an active Machine leaves that lifecycle when the expectation about its owner holds and its revision can be counted up -/
theorem commitActiveMachineTransition_ok (hs : Sound db) (hn : Serves db n (now 0)) {kind : Transition}
    {expected : OwnerExpectation} {r : MachineRow} {o : OwnerRow} (hr : machineIn db.machines m = some r)
    (hl : r.lifecycle = .active) (hrev : r.routeRevision = expected.routeRevision) (ho : ownerIn db.owners m = some o)
    (hm : ownerMatches db n expected o (now 1) = true) (hmax : r.routeRevision + 1 ≤ i64Max) :
    commitActiveMachineTransition n now m kind expected db = .ok (db.transitioned m kind r.routeRevision) := by
  have hv := hs.valid
  have hmem := mem_machineIn hr
  have homem := mem_ownerIn ho
  obtain ⟨⟨o', ho', horev, -⟩, hphase⟩ := hs.shape m r hr
  obtain rfl : o = o' := Option.some.inj (ho.symm.trans ho')
  simp only [Phase, hl] at hphase
  obtain ⟨-, -, b, hb, hbrev, -⟩ := hphase
  have hfind : db.machines.find? (fun r => decide (r.id = m) && decide (r.lifecycle = .active)) = some r := by
    cases hf : db.machines.find? (fun r => decide (r.id = m) && decide (r.lifecycle = .active)) with
    | none =>
      have := List.find?_eq_none.1 hf r hmem.1
      simp [hmem.2, hl] at this
    | some x =>
      have hx := List.find?_some hf
      simp only [Bool.and_eq_true, decide_eq_true_eq] at hx
      exact congrArg some (UniqueOn.eq hv.machines.1 (List.mem_of_find?_eq_some hf) hmem.1 rfl rfl (hx.1.trans hmem.2.symm))
  have hrevoked : affected (transitionBinding m r.routeRevision) db.bindings = 1 := by
    rw [affected, List.countP_eq_length_filter]
    have : db.bindings.filter (transitionBinding m r.routeRevision) =
        (boundIn db.bindings m).filter fun b => decide (b.routeRevision = r.routeRevision) := by
      unfold boundIn transitionBinding
      rw [List.filter_filter]
      refine List.filter_congr fun x _ => ?_
      rw [Bool.and_comm (decide (x.machineId = m)), Bool.and_comm (decide (x.routeRevision = r.routeRevision))]
    rw [this, hb]
    simp [hbrev]
  have howner : affected (transitionOwner m r.routeRevision) db.owners = 1 := by
    have hle := UniqueOn.affected_le_one (p := transitionOwner m r.routeRevision) (x := m) hv.owners.1 fun x _ hp => by
      simp [transitionOwner] at hp
      exact hp.1
    have hpos : 0 < affected (transitionOwner m r.routeRevision) db.owners :=
      List.countP_pos_iff.2 ⟨o, homem.1, by simp [transitionOwner, homem.2, horev]⟩
    omega
  have hmachine : affected (transitionMachine m r.routeRevision) db.machines = 1 := by
    have hle := UniqueOn.affected_le_one (p := transitionMachine m r.routeRevision) (x := m) hv.machines.1 fun x _ hp => by
      simp [transitionMachine] at hp
      exact hp.1.1
    have hpos : 0 < affected (transitionMachine m r.routeRevision) db.machines :=
      List.countP_pos_iff.2 ⟨r, hmem.1, by simp [transitionMachine, hmem.2, hl]⟩
    omega
  have hpos := (hv.machines.2.2 r hmem.1).1
  -- the constraints after each of the five UPDATEs
  have hv1 := hv.revokeBindings (p := transitionBinding m r.routeRevision)
  have hv2 := hv1.updateAttempts (p := fun a => decide (a.machineId = m) && decide (a.status = .verifying))
  have hv3 := hv2.updateEnrollments (p := cancellable m)
  have hv4 := hv3.updateOwners (p := transitionOwner m r.routeRevision)
    (f := fun o => { o with owner := none, routeRevision := r.routeRevision + 1 }) (by intro; rfl)
    (fun x hx _ => ⟨(hv.owners.2 x hx).1, by simp; omega⟩) (by intro; rfl)
  have hv5 := hv4.updateMachines (p := transitionMachine m r.routeRevision)
    (f := fun x => { x with lifecycle := kind.lifecycle, routeRevision := r.routeRevision + 1 }) (fun _ => ⟨rfl, rfl, rfl⟩)
    (fun x hx _ => ⟨by simp; omega, (hv.machines.2.2 x hx).2.1, by cases kind <;> simp [Transition.lifecycle]⟩)
  simp only [commitActiveMachineTransition, bind_eq_ok, ensure_eq_ok, orError_eq_ok, updateMachines_eq_ok, Db.updateBindings,
    Db.updateAttempts, Db.updateEnrollments, Db.updateOwners, write_eq_ok, lockCurrentDeployment, pure_eq_ok]
  exact ⟨(), ⟨hn.config, hn.leaseOk, hn.node⟩, r, hfind, (), hrev, o, ho, (), ⟨horev, hm⟩, _, checkedSucc_eq_some.2 ⟨hmax, rfl⟩,
    _, ⟨hv1, rfl⟩, (), hrevoked, _, ⟨hv2, rfl⟩, _, ⟨hv3, rfl⟩, _, ⟨hv4, rfl⟩, _, ⟨fun x _ _ => ⟨rfl, .inl rfl⟩, hv5, rfl⟩, (),
    ⟨howner, hmachine⟩, rfl⟩

theorem machineIn_transitioned {kind : Transition} {r : MachineRow} (hr : machineIn db.machines m = some r)
    (hl : r.lifecycle = .active) :
    machineIn (db.transitioned m kind r.routeRevision).machines m =
      some { r with lifecycle := kind.lifecycle, routeRevision := r.routeRevision + 1 } := by
  simp only [Db.transitioned]
  rw [machineIn_update (by intro; rfl), hr]
  simp [transitionMachine, (mem_machineIn hr).2, hl]

end OwlMux.Machines
