/-
The transactions of the fleet: what their validation and their statements establish, and what their commit does.

A node that has validated itself is known. The statements of a claim and of a transition without owner find the former owner's
lease expired, which is final; those of a release and of a transition of an exact owner find the epoch of a closed tunnel in
the row, and epochs are unique. So nobody alive holds the Machine when its row is about to change, and the lock keeps it so
until the commit.

Results:
- `statement_effectOk`: what the statements of a transaction have established;
- `step_inv`, `run_inv`: the invariant over every run.
Premise: `Lease.CheckSafe` of every incarnation.
-/
import Mathlib.Tactic
import OwlMux.Cluster.Steps

namespace OwlMux.Cluster

open OwlMux.Relay (Uuid Text RouteIdentity)

variable {P : Params} {s s' : St}

/-! ## Validation -/

theorem deadline_of_checks {n : Uuid} {clock : Bool} (h : s.checks P n clock = true) : (s.node n).lease.hardDeadlineNs ≠ 0 := by
  unfold St.checks at h
  rcases Lease.check_spec (P.cfg n) clock (s.node n).lease with he | he | ⟨-, -, hd, -⟩
  · simp [he] at h
  · simp [he] at h
  · exact hd

/-- a row that a statement sees is that of a booted incarnation's lease -/
theorem rows_spec {n : Uuid} {row : NodeRow} (h : s.rows n = some row) :
    n ∈ s.booted ∧ (s.node n).released = false ∧ ∃ r, (s.node n).lease.row = some r ∧
      row = ⟨r.serving, (s.node n).config.configEpoch, (s.node n).config.serverBuildId, r.leaseUntil⟩ := by
  unfold St.rows at h
  split_ifs at h with hc
  obtain ⟨hb, hr⟩ := not_or.1 hc
  obtain ⟨r, h1, h2⟩ := Option.map_eq_some_iff.1 h
  exact ⟨not_not.1 hb, by simpa using hr, r, h1, h2.symm⟩

theorem rows_of_known {n : Uuid} (h : s.Known P n) :
    ∃ r, (s.node n).lease.row = some r ∧
      s.rows n = some ⟨r.serving, (s.node n).config.configEpoch, (s.node n).config.serverBuildId, r.leaseUntil⟩ := by
  obtain ⟨r, hr⟩ := Option.isSome_iff_exists.1 h.row
  refine ⟨r, hr, ?_⟩
  unfold St.rows
  rw [if_neg (by simp [h.booted, h.released]), hr]
  rfl

/-- what `lock_deployment` and `validate_node` establish -/
theorem known_of_validated {n : Uuid} {clock releasing : Bool} (hc : s.checks P n clock = true)
    (hd : s.db.deployment = (s.node n).config)
    (hv : validateNode s.rows (s.clock P n) (s.node n).config releasing n = true) : s.Known P n := by
  obtain ⟨row, hrow, -⟩ := (Option.any_eq_true _ _).1 hv
  obtain ⟨hb, hr, r, h1, -⟩ := rows_spec hrow
  exact ⟨hb, hr, by rw [h1]; rfl, deadline_of_checks hc, fun _ => hd.symm⟩

theorem quiet_begin (hI : Inv P s) (x : Client) (clock : Bool) : Quiet P s (begin P s x clock) := by
  unfold begin
  simp only
  split_ifs with hc hok
  · exact Quiet.refl hI
  · obtain ⟨hphase, hlock⟩ := not_or.1 hc
    obtain ⟨hok, hd, hv⟩ : s.checks P (s.nodeOf x) clock = true ∧ s.db.deployment = (s.node (s.nodeOf x)).config ∧
        validateNode s.rows (s.clock P (s.nodeOf x)) (s.node (s.nodeOf x)).config (s.releases x) (s.nodeOf x) = true := by
      simpa [Bool.and_eq_true] using hok
    have hk := known_of_validated hok hd hv
    have hq : Quiet P s ((s.leaseStep P (s.nodeOf x) (.check clock)).setPhase x .began) :=
      (quiet_check hI _ clock).next hI fun hI' => quiet_setPhase hI' x (by simp) (by simp)
    refine hq.next hI fun hI' => quiet_lock hI' fun x' n' e' he => Or.inr ?_
    obtain ⟨rfl, rfl, rfl⟩ : some x = x' ∧ s.nodeOf x = n' ∧ none = e' := by simpa using he
    refine ⟨rfl, hq.known hI.reached hk, ?_, fun i hi => ?_⟩
    · rw [(hq.booted _ hk.booted).2.1, hq.db.deployment]
      exact hd.symm
    · obtain rfl : x = .tunnel i := by simpa using hi
      have hne : (s.tun i).pc ≠ .absent := by
        intro hpc
        simp [St.phase, hpc] at hphase
      obtain ⟨h1, -, -, -, h5⟩ := (hq.tun i).fixed hne
      exact ⟨h5, h1⟩
  · exact (quiet_check hI _ clock).next hI fun hI' => quiet_refused hI' x

/-! ## Statements -/

/-- a known incarnation whose row has expired is dead -/
theorem dead_of_invalid (hs : ∀ n, Lease.CheckSafe (P.cfg n)) (hI : Inv P s) {n n' : Uuid} (hk : s.Known P n')
    (hv : ((s.rows n').any fun row => row.valid (s.clock P n)) = false) : s.DeadNode P n' := by
  obtain ⟨r, hr, hrow⟩ := rows_of_known hk
  rw [hrow] at hv
  have hexp : r.leaseUntil ≤ P.db (s.node n).lease.now := by
    rw [Option.any_some, NodeRow.valid, decide_eq_false_iff_not, not_lt] at hv
    exact hv
  exact Lease.dead_of_expired (hs n') (hI.reached n') hk.deadline hr (by rw [hI.now n' n]; exact hexp)

/-- the same for a statement that compares configurations -/
theorem dead_of_invalidFor (hs : ∀ n, Lease.CheckSafe (P.cfg n)) (hI : Inv P s) {n n' : Uuid} (hk : s.Known P n')
    (hd : (s.node n).config = s.db.deployment)
    (hv : ((s.rows n').any fun row => row.validFor (s.clock P n) (s.node n).config) = false) : s.DeadNode P n' := by
  by_contra hdead
  obtain ⟨r, hr, hrow⟩ := rows_of_known hk
  refine hdead (dead_of_invalid hs hI (n := n) hk ?_)
  rw [hrow] at hv ⊢
  rw [hd, ← hk.config hdead] at hv
  simpa [NodeRow.validFor] using hv

theorem noLive_of_owner (hI : Inv P s) {m : Uuid} {row : MachineRow} (hrow : s.db.machine m = some row)
    (h : ∀ n c, row.owners.owner = some (n, c) → s.DeadNode P n) : s.NoLive P m := by
  intro i hh hm
  by_contra hd
  obtain ⟨row', h1, h2⟩ := hI.held i hh hd
  rw [hm, hrow] at h1
  obtain rfl := Option.some.inj h1
  exact hd (h _ _ (by rw [h2]))

/-- the row has the epoch of a closed tunnel -/
theorem noLive_of_closed (hI : Inv P s) {m : Uuid} {row : MachineRow} (hrow : s.db.machine m = some row)
    (h : Closed s.tun m row.owners.connectionEpoch) : s.NoLive P m := by
  obtain ⟨k, h1, h2, h3, h4⟩ := h
  intro i hh hm
  by_contra hd
  obtain ⟨row', h5, h6⟩ := hI.held i hh hd
  rw [hm, hrow] at h5
  obtain rfl := Option.some.inj h5
  have := hI.unique i k hh.granted (Or.inl h1) (hm.trans h3.symm) (by rw [h4, h6])
  exact h2 (this ▸ hh)

theorem claimOwner_spec {db : Db} {nodes : Nodes} {clock : ℤ} {m : Uuid} {revision epoch : ℤ}
    (h : claimOwner db nodes clock m revision = .ok epoch) :
    ∃ row, db.machine m = some row ∧ row.owners.routeRevision = revision ∧ ownerValid nodes clock row.owners = false ∧
      epoch = row.owners.connectionEpoch + 1 := by
  unfold claimOwner at h
  split at h
  · cases h
  · rename_i row hrow
    split_ifs at h with hc hv
    cases hn : checkedSucc row.owners.connectionEpoch with
    | none => simp [hn] at h
    | some e =>
      refine ⟨row, hrow, hc.1, by simpa using hv, ?_⟩
      have he : e = epoch := by simpa [hn] using h
      unfold checkedSucc at hn
      split_ifs at hn
      rw [← he, ← Option.some.inj hn]

theorem releaseOwner_spec {db : Db} {m n c : Uuid} {epoch : ℤ} (h : releaseOwner db m n c epoch = .ok ()) :
    ∃ row, db.machine m = some row ∧ row.owners.owner = some (n, c) ∧ row.owners.connectionEpoch = epoch := by
  unfold releaseOwner at h
  split at h
  · cases h
  · rename_i row hrow
    split_ifs at h with hc
    exact ⟨row, hrow, hc⟩

theorem commitTransition_spec {db : Db} {nodes : Nodes} {clock : ℤ} {config : Config} {m : Uuid} {e : OwnerExpectation}
    {revision : ℤ} (h : commitTransition db nodes clock config m e = .ok revision) :
    ∃ row, db.machine m = some row ∧ row.owners.routeRevision = revision ∧
      e.holds nodes clock config row.owners = true := by
  unfold commitTransition at h
  split at h
  · cases h
  · rename_i row hrow
    split_ifs at h with h1 h2 h3 h4
    exact ⟨row, hrow, by rw [h3.1]; simpa using h, h3.2⟩

/-- **What the statements of a transaction have established.** -/
theorem statement_effectOk (hs : ∀ n, Lease.CheckSafe (P.cfg n)) (hI : Inv P s) {x : Client} {n : Uuid} {e : Effect}
    (hlock : s.lock = some (.txn (some x) n none)) (hphase : s.phase x = some .began) (he : s.statement P n x = some e) :
    EffectOk P s e := by
  obtain ⟨hk, hd, -⟩ := hI.lock _ _ _ hlock
  cases x with
  | tunnel i =>
    cases hpc : (s.tun i).pc with
    | claiming p =>
      simp only [St.statement, hpc] at he
      split at he
      · rename_i epoch hclaim
        obtain rfl : _ = e := Option.some.inj he
        obtain ⟨row, h1, h2, h3, h4⟩ := claimOwner_spec hclaim
        refine ⟨⟨row, h1, by omega, h2⟩, noLive_of_owner hI h1 fun n' c ho => ?_, hk⟩
        refine dead_of_invalid hs hI (n := n) (hI.owner _ row n' c h1 ho) ?_
        simpa [ownerValid, ho] using h3
      · cases he
    | releasing p b =>
      simp only [St.statement, hpc] at he
      split at he
      · rename_i hrelease
        obtain rfl : _ = e := Option.some.inj he
        obtain ⟨row, h1, -, h3⟩ := releaseOwner_spec hrelease
        have hsome := (hI.tunnel i).late (by rw [hpc]; rfl)
        have hshut := (hI.tunnel i).shut (by rw [hpc]; rfl)
        refine noLive_of_closed hI h1 ⟨i, hsome, ?_, rfl, h3.symm⟩
        rintro (h | h)
        · simp [hpc] at h
        · simp [hshut] at h
      · cases he
    | _ => simp [St.phase, hpc] at hphase
  | guard j =>
    cases hg : (s.trans j).guard.pc with
    | releasing p =>
      simp only [St.statement] at he
      split at he
      · rename_i hrelease
        obtain rfl : _ = e := Option.some.inj he
        obtain ⟨row, h1, -, h3⟩ := releaseOwner_spec hrelease
        exact noLive_of_closed hI h1 (h3 ▸ ((hI.trans j).closed (by rw [hg]; rfl) (by rw [hg]; rfl)).1)
      · cases he
    | _ => simp [St.phase, hg] at hphase
  | coordinator j =>
    simp only [St.statement] at he
    split at he
    · rename_i expected p hpc
      split at he
      · rename_i revision hcommit
        obtain rfl : _ = e := Option.some.inj he
        obtain ⟨row, h1, h2, h3⟩ := commitTransition_spec hcommit
        refine ⟨?_, row, h1, h2⟩
        cases expected with
        | exact n' route =>
          obtain ⟨-, h4⟩ : _ ∧ row.owners.connectionEpoch = route.connectionEpoch := by
            simpa [OwnerExpectation.holds] using h3
          exact noLive_of_closed hI h1 (h4 ▸ (hI.trans j).committing n' route p hpc)
        | noValidOwner r =>
          refine noLive_of_owner hI h1 fun n' c ho => ?_
          refine dead_of_invalidFor hs hI (n := n) (hI.owner _ row n' c h1 ho) hd ?_
          simpa [OwnerExpectation.holds, ownerValidFor, ho] using h3
      · cases he
    · cases he

/-! ## Execution -/

theorem setPhase_lock (s : St) (x : Client) (p : Phase) (l : Option Lock) :
    ({ s with lock := l } : St).setPhase x p = { s.setPhase x p with lock := l } := by
  cases x with
  | tunnel i => cases h : (s.tun i).pc <;> simp [St.setPhase, St.goto, St.setTun, h]
  | guard j => cases h : (s.trans j).guard.pc <;> simp [St.setPhase, St.setGuard, St.setTrans, h]
  | coordinator j => cases h : (s.trans j).pc <;> simp [St.setPhase, St.setCo, St.setTrans, h]

theorem quiet_noteEpoch (hI : Inv P s) {x : Client} {n : Uuid} {e : Effect} (hphase : s.phase x = some .began)
    (he : s.statement P n x = some e) : Quiet P s (s.noteEpoch x e) := by
  cases x with
  | tunnel i =>
    cases hpc : (s.tun i).pc with
    | claiming p =>
      obtain rfl : p = .began := by simpa [St.phase, hpc] using hphase
      have hnone := (hI.tunnel i).early (by rw [hpc]; rfl)
      cases e with
      | claim m epoch n' c revision =>
        refine quiet_setTun hI ⟨⟨fun _ => hnone, ?_, ?_, ?_⟩, fun h => ⟨rfl, rfl, rfl, rfl, h⟩, fun h => h, ?_, ?_, ?_⟩ ?_
        all_goals simp [Tunnel.Granted, Tunnel.Holding, Pc.late, Pc.shut, hnone, hpc]
      | _ => exact Quiet.refl hI
    | releasing p b =>
      simp only [St.statement, hpc] at he
      split at he
      · obtain rfl := Option.some.inj he
        exact Quiet.refl hI
      · cases he
    | _ => simp [St.phase, hpc] at hphase
  | guard j | coordinator j => cases e <;> exact Quiet.refl hI

/-- the claim that a tunnel has executed is its own -/
theorem claim_noted (hI : Inv P s) {i : ℕ} {n : Uuid} {e : Effect} (hlock : s.lock = some (.txn (some (.tunnel i)) n none))
    (hphase : s.phase (.tunnel i) = some .began) (he : s.statement P n (.tunnel i) = some e)
    (h : (((s.noteEpoch (.tunnel i) e).setPhase (.tunnel i) .executed).tun i).pc = .claiming .executed) :
    e = (((s.noteEpoch (.tunnel i) e).setPhase (.tunnel i) .executed).tun i).claim := by
  obtain ⟨-, -, ht⟩ := hI.lock _ _ _ hlock
  obtain ⟨-, hn⟩ := ht i rfl
  cases hpc : (s.tun i).pc with
  | claiming p =>
    simp only [St.statement, hpc] at he
    split at he
    · obtain rfl := Option.some.inj he
      simp [St.noteEpoch, St.setPhase, St.goto, hpc, Tunnel.claim, hn]
    · cases he
  | releasing p b =>
    simp only [St.statement, hpc] at he
    split at he
    · obtain rfl := Option.some.inj he
      simp [St.noteEpoch, St.setPhase, St.goto, hpc] at h
    · cases he
  | _ => simp [St.phase, hpc] at hphase

theorem St.Known.relock {n : Uuid} (h : s.Known P n) (l : Option Lock) : St.Known P { s with lock := l } n :=
  ⟨h.booted, h.released, h.row, h.deadline, h.config⟩

theorem EffectOk.relock {e : Effect} (h : EffectOk P s e) (l : Option Lock) : EffectOk P { s with lock := l } e := by
  cases e with
  | claim m epoch n c revision => exact ⟨h.1, h.2.1, h.2.2.relock l⟩
  | release m => exact h
  | transition m l' revision => exact h
  | configure config => exact h
  | deleteNode n => exact h

/-- the lock is that of an executed transaction -/
theorem Inv.lock_effect (hI : Inv P s) {x : Option Client} {n : Uuid} {e : Effect} (h : TxnOk P s x n (some e)) :
    Inv P { s with lock := some (.txn x n (some e)) } := by
  refine ⟨hI.reached, hI.now, hI.tunnel, hI.held, hI.epoch, hI.unique, fun m row n' c hr ho => (hI.owner m row n' c hr ho).relock _,
    hI.listed, hI.registry, hI.trans, fun x' n' e' he => ?_⟩
  obtain ⟨rfl, rfl, rfl⟩ : x = x' ∧ n = n' ∧ some e = e' := by simpa using he
  exact ⟨h.1.relock _, h.2⟩

/-- an execution is quiet but for the effect it leaves in the lock -/
theorem execute_spec (hI : Inv P s) (x : Client) : Quiet P s (execute P s x) ∨ ∃ n e, s.lock = some (.txn (some x) n none) ∧
    s.phase x = some .began ∧ s.statement P n x = some e ∧
    Quiet P s { (s.noteEpoch x e).setPhase x .executed with lock := none } ∧
    execute P s x = { (s.noteEpoch x e).setPhase x .executed with lock := some (.txn (some x) n (some e)) } := by
  unfold execute
  split
  · rename_i y n hlock
    split
    · rename_i hc
      obtain ⟨hy, hphase⟩ := hc
      subst hy
      split
      · rename_i e he
        have hq : Quiet P s (({ s.noteEpoch y e with lock := none } : St).setPhase y .executed) :=
          ((quiet_noteEpoch hI hphase he).next hI quiet_unlock).next hI fun hI' =>
            quiet_setPhase hI' y (by simp) fun _ => rfl
        rw [setPhase_lock] at hq
        exact Or.inr ⟨n, e, hlock, hphase, he, hq, rfl⟩
      · exact Or.inl ((quiet_unlock hI).next hI fun hI' => quiet_refused hI' y)
    · exact Or.inl (Quiet.refl hI)
  · exact Or.inl (Quiet.refl hI)

theorem execute_inv (hs : ∀ n, Lease.CheckSafe (P.cfg n)) (hI : Inv P s) (x : Client) : Inv P (execute P s x) := by
  rcases execute_spec hI x with hq | ⟨n, e, hlock, hphase, he, hq, heq⟩
  · exact hI.quiet hq
  · have hok := hq.effectOk hI (statement_effectOk hs hI hlock hphase he)
    rw [heq]
    refine (hI.quiet hq).lock_effect ⟨hok, fun i hi hpc => ?_⟩
    obtain rfl : x = .tunnel i := by simpa using hi
    exact claim_noted hI hlock hphase he hpc

/-! ## Commit -/

theorem Db.modify_deployment (db : Db) (m : Uuid) (f : MachineRow → MachineRow) : (db.modify m f).deployment = db.deployment := by
  unfold Db.modify
  split <;> rfl

theorem Db.modify_machines (db : Db) (m : Uuid) (f : MachineRow → MachineRow) : (db.modify m f).machines = db.machines := by
  unfold Db.modify
  split <;> rfl

theorem Db.modify_self (db : Db) (m : Uuid) (f : MachineRow → MachineRow) :
    (db.modify m f).machine m = (db.machine m).map f := by
  unfold Db.modify
  split
  · rename_i row h
    simp [Db.set, h]
  · rename_i h
    simp [h]

theorem Db.modify_of_ne (db : Db) {m m' : Uuid} (hne : m' ≠ m) (f : MachineRow → MachineRow) :
    (db.modify m f).machine m' = db.machine m' := by
  unfold Db.modify
  split
  · simp [Db.set, Function.update_of_ne hne]
  · rfl

/-- the row of a Machine changes while nobody alive holds it -/
theorem Inv.modify (hI : Inv P s) {m : Uuid} {f : MachineRow → MachineRow} (hno : s.NoLive P m)
    (hepoch : ∀ row, s.db.machine m = some row → row.owners.connectionEpoch ≤ (f row).owners.connectionEpoch)
    (howner : ∀ row n c, s.db.machine m = some row → (f row).owners.owner = some (n, c) → s.Known P n) :
    Inv P { s with db := s.db.modify m f, lock := none } := by
  have hknown : ∀ {n : Uuid}, s.Known P n → St.Known P { s with db := s.db.modify m f, lock := none } n := fun h =>
    ⟨h.booted, h.released, h.row, h.deadline, fun hd => (h.config hd).trans (Db.modify_deployment s.db m f).symm⟩
  refine ⟨hI.reached, hI.now, hI.tunnel, fun i hh hd => ?_, fun i hg => ?_, hI.unique, fun m' row' n c hr ho => ?_,
    fun m' row' hr => ?_, hI.registry, hI.trans, by simp⟩
  · have hne : (s.tun i).machine ≠ m := fun hm => hd (hno i hh hm)
    obtain ⟨row, h1, h2⟩ := hI.held i hh hd
    exact ⟨row, (Db.modify_of_ne s.db hne f).trans h1, h2⟩
  · obtain ⟨row, h1, h2⟩ := hI.epoch i hg
    by_cases hm : (s.tun i).machine = m
    · rw [hm] at h1
      refine ⟨f row, ?_, h2.trans (hepoch row h1)⟩
      show (s.db.modify m f).machine (s.tun i).machine = some (f row)
      rw [hm, Db.modify_self, h1]
      rfl
    · exact ⟨row, (Db.modify_of_ne s.db hm f).trans h1, h2⟩
  · have hr' : (s.db.modify m f).machine m' = some row' := hr
    by_cases hm : m' = m
    · rw [hm, Db.modify_self] at hr'
      obtain ⟨row, h1, rfl⟩ := Option.map_eq_some_iff.1 hr'
      exact hknown (howner row n c h1 ho)
    · rw [Db.modify_of_ne s.db hm] at hr'
      exact hknown (hI.owner m' row' n c hr' ho)
  · have hr' : (s.db.modify m f).machine m' = some row' := hr
    show m' ∈ (s.db.modify m f).machines
    rw [Db.modify_machines]
    by_cases hm : m' = m
    · rw [hm, Db.modify_self] at hr'
      obtain ⟨row, h1, -⟩ := Option.map_eq_some_iff.1 hr'
      exact hm ▸ hI.listed m row h1
    · rw [Db.modify_of_ne s.db hm] at hr'
      exact hI.listed m' row' hr'

/-- a node that owns nothing is deleted -/
theorem Inv.delete (hI : Inv P s) {n : Uuid} (h : EffectOk P s (.deleteNode n)) : Inv P (s.apply (.deleteNode n)) := by
  have hnode : ∀ n', ((s.apply (.deleteNode n)).node n').lease = (s.node n').lease ∧
      ((s.apply (.deleteNode n)).node n').config = (s.node n').config ∧
      ((s.apply (.deleteNode n)).node n').tunnels = (s.node n').tunnels := by
    intro n'
    by_cases hn : n' = n
    · subst hn
      simp [St.apply]
    · simp only [St.apply]
      rw [setNode_node_of_ne hn]
      exact ⟨rfl, rfl, rfl⟩
  have hdead : ∀ n', (s.apply (.deleteNode n)).DeadNode P n' ↔ s.DeadNode P n' := fun n' => by
    unfold St.DeadNode
    rw [(hnode n').1]
  refine ⟨fun n' => ?_, fun n' n'' => ?_, hI.tunnel, fun i hh hd => hI.held i hh fun hd' => hd ((hdead _).2 hd'), hI.epoch, hI.unique,
    fun m row n' c hr ho => ?_, hI.listed, fun n' m k hk => ?_, hI.trans, by simp [St.apply, St.setNode]⟩
  · rw [(hnode n').1]
    exact hI.reached n'
  · rw [(hnode n').1, (hnode n'').1]
    exact hI.now n' n''
  · have hk := hI.owner m row n' c hr ho
    have hne := h m row n' c hr ho
    refine ⟨hk.booted, ?_, by rw [(hnode n').1]; exact hk.row, by rw [(hnode n').1]; exact hk.deadline, fun hd => ?_⟩
    · simp only [St.apply]
      rw [setNode_node_of_ne hne]
      exact hk.released
    · rw [(hnode n').2.1]
      exact hk.config fun hd' => hd ((hdead n').2 hd')
  · rw [(hnode n').2.2] at hk
    exact hI.registry n' m k hk

@[simp]
theorem apply_tun (s : St) (e : Effect) : (s.apply e).tun = s.tun := by cases e <;> rfl

@[simp]
theorem apply_lock (s : St) (e : Effect) : (s.apply e).lock = none := by cases e <;> rfl

@[simp]
theorem apply_db (s : St) (e : Effect) : (s.apply e).db = e.apply s.db := by cases e <;> rfl

theorem apply_inv (hI : Inv P s) {e : Effect} (h : EffectOk P s e) : Inv P (s.apply e) := by
  cases e with
  | claim m epoch n c revision =>
    obtain ⟨⟨row, h1, h2, -⟩, hno, hk⟩ := h
    refine hI.modify hno (fun row' h' => ?_) fun row' n' c' _ ho => ?_
    · obtain rfl := Option.some.inj (h1.symm.trans h')
      exact h2.le
    · obtain ⟨rfl, -⟩ : n = n' ∧ c = c' := by simpa [MachineRow.claim] using ho
      exact hk
  | release m => exact hI.modify h (fun _ _ => le_rfl) (by simp [MachineRow.release])
  | transition m l revision => exact hI.modify h.1 (fun _ _ => le_rfl) (by simp [MachineRow.transition])
  | configure config =>
    refine ⟨hI.reached, hI.now, hI.tunnel, hI.held, hI.epoch, hI.unique, fun m row n c hr ho => ?_, hI.listed, hI.registry, hI.trans,
      by simp⟩
    have hk := hI.owner m row n c hr ho
    exact ⟨hk.booted, hk.released, hk.row, hk.deadline, fun hd => (hd (h m row n c hr ho)).elim⟩
  | deleteNode n => exact hI.delete h

theorem TransOk.congr {tun tun' : ℕ → Tunnel} (h : ∀ k, (tun k).handle.isSome = true → tun' k = tun k) {t : Transition}
    (ht : TransOk tun t) : TransOk tun' t := by
  have closed : ∀ {m : Uuid} {epoch : ℤ}, Closed tun m epoch → Closed tun' m epoch := by
    rintro m epoch ⟨k, h1, h2, h3, h4⟩
    exact ⟨k, by rw [h k h1]; exact h1, by rw [h k h1]; exact h2, by rw [h k h1]; exact h3, by rw [h k h1]; exact h4⟩
  refine ⟨ht.early, ht.remote, ht.unbegun, ht.route, fun ha => ?_, fun hs => ?_, fun hr => closed (ht.ready hr),
    fun n route p hp => closed (ht.committing n route p hp)⟩
  · rw [h _ (ht.active ha).1]
    exact ht.active ha
  · have ha : t.guard.pc.active = true := by
      revert hs
      cases t.guard.pc <;> simp [GuardPc.shut, GuardPc.active]
    rw [h _ (ht.active ha).1]
    exact ht.shut hs

/-- the claim of a tunnel, above every granted epoch of its Machine, is granted -/
theorem Inv.grant (hI : Inv P s) {i : ℕ} (hpc : (s.tun i).pc = .claiming .executed) (hlock : s.lock = none) {row : MachineRow}
    (hrow : s.db.machine (s.tun i).machine = some row)
    (howners : row.owners = ⟨(s.tun i).epoch, some ((s.tun i).node, (s.tun i).connection), (s.tun i).revision⟩)
    (hnew : ∀ k, (s.tun k).Granted → (s.tun k).machine = (s.tun i).machine → (s.tun k).epoch < (s.tun i).epoch) :
    Inv P (s.goto i (.claiming .committed)) := by
  have hnone := (hI.tunnel i).early (by rw [hpc]; rfl)
  have hself : (s.goto i (.claiming .committed)).tun i = { s.tun i with pc := .claiming .committed } := setTun_tun_self ..
  have hother : ∀ k, k ≠ i → (s.goto i (.claiming .committed)).tun k = s.tun k := fun k hk => setTun_tun_of_ne hk _
  refine ⟨hI.reached, hI.now, fun k => ?_, fun k hh hd => ?_, fun k hg => ?_, fun k l hk hl hm he => ?_, fun m r n c hr ho => ?_,
    hI.listed, fun n m k hk => ?_, fun j => (hI.trans j).congr fun k hk => hother k ?_, fun x n e he => ?_⟩
  · by_cases hk : k = i
    · subst hk
      rw [hself]
      exact ⟨fun _ => hnone, by simp [Pc.late, Pc.shut], (hI.tunnel k).route, by simp [Pc.shut]⟩
    · rw [hother k hk]
      exact hI.tunnel k
  · by_cases hk : k = i
    · subst hk
      rw [hself]
      exact ⟨row, hrow, howners⟩
    · rw [hother k hk] at hh hd ⊢
      exact hI.held k hh hd
  · by_cases hk : k = i
    · subst hk
      rw [hself]
      exact ⟨row, hrow, by rw [howners]⟩
    · rw [hother k hk] at hg ⊢
      exact hI.epoch k hg
  · by_cases hki : k = i
    · by_cases hli : l = i
      · exact hki.trans hli.symm
      · subst hki
        rw [hself] at hm he
        rw [hother l hli] at hl hm he
        exact absurd he.symm (hnew l hl hm.symm).ne
    · by_cases hli : l = i
      · subst hli
        rw [hself] at hm he
        rw [hother k hki] at hk hm he
        exact absurd he (hnew k hk hm).ne
      · rw [hother k hki] at hk hm he
        rw [hother l hli] at hl hm he
        exact hI.unique k l hk hl hm he
  · have hk := hI.owner m r n c hr ho
    exact ⟨hk.booted, hk.released, hk.row, hk.deadline, hk.config⟩
  · by_cases hki : k = i
    · subst hki
      rw [hself]
      exact hI.registry n m k hk
    · rw [hother k hki]
      exact hI.registry n m k hk
  · rintro rfl
    rw [hnone] at hk
    cases hk
  · rw [show s.lock = _ from he] at hlock
    cases hlock

/-- a commit applies the effect; the tunnel that waits for its claim is granted -/
theorem commit_spec (hI : Inv P s) : commit s = s ∨ ∃ x n e, s.lock = some (.txn x n (some e)) ∧ EffectOk P s e ∧
    (Quiet P (s.apply e) (commit s) ∨ ∃ i, e = (s.tun i).claim ∧ (s.tun i).pc = .claiming .executed ∧
      commit s = (s.apply e).goto i (.claiming .committed)) := by
  unfold commit
  split
  · rename_i client n e hlock
    obtain ⟨he, hclaim⟩ := hI.lock _ _ _ hlock
    have hI' := apply_inv hI he
    refine Or.inr ⟨client, n, e, hlock, he, ?_⟩
    cases client with
    | none => exact Or.inl (Quiet.refl hI')
    | some x =>
      simp only
      split_ifs with hphase
      · by_cases hx : ∃ i p, x = .tunnel i ∧ (s.tun i).pc = .claiming p
        · obtain ⟨i, p, rfl, hpc⟩ := hx
          obtain rfl : p = .executed := by simpa [St.phase, hpc] using hphase
          exact Or.inr ⟨i, hclaim i rfl hpc, hpc, by simp only [St.setPhase, apply_tun, hpc]⟩
        · refine Or.inl (quiet_setCommitted hI' fun i p hi hp => hx ⟨i, p, hi, ?_⟩)
          rwa [apply_tun] at hp
      · exact Or.inl (Quiet.refl hI')
  · exact Or.inl rfl

theorem commit_inv (hI : Inv P s) : Inv P (commit s) := by
  rcases commit_spec hI with h | ⟨x, n, e, -, he, hq | ⟨i, heq, hpc, h⟩⟩
  · rw [h]
    exact hI
  · exact (apply_inv hI he).quiet hq
  · -- a claim: its tunnel holds the Machine from now on
    have hI' := apply_inv hI he
    subst heq
    obtain ⟨⟨row, h1, h2, h3⟩, -, -⟩ := he
    have hrow : (s.apply (s.tun i).claim).db.machine ((s.apply (s.tun i).claim).tun i).machine =
        some (row.claim (s.tun i).epoch (s.tun i).node (s.tun i).connection (s.tun i).revision) := by
      rw [apply_tun, apply_db]
      show (s.db.modify _ _).machine _ = _
      rw [Db.modify_self, h1]
      rfl
    rw [h]
    refine hI'.grant (by rw [apply_tun]; exact hpc) (apply_lock ..) hrow ?_ fun k hk hm => ?_
    · rw [apply_tun]
      simp only [MachineRow.claim, h3]
    · rw [apply_tun] at hk hm ⊢
      obtain ⟨row', h4, h5⟩ := hI.epoch k hk
      rw [hm, h1] at h4
      obtain rfl := Option.some.inj h4
      exact lt_of_le_of_lt h5 h2

/-! ## Runs -/

theorem configure_inv (hs : ∀ n, Lease.CheckSafe (P.cfg n)) (hI : Inv P s) (n : Uuid) : Inv P (step P s (.configure n)) := by
  simp only [step]
  split
  · exact hI
  · split
    · rename_i config hc
      refine hI.lock_effect ⟨fun m row n' c hr ho => ?_, by simp⟩
      have hk := hI.owner m row n' c hr ho
      refine dead_of_invalid hs hI (n := n) hk ?_
      unfold configure at hc
      split_ifs at hc with hcond
      have := (List.all_eq_true.1 hcond.2) n' hk.booted
      obtain ⟨r, -, hrow⟩ := rows_of_known hk
      rw [hrow] at this ⊢
      simpa using this
    · exact hI

theorem releaseNode_inv (hI : Inv P s) (n : Uuid) : Inv P (releaseNode P s n) := by
  unfold releaseNode
  split_ifs with h1 h2
  · exact hI
  · refine hI.lock_effect ⟨fun m row n' c hr ho => ?_, by simp⟩
    have hall := List.all_eq_true.1 h2.2.2 m (hI.listed m row hr)
    rw [hr] at hall
    rintro rfl
    simp [ho] at hall
  · exact hI.quiet (quiet_hardFence hI n)

theorem acceptToken_owners (row : MachineRow) : row.acceptToken.owners = row.owners ∧ row.acceptToken.routeRevision = row.routeRevision := by
  unfold MachineRow.acceptToken
  split_ifs <;> exact ⟨rfl, rfl⟩

theorem activate_owners (host : Text) (row : MachineRow) :
    (row.activate host).owners = row.owners ∧ (row.activate host).routeRevision = row.routeRevision := by
  unfold MachineRow.activate
  split_ifs <;> exact ⟨rfl, rfl⟩

theorem failAttempt_owners (row : MachineRow) : row.failAttempt.owners = row.owners ∧ row.failAttempt.routeRevision = row.routeRevision := by
  unfold MachineRow.failAttempt
  split_ifs <;> exact ⟨rfl, rfl⟩

theorem reEnroll_owners (row : MachineRow) : row.reEnroll.owners = row.owners ∧ row.reEnroll.routeRevision = row.routeRevision := by
  unfold MachineRow.reEnroll
  split_ifs <;> exact ⟨rfl, rfl⟩

/-- the steps that execute or commit no transaction -/
def Op.isQuiet : Op → Bool
  | .execute _ | .commit | .configure _ | .releaseNode _ => false
  | _ => true

theorem step_quiet (hI : Inv P s) {o : Op} (ho : o.isQuiet = true) : Quiet P s (step P s o) := by
  have hrefl := Quiet.refl hI
  cases o with
  | execute x | commit | configure n | releaseNode n => simp [Op.isQuiet] at ho
  | tick d => exact quiet_tick hI d
  | boot n config =>
    simp only [step]
    split_ifs with hn
    · exact hrefl
    · exact quiet_boot hI hn config
  | lease n o => exact quiet_leaseOp hI n o
  | createMachine m =>
    simp only [step]
    split_ifs with hl
    · exact hrefl
    · exact quiet_createMachine hI (not_not.1 hl) m
  | acceptToken m => exact quiet_write hI m acceptToken_owners
  | activate m host => exact quiet_write hI m (activate_owners host)
  | failAttempt m => exact quiet_write hI m failAttempt_owners
  | reEnroll m => exact quiet_write hI m reEnroll_owners
  | tunnel i n m c revision =>
    simp only [step]
    split_ifs with h
    · exact quiet_newTunnel hI h.1 n m c revision
    · exact hrefl
  | reserveClaim i clock =>
    simp only [step]
    split_ifs with h
    · exact quiet_reserveClaim hI h clock
    · exact hrefl
  | installReserved i clock =>
    simp only [step]
    split_ifs with h
    · exact quiet_installReserved hI h clock
    · exact hrefl
  | runEnds i =>
    simp only [step]
    split_ifs with h
    · exact quiet_runEnds hI h
    · exact hrefl
  | closeDispatch i =>
    simp only [step]
    split
    · rename_i b h
      exact quiet_closing hI h
    · exact hrefl
  | beginOwnerRelease i =>
    simp only [step]
    split_ifs with h
    · exact quiet_beginOwnerRelease hI h
    · exact hrefl
  | cleanupComplete i =>
    simp only [step]
    split
    · rename_i deferred h
      exact quiet_cleanupComplete hI h
    · exact hrefl
  | finishOwnerRelease i =>
    simp only [step]
    split_ifs
    · exact quiet_finishOwnerRelease hI
    · exact hrefl
  | finishPending i =>
    simp only [step]
    split_ifs with h
    · exact quiet_finishPending hI h
    · exact hrefl
  | closeAll n => exact quiet_closeAll hI n
  | closeDrained n i => exact quiet_closeDrained hI n i
  | begin x clock => exact quiet_begin hI x clock
  | fail x => exact quiet_fail hI x
  | rollback => exact quiet_rollback hI
  | reply x => exact quiet_reply hI x
  | lost x => exact quiet_lost hI x
  | request j n m action =>
    simp only [step]
    split_ifs
    · exact quiet_request hI n m action
    · exact hrefl
  | resolve j clock => exact quiet_resolve hI j clock
  | resolveNone j clock => exact quiet_resolveNone hI j clock
  | accept j clock => exact quiet_accept hI j clock
  | acceptRoute j clock => exact quiet_acceptRoute hI j clock
  | sendPrepare j => exact quiet_sendPrepare hI j
  | receivePrepare j => exact quiet_receivePrepare hI j
  | beginTransition j => exact quiet_beginTransition hI j
  | closeBarrier j => exact quiet_closeBarrier hI j
  | prepared j clock => exact quiet_prepared hI j clock
  | sendReady j => exact quiet_sendReady hI j
  | receiveReady j => exact quiet_receiveReady hI j
  | observe j clock answered => exact quiet_observe hI j clock answered
  | conclude j => exact quiet_conclude hI j
  | receiveFinish j => exact quiet_receiveFinish hI j
  | finishTransition j => exact quiet_finishTransition hI j
  | giveUp j =>
    simp only [step]
    split
    · exact quiet_coEnds hI j
    · exact quiet_coEnds hI j
    · exact quiet_coEnds hI j
    · exact hrefl
  | hangUp j =>
    simp only [step]
    split
    · rename_i h
      exact quiet_destEnds hI ((hI.trans j).early_of_dest (by simp [h]))
    · rename_i h
      exact quiet_destEnds hI ((hI.trans j).early_of_dest (by simp [h]))
    · exact hrefl
  | abandon j =>
    simp only [step]
    split_ifs
    · exact quiet_dropGuard hI j
    · exact hrefl

theorem step_inv (hs : ∀ n, Lease.CheckSafe (P.cfg n)) (hI : Inv P s) (o : Op) : Inv P (step P s o) := by
  by_cases ho : o.isQuiet = true
  · exact hI.quiet (step_quiet hI ho)
  · cases o with
    | execute x => exact execute_inv hs hI x
    | commit => exact commit_inv hI
    | configure n => exact configure_inv hs hI n
    | releaseNode n => exact releaseNode_inv hI n
    | _ => exact (ho rfl).elim

/-- **The invariant of every run.** -/
theorem run_inv (hs : ∀ n, Lease.CheckSafe (P.cfg n)) (config : Config) (ops : List Op) : Inv P (run P (init config) ops) :=
  Machine.run_inv (I := Inv P) (fun _ o h => step_inv hs h o) _ ops (inv_init P config)

end OwlMux.Cluster
