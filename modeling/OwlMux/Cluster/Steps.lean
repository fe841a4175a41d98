/-
The steps of the fleet that write no owner and no revision: leases, tunnels outside their transactions, transitions with their
guards and messages, and the client's side of a transaction.

Each is one lemma, `quiet_` with the name of the step; the transactions themselves follow in `Transactions`.
-/
import Mathlib.Tactic
import OwlMux.Cluster.Quiet

namespace OwlMux.Cluster

open OwlMux.Relay (Uuid Text RouteIdentity)

variable {P : Params} {s s' : St}

/-! ## Compositions -/

@[simp]
theorem setTun_setTun (s : St) (i : ℕ) (t t' : Tunnel) : (s.setTun i t).setTun i t' = s.setTun i t' := by
  simp [St.setTun]

@[simp]
theorem setTrans_trans_self (s : St) (j : ℕ) (t : Transition) : (s.setTrans j t).trans j = t := Function.update_self ..

@[simp]
theorem setTrans_setTrans (s : St) (j : ℕ) (t t' : Transition) : (s.setTrans j t).setTrans j t' = s.setTrans j t' := by
  simp [St.setTrans]

@[simp]
theorem leaseStep_tun (s : St) (n : Uuid) (o : Lease.Op) : (s.leaseStep P n o).tun = s.tun := rfl

@[simp]
theorem leaseStep_trans (s : St) (n : Uuid) (o : Lease.Op) : (s.leaseStep P n o).trans = s.trans := rfl

@[simp]
theorem leaseStep_lock (s : St) (n : Uuid) (o : Lease.Op) : (s.leaseStep P n o).lock = s.lock := rfl

@[simp]
theorem leaseStep_db (s : St) (n : Uuid) (o : Lease.Op) : (s.leaseStep P n o).db = s.db := rfl

/-- a lease step leaves the registry of every node alone -/
theorem leaseStep_tunnels (s : St) (n n' : Uuid) (o : Lease.Op) : ((s.leaseStep P n o).node n').tunnels = (s.node n').tunnels := by
  by_cases h : n' = n
  · subst h
    rw [St.leaseStep, setNode_node_self]
  · rw [St.leaseStep, setNode_node_of_ne h]

theorem quiet_check (hI : Inv P s) (n : Uuid) (clock : Bool) : Quiet P s (s.leaseStep P n (.check clock)) :=
  quiet_leaseStep hI n rfl

theorem quiet_hardFence (hI : Inv P s) (n : Uuid) : Quiet P s (s.hardFence P n) := quiet_leaseStep hI n rfl

/-- the registry of a node loses handles, or keeps them -/
theorem quiet_shrink (hI : Inv P s) {n : Uuid} {x : Node} (hc : x.config = (s.node n).config)
    (hr : x.released = (s.node n).released) (hl : x.lease = (s.node n).lease)
    (ht : ∀ p ∈ x.tunnels, p ∈ (s.node n).tunnels) : Quiet P s (s.setNode n x) :=
  quiet_setNode hI hc hr hl fun _ _ hk => Or.inl (ht _ hk)

/-! ## Leases, and rows of Machines -/

theorem quiet_tick (hI : Inv P s) (d : ℕ) :
    Quiet P s { s with node := fun n => { s.node n with lease := Lease.step (P.cfg n) (s.node n).lease (.tick d) } } :=
  quiet_nodes hI rfl rfl rfl rfl (fun _ hn => ⟨hn, rfl, rfl⟩)
    ⟨d, fun n => ⟨(Lease.step_ticks (P.cfg n) (s.node n).lease (.tick d)).now, [.tick d], rfl⟩⟩ fun _ _ _ hk => Or.inl hk

/-- a new configuration of a node is all that changes -/
theorem setNode_config (s : St) (n n' : Uuid) (config : Config) :
    ((s.setNode n { s.node n with config := config }).node n').lease = (s.node n').lease ∧
    ((s.setNode n { s.node n with config := config }).node n').tunnels = (s.node n').tunnels := by
  by_cases h : n' = n
  · subst h
    simp
  · rw [setNode_node_of_ne h]
    exact ⟨rfl, rfl⟩

theorem quiet_boot (hI : Inv P s) {n : Uuid} (hn : n ∉ s.booted) (config : Config) :
    Quiet P s { s.setNode n { s.node n with config := config } with booted := n :: s.booted } := by
  refine quiet_nodes hI rfl rfl rfl rfl (fun n' hn' => ?_) ⟨0, fun n' => ?_⟩ fun n' m k hk => Or.inl ?_
  · have hne : n' ≠ n := fun h => hn (h ▸ hn')
    show n' ∈ n :: s.booted ∧ ((s.setNode n { s.node n with config := config }).node n').config = _ ∧
      ((s.setNode n { s.node n with config := config }).node n').released = _
    rw [setNode_node_of_ne hne]
    exact ⟨List.mem_cons_of_mem _ hn', rfl, rfl⟩
  · have hl := (setNode_config s n n' config).1
    exact ⟨congrArg Lease.St.now hl, [], hl⟩
  · exact (setNode_config s n n' config).2 ▸ hk

theorem quiet_leaseOp (hI : Inv P s) (n : Uuid) (o : Lease.Op) : Quiet P s (leaseOp P s n o) := by
  have execute : ∀ {o : Lease.Op}, o.elapsed = 0 →
      Quiet P s (if ((s.leaseStep P n o).node n).lease.lock.isSome then { s.leaseStep P n o with lock := some (.lease n) }
        else s.leaseStep P n o) := by
    intro o ho
    have h := quiet_leaseStep hI n ho
    split_ifs
    · exact h.next hI fun hI' => quiet_lock hI' (by simp)
    · exact h
  have finish : ∀ {o : Lease.Op}, o.elapsed = 0 →
      Quiet P s (if (s.leaseStep P n o).lock = some (.lease n) then { s.leaseStep P n o with lock := none }
        else s.leaseStep P n o) := by
    intro o ho
    have h := quiet_leaseStep hI n ho
    split_ifs
    · exact h.next hI quiet_unlock
    · exact h
  unfold leaseOp
  by_cases hb : n ∉ s.booted
  · rw [if_pos hb]
    exact Quiet.refl hI
  rw [if_neg hb]
  cases o with
  | tick d => exact Quiet.refl hI
  | execute | drainExecute =>
    by_cases hl : s.lock ≠ none
    · simp only [if_pos hl]
      exact Quiet.refl hI
    by_cases hd : s.db.deployment ≠ (s.node n).config
    · simp only [if_neg hl, if_pos hd]
      split_ifs <;> exact quiet_leaseStep hI n rfl
    · simp only [if_neg hl, if_neg hd]
      exact execute rfl
  | commit | rollback => exact finish rfl
  | _ => exact quiet_leaseStep hI n rfl

/-- a transaction that writes no owner and no revision, in one step -/
theorem quiet_db (hI : Inv P s) (hlock : s.lock = none) {db : Db} (h : SameOwners s.db db) : Quiet P s { s with db := db } :=
  ⟨h, fun _ hn => ⟨hn, rfl, rfl⟩, LeaseMoves.refl s, fun i => Keeps.refl (hI.tunnel i), fun _ _ _ hk => Or.inl hk,
    fun _ => Or.inl rfl, fun _ _ _ _ _ => rfl, fun x n e he => by rw [show s.lock = _ from he] at hlock; cases hlock⟩

theorem quiet_createMachine (hI : Inv P s) (hlock : s.lock = none) (m : Uuid) : Quiet P s { s with db := createMachine s.db m } := by
  refine quiet_db hI hlock ?_
  unfold createMachine
  split_ifs with hm
  · exact SameOwners.refl hI.listed
  · refine ⟨rfl, fun m' row hr => ⟨row, ?_, rfl, rfl⟩, fun m' row' hr => ?_⟩
    · have hne : m' ≠ m := by
        rintro rfl
        simp [hr] at hm
      simpa [Db.set, Function.update_of_ne hne] using hr
    · by_cases hne : m' = m
      · subst hne
        refine ⟨List.mem_cons_self, Or.inr ?_⟩
        have : row' = ⟨.pending, 1, none, none, [], ⟨0, none, 1⟩⟩ := by simpa [Db.set] using hr.symm
        rw [this]
      · have hr' : s.db.machine m' = some row' := by simpa [Db.set, Function.update_of_ne hne] using hr
        exact ⟨List.mem_cons_of_mem _ (hI.listed m' row' hr'), Or.inl ⟨row', hr', rfl⟩⟩

theorem quiet_write (hI : Inv P s) (m : Uuid) {f : MachineRow → MachineRow}
    (hf : ∀ row, (f row).owners = row.owners ∧ (f row).routeRevision = row.routeRevision) : Quiet P s (s.write m f) := by
  unfold St.write
  split_ifs with hlock
  · exact Quiet.refl hI
  · refine quiet_db hI (not_not.1 hlock) ?_
    unfold Db.modify
    split
    · rename_i row hrow
      refine ⟨rfl, fun m' r hr => ?_, fun m' r hr => ?_⟩
      · by_cases hne : m' = m
        · subst hne
          obtain rfl : row = r := Option.some.inj (hrow.symm.trans hr)
          exact ⟨f row, by simp [Db.set], (hf row).1, (hf row).2⟩
        · exact ⟨r, by simpa [Db.set, Function.update_of_ne hne] using hr, rfl, rfl⟩
      · by_cases hne : m' = m
        · subst hne
          have : r = f row := by simpa [Db.set] using hr.symm
          exact ⟨hI.listed m' row hrow, Or.inl ⟨row, hrow, by rw [this]; exact (hf row).1⟩⟩
        · have hr' : s.db.machine m' = some r := by simpa [Db.set, Function.update_of_ne hne] using hr
          exact ⟨hI.listed m' r hr', Or.inl ⟨r, hr', rfl⟩⟩
    · exact SameOwners.refl hI.listed

/-! ## Tunnels -/

/-- a tunnel ends, whatever it has -/
theorem quiet_end (hI : Inv P s) (i : ℕ) : Quiet P s (s.goto i .ended) :=
  quiet_goto hI (by simp) (by simp) (by simp) (by simp [Pc.early]) (by simp [Pc.late, Pc.shut]) (by simp [Pc.shut])

/-- a node's registry loses handles or keeps them, and a tunnel goes on -/
theorem quiet_nodeGoto (hI : Inv P s) {n : Uuid} {x : Node} {i : ℕ} {pc : Pc} (hc : x.config = (s.node n).config)
    (hr : x.released = (s.node n).released) (hl : x.lease = (s.node n).lease) (ht : ∀ p ∈ x.tunnels, p ∈ (s.node n).tunnels)
    (h : ∀ {s' : St}, Inv P s' → s'.tun = s.tun → Quiet P s' (s'.goto i pc)) : Quiet P s ((s.setNode n x).goto i pc) :=
  (quiet_shrink hI hc hr hl ht).next hI fun hI' => h hI' rfl

theorem quiet_newTunnel (hI : Inv P s) {i : ℕ} (hpc : (s.tun i).pc = .absent) (n m c : Uuid) (revision : ℤ) :
    Quiet P s (s.setTun i { Tunnel.init with node := n, machine := m, connection := c, revision := revision, pc := .reserving }) := by
  have hnone := (hI.tunnel i).early (by rw [hpc]; rfl)
  refine quiet_setTun hI ?_ (by simp)
  refine ⟨⟨fun _ => rfl, by simp [Pc.late, Pc.shut], by simp [Tunnel.init], by simp [Pc.shut]⟩, fun h => (h hpc).elim, ?_, ?_, ?_, ?_⟩
  · simp [hnone]
  all_goals simp [Tunnel.Granted, Tunnel.Holding, Tunnel.init]

theorem quiet_reserveClaim (hI : Inv P s) {i : ℕ} (hpc : (s.tun i).pc = .reserving) (clock : Bool) :
    Quiet P s (reserveClaim P s i clock) := by
  have hnone := (hI.tunnel i).early (by rw [hpc]; rfl)
  refine (quiet_check hI (s.tun i).node clock).next hI fun hI' => ?_
  unfold reserveClaim
  simp only
  split_ifs
  · exact quiet_end hI' i
  · refine quiet_nodeGoto hI' rfl rfl rfl (fun _ h => h) fun hI'' htun => ?_
    exact quiet_goto hI'' (by simp) (by simp) (by simp) (fun _ => by rw [htun]; exact hnone) (by simp [Pc.late, Pc.shut])
      (by simp [Pc.shut])

/-- a pending claim is complete -/
theorem quiet_completePending (hI : Inv P s) (i : ℕ) (hpc : (s.tun i).pc ≠ .claiming .executed) : Quiet P s (s.completePending i) := by
  unfold St.completePending
  have hok := hI.tunnel i
  have hnode : Quiet P s (s.setNode (s.tun i).node
      { s.node (s.tun i).node with
        pendingClaims := (s.node (s.tun i).node).pendingClaims.filter fun p =>
          !(p.1 == (s.tun i).machine && p.2.1 == (s.tun i).connection) }) :=
    quiet_shrink hI rfl rfl rfl fun _ h => h
  refine hnode.next hI fun hI' => ?_
  refine quiet_setTun hI' ⟨⟨hok.early, hok.late, hok.route, hok.shut⟩, fun h => ⟨rfl, rfl, rfl, rfl, h⟩, fun h => h, fun h => h,
    fun _ => rfl, fun h => h⟩ fun h => (hpc h).elim

theorem quiet_installReserved (hI : Inv P s) {i : ℕ} (hpc : (s.tun i).pc = .installing) (clock : Bool) :
    Quiet P s (installReserved P s i clock) := by
  have hsome := (hI.tunnel i).late (by rw [hpc]; rfl)
  refine (quiet_check hI (s.tun i).node clock).next hI fun hI' => ?_
  unfold installReserved
  simp only
  split_ifs
  · exact quiet_goto hI' (by simp) (by simp) (by simp) (by simp [Pc.early]) (fun _ => hsome) (by simp [Pc.shut])
  · have hnode : Quiet P (s.leaseStep P (s.tun i).node (.check clock)) ((s.leaseStep P (s.tun i).node (.check clock)).setNode
        (s.tun i).node { (s.leaseStep P (s.tun i).node (.check clock)).node (s.tun i).node with
          tunnels := ((s.tun i).machine, i) :: (s.node (s.tun i).node).tunnels }) := by
      refine quiet_setNode hI' rfl rfl rfl fun m k hk => ?_
      rcases List.mem_cons.1 hk with h | h
      · obtain ⟨rfl, rfl⟩ := Prod.mk.inj h
        exact Or.inr ⟨hsome, rfl, rfl⟩
      · exact Or.inl (by rw [leaseStep_tunnels]; exact h)
    refine hnode.next hI' fun hI'' => ?_
    refine (quiet_completePending hI'' i ?_).next hI'' fun hI3 => ?_
    · show (s.tun i).pc ≠ .claiming .executed
      rw [hpc]
      simp
    · refine quiet_goto hI3 (by simp) (by simp) (by simp) (by simp [Pc.early]) (fun _ => ?_) (by simp [Pc.shut])
      simp only [St.completePending, setTun_tun_self]
      exact hsome

theorem quiet_runEnds (hI : Inv P s) {i : ℕ} (hpc : (s.tun i).pc = .running) : Quiet P s (s.goto i (.closing true)) :=
  quiet_goto hI (by simp) (by simp) (by simp) (by simp [Pc.early]) (fun _ => (hI.tunnel i).late (by rw [hpc]; rfl)) (by simp [Pc.shut])

theorem quiet_closing (hI : Inv P s) {i : ℕ} {b : Bool} (hpc : (s.tun i).pc = .closing b) :
    Quiet P s ((s.closeDispatch i).goto i (if b then .cleaning else .releasing .idle false)) := by
  refine (quiet_closeDispatch hI i).next hI fun hI' => ?_
  have hsome : ((s.closeDispatch i).tun i).handle.isSome = true := by
    simp only [St.closeDispatch, setTun_tun_self, Tunnel.closeDispatch, Option.isSome_map]
    exact (hI.tunnel i).late (by rw [hpc]; rfl)
  have hshut : ((s.closeDispatch i).tun i).handle.any Handle.dispatchOpen = false := by
    simp only [St.closeDispatch, setTun_tun_self]
    exact closeDispatch_any _
  cases b
  all_goals exact quiet_goto hI' (by simp) (by simp) (by simp) (by simp [Pc.early]) (fun _ => hsome) fun _ => hshut

theorem quiet_beginOwnerRelease (hI : Inv P s) {i : ℕ} (hpc : (s.tun i).pc = .cleaning) : Quiet P s (beginOwnerRelease s i) := by
  have hsome := (hI.tunnel i).late (by rw [hpc]; rfl)
  have hshut := (hI.tunnel i).shut (by rw [hpc]; rfl)
  unfold beginOwnerRelease
  simp only
  split
  · exact Quiet.refl hI
  · split
    · split_ifs
      · exact quiet_goto hI (by simp) (by simp) (by simp) (by simp [Pc.early]) (fun _ => hsome) fun _ => hshut
      · exact quiet_end hI i
    · exact quiet_end hI i
    · refine quiet_nodeGoto hI rfl rfl rfl (fun _ h => h) fun hI' htun => ?_
      exact quiet_goto hI' (by simp) (by simp) (by simp) (by simp [Pc.early]) (fun _ => by rw [htun]; exact hsome)
        fun _ => by rw [htun]; exact hshut

theorem quiet_cleanupComplete (hI : Inv P s) {i : ℕ} {deferred : Bool} (hpc : (s.tun i).pc = .cleanedUp deferred) :
    Quiet P s (s.setTun i
      { s.tun i with
        handle := (s.tun i).handle.map fun h => { h with cleanupComplete := true }
        pc := if deferred then .ended else .unregistering }) := by
  have hok := hI.tunnel i
  have hsome := hok.late (by rw [hpc]; rfl)
  have hshut := hok.shut (by rw [hpc]; rfl)
  have hany : ((s.tun i).handle.map fun h => { h with cleanupComplete := true }).any Handle.dispatchOpen = false := by
    cases hh : (s.tun i).handle with
    | none => rfl
    | some g => simpa [hh] using hshut
  refine quiet_setTun hI ⟨⟨?_, fun _ => by simpa using hsome, ?_, fun _ => hany⟩, fun _ => ⟨rfl, rfl, rfl, rfl, ?_⟩,
    fun h => by simpa using h, fun _ => Or.inl hsome, fun _ => rfl, ?_⟩ ?_
  · cases deferred <;> simp [Pc.early]
  · intro h hh
    obtain ⟨g, hg, rfl⟩ := Option.map_eq_some_iff.1 hh
    exact hok.route g hg
  · cases deferred <;> simp
  · rintro (h | h)
    · cases deferred <;> simp at h
    · exact absurd h (by simp [hany])
  · cases deferred <;> simp

theorem quiet_finishOwnerRelease (hI : Inv P s) {i : ℕ} : Quiet P s (finishOwnerRelease s i) := by
  unfold finishOwnerRelease
  simp only
  split
  · exact Quiet.refl hI
  · refine quiet_nodeGoto hI ?_ ?_ ?_ ?_ fun hI' _ => quiet_end hI' i
    all_goals split_ifs
    all_goals first | rfl | exact fun _ h => h | exact fun _ h => List.mem_of_mem_filter h

theorem quiet_finishPending (hI : Inv P s) {i : ℕ} (hpc : (s.tun i).pc = .unreserving) :
    Quiet P s ((s.completePending i).goto i .ended) :=
  (quiet_completePending hI i (by rw [hpc]; simp)).next hI fun hI' => quiet_end hI' i

theorem quiet_closeAll (hI : Inv P s) (n : Uuid) : Quiet P s (closeAll s n) := by
  unfold closeAll
  exact quiet_shrink hI rfl rfl rfl (by simp)

theorem quiet_closeDrained (hI : Inv P s) (n : Uuid) (i : ℕ) : Quiet P s (closeDrained s n i) := by
  unfold closeDrained
  simp only
  split_ifs
  · have hnode : Quiet P s (s.setNode n { s.node n with closing := (s.node n).closing.erase i }) :=
      quiet_shrink hI rfl rfl rfl fun _ h => h
    exact hnode.next hI fun hI' => quiet_closeDispatch hI' i
  · exact Quiet.refl hI

/-! ## Transitions -/

/-- the coordinator goes on; its destination stays where it is -/
theorem TransOk.setCo {tun : ℕ → Tunnel} {t : Transition} (ht : TransOk tun t) {pc : CoPc} (hpc : pc.early = false)
    (hne : pc ≠ .preparing) (hcommit : ∀ n route p, pc = .committing (.exact n route) p → Closed tun t.machine route.connectionEpoch) :
    TransOk tun { t with pc := pc } :=
  ⟨fun h => absurd (h : pc.early = true) (by simp [hpc]), fun h => (hne h).elim, ht.unbegun, ht.route, ht.active, ht.shut, ht.ready, hcommit⟩

/-- the destination goes on, without a guard that has not begun -/
theorem TransOk.setDest {tun : ℕ → Tunnel} {t : Transition} (ht : TransOk tun t) (hearly : t.pc.early = false) {dest : DestPc}
    (hne : dest ≠ .idle) (hunbegun : dest ≠ .validated ∧ dest ≠ .accepted)
    (hroute : dest.resolved = true → t.dest.resolved = true) : TransOk tun { t with dest := dest } :=
  ⟨fun h => absurd (h : t.pc.early = true) (by simp [hearly]), fun _ h => (hne h).elim, fun h => (h.elim hunbegun.1 hunbegun.2).elim,
    fun h => ht.route (h.imp_left hroute), ht.active, ht.shut, ht.ready, ht.committing⟩

/-- an idle destination belongs to no early coordinator -/
theorem TransOk.early_of_dest {tun : ℕ → Tunnel} {t : Transition} (ht : TransOk tun t) (hd : t.dest ≠ .idle) : t.pc.early = false := by
  by_contra h
  exact hd (ht.early (by simpa using h)).1

theorem TransOk.early_of_guard {tun : ℕ → Tunnel} {t : Transition} (ht : TransOk tun t) (hg : t.guard.pc ≠ .idle) : t.pc.early = false := by
  by_contra h
  exact hg (ht.early (by simpa using h)).2.1

theorem quiet_setCo (hI : Inv P s) {j : ℕ} {pc : CoPc} (hpc : pc.early = false) (hne : pc ≠ .preparing)
    (hcommit : ∀ n route p, pc = .committing (.exact n route) p → Closed s.tun (s.trans j).machine route.connectionEpoch) :
    Quiet P s (s.setCo j pc) :=
  quiet_setTrans hI ((hI.trans j).setCo hpc hne hcommit)

/-- the coordinator has nothing more to commit -/
theorem quiet_coEnds (hI : Inv P s) (j : ℕ) : Quiet P s (s.setCo j .ended) :=
  quiet_setCo hI rfl (by simp) (by simp)

theorem quiet_destEnds (hI : Inv P s) {j : ℕ} (hd : (s.trans j).pc.early = false) : Quiet P s (s.setDest j .ended) :=
  quiet_setTrans hI ((hI.trans j).setDest hd (by simp) (by simp) (by simp [DestPc.resolved]))

theorem quiet_request (hI : Inv P s) {j : ℕ} (n m : Uuid) (action : Action) :
    Quiet P s (s.setTrans j { Transition.init with node := n, machine := m, lifecycle := action.lifecycle, pc := .resolving }) := by
  refine quiet_setTrans hI ?_
  constructor <;> simp [Transition.init, Guard.init, DestPc.resolved, GuardPc.active, GuardPc.shut]

theorem quiet_resolve (hI : Inv P s) (j : ℕ) (clock : Bool) : Quiet P s (resolve P s j clock) := by
  have hq := quiet_check hI (s.trans j).node clock
  unfold resolve
  simp only
  split
  · exact Quiet.refl hI
  · rename_i hpc
    obtain ⟨hd, hg, hr⟩ := (hI.trans j).early (by rw [not_not.1 hpc]; rfl)
    have fresh : ∀ (owner : Uuid) (route : RouteIdentity) {pc : CoPc}, (∀ e p, pc ≠ .committing e p) →
        TransOk s.tun { s.trans j with owner := owner, route := route, pc := pc } := by
      intro owner route pc hpc
      refine ⟨fun _ => ⟨hd, hg, hr⟩, fun _ _ => hg, fun _ => hg, ?_, ?_, ?_, ?_, ?_⟩
      · simp [hd, hg, DestPc.resolved, GuardPc.active]
      · simp [hg, GuardPc.active]
      · simp [hg, GuardPc.shut]
      · simp [hr]
      · exact fun n route p h => (hpc _ _ h).elim
    refine hq.next hI fun hI' => ?_
    split
    · exact quiet_coEnds hI' j
    · split
      · refine quiet_setTrans hI' ⟨fun _ => ⟨hd, hg, hr⟩, fun _ _ => hg, fun _ => hg, ?_, ?_, ?_, ?_, ?_⟩
        · simp [hd, hg, DestPc.resolved, GuardPc.active]
        · simp [hg, GuardPc.active]
        · simp [hg, GuardPc.shut]
        · simp [hr]
        · simp
      · split
        · exact quiet_setTrans hI' (fresh _ _ (by simp))
        · split
          · exact quiet_setTrans hI' (fresh _ _ (by simp))
          · exact quiet_coEnds hI' j

theorem quiet_resolveNone (hI : Inv P s) (j : ℕ) (clock : Bool) : Quiet P s (resolveNone P s j clock) := by
  have hq := quiet_check hI (s.trans j).node clock
  unfold resolveNone
  simp only
  split
  · exact Quiet.refl hI
  · refine hq.next hI fun hI' => ?_
    split
    · exact quiet_setCo hI' rfl (by simp) (by simp)
    · exact quiet_coEnds hI' j

theorem quiet_accept (hI : Inv P s) (j : ℕ) (clock : Bool) : Quiet P s (accept P s j clock) := by
  have hq := quiet_check hI (s.trans j).owner clock
  unfold accept
  simp only
  split
  · exact Quiet.refl hI
  · rename_i hpc
    obtain ⟨hpc, hd⟩ : (s.trans j).pc = .preparing ∧ (s.trans j).dest = .idle := by simpa using hpc
    have ht := hI.trans j
    have hg := ht.remote hpc hd
    refine hq.next hI fun hI' => quiet_setTrans hI' ?_
    refine ⟨?_, fun _ h => ?_, fun _ => hg, ?_, ht.active, ht.shut, ht.ready, ht.committing⟩
    · simp [hpc, CoPc.early]
    · simp only at h
      split_ifs at h
    · intro h
      simp only [leaseStep_trans, hg, GuardPc.active, Bool.false_eq_true, or_false] at h
      split_ifs at h <;> simp [DestPc.resolved] at h

theorem quiet_acceptRoute (hI : Inv P s) (j : ℕ) (clock : Bool) : Quiet P s (acceptRoute P s j clock) := by
  have hq := quiet_check hI (s.trans j).owner clock
  unfold acceptRoute
  simp only
  split
  · exact Quiet.refl hI
  · rename_i hd
    have hd : (s.trans j).dest = .validated := not_not.1 hd
    have ht := hI.trans j
    have hearly := ht.early_of_dest (by simp [hd])
    have hg := ht.unbegun (Or.inl hd)
    split
    · exact quiet_destEnds hI hearly
    · refine hq.next hI fun hI' => ?_
      split
      · refine quiet_setTrans hI' ⟨?_, ?_, fun _ => hg, fun _ => rfl, ?_, ?_, ht.ready, ht.committing⟩
        · exact fun h => absurd (h : (s.trans j).pc.early = true) (by simp [hearly])
        · simp
        · simp [hg, GuardPc.active]
        · simp [hg, GuardPc.shut]
      · exact quiet_destEnds hI' hearly

theorem quiet_sendPrepare (hI : Inv P s) (j : ℕ) : Quiet P s (sendPrepare s j) := by
  unfold sendPrepare
  simp only
  split
  · have ht := hI.trans j
    exact quiet_setTrans hI ⟨ht.early, ht.remote, ht.unbegun, ht.route, ht.active, ht.shut, ht.ready, ht.committing⟩
  · exact Quiet.refl hI

theorem quiet_receivePrepare (hI : Inv P s) (j : ℕ) : Quiet P s (receivePrepare s j) := by
  unfold receivePrepare
  simp only
  split
  · rename_i h
    have ht := hI.trans j
    exact quiet_setTrans hI (ht.setDest (ht.early_of_dest (by simp [h.1])) (by simp) (by simp) fun _ => by rw [h.1]; rfl)
  · exact Quiet.refl hI

/-! ## Guards -/

/-- a guard that has begun goes on -/
theorem TransOk.setGuard {tun : ℕ → Tunnel} {t : Transition} (ht : TransOk tun t) (ha : t.guard.pc.active = true) {g : Guard}
    (hroute : g.route = t.guard.route) (htun : g.tunnel = t.guard.tunnel)
    (hshut : g.pc.shut = true → ¬ (tun t.guard.tunnel).Holding) : TransOk tun { t with guard := g } := by
  have hidle : t.guard.pc ≠ .idle := by
    intro h
    rw [h] at ha
    cases ha
  have hearly := ht.early_of_guard hidle
  refine ⟨fun h => ?_, fun hp hd => absurd (ht.remote hp hd) hidle, fun hd => absurd (ht.unbegun hd) hidle, fun _ => ?_, fun _ => ?_,
    fun hs => ?_, ht.ready, ht.committing⟩
  · have h' : t.pc.early = true := h
    rw [hearly] at h'
    cases h'
  · exact hroute ▸ ht.route (Or.inr ha)
  · show (tun g.tunnel).handle.isSome = true ∧ (tun g.tunnel).node = t.owner ∧ (tun g.tunnel).machine = t.machine ∧
      (tun g.tunnel).epoch = g.route.connectionEpoch
    rw [htun, hroute]
    exact ht.active ha
  · show ¬ (tun g.tunnel).Holding
    rw [htun]
    exact hshut hs

theorem quiet_setGuard (hI : Inv P s) {j : ℕ} (ha : (s.trans j).guard.pc.active = true) {g : Guard}
    (hroute : g.route = (s.trans j).guard.route) (htun : g.tunnel = (s.trans j).guard.tunnel)
    (hshut : g.pc.shut = true → ¬ (s.tun (s.trans j).guard.tunnel).Holding) : Quiet P s (s.setGuard j g) :=
  quiet_setTrans hI ((hI.trans j).setGuard ha hroute htun hshut)

/-- a prepared guard is told its outcome -/
theorem quiet_tellGuard (hI : Inv P s) (j : ℕ) (committed : Bool) : Quiet P s (s.tellGuard j committed) := by
  unfold St.tellGuard
  split
  · rename_i hg
    have ha : (s.trans j).guard.pc.active = true := by rw [hg]; rfl
    exact quiet_setGuard hI ha rfl rfl fun _ => (hI.trans j).shut (by rw [hg]; rfl)
  · exact Quiet.refl hI

/-- the guard is done, and the task that held it ends -/
theorem quiet_endGuard (hI : Inv P s) {j : ℕ} {g : Guard} (hdone : g.pc = .done) :
    Quiet P s ((s.setGuard j g).endHandler j) := by
  have ht := hI.trans j
  unfold St.endHandler
  simp only [St.setGuard, setTrans_trans_self]
  split
  · rename_i hd
    simp only [St.setCo, setTrans_trans_self, setTrans_setTrans]
    refine quiet_setTrans hI ⟨by simp [CoPc.early], by simp, ?_, ?_, ?_, ?_, ht.ready, by simp⟩
    · simp [hd]
    · simp [hd, hdone, DestPc.resolved, GuardPc.active]
    · simp [hdone, GuardPc.active]
    · simp [hdone, GuardPc.shut]
  · rename_i hd
    have hearly := ht.early_of_dest hd
    simp only [St.setDest, setTrans_trans_self, setTrans_setTrans]
    refine quiet_setTrans hI ⟨?_, by simp, by simp, ?_, ?_, ?_, ht.ready, ht.committing⟩
    · exact fun h => absurd (h : (s.trans j).pc.early = true) (by simp [hearly])
    · simp [hdone, DestPc.resolved, GuardPc.active]
    · simp [hdone, GuardPc.active]
    · simp [hdone, GuardPc.shut]

theorem quiet_dropGuard (hI : Inv P s) (j : ℕ) : Quiet P s (s.dropGuard P j) :=
  (quiet_hardFence hI (s.trans j).owner).next hI fun hI' => quiet_endGuard hI' rfl

/-- an entry of the registry that `HashMap::get` finds -/
theorem tunnel_mem {x : Node} {m : Uuid} {k : ℕ} (h : x.tunnel m = some k) : (m, k) ∈ x.tunnels := by
  obtain ⟨⟨m', k'⟩, hf, rfl⟩ := Option.map_eq_some_iff.1 h
  have hm : m' = m := by simpa using List.find?_some hf
  exact hm ▸ List.mem_of_find?_eq_some hf

theorem quiet_beginTransition (hI : Inv P s) (j : ℕ) : Quiet P s (beginTransition s j) := by
  unfold beginTransition
  simp only
  split
  · exact Quiet.refl hI
  · rename_i hc
    obtain ⟨hpc, hg⟩ := not_not.1 hc
    have ht := hI.trans j
    -- the task ends without a guard
    have refuse : Quiet P s (s.endHandler j) := by
      unfold St.endHandler
      split
      · exact quiet_coEnds hI j
      · rename_i hd
        exact quiet_destEnds hI (ht.early_of_dest hd)
    have hexp : (if (s.trans j).dest = .idle then (s.trans j).route else (s.trans j).guard.route).connectionEpoch =
        (s.trans j).route.connectionEpoch := by
      rcases hpc with ⟨-, hd⟩ | hd
      · rw [if_pos hd]
      · rw [if_neg (by simp [hd])]
        exact ht.route (Or.inl (by rw [hd]; rfl))
    revert hexp
    generalize (if (s.trans j).dest = .idle then (s.trans j).route else (s.trans j).guard.route) = expected
    intro hexp
    split
    · exact refuse
    · rename_i k hk
      split
      · rename_i hroute
        obtain ⟨hroute, -⟩ := hroute
        obtain ⟨h1, h2, h3⟩ := hI.registry _ _ _ (tunnel_mem hk)
        obtain ⟨h, hh, hhr⟩ := Option.map_eq_some_iff.1 hroute
        have hep := (hI.tunnel k).route h hh
        rw [hhr] at hep
        have hnode : Quiet P s (s.setNode (s.trans j).owner
            { (s.node (s.trans j).owner).removeTunnel (s.trans j).machine with
              ownerExits := Function.update (s.node (s.trans j).owner).ownerExits (s.trans j).machine
                (some (.transitioning expected)) }) :=
          quiet_shrink hI rfl rfl rfl fun _ h => List.mem_of_mem_filter h
        refine hnode.next hI fun hI' => quiet_setTrans hI' ⟨?_, ?_, ?_, fun _ => hexp, fun _ => ⟨h1, h2, h3, ?_⟩, ?_, ht.ready,
          ht.committing⟩
        · intro he
          have he' : (s.trans j).pc.early = true := he
          rcases hpc with ⟨hp, -⟩ | hd
          · rw [hp] at he'
            cases he'
          · rw [ht.early_of_dest (by simp [hd])] at he'
            cases he'
        · intro hp hd
          have hp' : (s.trans j).pc = .preparing := hp
          have hd' : (s.trans j).dest = .idle := hd
          rcases hpc with ⟨hp2, -⟩ | hd2
          · simp [hp'] at hp2
          · simp [hd'] at hd2
        · intro hd
          have hd' : (s.trans j).dest = .validated ∨ (s.trans j).dest = .accepted := hd
          rcases hpc with ⟨-, hd2⟩ | hd2 <;> simp [hd2] at hd'
        · exact (congrArg RouteIdentity.connectionEpoch hep).symm
        · simp [GuardPc.shut]
      · exact refuse

theorem quiet_closeBarrier (hI : Inv P s) (j : ℕ) : Quiet P s (closeBarrier s j) := by
  unfold closeBarrier
  simp only
  split
  · rename_i hg
    have ha : (s.trans j).guard.pc.active = true := by rw [hg]; rfl
    obtain ⟨h1, -⟩ := (hI.trans j).active ha
    refine (quiet_closeDispatch hI (s.trans j).guard.tunnel).next hI fun hI' => quiet_setGuard hI' ha rfl rfl fun _ => ?_
    rintro (h | h)
    · -- a tunnel with a handle is not claiming
      have hpc : (s.tun (s.trans j).guard.tunnel).pc = .claiming .committed := by
        have h' : ((s.closeDispatch (s.trans j).guard.tunnel).tun (s.trans j).guard.tunnel).pc = .claiming .committed := h
        simpa only [St.closeDispatch, setTun_tun_self, Tunnel.closeDispatch] using h'
      rw [(hI.tunnel _).early (by rw [hpc]; rfl)] at h1
      cases h1
    · have : ((s.closeDispatch (s.trans j).guard.tunnel).tun (s.trans j).guard.tunnel).handle.any Handle.dispatchOpen = false := by
        simp only [St.closeDispatch, setTun_tun_self]
        exact closeDispatch_any _
      have h' : ((s.closeDispatch (s.trans j).guard.tunnel).tun (s.trans j).guard.tunnel).handle.any Handle.dispatchOpen = true := h
      rw [this] at h'
      cases h'
  · exact Quiet.refl hI

theorem quiet_prepared (hI : Inv P s) (j : ℕ) (clock : Bool) : Quiet P s (prepared P s j clock) := by
  have hq := quiet_check hI (s.trans j).owner clock
  unfold prepared
  simp only
  split
  · rename_i hc
    have hg := hc.1
    have ha : (s.trans j).guard.pc.active = true := by rw [hg]; rfl
    have hs : (s.trans j).guard.pc.shut = true := by rw [hg]; rfl
    have hshut := (hI.trans j).shut hs
    refine hq.next hI fun hI' => ?_
    split
    · exact quiet_dropGuard hI' j
    · split
      · have ht := (hI'.trans j).setGuard (g := { (s.trans j).guard with pc := .prepared }) ha rfl rfl fun _ => hshut
        refine quiet_setTrans hI' (ht.setCo rfl (by simp) ?_)
        rintro n route p h
        obtain ⟨⟨-, rfl⟩, -⟩ : ((s.trans j).owner = n ∧ (s.trans j).route = route) ∧ Phase.idle = p := by simpa using h
        exact ((hI.trans j).closed ha hs).2
      · exact quiet_setGuard hI' ha rfl rfl fun _ => hshut
  · exact Quiet.refl hI

/-! ## Messages and outcomes -/

theorem quiet_sendReady (hI : Inv P s) (j : ℕ) : Quiet P s (sendReady s j) := by
  unfold sendReady
  simp only
  split
  · rename_i h
    have ht := hI.trans j
    have ha : (s.trans j).guard.pc.active = true := by rw [h.2]; rfl
    have hroute : (s.trans j).dest.resolved = true := by rw [h.1]; rfl
    have hd : TransOk s.tun { s.trans j with dest := .waiting } :=
      ht.setDest (ht.early_of_dest (by simp [h.1])) (by simp) (by simp) fun _ => hroute
    refine quiet_setTrans hI ⟨?_, hd.remote, hd.unbegun, hd.route, hd.active, hd.shut, fun _ => ?_, hd.committing⟩
    · intro he
      have he' : (s.trans j).pc.early = true := he
      rw [ht.early_of_dest (by simp [h.1])] at he'
      cases he'
    · exact (ht.closed ha (by rw [h.2]; rfl)).2
  · exact Quiet.refl hI

theorem quiet_receiveReady (hI : Inv P s) (j : ℕ) : Quiet P s (receiveReady s j) := by
  unfold receiveReady
  simp only
  split
  · rename_i h
    refine quiet_setCo hI rfl (by simp) fun n route p he => ?_
    obtain ⟨⟨-, rfl⟩, -⟩ : ((s.trans j).owner = n ∧ (s.trans j).route = route) ∧ Phase.idle = p := by simpa using he
    exact (hI.trans j).ready h.2
  · exact Quiet.refl hI

theorem quiet_observe (hI : Inv P s) (j : ℕ) (clock answered : Bool) : Quiet P s (observe P s j clock answered) := by
  have hq := quiet_check hI (s.trans j).node clock
  unfold observe
  simp only
  split
  · exact hq.next hI fun hI' => quiet_setCo hI' rfl (by simp) (by simp)
  · exact Quiet.refl hI

theorem quiet_conclude (hI : Inv P s) (j : ℕ) : Quiet P s (conclude P s j) := by
  unfold conclude
  simp only
  split
  · exact quiet_coEnds hI j
  · split
    · exact quiet_dropGuard hI j
    · exact quiet_coEnds hI j
  · split
    · exact (quiet_tellGuard hI j _).next hI fun hI' => quiet_setCo hI' rfl (by simp) (by simp)
    · have ht : TransOk s.tun { s.trans j with pc := .ended } := (hI.trans j).setCo rfl (by simp) (by simp)
      exact quiet_setTrans hI ⟨ht.early, ht.remote, ht.unbegun, ht.route, ht.active, ht.shut, ht.ready, ht.committing⟩
  · exact Quiet.refl hI

theorem quiet_receiveFinish (hI : Inv P s) (j : ℕ) : Quiet P s (receiveFinish s j) := by
  unfold receiveFinish
  simp only
  split
  · rename_i committed hd hf
    refine (quiet_tellGuard hI j committed).next hI fun hI' => ?_
    have hdest : ((s.tellGuard j committed).trans j).dest = .waiting := by
      unfold St.tellGuard
      split
      · simpa [St.setGuard] using hd
      · exact hd
    have ht := hI'.trans j
    exact quiet_setTrans hI' (ht.setDest (ht.early_of_dest (by simp [hdest])) (by simp) (by simp) fun _ => by rw [hdest]; rfl)
  · exact Quiet.refl hI

theorem quiet_finishTransition (hI : Inv P s) (j : ℕ) : Quiet P s (finishTransition s j) := by
  unfold finishTransition
  simp only
  by_cases hg : (s.trans j).guard.pc ≠ .finishing
  · rw [if_pos hg]
    exact Quiet.refl hI
  · rw [if_neg hg]
    have hnode : Quiet P s (s.setNode (s.trans j).owner
        { (s.node (s.trans j).owner).removeTunnel (s.trans j).machine with
          closing := ((s.node (s.trans j).owner).tunnel (s.trans j).machine).toList ++ (s.node (s.trans j).owner).closing
          ownerExits :=
            if (s.node (s.trans j).owner).ownerExits (s.trans j).machine = some (.transitioning (s.trans j).guard.route) then
              Function.update (s.node (s.trans j).owner).ownerExits (s.trans j).machine none
            else (s.node (s.trans j).owner).ownerExits }) :=
      quiet_shrink hI rfl rfl rfl fun _ h => List.mem_of_mem_filter h
    exact hnode.next hI fun hI' => quiet_endGuard hI' rfl

/-! ## Transactions as their clients see them -/

theorem quiet_afterRelease (hI : Inv P s) {i : ℕ} (hsome : (s.tun i).handle.isSome = true)
    (hshut : (s.tun i).handle.any Handle.dispatchOpen = false) (b : Bool) : Quiet P s (s.goto i (afterRelease b)) := by
  cases b
  all_goals
    simp only [afterRelease]
    exact quiet_goto hI (by simp) (by simp) (by simp) (by simp [Pc.early]) (fun _ => hsome) fun _ => hshut

/-- the client of a claim has nothing to release -/
theorem quiet_unreserving (hI : Inv P s) (i : ℕ) : Quiet P s (s.goto i .unreserving) :=
  quiet_goto hI (by simp) (by simp) (by simp) (by simp [Pc.early]) (by simp [Pc.late, Pc.shut]) (by simp [Pc.shut])

/-- an error before COMMIT, or of a release at any time -/
theorem quiet_refused (hI : Inv P s) (x : Client) : Quiet P s (s.refused P x) := by
  cases x with
  | tunnel i =>
    have hok := hI.tunnel i
    simp only [St.refused]
    split
    · exact quiet_unreserving hI i
    · rename_i p b hpc
      exact (quiet_hardFence hI (s.tun i).node).next hI fun hI' =>
        quiet_afterRelease hI' (hok.late (by rw [hpc]; rfl)) (hok.shut (by rw [hpc]; rfl)) b
    · exact Quiet.refl hI
  | guard j => exact quiet_dropGuard hI j
  | coordinator j =>
    simp only [St.refused]
    split
    · exact quiet_setCo hI rfl (by simp) (by simp)
    · exact Quiet.refl hI

theorem quiet_ambiguous (hI : Inv P s) (x : Client) : Quiet P s (s.ambiguous P x) := by
  cases x with
  | tunnel i =>
    simp only [St.ambiguous]
    split
    · exact (quiet_hardFence hI (s.tun i).node).next hI fun hI' => quiet_unreserving hI' i
    · exact quiet_refused hI _
  | guard j => exact quiet_refused hI (.guard j)
  | coordinator j =>
    simp only [St.ambiguous]
    split
    · exact quiet_setCo hI rfl (by simp) (by simp)
    · exact Quiet.refl hI

/-- the answer to a committed transaction -/
theorem quiet_reply (hI : Inv P s) (x : Client) : Quiet P s (reply s x) := by
  unfold reply
  split
  · rename_i hphase
    cases x with
    | tunnel i =>
      simp only [St.succeeded]
      have hok := hI.tunnel i
      split
      · rename_i p hpc
        obtain rfl : p = .committed := by simpa [St.phase, hpc] using hphase
        -- the claim has been granted; now it gets its handle
        refine quiet_setTun hI ⟨⟨by simp [Pc.early], fun _ => rfl, ?_, by simp [Pc.shut]⟩, fun _ => ⟨rfl, rfl, rfl, rfl, by simp⟩,
          fun _ => rfl, fun _ => Or.inr hpc, fun _ => rfl, fun _ => Or.inl hpc⟩ (by simp)
        rintro h ⟨⟩
        rfl
      · rename_i p b hpc
        exact quiet_afterRelease hI (hok.late (by rw [hpc]; rfl)) (hok.shut (by rw [hpc]; rfl)) b
      · exact Quiet.refl hI
    | guard j =>
      simp only [St.phase] at hphase
      split at hphase
      · rename_i p hg
        have ha : (s.trans j).guard.pc.active = true := by rw [hg]; rfl
        exact quiet_setGuard hI ha rfl rfl fun _ => (hI.trans j).shut (by rw [hg]; rfl)
      · cases hphase
    | coordinator j =>
      simp only [St.succeeded]
      split
      · exact quiet_setCo hI rfl (by simp) (by simp)
      · exact Quiet.refl hI
  · exact Quiet.refl hI

/-- the client's transaction is begun, executed or taken back -/
theorem quiet_setPhase (hI : Inv P s) (x : Client) {p : Phase} (hp : p ≠ .committed) (he : p = .executed → s.lock = none) :
    Quiet P s (s.setPhase x p) := by
  cases x with
  | tunnel i =>
    have hok := hI.tunnel i
    simp only [St.setPhase]
    split
    · rename_i q hpc
      have hnone := hok.early (by rw [hpc]; rfl)
      refine quiet_setTun hI (keeps_goto hok (by simp) (by simpa using hp) (fun _ => hnone) (by simp [Pc.late, Pc.shut])
        (by simp [Pc.shut])) fun h => he ?_
      simpa using h
    · rename_i q b hpc
      exact quiet_goto hI (by simp) (by simp) (by simp) (by simp [Pc.early]) (fun _ => hok.late (by rw [hpc]; rfl))
        fun _ => hok.shut (by rw [hpc]; rfl)
    · exact Quiet.refl hI
  | guard j =>
    simp only [St.setPhase]
    split
    · rename_i q hg
      have ha : (s.trans j).guard.pc.active = true := by rw [hg]; rfl
      exact quiet_setGuard hI ha rfl rfl fun _ => (hI.trans j).shut (by rw [hg]; rfl)
    · exact Quiet.refl hI
  | coordinator j =>
    simp only [St.setPhase]
    split
    · rename_i e q hpc
      refine quiet_setCo hI rfl (by simp) fun n route p' h => ?_
      obtain ⟨rfl, -⟩ : e = .exact n route ∧ p = p' := by simpa using h
      exact (hI.trans j).committing n route q hpc
    · exact Quiet.refl hI

/-- a committed release, or transition -/
theorem quiet_setCommitted (hI : Inv P s) {x : Client} (hx : ∀ i p, x = .tunnel i → (s.tun i).pc ≠ .claiming p) :
    Quiet P s (s.setPhase x .committed) := by
  cases x with
  | tunnel i =>
    have hok := hI.tunnel i
    simp only [St.setPhase]
    split
    · rename_i q hpc
      exact (hx i q rfl hpc).elim
    · rename_i q b hpc
      exact quiet_goto hI (by simp) (by simp) (by simp) (by simp [Pc.early]) (fun _ => hok.late (by rw [hpc]; rfl))
        fun _ => hok.shut (by rw [hpc]; rfl)
    · exact Quiet.refl hI
  | guard j =>
    simp only [St.setPhase]
    split
    · rename_i q hg
      have ha : (s.trans j).guard.pc.active = true := by rw [hg]; rfl
      exact quiet_setGuard hI ha rfl rfl fun _ => (hI.trans j).shut (by rw [hg]; rfl)
    · exact Quiet.refl hI
  | coordinator j =>
    simp only [St.setPhase]
    split
    · rename_i e q hpc
      refine quiet_setCo hI rfl (by simp) fun n route p' h => ?_
      obtain ⟨rfl, -⟩ : e = .exact n route ∧ Phase.committed = p' := by simpa using h
      exact (hI.trans j).committing n route q hpc
    · exact Quiet.refl hI

theorem quiet_rollback (hI : Inv P s) : Quiet P s (rollback s) := by
  unfold rollback
  split
  · exact quiet_unlock hI
  · exact Quiet.refl hI

theorem quiet_fail (hI : Inv P s) (x : Client) : Quiet P s (fail P s x) := by
  unfold fail
  split
  · split
    · split
      · exact (quiet_unlock hI).next hI fun hI' => quiet_refused hI' x
      · exact quiet_refused hI x
    · exact quiet_refused hI x
  · exact Quiet.refl hI

theorem quiet_disown (hI : Inv P s) (x : Client) : Quiet P s (s.disown x) := by
  unfold St.disown
  split
  · rename_i y n e hlock
    split
    · refine quiet_lock hI fun x' n' e' h => Or.inl ?_
      obtain ⟨rfl, rfl, rfl⟩ : none = x' ∧ n = n' ∧ e = e' := by simpa using h
      exact ⟨some y, hlock, Or.inr rfl⟩
    · exact Quiet.refl hI
  · exact Quiet.refl hI

theorem quiet_lost (hI : Inv P s) (x : Client) : Quiet P s (lost P s x) := by
  unfold lost
  split
  · exact (quiet_disown hI x).next hI fun hI' => quiet_ambiguous hI' x
  · exact Quiet.refl hI

end OwlMux.Cluster
