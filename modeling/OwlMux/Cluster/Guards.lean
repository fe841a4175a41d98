/-
The guards of transitions, over every run of the fleet: a route whose barrier a guard has closed is never reopened, and a guard
ends only with the outcome of its transition or with its node fenced.

Results:
- `step_guards`: what a step does to a guard;
- `transition_safety`: over every run;
- `handover_quiet`: the owner of a Machine changes only while nobody dispatches.
-/
import Mathlib.Tactic
import OwlMux.Cluster.Exclusive

namespace OwlMux.Cluster

open OwlMux.Relay (Uuid Text RouteIdentity)

variable {P : Params} {s s' s'' : St}

/-! ## What a step does to a guard -/

/-- it acts on its outcome -/
def GuardPc.telling : GuardPc → Bool
  | .releasing _ | .finishing => true
  | _ => false

/-- it has closed its barrier -/
def GuardPc.past : GuardPc → Bool
  | .done => true
  | pc => pc.shut

def St.fencedOf (s : St) : Uuid → Bool := fun n => (s.node n).lease.fenced

/-- a guard acts only on an outcome it was told, and ends with one or fenced -/
structure GuardOk (fenced : Uuid → Bool) (t : Transition) : Prop where
  told : t.guard.pc.telling = true → t.guard.outcome.isSome = true
  done : t.guard.pc = .done → t.guard.outcome.isSome = true ∨ fenced t.owner = true

structure GuardMoves (fenced fenced' : Uuid → Bool) (t t' : Transition) : Prop where
  past : t.guard.pc.past = true → t'.guard.pc.past = true ∧ t'.guard.tunnel = t.guard.tunnel ∧ t'.owner = t.owner
  ok : GuardOk fenced t → GuardOk fenced' t'

structure Guards (s s' : St) : Prop where
  fenced : ∀ n, s.fencedOf n = true → s'.fencedOf n = true
  moves : ∀ j, GuardMoves s.fencedOf s'.fencedOf (s.trans j) (s'.trans j)

theorem Guards.trans (h : Guards s s') (h' : Guards s' s'') : Guards s s'' := by
  refine ⟨fun n hn => h'.fenced n (h.fenced n hn), fun j => ⟨fun hp => ?_, fun hok => (h'.moves j).ok ((h.moves j).ok hok)⟩⟩
  obtain ⟨h1, h2, h3⟩ := (h.moves j).past hp
  obtain ⟨k1, k2, k3⟩ := (h'.moves j).past h1
  exact ⟨k1, k2.trans h2, k3.trans h3⟩

theorem moves_same {fenced fenced' : Uuid → Bool} (hf : ∀ n, fenced n = true → fenced' n = true) {t t' : Transition}
    (hg : t'.guard = t.guard) (ho : t'.owner = t.owner) : GuardMoves fenced fenced' t t' := by
  refine ⟨fun hp => ?_, fun hok => ⟨?_, fun hd => ?_⟩⟩
  · rw [hg]
    exact ⟨hp, rfl, ho⟩
  · rw [hg]
    exact hok.told
  · rw [hg] at hd ⊢
    rw [ho]
    exact (hok.done hd).imp_right (hf t.owner)

/-- no guard is touched -/
theorem guards_same (hf : ∀ n, s.fencedOf n = true → s'.fencedOf n = true) (ht : s'.trans = s.trans) : Guards s s' :=
  ⟨hf, fun j => by rw [ht]; exact moves_same hf rfl rfl⟩

theorem Guards.refl (s : St) : Guards s s := guards_same (fun _ h => h) rfl

theorem LeaseMoves.fenced (h : LeaseMoves P s s') (n : Uuid) (hf : s.fencedOf n = true) : s'.fencedOf n = true := by
  obtain ⟨d, h⟩ := h
  obtain ⟨-, ops, h2⟩ := h n
  unfold St.fencedOf
  rw [h2]
  exact Lease.run_fenced hf ops

theorem guards_quiet (h : Quiet P s s') (ht : s'.trans = s.trans) : Guards s s' := guards_same h.lease.fenced ht

theorem guards_leaseStep (s : St) (n : Uuid) (o : Lease.Op) : Guards s (s.leaseStep P n o) := by
  refine guards_same (fun n' hf => ?_) rfl
  unfold St.fencedOf St.leaseStep at *
  by_cases h : n' = n
  · subst h
    rw [setNode_node_self]
    exact Lease.step_fenced hf o
  · rw [setNode_node_of_ne h]
    exact hf

theorem guards_setTrans {j : ℕ} {t : Transition} (h : GuardMoves s.fencedOf s.fencedOf (s.trans j) t) : Guards s (s.setTrans j t) := by
  refine ⟨fun _ h => h, fun k => ?_⟩
  by_cases hk : k = j
  · subst hk
    rw [setTrans_trans_self]
    exact h
  · rw [show (s.setTrans j t).trans k = s.trans k from Function.update_of_ne hk ..]
    exact moves_same (fun _ h => h) rfl rfl

/-- the guard stays as it is -/
theorem guards_stay {j : ℕ} {t : Transition} (hg : t.guard = (s.trans j).guard) (ho : t.owner = (s.trans j).owner) :
    Guards s (s.setTrans j t) := guards_setTrans (moves_same (fun _ h => h) hg ho)

/-- a guard that has closed nothing yet -/
theorem guards_before {j : ℕ} {t : Transition} (h : (s.trans j).guard.pc.past = false) (h1 : t.guard.pc.telling = false)
    (h2 : t.guard.pc ≠ .done) : Guards s (s.setTrans j t) :=
  guards_setTrans ⟨fun hp => (by rw [h] at hp; cases hp), fun _ => ⟨fun ht => (by rw [h1] at ht; cases ht), fun hd => (h2 hd).elim⟩⟩

/-- a guard that has closed its barrier goes on -/
theorem guards_goOn {j : ℕ} {t : Transition} (hp : t.guard.pc.past = true) (htun : t.guard.tunnel = (s.trans j).guard.tunnel)
    (ho : t.owner = (s.trans j).owner)
    (hok : GuardOk s.fencedOf (s.trans j) → t.guard.pc.telling = true → t.guard.outcome.isSome = true)
    (hd : GuardOk s.fencedOf (s.trans j) → t.guard.pc = .done → t.guard.outcome.isSome = true ∨ s.fencedOf t.owner = true) :
    Guards s (s.setTrans j t) :=
  guards_setTrans ⟨fun _ => ⟨hp, htun, ho⟩, fun h => ⟨hok h, hd h⟩⟩

theorem guards_setGuard {j : ℕ} {g : Guard} (hp : g.pc.past = true) (htun : g.tunnel = (s.trans j).guard.tunnel)
    (hok : GuardOk s.fencedOf (s.trans j) → g.pc.telling = true → g.outcome.isSome = true)
    (hd : GuardOk s.fencedOf (s.trans j) → g.pc = .done → g.outcome.isSome = true ∨ s.fencedOf (s.trans j).owner = true) :
    Guards s (s.setGuard j g) :=
  guards_goOn hp htun rfl hok hd

/-- the registry of a node, not its lease -/
theorem guards_setNode {n : Uuid} {x : Node} (hx : x.lease = (s.node n).lease) : Guards s (s.setNode n x) := by
  refine guards_same (fun n' hf => ?_) rfl
  unfold St.fencedOf at *
  by_cases hn : n' = n
  · subst hn
    rw [setNode_node_self, hx]
    exact hf
  · rw [setNode_node_of_ne hn]
    exact hf

theorem guards_setCo (s : St) (j : ℕ) (pc : CoPc) : Guards s (s.setCo j pc) := guards_stay rfl rfl

theorem guards_setDest (s : St) (j : ℕ) (pc : DestPc) : Guards s (s.setDest j pc) := guards_stay rfl rfl

theorem guards_endHandler (s : St) (j : ℕ) : Guards s (s.endHandler j) := by
  unfold St.endHandler
  split_ifs
  · exact guards_setCo s j .ended
  · exact guards_setDest s j .ended

theorem guards_dropGuard (s : St) (j : ℕ) : Guards s (s.dropGuard P j) := by
  have hf : Guards s (s.hardFence P (s.trans j).owner) := guards_leaseStep s (s.trans j).owner .hardFence
  have hfenced : (s.hardFence P (s.trans j).owner).fencedOf (s.trans j).owner = true := by
    unfold St.fencedOf St.hardFence St.leaseStep
    rw [setNode_node_self]
    rfl
  refine Guards.trans (hf.trans (guards_setGuard ?_ ?_ ?_ ?_)) (guards_endHandler _ j)
  · rfl
  · rfl
  · simp [GuardPc.telling]
  · exact fun _ _ => Or.inr hfenced

theorem past_of_idle {g : Guard} (h : g.pc = .idle) : g.pc.past = false := by
  rw [h]
  rfl

theorem guards_tellGuard (s : St) (j : ℕ) (committed : Bool) : Guards s (s.tellGuard j committed) := by
  unfold St.tellGuard
  by_cases h : (s.trans j).guard.pc = .prepared
  · rw [if_pos h]
    refine guards_setGuard ?_ rfl (fun _ _ => rfl) fun _ _ => Or.inl rfl
    cases committed <;> rfl
  · rw [if_neg h]
    exact Guards.refl s

/-! ## Transactions -/

theorem guards_refused (s : St) (x : Client) : Guards s (s.refused P x) := by
  cases x with
  | tunnel i =>
    simp only [St.refused]
    split
    · exact guards_same (fun _ h => h) rfl
    · exact (guards_leaseStep s (s.tun i).node .hardFence).trans (guards_same (fun _ h => h) rfl)
    · exact Guards.refl s
  | guard j => exact guards_dropGuard s j
  | coordinator j =>
    simp only [St.refused]
    split
    · exact guards_setCo s j _
    · exact Guards.refl s

theorem guards_ambiguous (s : St) (x : Client) : Guards s (s.ambiguous P x) := by
  cases x with
  | tunnel i =>
    simp only [St.ambiguous]
    split
    · exact (guards_leaseStep s (s.tun i).node .hardFence).trans (guards_same (fun _ h => h) rfl)
    · exact guards_refused s _
  | guard j => exact guards_refused s (.guard j)
  | coordinator j =>
    simp only [St.ambiguous]
    split
    · exact guards_setCo s j _
    · exact Guards.refl s

theorem guards_setPhase (s : St) (x : Client) (p : Phase) : Guards s (s.setPhase x p) := by
  cases x with
  | tunnel i =>
    simp only [St.setPhase]
    split
    · exact guards_same (fun _ h => h) rfl
    · exact guards_same (fun _ h => h) rfl
    · exact Guards.refl s
  | guard j =>
    simp only [St.setPhase]
    split
    · rename_i q hg
      exact guards_goOn rfl rfl rfl (fun hok _ => hok.told (by rw [hg]; rfl)) (by simp)
    · exact Guards.refl s
  | coordinator j =>
    simp only [St.setPhase]
    split
    · exact guards_setCo s j _
    · exact Guards.refl s

theorem guards_noteEpoch (s : St) (x : Client) (e : Effect) : Guards s (s.noteEpoch x e) := by
  cases x with
  | tunnel i => cases e <;> exact guards_same (fun _ h => h) rfl
  | guard j | coordinator j => cases e <;> exact Guards.refl s

theorem guards_reply (s : St) (x : Client) : Guards s (reply s x) := by
  unfold reply
  split
  · rename_i hphase
    cases x with
    | tunnel i =>
      simp only [St.succeeded]
      split
      · exact guards_same (fun _ h => h) rfl
      · exact guards_same (fun _ h => h) rfl
      · exact Guards.refl s
    | guard j =>
      simp only [St.phase] at hphase
      split at hphase
      · rename_i p hg
        exact guards_goOn rfl rfl rfl (fun hok _ => hok.told (by rw [hg]; rfl)) (by simp)
      · cases hphase
    | coordinator j =>
      simp only [St.succeeded]
      split
      · exact guards_setCo s j _
      · exact Guards.refl s
  · exact Guards.refl s

theorem guards_lock (s : St) (l : Option Lock) : Guards s { s with lock := l } := guards_same (fun _ h => h) rfl

theorem guards_begin (s : St) (x : Client) (clock : Bool) : Guards s (begin P s x clock) := by
  unfold begin
  simp only
  have hc := guards_leaseStep (P := P) s (s.nodeOf x) (.check clock)
  split_ifs
  · exact Guards.refl s
  · exact (hc.trans (guards_setPhase _ x .began)).trans (guards_lock _ _)
  · exact hc.trans (guards_refused _ x)

theorem guards_execute (s : St) (x : Client) : Guards s (execute P s x) := by
  unfold execute
  split
  · split
    · split
      · exact ((guards_noteEpoch s x _).trans (guards_setPhase _ x .executed)).trans (guards_lock _ _)
      · exact (guards_lock s none).trans (guards_refused _ x)
    · exact Guards.refl s
  · exact Guards.refl s

theorem guards_fail (s : St) (x : Client) : Guards s (fail P s x) := by
  unfold fail
  split
  · split
    · split
      · exact (guards_lock s none).trans (guards_refused _ x)
      · exact guards_refused s x
    · exact guards_refused s x
  · exact Guards.refl s

theorem guards_apply (s : St) (e : Effect) : Guards s (s.apply e) := by
  cases e with
  | deleteNode n =>
    refine guards_same (fun n' hf => ?_) rfl
    unfold St.fencedOf at *
    simp only [St.apply]
    by_cases hn : n' = n
    · subst hn
      rw [setNode_node_self]
      exact hf
    · rw [setNode_node_of_ne hn]
      exact hf
  | _ => exact guards_same (fun _ h => h) rfl

theorem guards_commit (s : St) : Guards s (commit s) := by
  unfold commit
  split
  · rename_i client n e hlock
    cases client with
    | none => exact guards_apply s e
    | some x =>
      simp only
      split_ifs
      · exact (guards_apply s e).trans (guards_setPhase _ x .committed)
      · exact guards_apply s e
  · exact Guards.refl s

theorem guards_lost (s : St) (x : Client) : Guards s (lost P s x) := by
  unfold lost
  split
  · refine Guards.trans ?_ (guards_ambiguous _ x)
    unfold St.disown
    split
    · split
      · exact guards_lock s _
      · exact Guards.refl s
    · exact Guards.refl s
  · exact Guards.refl s

/-! ## Transitions -/

theorem guards_resolve (hI : Inv P s) (j : ℕ) (clock : Bool) : Guards s (resolve P s j clock) := by
  have hc := guards_leaseStep (P := P) s (s.trans j).node (.check clock)
  unfold resolve
  simp only
  split
  · exact Guards.refl s
  · rename_i hpc
    have hg := past_of_idle ((hI.trans j).early (by rw [not_not.1 hpc]; rfl)).2.1
    have hidle := ((hI.trans j).early (by rw [not_not.1 hpc]; rfl)).2.1
    refine hc.trans ?_
    split
    · exact guards_setCo _ j _
    · split
      · exact guards_setCo _ j _
      · split
        · exact guards_before hg (by simp [hidle, GuardPc.telling]) (by simp [hidle])
        · split
          · exact guards_before hg (by simp [hidle, GuardPc.telling]) (by simp [hidle])
          · exact guards_setCo _ j _

theorem guards_resolveNone (s : St) (j : ℕ) (clock : Bool) : Guards s (resolveNone P s j clock) := by
  unfold resolveNone
  simp only
  split
  · exact Guards.refl s
  · refine (guards_leaseStep (P := P) s (s.trans j).node (.check clock)).trans ?_
    split
    · exact guards_setCo _ j _
    · exact guards_setCo _ j _

theorem guards_accept (s : St) (j : ℕ) (clock : Bool) : Guards s (accept P s j clock) := by
  unfold accept
  simp only
  split
  · exact Guards.refl s
  · exact (guards_leaseStep (P := P) s (s.trans j).owner (.check clock)).trans (guards_setDest _ j _)

theorem guards_acceptRoute (hI : Inv P s) (j : ℕ) (clock : Bool) : Guards s (acceptRoute P s j clock) := by
  unfold acceptRoute
  simp only
  split
  · exact Guards.refl s
  · rename_i hd
    have hidle := (hI.trans j).unbegun (Or.inl (not_not.1 hd))
    split
    · exact guards_setDest s j _
    · refine (guards_leaseStep (P := P) s (s.trans j).owner (.check clock)).trans ?_
      split
      · exact guards_before (past_of_idle hidle) (by simp [hidle, GuardPc.telling]) (by simp [hidle])
      · exact guards_setDest _ j _

theorem guards_beginTransition (s : St) (j : ℕ) : Guards s (beginTransition s j) := by
  unfold beginTransition
  simp only
  split
  · exact Guards.refl s
  · rename_i hc
    have hg := past_of_idle (not_not.1 hc).2
    generalize (if (s.trans j).dest = .idle then (s.trans j).route else (s.trans j).guard.route) = expected
    split
    · exact guards_endHandler s j
    · split
      · refine Guards.trans (guards_setNode ?_) (guards_before hg ?_ ?_)
        · rfl
        · rfl
        · simp
      · exact guards_endHandler s j

theorem guards_closeBarrier (s : St) (j : ℕ) : Guards s (closeBarrier s j) := by
  unfold closeBarrier
  simp only
  split
  · rename_i hg
    have hclose : Guards s (s.closeDispatch (s.trans j).guard.tunnel) := guards_same (fun _ h => h) rfl
    have hpast : (s.trans j).guard.pc.past = false := by
      rw [hg]
      rfl
    exact hclose.trans (guards_before hpast rfl (by simp))
  · exact Guards.refl s

theorem guards_prepared (s : St) (j : ℕ) (clock : Bool) : Guards s (prepared P s j clock) := by
  unfold prepared
  simp only
  split
  · refine (guards_leaseStep (P := P) s (s.trans j).owner (.check clock)).trans ?_
    split
    · exact guards_dropGuard _ j
    · split
      · exact guards_goOn rfl rfl rfl (by simp [GuardPc.telling]) (by simp)
      · exact guards_goOn rfl rfl rfl (by simp [GuardPc.telling]) (by simp)
  · exact Guards.refl s

theorem guards_conclude (s : St) (j : ℕ) : Guards s (conclude P s j) := by
  unfold conclude
  simp only
  split
  · exact guards_setCo s j _
  · split
    · exact guards_dropGuard s j
    · exact guards_setCo s j _
  · split
    · exact (guards_tellGuard s j _).trans (guards_setCo _ j _)
    · exact guards_stay rfl rfl
  · exact Guards.refl s

theorem guards_finishTransition (s : St) (j : ℕ) : Guards s (finishTransition s j) := by
  unfold finishTransition
  simp only
  split
  · exact Guards.refl s
  · rename_i hg
    refine Guards.trans (Guards.trans (guards_setNode ?_) (guards_setGuard ?_ ?_ ?_ ?_)) (guards_endHandler _ j)
    · rfl
    · rfl
    · rfl
    · simp [GuardPc.telling]
    · exact fun hok _ => Or.inl (hok.told (show (s.trans j).guard.pc.telling = true by rw [not_not.1 hg]; rfl))

/-- what a step does to the guards -/
theorem step_guards (hI : Inv P s) (o : Op) : Guards s (step P s o) := by
  have hrefl := Guards.refl s
  cases o with
  | begin x clock => exact guards_begin s x clock
  | execute x => exact guards_execute s x
  | fail x => exact guards_fail s x
  | commit => exact guards_commit s
  | reply x => exact guards_reply s x
  | lost x => exact guards_lost s x
  | configure n =>
    simp only [step]
    split
    · exact hrefl
    · split
      · exact guards_lock s _
      · exact hrefl
  | releaseNode n =>
    simp only [step]
    unfold releaseNode
    split_ifs
    · exact hrefl
    · exact guards_lock s _
    · exact guards_leaseStep s n .hardFence
  | request j n m action =>
    simp only [step]
    split_ifs with h
    · have hidle := ((hI.trans j).early (by rw [h.1]; rfl)).2.1
      exact guards_before (past_of_idle hidle) rfl (by simp [Transition.init, Guard.init])
    · exact hrefl
  | resolve j clock => exact guards_resolve hI j clock
  | resolveNone j clock => exact guards_resolveNone s j clock
  | accept j clock => exact guards_accept s j clock
  | acceptRoute j clock => exact guards_acceptRoute hI j clock
  | sendPrepare j =>
    simp only [step, sendPrepare]
    split_ifs
    · exact guards_stay rfl rfl
    · exact hrefl
  | receivePrepare j =>
    simp only [step, receivePrepare]
    split_ifs
    · exact guards_setDest s j _
    · exact hrefl
  | beginTransition j => exact guards_beginTransition s j
  | closeBarrier j => exact guards_closeBarrier s j
  | prepared j clock => exact guards_prepared s j clock
  | sendReady j =>
    simp only [step, sendReady]
    split_ifs
    · exact guards_stay rfl rfl
    · exact hrefl
  | receiveReady j =>
    simp only [step, receiveReady]
    split_ifs
    · exact guards_setCo s j _
    · exact hrefl
  | observe j clock answered =>
    simp only [step, observe]
    split
    · exact (guards_leaseStep s _ _).trans (guards_setCo _ j _)
    · exact hrefl
  | conclude j => exact guards_conclude s j
  | receiveFinish j =>
    simp only [step, receiveFinish]
    split
    · exact (guards_tellGuard s j _).trans (guards_setDest _ j _)
    · exact hrefl
  | finishTransition j => exact guards_finishTransition s j
  | giveUp j =>
    simp only [step]
    split
    · exact guards_setCo s j _
    · exact guards_setCo s j _
    · exact guards_setCo s j _
    · exact hrefl
  | hangUp j =>
    simp only [step]
    split
    · exact guards_setDest s j _
    · exact guards_setDest s j _
    · exact hrefl
  | abandon j =>
    simp only [step]
    split_ifs
    · exact guards_dropGuard s j
    · exact hrefl
  | tick d => exact guards_quiet (step_quiet hI (o := .tick d) rfl) rfl
  | boot n config =>
    refine guards_quiet (step_quiet hI (o := .boot n config) rfl) ?_
    simp only [step]
    split_ifs <;> rfl
  | lease n o =>
    refine guards_quiet (step_quiet hI (o := .lease n o) rfl) ?_
    simp only [step, leaseOp]
    cases o <;> (repeat' split) <;> rfl
  | createMachine m =>
    refine guards_quiet (step_quiet hI (o := .createMachine m) rfl) ?_
    simp only [step]
    split_ifs <;> rfl
  | acceptToken m =>
    refine guards_quiet (step_quiet hI (o := .acceptToken m) rfl) ?_
    simp only [step, St.write]
    split_ifs <;> rfl
  | activate m host =>
    refine guards_quiet (step_quiet hI (o := .activate m host) rfl) ?_
    simp only [step, St.write]
    split_ifs <;> rfl
  | failAttempt m =>
    refine guards_quiet (step_quiet hI (o := .failAttempt m) rfl) ?_
    simp only [step, St.write]
    split_ifs <;> rfl
  | reEnroll m =>
    refine guards_quiet (step_quiet hI (o := .reEnroll m) rfl) ?_
    simp only [step, St.write]
    split_ifs <;> rfl
  | tunnel i n m c revision =>
    refine guards_quiet (step_quiet hI (o := .tunnel i n m c revision) rfl) ?_
    simp only [step]
    split_ifs <;> rfl
  | reserveClaim i clock =>
    refine guards_quiet (step_quiet hI (o := .reserveClaim i clock) rfl) ?_
    simp only [step, reserveClaim]
    split_ifs <;> rfl
  | installReserved i clock =>
    refine guards_quiet (step_quiet hI (o := .installReserved i clock) rfl) ?_
    simp only [step, installReserved]
    split_ifs <;> rfl
  | runEnds i =>
    refine guards_quiet (step_quiet hI (o := .runEnds i) rfl) ?_
    simp only [step]
    split_ifs <;> rfl
  | closeDispatch i =>
    refine guards_quiet (step_quiet hI (o := .closeDispatch i) rfl) ?_
    simp only [step]
    split <;> rfl
  | beginOwnerRelease i =>
    refine guards_quiet (step_quiet hI (o := .beginOwnerRelease i) rfl) ?_
    simp only [step, beginOwnerRelease]
    (repeat' split) <;> rfl
  | cleanupComplete i =>
    refine guards_quiet (step_quiet hI (o := .cleanupComplete i) rfl) ?_
    simp only [step]
    split <;> rfl
  | finishOwnerRelease i =>
    refine guards_quiet (step_quiet hI (o := .finishOwnerRelease i) rfl) ?_
    simp only [step, finishOwnerRelease]
    split_ifs
    · split <;> rfl
    · rfl
  | finishPending i =>
    refine guards_quiet (step_quiet hI (o := .finishPending i) rfl) ?_
    simp only [step]
    split_ifs <;> rfl
  | closeAll n => exact guards_quiet (step_quiet hI (o := .closeAll n) rfl) rfl
  | closeDrained n i =>
    refine guards_quiet (step_quiet hI (o := .closeDrained n i) rfl) ?_
    simp only [step, closeDrained]
    split_ifs <;> rfl
  | rollback =>
    refine guards_quiet (step_quiet hI (o := .rollback) rfl) ?_
    simp only [step, rollback]
    split <;> rfl

/-! ## Runs -/

/-- the dispatch of a tunnel that has its handle is not opened again -/
theorem step_shut (hI : Inv P s) (o : Op) {k : ℕ} (hk : (s.tun k).handle.isSome = true) (hh : ¬ (s.tun k).Holding) :
    ((step P s o).tun k).handle.isSome = true ∧ ¬ ((step P s o).tun k).Holding := by
  by_cases ho : o = .commit
  · subst ho
    show ((commit s).tun k).handle.isSome = true ∧ ¬ ((commit s).tun k).Holding
    rcases commit_spec hI with h | ⟨x, n, e, -, -, hq | ⟨i, -, hpc, h⟩⟩
    · rw [h]
      exact ⟨hk, hh⟩
    · have hkeep := hq.tun k
      rw [apply_tun] at hkeep
      exact ⟨hkeep.handle hk, fun h => hh (hkeep.holding h)⟩
    · have hne : k ≠ i := by
        rintro rfl
        rw [(hI.tunnel k).early (by rw [hpc]; rfl)] at hk
        cases hk
      rw [h]
      simp only [St.goto]
      rw [setTun_tun_of_ne hne, apply_tun]
      exact ⟨hk, hh⟩
  · have hkeep := (step_keeps hI ho).1 k
    exact ⟨hkeep.handle hk, fun h => hh (hkeep.holding h)⟩

/-- a guard that has closed the barrier of its tunnel, as long as it goes on and for ever after -/
structure Shut (s : St) (j k : ℕ) : Prop where
  past : (s.trans j).guard.pc.past = true
  tunnel : (s.trans j).guard.tunnel = k
  handle : (s.tun k).handle.isSome = true
  closed : ¬ (s.tun k).Holding

theorem step_closed (hI : Inv P s) {j k : ℕ} (h : Shut s j k) (o : Op) : Shut (step P s o) j k := by
  obtain ⟨h1, h2, -⟩ := ((step_guards hI o).moves j).past h.past
  obtain ⟨h3, h4⟩ := step_shut hI o h.handle h.closed
  exact ⟨h1, h2.trans h.tunnel, h3, h4⟩

theorem guardOk_run (hs : ∀ n, Lease.CheckSafe (P.cfg n)) (config : Config) (ops : List Op) (j : ℕ) :
    GuardOk (run P (init config) ops).fencedOf ((run P (init config) ops).trans j) := by
  have h := Machine.run_inv (I := fun s => Inv P s ∧ GuardOk s.fencedOf (s.trans j))
    (fun _ o h => ⟨step_inv hs h.1 o, ((step_guards h.1 o).moves j).ok h.2⟩) (init config) ops
    ⟨inv_init P config, ⟨by simp [init, Transition.init, Guard.init, GuardPc.telling], by simp [init, Transition.init, Guard.init]⟩⟩
  exact h.2

theorem run_closed (hs : ∀ n, Lease.CheckSafe (P.cfg n)) (hI : Inv P s) {j k : ℕ} (h : Shut s j k) (ops : List Op) :
    Shut (run P s ops) j k :=
  (Machine.run_inv (I := fun s => Inv P s ∧ Shut s j k) (fun _ o h => ⟨step_inv hs h.1 o, step_closed h.1 h.2 o⟩)
    s ops ⟨hI, h⟩).2

theorem past_cases {pc : GuardPc} (h : pc.past = true) : pc.shut = true ∨ pc = .done := by
  cases pc <;> simp_all [GuardPc.past]

/-- **Transition safety.** After the commit of a transition no route of the Machine up to its revision passes the guard again; and
once a guard has closed the barrier of its route, the route stays closed, and the guard ends only with the outcome of the
transition or with its node fenced. -/
theorem transition_safety (P : Params) (hs : ∀ n, Lease.CheckSafe (P.cfg n)) (config : Config) (pre post : List Op) (o : Op) :
    (∀ m lifecycle revision, committed (run P (init config) pre) o = some (.transition m lifecycle revision) →
      ∀ i clock, ((run P (init config) (pre ++ o :: post)).tun i).machine = m →
        ((run P (init config) (pre ++ o :: post)).tun i).revision ≤ revision →
        passes P (run P (init config) (pre ++ o :: post)) i clock = false) ∧
    ∀ j, ((run P (init config) pre).trans j).guard.pc.shut = true →
      (∀ clock, passes P (run P (init config) (pre ++ post)) ((run P (init config) pre).trans j).guard.tunnel clock = false) ∧
      (((run P (init config) (pre ++ post)).trans j).guard.pc.shut = true ∨
        ((run P (init config) (pre ++ post)).trans j).guard.outcome.isSome = true ∨
        ((run P (init config) (pre ++ post)).node ((run P (init config) (pre ++ post)).trans j).owner).lease.fenced = true) := by
  have hinv := run_inv hs config
  refine ⟨fun m lifecycle revision h i clock hm hle => Bool.eq_false_iff.2 fun hpass => ?_, fun j hshut => ?_⟩
  · have := revision_after hs config pre post o h i clock hm hpass
    omega
  · have hrun : run P (init config) (pre ++ post) = run P (run P (init config) pre) post := Machine.run_append _ pre post
    have ha : ((run P (init config) pre).trans j).guard.pc.active = true := by
      revert hshut
      cases ((run P (init config) pre).trans j).guard.pc <;> simp [GuardPc.shut, GuardPc.active]
    have hpast : ((run P (init config) pre).trans j).guard.pc.past = true := by
      revert hshut
      cases ((run P (init config) pre).trans j).guard.pc <;> simp [GuardPc.shut, GuardPc.past]
    have hclosed := run_closed hs (hinv pre) ⟨hpast, rfl, (((hinv pre).trans j).active ha).1, ((hinv pre).trans j).shut hshut⟩ post
    rw [← hrun] at hclosed
    refine ⟨fun clock => Bool.eq_false_iff.2 fun hpass => hclosed.closed (holding_of_passes hpass).1, ?_⟩
    rcases past_cases hclosed.past with h | h
    · exact Or.inl h
    · exact Or.inr ((guardOk_run hs config (pre ++ post) j).done h)

/-- a tunnel runs on its node, which is asked to disable the Machine and prepares it -/
def disableOps : List Op :=
  boots 1 ++ [.createMachine 5, .acceptToken 5, .activate 5 "k".toList] ++ claims 0 1 5 7 ++
    [.reply (.tunnel 0), .installReserved 0 true, .request 0 1 5 .disable, .resolve 0 true, .beginTransition 0, .closeBarrier 0,
      .runEnds 0, .closeDispatch 0, .beginOwnerRelease 0, .cleanupComplete 0, .prepared 0 true, .begin (.coordinator 0) true,
      .execute (.coordinator 0)]

/-- the route is closed, and stays closed after the commit -/
theorem transition_safety_disable :
    committed (run sampleParams (init sampleConfig) disableOps) .commit = some (.transition 5 .disabled 1) ∧
    passes sampleParams (run sampleParams (init sampleConfig) (disableOps ++ [.commit])) 0 true = false := by
  have hc : committed (run sampleParams (init sampleConfig) disableOps) .commit = some (.transition 5 .disabled 1) := by
    decide +kernel
  have hm : ((run sampleParams (init sampleConfig) (disableOps ++ [.commit])).tun 0).machine = 5 := by decide +kernel
  have hr : ((run sampleParams (init sampleConfig) (disableOps ++ [.commit])).tun 0).revision ≤ 1 := by decide +kernel
  have h := (transition_safety sampleParams sampleParams_safe sampleConfig disableOps [] .commit).1 5 .disabled 1 hc 0 true
  exact ⟨hc, h hm hr⟩

/-! ## Handing over -/

/-- the Machine whose owner changes -/
def Effect.machine : Effect → Option Uuid
  | .claim m .. | .release m | .transition m .. => some m
  | _ => none

/-- **A Machine changes hands only while nobody dispatches**: when a claim, a release or a transition of it commits, no tunnel of the
Machine passes the guard, on any node. -/
theorem handover_quiet (P : Params) (hs : ∀ n, Lease.CheckSafe (P.cfg n)) (config : Config) (pre : List Op) (o : Op) {e : Effect}
    {m : Uuid} (h : committed (run P (init config) pre) o = some e) (he : e.machine = some m) (i : ℕ) (clock : Bool)
    (hm : ((run P (init config) pre).tun i).machine = m) : passes P (run P (init config) pre) i clock = false := by
  obtain ⟨hok, -⟩ := committed_spec (run_inv hs config pre) h
  have hno : (run P (init config) pre).NoLive P m := by
    cases e with
    | claim m' epoch n c revision =>
      obtain rfl : m' = m := by simpa [Effect.machine] using he
      exact hok.2.1
    | release m' =>
      obtain rfl : m' = m := by simpa [Effect.machine] using he
      exact hok
    | transition m' lifecycle revision =>
      obtain rfl : m' = m := by simpa [Effect.machine] using he
      exact hok.1
    | _ => simp [Effect.machine] at he
  refine Bool.eq_false_iff.2 fun hpass => ?_
  obtain ⟨hh, hd⟩ := holding_of_passes hpass
  exact hd (hno i hh hm)

theorem handover_quiet_disable : passes sampleParams (run sampleParams (init sampleConfig) disableOps) 0 true = false := by
  have hc : committed (run sampleParams (init sampleConfig) disableOps) .commit = some (.transition 5 .disabled 1) := by
    decide +kernel
  have hm : ((run sampleParams (init sampleConfig) disableOps).tun 0).machine = 5 := by decide +kernel
  exact handover_quiet sampleParams sampleParams_safe sampleConfig disableOps .commit hc rfl 0 true hm

end OwlMux.Cluster
