/-
The verdict on a transition whose COMMIT got no answer (`settle_transition_commit` and `observe_machine_transition` of
`owlmux-server/src/api/mod.rs`).

The transaction of the transition has executed and holds the deployment row until it ends: it lands or is rolled back, whether
or not its node hears of it. Transactions of all nodes wait for the row meanwhile; the observation is a plain SELECT and does
not.

- `left`: the lifecycle to which the Machine was moved by a transition from the revision that the call is about;
- `reEnrolled`: the Machine was moved from disabled to pending since;
- `settle_sound`: a verdict is right when the transaction has ended before the observation reads.
-/
import Mathlib.Tactic
import OwlMux.Machines.WayOut

namespace OwlMux.Machines

open OwlMux.Relay (Uuid Text RelayError RouteIdentity)
open OwlMux.Cluster (Config Lifecycle checkedSucc i64Max OwnerExpectation Observation)
open OwlMux.Table

/-! ## Model -/

/-- the joined binding of `observe_machine_transition`: LEFT JOIN on Machine and revision -/
def Db.bindingStatus (db : Db) (m : Uuid) (revision : ℤ) : Option Bool :=
  (db.bindings.find? fun b => decide (b.machineId = m) && decide (b.routeRevision = revision)).map BindingRow.active

/-- `observe_machine_transition` -/
def observeMachineTransition (n : Node) (clock : ℤ) (m : Uuid) (lifecycle : Lifecycle) (expected : OwnerExpectation) (db : Db) :
    Observation :=
  if n.leaseOk = false then .indeterminate
  else
    match checkedSucc expected.routeRevision, machineIn db.machines m, ownerIn db.owners m with
    | some next, some r, some o =>
      if r.lifecycle = lifecycle ∧ r.routeRevision = next ∧ o.routeRevision = next ∧ o.owner = none ∧
          db.bindingStatus m expected.routeRevision = some false then .committed
      else if r.lifecycle = .active ∧ r.routeRevision = expected.routeRevision ∧ o.routeRevision = expected.routeRevision ∧
          db.bindingStatus m expected.routeRevision = some true ∧ ownerMatches db n expected o clock = true then .aborted
      else .indeterminate
    | _, _, _ => .indeterminate

/-- what `commit_active_machine_transition` returned -/
inductive CommitResult where
  | ok
  | refused (error : ApiError)
  | ambiguous
deriving DecidableEq, Repr

inductive TransitionCompletion where
  | committed
  | aborted
  | indeterminate
deriving DecidableEq, Repr

/-- `settle_transition_commit` -/
def settleTransitionCommit (result : CommitResult) (observation : Observation) : TransitionCompletion :=
  match result, observation with
  | .ok, _ => .committed
  | .refused _, _ => .aborted
  | .ambiguous, .committed => .committed
  | .ambiguous, .aborted => .aborted
  | .ambiguous, .indeterminate => .indeterminate

/-- the call: its node, its Machine, where it should go and the owner it expects -/
structure Call where
  node : Node
  machineId : Uuid
  kind : Transition
  expected : OwnerExpectation

structure St where
  sys : Sys
  /-- the rows that the open transaction will leave -/
  pendingTxn : Option Db
  /-- it took effect -/
  landed : Bool
  left : Option Lifecycle
  reEnrolled : Bool
  verdict : Option TransitionCompletion

inductive Event where
  /-- a transaction of any node, once the deployment row is free -/
  | other (o : Op)
  | land
  | rollback
  /-- the answer to COMMIT arrives -/
  | acknowledge
  /-- it does not, and the observation reads; `answered`: its query succeeds -/
  | observe (node : Node) (clock : ℤ) (answered : Bool)

variable (hash : Text → Digest) (isEd25519 : Text → Bool) (c : Call)

/-- the history of the Machine, from the rows before and after a step -/
def St.note (st : St) (before after : Db) : St :=
  match machineIn before.machines c.machineId, machineIn after.machines c.machineId with
  | some r, some r' =>
    { st with
      left := if r.routeRevision = c.expected.routeRevision ∧ r'.routeRevision = c.expected.routeRevision + 1 then
          some r'.lifecycle else st.left
      reEnrolled := st.reEnrolled || (decide (r.lifecycle = .disabled) && decide (r'.lifecycle = .pending)) }
  | _, _ => st

def event (st : St) : Event → St
  | .other o =>
    match st.pendingTxn with
    | some _ => st
    | none =>
      let sys := step hash isEd25519 st.sys o
      { st with sys := sys }.note c st.sys.db sys.db
  | .land =>
    match st.pendingTxn with
    | some db => { st with sys := { st.sys with db := db }, pendingTxn := none, landed := true }.note c st.sys.db db
    | none => st
  | .rollback => { st with pendingTxn := none }
  | .acknowledge =>
    if st.verdict = none ∧ st.landed = true then { st with verdict := some (settleTransitionCommit .ok .indeterminate) } else st
  | .observe node clock answered =>
    if st.verdict = none then
      { st with verdict := some (settleTransitionCommit .ambiguous
          (if answered then observeMachineTransition node clock c.machineId c.kind.lifecycle c.expected st.sys.db else .indeterminate)) }
    else st

/-- COMMIT is sent: the statements of the transition have executed on `s` and left `db` -/
def sent (s : Sys) (db : Db) : St := ⟨s, some db, false, none, false, none⟩

/-- the observation reads after the transaction has ended and, for a transition to pending, no other call has brought the Machine from
disabled to pending since -/
def Settled (st : St) : Event → Prop
  | .observe .. => st.pendingTxn = none ∧ (c.kind.lifecycle = .pending → st.reEnrolled = false)
  | _ => True

/-! ## Invariant -/

/-- where the Machine is, given where it went from the call's revision -/
structure Follows (st : St) : Prop where
  inv : Inv hash st.sys
  row : ∃ r, machineIn st.sys.db.machines c.machineId = some r ∧
    match st.left with
    | none => r.lifecycle = .active ∧ r.routeRevision = c.expected.routeRevision
    | some l => (l = .pending ∨ l = .disabled) ∧ c.expected.routeRevision < r.routeRevision ∧
        (r.routeRevision = c.expected.routeRevision + 1 →
          (l = .pending → r.lifecycle ≠ .disabled) ∧ (l = .disabled → st.reEnrolled = false → r.lifecycle = .disabled))
  pendingTxn : ∀ db, st.pendingTxn = some db → st.left = none ∧ st.landed = false ∧
    ∃ now, commitActiveMachineTransition c.node now c.machineId c.kind c.expected st.sys.db = .ok db
  landed : st.landed = true → st.left = some c.kind.lifecycle

/-- what a verdict promises -/
structure Judged (st : St) : Prop where
  committed : st.verdict = some .committed → st.left = some c.kind.lifecycle
  aborted : st.verdict = some .aborted → st.landed = false ∧ st.pendingTxn = none

variable {hash : Text → Digest} {isEd25519 : Text → Bool} {c : Call} {st : St}

/-! ## Steps -/

theorem Transition.lifecycle_cases (k : Transition) : k.lifecycle = .pending ∨ k.lifecycle = .disabled := by
  cases k <;> simp [Transition.lifecycle]

theorem note_eq {before after : Db} {r r' : MachineRow} (h : machineIn before.machines c.machineId = some r)
    (h' : machineIn after.machines c.machineId = some r') :
    st.note c before after = { st with
      left := if r.routeRevision = c.expected.routeRevision ∧ r'.routeRevision = c.expected.routeRevision + 1 then
          some r'.lifecycle else st.left
      reEnrolled := st.reEnrolled || (decide (r.lifecycle = .disabled) && decide (r'.lifecycle = .pending)) } := by
  simp only [St.note, h, h']

/-- a transaction of any node moves the Machine along an edge -/
theorem follows_other (h : Follows hash c st) (hopen : st.pendingTxn = none) (o : Op) :
    Follows hash c (event hash isEd25519 c st (.other o)) := by
  obtain ⟨hi', hg⟩ : Inv hash (step hash isEd25519 st.sys o) ∧ Grows st.sys.db (step hash isEd25519 st.sys o).db := step_inv h.inv o
  obtain ⟨r, hr, hrow⟩ := h.row
  obtain ⟨r', hr', hmove⟩ := hg.machines c.machineId r hr
  simp only [event, hopen]
  rw [note_eq hr hr']
  cases hl : st.left with
  | none =>
    rw [hl] at hrow
    obtain ⟨hact, hrev⟩ := hrow
    have hland : st.landed = false := by
      by_contra hx
      have := h.landed (by simpa using hx)
      simp [hl] at this
    rcases hmove.edge with ⟨h1, h2⟩ | ⟨h1, -⟩ | ⟨h1, -⟩ | ⟨-, h1, h2⟩ | ⟨h1, -⟩
    · -- it stays active at its revision
      have hne : ¬ (r.routeRevision = c.expected.routeRevision ∧ r'.routeRevision = c.expected.routeRevision + 1) := by omega
      refine ⟨hi', ⟨r', hr', ?_⟩, by simp, by simp [hland]⟩
      simp only [if_neg hne]
      exact ⟨h1.trans hact, h2.trans hrev⟩
    · simp [hact] at h1
    · simp [hact] at h1
    · -- it leaves
      have heq : r.routeRevision = c.expected.routeRevision ∧ r'.routeRevision = c.expected.routeRevision + 1 := by omega
      refine ⟨hi', ⟨r', hr', ?_⟩, by simp, by simp [hland]⟩
      simp only [if_pos heq]
      exact ⟨h1, by omega, fun _ => ⟨fun hp => by simp [hp], fun hd _ => hd⟩⟩
    · simp [hact] at h1
  | some l =>
    rw [hl] at hrow
    obtain ⟨hkind, hlt, hat⟩ := hrow
    have hne : ¬ (r.routeRevision = c.expected.routeRevision ∧ r'.routeRevision = c.expected.routeRevision + 1) := by omega
    have hle := hmove.edge.le
    refine ⟨hi', ⟨r', hr', ?_⟩, by simp, fun hland => ?_⟩
    · simp only [if_neg hne]
      refine ⟨hkind, by omega, fun hrev => ?_⟩
      obtain ⟨hp, hd⟩ := hat (by omega)
      -- at one revision the Machine leaves disabled only by a re-enrollment
      refine ⟨fun hlp => ?_, fun hld hre => ?_⟩
      · have := hp hlp
        rcases hmove.edge with ⟨h1, -⟩ | ⟨-, h1, -⟩ | ⟨-, h1, -⟩ | ⟨-, -, h1⟩ | ⟨h1, -⟩
        · rwa [h1]
        · simp [h1]
        · rcases h1 with h1 | h1 <;> simp [h1]
        · omega
        · exact (this h1).elim
      · simp only [Bool.or_eq_false_iff] at hre
        have hdis := hd hld hre.1
        rcases hmove.edge with ⟨h1, -⟩ | ⟨h1, -⟩ | ⟨h1, -⟩ | ⟨h1, -⟩ | ⟨-, h1, -⟩
        · rw [h1, hdis]
        · simp [hdis] at h1
        · simp [hdis] at h1
        · simp [hdis] at h1
        · have := hre.2
          simp [hdis, h1] at this
    · simp only [if_neg hne]
      exact hl ▸ h.landed hland

/-- the open transaction lands: the Machine leaves its revision for where the call wants it -/
theorem follows_land (h : Follows hash c st) {db : Db} (hopen : st.pendingTxn = some db) :
    Follows hash c (event hash isEd25519 c st .land) := by
  obtain ⟨hleft, -, now, hok⟩ := h.pendingTxn db hopen
  obtain ⟨r, o, ⟨hr, hrid, hrl, hrev⟩, -, -, -, -, hdb⟩ := commitActiveMachineTransition_spec hok
  have hrow := machineIn_eq_some h.inv.sound.valid.machines hr hrid
  have hrow' : machineIn db.machines c.machineId =
      some { r with lifecycle := c.kind.lifecycle, routeRevision := r.routeRevision + 1 } := by
    rw [hdb]
    exact machineIn_transitioned hrow hrl
  have hi' := h.inv.commit (transition_sound h.inv.sound hok)
  simp only [event, hopen]
  rw [note_eq hrow hrow']
  have heq : r.routeRevision = c.expected.routeRevision ∧ r.routeRevision + 1 = c.expected.routeRevision + 1 := by omega
  refine ⟨hi', ⟨_, hrow', ?_⟩, by simp, fun _ => by simp only [if_pos heq]⟩
  simp only [if_pos heq]
  refine ⟨?_, by omega, fun _ => ⟨fun hp => by simp [hp], fun hd _ => hd⟩⟩
  exact c.kind.lifecycle_cases

/-- a verdict changes no row -/
theorem Follows.judge (h : Follows hash c st) (v : TransitionCompletion) : Follows hash c { st with verdict := some v } :=
  ⟨h.inv, h.row, h.pendingTxn, h.landed⟩

theorem event_follows (h : Follows hash c st) (e : Event) : Follows hash c (event hash isEd25519 c st e) := by
  cases e with
  | other o =>
    cases hopen : st.pendingTxn with
    | none => exact follows_other h hopen o
    | some db =>
      simp only [event, hopen]
      exact h
  | land =>
    cases hopen : st.pendingTxn with
    | none =>
      simp only [event, hopen]
      exact h
    | some db => exact follows_land h hopen
  | rollback => exact ⟨h.inv, h.row, by simp [event], h.landed⟩
  | acknowledge =>
    simp only [event]
    split_ifs
    · exact h.judge _
    · exact h
  | observe node clock answered =>
    by_cases hv : st.verdict = none
    · simp only [event, if_pos hv]
      exact h.judge _
    · simp only [event, if_neg hv]
      exact h

/-! ## Verdicts -/

/-- the observation of a state in which the transaction has ended -/
theorem observe_judged (h : Follows hash c st) (hre : c.kind.lifecycle = .pending → st.reEnrolled = false) {node : Node} {clock : ℤ}
    {observation : Observation}
    (ho : observeMachineTransition node clock c.machineId c.kind.lifecycle c.expected st.sys.db = observation) :
    (observation = .committed → st.left = some c.kind.lifecycle) ∧ (observation = .aborted → st.landed = false) := by
  obtain ⟨r, hr, hrow⟩ := h.row
  subst ho
  unfold observeMachineTransition
  split_ifs
  · simp
  · split
    · rename_i next r' o' hnext hr' ho'
      obtain rfl : r = r' := Option.some.inj (hr.symm.trans hr')
      obtain ⟨-, rfl⟩ := checkedSucc_eq_some.1 hnext
      split_ifs with h1 h2
      · refine ⟨fun _ => ?_, by simp⟩
        obtain ⟨htarget, hrev, -⟩ := h1
        cases hl : st.left with
        | none =>
          rw [hl] at hrow
          omega
        | some l =>
          rw [hl] at hrow
          obtain ⟨hp, hd⟩ := hrow.2.2 hrev
          congr 1
          rcases hrow.1 with rfl | rfl
          · rcases c.kind.lifecycle_cases with hk | hk
            · exact hk.symm
            · exact (hp rfl (htarget.trans hk)).elim
          · rcases c.kind.lifecycle_cases with hk | hk
            · simp [hd rfl (hre hk), hk] at htarget
            · exact hk.symm
      · refine ⟨by simp, fun _ => ?_⟩
        by_contra hx
        have hl := h.landed (by simpa using hx)
        rw [hl] at hrow
        omega
      · simp
    · simp

theorem event_judged (h : Follows hash c st) (hj : Judged c st) {e : Event} (hs : Settled c st e) :
    Judged c (event hash isEd25519 c st e) := by
  cases e with
  | other o =>
    cases hopen : st.pendingTxn with
    | some db =>
      simp only [event, hopen]
      exact hj
    | none =>
      obtain ⟨-, hg⟩ : Inv hash (step hash isEd25519 st.sys o) ∧ Grows st.sys.db (step hash isEd25519 st.sys o).db := step_inv h.inv o
      obtain ⟨r, hr, hrow⟩ := h.row
      obtain ⟨r', hr', -⟩ := hg.machines c.machineId r hr
      simp only [event, hopen]
      rw [note_eq hr hr']
      refine ⟨fun hv => ?_, fun hv => ⟨(hj.aborted hv).1, rfl⟩⟩
      -- the Machine has left the call's revision for good
      have hl := hj.committed hv
      rw [hl] at hrow
      have hne : ¬ (r.routeRevision = c.expected.routeRevision ∧ r'.routeRevision = c.expected.routeRevision + 1) := by omega
      simp only [if_neg hne, hl]
  | land =>
    cases hopen : st.pendingTxn with
    | none =>
      simp only [event, hopen]
      exact hj
    | some db =>
      obtain ⟨hleft, -, -⟩ := h.pendingTxn db hopen
      have hkeep : (event hash isEd25519 c st .land).verdict = st.verdict := by
        simp only [event, hopen, St.note]
        split <;> rfl
      refine ⟨fun hv => ?_, fun hv => ?_⟩
      · have := hj.committed (hkeep ▸ hv)
        simp [hleft] at this
      · have := (hj.aborted (hkeep ▸ hv)).2
        simp [hopen] at this
  | rollback => exact ⟨hj.committed, fun hv => ⟨(hj.aborted hv).1, rfl⟩⟩
  | acknowledge =>
    simp only [event]
    split_ifs with hc
    · exact ⟨fun _ => h.landed hc.2, by simp [settleTransitionCommit]⟩
    · exact hj
  | observe node clock answered =>
    by_cases hv : st.verdict = none
    · simp only [event, if_pos hv]
      cases answered with
      | false => exact ⟨by simp [settleTransitionCommit], by simp [settleTransitionCommit]⟩
      | true =>
        cases ho : observeMachineTransition node clock c.machineId c.kind.lifecycle c.expected st.sys.db <;>
          obtain ⟨hcom, hab⟩ := observe_judged h hs.2 ho <;>
          refine ⟨fun he => ?_, fun he => ?_⟩ <;> simp [settleTransitionCommit] at he
        · exact hcom rfl
        · exact ⟨hab rfl, hs.1⟩
    · simp only [event, if_neg hv]
      exact hj

/-- once the transaction has ended without effect it never takes effect -/
theorem run_not_landed (h : st.landed = false) (hopen : st.pendingTxn = none) (es : List Event) :
    (Machine.run (event hash isEd25519 c) st es).landed = false := by
  have hstep : ∀ st e, st.landed = false ∧ st.pendingTxn = none →
      (event hash isEd25519 c st e).landed = false ∧ (event hash isEd25519 c st e).pendingTxn = none := by
    rintro st e ⟨h1, h2⟩
    cases e with
    | other o =>
      simp only [event, h2, St.note]
      split <;> exact ⟨h1, rfl⟩
    | land =>
      simp only [event, h2]
      exact ⟨h1, trivial⟩
    | rollback => exact ⟨h1, rfl⟩
    | acknowledge =>
      simp only [event]
      split_ifs <;> exact ⟨h1, h2⟩
    | observe node clock answered =>
      by_cases hv : st.verdict = none
      · simp only [event, if_pos hv]
        exact ⟨h1, h2⟩
      · simp only [event, if_neg hv]
        exact ⟨h1, h2⟩
  exact (Machine.run_inv (I := fun st => st.landed = false ∧ st.pendingTxn = none) hstep st es ⟨h, hopen⟩).1

/-- **Verdicts on an ambiguous commit.** From any state reached, a transition of the Machine sends its COMMIT. In every order
in which it lands or is rolled back, is answered or observed, and transactions of any nodes follow, with every observation
settled: a verdict of committed means that a transition from the call's revision has moved the Machine to where the call wanted
it; a verdict of aborted means that the transition has not taken effect, and it never does. -/
theorem settle_sound (hash : Text → Digest) (isEd25519 : Text → Bool) (config : Config) (credentialId : Uuid) (before : List Op)
    (c : Call) (now : Clock) (db : Db)
    (hsent : commitActiveMachineTransition c.node now c.machineId c.kind c.expected
      (run hash isEd25519 (initial config credentialId) before).db = .ok db)
    (es : List Event)
    (hok : Machine.Along (event hash isEd25519 c) (Settled c) (sent (run hash isEd25519 (initial config credentialId) before) db) es) :
    ∀ st, st = Machine.run (event hash isEd25519 c) (sent (run hash isEd25519 (initial config credentialId) before) db) es →
      (st.verdict = some .committed → st.left = some c.kind.lifecycle) ∧
      (st.verdict = some .aborted → ∀ later, (Machine.run (event hash isEd25519 c) st later).landed = false) := by
  rintro st rfl
  have hi : Inv hash (run hash isEd25519 (initial config credentialId) before) := run_machines_inv config credentialId before
  obtain ⟨r, o, ⟨hr, hrid, hrl, hrev⟩, -⟩ := commitActiveMachineTransition_spec hsent
  have h0 : Follows hash c (sent (run hash isEd25519 (initial config credentialId) before) db) :=
    ⟨hi, ⟨r, machineIn_eq_some hi.sound.valid.machines hr hrid, hrl, hrev⟩,
      by rintro db' ⟨⟩; exact ⟨rfl, rfl, now, hsent⟩, by simp [sent]⟩
  have hj0 : Judged c (sent (run hash isEd25519 (initial config credentialId) before) db) := ⟨by simp [sent], by simp [sent]⟩
  obtain ⟨-, hj⟩ := Machine.run_inv_along (I := fun st => Follows hash c st ∧ Judged c st)
    (fun st e he hst => ⟨event_follows hst.1 e, event_judged hst.1 hst.2 he⟩) _ es hok ⟨h0, hj0⟩
  exact ⟨hj.committed, fun hv => run_not_landed (hj.aborted hv).1 (hj.aborted hv).2⟩

/-! ## A lost acknowledgement -/

/-- the owner of the Machine disables it -/
def disableCall : Call := ⟨sampleNode, 1, .disable, .exact 7 ⟨1, 1, 6⟩⟩

def claimedSys : Sys := run sampleHash (fun _ => true) (initial sampleConfig 9) claimedOps

/-- the rows that its transaction leaves -/
def disabledDb : Db :=
  (commitActiveMachineTransition sampleNode (fun _ => 5) 1 .disable (.exact 7 ⟨1, 1, 6⟩) claimedSys.db).toOption.getD claimedSys.db

theorem disabledDb_eq :
    commitActiveMachineTransition sampleNode (fun _ => 5) 1 .disable (.exact 7 ⟨1, 1, 6⟩) claimedSys.db = .ok disabledDb := by
  have hok : (commitActiveMachineTransition sampleNode (fun _ => 5) 1 .disable (.exact 7 ⟨1, 1, 6⟩) claimedSys.db).toOption.isSome =
      true := by decide +kernel
  unfold disabledDb
  cases h : commitActiveMachineTransition sampleNode (fun _ => 5) 1 .disable (.exact 7 ⟨1, 1, 6⟩) claimedSys.db with
  | ok db => rfl
  | error e =>
    rw [h] at hok
    cases hok

/-- it lands, the answer is lost, and the observation says so -/
theorem settle_sound_observed :
    (Machine.run (event sampleHash (fun _ => true) disableCall) (sent claimedSys disabledDb)
      [.land, .observe sampleNode 6 true]).verdict = some .committed ∧
    (Machine.run (event sampleHash (fun _ => true) disableCall) (sent claimedSys disabledDb)
      [.land, .observe sampleNode 6 true]).left = some .disabled := by
  have hv : (Machine.run (event sampleHash (fun _ => true) disableCall) (sent claimedSys disabledDb)
      [.land, .observe sampleNode 6 true]).verdict = some .committed := by decide +kernel
  have hok : Machine.Along (event sampleHash (fun _ => true) disableCall) (Settled disableCall) (sent claimedSys disabledDb)
      [.land, .observe sampleNode 6 true] := ⟨trivial, ⟨rfl, by decide⟩, trivial⟩
  exact ⟨hv, (settle_sound sampleHash (fun _ => true) sampleConfig 9 claimedOps disableCall (fun _ => 5) disabledDb disabledDb_eq _
    hok _ rfl).1 hv⟩

/-- the answer is lost, the observation reads while the transaction is open and judges it aborted, and it lands -/
theorem observed_before_landing :
    (Machine.run (event sampleHash (fun _ => true) disableCall) (sent claimedSys disabledDb)
      [.observe sampleNode 6 true]).verdict = some .aborted ∧
    (Machine.run (event sampleHash (fun _ => true) disableCall) (sent claimedSys disabledDb)
      [.observe sampleNode 6 true, .land]).landed = true ∧
    (Machine.run (event sampleHash (fun _ => true) disableCall) (sent claimedSys disabledDb)
      [.observe sampleNode 6 true, .land]).left = some .disabled := by
  decide +kernel

end OwlMux.Machines
