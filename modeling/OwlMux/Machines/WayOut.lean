/-
Whether the operator can bring a Machine back to pending without its Relay or target (`spec/03-relay-enrollment-and-transport.md`,
recovery of an ambiguous activation): by API requests to any Server, by starting and stopping Servers, and by waiting until
leases and attempts have expired.

- `Stuck`: the binding of a Machine in verification is in force, so that its activation committed and no tunnel has claimed it;
  or the revision of an active Machine cannot be counted up;
- `stuck_operator`: nothing that the operator does ends that;
- `way_out`: from everywhere else a few requests do, after the leases and the attempt have expired.
-/
import Mathlib.Tactic
import OwlMux.Machines.Progress
import OwlMux.Machines.Runs

namespace OwlMux.Machines

open OwlMux.Relay (Uuid Text RelayError RouteIdentity)
open OwlMux.Cluster (Config Lifecycle checkedSucc i64Max OwnerExpectation)
open OwlMux.Table

/-! ## What the operator does -/

/-- requests of the API, and Servers started and stopped; the others need a Relay -/
def Op.operator : Op → Bool
  | .acceptToken .. | .activate .. | .failAttempt .. | .claimOwner .. | .releaseOwner .. => false
  | _ => true

/-- when a transaction runs -/
def Op.At (t : ℤ) : Op → Prop
  | .createMachine _ now .. | .issueEnrollmentToken _ now .. | .cancelEnrollmentToken _ now _ | .acceptToken _ now ..
  | .activate _ now .. | .failAttempt _ now _ | .recoverExpiredAttempts _ now _ | .claimOwner _ now .. | .releaseOwner _ now ..
  | .transition _ now .. | .reEnrollDisabledMachine _ now _ | .rebindMachineCredential _ now .. | .createCredential _ now ..
  | .setDefaultCredential _ now _ | .resetDefaultCredential _ now .. | .retireCredential _ now _ | .registerNode _ now _
  | .renewNode _ now _ | .drainNode _ now | .configure _ now => ∀ k, now k = t
  | .releaseNode _ => True

def Pending (db : Db) (m : Uuid) : Prop := (machineIn db.machines m).map MachineRow.lifecycle = some .pending

def Stuck (db : Db) (m : Uuid) : Prop :=
  ∃ r, machineIn db.machines m = some r ∧
    ((r.lifecycle = .verifying ∧ boundIn db.bindings m ≠ []) ∨ (r.lifecycle = .active ∧ i64Max ≤ r.routeRevision))

variable {hash : Text → Digest} {isEd25519 : Text → Bool} {db db' : Db} {n : Node} {now : Clock} {m m₀ : Uuid}

theorem Stuck.not_pending (h : Stuck db m) : ¬ Pending db m := by
  obtain ⟨r, hr, ⟨hl, -⟩ | ⟨hl, -⟩⟩ := h
  · simp [Pending, hr, hl]
  · simp [Pending, hr, hl]

/-! ## No way out -/

/-- a transaction that leaves the Machine's row and its bindings alone -/
theorem Stuck.congr (h : Stuck db m) (hm : machineIn db'.machines m = machineIn db.machines m)
    (hb : boundIn db'.bindings m = boundIn db.bindings m) : Stuck db' m := by
  obtain ⟨r, hr, hcase⟩ := h
  exact ⟨r, hm.trans hr, by rw [hb]; exact hcase⟩

theorem stuck_create {hash : Text → Digest} {input : CreateMachineInput} {machineId enrollmentId : Uuid} {random : List UInt8}
    (h : Stuck db m) (hc : createMachine hash n now input machineId enrollmentId random db = .ok db') : Stuck db' m := by
  obtain ⟨credentialId, -, hv, rfl⟩ := createMachine_spec hc
  obtain ⟨r, hr, hcase⟩ := h
  have hne : machineId ≠ m := by
    rintro rfl
    exact (uniqueOn_cons.1 hv.machines.1).1 r (mem_machineIn hr).1 rfl rfl (mem_machineIn hr).2.symm
  exact ⟨r, by simpa [machineIn, hne] using hr, hcase⟩

/-- a recovery ends no attempt of the Machine: it has none -/
theorem stuck_recover {machineId : Option Uuid} (hs : Sound db) (h : Stuck db m)
    (hc : recoverExpiredAttempts n now machineId db = .ok db') : Stuck db' m := by
  obtain ⟨hs', he⟩ := recoverExpiredAttempts_sound hs hc
  obtain ⟨r, hr, hcase⟩ := h
  rcases he.machines m r hr with hr' | ⟨hl, hr'⟩
  · exact ⟨r, hr', by rw [he.bindings]; exact hcase⟩
  · -- a pending Machine has no binding, and this one has
    have hb : boundIn db.bindings m ≠ [] := by
      rcases hcase with ⟨-, hb⟩ | ⟨hl', -⟩
      · exact hb
      · simp [hl] at hl'
    have := ((hs'.shape m _ hr').lifecycleOk.idle (.inl rfl)).1
    rw [he.bindings] at this
    exact (hb this).elim

theorem stuck_transition {kind : Transition} {expected : OwnerExpectation} (hs : Sound db) (h : Stuck db m)
    (hc : commitActiveMachineTransition n now m₀ kind expected db = .ok db') : Stuck db' m := by
  obtain ⟨x, o, ⟨hx, hxid, hxl, -⟩, -, -, hmax, -, rfl⟩ := commitActiveMachineTransition_spec hc
  obtain ⟨r, hr, hcase⟩ := h
  have hne : m ≠ m₀ := by
    rintro rfl
    obtain rfl : x = r := Option.some.inj ((machineIn_eq_some hs.valid.machines hx hxid).symm.trans hr)
    rcases hcase with ⟨hl, -⟩ | ⟨-, hle⟩
    · simp [hl] at hxl
    · omega
  have hm : machineIn (db.transitioned m₀ kind x.routeRevision).machines m = machineIn db.machines m :=
    machineIn_update_of_ne (by intro; rfl) (fun y hy => by simp [transitionMachine] at hy; exact hy.1.1) hne
  have hb : boundIn (db.transitioned m₀ kind x.routeRevision).bindings m = boundIn db.bindings m :=
    boundIn_update_of_ne (by simp) (fun y _ hy => by simp [transitionBinding] at hy; exact hy.1.1) hne
  exact Stuck.congr ⟨r, hr, hcase⟩ hm hb

theorem stuck_reEnroll (h : Stuck db m) (hc : reEnrollDisabledMachine n now m₀ db = .ok db') : Stuck db' m := by
  obtain ⟨-, rfl⟩ := reEnrollDisabledMachine_spec hc
  obtain ⟨r, hr, hcase⟩ := h
  have hl : r.lifecycle ≠ .disabled := by
    rcases hcase with ⟨hl, -⟩ | ⟨hl, -⟩ <;> simp [hl]
  refine ⟨r, ?_, hcase⟩
  show machineIn (update _ _ db.machines) m = some r
  rw [machineIn_update (by intro; rfl), hr]
  simp [hl]

theorem stuck_rebind {credentialId : Uuid} (h : Stuck db m) (hc : rebindMachineCredential n now m₀ credentialId db = .ok db') :
    Stuck db' m := by
  obtain ⟨x, -, -, -, -, rfl⟩ := rebindMachineCredential_spec hc
  obtain ⟨r, hr, hcase⟩ := h
  refine ⟨_, by show machineIn (update _ _ db.machines) m = _; rw [machineIn_update (by intro; rfl), hr]; rfl, ?_⟩
  dsimp only
  split_ifs <;> exact hcase

/-- nothing that the operator does brings such a Machine anywhere -/
theorem stuck_operator {s : Sys} (hi : Inv hash s) (h : Stuck s.db m) {o : Op} (ho : o.operator = true) :
    Stuck (step hash isEd25519 s o).db m := by
  have plain : ∀ {ε : Type} {r : Except ε Db}, (∀ db', r = .ok db' → Stuck db' m) → Stuck (committed s.db r) m := by
    intro ε r hr
    cases hx : r with
    | ok db' => exact hr db' hx
    | error e => exact h
  cases o with
  | createMachine => exact plain fun _ => stuck_create h
  | issueEnrollmentToken =>
    refine plain fun _ hc => ?_
    obtain ⟨-, -, rfl⟩ := issueEnrollmentToken_spec hc
    exact h
  | cancelEnrollmentToken =>
    refine plain fun _ hc => ?_
    obtain ⟨-, rfl⟩ := cancelEnrollmentToken_spec hc
    exact h
  | acceptToken => simp [Op.operator] at ho
  | activate => simp [Op.operator] at ho
  | failAttempt => simp [Op.operator] at ho
  | recoverExpiredAttempts => exact plain fun _ => stuck_recover hi.sound h
  | claimOwner => simp [Op.operator] at ho
  | releaseOwner => simp [Op.operator] at ho
  | transition => exact plain fun _ => stuck_transition hi.sound h
  | reEnrollDisabledMachine => exact plain fun _ => stuck_reEnroll h
  | rebindMachineCredential => exact plain fun _ => stuck_rebind h
  | createCredential =>
    refine plain fun _ hc => ?_
    obtain ⟨-, rfl⟩ := createCredential_spec hc
    exact h
  | setDefaultCredential =>
    refine plain fun _ hc => ?_
    obtain ⟨-, -, rfl⟩ := setDefaultCredential_spec hc
    exact h
  | resetDefaultCredential =>
    refine plain fun _ hc => ?_
    obtain ⟨-, rfl⟩ := resetDefaultCredential_spec hc
    exact h
  | retireCredential =>
    refine plain fun _ hc => ?_
    obtain ⟨-, rfl⟩ := retireCredential_spec hc
    exact h
  | registerNode =>
    refine plain fun _ hc => ?_
    obtain ⟨-, rfl⟩ := registerNode_spec hc
    exact h
  | renewNode =>
    refine plain fun _ hc => ?_
    obtain ⟨-, rfl⟩ := renewNode_spec hc
    exact h
  | drainNode =>
    refine plain fun _ hc => ?_
    obtain ⟨-, rfl⟩ := drainNode_spec hc
    exact h
  | releaseNode =>
    refine plain fun _ hc => ?_
    obtain ⟨-, -, rfl⟩ := releaseNode_spec hc
    exact h
  | configure =>
    refine plain fun _ hc => ?_
    obtain ⟨-, -, rfl⟩ := configure_spec hc
    exact h

theorem stuck_run {s : Sys} (hi : Inv hash s) (h : Stuck s.db m) (path : List Op) (hp : ∀ o ∈ path, o.operator = true) :
    Stuck (run hash isEd25519 s path).db m := by
  induction path generalizing s with
  | nil => exact h
  | cons o path ih =>
    exact ih (step_inv hi o).1 (stuck_operator hi h (hp o List.mem_cons_self)) fun o' ho' => hp o' (List.mem_cons_of_mem _ ho')

/-! ## The way out -/

/-- a time by which every lease and every attempt has expired -/
theorem exists_late (db : Db) (t₀ : ℤ) :
    ∃ t, t₀ ≤ t ∧ (∀ r ∈ db.nodes, r.leaseUntil ≤ t) ∧ ∀ a ∈ db.attempts, a.deadline ≤ t := by
  obtain ⟨t, ht⟩ := (t₀ :: (db.nodes.map NodeRow.leaseUntil ++ db.attempts.map AttemptRow.deadline)).toFinset.exists_le
  refine ⟨t, ht t₀ (by simp), fun r hr => ht _ ?_, fun a ha => ht _ ?_⟩
  · simp only [List.mem_toFinset, List.mem_cons, List.mem_append, List.mem_map]
    exact .inr (.inl ⟨r, hr, rfl⟩)
  · simp only [List.mem_toFinset, List.mem_cons, List.mem_append, List.mem_map]
    exact .inr (.inr ⟨a, ha, rfl⟩)

/-- a Server started when no lease is valid serves, and the rows are sound as before -/
theorem started {t : ℤ} (hs : Sound db) (hn : n.config = db.deployment) (ho : n.leaseOk = true)
    (hfresh : n.incarnationId ∉ db.nodes.map NodeRow.incarnationId) (hlate : ∀ r ∈ db.nodes, r.leaseUntil ≤ t) :
    registerNode n (fun _ => t) 30 db = .ok (db.registered n (t + 30)) ∧ Sound (db.registered n (t + 30)) ∧
      Serves (db.registered n (t + 30)) n t := by
  have hl : db.leased t = false := by
    simp only [Db.leased, List.any_eq_false, decide_eq_true_eq]
    intro r hr
    exact not_lt.2 (hlate r hr)
  have hok : registerNode n (fun _ => t) 30 db = .ok (db.registered n (t + 30)) :=
    registerNode_ok hs.valid hn.symm hl hfresh
  refine ⟨hok, ?_, serves_registered hn.symm ho (by omega)⟩
  obtain ⟨hv, -⟩ := registerNode_spec hok
  exact (sound_of_eq hs hv rfl rfl rfl rfl rfl).1

/-- by then no owner is valid: the owner's node is not the new one -/
theorem noValidOwner {t : ℤ} (hv : db.Valid) (hfresh : n.incarnationId ∉ db.nodes.map NodeRow.incarnationId)
    (hlate : ∀ r ∈ db.nodes, r.leaseUntil ≤ t) {o : OwnerRow} (ho : o ∈ db.owners) (leaseUntil : ℤ) :
    (db.registered n leaseUntil).ownerValid n o t = false := by
  have hlink := (hv.linked.2.2.2.2 o ho).2
  cases howner : o.owner with
  | none => simp [Db.ownerValid, howner]
  | some p =>
    have hp : p.1 ∈ db.nodes.map NodeRow.incarnationId := by simpa [howner] using hlink
    simp only [Db.ownerValid, howner, Option.any_some, List.any_eq_false, Bool.and_eq_true, decide_eq_true_eq]
    rintro r hr ⟨⟨⟨hid, -⟩, -⟩, hlt⟩
    rcases List.mem_cons.1 hr with rfl | hr
    · have hid' : n.incarnationId = p.1 := hid
      exact hfresh (hid' ▸ hp)
    · exact absurd hlt (not_lt.2 (hlate r hr))

/-- from everywhere else: start a Server when the leases and the attempt have expired, and ask it -/
theorem way_out {s : Sys} (hi : Inv hash s) {r : MachineRow} (hr : machineIn s.db.machines m = some r) (hns : ¬ Stuck s.db m)
    {incarnationId : Uuid} (hfresh : incarnationId ∉ s.db.nodes.map NodeRow.incarnationId) (t₀ : ℤ) :
    ∃ t, t₀ ≤ t ∧ ∃ path : List Op, (∀ o ∈ path, o.operator = true ∧ o.At t) ∧ Pending (run hash isEd25519 s path).db m := by
  obtain ⟨t, ht, hlate, hdead⟩ := exists_late s.db t₀
  have hs := hi.sound
  let n : Node := ⟨incarnationId, s.db.deployment, true⟩
  obtain ⟨hreg, hs', hserves⟩ := started (n := n) (t := t) hs rfl rfl hfresh hlate
  -- the second request, after the Server has registered
  have second : ∀ o : Op, o.operator = true → o.At t → Pending (step hash isEd25519 { s with db := s.db.registered n (t + 30) } o).db m →
      ∃ path : List Op, (∀ o ∈ path, o.operator = true ∧ o.At t) ∧ Pending (run hash isEd25519 s path).db m := by
    intro o ho hat hp
    refine ⟨[.registerNode n (fun _ => t) 30, o], ?_, ?_⟩
    · intro o' ho'
      rcases List.mem_cons.1 ho' with rfl | ho'
      · exact ⟨rfl, fun _ => rfl⟩
      · obtain rfl := List.mem_singleton.1 ho'
        exact ⟨ho, hat⟩
    · have hstep : step hash isEd25519 s (.registerNode n (fun _ => t) 30) = { s with db := s.db.registered n (t + 30) } := by
        simp only [step, hreg, committed]
      show Pending (run hash isEd25519 (step hash isEd25519 s (.registerNode n (fun _ => t) 30)) [o]).db m
      rw [hstep]
      exact hp
  refine ⟨t, ht, ?_⟩
  obtain ⟨⟨o, ho, horev, hon⟩, hphase⟩ := hs.shape m r hr
  cases hl : r.lifecycle <;> simp only [Phase, hl] at hphase
  · exact ⟨[], by simp, by simp [run, Pending, hr, hl]⟩
  · -- an attempt that has expired is recovered
    obtain ⟨-, ⟨a, ha, -, -⟩ | ⟨-, b, hb, -⟩⟩ := hphase
    · have hmem : a ∈ verifyingIn s.db.attempts m := by simp [ha]
      obtain ⟨db', hok, hp⟩ := @recoverExpiredAttempts_ok _ n (fun _ => t) m hs' hserves a ha
        (hdead a (mem_verifyingIn.1 hmem).1)
      refine second (.recoverExpiredAttempts n (fun _ => t) (some m)) rfl (fun _ => rfl) ?_
      simpa only [step, hok, committed, Pending] using hp
    · exact (hns ⟨r, hr, .inl ⟨hl, by simp [hb]⟩⟩).elim
  · -- an active Machine has no valid owner any more
    have hmax : r.routeRevision + 1 ≤ i64Max := by
      by_contra hlt
      exact hns ⟨r, hr, .inr ⟨hl, by omega⟩⟩
    have hmatch : ownerMatches (s.db.registered n (t + 30)) n (.noValidOwner r.routeRevision) o t = true := by
      simp [ownerMatches, noValidOwner (n := n) hs.valid hfresh hlate (mem_ownerIn ho).1]
    have hok := @commitActiveMachineTransition_ok _ n (fun _ => t) m hs' hserves .reEnroll (.noValidOwner r.routeRevision) r o hr hl rfl ho
      hmatch hmax
    refine second (.transition n (fun _ => t) m .reEnroll (.noValidOwner r.routeRevision)) rfl (fun _ => rfl) ?_
    simp only [step, hok, committed, Pending]
    rw [@machineIn_transitioned (s.db.registered n (t + 30)) m .reEnroll r hr hl]
    rfl
  · obtain ⟨db', hok, hp⟩ := @reEnrollDisabledMachine_ok _ n (fun _ => t) m hs'.valid hserves r hr hl
    refine second (.reEnrollDisabledMachine n (fun _ => t) m) rfl (fun _ => rfl) ?_
    simpa only [step, hok, committed, Pending] using hp

/-- **Where the operator has a way out.** In every state reached, a Machine can be brought to pending by requests and Servers
at some later time, without its Relay or target, if and only if it is not stuck: not in verification with its binding in force
(its activation committed, no tunnel has claimed it), and not active at the last revision. -/
theorem operator_way_out (hash : Text → Digest) (isEd25519 : Text → Bool) (config : Config) (credentialId : Uuid) (ops : List Op)
    (m : Uuid) (hm : (machineIn (run hash isEd25519 (initial config credentialId) ops).db.machines m).isSome = true)
    (hfresh : ∃ i, i ∉ (run hash isEd25519 (initial config credentialId) ops).db.nodes.map NodeRow.incarnationId) (t₀ : ℤ) :
    (∃ t, t₀ ≤ t ∧ ∃ path : List Op, (∀ o ∈ path, o.operator = true ∧ o.At t) ∧
      Pending (run hash isEd25519 (run hash isEd25519 (initial config credentialId) ops) path).db m) ↔
    ¬ Stuck (run hash isEd25519 (initial config credentialId) ops).db m := by
  have hi : Inv hash (run hash isEd25519 (initial config credentialId) ops) := run_machines_inv config credentialId ops
  constructor
  · rintro ⟨t, -, path, hpath, hp⟩ hstuck
    exact (stuck_run hi hstuck path fun o ho => (hpath o ho).1).not_pending hp
  · intro hns
    obtain ⟨r, hr⟩ := Option.isSome_iff_exists.1 hm
    obtain ⟨i, hi'⟩ := hfresh
    exact way_out hi hr hns hi' t₀

/-! ## A stranded Machine -/

def sampleConfig : Config := ⟨1, "build".toList, false, none⟩
def sampleNode : Node := ⟨7, sampleConfig, true⟩

/-- stands for SHA-256 on the one token of the run -/
def sampleHash (token : Text) : Digest := BitVec.ofNat 256 token.length

/-- a Server starts, a Machine is created and enrolls: its activation commits -/
def activatedOps : List Op :=
  [.registerNode sampleNode (fun _ => 0) 30,
   .createMachine sampleNode (fun _ => 1) ⟨"web".toList, none, "ops".toList⟩ 1 2 (List.replicate 32 0),
   .acceptToken sampleNode (fun _ => 2) (enrollmentToken (List.replicate 32 0)) 3,
   .activate sampleNode (fun _ => 3) ⟨1, 3, 1, "ops".toList, none⟩ 4 5 [1] "host".toList]

/-- a tunnel claims it -/
def claimedOps : List Op := activatedOps ++ [.claimOwner sampleNode (fun _ => 4) 1 6 1]

theorem operator_way_out_claimed :
    ∃ t, 5 ≤ t ∧ ∃ path : List Op, (∀ o ∈ path, o.operator = true ∧ o.At t) ∧
      Pending (run sampleHash (fun _ => true) (run sampleHash (fun _ => true) (initial sampleConfig 9) claimedOps) path).db 1 := by
  have hm : (machineIn (run sampleHash (fun _ => true) (initial sampleConfig 9) claimedOps).db.machines 1).map
      (fun r => (r.lifecycle, r.routeRevision)) = some (.active, 1) := by decide +kernel
  obtain ⟨r, hr, hl⟩ := Option.map_eq_some_iff.1 hm
  obtain ⟨hl, hrev⟩ := Prod.mk.inj hl
  refine (operator_way_out sampleHash (fun _ => true) sampleConfig 9 claimedOps 1 (by rw [hr]; rfl) ⟨8, by decide +kernel⟩ 5).2 ?_
  rintro ⟨x, hx, hcase⟩
  obtain rfl : r = x := Option.some.inj (hr.symm.trans hx)
  rcases hcase with ⟨h1, -⟩ | ⟨-, h2⟩
  · simp [h1] at hl
  · rw [hrev] at h2
    exact absurd h2 (by decide)

/-- the node dies before it claims the Machine that it has activated, and the Relay never comes back -/
theorem activated_unclaimed_stranded :
    (machineIn (run sampleHash (fun _ => true) (initial sampleConfig 9) activatedOps).db.machines 1).isSome = true ∧
    ¬ ∃ path : List Op, (∀ o ∈ path, o.operator = true) ∧
      Pending (run sampleHash (fun _ => true) (run sampleHash (fun _ => true) (initial sampleConfig 9) activatedOps) path).db 1 := by
  have hm : (machineIn (run sampleHash (fun _ => true) (initial sampleConfig 9) activatedOps).db.machines 1).map
      MachineRow.lifecycle = some .verifying := by decide +kernel
  have hb : (boundIn (run sampleHash (fun _ => true) (initial sampleConfig 9) activatedOps).db.bindings 1).length = 1 := by
    decide +kernel
  obtain ⟨r, hr, hl⟩ := Option.map_eq_some_iff.1 hm
  refine ⟨by rw [hr]; rfl, ?_⟩
  rintro ⟨path, hpath, hp⟩
  have hstuck : Stuck (run sampleHash (fun _ => true) (initial sampleConfig 9) activatedOps).db 1 :=
    ⟨r, hr, .inl ⟨hl, fun hnil => by rw [hnil] at hb; simp at hb⟩⟩
  exact (stuck_run (run_machines_inv sampleConfig 9 activatedOps) hstuck path hpath).not_pending hp

end OwlMux.Machines
