/-
Runs of the Deployment database: any nodes commit any transactions in any order. `activate` and `fail_attempt` are called with
what `accept_token` returned to the same node, everything else with any arguments.

- `run_machines_inv`: the rows are sound in every state reached, and every ticket describes its attempt;
- `lifecycle_invariant`: the lifecycle of every Machine, its tokens, and what never goes back;
- `lifecycle_edges`: what one more transaction does to a Machine.
-/
import Mathlib.Tactic
import OwlMux.Lib.Machine
import OwlMux.Machines.Lifecycle

namespace OwlMux.Machines

open OwlMux.Relay (Uuid Text RelayError RouteIdentity)
open OwlMux.Cluster (Config Lifecycle OwnerExpectation)
open OwlMux.Table

/-! ## Runs -/

/-- one committed transaction; `now` is its clock, the other arguments are those of the function -/
inductive Op where
  | createMachine (n : Node) (now : Clock) (input : CreateMachineInput) (machineId enrollmentId : Uuid) (random : List UInt8)
  | issueEnrollmentToken (n : Node) (now : Clock) (machineId enrollmentId : Uuid) (random : List UInt8)
  | cancelEnrollmentToken (n : Node) (now : Clock) (machineId : Uuid)
  | acceptToken (n : Node) (now : Clock) (token : Text) (attemptId : Uuid)
  | activate (n : Node) (now : Clock) (accepted : AcceptedEnrollment) (bindingId relayId : Uuid) (publicKey : List UInt8)
      (hostIdentity : Text)
  | failAttempt (n : Node) (now : Clock) (accepted : AcceptedEnrollment)
  | recoverExpiredAttempts (n : Node) (now : Clock) (machineId : Option Uuid)
  | claimOwner (n : Node) (now : Clock) (machineId connectionId : Uuid) (routeRevision : ℤ)
  | releaseOwner (n : Node) (now : Clock) (machineId connectionId : Uuid) (connectionEpoch : ℤ)
  | transition (n : Node) (now : Clock) (machineId : Uuid) (kind : Transition) (expected : OwnerExpectation)
  | reEnrollDisabledMachine (n : Node) (now : Clock) (machineId : Uuid)
  | rebindMachineCredential (n : Node) (now : Clock) (machineId credentialId : Uuid)
  | createCredential (n : Node) (now : Clock) (credentialId : Uuid) (nameKey : Text)
  | setDefaultCredential (n : Node) (now : Clock) (credentialId : Uuid)
  | resetDefaultCredential (n : Node) (now : Clock) (credentialId : Uuid) (nameKey : Text)
  | retireCredential (n : Node) (now : Clock) (credentialId : Uuid)
  | registerNode (n : Node) (now : Clock) (ttl : ℤ)
  | renewNode (n : Node) (now : Clock) (ttl : ℤ)
  | drainNode (n : Node) (now : Clock)
  | releaseNode (n : Node)
  | configure (config : Config) (now : Clock)

/-- the database, what `accept_token` returned to which node, and the tokens it accepted, newest first -/
structure Sys where
  db : Db
  tickets : List (Uuid × AcceptedEnrollment)
  accepted : List Text

/-- the rows after a transaction: an error changes nothing -/
def committed {ε : Type} (db : Db) : Except ε Db → Db
  | .ok db' => db'
  | .error _ => db

section
variable (hash : Text → Digest) (isEd25519 : Text → Bool)

def step (s : Sys) : Op → Sys
  | .createMachine n now input machineId enrollmentId random =>
    { s with db := committed s.db (createMachine hash n now input machineId enrollmentId random s.db) }
  | .issueEnrollmentToken n now m enrollmentId random =>
    { s with db := committed s.db (issueEnrollmentToken hash n now m enrollmentId random s.db) }
  | .cancelEnrollmentToken n now m => { s with db := committed s.db (cancelEnrollmentToken n now m s.db) }
  | .acceptToken n now token attemptId =>
    match acceptToken hash n now token attemptId s.db with
    | .ok (db, accepted) => ⟨db, (n.incarnationId, accepted) :: s.tickets, token :: s.accepted⟩
    | .error _ => s
  | .activate n now accepted bindingId relayId publicKey hostIdentity =>
    if (n.incarnationId, accepted) ∈ s.tickets then
      { s with db := committed s.db (activate isEd25519 n now accepted bindingId relayId publicKey hostIdentity s.db) }
    else s
  | .failAttempt n now accepted =>
    if (n.incarnationId, accepted) ∈ s.tickets then { s with db := committed s.db (failAttempt n now accepted s.db) } else s
  | .recoverExpiredAttempts n now m => { s with db := committed s.db (recoverExpiredAttempts n now m s.db) }
  | .claimOwner n now m connectionId revision =>
    { s with db := committed s.db ((claimOwner n now m connectionId revision s.db).map Prod.fst) }
  | .releaseOwner n now m connectionId epoch => { s with db := committed s.db (releaseOwner n now m connectionId epoch s.db) }
  | .transition n now m kind expected =>
    { s with db := committed s.db (commitActiveMachineTransition n now m kind expected s.db) }
  | .reEnrollDisabledMachine n now m => { s with db := committed s.db (reEnrollDisabledMachine n now m s.db) }
  | .rebindMachineCredential n now m credentialId =>
    { s with db := committed s.db (rebindMachineCredential n now m credentialId s.db) }
  | .createCredential n now id nameKey => { s with db := committed s.db (createCredential n now id nameKey s.db) }
  | .setDefaultCredential n now id => { s with db := committed s.db (setDefaultCredential n now id s.db) }
  | .resetDefaultCredential n now id nameKey => { s with db := committed s.db (resetDefaultCredential n now id nameKey s.db) }
  | .retireCredential n now id => { s with db := committed s.db (retireCredential n now id s.db) }
  | .registerNode n now ttl => { s with db := committed s.db (registerNode n now ttl s.db) }
  | .renewNode n now ttl => { s with db := committed s.db (renewNode n now ttl s.db) }
  | .drainNode n now => { s with db := committed s.db (drainNode n now s.db) }
  | .releaseNode n => { s with db := committed s.db (releaseNode n s.db) }
  | .configure config now => { s with db := committed s.db (configure config now s.db) }

def run (s : Sys) (ops : List Op) : Sys := Machine.run (step hash isEd25519) s ops

end

/-- a Deployment as `initialize_or_validate` makes it: one default credential -/
def initial (config : Config) (credentialId : Uuid) : Sys :=
  ⟨⟨config, credentialId, [⟨credentialId, "default".toList, true⟩], [], [], [], [], [], [],
    [⟨"ssh_credential", none, some credentialId, "create_default"⟩, ⟨"deployment", none, none, "initialize"⟩]⟩, [], []⟩

structure Inv (hash : Text → Digest) (s : Sys) : Prop where
  sound : Sound s.db
  tickets : ∀ t ∈ s.tickets, Known s.db t.2.attemptId t.2.machineId t.2.routeRevision
  consumed : ∀ token ∈ s.accepted, ∃ e ∈ s.db.enrollments, e.tokenDigest = hash token ∧ e.status = .consumed
  nodup : s.accepted.Nodup

variable {hash : Text → Digest} {isEd25519 : Text → Bool} {db db' : Db}

theorem inv_initial (config : Config) (credentialId : Uuid) : Inv hash (initial config credentialId) where
  sound := by
    refine ⟨⟨?_, ?_, ?_, ?_, ?_, ?_, ?_, ?_⟩, by simp [initial, machineIn]⟩ <;>
      simp [initial, CredentialsOk, MachinesOk, EnrollmentsOk, AttemptsOk, BindingsOk, OwnersOk, NodesOk, UniqueOn, Db.Linked,
        References]
  tickets := by simp [initial]
  consumed := by simp [initial]
  nodup := by simp [initial]

/-- a transaction that keeps the rows sound and grows them keeps everything -/
theorem Inv.commit {s : Sys} (h : Inv hash s) (hk : Sound db' ∧ Grows s.db db') : Inv hash { s with db := db' } := by
  refine ⟨hk.1, fun t ht => (h.tickets t ht).grows hk.2, fun token ht => ?_, h.nodup⟩
  obtain ⟨e, he, hd, hc⟩ := h.consumed token ht
  obtain ⟨e', he', hd', hc'⟩ := hk.2.enrollments e he
  exact ⟨e', he', hd'.trans hd, hc' hc⟩

theorem committed_kept {ε : Type} {r : Except ε Db} (hs : Sound db) (h : ∀ db', r = .ok db' → Sound db' ∧ Grows db db') :
    Sound (committed db r) ∧ Grows db (committed db r) := by
  cases hr : r with
  | ok db' => exact h db' hr
  | error e => exact ⟨hs, Grows.refl db⟩

/-- every step keeps the invariant, and grows the rows -/
theorem step_inv {s : Sys} (h : Inv hash s) (o : Op) :
    Inv hash (step hash isEd25519 s o) ∧ Grows s.db (step hash isEd25519 s o).db := by
  have hs := h.sound
  have plain : ∀ {db' : Db}, Sound db' ∧ Grows s.db db' → Inv hash { s with db := db' } ∧ Grows s.db db' :=
    fun hk => ⟨h.commit hk, hk.2⟩
  have same : ∀ {ε : Type} {r : Except ε Db}, (∀ db', r = .ok db' → db'.Valid ∧ db'.machines = s.db.machines ∧
      db'.owners = s.db.owners ∧ db'.enrollments = s.db.enrollments ∧ db'.attempts = s.db.attempts ∧
      db'.bindings = s.db.bindings) → Sound (committed s.db r) ∧ Grows s.db (committed s.db r) := by
    intro ε r hr
    refine committed_kept hs fun db' hdb => ?_
    obtain ⟨hv, h1, h2, h3, h4, h5⟩ := hr db' hdb
    exact sound_of_eq hs hv h1 h2 h3 h4 h5
  cases o with
  | createMachine => exact plain (committed_kept hs fun _ => createMachine_sound hs)
  | issueEnrollmentToken => exact plain (committed_kept hs fun _ => issueEnrollmentToken_sound hs)
  | cancelEnrollmentToken => exact plain (committed_kept hs fun _ => cancelEnrollmentToken_sound hs)
  | acceptToken n now token attemptId =>
    simp only [step]
    cases ha : acceptToken hash n now token attemptId s.db with
    | error e => exact ⟨h, Grows.refl _⟩
    | ok r =>
      obtain ⟨db', accepted⟩ := r
      obtain ⟨hsound, hgrow⟩ := acceptToken_sound hs ha
      obtain ⟨e, r, hsel, -, -, rfl, rfl⟩ := acceptToken_spec ha
      obtain ⟨⟨he, hed, hei, -⟩, -⟩ := acceptable_eq_some hsel
      have hkept := h.commit ⟨hsound, hgrow⟩
      refine ⟨⟨hsound, ?_, ?_, ?_⟩, hgrow⟩
      · intro t ht
        rcases List.mem_cons.1 ht with rfl | ht
        · exact ⟨_, List.mem_cons_self, rfl, rfl, rfl⟩
        · exact hkept.tickets t ht
      · intro tok ht
        rcases List.mem_cons.1 ht with rfl | ht
        · exact ⟨{ e with status := .consumed }, mem_update.2 (.inl ⟨e, he, by simp, rfl⟩), hed, rfl⟩
        · exact hkept.consumed tok ht
      · -- a token accepted before has a consumed row, and its digest only one row
        refine List.nodup_cons.2 ⟨fun hmem => ?_, h.nodup⟩
        obtain ⟨e', he', hd', hc'⟩ := h.consumed token hmem
        have : e' = e := UniqueOn.eq hs.valid.enrollments.2.1 he' he rfl rfl (hd'.trans hed.symm)
        rw [this, hei] at hc'
        simp at hc'
  | activate =>
    simp only [step]
    split_ifs with ht
    · exact plain (committed_kept hs fun _ => activate_sound hs)
    · exact ⟨h, Grows.refl _⟩
  | failAttempt =>
    simp only [step]
    split_ifs with ht
    · exact plain (committed_kept hs fun _ => failAttempt_sound hs (h.tickets _ ht))
    · exact ⟨h, Grows.refl _⟩
  | recoverExpiredAttempts =>
    exact plain (committed_kept hs fun _ hdb => (recoverExpiredAttempts_sound hs hdb).imp_right Ends.grows)
  | claimOwner n now m connectionId revision =>
    refine plain (committed_kept hs fun db' hdb => ?_)
    cases hc : claimOwner n now m connectionId revision s.db with
    | error e => simp [hc, Except.map] at hdb
    | ok p =>
      obtain rfl : p.1 = db' := by simpa [hc, Except.map] using hdb
      exact claimOwner_sound hs hc
  | releaseOwner => exact plain (committed_kept hs fun _ => releaseOwner_sound hs)
  | transition => exact plain (committed_kept hs fun _ => transition_sound hs)
  | reEnrollDisabledMachine => exact plain (committed_kept hs fun _ => reEnrollDisabledMachine_sound hs)
  | rebindMachineCredential => exact plain (committed_kept hs fun _ => rebindMachineCredential_sound hs)
  | createCredential =>
    refine plain (same fun db' hdb => ?_)
    obtain ⟨hv, rfl⟩ := createCredential_spec hdb
    exact ⟨hv, rfl, rfl, rfl, rfl, rfl⟩
  | setDefaultCredential =>
    refine plain (same fun db' hdb => ?_)
    obtain ⟨-, hv, rfl⟩ := setDefaultCredential_spec hdb
    exact ⟨hv, rfl, rfl, rfl, rfl, rfl⟩
  | resetDefaultCredential =>
    refine plain (same fun db' hdb => ?_)
    obtain ⟨hv, rfl⟩ := resetDefaultCredential_spec hdb
    exact ⟨hv, rfl, rfl, rfl, rfl, rfl⟩
  | retireCredential =>
    refine plain (same fun db' hdb => ?_)
    obtain ⟨hv, rfl⟩ := retireCredential_spec hdb
    exact ⟨hv, rfl, rfl, rfl, rfl, rfl⟩
  | registerNode =>
    refine plain (same fun db' hdb => ?_)
    obtain ⟨hv, rfl⟩ := registerNode_spec hdb
    exact ⟨hv, rfl, rfl, rfl, rfl, rfl⟩
  | renewNode =>
    refine plain (same fun db' hdb => ?_)
    obtain ⟨hv, rfl⟩ := renewNode_spec hdb
    exact ⟨hv, rfl, rfl, rfl, rfl, rfl⟩
  | drainNode =>
    refine plain (same fun db' hdb => ?_)
    obtain ⟨hv, rfl⟩ := drainNode_spec hdb
    exact ⟨hv, rfl, rfl, rfl, rfl, rfl⟩
  | releaseNode => exact plain (committed_kept hs fun _ => releaseNode_sound hs)
  | configure =>
    refine plain (same fun db' hdb => ?_)
    obtain ⟨-, -, rfl⟩ := configure_spec hdb
    exact ⟨⟨hs.valid.1, hs.valid.2, hs.valid.3, hs.valid.4, hs.valid.5, hs.valid.6, hs.valid.7, hs.valid.8⟩,
      rfl, rfl, rfl, rfl, rfl⟩

theorem run_machines_inv (config : Config) (credentialId : Uuid) (ops : List Op) :
    Inv hash (run hash isEd25519 (initial config credentialId) ops) :=
  Machine.run_inv (I := Inv hash) (fun _ o h => (step_inv h o).1) _ ops (inv_initial config credentialId)

/-! ## What holds in every run -/

/-- what is kept from one state of a run to any later one -/
structure Later (db db' : Db) : Prop where
  machines : ∀ m r, machineIn db.machines m = some r → ∃ r', machineIn db'.machines m = some r' ∧
    r.routeRevision ≤ r'.routeRevision ∧ ∀ host, r.hostIdentity = some host → r'.hostIdentity = some host
  owners : ∀ m o, ownerIn db.owners m = some o → ∃ o', ownerIn db'.owners m = some o' ∧ o.connectionEpoch ≤ o'.connectionEpoch

theorem Later.refl (db : Db) : Later db db := ⟨fun _ r h => ⟨r, h, le_rfl, fun _ => id⟩, fun _ o h => ⟨o, h, le_rfl⟩⟩

theorem Later.trans {db₁ db₂ db₃ : Db} (h : Later db₁ db₂) (h' : Later db₂ db₃) : Later db₁ db₃ := by
  refine ⟨fun m r hr => ?_, fun m o ho => ?_⟩
  · obtain ⟨r₂, hr₂, hle, hh⟩ := h.machines m r hr
    obtain ⟨r₃, hr₃, hle', hh'⟩ := h'.machines m r₂ hr₂
    exact ⟨r₃, hr₃, hle.trans hle', fun host e => hh' host (hh host e)⟩
  · obtain ⟨o₂, ho₂, hle⟩ := h.owners m o ho
    obtain ⟨o₃, ho₃, hle'⟩ := h'.owners m o₂ ho₂
    exact ⟨o₃, ho₃, hle.trans hle'⟩

theorem Edge.le {r r' : MachineRow} (h : Edge r r') : r.routeRevision ≤ r'.routeRevision := by
  rcases h with ⟨-, h⟩ | ⟨-, -, h⟩ | ⟨-, -, h⟩ | ⟨-, -, h⟩ | ⟨-, -, h⟩ <;> omega

theorem Grows.later (h : Grows db db') : Later db db' := by
  refine ⟨fun m r hr => ?_, h.owners⟩
  obtain ⟨r', hr', hmove⟩ := h.machines m r hr
  refine ⟨r', hr', hmove.edge.le, fun host e => ?_⟩
  rcases hmove.host with h' | ⟨h', -⟩
  · rw [h', e]
  · rw [e] at h'
    simp at h'

theorem run_later {s : Sys} (h : Inv hash s) (ops : List Op) : Later s.db (run hash isEd25519 s ops).db := by
  induction ops generalizing s with
  | nil => exact Later.refl _
  | cons o ops ih =>
    obtain ⟨h', hg⟩ : Inv hash (step hash isEd25519 s o) ∧ Grows s.db (step hash isEd25519 s o).db := step_inv h o
    exact hg.later.trans (ih h')

/-- what the lifecycle of a Machine says about its rows -/
structure LifecycleOk (db : Db) (m : Uuid) (r : MachineRow) : Prop where
  owner : ∃ o, ownerIn db.owners m = some o ∧ o.routeRevision = r.routeRevision ∧
    (r.lifecycle = .pending ∨ r.lifecycle = .disabled → o.owner = none)
  idle : r.lifecycle = .pending ∨ r.lifecycle = .disabled → boundIn db.bindings m = [] ∧ verifyingIn db.attempts m = []
  verifying : r.lifecycle = .verifying →
    ((∃ a, verifyingIn db.attempts m = [a] ∧ a.routeRevision = r.routeRevision) ∧ boundIn db.bindings m = []) ∨
    (verifyingIn db.attempts m = [] ∧ ∃ b, boundIn db.bindings m = [b] ∧ b.routeRevision = r.routeRevision)
  active : r.lifecycle = .active →
    (∃ b, boundIn db.bindings m = [b] ∧ b.routeRevision = r.routeRevision) ∧ r.hostIdentity.isSome = true

theorem Shape.lifecycleOk {m : Uuid} {r : MachineRow} (h : Shape db m r) : LifecycleOk db m r := by
  obtain ⟨⟨o, ho, hrev, hon⟩, hphase⟩ := h
  cases hl : r.lifecycle <;> simp only [Phase, hl] at hphase
  · exact ⟨⟨o, ho, hrev, fun _ => hon (by simp [hl])⟩, fun _ => ⟨hphase.2, hphase.1⟩, by simp [hl], by simp [hl]⟩
  · refine ⟨⟨o, ho, hrev, by simp [hl]⟩, by simp [hl], fun _ => ?_, by simp [hl]⟩
    rcases hphase.2 with ⟨a, ha, harev, hb⟩ | ⟨hv, b, hb, hbrev, -⟩
    · exact .inl ⟨⟨a, ha, harev⟩, hb⟩
    · exact .inr ⟨hv, b, hb, hbrev⟩
  · obtain ⟨-, -, b, hb, hbrev, hh⟩ := hphase
    exact ⟨⟨o, ho, hrev, by simp [hl]⟩, by simp [hl], by simp [hl], fun _ => ⟨⟨b, hb, hbrev⟩, hh⟩⟩
  · exact ⟨⟨o, ho, hrev, fun _ => hon (by simp [hl])⟩, fun _ => ⟨hphase.2.2, hphase.2.1⟩, by simp [hl], by simp [hl]⟩

/-- a token that can be accepted belongs to a pending Machine -/
theorem pending_of_issued (hs : Sound db) {e : EnrollmentRow} (he : e ∈ db.enrollments) (hi : e.status = .issued) :
    ∃ r, machineIn db.machines e.machineId = some r ∧ r.lifecycle = .pending := by
  obtain ⟨r, hr, hid⟩ := List.mem_map.1 (hs.valid.linked.2.1 e he)
  have hrow := machineIn_eq_some hs.valid.machines hr hid
  have hmem : e ∈ issuedIn db.enrollments e.machineId := mem_issuedIn.2 ⟨he, hi, rfl⟩
  obtain ⟨-, hphase⟩ := hs.shape _ r hrow
  refine ⟨r, hrow, ?_⟩
  cases hl : r.lifecycle <;> simp only [Phase, hl] at hphase
  · rfl
  · simp [hphase.1] at hmem
  · simp [hphase.1] at hmem
  · simp [hphase.1] at hmem

/-- **Durable lifecycle.** After any sequence of committed transactions the rows of every Machine agree with its lifecycle,
tokens that can be accepted belong to pending Machines, and no token has been accepted twice; from any state of the run to
any later one revisions and epochs do not decrease and a host key stays what it is. -/
theorem lifecycle_invariant (hash : Text → Digest) (isEd25519 : Text → Bool) (config : Config) (credentialId : Uuid)
    (ops : List Op) :
    (∀ m r, machineIn (run hash isEd25519 (initial config credentialId) ops).db.machines m = some r →
      LifecycleOk (run hash isEd25519 (initial config credentialId) ops).db m r) ∧
    (∀ e ∈ (run hash isEd25519 (initial config credentialId) ops).db.enrollments, e.status = .issued →
      ∃ r, machineIn (run hash isEd25519 (initial config credentialId) ops).db.machines e.machineId = some r ∧
        r.lifecycle = .pending) ∧
    (run hash isEd25519 (initial config credentialId) ops).accepted.Nodup ∧
    ∀ pre, pre <+: ops → Later (run hash isEd25519 (initial config credentialId) pre).db
      (run hash isEd25519 (initial config credentialId) ops).db := by
  have hinv : Inv hash (run hash isEd25519 (initial config credentialId) ops) := run_machines_inv config credentialId ops
  refine ⟨fun m r hr => (hinv.sound.shape m r hr).lifecycleOk, fun e => pending_of_issued hinv.sound, hinv.nodup, ?_⟩
  rintro pre ⟨post, rfl⟩
  have happ : run hash isEd25519 (initial config credentialId) (pre ++ post) =
      run hash isEd25519 (run hash isEd25519 (initial config credentialId) pre) post := Machine.run_append _ pre post
  rw [happ]
  exact run_later (run_machines_inv config credentialId pre) post

/-- **Edges of the lifecycle.** In every state of every run the constraints of the schema hold, and the next transaction, whatever it
is, keeps every Machine and moves it along one edge of the lifecycle or leaves it, with its revision counting the departures from
active and its host key pinned only while it verifies. -/
theorem lifecycle_edges (hash : Text → Digest) (isEd25519 : Text → Bool) (config : Config) (credentialId : Uuid) (ops : List Op)
    (o : Op) :
    (run hash isEd25519 (initial config credentialId) ops).db.Valid ∧
    ∀ m r, machineIn (run hash isEd25519 (initial config credentialId) ops).db.machines m = some r →
      ∃ r', machineIn (run hash isEd25519 (initial config credentialId) (ops ++ [o])).db.machines m = some r' ∧ Move r r' := by
  have hinv : Inv hash (run hash isEd25519 (initial config credentialId) ops) := run_machines_inv config credentialId ops
  have hrun : run hash isEd25519 (initial config credentialId) (ops ++ [o]) =
      step hash isEd25519 (run hash isEd25519 (initial config credentialId) ops) o := Machine.run_snoc _ ops o
  rw [hrun]
  exact ⟨hinv.sound.valid, (step_inv hinv o).2.machines⟩

end OwlMux.Machines
