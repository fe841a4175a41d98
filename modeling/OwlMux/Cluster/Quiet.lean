/-
What is known of owners, tunnels and the open transaction in every state of the fleet, and the steps that leave it alone.

A tunnel holds its Machine from the commit of its claim until its dispatch is closed. If its node is not dead, the Machine's
row names it: node, connection, epoch and revision. A row changes only by the commit of the one open transaction, and the
statements of each have established that nobody alive holds the Machine any more: the former owner is dead (a claim, a
transition without owner), or its dispatch is closed (a release, a transition of an exact owner).

Most steps are `Quiet`: they write no owner or revision, grant nothing and reopen nothing. Quiet steps compose, and every
primitive update is one of them.

Results:
- `Inv.quiet`: a quiet step keeps the invariant.
-/
import Mathlib.Tactic
import OwlMux.Deployment.Expiry
import OwlMux.Cluster.Fleet

namespace OwlMux.Cluster

open OwlMux.Relay (Uuid Text RouteIdentity)

/-! ## Tunnels -/

/-- the claim has been committed; its epoch is the tunnel's for ever -/
def Tunnel.Granted (t : Tunnel) : Prop := t.handle.isSome = true ∨ t.pc = .claiming .committed

/-- the claim has been committed and dispatch is not closed -/
def Tunnel.Holding (t : Tunnel) : Prop := t.pc = .claiming .committed ∨ t.handle.any Handle.dispatchOpen = true

/-- the handle does not exist yet -/
def Pc.early : Pc → Bool
  | .absent | .reserving | .claiming _ => true
  | _ => false

/-- dispatch has been closed -/
def Pc.shut : Pc → Bool
  | .cleaning | .releasing .. | .cleanedUp _ | .unregistering => true
  | _ => false

/-- the handle exists -/
def Pc.late : Pc → Bool
  | .installing | .running | .closing _ => true
  | pc => pc.shut

/-- what a claim writes for the tunnel -/
def Tunnel.claim (t : Tunnel) : Effect := .claim t.machine t.epoch t.node t.connection t.revision

structure Tunnel.Ok (t : Tunnel) : Prop where
  early : t.pc.early = true → t.handle = none
  late : t.pc.late = true → t.handle.isSome = true
  route : ∀ h, t.handle = some h → h.route = ⟨t.revision, t.epoch, t.connection⟩
  shut : t.pc.shut = true → t.handle.any Handle.dispatchOpen = false

theorem Tunnel.Holding.granted {t : Tunnel} (h : t.Holding) : t.Granted := by
  rcases h with h | h
  · exact Or.inr h
  · cases ht : t.handle with
    | none => simp [ht] at h
    | some => exact Or.inl (by rw [ht]; rfl)

/-- what a quiet step does to a tunnel -/
structure Keeps (t t' : Tunnel) : Prop where
  ok : t'.Ok
  fixed : t.pc ≠ .absent → t'.node = t.node ∧ t'.machine = t.machine ∧ t'.connection = t.connection ∧
    t'.revision = t.revision ∧ t'.pc ≠ .absent
  handle : t.handle.isSome = true → t'.handle.isSome = true
  granted : t'.Granted → t.Granted
  epoch : t'.Granted → t'.epoch = t.epoch
  holding : t'.Holding → t.Holding

theorem Keeps.refl {t : Tunnel} (h : t.Ok) : Keeps t t :=
  ⟨h, fun hne => ⟨rfl, rfl, rfl, rfl, hne⟩, fun h => h, fun h => h, fun _ => rfl, fun h => h⟩

theorem Tunnel.Granted.present {t : Tunnel} (hok : t.Ok) (h : t.Granted) : t.pc ≠ .absent := by
  intro hpc
  rcases h with h | h
  · rw [hok.early (by rw [hpc]; rfl)] at h; cases h
  · rw [hpc] at h; cases h

theorem Keeps.trans {t t' t'' : Tunnel} (h : Keeps t t') (h' : Keeps t' t'') : Keeps t t'' := by
  refine ⟨h'.ok, fun hne => ?_, fun hs => h'.handle (h.handle hs), fun hg => h.granted (h'.granted hg), fun hg => ?_,
    fun hh => h.holding (h'.holding hh)⟩
  · obtain ⟨h1, h2, h3, h4, h5⟩ := h.fixed hne
    obtain ⟨k1, k2, k3, k4, k5⟩ := h'.fixed h5
    exact ⟨k1.trans h1, k2.trans h2, k3.trans h3, k4.trans h4, k5⟩
  · rw [h'.epoch hg, h.epoch (h'.granted hg)]

/-- a tunnel of the Machine has been granted this epoch, and its dispatch is closed -/
def Closed (tun : ℕ → Tunnel) (m : Uuid) (epoch : ℤ) : Prop :=
  ∃ k, (tun k).handle.isSome = true ∧ ¬ (tun k).Holding ∧ (tun k).machine = m ∧ (tun k).epoch = epoch

theorem Keeps.granted_fixed {t t' : Tunnel} (h : Keeps t t') (hok : t.Ok) (hs : t.handle.isSome = true) :
    t'.handle.isSome = true ∧ t'.node = t.node ∧ t'.machine = t.machine ∧ t'.epoch = t.epoch := by
  obtain ⟨h1, h2, -⟩ := h.fixed (Tunnel.Granted.present hok (Or.inl hs))
  exact ⟨h.handle hs, h1, h2, h.epoch (Or.inl (h.handle hs))⟩

theorem Closed.keeps {tun tun' : ℕ → Tunnel} (h : ∀ i, Keeps (tun i) (tun' i)) (hok : ∀ i, (tun i).Ok) {m : Uuid} {epoch : ℤ}
    (hc : Closed tun m epoch) : Closed tun' m epoch := by
  obtain ⟨k, h1, h2, h3, h4⟩ := hc
  obtain ⟨k1, -, k3, k4⟩ := (h k).granted_fixed (hok k) h1
  exact ⟨k, k1, fun hh => h2 ((h k).holding hh), k3.trans h3, k4.trans h4⟩

/-! ## Transitions -/

/-- `resolve` has not returned -/
def CoPc.early : CoPc → Bool
  | .absent | .resolving | .resolvingNone => true
  | _ => false

/-- the guard's route has been resolved -/
def DestPc.resolved : DestPc → Bool
  | .accepted | .beginning | .waiting | .finishing => true
  | _ => false

/-- the guard has taken its handle out of the registry -/
def GuardPc.active : GuardPc → Bool
  | .idle | .done => false
  | _ => true

/-- and has closed its dispatch -/
def GuardPc.shut : GuardPc → Bool
  | .cleaning | .prepared | .releasing _ | .finishing => true
  | _ => false

/-- what the parties of a transition know of the tunnel it is about -/
structure TransOk (tun : ℕ → Tunnel) (t : Transition) : Prop where
  early : t.pc.early = true → t.dest = .idle ∧ t.guard.pc = .idle ∧ t.ready = false
  /-- a coordinator that has an owner elsewhere holds no guard itself -/
  remote : t.pc = .preparing → t.dest = .idle → t.guard.pc = .idle
  unbegun : t.dest = .validated ∨ t.dest = .accepted → t.guard.pc = .idle
  route : t.dest.resolved = true ∨ t.guard.pc.active = true → t.guard.route.connectionEpoch = t.route.connectionEpoch
  active : t.guard.pc.active = true → (tun t.guard.tunnel).handle.isSome = true ∧
    (tun t.guard.tunnel).node = t.owner ∧ (tun t.guard.tunnel).machine = t.machine ∧
    (tun t.guard.tunnel).epoch = t.guard.route.connectionEpoch
  shut : t.guard.pc.shut = true → ¬ (tun t.guard.tunnel).Holding
  ready : t.ready = true → Closed tun t.machine t.route.connectionEpoch
  committing : ∀ n route p, t.pc = .committing (.exact n route) p → Closed tun t.machine route.connectionEpoch

theorem transOk_init (tun : ℕ → Tunnel) : TransOk tun Transition.init := by
  constructor <;> simp [Transition.init, Guard.init, DestPc.resolved, GuardPc.active, GuardPc.shut]

theorem TransOk.keeps {tun tun' : ℕ → Tunnel} (h : ∀ i, Keeps (tun i) (tun' i)) (hok : ∀ i, (tun i).Ok) {t : Transition}
    (ht : TransOk tun t) : TransOk tun' t := by
  refine ⟨ht.early, ht.remote, ht.unbegun, ht.route, fun ha => ?_, fun hs hh => ht.shut hs ((h _).holding hh),
    fun hr => (ht.ready hr).keeps h hok, fun n route p hp => (ht.committing n route p hp).keeps h hok⟩
  obtain ⟨h1, h2, h3, h4⟩ := ht.active ha
  obtain ⟨k1, k2, k3, k4⟩ := (h t.guard.tunnel).granted_fixed (hok _) h1
  exact ⟨k1, k2.trans h2, k3.trans h3, k4.trans h4⟩

/-- the closed tunnel of a guard -/
theorem TransOk.closed {tun : ℕ → Tunnel} {t : Transition} (ht : TransOk tun t) (ha : t.guard.pc.active = true)
    (hs : t.guard.pc.shut = true) :
    Closed tun t.machine t.guard.route.connectionEpoch ∧ Closed tun t.machine t.route.connectionEpoch := by
  obtain ⟨h1, -, h3, h4⟩ := ht.active ha
  have hc : Closed tun t.machine t.guard.route.connectionEpoch := ⟨_, h1, ht.shut hs, h3, h4⟩
  exact ⟨hc, ht.route (Or.inr ha) ▸ hc⟩

/-! ## The invariant -/

variable (P : Params)

/-- no check of the incarnation will ever succeed -/
def St.DeadNode (s : St) (n : Uuid) : Prop := Lease.Dead (P.cfg n) (s.node n).lease

/-- nobody alive holds the Machine -/
def St.NoLive (s : St) (m : Uuid) : Prop := ∀ i, (s.tun i).Holding → (s.tun i).machine = m → s.DeadNode P (s.tun i).node

/-- an incarnation that has validated itself: it has a row, has had a deadline and, if alive, the deployment's configuration -/
structure St.Known (s : St) (n : Uuid) : Prop where
  booted : n ∈ s.booted
  released : (s.node n).released = false
  row : (s.node n).lease.row.isSome = true
  deadline : (s.node n).lease.hardDeadlineNs ≠ 0
  config : ¬ s.DeadNode P n → (s.node n).config = s.db.deployment

/-- what the statements of a transaction have established -/
def EffectOk (s : St) : Effect → Prop
  | .claim m epoch n _ revision =>
    (∃ row, s.db.machine m = some row ∧ row.owners.connectionEpoch < epoch ∧ row.owners.routeRevision = revision) ∧
      s.NoLive P m ∧ s.Known P n
  | .release m => s.NoLive P m
  | .transition m _ revision => s.NoLive P m ∧ ∃ row, s.db.machine m = some row ∧ row.owners.routeRevision = revision
  | .configure _ => ∀ m row n c, s.db.machine m = some row → row.owners.owner = some (n, c) → s.DeadNode P n
  | .deleteNode n => ∀ m row n' c, s.db.machine m = some row → row.owners.owner = some (n', c) → n' ≠ n

/-- the open transaction: validated, or executed -/
def TxnOk (s : St) (x : Option Client) (n : Uuid) : Option Effect → Prop
  | none => s.Known P n ∧ (s.node n).config = s.db.deployment ∧
      ∀ i, x = some (.tunnel i) → (s.tun i).pc ≠ .absent ∧ (s.tun i).node = n
  | some e => EffectOk P s e ∧ ∀ i, x = some (.tunnel i) → (s.tun i).pc = .claiming .executed → e = (s.tun i).claim

structure Inv (s : St) : Prop where
  reached : ∀ n, Lease.Reached (P.cfg n) (s.node n).lease
  now : ∀ n n', (s.node n).lease.now = (s.node n').lease.now
  tunnel : ∀ i, (s.tun i).Ok
  /-- the row names the tunnel that holds the Machine -/
  held : ∀ i, (s.tun i).Holding → ¬ s.DeadNode P (s.tun i).node → ∃ row, s.db.machine (s.tun i).machine = some row ∧
    row.owners = ⟨(s.tun i).epoch, some ((s.tun i).node, (s.tun i).connection), (s.tun i).revision⟩
  epoch : ∀ i, (s.tun i).Granted → ∃ row, s.db.machine (s.tun i).machine = some row ∧
    (s.tun i).epoch ≤ row.owners.connectionEpoch
  unique : ∀ i j, (s.tun i).Granted → (s.tun j).Granted → (s.tun i).machine = (s.tun j).machine →
    (s.tun i).epoch = (s.tun j).epoch → i = j
  owner : ∀ m row n c, s.db.machine m = some row → row.owners.owner = some (n, c) → s.Known P n
  listed : ∀ m row, s.db.machine m = some row → m ∈ s.db.machines
  /-- the registry holds handles of its own node -/
  registry : ∀ n m k, (m, k) ∈ (s.node n).tunnels → (s.tun k).handle.isSome = true ∧ (s.tun k).node = n ∧ (s.tun k).machine = m
  trans : ∀ j, TransOk s.tun (s.trans j)
  lock : ∀ x n e, s.lock = some (.txn x n e) → TxnOk P s x n e

theorem inv_init (config : Config) : Inv P (init config) := by
  have hok : Tunnel.init.Ok := ⟨fun _ => rfl, by simp [Tunnel.init, Pc.late, Pc.shut], by simp [Tunnel.init], by simp [Tunnel.init]⟩
  have hng : ¬ Tunnel.init.Granted := by simp [Tunnel.Granted, Tunnel.init]
  refine ⟨fun _ => Lease.reached_init, fun _ _ => rfl, fun _ => hok, fun i hh => ?_, fun i hg => (hng hg).elim,
    fun i j hg => (hng hg).elim, ?_, ?_, ?_, fun _ => transOk_init _, ?_⟩
  · exact (hng hh.granted).elim
  · simp [init]
  · simp [init]
  · simp [init, Node.init]
  · simp [init]

/-! ## Quiet steps -/

/-- the lease of an incarnation has made some steps -/
def LeaseMoves (s s' : St) : Prop :=
  ∃ d, ∀ n, (s'.node n).lease.now = (s.node n).lease.now + d ∧
    ∃ ops, (s'.node n).lease = Lease.run (P.cfg n) (s.node n).lease ops

/-- no owner, no revision and no epoch is written -/
structure SameOwners (db db' : Db) : Prop where
  deployment : db'.deployment = db.deployment
  old : ∀ m row, db.machine m = some row → ∃ row', db'.machine m = some row' ∧ row'.owners = row.owners ∧
    row'.routeRevision = row.routeRevision
  new : ∀ m row', db'.machine m = some row' → m ∈ db'.machines ∧
    ((∃ row, db.machine m = some row ∧ row'.owners = row.owners) ∨ row'.owners.owner = none)

structure Quiet (s s' : St) : Prop where
  db : SameOwners s.db s'.db
  booted : ∀ n ∈ s.booted, n ∈ s'.booted ∧ (s'.node n).config = (s.node n).config ∧ (s'.node n).released = (s.node n).released
  lease : LeaseMoves P s s'
  tun : ∀ i, Keeps (s.tun i) (s'.tun i)
  registry : ∀ n m k, (m, k) ∈ (s'.node n).tunnels → (m, k) ∈ (s.node n).tunnels ∨
    (s'.tun k).handle.isSome = true ∧ (s'.tun k).node = n ∧ (s'.tun k).machine = m
  transitions : ∀ j, s'.trans j = s.trans j ∨ TransOk s'.tun (s'.trans j)
  executed : ∀ i n e, s'.lock = some (.txn (some (.tunnel i)) n (some e)) → (s'.tun i).pc = .claiming .executed →
    s'.tun i = s.tun i
  /-- the open transaction stays, is disowned, or has only been validated -/
  lock : ∀ x n e, s'.lock = some (.txn x n e) → (∃ x', s.lock = some (.txn x' n e) ∧ (x = x' ∨ x = none)) ∨
    e = none ∧ TxnOk P s' x n none

variable {P} {s s' s'' : St}

theorem SameOwners.refl (hl : ∀ m row, s.db.machine m = some row → m ∈ s.db.machines) : SameOwners s.db s.db :=
  ⟨rfl, fun _ row h => ⟨row, h, rfl, rfl⟩, fun m row h => ⟨hl m row h, Or.inl ⟨row, h, rfl⟩⟩⟩

theorem SameOwners.trans {a b c : Db} (h : SameOwners a b) (h' : SameOwners b c) : SameOwners a c := by
  refine ⟨h'.deployment.trans h.deployment, fun m row hr => ?_, fun m row hr => ?_⟩
  · obtain ⟨r1, h1, h2, h3⟩ := h.old m row hr
    obtain ⟨r2, k1, k2, k3⟩ := h'.old m r1 h1
    exact ⟨r2, k1, k2.trans h2, k3.trans h3⟩
  · obtain ⟨hm, ⟨r1, h1, h2⟩ | h1⟩ := h'.new m row hr
    · refine ⟨hm, ?_⟩
      rcases (h.new m r1 h1).2 with ⟨r2, k1, k2⟩ | k1
      · exact Or.inl ⟨r2, k1, h2.trans k2⟩
      · exact Or.inr (by rw [h2]; exact k1)
    · exact ⟨hm, Or.inr h1⟩

theorem LeaseMoves.refl (s : St) : LeaseMoves P s s := ⟨0, fun _ => ⟨rfl, [], rfl⟩⟩

theorem LeaseMoves.trans (h : LeaseMoves P s s') (h' : LeaseMoves P s' s'') : LeaseMoves P s s'' := by
  obtain ⟨d, h⟩ := h
  obtain ⟨d', h'⟩ := h'
  refine ⟨d + d', fun n => ?_⟩
  obtain ⟨h1, a, h2⟩ := h n
  obtain ⟨k1, b, k2⟩ := h' n
  refine ⟨by rw [k1, h1, Nat.add_assoc], a ++ b, ?_⟩
  rw [k2, h2]
  exact (Machine.run_append _ a b).symm

theorem LeaseMoves.dead (h : LeaseMoves P s s') {n : Uuid} (hd : s.DeadNode P n) : s'.DeadNode P n := by
  obtain ⟨d, h⟩ := h
  obtain ⟨-, ops, h2⟩ := h n
  unfold St.DeadNode
  rw [h2]
  exact Machine.run_inv (I := Lease.Dead (P.cfg n)) (fun _ o h => h.step o) _ ops hd

theorem LeaseMoves.reached (h : LeaseMoves P s s') {n : Uuid} (hr : Lease.Reached (P.cfg n) (s.node n).lease) :
    Lease.Reached (P.cfg n) (s'.node n).lease := by
  obtain ⟨d, h⟩ := h
  obtain ⟨-, ops, h2⟩ := h n
  rw [h2]
  exact Machine.run_inv (I := Lease.Reached (P.cfg n)) (fun _ o h => h.step o) _ ops hr

/-- rows and deadlines are not taken back -/
theorem LeaseMoves.kept (h : LeaseMoves P s s') {n : Uuid} (hr : Lease.Reached (P.cfg n) (s.node n).lease)
    (h1 : (s.node n).lease.row.isSome = true) (h2 : (s.node n).lease.hardDeadlineNs ≠ 0) :
    (s'.node n).lease.row.isSome = true ∧ (s'.node n).lease.hardDeadlineNs ≠ 0 := by
  obtain ⟨d, h⟩ := h
  obtain ⟨-, ops, h3⟩ := h n
  rw [h3]
  have := Machine.run_inv
    (I := fun l => Lease.Reached (P.cfg n) l ∧ l.row.isSome = true ∧ l.hardDeadlineNs ≠ 0)
    (fun l o hl => ⟨hl.1.step o, (Lease.step_ticks (P.cfg n) l o).row hl.2.1, Lease.step_installed hl.1.regular hl.2.2 o⟩)
    (s.node n).lease ops ⟨hr, h1, h2⟩
  exact this.2

theorem Quiet.refl (h : Inv P s) : Quiet P s s :=
  ⟨SameOwners.refl h.listed, fun _ hn => ⟨hn, rfl, rfl⟩, LeaseMoves.refl s, fun i => Keeps.refl (h.tunnel i),
    fun _ _ _ hr => Or.inl hr, fun _ => Or.inl rfl, fun _ _ _ _ _ => rfl, fun x _ _ he => Or.inl ⟨x, he, Or.inl rfl⟩⟩

theorem Quiet.known (h : Quiet P s s') (hr : ∀ n, Lease.Reached (P.cfg n) (s.node n).lease) {n : Uuid} (hk : s.Known P n) :
    s'.Known P n := by
  obtain ⟨hb, hc, hrel⟩ := h.booted n hk.booted
  obtain ⟨h1, h2⟩ := h.lease.kept (hr n) hk.row hk.deadline
  refine ⟨hb, hrel.trans hk.released, h1, h2, fun hd => ?_⟩
  rw [hc, h.db.deployment]
  exact hk.config fun hd' => hd (h.lease.dead hd')

theorem Quiet.noLive (h : Quiet P s s') (ht : ∀ i, (s.tun i).Ok) {m : Uuid} (hn : s.NoLive P m) : s'.NoLive P m := by
  intro i hh hm
  have hh' := (h.tun i).holding hh
  obtain ⟨h1, h2, -⟩ := (h.tun i).fixed (hh'.granted.present (ht i))
  rw [h1]
  exact h.lease.dead (hn i hh' (h2 ▸ hm))

theorem Quiet.effectOk (h : Quiet P s s') (hI : Inv P s) {e : Effect} (he : EffectOk P s e) : EffectOk P s' e := by
  have hback : ∀ m row' n c, s'.db.machine m = some row' → row'.owners.owner = some (n, c) →
      ∃ row, s.db.machine m = some row ∧ row.owners.owner = some (n, c) := by
    intro m row' n c hr ho
    rcases (h.db.new m row' hr).2 with ⟨row, h1, h2⟩ | h1
    · exact ⟨row, h1, h2 ▸ ho⟩
    · rw [h1] at ho; cases ho
  cases e with
  | claim m epoch n c revision =>
    obtain ⟨⟨row, h1, h2, h3⟩, hn, hk⟩ := he
    obtain ⟨row', k1, k2, -⟩ := h.db.old m row h1
    exact ⟨⟨row', k1, by rw [k2]; exact h2, by rw [k2]; exact h3⟩, h.noLive hI.tunnel hn, h.known hI.reached hk⟩
  | release m => exact h.noLive hI.tunnel he
  | transition m l revision =>
    obtain ⟨hn, row, h1, h2⟩ := he
    obtain ⟨row', k1, k2, -⟩ := h.db.old m row h1
    exact ⟨h.noLive hI.tunnel hn, row', k1, by rw [k2]; exact h2⟩
  | configure config =>
    intro m row' n c hr ho
    obtain ⟨row, h1, h2⟩ := hback m row' n c hr ho
    exact h.lease.dead (he m row n c h1 h2)
  | deleteNode n =>
    intro m row' n' c hr ho
    obtain ⟨row, h1, h2⟩ := hback m row' n' c hr ho
    exact he m row n' c h1 h2

theorem Quiet.txnOk (h : Quiet P s s') (hI : Inv P s) {x : Option Client} {n : Uuid} {e : Option Effect}
    (ht : TxnOk P s x n e) (hl : s'.lock = some (.txn x n e) ∨ e = none) : TxnOk P s' x n e := by
  cases e with
  | none =>
    obtain ⟨hk, hc, hx⟩ := ht
    refine ⟨h.known hI.reached hk, ?_, fun i hi => ?_⟩
    · rw [(h.booted n hk.booted).2.1, h.db.deployment]; exact hc
    · obtain ⟨h1, h2⟩ := hx i hi
      obtain ⟨k1, -, -, -, k5⟩ := (h.tun i).fixed h1
      exact ⟨k5, k1.trans h2⟩
  | some e =>
    refine ⟨h.effectOk hI ht.1, fun i hi hpc => ?_⟩
    have he := h.executed i n e (by simpa [hi] using hl) hpc
    rw [he] at hpc ⊢
    exact ht.2 i hi hpc

theorem TxnOk.disowned {x : Option Client} {n : Uuid} {e : Option Effect} (h : TxnOk P s x n e) : TxnOk P s none n e := by
  cases e with
  | none => exact ⟨h.1, h.2.1, by simp⟩
  | some e => exact ⟨h.1, by simp⟩

theorem Quiet.trans (h : Quiet P s s') (h' : Quiet P s' s'') (hI : Inv P s') : Quiet P s s'' := by
  refine ⟨h.db.trans h'.db, fun n hn => ?_, h.lease.trans h'.lease, fun i => (h.tun i).trans (h'.tun i), fun n m k hk => ?_,
    fun j => ?_, fun i n e he hpc => ?_, fun x n e he => ?_⟩
  · obtain ⟨h1, h2, h3⟩ := h.booted n hn
    obtain ⟨k1, k2, k3⟩ := h'.booted n h1
    exact ⟨k1, k2.trans h2, k3.trans h3⟩
  · rcases h'.registry n m k hk with hk | hk
    · rcases h.registry n m k hk with hk | ⟨h1, h2, h3⟩
      · exact Or.inl hk
      · obtain ⟨k1, k2, k3, -⟩ := (h'.tun k).granted_fixed (hI.tunnel k) h1
        exact Or.inr ⟨k1, k2.trans h2, k3.trans h3⟩
    · exact Or.inr hk
  · rcases h'.transitions j with hj | hj
    · rcases h.transitions j with hj' | hj'
      · exact Or.inl (hj.trans hj')
      · exact Or.inr (by rw [hj]; exact hj'.keeps h'.tun hI.tunnel)
    · exact Or.inr hj
  · have h1 := h'.executed i n e he hpc
    rw [h1] at hpc ⊢
    rcases h'.lock _ n (some e) he with ⟨x', h2, hx⟩ | ⟨h2, -⟩
    · obtain rfl : some (Client.tunnel i) = x' := by simpa using hx
      exact h.executed i n e h2 hpc
    · cases h2
  · rcases h'.lock x n e he with ⟨x', h1, hx⟩ | h1
    · rcases h.lock x' n e h1 with ⟨x'', h2, hx'⟩ | ⟨rfl, h2⟩
      · refine Or.inl ⟨x'', h2, ?_⟩
        rcases hx with rfl | rfl
        · exact hx'
        · exact Or.inr rfl
      · refine Or.inr ⟨rfl, ?_⟩
        have := h'.txnOk hI h2 (Or.inr rfl)
        rcases hx with rfl | rfl
        · exact this
        · exact this.disowned
    · exact Or.inr h1

/-- **A quiet step keeps the invariant.** -/
theorem Inv.quiet (hI : Inv P s) (h : Quiet P s s') : Inv P s' := by
  refine ⟨fun n => h.lease.reached (hI.reached n), fun n n' => ?_, fun i => (h.tun i).ok, fun i hh hd => ?_, fun i hg => ?_,
    fun i j hi hj hm he => ?_, fun m row n c hr ho => ?_, fun m row hr => (h.db.new m row hr).1, fun n m k hk => ?_,
    fun j => ?_, fun x n e he => ?_⟩
  · obtain ⟨d, hl⟩ := h.lease
    rw [(hl n).1, (hl n').1, hI.now n n']
  · have hh' := (h.tun i).holding hh
    have hg := hh'.granted
    obtain ⟨h1, h2, h3, h4, -⟩ := (h.tun i).fixed (hg.present (hI.tunnel i))
    obtain ⟨row, k1, k2⟩ := hI.held i hh' fun hd' => hd (by rw [h1]; exact h.lease.dead hd')
    obtain ⟨row', k3, k4, -⟩ := h.db.old _ row k1
    refine ⟨row', by rw [h2]; exact k3, ?_⟩
    rw [k4, k2, h1, h3, h4, (h.tun i).epoch hh.granted]
  · have hg' := (h.tun i).granted hg
    obtain ⟨row, k1, k2⟩ := hI.epoch i hg'
    obtain ⟨row', k3, k4, -⟩ := h.db.old _ row k1
    refine ⟨row', by rw [((h.tun i).fixed (hg'.present (hI.tunnel i))).2.1]; exact k3, ?_⟩
    rw [k4, (h.tun i).epoch hg]
    exact k2
  · have hi' := (h.tun i).granted hi
    have hj' := (h.tun j).granted hj
    rw [((h.tun i).fixed (hi'.present (hI.tunnel i))).2.1, ((h.tun j).fixed (hj'.present (hI.tunnel j))).2.1] at hm
    rw [(h.tun i).epoch hi, (h.tun j).epoch hj] at he
    exact hI.unique i j hi' hj' hm he
  · rcases (h.db.new m row hr).2 with ⟨row', h1, h2⟩ | h1
    · exact h.known hI.reached (hI.owner m row' n c h1 (h2 ▸ ho))
    · rw [h1] at ho; cases ho
  · rcases h.registry n m k hk with hk | hk
    · obtain ⟨h1, h2, h3⟩ := hI.registry n m k hk
      obtain ⟨k1, k2, k3, -⟩ := (h.tun k).granted_fixed (hI.tunnel k) h1
      exact ⟨k1, k2.trans h2, k3.trans h3⟩
    · exact hk
  · rcases h.transitions j with hj | hj
    · rw [hj]; exact (hI.trans j).keeps h.tun hI.tunnel
    · exact hj
  · rcases h.lock x n e he with ⟨x', h1, rfl | rfl⟩ | ⟨rfl, h1⟩
    · exact h.txnOk hI (hI.lock _ n e h1) (Or.inl he)
    · exact h.txnOk hI (hI.lock x' n e h1).disowned (Or.inl he)
    · exact h1

theorem Quiet.next (hI : Inv P s) (h : Quiet P s s') (h' : Inv P s' → Quiet P s' s'') : Quiet P s s'' :=
  h.trans (h' (hI.quiet h)) (hI.quiet h)

/-! ## Primitive updates -/

@[simp]
theorem setNode_node_self (s : St) (n : Uuid) (x : Node) : (s.setNode n x).node n = x := Function.update_self ..

theorem setNode_node_of_ne {n n' : Uuid} (h : n' ≠ n) (x : Node) : (s.setNode n x).node n' = s.node n' :=
  Function.update_of_ne h ..

@[simp]
theorem setTun_tun_self (s : St) (i : ℕ) (t : Tunnel) : (s.setTun i t).tun i = t := Function.update_self ..

theorem setTun_tun_of_ne {i k : ℕ} (h : k ≠ i) (t : Tunnel) : (s.setTun i t).tun k = s.tun k := Function.update_of_ne h ..

/-- neither rows nor tunnels, transitions nor the lock change -/
theorem quiet_nodes (hI : Inv P s) (hdb : s'.db = s.db) (htun : s'.tun = s.tun) (htr : s'.trans = s.trans)
    (hlock : s'.lock = s.lock)
    (hb : ∀ n ∈ s.booted, n ∈ s'.booted ∧ (s'.node n).config = (s.node n).config ∧ (s'.node n).released = (s.node n).released)
    (hl : LeaseMoves P s s')
    (hreg : ∀ n m k, (m, k) ∈ (s'.node n).tunnels → (m, k) ∈ (s.node n).tunnels ∨
      (s.tun k).handle.isSome = true ∧ (s.tun k).node = n ∧ (s.tun k).machine = m) : Quiet P s s' :=
  ⟨by rw [hdb]; exact SameOwners.refl hI.listed, hb, hl, fun i => by rw [htun]; exact Keeps.refl (hI.tunnel i),
    by rw [htun]; exact hreg, fun j => Or.inl (by rw [htr]), fun i _ _ _ _ => by rw [htun],
    fun x n e he => Or.inl ⟨x, by rw [← hlock]; exact he, Or.inl rfl⟩⟩

theorem quiet_setNode (hI : Inv P s) {n : Uuid} {x : Node} (hc : x.config = (s.node n).config)
    (hr : x.released = (s.node n).released) (hl : x.lease = (s.node n).lease)
    (hreg : ∀ m k, (m, k) ∈ x.tunnels → (m, k) ∈ (s.node n).tunnels ∨
      (s.tun k).handle.isSome = true ∧ (s.tun k).node = n ∧ (s.tun k).machine = m) : Quiet P s (s.setNode n x) := by
  refine quiet_nodes hI rfl rfl rfl rfl (fun n' hn => ?_) ⟨0, fun n' => ?_⟩ fun n' m k hk => ?_
  · by_cases h : n' = n
    · subst h; rw [setNode_node_self]; exact ⟨hn, hc, hr⟩
    · rw [setNode_node_of_ne h]; exact ⟨hn, rfl, rfl⟩
  · by_cases h : n' = n
    · subst h; rw [setNode_node_self, hl]; exact ⟨rfl, [], rfl⟩
    · rw [setNode_node_of_ne h]; exact ⟨rfl, [], rfl⟩
  · by_cases h : n' = n
    · subst h; rw [setNode_node_self] at hk; exact hreg m k hk
    · rw [setNode_node_of_ne h] at hk; exact Or.inl hk

theorem quiet_leaseStep (hI : Inv P s) (n : Uuid) {o : Lease.Op} (ho : o.elapsed = 0) : Quiet P s (s.leaseStep P n o) := by
  refine quiet_nodes hI rfl rfl rfl rfl (fun n' hn => ?_) ⟨0, fun n' => ?_⟩ fun n' m k hk => Or.inl ?_
  · by_cases h : n' = n
    · subst h; rw [St.leaseStep, setNode_node_self]; exact ⟨hn, rfl, rfl⟩
    · rw [St.leaseStep, setNode_node_of_ne h]; exact ⟨hn, rfl, rfl⟩
  · by_cases h : n' = n
    · subst h
      rw [St.leaseStep, setNode_node_self]
      refine ⟨?_, [o], rfl⟩
      rw [(Lease.step_ticks _ _ o).now, ho]
    · rw [St.leaseStep, setNode_node_of_ne h]; exact ⟨rfl, [], rfl⟩
  · by_cases h : n' = n
    · subst h; rw [St.leaseStep, setNode_node_self] at hk; exact hk
    · rw [St.leaseStep, setNode_node_of_ne h] at hk; exact hk

theorem quiet_setTun (hI : Inv P s) {i : ℕ} {t : Tunnel} (hk : Keeps (s.tun i) t)
    (he : t.pc = .claiming .executed → s.lock = none) : Quiet P s (s.setTun i t) := by
  refine ⟨SameOwners.refl hI.listed, fun _ hn => ⟨hn, rfl, rfl⟩, LeaseMoves.refl s, fun k => ?_, fun _ _ _ h => Or.inl h,
    fun _ => Or.inl rfl, fun k n e hl hpc => ?_, fun x n e he => Or.inl ⟨x, he, Or.inl rfl⟩⟩
  · by_cases h : k = i
    · subst h; rw [setTun_tun_self]; exact hk
    · rw [setTun_tun_of_ne h]; exact Keeps.refl (hI.tunnel k)
  · by_cases h : k = i
    · subst h
      rw [setTun_tun_self] at hpc
      rw [show (s.setTun k t).lock = s.lock from rfl, he hpc] at hl
      cases hl
    · rw [setTun_tun_of_ne h]

theorem quiet_setTrans (hI : Inv P s) {j : ℕ} {t : Transition} (ht : TransOk s.tun t) : Quiet P s (s.setTrans j t) := by
  refine ⟨SameOwners.refl hI.listed, fun _ hn => ⟨hn, rfl, rfl⟩, LeaseMoves.refl s, fun k => Keeps.refl (hI.tunnel k),
    fun _ _ _ h => Or.inl h, fun k => ?_, fun _ _ _ _ _ => rfl, fun x n e he => Or.inl ⟨x, he, Or.inl rfl⟩⟩
  by_cases h : k = j
  · subst h; exact Or.inr (by simpa [St.setTrans] using ht)
  · exact Or.inl (by simp [St.setTrans, h])

/-- the lock is given up, disowned, taken by a lease, or taken by a validated transaction -/
theorem quiet_lock (hI : Inv P s) {l : Option Lock}
    (hl : ∀ x n e, l = some (.txn x n e) → (∃ x', s.lock = some (.txn x' n e) ∧ (x = x' ∨ x = none)) ∨
      e = none ∧ TxnOk P s x n none) : Quiet P s { s with lock := l } :=
  ⟨SameOwners.refl hI.listed, fun _ hn => ⟨hn, rfl, rfl⟩, LeaseMoves.refl s, fun i => Keeps.refl (hI.tunnel i),
    fun _ _ _ h => Or.inl h, fun _ => Or.inl rfl, fun _ _ _ _ _ => rfl,
    fun x n e he => (hl x n e he).imp_right fun ⟨h1, hk, h2⟩ =>
      ⟨h1, ⟨hk.booted, hk.released, hk.row, hk.deadline, hk.config⟩, h2⟩⟩

theorem quiet_unlock (hI : Inv P s) : Quiet P s { s with lock := none } := quiet_lock hI (by simp)

/-- a tunnel goes on without claiming or opening anything -/
theorem keeps_goto {t : Tunnel} (hok : t.Ok) {pc : Pc} (h1 : pc ≠ .absent) (h3 : pc ≠ .claiming .committed) (hearly : pc.early = true → t.handle = none)
    (hlate : pc.late = true → t.handle.isSome = true)
    (hshut : pc.shut = true → t.handle.any Handle.dispatchOpen = false) : Keeps t { t with pc := pc } := by
  refine ⟨⟨hearly, hlate, hok.route, hshut⟩, fun _ => ⟨rfl, rfl, rfl, rfl, h1⟩, fun h => h, ?_, fun _ => rfl, ?_⟩
  · rintro (h | h)
    · exact Or.inl h
    · exact (h3 h).elim
  · rintro (h | h)
    · exact (h3 h).elim
    · exact Or.inr h

theorem quiet_goto (hI : Inv P s) {i : ℕ} {pc : Pc} (h1 : pc ≠ .absent) (h2 : pc ≠ .claiming .executed)
    (h3 : pc ≠ .claiming .committed) (hearly : pc.early = true → (s.tun i).handle = none)
    (hlate : pc.late = true → (s.tun i).handle.isSome = true)
    (hshut : pc.shut = true → (s.tun i).handle.any Handle.dispatchOpen = false) : Quiet P s (s.goto i pc) :=
  quiet_setTun hI (keeps_goto (hI.tunnel i) h1 h3 hearly hlate hshut) fun h => (h2 h).elim

theorem closeDispatch_any (t : Tunnel) : t.closeDispatch.handle.any Handle.dispatchOpen = false := by
  unfold Tunnel.closeDispatch
  cases t.handle <;> rfl

theorem keeps_closeDispatch {t : Tunnel} (hok : t.Ok) : Keeps t t.closeDispatch := by
  have hsome : t.closeDispatch.handle.isSome = t.handle.isSome := by
    unfold Tunnel.closeDispatch
    cases t.handle <;> rfl
  have hnone : t.handle = none → t.closeDispatch = t := by
    intro h
    unfold Tunnel.closeDispatch
    rw [h]
    cases t
    simp_all
  refine ⟨⟨fun h => ?_, fun h => ?_, fun h hh => ?_, fun _ => closeDispatch_any t⟩, fun hne => ⟨rfl, rfl, rfl, rfl, hne⟩,
    fun h => by rw [hsome]; exact h, ?_, fun _ => rfl, ?_⟩
  · have : t.handle = none := hok.early h
    rw [hnone this]; exact this
  · rw [hsome]; exact hok.late h
  · obtain ⟨g, hg, rfl⟩ := Option.map_eq_some_iff.1 hh
    exact hok.route g hg
  · rintro (h | h)
    · exact Or.inl (by rw [← hsome]; exact h)
    · exact Or.inr h
  · rintro (h | h)
    · exact Or.inl h
    · rw [closeDispatch_any] at h; cases h

theorem quiet_closeDispatch (hI : Inv P s) (i : ℕ) : Quiet P s (s.closeDispatch i) := by
  by_cases hpc : (s.tun i).pc = .claiming .executed
  · -- a claim has no handle yet
    have hnone := (hI.tunnel i).early (by rw [hpc]; rfl)
    have hsame : (s.tun i).closeDispatch = s.tun i := by
      unfold Tunnel.closeDispatch
      cases ht : s.tun i
      simp_all
    have : s.closeDispatch i = s := by simp [St.closeDispatch, hsame, St.setTun]
    rw [this]
    exact Quiet.refl hI
  · exact quiet_setTun hI (keeps_closeDispatch (hI.tunnel i)) fun h => (hpc h).elim

end OwlMux.Cluster
