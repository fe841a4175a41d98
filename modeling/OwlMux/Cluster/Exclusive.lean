/-
Exclusive dispatch, over every run of the fleet.

A tunnel that passes its guard holds its Machine and its node is alive, so the Machine's row names it, and a row names one
tunnel. Epochs and route revisions of a row never go down: a claim sets the epoch above the present one, a transition the
revision, and no other step touches them.

Results:
- `exclusive_dispatch`: at one time at most one tunnel of a Machine passes the guard, every committed claim has an epoch above
  those committed before, and no two tunnels of a Machine share a route;
- `revision_after`: no route up to the revision of a committed transition passes the guard again;
- `late_reply`: the order in which claims return is not that of their commits;
- `step_counts`: what a step does to the epoch and the revision of a Machine;
- `dispatcher_named`, `owner_present`, `rows_grow`: what the row of a Machine says of its owner, and that it only goes up.
Premise: `Lease.CheckSafe` of every incarnation.
-/
import Mathlib.Tactic
import OwlMux.Cluster.Transactions

namespace OwlMux.Cluster

open OwlMux.Relay (Uuid Text RouteIdentity)

variable {P : Params} {s s' : St}

/-! ## The guard of dispatch -/

theorem alive_of_checks {n : Uuid} {clock : Bool} (h : s.checks P n clock = true) : ¬ s.DeadNode P n := by
  intro hd
  unfold St.checks at h
  cases hc : (Lease.check (P.cfg n) clock (s.node n).lease).1 with
  | ok u => exact hd [] clock hc
  | error e => simp [hc] at h

theorem holding_of_passes {i : ℕ} {clock : Bool} (h : passes P s i clock = true) :
    (s.tun i).Holding ∧ ¬ s.DeadNode P (s.tun i).node := by
  unfold passes at h
  rw [Bool.and_eq_true] at h
  obtain ⟨g, hg, hd⟩ := (Option.any_eq_true _ _).1 h.1
  rw [Bool.and_eq_true] at hd
  refine ⟨Or.inr ?_, alive_of_checks h.2⟩
  rw [hg]
  exact hd.1

theorem one_dispatcher (hI : Inv P s) {i j : ℕ} {a b : Bool} (hm : (s.tun i).machine = (s.tun j).machine)
    (hi : passes P s i a = true) (hj : passes P s j b = true) : i = j := by
  obtain ⟨hi, hdi⟩ := holding_of_passes hi
  obtain ⟨hj, hdj⟩ := holding_of_passes hj
  obtain ⟨row, h1, h2⟩ := hI.held i hi hdi
  obtain ⟨row', h3, h4⟩ := hI.held j hj hdj
  rw [hm, h3] at h1
  obtain rfl := Option.some.inj h1
  have he : (s.tun i).epoch = (s.tun j).epoch := congrArg OwnerRow.connectionEpoch (h2.symm.trans h4)
  exact hI.unique i j hi.granted hj.granted hm he

/-! ## Epochs and revisions never go down -/

/-- rows stay, their epochs and revisions do not go down -/
def Grows (db db' : Db) : Prop :=
  ∀ m row, db.machine m = some row → ∃ row', db'.machine m = some row' ∧
    row.owners.connectionEpoch ≤ row'.owners.connectionEpoch ∧ row.owners.routeRevision ≤ row'.owners.routeRevision

theorem Grows.refl (db : Db) : Grows db db := fun _ row h => ⟨row, h, le_rfl, le_rfl⟩

theorem Grows.trans {a b c : Db} (h : Grows a b) (h' : Grows b c) : Grows a c := by
  intro m row hr
  obtain ⟨r1, h1, h2, h3⟩ := h m row hr
  obtain ⟨r2, k1, k2, k3⟩ := h' m r1 h1
  exact ⟨r2, k1, h2.trans k2, h3.trans k3⟩

/-- a step that commits nothing leaves the owners alone and grants nothing -/
theorem step_keeps (hI : Inv P s) {o : Op} (ho : o ≠ .commit) :
    (∀ i, Keeps (s.tun i) ((step P s o).tun i)) ∧ SameOwners s.db (step P s o).db := by
  have hrefl : (∀ i, Keeps (s.tun i) (s.tun i)) ∧ SameOwners s.db s.db :=
    ⟨fun i => Keeps.refl (hI.tunnel i), SameOwners.refl hI.listed⟩
  by_cases hq : o.isQuiet = true
  · exact ⟨(step_quiet hI hq).tun, (step_quiet hI hq).db⟩
  · cases o with
    | execute x =>
      rcases execute_spec hI x with hq | ⟨n, e, -, -, -, hq, heq⟩
      · exact ⟨hq.tun, hq.db⟩
      · have hq' := hq.tun
        have hdb := hq.db
        simp only [step, heq]
        exact ⟨hq', hdb⟩
    | commit => exact (ho rfl).elim
    | configure n =>
      simp only [step]
      split
      · exact hrefl
      · split <;> exact hrefl
    | releaseNode n =>
      simp only [step]
      unfold releaseNode
      split_ifs
      · exact hrefl
      · exact hrefl
      · exact ⟨(quiet_hardFence hI n).tun, (quiet_hardFence hI n).db⟩
    | _ => exact (hq rfl).elim

/-! ## Commits -/

/-- what a step commits -/
def committed (s : St) (o : Op) : Option Effect :=
  match o, s.lock with
  | .commit, some (.txn _ _ e) => e
  | _, _ => none

theorem setPhase_db (s : St) (x : Client) (p : Phase) : (s.setPhase x p).db = s.db := by
  cases x with
  | tunnel i => simp only [St.setPhase]; split <;> rfl
  | guard j => simp only [St.setPhase]; split <;> rfl
  | coordinator j => simp only [St.setPhase]; split <;> rfl

theorem committed_spec (hI : Inv P s) {o : Op} {e : Effect} (h : committed s o = some e) :
    EffectOk P s e ∧ (step P s o).db = e.apply s.db := by
  unfold committed at h
  split at h
  · rename_i x n e' hlock
    subst h
    refine ⟨(hI.lock _ _ _ hlock).1, ?_⟩
    show (commit s).db = e.apply s.db
    simp only [commit, hlock]
    split
    · split_ifs
      · rw [setPhase_db, apply_db]
      · exact apply_db s e
    · exact apply_db s e
  · cases h

/-- what a commit does to the epoch and the revision of Machine `m` -/
structure Counts (e : Option Effect) (m : Uuid) (a b : OwnerRow) : Prop where
  claim : ∀ epoch n c revision, e = some (.claim m epoch n c revision) →
    a.connectionEpoch < b.connectionEpoch ∧ b.connectionEpoch = epoch ∧ b.routeRevision = a.routeRevision
  transition : ∀ lifecycle revision, e = some (.transition m lifecycle revision) →
    b.connectionEpoch = a.connectionEpoch ∧ b.routeRevision = a.routeRevision + 1
  other : (∀ epoch n c revision, e ≠ some (.claim m epoch n c revision)) →
    (∀ lifecycle revision, e ≠ some (.transition m lifecycle revision)) →
      b.connectionEpoch = a.connectionEpoch ∧ b.routeRevision = a.routeRevision

/-- neither claim nor transition of `m`: both stay -/
theorem Counts.same {e : Option Effect} {m : Uuid} {a b : OwnerRow} (hc : ∀ epoch n c revision, e ≠ some (.claim m epoch n c revision))
    (ht : ∀ lifecycle revision, e ≠ some (.transition m lifecycle revision))
    (h : b.connectionEpoch = a.connectionEpoch ∧ b.routeRevision = a.routeRevision) : Counts e m a b :=
  ⟨fun epoch n c revision he => (hc epoch n c revision he).elim, fun l revision he => (ht l revision he).elim, fun _ _ => h⟩

theorem Counts.le {e : Option Effect} {m : Uuid} {a b : OwnerRow} (h : Counts e m a b) :
    a.connectionEpoch ≤ b.connectionEpoch ∧ a.routeRevision ≤ b.routeRevision := by
  by_cases hc : ∃ epoch n c revision, e = some (.claim m epoch n c revision)
  · obtain ⟨epoch, n, c, revision, he⟩ := hc
    obtain ⟨h1, -, h2⟩ := h.claim epoch n c revision he
    omega
  · by_cases ht : ∃ lifecycle revision, e = some (.transition m lifecycle revision)
    · obtain ⟨lifecycle, revision, he⟩ := ht
      obtain ⟨h1, h2⟩ := h.transition lifecycle revision he
      omega
    · obtain ⟨h1, h2⟩ := h.other (fun epoch n c revision he => hc ⟨epoch, n, c, revision, he⟩)
        (fun lifecycle revision he => ht ⟨lifecycle, revision, he⟩)
      omega

/-- an UPDATE of the row of `m'`, seen from the row of `m` -/
theorem modify_row (db : Db) {m : Uuid} {row : MachineRow} (hrow : db.machine m = some row) (m' : Uuid) (f : MachineRow → MachineRow) :
    (db.modify m' f).machine m = some (if m = m' then f row else row) := by
  by_cases hm : m = m'
  · subst hm
    rw [if_pos rfl, Db.modify_self, hrow]
    rfl
  · rw [if_neg hm]
    exact (Db.modify_of_ne db hm f).trans hrow

theorem EffectOk.counts {e : Effect} (h : EffectOk P s e) {m : Uuid} {row : MachineRow} (hrow : s.db.machine m = some row) :
    ∃ row', (e.apply s.db).machine m = some row' ∧ Counts (some e) m row.owners row'.owners := by
  cases e with
  | claim m' epoch n c revision =>
    refine ⟨_, modify_row s.db hrow m' _, ?_⟩
    obtain ⟨⟨row', h1, h2, -⟩, -⟩ := h
    split_ifs with hm
    · subst hm
      obtain rfl := Option.some.inj (h1.symm.trans hrow)
      refine ⟨?_, by simp, fun hc _ => (hc epoch n c revision rfl).elim⟩
      intro epoch' n' c' revision' he
      cases he
      exact ⟨h2, rfl, rfl⟩
    · refine Counts.same ?_ (by simp) ⟨rfl, rfl⟩
      intro epoch' n' c' revision' he
      cases he
      exact hm rfl
  | release m' =>
    refine ⟨_, modify_row s.db hrow m' _, Counts.same (by simp) (by simp) ?_⟩
    split_ifs <;> exact ⟨rfl, rfl⟩
  | transition m' lifecycle revision =>
    refine ⟨_, modify_row s.db hrow m' _, ?_⟩
    obtain ⟨-, row', h1, h2⟩ := h
    split_ifs with hm
    · subst hm
      obtain rfl := Option.some.inj (h1.symm.trans hrow)
      refine ⟨by simp, ?_, fun _ ht => (ht lifecycle revision rfl).elim⟩
      intro lifecycle' revision' he
      cases he
      exact ⟨rfl, by simp only [MachineRow.transition]; omega⟩
    · refine Counts.same (by simp) ?_ ⟨rfl, rfl⟩
      intro lifecycle' revision' he
      cases he
      exact hm rfl
  | configure config | deleteNode n => exact ⟨row, hrow, Counts.same (by simp) (by simp) ⟨rfl, rfl⟩⟩

/-- **What a step does to the row of a Machine**: nothing, unless it commits a claim or a transition of it -/
theorem step_counts (hI : Inv P s) (o : Op) {m : Uuid} {row : MachineRow} (hrow : s.db.machine m = some row) :
    ∃ row', (step P s o).db.machine m = some row' ∧ Counts (committed s o) m row.owners row'.owners := by
  cases hc : committed s o with
  | some e =>
    obtain ⟨hok, hdb⟩ := committed_spec hI hc
    rw [hdb]
    exact hok.counts hrow
  | none =>
    have hsame : SameOwners s.db (step P s o).db := by
      by_cases ho : o = .commit
      · subst ho
        rcases commit_spec hI with h | ⟨x, n, e, hlock, -⟩
        · show SameOwners s.db (commit s).db
          rw [h]
          exact SameOwners.refl hI.listed
        · simp [committed, hlock] at hc
      · exact (step_keeps hI ho).2
    obtain ⟨row', h1, h2, -⟩ := hsame.old m row hrow
    exact ⟨row', h1, Counts.same (by simp) (by simp) (by rw [h2]; exact ⟨rfl, rfl⟩)⟩

theorem step_grows (hI : Inv P s) (o : Op) : Grows s.db (step P s o).db := by
  intro m row hrow
  obtain ⟨row', h1, h2⟩ := step_counts hI o hrow
  exact ⟨row', h1, h2.le⟩

theorem run_grows (hs : ∀ n, Lease.CheckSafe (P.cfg n)) (hI : Inv P s) (ops : List Op) : Grows s.db (run P s ops).db := by
  induction ops generalizing s with
  | nil => exact Grows.refl s.db
  | cons o ops ih => exact (step_grows hI o).trans (ih (step_inv hs hI o))

/-- a tunnel is granted by the commit of its claim, with the epoch of the claim -/
theorem step_grants (hI : Inv P s) {o : Op} {i : ℕ} (hn : ¬ (s.tun i).Granted) (hg : ((step P s o).tun i).Granted) :
    committed s o = some ((step P s o).tun i).claim := by
  by_cases ho : o = .commit
  · subst ho
    have hg' : ((commit s).tun i).Granted := hg
    rcases commit_spec hI with h | ⟨x, n, e, hlock, -, hq | ⟨k, rfl, hpc, h⟩⟩
    · exact (hn (h ▸ hg')).elim
    · have := (hq.tun i).granted hg'
      rw [apply_tun] at this
      exact (hn this).elim
    · by_cases hk : i = k
      · subst hk
        have htun : (commit s).tun i = { s.tun i with pc := .claiming .committed } := by
          rw [h]
          simp only [St.goto, setTun_tun_self, apply_tun]
        show committed s .commit = some ((commit s).tun i).claim
        rw [htun]
        simp [committed, hlock, Tunnel.claim]
      · have htun : (commit s).tun i = s.tun i := by
          rw [h]
          simp only [St.goto]
          rw [setTun_tun_of_ne hk, apply_tun]
        rw [htun] at hg'
        exact (hn hg').elim
  · exact (hn (((step_keeps hI ho).1 i).granted hg)).elim

/-- after the commit of a claim the row has its epoch -/
theorem committed_claim (hI : Inv P s) {o : Op} {m : Uuid} {epoch : ℤ} {n c : Uuid} {revision : ℤ}
    (h : committed s o = some (.claim m epoch n c revision)) :
    ∃ row, (step P s o).db.machine m = some row ∧ row.owners.connectionEpoch = epoch := by
  obtain ⟨⟨⟨row, h1, -⟩, -⟩, hdb⟩ := committed_spec hI h
  refine ⟨row.claim epoch n c revision, ?_, rfl⟩
  rw [hdb]
  show (s.db.modify _ _).machine m = _
  rw [Db.modify_self, h1]
  rfl

/-- after that of a transition its revision is the next -/
theorem committed_transition (hI : Inv P s) {o : Op} {m : Uuid} {lifecycle : Lifecycle} {revision : ℤ}
    (h : committed s o = some (.transition m lifecycle revision)) :
    ∃ row, (step P s o).db.machine m = some row ∧ row.owners.routeRevision = revision + 1 := by
  obtain ⟨⟨-, row, h1, -⟩, hdb⟩ := committed_spec hI h
  refine ⟨row.transition lifecycle revision, ?_, rfl⟩
  rw [hdb]
  show (s.db.modify _ _).machine m = _
  rw [Db.modify_self, h1]
  rfl

/-! ## Runs -/

/-- **Exclusive dispatch.** At one time at most one tunnel of a Machine passes the guard; a committed claim has an epoch above
every claim of the Machine committed before it; a tunnel has the epoch of its committed claim, and no two tunnels of a Machine
share a route. -/
theorem exclusive_dispatch (P : Params) (hs : ∀ n, Lease.CheckSafe (P.cfg n)) (config : Config) (ops : List Op) :
    (∀ i j a b, ((run P (init config) ops).tun i).machine = ((run P (init config) ops).tun j).machine →
      passes P (run P (init config) ops) i a = true → passes P (run P (init config) ops) j b = true → i = j) ∧
    (∀ pre o mid o' post, ops = pre ++ o :: (mid ++ o' :: post) → ∀ m e n c r e' n' c' r',
      committed (run P (init config) pre) o = some (.claim m e n c r) →
      committed (run P (init config) (pre ++ o :: mid)) o' = some (.claim m e' n' c' r') → e < e') ∧
    (∀ pre o post, ops = pre ++ o :: post → ∀ i, ¬ ((run P (init config) pre).tun i).Granted →
      ((run P (init config) (pre ++ [o])).tun i).Granted →
      committed (run P (init config) pre) o = some ((run P (init config) (pre ++ [o])).tun i).claim) ∧
    ∀ i j h h', ((run P (init config) ops).tun i).handle = some h → ((run P (init config) ops).tun j).handle = some h' →
      ((run P (init config) ops).tun i).machine = ((run P (init config) ops).tun j).machine → h.route = h'.route → i = j := by
  have hinv := run_inv hs config
  refine ⟨fun i j a b hm hi hj => one_dispatcher (hinv ops) hm hi hj, ?_, ?_, ?_⟩
  · intro pre o mid o' post _ m e n c r e' n' c' r' h1 h2
    obtain ⟨row, k1, k2⟩ := committed_claim (hinv pre) h1
    have hrun : run P (init config) (pre ++ o :: mid) = run P (step P (run P (init config) pre) o) mid :=
      Machine.run_append _ pre (o :: mid)
    have hgrow := run_grows hs (step_inv hs (hinv pre) o) mid
    rw [← hrun] at hgrow
    obtain ⟨row', k3, k4, -⟩ := hgrow m row k1
    obtain ⟨⟨⟨row'', k5, k6, -⟩, -⟩, -⟩ := committed_spec (hinv _) h2
    obtain rfl := Option.some.inj (k3.symm.trans k5)
    calc e = row.owners.connectionEpoch := k2.symm
      _ ≤ row'.owners.connectionEpoch := k4
      _ < e' := k6
  · intro pre o post _ i hn hg
    have hrun : run P (init config) (pre ++ [o]) = step P (run P (init config) pre) o := Machine.run_snoc _ pre o
    rw [hrun] at hg ⊢
    exact step_grants (hinv pre) hn hg
  · intro i j h h' hi hj hm hroute
    have h1 := ((hinv ops).tunnel i).route h hi
    have h2 := ((hinv ops).tunnel j).route h' hj
    rw [h1, h2] at hroute
    have he := congrArg RouteIdentity.connectionEpoch hroute
    exact (hinv ops).unique i j (Or.inl (by rw [hi]; rfl)) (Or.inl (by rw [hj]; rfl)) hm he

/-- a tunnel that passes the guard after the commit of a transition has a later revision -/
theorem revision_after (hs : ∀ n, Lease.CheckSafe (P.cfg n)) (config : Config) (pre post : List Op) (o : Op)
    {m : Uuid} {lifecycle : Lifecycle} {revision : ℤ}
    (h : committed (run P (init config) pre) o = some (.transition m lifecycle revision)) (i : ℕ) (clock : Bool)
    (hm : ((run P (init config) (pre ++ o :: post)).tun i).machine = m)
    (hpass : passes P (run P (init config) (pre ++ o :: post)) i clock = true) :
    revision < ((run P (init config) (pre ++ o :: post)).tun i).revision := by
  have hinv := run_inv hs config
  obtain ⟨row, k1, k2⟩ := committed_transition (hinv pre) h
  have hrun : run P (init config) (pre ++ o :: post) = run P (step P (run P (init config) pre) o) post :=
    Machine.run_append _ pre (o :: post)
  have hgrow := run_grows hs (step_inv hs (hinv pre) o) post
  rw [← hrun] at hgrow
  obtain ⟨row', k3, -, k4⟩ := hgrow m row k1
  obtain ⟨hh, hd⟩ := holding_of_passes hpass
  obtain ⟨row'', k5, k6⟩ := (hinv _).held i hh hd
  rw [hm] at k5
  obtain rfl := Option.some.inj (k3.symm.trans k5)
  calc revision < revision + 1 := by omega
    _ = row.owners.routeRevision := k2.symm
    _ ≤ row'.owners.routeRevision := k4
    _ = ((run P (init config) (pre ++ o :: post)).tun i).revision := by rw [k6]

/-! ## Late replies -/

/-- clocks that agree, leases of thirty seconds with a margin of five -/
def sampleParams : Params := ⟨fun t => t, fun _ => 30, fun _ => 5, fun _ => 1⟩

def sampleConfig : Config := ⟨1, "b".toList, true, none⟩

theorem sampleParams_safe (n : Uuid) : Lease.CheckSafe (sampleParams.cfg n) :=
  Lease.checkSafe_of_bounded fun t₁ t₂ h => by
    show ((t₂ : ℤ) - t₁) ≤ ((t₂ - t₁ : ℕ) : ℤ) + _
    omega

/-- an incarnation boots and registers -/
def boots (n : Uuid) : List Op :=
  .boot n sampleConfig :: [.register true, .execute, .commit, .reply, .installDeadline true, .storeDeadline].map (Op.lease n)

/-- a tunnel claims its Machine; the answer is on its way -/
def claims (i : ℕ) (n m c : Uuid) : List Op :=
  [.tunnel i n m c 1, .reserveClaim i true, .begin (.tunnel i) true, .execute (.tunnel i), .commit]

/-- the answer to the first claim comes after the lease of its node has expired and another has claimed the Machine -/
def lateOps : List Op :=
  boots 1 ++ [.createMachine 5, .acceptToken 5, .activate 5 "k".toList] ++ claims 0 1 5 7 ++ [.tick (31 * 10 ^ 9)] ++
    boots 2 ++ claims 1 2 5 8 ++ [.reply (.tunnel 1)]

/-- **Claims need not return in the order of their commits**: here 1 is returned after 2. -/
theorem late_reply :
    (∀ n, Lease.CheckSafe (sampleParams.cfg n)) ∧
    ((run sampleParams (init sampleConfig) lateOps).tun 0).machine = ((run sampleParams (init sampleConfig) lateOps).tun 1).machine ∧
    (((run sampleParams (init sampleConfig) lateOps).tun 1).handle.map fun h => h.route.connectionEpoch) = some 2 ∧
    ((run sampleParams (init sampleConfig) lateOps).tun 0).handle = none ∧
    (((run sampleParams (init sampleConfig) (lateOps ++ [.reply (.tunnel 0)])).tun 0).handle.map fun h =>
      h.route.connectionEpoch) = some 1 :=
  ⟨sampleParams_safe, by decide +kernel, by decide +kernel, by decide +kernel, by decide +kernel⟩

/-- then only the later claim dispatches -/
theorem exclusive_dispatch_late :
    passes sampleParams (run sampleParams (init sampleConfig) (lateOps ++ [.reply (.tunnel 0)])) 1 true = true ∧
    passes sampleParams (run sampleParams (init sampleConfig) (lateOps ++ [.reply (.tunnel 0)])) 0 true = false := by
  have h1 : passes sampleParams (run sampleParams (init sampleConfig) (lateOps ++ [.reply (.tunnel 0)])) 1 true = true := by
    decide +kernel
  have hm : ((run sampleParams (init sampleConfig) (lateOps ++ [.reply (.tunnel 0)])).tun 0).machine =
      ((run sampleParams (init sampleConfig) (lateOps ++ [.reply (.tunnel 0)])).tun 1).machine := by decide +kernel
  refine ⟨h1, Bool.eq_false_iff.2 ?_⟩
  intro h0
  have h := (exclusive_dispatch sampleParams sampleParams_safe sampleConfig (lateOps ++ [.reply (.tunnel 0)])).1 0 1 true true
  have h2 := h hm h0
  cases h2 h1

/-! ## The row of the owner -/

/-- **Whoever dispatches is the owner that the row names**: node, connection, epoch and revision. -/
theorem dispatcher_named (P : Params) (hs : ∀ n, Lease.CheckSafe (P.cfg n)) (config : Config) (ops : List Op) (i : ℕ) (clock : Bool)
    (h : passes P (run P (init config) ops) i clock = true) :
    ∃ row, (run P (init config) ops).db.machine ((run P (init config) ops).tun i).machine = some row ∧
      row.owners = ⟨((run P (init config) ops).tun i).epoch, some (((run P (init config) ops).tun i).node,
        ((run P (init config) ops).tun i).connection), ((run P (init config) ops).tun i).revision⟩ := by
  obtain ⟨hh, hd⟩ := holding_of_passes h
  exact (run_inv hs config ops).held i hh hd

theorem dispatcher_named_late :
    ∃ row, (run sampleParams (init sampleConfig) lateOps).db.machine ((run sampleParams (init sampleConfig) lateOps).tun 1).machine =
        some row ∧
      row.owners = ⟨((run sampleParams (init sampleConfig) lateOps).tun 1).epoch,
        some (((run sampleParams (init sampleConfig) lateOps).tun 1).node,
          ((run sampleParams (init sampleConfig) lateOps).tun 1).connection),
        ((run sampleParams (init sampleConfig) lateOps).tun 1).revision⟩ := by
  have h : passes sampleParams (run sampleParams (init sampleConfig) lateOps) 1 true = true := by decide +kernel
  exact dispatcher_named sampleParams sampleParams_safe sampleConfig lateOps 1 true h

/-- **No Machine is owned by a node that is gone**: the owner of a row has its row in `server_nodes`. -/
theorem owner_present (P : Params) (hs : ∀ n, Lease.CheckSafe (P.cfg n)) (config : Config) (ops : List Op) {m : Uuid}
    {row : MachineRow} {n c : Uuid} (hrow : (run P (init config) ops).db.machine m = some row)
    (ho : row.owners.owner = some (n, c)) : n ∈ (run P (init config) ops).booted ∧ ((run P (init config) ops).rows n).isSome = true := by
  have hk := (run_inv hs config ops).owner m row n c hrow ho
  obtain ⟨r, -, hr⟩ := rows_of_known hk
  exact ⟨hk.booted, by rw [hr]; rfl⟩

theorem owner_present_late : (2 : Uuid) ∈ (run sampleParams (init sampleConfig) lateOps).booted ∧
    ((run sampleParams (init sampleConfig) lateOps).rows 2).isSome = true := by
  have hrow : (run sampleParams (init sampleConfig) lateOps).db.machine 5 =
      some ⟨.active, 1, some "k".toList, some 1, [], ⟨2, some (2, 8), 1⟩⟩ := by decide +kernel
  exact owner_present sampleParams sampleParams_safe sampleConfig lateOps hrow rfl

/-- **Epochs and route revisions only go up**, and no Machine is lost: at every step of every run a committed claim raises the
epoch to its own, a committed transition the revision by one, and nothing else touches them. -/
theorem rows_grow (P : Params) (hs : ∀ n, Lease.CheckSafe (P.cfg n)) (config : Config) (pre : List Op) {m : Uuid}
    {row : MachineRow} (hrow : (run P (init config) pre).db.machine m = some row) :
    (∀ o, ∃ row', (run P (init config) (pre ++ [o])).db.machine m = some row' ∧
      Counts (committed (run P (init config) pre) o) m row.owners row'.owners) ∧
    ∀ post, ∃ row', (run P (init config) (pre ++ post)).db.machine m = some row' ∧
      row.owners.connectionEpoch ≤ row'.owners.connectionEpoch ∧ row.owners.routeRevision ≤ row'.owners.routeRevision := by
  have hinv := run_inv hs config pre
  constructor
  · intro o
    have hrun : run P (init config) (pre ++ [o]) = step P (run P (init config) pre) o := Machine.run_snoc _ pre o
    rw [hrun]
    exact step_counts hinv o hrow
  · intro post
    have hrun : run P (init config) (pre ++ post) = run P (run P (init config) pre) post := Machine.run_append _ pre post
    rw [hrun]
    exact run_grows hs hinv post m row hrow

theorem rows_grow_late :
    ∃ row', (run sampleParams (init sampleConfig) (lateOps ++ [.reply (.tunnel 0)])).db.machine 5 = some row' ∧
      2 ≤ row'.owners.connectionEpoch ∧ 1 ≤ row'.owners.routeRevision := by
  have hrow : (run sampleParams (init sampleConfig) lateOps).db.machine 5 =
      some ⟨.active, 1, some "k".toList, some 1, [], ⟨2, some (2, 8), 1⟩⟩ := by decide +kernel
  have h := rows_grow sampleParams sampleParams_safe sampleConfig lateOps hrow
  exact h.2 [.reply (.tunnel 0)]

end OwlMux.Cluster
