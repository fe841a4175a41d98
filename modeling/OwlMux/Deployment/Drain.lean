/-
An orderly shutdown against the renewals of the same node (`owlmux-server/src/deployment.rs`: `begin_drain`,
`run_renewals`, `renew_database`).

`run_renewals` tests the draining flag once in a turn and then awaits the deployment row; `begin_drain` sets the flag and
changes the state of the row that the UPDATE of the renewal asks for. When the UPDATE of `begin_drain` gets the row between
the two, the renewal finds no row of a serving node and fences.

- `Orderly`: nothing but the two tasks goes wrong: every clock read and every transaction succeeds, no deadline is reached;
- `Apart`: the UPDATE of `begin_drain` does not overtake a renewal that has passed the draining test;
- `orderly_drain`: an orderly run whose steps are apart never fences the node;
- `drained_forever`: a row that is draining is never serving again.
-/
import Mathlib.Tactic
import OwlMux.Deployment.Lease

namespace OwlMux.Lease

/-! ## Orderly runs -/

/-- the deadline about to be installed lies ahead -/
def Task.inTime (c : Cfg) (now : ℕ) : Task → Bool
  | .installing _ before => decide (now + c.margin < before + c.ttl)
  | _ => true

/-- no deadline is reached, neither the installed one nor the one about to be -/
def Ahead (c : Cfg) (s : St) : Prop :=
  (s.hardDeadlineNs = 0 ∨ durationNs (c.boot s.now) < s.hardDeadlineNs) ∧ s.task.inTime c (c.boot s.now) = true

instance (c : Cfg) (s : St) : Decidable (Ahead c s) := inferInstanceAs (Decidable (_ ∧ _))

/-- no error of the clock or the database and nothing but `register`, `run_renewals`, one `begin_drain` and checks of a
registered node -/
def Allowed (s : St) : Op → Prop
  | .register ok | .readBefore ok | .installDeadline ok => ok = true
  | .wake ok | .check ok => ok = true ∧ s.hardDeadlineNs ≠ 0
  | .beginDrain ok => ok = true ∧ s.hardDeadlineNs ≠ 0 ∧ s.draining = false
  | .rollback | .fail | .drainFail | .hardFence => False
  | .tick _ | .execute | .commit | .reply | .storeDeadline | .drainExecute => True

instance (s : St) : (o : Op) → Decidable (Allowed s o)
  | .register _ | .readBefore _ | .installDeadline _ => inferInstanceAs (Decidable (_ = _))
  | .wake _ | .check _ | .beginDrain _ => inferInstanceAs (Decidable (_ ∧ _))
  | .rollback | .fail | .drainFail | .hardFence => inferInstanceAs (Decidable False)
  | .tick _ | .execute | .commit | .reply | .storeDeadline | .drainExecute => inferInstanceAs (Decidable True)

def Orderly (c : Cfg) (s : St) (o : Op) : Prop := Ahead c s ∧ Allowed s o

instance (c : Cfg) (s : St) (o : Op) : Decidable (Orderly c s o) := inferInstanceAs (Decidable (_ ∧ _))

/-- a renewal has passed the draining test and its UPDATE has not executed -/
def Task.renewing : Task → Bool
  | .checked | .waiting .renew _ => true
  | _ => false

/-- the UPDATE of `begin_drain` executes while no renewal is on its way -/
def Apart (s : St) (o : Op) : Prop := o = .drainExecute → s.task.renewing = false

instance (s : St) (o : Op) : Decidable (Apart s o) := inferInstanceAs (Decidable (_ → _))

/-! ## Invariant -/

/-- the drain has executed, whether or not it has committed -/
def Drained (s : St) : Prop := (∃ o, s.lock = some ⟨o, .drain⟩) ∨ ∃ r, s.row = some r ∧ r.serving = false

/-- places of the task that a registered node only has -/
def Task.registered : Task → Bool
  | .sleeping | .checked | .waiting .renew _ | .executed .renew _ | .committed .renew _ | .installing .renew _
  | .storing .renew _ => true
  | _ => false

structure Calm (c : Cfg) (s : St) : Prop where
  unfenced : s.fenced = false
  last : ∀ l, s.last = some l → l ≤ c.boot s.now
  registered : s.task.registered = true → s.hardDeadlineNs ≠ 0
  candidate : ∀ r d, s.task = .storing r d → d ≠ 0
  draining : Drained s ∨ s.drain ≠ .idle → s.draining = true
  apart : Drained s → s.task.renewing = false
  /-- the drain that waits finds the row as it was -/
  serving : s.drain = .waiting → ¬ Drained s ∧ s.hardDeadlineNs ≠ 0

variable {c : Cfg} {s s' : St}

theorem calm_init : Calm c init where
  unfenced := rfl
  last := by simp [init]
  registered := by simp [init, Task.registered]
  candidate := by simp [init]
  draining := by simp [init, Drained]
  apart := by simp [init, Drained]
  serving := by simp [init]

/-- in an orderly state a clock read succeeds -/
theorem Calm.clockNow (h : Calm c s) : clockNow c true s = (.ok (c.boot s.now), { s with last := some (c.boot s.now) }) := by
  rcases hl : s.last with _ | l
  · simp [Lease.clockNow, hl]
  · have hle := h.last l hl
    simp [Lease.clockNow, hl, hle]

/-- and a check of a registered node -/
theorem Calm.check (h : Calm c s) (ha : Ahead c s) (hd : s.hardDeadlineNs ≠ 0) :
    check c true s = (.ok (), { s with last := some (c.boot s.now) }) := by
  have hlt := ha.1.resolve_left hd
  have hn : ¬ (s.hardDeadlineNs = 0 ∨ s.hardDeadlineNs ≤ durationNs (c.boot s.now)) := by
    rintro (h0 | h0)
    · exact hd h0
    · omega
  simp [Lease.check, h.unfenced, h.clockNow, hn]

/-- and the deadline of a renewal in time is taken -/
theorem Calm.installDeadline (h : Calm c s) (ha : Ahead c s) {r : Request} {before : ℕ} (ht : s.task = .installing r before) :
    installDeadline c true before s = (.ok (before + c.ttl - c.margin), { s with last := some (c.boot s.now) }) := by
  have hin : c.boot s.now + c.margin < before + c.ttl := by
    have := ha.2
    rw [ht] at this
    simpa [Task.inTime] using this
  have h1 : ¬ before + c.ttl < c.margin := by omega
  have h2 : ¬ ((s.hardDeadlineNs ≠ 0 ∧ s.hardDeadlineNs ≤ durationNs (c.boot s.now)) ∨
      before + c.ttl - c.margin ≤ c.boot s.now) := by
    rintro (⟨h0, h0'⟩ | h0)
    · have := ha.1.resolve_left h0
      omega
    · omega
  simp only [Lease.installDeadline, h.unfenced, h.clockNow, if_neg h1, if_neg h2]
  rfl

/-- a clock read is kept in `last` -/
theorem Calm.read (h : Calm c s) : Calm c { s with last := some (c.boot s.now) } :=
  { h with last := fun _ hl => le_of_eq (Option.some.inj hl).symm }

/-- the task moves on, to a place that waits for no renewal -/
theorem Calm.task (h : Calm c s) {t : Task} (hreg : t.registered = true → s.hardDeadlineNs ≠ 0)
    (hcand : ∀ r d, t = .storing r d → d ≠ 0) (hap : Drained s → t.renewing = false) : Calm c { s with task := t } :=
  { h with registered := hreg, candidate := hcand, apart := hap }

/-! ## Steps -/

/-- a registered node has its row -/
theorem row_of_registered (hi : Inv c s) (hd : s.hardDeadlineNs ≠ 0) : ∃ r, s.row = some r := by
  obtain ⟨_, ⟨r, hr, -⟩, -⟩ := hi.deadline hd
  exact ⟨r, hr⟩

/-- the UPDATE of a renewal finds the row serving -/
theorem executeStep_calm (hi : Inv c s) (h : Calm c s) {r : Request} {before : ℕ} (ht : s.task = .waiting r before) :
    Calm c (executeStep c s r before) := by
  have hnot : ¬ (r = .renew ∧ s.row.all (fun row => !row.serving) = true) := by
    rintro ⟨rfl, hall⟩
    have hd : s.hardDeadlineNs ≠ 0 := h.registered (by rw [ht]; rfl)
    obtain ⟨row, hrow⟩ := row_of_registered hi hd
    have hserv : row.serving = false := by simpa [hrow] using hall
    have hren := h.apart (.inr ⟨row, hrow, hserv⟩)
    rw [ht] at hren
    simp [Task.renewing] at hren
  have hdr : Drained (executeStep c s r before) → Drained s := by
    rw [executeStep, if_neg hnot]
    rintro (⟨o, ho⟩ | hrow)
    · simp at ho
    · exact .inr hrow
  rw [executeStep, if_neg hnot] at hdr ⊢
  refine ⟨h.unfenced, h.last, fun hreg => h.registered ?_, by simp, fun hd => h.draining (hd.imp_left hdr), ?_,
    fun hw => ⟨fun hd => (h.serving hw).1 (hdr hd), (h.serving hw).2⟩⟩
  · cases r with
    | register => simp [Task.registered] at hreg
    | renew => rw [ht]; rfl
  · intro _; rfl

/-- the rows after the commit of a lease are serving, those after the commit of a drain were drained before -/
theorem commitStep_calm (h : Calm c s) {t : Txn} (hl : s.lock = some t) : Calm c (commitStep s t) := by
  obtain ⟨o, ch⟩ := t
  have hdr : ∀ s' : St, s'.row = applyChange s.row ch → s'.lock = none → Drained s' → Drained s := by
    rintro s' hrow hlock (⟨_, ho⟩ | ⟨r, hr, hserv⟩)
    · simp [hlock] at ho
    · rw [hrow] at hr
      cases ch with
      | lease u t =>
        obtain rfl := Option.some.inj hr
        simp at hserv
      | drain => exact .inl ⟨o, hl⟩
  -- the commit itself, before the owner of the transaction hears of it
  have hbase : Calm c { s with row := applyChange s.row ch, lock := none } := by
    have hd := hdr { s with row := applyChange s.row ch, lock := none } rfl rfl
    exact { h with
      draining := fun hx => h.draining (hx.imp_left hd)
      apart := fun hx => h.apart (hd hx)
      serving := fun hw => ⟨fun hx => (h.serving hw).1 (hd hx), (h.serving hw).2⟩ }
  cases o with
  | task =>
    simp only [commitStep]
    split
    · rename_i r b ht
      refine hbase.task (fun hreg => h.registered ?_) (by simp) (fun _ => rfl)
      rw [show s.task = .executed r b from ht]
      cases r with
      | register => simp [Task.registered] at hreg
      | renew => rfl
    · exact hbase
  | drain =>
    exact { hbase with
      draining := fun hx => hbase.draining (.inl (hx.resolve_right (by simp [commitStep])))
      serving := by simp [commitStep] }
  | nobody => exact hbase

/-- the UPDATE of `begin_drain` finds the row serving, with a lease that has not expired -/
theorem drainExecuteStep_calm (hdb : Bounded c) (hi : Inv c s) (h : Calm c s) (ha : Ahead c s)
    (hap : s.task.renewing = false) (hw : s.drain = .waiting) : Calm c (drainExecuteStep c s) := by
  obtain ⟨hnd, hd⟩ := h.serving hw
  obtain ⟨r, hr, hlt⟩ := lease_unexpired hdb hi hd (ha.1.resolve_left hd)
  have hserv : r.serving = true := by
    by_contra hs
    exact hnd (.inr ⟨r, hr, by simpa using hs⟩)
  have hany : s.row.any (fun row => row.serving && decide (c.db s.now < row.leaseUntil)) = true := by
    simp [hr, hserv, hlt]
  rw [drainExecuteStep, if_pos (by simpa using hany)]
  exact { h with
    draining := fun _ => h.draining (.inr (by simp [hw]))
    apart := fun _ => hap
    serving := by simp }

theorem step_calm (hdb : Bounded c) (hi : Inv c s) (h : Calm c s) {o : Op} (ho : Orderly c s o) (hap : Apart s o) :
    Calm c (step c s o) := by
  obtain ⟨ha, hok⟩ := ho
  cases o with
  | tick n =>
    refine { h with last := fun l hl => ?_ }
    have := h.last l hl
    simp only [step, Cfg.boot] at this ⊢
    omega
  | register ok =>
    obtain rfl : ok = true := hok
    simp only [step]
    split_ifs with ht
    · simp only [h.clockNow]
      exact h.read.task (by simp [Task.registered]) (by simp) (fun _ => rfl)
    · exact h
  | wake ok =>
    obtain ⟨rfl, hd⟩ : ok = true ∧ _ := hok
    simp only [step]
    split_ifs with ht
    · simp only [h.check ha hd]
      split_ifs with hdr
      · exact h.read.task (by simp [Task.registered]) (by simp) (fun _ => rfl)
      · refine h.read.task (fun _ => hd) (by simp) (fun hx => ?_)
        exact (hdr (h.draining (.inl hx))).elim
    · exact h
  | readBefore ok =>
    obtain rfl : ok = true := hok
    simp only [step]
    split_ifs with ht
    · simp only [h.clockNow]
      refine h.read.task (fun _ => h.registered (by rw [ht]; rfl)) (by simp) (fun hx => ?_)
      have := h.apart hx
      rw [ht] at this
      simp [Task.renewing] at this
    · exact h
  | execute =>
    simp only [step]
    split
    · rename_i r b ht hl
      exact executeStep_calm hi h ht
    · exact h
  | commit =>
    simp only [step]
    split
    · rename_i t hl
      exact commitStep_calm h hl
    · exact h
  | rollback => exact hok.elim
  | fail => exact hok.elim
  | reply =>
    simp only [step]
    split
    · rename_i r b ht
      refine h.task (fun hreg => h.registered ?_) (by simp) (fun _ => rfl)
      rw [ht]
      cases r with
      | register => simp [Task.registered] at hreg
      | renew => rfl
    · exact h
  | installDeadline ok =>
    obtain rfl : ok = true := hok
    simp only [step]
    split
    · rename_i r b ht
      simp only [h.installDeadline ha ht]
      have hin : c.boot s.now + c.margin < b + c.ttl := by
        have := ha.2
        rw [ht] at this
        simpa [Task.inTime] using this
      refine h.read.task (fun hreg => h.registered ?_) ?_ (fun _ => rfl)
      · rw [ht]
        cases r with
        | register => simp [Task.registered] at hreg
        | renew => rfl
      · rintro r' d ⟨⟩
        omega
    · exact h
  | storeDeadline =>
    simp only [step]
    split
    · rename_i r d ht
      have hd : durationNs d ≠ 0 := by
        have := h.candidate r d ht
        simp only [durationNs, u64Max]
        omega
      exact { h with
        registered := fun _ => hd
        candidate := by simp
        apart := fun _ => rfl
        serving := fun hw => ⟨(h.serving hw).1, hd⟩ }
    · exact h
  | beginDrain ok =>
    obtain ⟨rfl, hd, hdr⟩ : ok = true ∧ s.hardDeadlineNs ≠ 0 ∧ s.draining = false := hok
    have hnd : ¬ Drained s := fun hx => by simp [h.draining (.inl hx)] at hdr
    have h' : Calm c { s with draining := true } := { h with draining := fun _ => rfl }
    simp only [step]
    split_ifs
    · simp only [h'.check ha hd]
      exact { h'.read with draining := fun _ => rfl, serving := fun _ => ⟨hnd, hd⟩ }
    · exact h
  | drainExecute =>
    simp only [step]
    split_ifs with hc
    · exact drainExecuteStep_calm hdb hi h ha (hap rfl) hc.1
    · exact h
  | drainFail => exact hok.elim
  | hardFence => exact hok.elim
  | check ok =>
    obtain ⟨rfl, hd⟩ : ok = true ∧ _ := hok
    simp only [step, h.check ha hd]
    exact h.read

/-- **An orderly drain does not fence the node.** In a run without an error of the clock or the database and without a
reached deadline, in which the UPDATE of `begin_drain` never overtakes a renewal that has passed the draining test, the
node is not fenced in any state; while its deadline lies ahead, serving or draining, it passes `validate_releasing_node`. -/
theorem orderly_drain (c : Cfg) (hdb : Bounded c) (ops : List Op)
    (hok : Machine.Along (step c) (fun s o => Orderly c s o ∧ Apart s o) init ops) :
    ∀ pre, pre <+: ops →
      (run c init pre).fenced = false ∧
      (Ahead c (run c init pre) → (run c init pre).hardDeadlineNs ≠ 0 →
        (check c true (run c init pre)).1 = .ok () ∧
        ∃ r, (run c init pre).row = some r ∧ c.db (run c init pre).now < r.leaseUntil) := by
  rintro pre ⟨post, rfl⟩
  have hpre := ((Machine.along_append init pre post).1 hok).1
  obtain ⟨hi, h⟩ : Inv c (run c init pre) ∧ Calm c (run c init pre) :=
    Machine.run_inv_along (I := fun s => Inv c s ∧ Calm c s)
      (fun s o ho hs => ⟨step_inv hs.1 o, step_calm hdb hs.1 hs.2 ho.1 ho.2⟩) init pre hpre ⟨inv_init, calm_init⟩
  refine ⟨h.unfenced, fun ha hd => ⟨?_, lease_unexpired hdb hi hd (ha.1.resolve_left hd)⟩⟩
  rw [h.check ha hd]

/-- a node that renews once and then drains -/
def drainedOps : List Op :=
  [.register true, .execute, .commit, .reply, .installDeadline true, .storeDeadline, .tick 10, .wake true, .readBefore true,
   .execute, .commit, .beginDrain true, .reply, .drainExecute, .installDeadline true, .commit, .storeDeadline, .tick 10,
   .wake true]

theorem orderly_drain_renewed :
    Machine.Along (step sampleCfg) (fun s o => Orderly sampleCfg s o ∧ Apart s o) init drainedOps ∧
      (run sampleCfg init drainedOps).row = some ⟨30000000010, 10, false⟩ ∧ (run sampleCfg init drainedOps).fenced = false := by
  have hdb : Bounded sampleCfg := by
    intro t₁ t₂ h
    simp only [sampleCfg, Cfg.margin]
    omega
  have hok : Machine.Along (step sampleCfg) (fun s o => Orderly sampleCfg s o ∧ Apart s o) init drainedOps := by
    decide +kernel
  exact ⟨hok, by decide +kernel, (orderly_drain sampleCfg hdb drainedOps hok _ List.prefix_rfl).1⟩

/-- the drain executes and commits after the renewal has passed the draining test and before its UPDATE -/
def overtakenOps : List Op :=
  [.register true, .execute, .commit, .reply, .installDeadline true, .storeDeadline, .tick 10, .wake true, .readBefore true,
   .beginDrain true, .drainExecute, .commit, .execute]

/-- an orderly run that ends fenced -/
theorem drain_overtakes_renewal :
    ¬ ∀ ops, Machine.Along (step sampleCfg) (Orderly sampleCfg) init ops → (run sampleCfg init ops).fenced = false := by
  intro h
  have hok : Machine.Along (step sampleCfg) (Orderly sampleCfg) init overtakenOps := by decide +kernel
  have hf : (run sampleCfg init overtakenOps).fenced = true := by decide +kernel
  simp [h overtakenOps hok] at hf

/-! ## Draining is final -/

/-- the registration has executed -/
structure Begun (s : St) : Prop where
  task : s.task ≠ .unregistered
  register : ∀ before, s.task ≠ .waiting .register before

/-- a row, or one that is about to be, has its registration behind it; a lease in the lock is about no drained row -/
structure Single (s : St) : Prop where
  row : s.row.isSome = true → Begun s
  lock : s.lock.isSome = true → Begun s
  serving : ∀ o u t r, s.lock = some ⟨o, .lease u t⟩ → s.row = some r → r.serving = true

theorem single_init : Single init := ⟨by simp [init], by simp [init], by simp [init]⟩

theorem Begun.same (h : Begun s) (ht : s'.task = s.task) : Begun s' := ⟨by rw [ht]; exact h.task, by rw [ht]; exact h.register⟩

theorem begun_taskFailed (s : St) (r : Request) : Begun (taskFailed s r) := by
  cases r <;> exact ⟨by simp [taskFailed, Request.failed], by simp [taskFailed, Request.failed]⟩

theorem disown_isSome (o : Owner) (s : St) : (disown o s).lock.isSome = s.lock.isSome := by simp [disown]

theorem commitStep_begun (h : Begun s) (t : Txn) : Begun (commitStep s t) ∧ (commitStep s t).lock = none := by
  cases ho : t.owner with
  | task =>
    cases ht : s.task with
    | executed r b =>
      simp only [commitStep, ho, ht]
      exact ⟨⟨by simp, by simp⟩, trivial⟩
    | _ =>
      simp only [commitStep, ho, ht]
      exact ⟨h.same ht.symm, trivial⟩
  | drain | nobody =>
    simp only [commitStep, ho]
    exact ⟨h.same rfl, trivial⟩

theorem rollbackStep_begun (h : Begun s) (t : Txn) : Begun (rollbackStep s t) ∧ (rollbackStep s t).lock = none := by
  cases ho : t.owner with
  | task =>
    cases ht : s.task with
    | executed r b =>
      simp only [rollbackStep, ho, ht]
      exact ⟨begun_taskFailed _ r, rfl⟩
    | _ =>
      simp only [rollbackStep, ho, ht]
      exact ⟨h.same ht.symm, trivial⟩
  | drain | nobody =>
    simp only [rollbackStep, ho]
    exact ⟨h.same rfl, trivial⟩

/-- it writes neither row nor lock -/
theorem installDeadline_row (c : Cfg) (ok : Bool) (before : ℕ) (s : St) :
    (installDeadline c ok before s).2.row = s.row ∧ (installDeadline c ok before s).2.lock = s.lock := by
  unfold installDeadline
  split_ifs
  · exact ⟨rfl, rfl⟩
  · exact ⟨rfl, rfl⟩
  · rcases clockNow_spec c ok s with ⟨e, he⟩ | he
    · simp only [he]
      exact ⟨rfl, rfl⟩
    · simp only [he]
      split_ifs <;> exact ⟨rfl, rfl⟩

/-- the row stays, and so does the lock up to its owner -/
structure Kept (s s' : St) : Prop where
  row : s'.row = s.row
  lock : s'.lock = s.lock ∨ ∃ w, s'.lock = (disown w s).lock
  begun : Begun s → Begun s'

theorem Kept.same (hr : s'.row = s.row) (hl : s'.lock = s.lock) (ht : Begun s → Begun s') : Kept s s' := ⟨hr, Or.inl hl, ht⟩

/-- a transaction executes: it is a registration, a renewal of a serving row or a drain of a row -/
structure Locks (s s' : St) : Prop where
  row : s'.row = s.row
  begun : Begun s' ∨ s.row.isSome = true ∧ (Begun s → Begun s')
  serving : ∀ o u t r, s'.lock = some ⟨o, .lease u t⟩ → s.row = some r →
    r.serving = true ∨ ∃ before, s.task = .waiting .register before

/-- a transaction ends: it is applied or dropped -/
structure Ends (s s' : St) (t : Txn) : Prop where
  held : s.lock = some t
  row : s'.row = applyChange s.row t.change ∨ s'.row = s.row
  lock : s'.lock = none
  begun : Begun s → Begun s'

theorem commitStep_ends {t : Txn} (hl : s.lock = some t) : Ends s (commitStep s t) t := by
  refine ⟨hl, Or.inl ?_, ?_, fun h => (commitStep_begun h t).1⟩
  · cases ho : t.owner with
    | task => cases ht : s.task <;> simp only [commitStep, ho, ht]
    | drain | nobody => simp only [commitStep, ho]
  · cases ho : t.owner with
    | task => cases ht : s.task <;> simp only [commitStep, ho, ht]
    | drain | nobody => simp only [commitStep, ho]

theorem rollbackStep_ends {t : Txn} (hl : s.lock = some t) : Ends s (rollbackStep s t) t := by
  refine ⟨hl, Or.inr ?_, ?_, fun h => (rollbackStep_begun h t).1⟩
  · cases ho : t.owner with
    | task => cases ht : s.task <;> simp only [rollbackStep, ho, ht, taskFailed]
    | drain | nobody => simp only [rollbackStep, ho]
  · cases ho : t.owner with
    | task => cases ht : s.task <;> simp only [rollbackStep, ho, ht, taskFailed]
    | drain | nobody => simp only [rollbackStep, ho]

/-- what a step can do to the row, the lock and the registration -/
theorem step_cases (c : Cfg) (s : St) (o : Op) :
    Kept s (step c s o) ∨ Locks s (step c s o) ∨ ∃ t, Ends s (step c s o) t := by
  have hrefl : Kept s s := Kept.same rfl rfl id
  have htask : ∀ {s' : St}, s'.row = s.row → s'.lock = s.lock → s'.task = s.task → Kept s s' := fun hr hl ht =>
    Kept.same hr hl fun hb => hb.same ht
  cases o with
  | tick n | hardFence => exact Or.inl (htask rfl rfl rfl)
  | register ok =>
    refine Or.inl ?_
    simp only [step]
    split_ifs with ht
    · have hnb : ¬ Begun s := fun hb => hb.task ht
      rcases clockNow_spec c ok s with ⟨e, he⟩ | he <;> rw [he]
      · exact Kept.same rfl rfl fun hb => (hnb hb).elim
      · exact Kept.same rfl rfl fun hb => (hnb hb).elim
    · exact hrefl
  | wake ok =>
    refine Or.inl ?_
    simp only [step]
    split_ifs with ht
    · rcases check_spec c ok s with he | he | ⟨he, -⟩ <;> rw [he]
      · exact Kept.same rfl rfl fun _ => ⟨by simp, by simp⟩
      · exact Kept.same rfl rfl fun _ => ⟨by simp, by simp⟩
      · exact Kept.same rfl rfl fun _ => ⟨by dsimp only; split_ifs <;> simp, by dsimp only; split_ifs <;> simp⟩
    · exact hrefl
  | readBefore ok =>
    refine Or.inl ?_
    simp only [step]
    split_ifs with ht
    · rcases clockNow_spec c ok s with ⟨e, he⟩ | he <;> rw [he]
      · exact Kept.same rfl rfl fun _ => ⟨by simp, by simp⟩
      · exact Kept.same rfl rfl fun _ => ⟨by simp, by simp⟩
    · exact hrefl
  | execute =>
    simp only [step]
    split
    · rename_i r before ht hl
      unfold executeStep
      split_ifs with hc
      · exact Or.inl (Kept.same rfl rfl fun _ => ⟨by simp, by simp⟩)
      · refine Or.inr (Or.inl ⟨rfl, Or.inl ⟨by simp, by simp⟩, fun o u t row _ hrow => ?_⟩)
        cases r with
        | register => exact Or.inr ⟨before, ht⟩
        | renew =>
          rw [hrow] at hc
          exact Or.inl (by simpa using hc)
    · exact Or.inl hrefl
  | commit =>
    simp only [step]
    split
    · rename_i t hl
      exact Or.inr (Or.inr ⟨t, commitStep_ends hl⟩)
    · exact Or.inl hrefl
  | rollback =>
    simp only [step]
    split
    · rename_i t hl
      exact Or.inr (Or.inr ⟨t, rollbackStep_ends hl⟩)
    · exact Or.inl hrefl
  | fail =>
    refine Or.inl ?_
    simp only [step]
    split
    · exact Kept.same rfl rfl fun _ => begun_taskFailed s _
    · exact ⟨rfl, Or.inr ⟨.task, rfl⟩, fun _ => begun_taskFailed _ _⟩
    · exact Kept.same rfl rfl fun _ => begun_taskFailed s _
    · exact hrefl
  | reply | storeDeadline =>
    refine Or.inl ?_
    simp only [step]
    split
    · exact Kept.same rfl rfl fun _ => ⟨by simp, by simp⟩
    · exact hrefl
  | installDeadline ok =>
    refine Or.inl ?_
    simp only [step]
    split
    · rename_i r before ht
      have hspec := installDeadline_row c ok before s
      split
      · rename_i candidate s' he
        rw [he] at hspec
        exact Kept.same hspec.1 hspec.2 fun _ => ⟨by simp, by simp⟩
      · rename_i e s' he
        rw [he] at hspec
        exact Kept.same hspec.1 hspec.2 fun _ => ⟨by simp, by simp⟩
    · exact hrefl
  | beginDrain ok =>
    refine Or.inl ?_
    simp only [step]
    split_ifs
    · rcases check_spec c ok { s with draining := true } with he | he | ⟨he, -⟩ <;> rw [he] <;> exact htask rfl rfl rfl
    · exact hrefl
  | drainExecute =>
    simp only [step]
    split_ifs with hd
    · unfold drainExecuteStep
      split_ifs with hrow
      · obtain ⟨r, hr, -⟩ := (Option.any_eq_true _ _).1 hrow
        exact Or.inr (Or.inl ⟨rfl, Or.inr ⟨by rw [hr]; rfl, fun hb => hb.same rfl⟩, by simp⟩)
      · exact Or.inl (htask rfl rfl rfl)
    · exact Or.inl hrefl
  | drainFail =>
    refine Or.inl ?_
    simp only [step]
    split_ifs
    · exact hrefl
    · exact ⟨rfl, Or.inr ⟨.drain, rfl⟩, fun hb => hb.same rfl⟩
  | check ok =>
    refine Or.inl ?_
    simp only [step]
    rcases check_spec c ok s with he | he | ⟨he, -⟩ <;> rw [he] <;> exact htask rfl rfl rfl

theorem step_single (h : Single s) (o : Op) : Single (step c s o) := by
  rcases step_cases c s o with hk | hl | ⟨t, he⟩
  · refine ⟨fun hs => hk.begun (h.row (hk.row ▸ hs)), fun hs => hk.begun (h.lock ?_), fun o' u t r hlock hrow => ?_⟩
    · rcases hk.lock with hsame | ⟨w, hw⟩
      · rwa [hsame] at hs
      · rwa [hw, disown_isSome] at hs
    · rw [hk.row] at hrow
      rcases hk.lock with hsame | ⟨w, hw⟩
      · exact h.serving o' u t r (hsame ▸ hlock) hrow
      · rw [hw] at hlock
        obtain ⟨x, hx⟩ : ∃ x, s.lock = some ⟨x, .lease u t⟩ := disown_lock hlock
        exact h.serving x u t r hx hrow
  · have hb : Begun (step c s o) := by
      rcases hl.begun with hb | ⟨hsome, hb⟩
      · exact hb
      · exact hb (h.row hsome)
    refine ⟨fun _ => hb, fun _ => hb, fun o' u t r hlock hrow => ?_⟩
    rw [hl.row] at hrow
    rcases hl.serving o' u t r hlock hrow with hs | ⟨before, ht⟩
    · exact hs
    · exact ((h.row (by rw [hrow]; rfl)).register before ht).elim
  · have hb : Begun (step c s o) := he.begun (h.lock (by rw [he.held]; rfl))
    exact ⟨fun _ => hb, fun _ => hb, by simp [he.lock]⟩

/-- what a step does to a row that is drained -/
theorem step_drained (h : Single s) (o : Op) (hd : ∃ r, s.row = some r ∧ r.serving = false) :
    ∃ r, (step c s o).row = some r ∧ r.serving = false := by
  obtain ⟨r, hr, hserving⟩ := hd
  rcases step_cases c s o with hk | hl | ⟨t, he⟩
  · exact ⟨r, hk.row.trans hr, hserving⟩
  · exact ⟨r, hl.row.trans hr, hserving⟩
  · rcases he.row with hrow | hrow
    · cases hc : t.change with
      | lease u t' =>
        have hl' : s.lock = some ⟨t.owner, .lease u t'⟩ := by rw [he.held, ← hc]
        rw [h.serving _ u t' r hl' hr] at hserving
        cases hserving
      | drain => exact ⟨{ r with serving := false }, by rw [hrow, hc, hr]; rfl, rfl⟩
    · exact ⟨r, hrow.trans hr, hserving⟩

/-- **Draining is final.** Once the row of a node is draining, no later step of any run makes it serving again, or removes it. -/
theorem drained_forever (c : Cfg) (pre post : List Op) (h : ∃ r, (run c init pre).row = some r ∧ r.serving = false) :
    ∃ r, (run c init (pre ++ post)).row = some r ∧ r.serving = false := by
  have hsingle := Machine.run_inv (I := Single) (fun _ o h => step_single (c := c) h o) init pre single_init
  have hrun : run c init (pre ++ post) = run c (run c init pre) post := Machine.run_append init pre post
  rw [hrun]
  have hkept := Machine.run_inv (I := fun s => Single s ∧ ∃ r, s.row = some r ∧ r.serving = false)
    (fun _ o h => ⟨step_single (c := c) h.1 o, step_drained h.1 o h.2⟩) (run c init pre) post ⟨hsingle, h⟩
  exact hkept.2

/-- a renewal that is tried after the drain -/
theorem drained_forever_renewed :
    ∃ r, (run sampleCfg init (drainedOps ++ [.wake true, .readBefore true, .execute, .commit])).row = some r ∧ r.serving = false := by
  have hd : (run sampleCfg init drainedOps).row = some ⟨30000000010, 10, false⟩ := by decide +kernel
  exact drained_forever sampleCfg drainedOps [.wake true, .readBefore true, .execute, .commit] ⟨_, hd, rfl⟩

end OwlMux.Lease
