/-
The node lease of one Server incarnation (`owlmux-server/src/deployment.rs`, `owlmux-server/src/clock.rs`): `register`,
`run_renewals`, `begin_drain`, `hard_fence` and `check`, against the `server_nodes` row of the incarnation.

Time is real time in nanoseconds. The boot clock runs at the rate of real time from an arbitrary offset; a read of it may
fail. The database clock is an arbitrary function `db` of real time.

Every transaction begins by locking the deployment row (`validate_deployment .. FOR UPDATE`), so at most one transaction of
the incarnation has executed its statement and not ended: `lock`. A statement takes `clock_timestamp()` when it executes,
which may be long after the request; the transaction then commits or rolls back, and the reply may be lost. A task that
sees an error leaves its transaction to nobody, and it may still commit. Between any two steps any time may pass.

`setAt`, the real time at which the stored lease was computed, is history: no step reads it.

Results:
- `run_inv`: whatever deadline is installed, the stored lease was computed at or after the read that it was derived from;
- `lease_safety`: a successful check implies that the stored lease has not expired on the database clock, and an error or
  a fence is for ever.
Premise: `Bounded`, the database clock gains at most the safety margin on real time between any two moments.
-/
import Mathlib.Tactic
import OwlMux.Lib.Machine

namespace OwlMux.Lease

/-! ## Model -/

structure Cfg where
  ttlSeconds : ℕ
  marginSeconds : ℕ
  /-- boot time at real time 0 -/
  boot0 : ℕ
  /-- `clock_timestamp()` at a real time, in nanoseconds -/
  db : ℕ → ℤ

namespace Cfg

def ttl (c : Cfg) : ℕ := c.ttlSeconds * 10 ^ 9
def margin (c : Cfg) : ℕ := c.marginSeconds * 10 ^ 9
def boot (c : Cfg) (t : ℕ) : ℕ := c.boot0 + t

end Cfg

/-- the database clock may step backwards freely, forwards by at most the margin -/
def Bounded (c : Cfg) : Prop := ∀ t₁ t₂ : ℕ, t₁ ≤ t₂ → c.db t₂ - c.db t₁ ≤ ((t₂ - t₁ : ℕ) : ℤ) + c.margin

inductive LeaseError where
  | fenced
  | database
  | configurationMismatch
deriving DecidableEq, Repr

inductive ClockError where
  | unavailable
  | movedBackwards
deriving DecidableEq, Repr

/-- the row of this incarnation in `server_nodes` -/
structure Row where
  leaseUntil : ℤ
  setAt : ℕ
  /-- state = 'serving'; otherwise 'draining' -/
  serving : Bool
deriving DecidableEq, Repr

/-- what an open transaction will do to the row -/
inductive Change where
  | lease (leaseUntil : ℤ) (setAt : ℕ)
  | drain
deriving DecidableEq, Repr

/-- who waits for the end of a transaction -/
inductive Owner where
  | task
  | drain
  | nobody
deriving DecidableEq, Repr

structure Txn where
  owner : Owner
  change : Change
deriving DecidableEq, Repr

inductive Request where
  | register
  | renew
deriving DecidableEq, Repr

/-- where `register` and then `run_renewals` are -/
inductive Task where
  | unregistered
  | sleeping
  /-- past `check` and the draining flag, before the clock is read -/
  | checked
  | waiting (r : Request) (before : ℕ)
  | executed (r : Request) (before : ℕ)
  | committed (r : Request) (before : ℕ)
  | installing (r : Request) (before : ℕ)
  | storing (r : Request) (candidate : ℕ)
  | stopped
deriving DecidableEq, Repr

inductive Drain where
  | idle
  | waiting
  | executed
deriving DecidableEq, Repr

structure St where
  now : ℕ
  /-- `BootClock::last` -/
  last : Option ℕ
  hardDeadlineNs : ℕ
  fenced : Bool
  draining : Bool
  dependencyReady : Bool
  row : Option Row
  lock : Option Txn
  task : Task
  drain : Drain
deriving DecidableEq, Repr

def init : St :=
  { now := 0, last := none, hardDeadlineNs := 0, fenced := false, draining := false, dependencyReady := true,
    row := none, lock := none, task := .unregistered, drain := .idle }

def u64Max : ℕ := 2 ^ 64 - 1

/-- `duration_ns`: saturates -/
def durationNs (d : ℕ) : ℕ := min d u64Max

/-- `BootClock::now`; `ok`: the platform clock can be read -/
def clockNow (c : Cfg) (ok : Bool) (s : St) : Except ClockError ℕ × St :=
  if !ok then (.error .unavailable, s)
  else if s.last.any (fun previous => c.boot s.now < previous) then (.error .movedBackwards, s)
  else (.ok (c.boot s.now), { s with last := some (c.boot s.now) })

def fence (s : St) : St := { s with fenced := true }

/-- `NodeLease::check` -/
def check (c : Cfg) (ok : Bool) (s : St) : Except LeaseError Unit × St :=
  if s.fenced then (.error .fenced, s)
  else
    match clockNow c ok s with
    | (.error _, s) => (.error .fenced, fence s)
    | (.ok now, s) =>
      if s.hardDeadlineNs = 0 ∨ s.hardDeadlineNs ≤ durationNs now then (.error .fenced, fence s) else (.ok (), s)

/-- `install_deadline` up to the store: the candidate, or an error -/
def installDeadline (c : Cfg) (ok : Bool) (before : ℕ) (s : St) : Except LeaseError ℕ × St :=
  if s.fenced then (.error .fenced, s)
  else if before + c.ttl < c.margin then (.error .fenced, fence s)
  else
    match clockNow c ok s with
    | (.error _, s) => (.error .fenced, fence s)
    | (.ok now, s) =>
      if (s.hardDeadlineNs ≠ 0 ∧ s.hardDeadlineNs ≤ durationNs now) ∨ before + c.ttl - c.margin ≤ now then
        (.error .fenced, fence s)
      else (.ok (before + c.ttl - c.margin), s)

inductive Op where
  | tick (n : ℕ)
  /-- `register` reads the clock and begins its transaction -/
  | register (clock : Bool)
  /-- one turn of `run_renewals`, up to the draining test -/
  | wake (clock : Bool)
  | readBefore (clock : Bool)
  /-- the row lock is granted and the INSERT or UPDATE executes -/
  | execute
  /-- the open transaction commits, or is rolled back -/
  | commit
  | rollback
  /-- the task sees an error, whatever became of its transaction -/
  | fail
  | reply
  | installDeadline (clock : Bool)
  | storeDeadline
  | beginDrain (clock : Bool)
  | drainExecute
  | drainFail
  | hardFence
  | check (clock : Bool)
deriving DecidableEq, Repr

/-- a failed registration gives up, a failed renewal is retried -/
def Request.failed : Request → Task
  | .register => .stopped
  | .renew => .sleeping

/-- the task gives up its request -/
def taskFailed (s : St) (r : Request) : St := { s with task := r.failed, dependencyReady := false }

/-- the transactions of `o` are nobody's -/
def disown (o : Owner) (s : St) : St :=
  { s with lock := s.lock.map fun t => if t.owner = o then { t with owner := .nobody } else t }

def applyChange (row : Option Row) : Change → Option Row
  | .lease u t => some { leaseUntil := u, setAt := t, serving := true }
  | .drain => row.map fun r => { r with serving := false }

/-- INSERT of `register_database`, UPDATE of `renew_database` -/
def executeStep (c : Cfg) (s : St) (r : Request) (before : ℕ) : St :=
  if r = .renew ∧ s.row.all (fun row => !row.serving) then { fence s with task := .sleeping, dependencyReady := false }
  else
    { s with
      lock := some ⟨.task, .lease (c.db s.now + c.ttl) s.now⟩
      task := .executed r before }

def commitStep (s : St) (t : Txn) : St :=
  let s := { s with row := applyChange s.row t.change, lock := none }
  match t.owner with
  | .task =>
    match s.task with
    | .executed r before => { s with task := .committed r before }
    | _ => s
  | .drain => { s with drain := .idle }
  | .nobody => s

def rollbackStep (s : St) (t : Txn) : St :=
  let s := { s with lock := none }
  match t.owner with
  | .task =>
    match s.task with
    | .executed r _ => taskFailed s r
    | _ => s
  | .drain => { s with drain := .idle }
  | .nobody => s

/-- UPDATE of `begin_drain` -/
def drainExecuteStep (c : Cfg) (s : St) : St :=
  if s.row.any (fun row => row.serving && c.db s.now < row.leaseUntil) then
    { s with lock := some ⟨.drain, .drain⟩, drain := .executed }
  else { fence s with drain := .idle }

def step (c : Cfg) (s : St) : Op → St
  | .tick n => { s with now := s.now + n }
  | .register ok =>
    if s.task = .unregistered then
      match clockNow c ok s with
      | (.ok before, s) => { s with task := .waiting .register before }
      | (.error _, s) => { s with task := .stopped }
    else s
  | .wake ok =>
    if s.task = .sleeping then
      match check c ok s with
      | (.ok (), s) => { s with task := if s.draining then .stopped else .checked }
      | (.error _, s) => { s with task := .stopped }
    else s
  | .readBefore ok =>
    if s.task = .checked then
      match clockNow c ok s with
      | (.ok before, s) => { s with task := .waiting .renew before }
      | (.error _, s) => { fence s with task := .stopped }
    else s
  | .execute =>
    match s.task, s.lock with
    | .waiting r before, none => executeStep c s r before
    | _, _ => s
  | .commit =>
    match s.lock with
    | some t => commitStep s t
    | none => s
  | .rollback =>
    match s.lock with
    | some t => rollbackStep s t
    | none => s
  | .fail =>
    match s.task with
    | .waiting r _ => taskFailed s r
    | .executed r _ => taskFailed (disown .task s) r
    | .committed r _ => taskFailed s r
    | _ => s
  | .reply =>
    match s.task with
    | .committed r before => { s with task := .installing r before }
    | _ => s
  | .installDeadline ok =>
    match s.task with
    | .installing r before =>
      match installDeadline c ok before s with
      | (.ok candidate, s) => { s with task := .storing r candidate }
      | (.error _, s) => { s with task := .stopped, dependencyReady := false }
    | _ => s
  | .storeDeadline =>
    match s.task with
    | .storing _ candidate =>
      { s with hardDeadlineNs := durationNs candidate, task := .sleeping, dependencyReady := true }
    | _ => s
  | .beginDrain ok =>
    if s.drain = .idle then
      match check c ok { s with draining := true } with
      | (.ok (), s) => { s with drain := .waiting }
      | (.error _, s) => s
    else s
  | .drainExecute => if s.drain = .waiting ∧ s.lock = none then drainExecuteStep c s else s
  | .drainFail => if s.drain = .idle then s else { disown .drain s with drain := .idle }
  | .hardFence => fence s
  | .check ok => (check c ok s).2

def run (c : Cfg) (s : St) (ops : List Op) : St := Machine.run (step c) s ops

/-! ## Invariant -/

/-- the stored lease was computed at or after the moment the boot clock read `before` -/
def Covered (c : Cfg) (s : St) (before : ℕ) : Prop := ∃ r, s.row = some r ∧ before ≤ c.boot r.setAt

/-- a deadline that leaves the margin before the end of a covered lease -/
def Safe (c : Cfg) (s : St) (deadline : ℕ) : Prop := ∃ before, Covered c s before ∧ deadline + c.margin ≤ before + c.ttl

/-- what the task holds at its place -/
def TaskOk (c : Cfg) (s : St) : Task → Prop
  | .waiting _ before => before ≤ c.boot s.now
  | .executed _ before => ∃ u t, s.lock = some ⟨.task, .lease u t⟩ ∧ before ≤ c.boot t
  | .committed _ before => Covered c s before
  | .installing _ before => Covered c s before
  | .storing _ candidate => Safe c s candidate
  | _ => True

structure Inv (c : Cfg) (s : St) : Prop where
  row : ∀ r, s.row = some r → r.leaseUntil = c.db r.setAt + c.ttl ∧ r.setAt ≤ s.now
  lock : ∀ o u t, s.lock = some ⟨o, .lease u t⟩ →
    u = c.db t + c.ttl ∧ t ≤ s.now ∧ ∀ r, s.row = some r → r.setAt ≤ t
  task : TaskOk c s s.task
  deadline : s.hardDeadlineNs ≠ 0 → Safe c s s.hardDeadlineNs
  deadline_le : s.hardDeadlineNs ≤ u64Max

variable {c : Cfg} {s s' : St}

theorem inv_init : Inv c init := by constructor <;> simp [init, TaskOk]

theorem Covered.congr {before : ℕ} (h : Covered c s before) (hr : s'.row = s.row) : Covered c s' before := by
  obtain ⟨r, h1, h2⟩ := h; exact ⟨r, hr.trans h1, h2⟩

theorem Safe.congr {d : ℕ} (h : Safe c s d) (hr : s'.row = s.row) : Safe c s' d := by
  obtain ⟨b, h1, h2⟩ := h; exact ⟨b, h1.congr hr, h2⟩

/-- a task that waits for nothing but the row can be kept -/
theorem TaskOk.congr {t : Task} (h : TaskOk c s t) (hn : s.now ≤ s'.now) (hr : s'.row = s.row)
    (hl : s'.lock = s.lock) : TaskOk c s' t := by
  cases t with
  | waiting r b => exact le_trans h (Nat.add_le_add_left hn _)
  | executed r b =>
    obtain ⟨u, t, h1, h2⟩ := h; exact ⟨u, t, hl.trans h1, h2⟩
  | committed r b | installing r b => exact Covered.congr h hr
  | storing r d => exact Safe.congr h hr
  | _ => trivial

/-- steps that touch neither the row, the lock nor the deadline: time, flags, clock reads, and a task moved on -/
theorem Inv.congr (h : Inv c s) (hn : s.now ≤ s'.now) (hr : s'.row = s.row) (hl : s'.lock = s.lock)
    (hd : s'.hardDeadlineNs = s.hardDeadlineNs) (ht : TaskOk c s' s'.task) : Inv c s' := by
  refine ⟨fun r e => ?_, fun o u t e => ?_, ht, fun e => ?_, hd ▸ h.deadline_le⟩
  · rw [hr] at e; exact ⟨(h.row r e).1, le_trans (h.row r e).2 hn⟩
  · rw [hl] at e; rw [hr]
    exact ⟨(h.lock o u t e).1, le_trans (h.lock o u t e).2.1 hn, (h.lock o u t e).2.2⟩
  · rw [hd] at e ⊢; exact (h.deadline e).congr hr

/-! ## The clock and the fence -/

/-- a clock read changes only `last`, and reads the boot time -/
theorem clockNow_spec (c : Cfg) (ok : Bool) (s : St) :
    (∃ e, clockNow c ok s = (.error e, s)) ∨ clockNow c ok s = (.ok (c.boot s.now), { s with last := some (c.boot s.now) }) := by
  unfold clockNow
  split_ifs
  · exact Or.inl ⟨_, rfl⟩
  · exact Or.inl ⟨_, rfl⟩
  · exact Or.inr rfl

/-- `check` fails and fences, or the deadline lies ahead -/
theorem check_spec (c : Cfg) (ok : Bool) (s : St) :
    (check c ok s = (.error .fenced, fence s)) ∨ (check c ok s = (.error .fenced, fence { s with last := some (c.boot s.now) })) ∨
    (check c ok s = (.ok (), { s with last := some (c.boot s.now) }) ∧ s.fenced = false ∧ s.hardDeadlineNs ≠ 0 ∧
      durationNs (c.boot s.now) < s.hardDeadlineNs) := by
  unfold check
  by_cases hf : s.fenced = true
  · left
    rw [if_pos hf]
    exact congrArg (Prod.mk _) (by simp [fence, ← hf])
  · rw [if_neg hf]
    rcases clockNow_spec c ok s with ⟨e, he⟩ | he
    · left; simp only [he]
    · simp only [he]
      split_ifs with hd
      · exact Or.inr (Or.inl rfl)
      · rw [not_or, not_le] at hd
        exact Or.inr (Or.inr ⟨rfl, by simpa using hf, hd.1, hd.2⟩)

theorem installDeadline_spec (c : Cfg) (ok : Bool) (before : ℕ) (s : St) :
    (∃ s', installDeadline c ok before s = (.error .fenced, s') ∧ s'.now = s.now ∧ s'.row = s.row ∧ s'.lock = s.lock ∧
      s'.hardDeadlineNs = s.hardDeadlineNs) ∨
    (installDeadline c ok before s = (.ok (before + c.ttl - c.margin), { s with last := some (c.boot s.now) }) ∧
      c.margin ≤ before + c.ttl) := by
  unfold installDeadline
  split_ifs with h1 h2
  · exact Or.inl ⟨s, rfl, rfl, rfl, rfl, rfl⟩
  · exact Or.inl ⟨_, rfl, rfl, rfl, rfl, rfl⟩
  · rcases clockNow_spec c ok s with ⟨e, he⟩ | he
    · simp only [he]; exact Or.inl ⟨_, rfl, rfl, rfl, rfl, rfl⟩
    · simp only [he]
      split_ifs
      · exact Or.inl ⟨_, rfl, rfl, rfl, rfl, rfl⟩
      · exact Or.inr ⟨rfl, by omega⟩

/-! ## Steps -/

theorem Covered.commit {before : ℕ} (h : Covered c s before) {ch : Change}
    (hm : ∀ u t, ch = .lease u t → ∀ r, s.row = some r → r.setAt ≤ t) :
    ∃ r, applyChange s.row ch = some r ∧ before ≤ c.boot r.setAt := by
  obtain ⟨r, h1, h2⟩ := h
  cases ch with
  | lease u t => exact ⟨_, rfl, le_trans h2 (Nat.add_le_add_left (hm u t rfl r h1) _)⟩
  | drain => exact ⟨{ r with serving := false }, by simp [applyChange, h1], h2⟩

/-- the open transaction commits: the stored lease only gets younger -/
theorem commitStep_inv (h : Inv c s) {t : Txn} (hl : s.lock = some t) : Inv c (commitStep s t) := by
  obtain ⟨o, ch⟩ := t
  have hm : ∀ u t, ch = .lease u t → ∀ r, s.row = some r → r.setAt ≤ t := by
    rintro u t rfl; exact (h.lock o u t hl).2.2
  have hrow : ∀ r, applyChange s.row ch = some r → r.leaseUntil = c.db r.setAt + c.ttl ∧ r.setAt ≤ s.now := by
    intro r hr
    cases ch with
    | lease u t =>
      obtain rfl := Option.some.inj hr
      exact ⟨(h.lock o u t hl).1, (h.lock o u t hl).2.1⟩
    | drain =>
      obtain ⟨r', h1, rfl⟩ := Option.map_eq_some_iff.1 hr
      exact h.row r' h1
  have hsafe : ∀ d, Safe c s d → ∃ b, (∃ r, applyChange s.row ch = some r ∧ b ≤ c.boot r.setAt) ∧ d + c.margin ≤ b + c.ttl := by
    rintro d ⟨b, hc, hd⟩; exact ⟨b, hc.commit hm, hd⟩
  -- the task after the commit: only an executed request of its own moves on
  have htask : TaskOk c (commitStep s ⟨o, ch⟩) (commitStep s ⟨o, ch⟩).task := by
    have hother : ∀ x, (∀ r b, x ≠ Task.executed r b) → TaskOk c s x →
        TaskOk c { s with row := applyChange s.row ch, lock := none } x := by
      intro x hx hk
      cases x with
      | executed r b => exact (hx r b rfl).elim
      | waiting r b => exact hk
      | committed r b | installing r b => exact Covered.commit hk hm
      | storing r d => exact hsafe d hk
      | _ => trivial
    have hk := h.task
    cases ht : s.task with
    | executed r b =>
      rw [ht] at hk
      obtain ⟨u, t, h1, h2⟩ := hk
      obtain ⟨rfl, rfl⟩ : Owner.task = o ∧ Change.lease u t = ch := by simpa [h1] using hl
      simp only [commitStep, ht]
      exact ⟨_, rfl, h2⟩
    | _ =>
      rw [ht] at hk
      have := hother _ (by simp) hk
      cases o <;> simp only [commitStep, ht] <;> exact this
  refine ⟨?_, ?_, htask, ?_, ?_⟩
  · cases o
    · simp only [commitStep]; split <;> exact hrow
    · exact hrow
    · exact hrow
  · cases o
    · simp only [commitStep]; split <;> simp
    · simp [commitStep]
    · simp [commitStep]
  · cases o
    · simp only [commitStep]; split <;> exact fun hd => hsafe _ (h.deadline hd)
    · exact fun hd => hsafe _ (h.deadline hd)
    · exact fun hd => hsafe _ (h.deadline hd)
  · cases o
    · simp only [commitStep]; split <;> exact h.deadline_le
    · exact h.deadline_le
    · exact h.deadline_le

theorem executeStep_inv (h : Inv c s) {r : Request} {before : ℕ} (ht : s.task = .waiting r before) :
    Inv c (executeStep c s r before) := by
  have hk : before ≤ c.boot s.now := by have := h.task; rwa [ht] at this
  unfold executeStep
  split_ifs
  · exact h.congr le_rfl rfl rfl rfl trivial
  · refine { h with lock := fun o u t e => ?_, task := ⟨_, _, rfl, hk⟩ }
    obtain ⟨rfl, rfl, rfl⟩ : Owner.task = o ∧ c.db s.now + c.ttl = u ∧ s.now = t := by simpa using e
    exact ⟨rfl, le_rfl, fun r' hr' => (h.row r' hr').2⟩

/-- a transaction ends without effect, or loses its owner: the task is not waiting for it any more -/
theorem Inv.unlock (h : Inv c s) (hr : s'.row = s.row) (hn : s'.now = s.now) (hd : s'.hardDeadlineNs = s.hardDeadlineNs)
    (hl : ∀ o u t, s'.lock = some ⟨o, .lease u t⟩ → ∃ o', s.lock = some ⟨o', .lease u t⟩) (ht : TaskOk c s' s'.task) :
    Inv c s' := by
  refine ⟨fun r e => ?_, fun o u t e => ?_, ht, fun e => ?_, hd ▸ h.deadline_le⟩
  · rw [hr] at e; rw [hn]; exact h.row r e
  · obtain ⟨o', e'⟩ := hl o u t e
    rw [hr, hn]; exact h.lock o' u t e'
  · rw [hd] at e ⊢; exact (h.deadline e).congr hr

theorem disown_lock {o o' : Owner} {u : ℤ} {t : ℕ} (e : (disown o s).lock = some ⟨o', .lease u t⟩) :
    ∃ o'', s.lock = some ⟨o'', .lease u t⟩ := by
  obtain ⟨⟨o1, c1⟩, h1, h2⟩ := Option.map_eq_some_iff.1 e
  refine ⟨o1, ?_⟩
  split_ifs at h2
  · obtain rfl : c1 = .lease u t := by simpa using (congrArg Txn.change h2)
    exact h1
  · obtain rfl : c1 = .lease u t := by simpa using (congrArg Txn.change h2)
    exact h1

theorem rollbackStep_inv (h : Inv c s) {t : Txn} (hl : s.lock = some t) : Inv c (rollbackStep s t) := by
  have hk := h.task
  obtain ⟨o, ch⟩ := t
  have keep : ∀ x, (∀ r b, x ≠ Task.executed r b) → TaskOk c s x → TaskOk c { s with lock := none } x := by
    intro x hx hk
    cases x with
    | executed r b => exact (hx r b rfl).elim
    | _ => exact hk
  cases ht : s.task with
  | executed r b =>
    rw [ht] at hk
    obtain ⟨u, v, h1, -⟩ := hk
    obtain ⟨rfl, rfl⟩ : Owner.task = o ∧ Change.lease u v = ch := by simpa [h1] using hl
    refine h.unlock ?_ ?_ ?_ ?_ ?_ <;> simp only [rollbackStep, ht, taskFailed]
    · simp
    · cases r <;> trivial
  | _ =>
    rw [ht] at hk
    have := keep _ (by simp) hk
    cases o <;> refine h.unlock ?_ ?_ ?_ ?_ ?_ <;> simp only [rollbackStep, ht] <;> first | exact this | simp

theorem taskFailed_ok (s : St) (r : Request) : TaskOk c (taskFailed s r) (taskFailed s r).task := by
  cases r <;> trivial

theorem step_inv (h : Inv c s) (o : Op) : Inv c (step c s o) := by
  have hk := h.task
  have keep : ∀ s', s.now ≤ s'.now → s'.row = s.row → s'.lock = s.lock → s'.task = s.task → TaskOk c s' s'.task :=
    fun s' hn hr hl ht => by rw [ht]; exact hk.congr hn hr hl
  cases o with
  | tick n => exact h.congr (Nat.le_add_right _ _) rfl rfl rfl (keep _ (Nat.le_add_right _ _) rfl rfl rfl)
  | register ok =>
    simp only [step]; split_ifs
    · rcases clockNow_spec c ok s with ⟨e, he⟩ | he <;> rw [he]
      · exact h.congr le_rfl rfl rfl rfl trivial
      · exact h.congr le_rfl rfl rfl rfl le_rfl
    · exact h
  | wake ok =>
    simp only [step]; split_ifs
    · rcases check_spec c ok s with he | he | ⟨he, -⟩ <;> rw [he]
      · exact h.congr le_rfl rfl rfl rfl trivial
      · exact h.congr le_rfl rfl rfl rfl trivial
      · refine h.congr le_rfl rfl rfl rfl ?_
        dsimp only; split_ifs <;> trivial
    · exact h
  | readBefore ok =>
    simp only [step]; split_ifs
    · rcases clockNow_spec c ok s with ⟨e, he⟩ | he <;> rw [he]
      · exact h.congr le_rfl rfl rfl rfl trivial
      · exact h.congr le_rfl rfl rfl rfl le_rfl
    · exact h
  | execute =>
    simp only [step]
    split
    · rename_i r b ht hl; exact executeStep_inv h ht
    · exact h
  | commit =>
    simp only [step]
    split
    · rename_i t hl; exact commitStep_inv h hl
    · exact h
  | rollback =>
    simp only [step]
    split
    · rename_i t hl; exact rollbackStep_inv h hl
    · exact h
  | fail =>
    simp only [step]
    split
    · exact h.congr le_rfl rfl rfl rfl (taskFailed_ok s _)
    · exact h.unlock rfl rfl rfl (fun _ _ _ => disown_lock) (taskFailed_ok _ _)
    · exact h.congr le_rfl rfl rfl rfl (taskFailed_ok s _)
    · exact h
  | reply =>
    simp only [step]
    split
    · rename_i r b ht
      rw [ht] at hk
      exact h.congr le_rfl rfl rfl rfl hk
    · exact h
  | installDeadline ok =>
    simp only [step]
    split
    · rename_i r b ht
      rw [ht] at hk
      rcases installDeadline_spec c ok b s with ⟨s', he, h1, h2, h3, h4⟩ | ⟨he, hm⟩ <;> rw [he]
      · exact h.congr (le_of_eq h1.symm) h2 h3 h4 trivial
      · exact h.congr le_rfl rfl rfl rfl ⟨b, Covered.congr hk rfl, by omega⟩
    · exact h
  | storeDeadline =>
    simp only [step]
    split
    · rename_i r d ht
      rw [ht] at hk
      obtain ⟨b, hc, hd⟩ := hk
      refine { h with task := trivial, deadline := fun _ => ⟨b, hc, ?_⟩, deadline_le := min_le_right _ _ }
      have : durationNs d ≤ d := min_le_left _ _
      exact le_trans (Nat.add_le_add_right this _) hd
    · exact h
  | beginDrain ok =>
    simp only [step]; split_ifs
    · rcases check_spec c ok { s with draining := true } with he | he | ⟨he, -⟩ <;> rw [he]
      · exact h.congr le_rfl rfl rfl rfl (keep _ le_rfl rfl rfl rfl)
      · exact h.congr le_rfl rfl rfl rfl (keep _ le_rfl rfl rfl rfl)
      · exact h.congr le_rfl rfl rfl rfl (keep _ le_rfl rfl rfl rfl)
    · exact h
  | drainExecute =>
    simp only [step]; split_ifs with hc
    · unfold drainExecuteStep
      split_ifs
      · refine h.unlock rfl rfl rfl (by simp) ?_
        cases ht : s.task with
        | executed r b =>
          rw [ht] at hk
          obtain ⟨u, t, h1, -⟩ := hk
          simp [hc.2] at h1
        | _ => rw [ht] at hk; exact hk
      · exact h.congr le_rfl rfl rfl rfl (keep _ le_rfl rfl rfl rfl)
    · exact h
  | drainFail =>
    simp only [step]; split_ifs
    · exact h
    · refine h.unlock rfl rfl rfl (fun _ _ _ => disown_lock) ?_
      show TaskOk c { disown .drain s with drain := .idle } s.task
      cases ht : s.task with
      | executed r b =>
        rw [ht] at hk
        obtain ⟨u, t, h1, h2⟩ := hk
        exact ⟨u, t, by simp [disown, h1], h2⟩
      | _ => rw [ht] at hk; exact hk
  | hardFence => exact h.congr le_rfl rfl rfl rfl (keep _ le_rfl rfl rfl rfl)
  | check ok =>
    simp only [step]
    rcases check_spec c ok s with he | he | ⟨he, -⟩ <;> rw [he] <;>
      exact h.congr le_rfl rfl rfl rfl (keep _ le_rfl rfl rfl rfl)

theorem run_inv (ops : List Op) : Inv c (run c init ops) :=
  Machine.run_inv (I := Inv c) (fun _ o h => step_inv h o) init ops inv_init

/-! ## Lease safety -/

/-- a deadline that lies ahead leaves the database lease unexpired -/
theorem lease_unexpired (hdb : Bounded c) (h : Inv c s) (hd : s.hardDeadlineNs ≠ 0)
    (hlt : durationNs (c.boot s.now) < s.hardDeadlineNs) :
    ∃ r, s.row = some r ∧ c.db s.now < r.leaseUntil := by
  obtain ⟨b, ⟨r, hr, hb⟩, hs⟩ := h.deadline hd
  obtain ⟨hu, hn⟩ := h.row r hr
  refine ⟨r, hr, ?_⟩
  -- the saturated comparison is the plain one: a saturated clock would not be below any deadline
  have hmax := h.deadline_le
  have hboot : c.boot s.now < s.hardDeadlineNs := by
    unfold durationNs at hlt; omega
  have hgain := hdb r.setAt s.now hn
  unfold Cfg.boot at hb hboot
  rw [hu]
  omega

theorem check_unexpired (hdb : Bounded c) (h : Inv c s) {ok : Bool} (hok : (check c ok s).1 = .ok ()) :
    ∃ r, s.row = some r ∧ c.db s.now < r.leaseUntil := by
  rcases check_spec c ok s with he | he | ⟨-, -, hd, hlt⟩
  · simp [he] at hok
  · simp [he] at hok
  · exact lease_unexpired hdb h hd hlt

/-- the fence is never lifted -/
theorem step_fenced (hf : s.fenced = true) (o : Op) : (step c s o).fenced = true := by
  cases o with
  | tick n => exact hf
  | register ok =>
    simp only [step]; split_ifs
    · rcases clockNow_spec c ok s with ⟨e, he⟩ | he <;> rw [he] <;> exact hf
    · exact hf
  | wake ok =>
    simp only [step]; split_ifs
    · rcases check_spec c ok s with he | he | ⟨he, -⟩ <;> rw [he] <;> first | rfl | exact hf
    · exact hf
  | readBefore ok =>
    simp only [step]; split_ifs
    · rcases clockNow_spec c ok s with ⟨e, he⟩ | he <;> rw [he] <;> first | rfl | exact hf
    · exact hf
  | execute =>
    simp only [step]
    split
    · unfold executeStep; split_ifs <;> first | rfl | exact hf
    · exact hf
  | commit =>
    simp only [step]
    split
    · simp only [commitStep]
      split
      · split <;> exact hf
      · exact hf
      · exact hf
    · exact hf
  | rollback =>
    simp only [step]
    split
    · simp only [rollbackStep]
      split
      · split <;> exact hf
      · exact hf
      · exact hf
    · exact hf
  | fail => simp only [step]; split <;> exact hf
  | reply => simp only [step]; split <;> exact hf
  | installDeadline ok =>
    simp only [step]
    split
    · simp only [installDeadline, hf, if_true]
    · exact hf
  | storeDeadline => simp only [step]; split <;> exact hf
  | beginDrain ok =>
    simp only [step]; split_ifs
    · rcases check_spec c ok { s with draining := true } with he | he | ⟨he, -⟩ <;> rw [he] <;> first | rfl | exact hf
    · exact hf
  | drainExecute =>
    simp only [step]; split_ifs
    · unfold drainExecuteStep; split_ifs <;> first | rfl | exact hf
    · exact hf
  | drainFail => simp only [step]; split_ifs <;> exact hf
  | hardFence => rfl
  | check ok =>
    simp only [step]
    rcases check_spec c ok s with he | he | ⟨he, -⟩ <;> rw [he] <;> first | rfl | exact hf

theorem run_fenced (hf : s.fenced = true) (ops : List Op) : (run c s ops).fenced = true :=
  Machine.run_inv (I := fun s => s.fenced = true) (fun _ o h => step_fenced h o) s ops hf

theorem check_of_fenced (hf : s.fenced = true) (ok : Bool) : (check c ok s).1 = .error .fenced := by
  simp [check, hf]

theorem fenced_of_check {ok : Bool} (h : (check c ok s).1 ≠ .ok ()) : (check c ok s).2.fenced = true := by
  rcases check_spec c ok s with he | he | ⟨he, -⟩
  · rw [he]; rfl
  · rw [he]; rfl
  · rw [he] at h; exact (h rfl).elim

/-- **Lease safety.** After any run, a check that succeeds finds the database clock strictly below the stored lease; once a
check has failed, or the node is fenced, every later check fails, whatever completes in between. -/
theorem lease_safety (c : Cfg) (hdb : Bounded c) (ops : List Op) :
    (∀ ok, (check c ok (run c init ops)).1 = .ok () →
      ∃ r, (run c init ops).row = some r ∧ c.db (run c init ops).now < r.leaseUntil) ∧
    (∀ ok later ok', (check c ok (run c init ops)).1 ≠ .ok () →
      (check c ok' (run c init (ops ++ .check ok :: later))).1 = .error .fenced) ∧
    (∀ later ok', (run c init ops).fenced = true → (check c ok' (run c init (ops ++ later))).1 = .error .fenced) := by
  have happ : ∀ more, run c init (ops ++ more) = run c (run c init ops) more := fun more =>
    Machine.run_append init ops more
  refine ⟨fun ok hok => check_unexpired hdb (run_inv ops) hok, fun ok later ok' herr => ?_, fun later ok' hf => ?_⟩
  · rw [happ]
    exact check_of_fenced (run_fenced (fenced_of_check herr) later) ok'
  · rw [happ]
    exact check_of_fenced (run_fenced hf later) ok'

/-- a 30 s lease with a margin of 5 s and a database clock that follows real time -/
def sampleCfg : Cfg := ⟨30, 5, 7, fun t => t⟩

def registeredOps : List Op :=
  [.register true, .tick 40, .execute, .tick 10, .commit, .reply, .installDeadline true, .storeDeadline, .tick 24000000000]

/-- registered at 40 ns, checked 24 s later: the deadline and the lease both lie ahead -/
theorem registered_unexpired :
    (check sampleCfg true (run sampleCfg init registeredOps)).1 = .ok () ∧
    ∃ r, (run sampleCfg init registeredOps).row = some r ∧
      sampleCfg.db (run sampleCfg init registeredOps).now < r.leaseUntil := by
  have hdb : Bounded sampleCfg := by
    intro t₁ t₂ h
    simp only [sampleCfg, Cfg.margin]
    omega
  have hok : (check sampleCfg true (run sampleCfg init registeredOps)).1 = .ok () := by decide +kernel
  exact ⟨hok, (lease_safety sampleCfg hdb registeredOps).1 true hok⟩

end OwlMux.Lease
