/-
What an expired database lease says about its incarnation: it is dead, no check of it will ever succeed again.

Other incarnations see only the row of a node, never its clock. They take over what it owns once the row has expired, so
the expiry has to be final although renewals of the node may still be under way: a reply may arrive late, and a renewal
may even commit after the expiry. `install_deadline` refuses to replace a deadline that has passed.

Only lease safety is assumed (`CheckSafe`), not a bound on the database clock; `checkSafe_of_bounded` gives it from one.

Results:
- `dead_of_expired`: an incarnation that has had a deadline and whose stored lease has expired is dead.
-/
import Mathlib.Tactic
import OwlMux.Deployment.Lease

namespace OwlMux.Lease

variable {c : Cfg} {s s' : St}

/-- lease safety: in every state the lease reaches, a check that succeeds finds the stored lease unexpired -/
def CheckSafe (c : Cfg) : Prop :=
  ∀ ops ok, (check c ok (run c init ops)).1 = .ok () →
    ∃ r, (run c init ops).row = some r ∧ c.db (run c init ops).now < r.leaseUntil

theorem checkSafe_of_bounded (h : Bounded c) : CheckSafe c := fun ops _ hok => check_unexpired h (run_inv ops) hok

/-- no later check succeeds -/
def Dead (c : Cfg) (s : St) : Prop := ∀ ops ok, (check c ok (run c s ops)).1 ≠ .ok ()

theorem Dead.step (h : Dead c s) (o : Op) : Dead c (step c s o) := fun ops ok => h (o :: ops) ok

theorem dead_of_fenced (h : s.fenced = true) : Dead c s := fun ops ok => by
  rw [check_of_fenced (run_fenced h ops) ok]; simp

def Reached (c : Cfg) (s : St) : Prop := ∃ ops, run c init ops = s

theorem reached_init : Reached c init := ⟨[], rfl⟩

theorem Reached.step (h : Reached c s) (o : Op) : Reached c (step c s o) := by
  obtain ⟨ops, rfl⟩ := h
  exact ⟨ops ++ [o], Machine.run_snoc init ops o⟩

/-! ## What a step can do to the deadline -/

/-- a step as far as clock and deadline go: time passes by what a tick says, a deadline is installed only from `storing`, and a
candidate lies ahead and is accepted only while the present deadline does -/
structure Ticks (c : Cfg) (elapsed : ℕ) (s s' : St) : Prop where
  now : s'.now = s.now + elapsed
  deadline : s'.hardDeadlineNs = s.hardDeadlineNs ∨ ∃ r d, s.task = .storing r d ∧ s'.hardDeadlineNs = durationNs d
  storing : ∀ r d, s'.task = .storing r d → s.task = .storing r d ∨
    (s.hardDeadlineNs = 0 ∨ durationNs (c.boot s.now) < s.hardDeadlineNs) ∧ c.boot s.now < d
  last : ∀ t, s'.last = some t → s.last = some t ∨ t = c.boot s.now
  row : s.row.isSome = true → s'.row.isSome = true

def Op.elapsed : Op → ℕ
  | .tick n => n
  | _ => 0

theorem ticks_of_same {d : ℕ} (hn : s'.now = s.now + d) (hd : s'.hardDeadlineNs = s.hardDeadlineNs)
    (ht : ∀ r d, s'.task = .storing r d → s.task = .storing r d) (hl : s'.last = s.last ∨ s'.last = some (c.boot s.now))
    (hr : s'.row = s.row) : Ticks c d s s' := by
  refine ⟨hn, Or.inl hd, fun r d h => Or.inl (ht r d h), fun t h => ?_, fun h => hr ▸ h⟩
  rcases hl with hl | hl
  · exact Or.inl (hl ▸ h)
  · rw [hl] at h
    exact Or.inr (Option.some.inj h).symm

theorem installDeadline_ticks (c : Cfg) (ok : Bool) (r : Request) (before : ℕ) (s : St)
    (ht : s.task = .installing r before) : Ticks c 0 s (step c s (.installDeadline ok)) := by
  simp only [step, ht, installDeadline]
  split_ifs with h1 h2
  · exact ticks_of_same rfl rfl (by simp) (Or.inl rfl) rfl
  · exact ticks_of_same rfl rfl (by simp) (Or.inl rfl) rfl
  · rcases clockNow_spec c ok s with ⟨e, he⟩ | he
    · simp only [he]
      exact ticks_of_same rfl rfl (by simp) (Or.inl rfl) rfl
    · simp only [he]
      split_ifs with h3
      · exact ticks_of_same rfl rfl (by simp) (Or.inr rfl) rfl
      · refine ⟨rfl, Or.inl rfl, fun r' d h => Or.inr ?_, fun t h => Or.inr (Option.some.inj h).symm, fun h => h⟩
        obtain ⟨-, rfl⟩ : r = r' ∧ before + c.ttl - c.margin = d := by simpa using h
        omega

theorem commitStep_ticks (t : Txn) : Ticks c 0 s (commitStep s t) := by
  have hrow : s.row.isSome = true → (applyChange s.row t.change).isSome = true := by
    cases t.change <;> simp [applyChange]
  cases ho : t.owner with
  | task =>
    cases ht : s.task with
    | executed r b =>
      simp only [commitStep, ho, ht]
      exact ⟨rfl, Or.inl rfl, by simp, fun t h => Or.inl h, hrow⟩
    | _ =>
      simp only [commitStep, ho, ht]
      exact ⟨rfl, Or.inl rfl, fun r d h => Or.inl (ht ▸ h), fun t h => Or.inl h, hrow⟩
  | drain | nobody =>
    simp only [commitStep, ho]
    exact ⟨rfl, Or.inl rfl, fun r d h => Or.inl h, fun t h => Or.inl h, hrow⟩

theorem rollbackStep_ticks (t : Txn) : Ticks c 0 s (rollbackStep s t) := by
  cases ho : t.owner with
  | task =>
    cases ht : s.task with
    | executed r b =>
      simp only [rollbackStep, ho, ht]
      exact ticks_of_same rfl rfl (by cases r <;> simp [taskFailed, Request.failed]) (Or.inl rfl) rfl
    | _ =>
      simp only [rollbackStep, ho, ht]
      exact ticks_of_same rfl rfl (by simp [ht]) (Or.inl rfl) rfl
  | drain | nobody =>
    simp only [rollbackStep, ho]
    exact ticks_of_same rfl rfl (fun _ _ h => h) (Or.inl rfl) rfl

theorem step_ticks (c : Cfg) (s : St) (o : Op) : Ticks c o.elapsed s (step c s o) := by
  have hstay : Ticks c 0 s s := ticks_of_same rfl rfl (fun _ _ h => h) (Or.inl rfl) rfl
  cases o with
  | tick n => exact ticks_of_same rfl rfl (fun _ _ h => h) (Or.inl rfl) rfl
  | register ok =>
    simp only [step]; split_ifs
    · rcases clockNow_spec c ok s with ⟨e, he⟩ | he <;> rw [he]
      · exact ticks_of_same rfl rfl (by simp) (Or.inl rfl) rfl
      · exact ticks_of_same rfl rfl (by simp) (Or.inr rfl) rfl
    · exact hstay
  | wake ok =>
    simp only [step]; split_ifs
    · rcases check_spec c ok s with he | he | ⟨he, -⟩ <;> rw [he]
      · exact ticks_of_same rfl rfl (by simp) (Or.inl rfl) rfl
      · exact ticks_of_same rfl rfl (by simp) (Or.inr rfl) rfl
      · exact ticks_of_same rfl rfl (by dsimp only; split_ifs <;> simp) (Or.inr rfl) rfl
    · exact hstay
  | readBefore ok =>
    simp only [step]; split_ifs
    · rcases clockNow_spec c ok s with ⟨e, he⟩ | he <;> rw [he]
      · exact ticks_of_same rfl rfl (by simp) (Or.inl rfl) rfl
      · exact ticks_of_same rfl rfl (by simp) (Or.inr rfl) rfl
    · exact hstay
  | execute =>
    simp only [step]
    split
    · unfold executeStep
      split_ifs
      · exact ticks_of_same rfl rfl (by simp) (Or.inl rfl) rfl
      · exact ticks_of_same rfl rfl (by simp) (Or.inl rfl) rfl
    · exact hstay
  | commit =>
    simp only [step]
    split
    · exact commitStep_ticks _
    · exact hstay
  | rollback =>
    simp only [step]
    split
    · exact rollbackStep_ticks _
    · exact hstay
  | fail =>
    simp only [step]
    split
    · rename_i r b _; exact ticks_of_same rfl rfl (by cases r <;> simp [taskFailed, Request.failed]) (Or.inl rfl) rfl
    · rename_i r b _; exact ticks_of_same rfl rfl (by cases r <;> simp [taskFailed, Request.failed]) (Or.inl rfl) rfl
    · rename_i r b _; exact ticks_of_same rfl rfl (by cases r <;> simp [taskFailed, Request.failed]) (Or.inl rfl) rfl
    · exact hstay
  | reply =>
    simp only [step]
    split
    · exact ticks_of_same rfl rfl (by simp) (Or.inl rfl) rfl
    · exact hstay
  | installDeadline ok =>
    cases ht : s.task with
    | installing r b => exact installDeadline_ticks c ok r b s ht
    | _ => simpa [step, ht, Op.elapsed] using hstay
  | storeDeadline =>
    simp only [step]
    split
    · rename_i r d ht
      exact ⟨rfl, Or.inr ⟨r, d, ht, rfl⟩, by simp, fun t h => Or.inl h, fun h => h⟩
    · exact hstay
  | beginDrain ok =>
    simp only [step]; split_ifs
    · rcases check_spec c ok { s with draining := true } with he | he | ⟨he, -⟩ <;> rw [he]
      · exact ticks_of_same rfl rfl (fun _ _ h => h) (Or.inl rfl) rfl
      · exact ticks_of_same rfl rfl (fun _ _ h => h) (Or.inr rfl) rfl
      · exact ticks_of_same rfl rfl (fun _ _ h => h) (Or.inr rfl) rfl
    · exact hstay
  | drainExecute =>
    simp only [step]; split_ifs
    · unfold drainExecuteStep
      split_ifs <;> exact ticks_of_same rfl rfl (fun _ _ h => h) (Or.inl rfl) rfl
    · exact hstay
  | drainFail =>
    simp only [step]; split_ifs
    · exact hstay
    · exact ticks_of_same rfl rfl (fun _ _ h => h) (Or.inl rfl) rfl
  | hardFence => exact ticks_of_same rfl rfl (fun _ _ h => h) (Or.inl rfl) rfl
  | check ok =>
    simp only [step]
    rcases check_spec c ok s with he | he | ⟨he, -⟩ <;> rw [he]
    · exact ticks_of_same rfl rfl (fun _ _ h => h) (Or.inl rfl) rfl
    · exact ticks_of_same rfl rfl (fun _ _ h => h) (Or.inr rfl) rfl
    · exact ticks_of_same rfl rfl (fun _ _ h => h) (Or.inr rfl) rfl

/-! ## Expiry is final -/

/-- the clock has not gone back, and no candidate is zero -/
structure Regular (c : Cfg) (s : St) : Prop where
  last : ∀ t, s.last = some t → t ≤ c.boot s.now
  storing : ∀ r d, s.task = .storing r d → d ≠ 0

theorem step_regular (h : Regular c s) (o : Op) : Regular c (step c s o) := by
  have ht := step_ticks c s o
  have hboot : c.boot s.now ≤ c.boot (step c s o).now := by
    rw [ht.now]; exact Nat.add_le_add_left (Nat.le_add_right _ _) _
  refine ⟨fun t hl => ?_, fun r d hs => ?_⟩
  · rcases ht.last t hl with hl | rfl
    · exact (h.last t hl).trans hboot
    · exact hboot
  · rcases ht.storing r d hs with hs | ⟨-, hd⟩
    · exact h.storing r d hs
    · omega

theorem Reached.regular (h : Reached c s) : Regular c s := by
  obtain ⟨ops, rfl⟩ := h
  exact Machine.run_inv (I := Regular c) (fun _ o h => step_regular h o) init ops ⟨by simp [init], by simp [init]⟩

/-- the deadline has passed, and no later one is about to be stored -/
structure Spent (c : Cfg) (s : St) : Prop where
  installed : s.hardDeadlineNs ≠ 0
  passed : s.hardDeadlineNs ≤ durationNs (c.boot s.now)
  storing : ∀ r d, s.task = .storing r d → d ≠ 0 ∧ durationNs d ≤ durationNs (c.boot s.now)

theorem durationNs_mono {a b : ℕ} (h : a ≤ b) : durationNs a ≤ durationNs b := min_le_min_right _ h

theorem durationNs_ne_zero {d : ℕ} (h : d ≠ 0) : durationNs d ≠ 0 := by
  unfold durationNs u64Max
  omega

theorem step_installed (hr : Regular c s) (h : s.hardDeadlineNs ≠ 0) (o : Op) : (step c s o).hardDeadlineNs ≠ 0 := by
  rcases (step_ticks c s o).deadline with hd | ⟨r, d, ht, hd⟩
  · rwa [hd]
  · rw [hd]; exact durationNs_ne_zero (hr.storing r d ht)

theorem step_spent (h : Spent c s) (o : Op) : Spent c (step c s o) := by
  have ht := step_ticks c s o
  have hle : durationNs (c.boot s.now) ≤ durationNs (c.boot (step c s o).now) := by
    rw [ht.now]; exact durationNs_mono (Nat.add_le_add_left (Nat.le_add_right _ _) _)
  refine ⟨?_, ?_, fun r d hs => ?_⟩
  · rcases ht.deadline with hd | ⟨r, d, hs, hd⟩
    · rw [hd]; exact h.installed
    · rw [hd]; exact durationNs_ne_zero (h.storing r d hs).1
  · rcases ht.deadline with hd | ⟨r, d, hs, hd⟩
    · rw [hd]; exact h.passed.trans hle
    · rw [hd]; exact (h.storing r d hs).2.trans hle
  · rcases ht.storing r d hs with hs | ⟨hd | hd, -⟩
    · exact ⟨(h.storing r d hs).1, (h.storing r d hs).2.trans hle⟩
    · exact (h.installed hd).elim
    · exact absurd h.passed (not_le.2 hd)

theorem dead_of_spent (h : Spent c s) : Dead c s := by
  intro ops ok
  have hs := Machine.run_inv (I := Spent c) (fun _ o h => step_spent h o) s ops h
  rcases check_spec c ok (run c s ops) with he | he | ⟨-, -, -, hlt⟩
  · simp [he]
  · simp [he]
  · exact absurd hs.passed (not_le.2 hlt)

/-- a deadline that lies ahead passes the check -/
theorem check_ok (hr : Regular c s) (hf : s.fenced = false) (hd : s.hardDeadlineNs ≠ 0)
    (hlt : durationNs (c.boot s.now) < s.hardDeadlineNs) : (check c true s).1 = .ok () := by
  have hback : s.last.any (fun previous => decide (c.boot s.now < previous)) = false := by
    cases hl : s.last with
    | none => rfl
    | some t => simpa using hr.last t hl
  simp [check, clockNow, hf, hback, hd, not_le.2 hlt]

/-- **Expiry is final.** Given lease safety, an incarnation that has had a deadline and whose stored lease has expired
never passes a check again. -/
theorem dead_of_expired (hs : CheckSafe c) (h : Reached c s) (hd : s.hardDeadlineNs ≠ 0) {r : Row} (hrow : s.row = some r)
    (hexp : r.leaseUntil ≤ c.db s.now) : Dead c s := by
  by_cases hf : s.fenced = true
  · exact dead_of_fenced hf
  have hf' : s.fenced = false := by simpa using hf
  have hreg := h.regular
  -- no state of the same moment and the same row passes the check
  have hno : ∀ s', Reached c s' → s'.row = s.row → s'.now = s.now → s'.fenced = false → s'.hardDeadlineNs ≠ 0 →
      s'.hardDeadlineNs ≤ durationNs (c.boot s.now) := by
    rintro s' ⟨ops, rfl⟩ hr' hn' hf' hd'
    by_contra hlt
    have hok := check_ok (Reached.regular ⟨ops, rfl⟩) hf' hd' (by rw [hn']; exact not_le.1 hlt)
    obtain ⟨r', h1, h2⟩ := hs ops true hok
    rw [hr', hrow] at h1
    rw [hn', ← Option.some.inj h1] at h2
    exact absurd hexp (not_le.2 h2)
  refine dead_of_spent ⟨hd, hno s h rfl rfl hf' hd, fun req d ht => ⟨hreg.storing req d ht, ?_⟩⟩
  have hstep : step c s .storeDeadline = { s with hardDeadlineNs := durationNs d, task := .sleeping, dependencyReady := true } := by
    simp [step, ht]
  have := hno _ (h.step .storeDeadline) (by rw [hstep]) (by rw [hstep]) (by rw [hstep]; exact hf')
    (by rw [hstep]; exact durationNs_ne_zero (hreg.storing req d ht))
  rwa [hstep] at this

end OwlMux.Lease
