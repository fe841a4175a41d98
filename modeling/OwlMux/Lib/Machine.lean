/-
Machines driven by a schedule. A machine is a total `step : σ → ι → σ`; an operation that is not enabled leaves the
state alone, so a run is a left fold over an arbitrary list of operations and "every interleaving" is "every list".

- `run`: the state after a schedule, with its equations (`run_cons`, `run_append`, `run_snoc`);
- `run_inv`: an invariant kept by every step holds after every schedule;
- `Along ok s ops`: every operation of the schedule meets `ok` in the state in which it is taken. `run_inv_along` is
  the invariant rule for such schedules, `along_iff` reads the condition position by position and
  `exists_first_of_not_along` finds the first operation that breaks it;
- `run_rel`: two machines driven by the same schedule stay related (lockstep simulation), with the same guard.
-/
import Mathlib.Tactic

namespace OwlMux.Machine

variable {σ τ ι : Type*} {step : σ → ι → σ}

/-- the state reached from `s` by a whole schedule -/
def run (step : σ → ι → σ) (s : σ) (ops : List ι) : σ := ops.foldl step s

@[simp]
theorem run_nil (s : σ) : run step s [] = s := rfl

theorem run_cons (s : σ) (o : ι) (ops : List ι) : run step s (o :: ops) = run step (step s o) ops := rfl

theorem run_append (s : σ) (a b : List ι) : run step s (a ++ b) = run step (run step s a) b := by
  simp [run, List.foldl_append]

theorem run_snoc (s : σ) (ops : List ι) (o : ι) : run step s (ops ++ [o]) = step (run step s ops) o := by
  simp [run, List.foldl_append]

/-- **Invariant rule.** What every step keeps holds after every schedule. -/
theorem run_inv {I : σ → Prop} (hstep : ∀ s o, I s → I (step s o)) (s : σ) (ops : List ι) (h : I s) :
    I (run step s ops) := by
  induction ops generalizing s with
  | nil => exact h
  | cons o ops ih => exact ih _ (hstep s o h)

/-- every operation of the schedule meets `ok` in the state in which it is taken -/
def Along (step : σ → ι → σ) (ok : σ → ι → Prop) (s : σ) : List ι → Prop
  | [] => True
  | o :: ops => ok s o ∧ Along step ok (step s o) ops

instance decidableAlong {ok : σ → ι → Prop} [∀ s o, Decidable (ok s o)] :
    (s : σ) → (ops : List ι) → Decidable (Along step ok s ops)
  | _, [] => isTrue trivial
  | s, o :: ops =>
    have : Decidable (Along step ok (step s o) ops) := decidableAlong (step s o) ops
    inferInstanceAs (Decidable (ok s o ∧ Along step ok (step s o) ops))

theorem along_append {ok : σ → ι → Prop} (s : σ) (a b : List ι) :
    Along step ok s (a ++ b) ↔ Along step ok s a ∧ Along step ok (run step s a) b := by
  induction a generalizing s with
  | nil => simp [Along]
  | cons o a ih => simp only [List.cons_append, Along, ih, run_cons, and_assoc]

/-- a guarded schedule, read pointwise: the guard holds at every position -/
theorem along_iff {ok : σ → ι → Prop} (s : σ) (ops : List ι) :
    Along step ok s ops ↔ ∀ pre o post, ops = pre ++ o :: post → ok (run step s pre) o := by
  constructor
  · rintro h pre o post rfl
    exact ((along_append s pre (o :: post)).1 h).2.1
  · induction ops generalizing s with
    | nil => intro _; trivial
    | cons o ops ih =>
      intro h
      refine ⟨h [] o ops rfl, ih _ fun pre o' post e => ?_⟩
      simpa [run_cons] using h (o :: pre) o' post (by simp [e])

/-- a schedule that breaks the guard breaks it a first time -/
theorem exists_first_of_not_along {ok : σ → ι → Prop} (s : σ) (ops : List ι) (h : ¬ Along step ok s ops) :
    ∃ pre o post, ops = pre ++ o :: post ∧ Along step ok s pre ∧ ¬ ok (run step s pre) o := by
  induction ops generalizing s with
  | nil => exact (h trivial).elim
  | cons o ops ih =>
    by_cases ho : ok s o
    · obtain ⟨pre, o', post, rfl, h1, h2⟩ := ih (step s o) fun hrest => h ⟨ho, hrest⟩
      exact ⟨o :: pre, o', post, rfl, ⟨ho, h1⟩, h2⟩
    · exact ⟨[], o, ops, rfl, trivial, ho⟩

/-- **Guarded invariant rule.** What every step meeting `ok` keeps holds after every schedule whose steps meet it. -/
theorem run_inv_along {ok : σ → ι → Prop} {I : σ → Prop} (hstep : ∀ s o, ok s o → I s → I (step s o)) (s : σ)
    (ops : List ι) (hok : Along step ok s ops) (h : I s) : I (run step s ops) := by
  induction ops generalizing s with
  | nil => exact h
  | cons o ops ih => exact ih _ hok.2 (hstep s o hok.1 h)

/-- **Lockstep rule.** Two machines driven by the same schedule stay related, as long as the first meets `ok`. -/
theorem run_rel {step' : τ → ι → τ} {ok : σ → ι → Prop} {R : σ → τ → Prop}
    (hstep : ∀ s t o, ok s o → R s t → R (step s o) (step' t o)) (s : σ) (t : τ) (ops : List ι)
    (hok : Along step ok s ops) (h : R s t) : R (run step s ops) (run step' t ops) := by
  induction ops generalizing s t with
  | nil => exact h
  | cons o ops ih => exact ih _ _ hok.2 (hstep s t o hok.1 h)

end OwlMux.Machine
