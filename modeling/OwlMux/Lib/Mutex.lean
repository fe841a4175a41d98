/-
A mutex whose guard lives in a block of code: the holder is the one process whose place is inside such a block.

`hand o x b` is the mutex after process `x` moves to a place that holds it (`b`) or does not; dropping the guard is
leaving the block. `agree_hand`: a process that takes the mutex only when it is free keeps holder and places in agreement.
-/
import Mathlib.Tactic

namespace OwlMux.Mutex

variable {ι : Type*}

/-- the mutex after `x` has moved to a place that holds it, or to one that does not -/
def hand [DecidableEq ι] (o : Option ι) (x : ι) (b : Bool) : Option ι :=
  if b then some x else if o = some x then none else o

theorem hand_false_ne [DecidableEq ι] (o : Option ι) (x : ι) : hand o x false ≠ some x := by
  by_cases h : o = some x <;> simp [hand, h]

/-- the holder is the process whose place holds the mutex -/
def Agree (o : Option ι) (holds : ι → Bool) : Prop := ∀ x, o = some x ↔ holds x = true

variable {o : Option ι} {holds : ι → Bool} {x y : ι}

theorem Agree.unique (h : Agree o holds) (hx : holds x = true) (hy : holds y = true) : x = y := by
  have h1 := (h x).2 hx
  rw [(h y).2 hy] at h1
  exact (Option.some.inj h1).symm

theorem Agree.ne_none (h : Agree o holds) (hx : holds x = true) : o ≠ none := by
  rw [(h x).2 hx]; simp

/-- **Mutual exclusion.** Taken only when it is free, the mutex keeps agreeing with the places. -/
theorem agree_hand [DecidableEq ι] (h : Agree o holds) {b : Bool} (hb : b = true → holds x = true ∨ o = none) :
    Agree (hand o x b) (Function.update holds x b) := by
  intro y
  unfold hand
  by_cases hy : y = x
  · subst hy
    cases b with
    | true => simp
    | false => by_cases ho : o = some y <;> simp [ho]
  · rw [Function.update_of_ne hy]
    cases b with
    | true =>
      have hno : holds y ≠ true := by
        intro hyd
        rcases hb rfl with hx | hx
        · exact hy (h.unique hyd hx)
        · exact h.ne_none hyd hx
      simpa [Ne.symm hy] using hno
    | false =>
      by_cases ho : o = some x
      · have hno : holds y ≠ true := fun hyd => hy (h.unique hyd ((h x).1 ho))
        simpa [ho] using hno
      · simpa [ho] using h y

end OwlMux.Mutex
