/-
Numbers and fields as bytes.

- `bigEndian k n`: the last `k` bytes of `n`, most significant first; `bigEndian_inj` on the numbers that fit;
- `field b`: `b` behind its length in four bytes, `fields`: one field after the other. `fields_injective`: lists of fields
  that fit have the same bytes only when they are the same list, so no field runs into the next.
-/
import Mathlib.Tactic

namespace OwlMux.Bytes

def bigEndian : ℕ → ℕ → List UInt8
  | 0, _ => []
  | k + 1, n => bigEndian k (n / 256) ++ [UInt8.ofNat n]

@[simp]
theorem length_bigEndian (k n : ℕ) : (bigEndian k n).length = k := by
  induction k generalizing n with
  | zero => rfl
  | succ k ih => rw [bigEndian, List.length_append, ih, List.length_singleton]

theorem bigEndian_inj {k n m : ℕ} (hn : n < 256 ^ k) (hm : m < 256 ^ k) (h : bigEndian k n = bigEndian k m) : n = m := by
  induction k generalizing n m with
  | zero =>
    rw [pow_zero] at hn hm
    omega
  | succ k ih =>
    rw [bigEndian, bigEndian] at h
    obtain ⟨h1, h2⟩ := List.append_inj h (by rw [length_bigEndian, length_bigEndian])
    have hdiv : n / 256 = m / 256 := by
      refine ih ?_ ?_ h1
      · rw [pow_succ] at hn
        omega
      · rw [pow_succ] at hm
        omega
    have hmod : n % 256 = m % 256 := by
      have := congrArg UInt8.toNat (List.singleton_inj.1 h2)
      rwa [UInt8.toNat_ofNat', UInt8.toNat_ofNat'] at this
    omega

def field (b : List UInt8) : List UInt8 := bigEndian 4 b.length ++ b

def fields (bs : List (List UInt8)) : List UInt8 := bs.flatMap field

theorem fields_cons (b : List UInt8) (bs : List (List UInt8)) : fields (b :: bs) = field b ++ fields bs := rfl

/-- **Fields are read back.** Equal bytes are equal fields. -/
theorem fields_injective {xs ys : List (List UInt8)} (hx : ∀ b ∈ xs, b.length < 2 ^ 32) (hy : ∀ b ∈ ys, b.length < 2 ^ 32)
    (h : fields xs = fields ys) : xs = ys := by
  have hne : ∀ (b : List UInt8) (bs : List (List UInt8)), fields (b :: bs) ≠ [] := by
    intro b bs hnil
    have := congrArg List.length hnil
    simp only [fields_cons, field, List.length_append, length_bigEndian, List.length_nil] at this
    omega
  induction xs generalizing ys with
  | nil =>
    cases ys with
    | nil => rfl
    | cons b ys => exact (hne b ys h.symm).elim
  | cons a xs ih =>
    cases ys with
    | nil => exact (hne a xs h).elim
    | cons b ys =>
      rw [fields_cons, fields_cons, field, field, List.append_assoc, List.append_assoc] at h
      obtain ⟨hlen, hrest⟩ := List.append_inj h (by rw [length_bigEndian, length_bigEndian])
      have ha := hx a List.mem_cons_self
      have hb := hy b List.mem_cons_self
      have hab : a.length = b.length := bigEndian_inj (by omega) (by omega) hlen
      obtain ⟨rfl, htail⟩ := List.append_inj hrest hab
      rw [ih (fun c hc => hx c (List.mem_cons_of_mem _ hc)) (fun c hc => hy c (List.mem_cons_of_mem _ hc)) htail]

end OwlMux.Bytes
