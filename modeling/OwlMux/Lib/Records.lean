/-
Records ended by a delimiter: a list is its complete records followed by a tail without the delimiter, in one way only.

- `records`: the complete records and the tail. Records in front of a list are its first ones (`records_append`), so the
  decomposition is the only one;
- `current`: the record that comes first, or the tail when there is none. What is read of it so far is not longer than it is
  (`length_le_current`).
-/
import Mathlib.Tactic

namespace OwlMux.Records

variable {α : Type*} [DecidableEq α] {d : α} {l w tail : List α} {rs : List (List α)}

/-- ended by the only delimiter in it -/
def IsRecord (d : α) (r : List α) : Prop := ∃ w, d ∉ w ∧ r = w ++ [d]

def records (d : α) : List α → List (List α) × List α
  | [] => ([], [])
  | a :: l =>
    if a = d then ([a] :: (records d l).1, (records d l).2)
    else
      match records d l with
      | ([], tail) => ([], a :: tail)
      | (r :: rs, tail) => ((a :: r) :: rs, tail)

theorem records_of_not_mem (h : d ∉ l) : records d l = ([], l) := by
  induction l with
  | nil => rfl
  | cons a l ih =>
    rw [List.mem_cons, not_or] at h
    rw [records, if_neg (Ne.symm h.1), ih h.2]

theorem records_cons_record (h : d ∉ w) : records d (w ++ d :: l) = ((w ++ [d]) :: (records d l).1, (records d l).2) := by
  induction w with
  | nil => rw [List.nil_append, records, if_pos rfl, List.nil_append]
  | cons a w ih =>
    rw [List.mem_cons, not_or] at h
    rw [List.cons_append, records, if_neg (Ne.symm h.1), ih h.2, List.cons_append]

/-- a list has the delimiter, and then a first record, or it is a tail -/
theorem split_first (d : α) (l : List α) : d ∉ l ∨ ∃ w post, d ∉ w ∧ l = w ++ d :: post := by
  by_cases h : d ∈ l
  · right
    obtain ⟨w, post, heq, hw⟩ := List.eq_append_cons_of_mem h
    exact ⟨w, post, hw, heq⟩
  · exact .inl h

theorem records_append (hrs : ∀ r ∈ rs, IsRecord d r) (l : List α) :
    records d (rs.flatten ++ l) = (rs ++ (records d l).1, (records d l).2) := by
  induction rs with
  | nil => rfl
  | cons r rs ih =>
    obtain ⟨w, hw, rfl⟩ := hrs r List.mem_cons_self
    have hrest := ih fun r hr => hrs r (List.mem_cons_of_mem _ hr)
    have hsplit : ((w ++ [d]) :: rs).flatten ++ l = w ++ d :: (rs.flatten ++ l) := by simp
    rw [hsplit, records_cons_record hw, hrest, List.cons_append]

/-- the first record, complete or not -/
def current (d : α) (l : List α) : List α := (records d l).1.headD (records d l).2

theorem current_of_not_mem (h : d ∉ l) : current d l = l := by
  rw [current, records_of_not_mem h, List.headD_nil]

theorem current_record (h : d ∉ w) : current d (w ++ d :: l) = w ++ [d] := by
  rw [current, records_cons_record h, List.headD_cons]

theorem length_le_current (h : d ∉ w) (l : List α) : w.length ≤ (current d (w ++ l)).length := by
  rcases split_first d l with hl | ⟨v, post, hv, rfl⟩
  · have hnone : d ∉ w ++ l := by
      rw [List.mem_append, not_or]
      exact ⟨h, hl⟩
    rw [current_of_not_mem hnone, List.length_append]
    exact Nat.le_add_right _ _
  · have hnone : d ∉ w ++ v := by
      rw [List.mem_append, not_or]
      exact ⟨h, hv⟩
    rw [← List.append_assoc, current_record hnone, List.length_append, List.length_append]
    omega

end OwlMux.Records
