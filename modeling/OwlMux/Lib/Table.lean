/-
Tables of rows and the statements that change them. A table is a list of rows; the order has no meaning.

- `update p f`: UPDATE .. SET f WHERE p, with `affected p` rows;
- `UniqueOn p key`: a partial unique index, with the rules for UPDATE (`UniqueOn.update`) and INSERT (`uniqueOn_cons`), and what it
  is good for (`UniqueOn.eq`, `UniqueOn.filter_key`);
- `find?_update`, `filter_update_of_leaves`: a look-up by key and a selection after an UPDATE;
- `Except`: the equations by which a transaction that succeeded is read back (`bind_eq_ok`, `ensure_eq_ok`, `orError_eq_ok`).
-/
import Mathlib.Tactic

namespace OwlMux.Table

variable {α κ : Type*}

/-! ## UPDATE -/

def update (p : α → Bool) (f : α → α) (t : List α) : List α := t.map fun r => if p r then f r else r

/-- rows_affected -/
def affected (p : α → Bool) (t : List α) : ℕ := t.countP p

theorem mem_update {p : α → Bool} {f : α → α} {t : List α} {r : α} :
    r ∈ update p f t ↔ (∃ r₀ ∈ t, p r₀ = true ∧ f r₀ = r) ∨ (r ∈ t ∧ p r = false) := by
  simp only [update, List.mem_map]
  constructor
  · rintro ⟨r₀, h₀, rfl⟩
    cases hp : p r₀ with
    | true => exact .inl ⟨r₀, h₀, hp, by simp⟩
    | false => exact .inr ⟨by simpa using h₀, by simpa using hp⟩
  · rintro (⟨r₀, h₀, hp, rfl⟩ | ⟨h₀, hp⟩)
    · exact ⟨r₀, h₀, by simp [hp]⟩
    · exact ⟨r, h₀, by simp [hp]⟩

/-- what an UPDATE keeps of every row holds of every row after it -/
theorem forall_mem_update {p : α → Bool} {f : α → α} {t : List α} {P : α → Prop} (h : ∀ r ∈ t, P r)
    (hf : ∀ r ∈ t, p r = true → P r → P (f r)) : ∀ r ∈ update p f t, P r := by
  intro r hr
  rcases mem_update.1 hr with ⟨r₀, h₀, hp, rfl⟩ | ⟨h₀, -⟩
  · exact hf r₀ h₀ hp (h r₀ h₀)
  · exact h r h₀

/-- an UPDATE that leaves a column alone -/
theorem map_update {β : Type*} {p : α → Bool} {f : α → α} {t : List α} {k : α → β} (hk : ∀ r, k (f r) = k r) :
    (update p f t).map k = t.map k := by
  simp only [update, List.map_map]
  refine List.map_congr_left fun r _ => ?_
  simp only [Function.comp]
  split_ifs
  · exact hk r
  · rfl

theorem find?_update [DecidableEq κ] {p : α → Bool} {f : α → α} {t : List α} {k : α → κ} (hk : ∀ r, k (f r) = k r) (x : κ) :
    (update p f t).find? (fun r => k r = x) = (t.find? (fun r => k r = x)).map fun r => if p r then f r else r := by
  induction t with
  | nil => rfl
  | cons r t ih =>
    have hr : k (if p r then f r else r) = k r := by
      split_ifs
      · exact hk r
      · rfl
    simp only [update, List.map_cons, List.find?_cons, hr] at ih ⊢
    by_cases hx : k r = x
    · simp [hx]
    · simp [hx, ih]

/-- the rows selected by `q` after an UPDATE that takes its rows out of the selection -/
theorem filter_update_of_leaves {p q : α → Bool} {f : α → α} {t : List α} (h : ∀ r ∈ t, p r = true → q (f r) = false) :
    (update p f t).filter q = t.filter fun r => q r && !p r := by
  induction t with
  | nil => rfl
  | cons r t ih =>
    have ih := ih fun r hr => h r (List.mem_cons_of_mem _ hr)
    simp only [update, List.map_cons, List.filter_cons] at ih ⊢
    cases hp : p r with
    | true => simp [h r List.mem_cons_self hp, ih]
    | false => simp [ih]

/-! ## Unique indexes -/

/-- the rows that meet `p` have distinct keys -/
def UniqueOn (p : α → Bool) (key : α → κ) (t : List α) : Prop := t.Pairwise fun a b => p a = true → p b = true → key a ≠ key b

instance [DecidableEq κ] (p : α → Bool) (key : α → κ) (t : List α) : Decidable (UniqueOn p key t) :=
  inferInstanceAs (Decidable (t.Pairwise _))

theorem uniqueOn_cons {p : α → Bool} {key : α → κ} {r : α} {t : List α} :
    UniqueOn p key (r :: t) ↔ (∀ b ∈ t, p r = true → p b = true → key r ≠ key b) ∧ UniqueOn p key t :=
  List.pairwise_cons

theorem UniqueOn.eq {p : α → Bool} {key : α → κ} {t : List α} (h : UniqueOn p key t) {a b : α} (ha : a ∈ t) (hb : b ∈ t)
    (pa : p a = true) (pb : p b = true) (hk : key a = key b) : a = b := by
  induction t with
  | nil => simp at ha
  | cons r t ih =>
    obtain ⟨h1, h2⟩ := uniqueOn_cons.1 h
    rcases List.mem_cons.1 ha with rfl | ha' <;> rcases List.mem_cons.1 hb with rfl | hb'
    · rfl
    · exact (h1 b hb' pa pb hk).elim
    · exact (h1 a ha' pb pa hk.symm).elim
    · exact ih h2 ha' hb'

/-- an UPDATE keeps an index when its rows neither enter it nor change their keys in it -/
theorem UniqueOn.update {p q : α → Bool} {key : α → κ} {f : α → α} {t : List α} (h : UniqueOn q key t)
    (hf : ∀ r ∈ t, p r = true → q (f r) = true → q r = true ∧ key (f r) = key r) : UniqueOn q key (update p f t) := by
  have hg : ∀ r ∈ t, q (if p r then f r else r) = true →
      q r = true ∧ key (if p r then f r else r) = key r := by
    intro r hr
    cases hp : p r with
    | true => simpa [hp] using hf r hr hp
    | false => simp
  refine List.pairwise_map.2 (h.imp_of_mem fun {a b} ha hb hab qa qb => ?_)
  obtain ⟨qa', ka⟩ := hg a ha qa
  obtain ⟨qb', kb⟩ := hg b hb qb
  rw [ka, kb]
  exact hab qa' qb'

/-- the look-up of a primary key finds the row -/
theorem UniqueOn.find?_eq [DecidableEq κ] {key : α → κ} {t : List α} (h : UniqueOn (fun _ => true) key t) {a : α} (ha : a ∈ t) :
    t.find? (fun r => key r = key a) = some a := by
  cases hf : t.find? (fun r => key r = key a) with
  | none =>
    have := List.find?_eq_none.1 hf a ha
    simp at this
  | some b =>
    have hb := List.mem_of_find?_eq_some hf
    have hk := List.find?_some hf
    exact congrArg some (h.eq hb ha rfl rfl (by simpa using hk))

theorem mem_of_find? [DecidableEq κ] {key : α → κ} {t : List α} {x : κ} {a : α} (h : t.find? (fun r => key r = x) = some a) :
    a ∈ t ∧ key a = x :=
  ⟨List.mem_of_find?_eq_some h, by simpa using List.find?_some h⟩

/-- the rows of one key in a unique index are one row at most -/
theorem UniqueOn.filter_key [DecidableEq κ] {p : α → Bool} {key : α → κ} {t : List α} (h : UniqueOn p key t) (x : κ) :
    (t.filter fun r => p r && decide (key r = x)) = [] ∨ ∃ a, (t.filter fun r => p r && decide (key r = x)) = [a] := by
  induction t with
  | nil => exact .inl rfl
  | cons r t ih =>
    obtain ⟨h1, h2⟩ := uniqueOn_cons.1 h
    rw [List.filter_cons]
    split_ifs with hr
    · right
      refine ⟨r, ?_⟩
      rw [List.cons_eq_cons]
      refine ⟨rfl, List.filter_eq_nil_iff.2 fun b hb hbx => ?_⟩
      simp only [Bool.and_eq_true, decide_eq_true_eq] at hr hbx
      exact h1 b hb hr.1 hbx.1 (hr.2.trans hbx.2.symm)
    · exact ih h2

/-- at most one row meets a condition that fixes the key -/
theorem UniqueOn.affected_le_one {p : α → Bool} {key : α → κ} {t : List α} (h : UniqueOn (fun _ => true) key t) {x : κ}
    (hp : ∀ r ∈ t, p r = true → key r = x) : affected p t ≤ 1 := by
  induction t with
  | nil => simp [affected]
  | cons r t ih =>
    obtain ⟨h1, h2⟩ := uniqueOn_cons.1 h
    have ih := ih h2 fun r hr => hp r (List.mem_cons_of_mem _ hr)
    simp only [affected, List.countP_cons] at ih ⊢
    cases hr : p r with
    | false => simpa using ih
    | true =>
      have h0 : t.countP p = 0 := List.countP_eq_zero.2 fun b hb hpb =>
        h1 b hb rfl rfl ((hp r List.mem_cons_self hr).trans (hp b (List.mem_cons_of_mem _ hb) hpb).symm)
      simp [h0]

/-! ## Transactions -/

variable {ε : Type*} {α β : Type}

/-- go on if the condition holds -/
def ensure (e : ε) (p : Prop) [Decidable p] : Except ε Unit := if p then .ok () else .error e

/-- go on with the row that was found -/
def orError (e : ε) : Option α → Except ε α
  | some a => .ok a
  | none => .error e

theorem bind_eq_ok {x : Except ε α} {f : α → Except ε β} {b : β} : x >>= f = .ok b ↔ ∃ a, x = .ok a ∧ f a = .ok b := by
  cases x with
  | ok a => exact ⟨fun h => ⟨a, rfl, h⟩, by rintro ⟨_, ⟨⟩, h⟩; exact h⟩
  | error e =>
    refine ⟨fun h => ?_, ?_⟩
    · cases h
    · rintro ⟨_, ⟨⟩, _⟩

theorem pure_eq_ok {a b : α} : (pure a : Except ε α) = .ok b ↔ a = b := Except.ok.injEq a b ▸ Iff.rfl

theorem ensure_eq_ok {e : ε} {p : Prop} [Decidable p] {u : Unit} : ensure e p = .ok u ↔ p := by
  unfold ensure
  split_ifs with h <;> simp [h]

theorem orError_eq_ok {e : ε} {o : Option α} {a : α} : orError e o = .ok a ↔ o = some a := by
  cases o <;> simp [orError]

end OwlMux.Table
