/-
tmux's format language, as far as the program meets it: `#{name}` stands for a variable, `#(command)` for the output of a job
run on the target, `##` for one `#`. Everything else stands for itself.

`pieces` reads a format; `expand` and `jobs` say what becomes of it.

Results:
- `expand_fields`: a format that is a list of variables between separators expands to their values;
- `literal_iff`: a text is left alone on every target, without a job, exactly when it holds no expression (`Expression`).
-/
import Mathlib.Tactic
import OwlMux.Tmux.Adapter

namespace OwlMux.Tmux

open OwlMux.Relay (Text)

/-! ## The language -/

inductive Piece where
  | char (c : Char)
  | hash
  | lookup (name : Text)
  | job (command : Text)
deriving DecidableEq, Repr

/-- the expression a closing character ends -/
def Piece.closed (close : Char) (body : Text) : Piece := if close = ')' then .job body else .lookup body

/-- the pieces of a format, inside an expression that `close` ends or outside one; an expression that is never closed is
text -/
def piecesFrom : Option (Char × Text) → Text → List Piece
  | some (_, _), [] => []
  | some (close, body), c :: t =>
    if c = close then .closed close body :: piecesFrom none t else piecesFrom (some (close, body ++ [c])) t
  | none, [] => []
  | none, c :: [] => [.char c]
  | none, c :: d :: t =>
    if c = '#' ∧ d = '#' then .hash :: piecesFrom none t
    else if c = '#' ∧ d = '{' ∧ '}' ∈ t then piecesFrom (some ('}', [])) t
    else if c = '#' ∧ d = '(' ∧ ')' ∈ t then piecesFrom (some (')', [])) t
    else .char c :: piecesFrom none (d :: t)

def pieces (format : Text) : List Piece := piecesFrom none format

/-- what a target knows when it expands a format -/
structure Target where
  lookup : Text → Text
  output : Text → Text

def Piece.value (env : Target) : Piece → Text
  | .char c => [c]
  | .hash => ['#']
  | .lookup name => env.lookup name
  | .job command => env.output command

def expand (env : Target) (format : Text) : Text := (pieces format).flatMap (Piece.value env)

def Piece.command : Piece → Option Text
  | .job command => some command
  | _ => none

/-- the commands the expansion runs -/
def jobs (format : Text) : List Text := (pieces format).filterMap Piece.command

/-! ## Lists of variables -/

theorem piecesFrom_open (close : Char) (body name rest : Text) (h : close ∉ name) :
    piecesFrom (some (close, body)) (name ++ close :: rest) = .closed close (body ++ name) :: piecesFrom none rest := by
  induction name generalizing body with
  | nil => simp [piecesFrom]
  | cons c name ih =>
    rw [List.mem_cons, not_or] at h
    rw [List.cons_append, piecesFrom, if_neg (Ne.symm h.1), ih _ h.2, List.append_assoc, List.singleton_append]

/-- `#{name}` -/
def reference (name : Text) : Text := '#' :: '\x7b' :: (name ++ ['\x7d'])

theorem pieces_reference {name : Text} (h : '\x7d' ∉ name) (rest : Text) :
    pieces (reference name ++ rest) = .lookup name :: pieces rest := by
  have hfrom := piecesFrom_open '\x7d' [] name rest h
  simp only [List.nil_append, Piece.closed] at hfrom
  simp only [pieces, reference, List.cons_append, List.append_assoc, piecesFrom]
  simpa using hfrom

theorem pieces_char {c : Char} (h : c ≠ '#') (rest : Text) : pieces (c :: rest) = .char c :: pieces rest := by
  cases rest with
  | nil => rfl
  | cons d rest => simp [pieces, piecesFrom, h]

example : pieces "a#\x7bb\x7dc".toList = [.char 'a', .lookup ['b'], .char 'c'] := by decide +kernel

theorem expand_reference (env : Target) {name : Text} (h : '\x7d' ∉ name) (rest : Text) :
    expand env (reference name ++ rest) = env.lookup name ++ expand env rest := by
  rw [expand, pieces_reference h, List.flatMap_cons]
  rfl

theorem expand_char (env : Target) {c : Char} (h : c ≠ '#') (rest : Text) : expand env (c :: rest) = c :: expand env rest := by
  rw [expand, pieces_char h, List.flatMap_cons]
  rfl

/-- **A list of variables.** -/
theorem expand_fields (env : Target) {sep : Char} (hsep : sep ≠ '#') {names : List Text} (h : ∀ n ∈ names, '\x7d' ∉ n) :
    expand env ((names.map reference).intersperse [sep]).flatten =
      ((names.map env.lookup).intersperse [sep]).flatten := by
  induction names with
  | nil => rfl
  | cons a names ih =>
    have ha := h a List.mem_cons_self
    cases names with
    | nil =>
      have hone := expand_reference env ha []
      simpa [expand, pieces, piecesFrom] using hone
    | cons b names =>
      have hrest := ih fun n hn => h n (List.mem_cons_of_mem _ hn)
      simp only [List.map_cons, List.intersperse_cons_cons, List.flatten_cons, List.singleton_append] at hrest ⊢
      rw [expand_reference env ha, expand_char env hsep, hrest]

/-! ## Texts that are left alone -/

/-- the text holds an expression: `##`, or an opening with its closing character behind it -/
inductive Expression : Text → Prop where
  | hash (t : Text) : Expression ('#' :: '#' :: t)
  | lookup {t : Text} (h : '\x7d' ∈ t) : Expression ('#' :: '\x7b' :: t)
  | job {t : Text} (h : ')' ∈ t) : Expression ('#' :: '(' :: t)
  | later (c : Char) {t : Text} (h : Expression t) : Expression (c :: t)

/-- without an expression every character stands for itself -/
theorem pieces_of_literal {t : Text} (h : ¬ Expression t) : pieces t = t.map Piece.char := by
  induction t with
  | nil => rfl
  | cons c t ih =>
    have hrest := ih fun he => h (.later c he)
    cases t with
    | nil => rfl
    | cons d t =>
      have h1 : ¬ (c = '#' ∧ d = '#') := by
        rintro ⟨rfl, rfl⟩
        exact h (.hash t)
      have h2 : ¬ (c = '#' ∧ d = '\x7b' ∧ '\x7d' ∈ t) := by
        rintro ⟨rfl, rfl, hm⟩
        exact h (.lookup hm)
      have h3 : ¬ (c = '#' ∧ d = '(' ∧ ')' ∈ t) := by
        rintro ⟨rfl, rfl, hm⟩
        exact h (.job hm)
      rw [pieces, piecesFrom, if_neg h1, if_neg h2, if_neg h3, List.map_cons, ← hrest]
      rfl

/-- a target on which everything is empty -/
def bareTarget : Target := ⟨fun _ => [], fun _ => []⟩

theorem length_value_closed (close : Char) (body : Text) : (Piece.value bareTarget (.closed close body)).length = 0 := by
  unfold Piece.closed
  split_ifs <;> rfl

/-- an expression is gone with its opening on the bare target -/
theorem length_opened {close : Char} {t : Text} {n : ℕ} (hmem : close ∈ t) (hn : t.length ≤ n)
    (ih : ∀ s : Text, s.length ≤ n → (expand bareTarget s).length ≤ s.length) :
    ((piecesFrom (some (close, [])) t).flatMap (Piece.value bareTarget)).length < t.length := by
  obtain ⟨name, rest, rfl, hname⟩ := List.eq_append_cons_of_mem hmem
  rw [List.length_append, List.length_cons] at hn ⊢
  have hrest := ih rest (by omega)
  rw [piecesFrom_open _ _ _ _ hname, List.flatMap_cons, List.length_append, length_value_closed]
  calc 0 + (expand bareTarget rest).length ≤ rest.length := by omega
    _ < name.length + (rest.length + 1) := by omega

theorem length_expand {n : ℕ} {t : Text} (hn : t.length ≤ n) :
    (expand bareTarget t).length ≤ t.length ∧ (Expression t → (expand bareTarget t).length < t.length) := by
  induction n generalizing t with
  | zero =>
    obtain rfl := List.length_eq_zero_iff.1 (Nat.le_zero.1 hn)
    refine ⟨le_rfl, ?_⟩
    intro h
    cases h
  | succ n ih =>
    match t, hn with
    | [], _ => exact ⟨le_rfl, fun h => by cases h⟩
    | [c], _ =>
      refine ⟨le_rfl, ?_⟩
      intro h
      cases h with
      | later c h => cases h
    | c :: d :: t, hn =>
      simp only [List.length_cons] at hn
      have hall : ∀ s : Text, s.length ≤ n → (expand bareTarget s).length ≤ s.length := fun s hs => (ih hs).1
      simp only [expand, pieces, piecesFrom, List.length_cons]
      split_ifs with h1 h2 h3
      · -- `##` is one character for two
        have hrest := hall t (by omega)
        simp only [List.flatMap_cons, List.length_append, Piece.value, List.length_singleton]
        have hfold : ((piecesFrom none t).flatMap (Piece.value bareTarget)).length = (expand bareTarget t).length := rfl
        exact ⟨by omega, fun _ => by omega⟩
      · have hopen := length_opened (n := n) h2.2.2 (by omega) hall
        exact ⟨by omega, fun _ => by omega⟩
      · have hopen := length_opened (n := n) h3.2.2 (by omega) hall
        exact ⟨by omega, fun _ => by omega⟩
      · -- the head stands for itself, so an expression is in the rest
        have hrest := ih (t := d :: t) (by simp only [List.length_cons]; omega)
        have hfold : ((piecesFrom none (d :: t)).flatMap (Piece.value bareTarget)).length =
          (expand bareTarget (d :: t)).length := rfl
        simp only [List.flatMap_cons, List.length_append, Piece.value, List.length_cons, List.length_nil] at hrest ⊢
        refine ⟨by omega, ?_⟩
        intro he
        have hlater : Expression (d :: t) := by
          cases he with
          | hash => exact (h1 ⟨rfl, rfl⟩).elim
          | lookup hm => exact (h2 ⟨rfl, rfl, hm⟩).elim
          | job hm => exact (h3 ⟨rfl, rfl, hm⟩).elim
          | later c h => exact h
        have := hrest.2 hlater
        omega

/-- **What is left alone.** -/
theorem literal_iff (t : Text) : (∀ env, expand env t = t) ∧ jobs t = [] ↔ ¬ Expression t := by
  constructor
  · intro h he
    have hshort := (length_expand le_rfl).2 he
    rw [h.1 bareTarget] at hshort
    omega
  · intro h
    have hp := pieces_of_literal h
    constructor
    · intro env
      rw [expand, hp, List.flatMap_map]
      exact List.flatMap_singleton' t
    · rw [jobs, hp, List.filterMap_map]
      simp [Piece.command]

end OwlMux.Tmux
