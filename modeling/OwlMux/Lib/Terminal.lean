/-
A VT terminal with a screen of `width` by `height` cells, as far as repainting a screen needs it: the control characters CR
and LF, RIS, the alternate screen (1049), CUP, ED, DECSTBM, DECOM, IRM, DECAWM with a pending wrap, DECCKM, the keypad modes,
DECTCEM and SGR.

The terminal reads characters. Every printable character takes one cell; wide and combining characters are outside the model.
The rendition that SGR builds up is abstract: `Pens` says what a sequence does to it. An escape character begins a new
sequence whatever came before, so a text that begins with one is read the same way from every state of the parser.

- `feed_append`, `feed_csi`: the text of a control sequence is its effect;
- `Painting`: the state in the middle of painting rows from the top, and what each piece of a row does to it;
- `paintRows_run`: rows that fit the screen are painted as they are, and nothing scrolls.
-/
import Mathlib.Tactic

namespace OwlMux.Terminal

/-! ## The terminal -/

/-- what SGR sequences do to the rendition -/
structure Pens (π : Type) where
  plain : π
  sgr : List Char → π → π

structure Cell (π : Type) where
  char : Char
  pen : π
deriving DecidableEq, Repr

abbrev Screen (π : Type) := ℕ → ℕ → Cell π

inductive Parser where
  | ground
  | escape
  /-- a control sequence with the characters behind the introducer -/
  | csi (collected : List Char)
deriving DecidableEq, Repr

structure Term (π : Type) where
  parser : Parser
  primary : Screen π
  alternateScreen : Screen π
  alternate : Bool
  row : ℕ
  col : ℕ
  /-- the last column has been written, and the next character wraps -/
  pendingWrap : Bool
  top : ℕ
  bottom : ℕ
  pen : π
  origin : Bool
  insert : Bool
  autowrap : Bool
  applicationCursor : Bool
  applicationKeypad : Bool
  cursorVisible : Bool
  /-- the cursor 1049 has saved -/
  saved : ℕ × ℕ × π
  /-- rows that have scrolled out of the region since the last reset -/
  lost : List (ℕ → Cell π)

variable {π : Type} (P : Pens π) (width height : ℕ)

def blank : Cell π := ⟨' ', P.plain⟩

def Term.screen (t : Term π) : Screen π := if t.alternate then t.alternateScreen else t.primary

def Term.setScreen (t : Term π) (s : Screen π) : Term π :=
  { t with
    primary := if t.alternate then t.primary else s
    alternateScreen := if t.alternate then s else t.alternateScreen }

/-- RIS -/
def Term.reset : Term π where
  parser := .ground
  primary := fun _ _ => blank P
  alternateScreen := fun _ _ => blank P
  alternate := false
  row := 0
  col := 0
  pendingWrap := false
  top := 0
  bottom := height - 1
  pen := P.plain
  origin := false
  insert := false
  autowrap := true
  applicationCursor := false
  applicationKeypad := false
  cursorVisible := true
  saved := (0, 0, P.plain)
  lost := []

/-- the region moves up by one row -/
def Term.scrollUp (t : Term π) : Term π :=
  { t.setScreen fun r c =>
      if t.top ≤ r ∧ r < t.bottom then t.screen (r + 1) c
      else if r = t.bottom then ⟨' ', t.pen⟩
      else t.screen r c with
    lost := t.lost ++ [t.screen t.top] }

def Term.lineFeed (t : Term π) : Term π :=
  if t.row = t.bottom then { t.scrollUp with pendingWrap := false }
  else if t.row + 1 < height then { t with row := t.row + 1, pendingWrap := false }
  else { t with pendingWrap := false }

/-- the screen with a character in the cell of the cursor; in insert mode the rest of the row moves right -/
def Term.written (t : Term π) (c : Char) : Screen π := fun r i =>
  if r = t.row then
    if i = t.col then ⟨c, t.pen⟩ else if t.insert && t.col < i then t.screen r (i - 1) else t.screen r i
  else t.screen r i

/-- the cursor behind a character -/
def Term.advance (t : Term π) : Term π :=
  if t.col + 1 < width then { t with col := t.col + 1, pendingWrap := false } else { t with pendingWrap := t.autowrap }

def Term.put (t : Term π) (c : Char) : Term π := (t.setScreen (t.written c)).advance width

def Term.print (t : Term π) (c : Char) : Term π :=
  if t.pendingWrap then (({ t with col := 0 } : Term π).lineFeed height).put width c else t.put width c

/-- a control character; the others do nothing here -/
def Term.execute (t : Term π) (c : Char) : Term π :=
  if c = '\r' then { t with col := 0, pendingWrap := false }
  else if c = '\n' then t.lineFeed height
  -- CAN and SUB end a sequence
  else if c.toNat = 24 ∨ c.toNat = 26 then { t with parser := .ground }
  else t

/-! ## Sequences -/

def Term.home (t : Term π) : Term π := { t with row := if t.origin then t.top else 0, col := 0, pendingWrap := false }

/-- the parameters between semicolons, with the one being read -/
def paramsFrom (n : ℕ) : List Char → List ℕ
  | [] => [n]
  | c :: cs => if c = ';' then n :: paramsFrom 0 cs else paramsFrom (n * 10 + (c.toNat - 48)) cs

/-- a parameter that is left out is 0 -/
def params (ps : List Char) : List ℕ := paramsFrom 0 ps

def param (ps : List ℕ) (i : ℕ) : ℕ := ps.getD i 0

/-- CUP, counted from the region in origin mode -/
def Term.cursorPosition (t : Term π) (ps : List ℕ) : Term π :=
  let row := max (param ps 0) 1 - 1
  { t with
    row := if t.origin then min (t.top + row) t.bottom else min row (height - 1)
    col := min (max (param ps 1) 1 - 1) (width - 1)
    pendingWrap := false }

/-- what ED erases: behind the cursor, before it, or everything -/
def Term.erases (t : Term π) (part r c : ℕ) : Bool :=
  match part with
  | 0 => t.row < r || (r == t.row && t.col ≤ c)
  | 1 => r < t.row || (r == t.row && c ≤ t.col)
  | 2 => true
  | _ => false

/-- ED -/
def Term.eraseDisplay (t : Term π) (ps : List ℕ) : Term π :=
  t.setScreen fun r c => if t.erases (param ps 0) r c then ⟨' ', t.pen⟩ else t.screen r c

/-- DECSTBM; a region of one row is no region -/
def Term.scrollRegion (t : Term π) (ps : List ℕ) : Term π :=
  let top := max (param ps 0) 1 - 1
  let bottom := if param ps 1 = 0 ∨ height < param ps 1 then height - 1 else param ps 1 - 1
  if top < bottom then ({ t with top := top, bottom := bottom } : Term π).home else t

/-- a private mode, set or reset -/
def Term.privateMode (t : Term π) (on : Bool) (mode : ℕ) : Term π :=
  match mode with
  | 1 => { t with applicationCursor := on }
  | 6 => ({ t with origin := on } : Term π).home
  | 7 => { t with autowrap := on }
  | 25 => { t with cursorVisible := on }
  | 1049 =>
    if on then { t with saved := (t.row, t.col, t.pen), alternate := true, alternateScreen := fun _ _ => blank P, pendingWrap := false }
    else { t with alternate := false, row := t.saved.1, col := t.saved.2.1, pen := t.saved.2.2, pendingWrap := false }
  | _ => t

def Term.ansiMode (t : Term π) (on : Bool) (mode : ℕ) : Term π :=
  match mode with
  | 4 => { t with insert := on }
  | _ => t

def Term.modes (t : Term π) (on : Bool) (ps : List Char) : Term π :=
  match ps with
  | '?' :: ps => (params ps).foldl (fun t m => t.privateMode P on m) t
  | ps => (params ps).foldl (fun t m => t.ansiMode on m) t

/-- a whole control sequence -/
def Term.control (t : Term π) (ps : List Char) (final : Char) : Term π :=
  if final = 'H' then t.cursorPosition width height (params ps)
  else if final = 'J' then t.eraseDisplay (params ps)
  else if final = 'm' then { t with pen := P.sgr ps t.pen }
  else if final = 'r' then t.scrollRegion height (params ps)
  else if final = 'h' then t.modes P true ps
  else if final = 'l' then t.modes P false ps
  else t

/-- the character behind an escape -/
def Term.escaped (t : Term π) (c : Char) : Term π :=
  if c = '[' then { t with parser := .csi [] }
  else if c = 'c' then Term.reset P height
  else if c = '=' then { t with parser := .ground, applicationKeypad := true }
  else if c = '>' then { t with parser := .ground, applicationKeypad := false }
  else { t with parser := .ground }

def printable (c : Char) : Bool := 32 ≤ c.toNat && !(127 ≤ c.toNat && c.toNat < 160)

/-- one character -/
def Term.step (t : Term π) (c : Char) : Term π :=
  if c.toNat = 27 then { t with parser := .escape }
  else if c.toNat < 32 then t.execute height c
  else
    match t.parser with
    | .ground => if printable c then t.print width height c else t
    | .escape => t.escaped P height c
    | .csi ps =>
      if 64 ≤ c.toNat ∧ c.toNat ≤ 126 then ({ t with parser := .ground } : Term π).control P width height ps c
      else { t with parser := .csi (ps ++ [c]) }

def Term.feed (t : Term π) (text : List Char) : Term π := text.foldl (fun t c => t.step P width height c) t

theorem feed_append (t : Term π) (a b : List Char) :
    t.feed P width height (a ++ b) = (t.feed P width height a).feed P width height b := List.foldl_append

theorem feed_nil (t : Term π) : t.feed P width height [] = t := rfl

theorem feed_cons (t : Term π) (c : Char) (text : List Char) :
    t.feed P width height (c :: text) = (t.step P width height c).feed P width height text := rfl

/-! ## A control sequence is its effect -/

variable {P width height} {t : Term π}

/-- a character that is collected -/
def Collected (c : Char) : Prop := 32 ≤ c.toNat ∧ c.toNat < 64

instance : DecidablePred Collected := fun _ => inferInstanceAs (Decidable (_ ∧ _))

theorem feed_collected {ps : List Char} (h : ∀ c ∈ ps, Collected c) {qs : List Char} (ht : t.parser = .csi qs) :
    t.feed P width height ps = { t with parser := .csi (qs ++ ps) } := by
  induction ps generalizing t qs with
  | nil =>
    rw [feed_nil, List.append_nil, ← ht]
  | cons c ps ih =>
    obtain ⟨h1, h2⟩ := h c List.mem_cons_self
    have hstep : t.step P width height c = { t with parser := .csi (qs ++ [c]) } := by
      rw [Term.step, if_neg (by omega), if_neg (by omega), ht]
      exact if_neg (by omega)
    rw [feed_cons, hstep, ih (fun d hd => h d (List.mem_cons_of_mem _ hd)) rfl, List.append_assoc]
    rfl

/-- **A control sequence**, from every state of the parser. -/
theorem feed_csi {ps : List Char} (h : ∀ c ∈ ps, Collected c) {final : Char} (hf : 64 ≤ final.toNat ∧ final.toNat ≤ 126) :
    t.feed P width height ('\x1b' :: '[' :: (ps ++ [final])) =
      ({ t with parser := .ground } : Term π).control P width height ps final := by
  have h1 : t.step P width height '\x1b' = { t with parser := .escape } := if_pos rfl
  have h2 : ({ t with parser := .escape } : Term π).step P width height '[' = { t with parser := .csi [] } := rfl
  have h3 : ({ t with parser := .csi ps } : Term π).step P width height final =
      ({ t with parser := .ground } : Term π).control P width height ps final := by
    rw [Term.step, if_neg (by omega), if_neg (by omega)]
    exact if_pos hf
  rw [feed_cons, h1, feed_cons, h2, feed_append, feed_collected h rfl, feed_cons, List.nil_append, h3, feed_nil]

/-- RIS, from every state -/
theorem feed_reset : t.feed P width height ['\x1b', 'c'] = Term.reset P height := by
  have h1 : t.step P width height '\x1b' = { t with parser := .escape } := if_pos rfl
  rw [feed_cons, h1, feed_cons, feed_nil]
  rfl

theorem feed_keypad (on : Bool) :
    t.feed P width height ['\x1b', if on then '=' else '>'] = { t with parser := .ground, applicationKeypad := on } := by
  have h1 : t.step P width height '\x1b' = { t with parser := .escape } := if_pos rfl
  rw [feed_cons, h1, feed_cons, feed_nil]
  cases on <;> rfl

/-! ## Parameters -/

theorem collected_toDigits {n : ℕ} : ∀ c ∈ Nat.toDigits 10 n, Collected c ∧ c ≠ ';' := by
  intro c hc
  have hd := Nat.isDigit_of_mem_toDigits (by omega) (by omega) hc
  simp only [Char.isDigit, Bool.and_eq_true, decide_eq_true_eq] at hd
  have h1 : 48 ≤ c.toNat := hd.1
  have h2 : c.toNat ≤ 57 := hd.2
  refine ⟨⟨by omega, by omega⟩, ?_⟩
  rintro rfl
  have : (';' : Char).toNat = 59 := by decide
  omega

theorem paramsFrom_toDigits (n : ℕ) (rest : List Char) : paramsFrom 0 (Nat.toDigits 10 n ++ rest) = paramsFrom n rest := by
  have hdigit : ∀ m : Fin 10, Nat.digitChar m ≠ ';' ∧ (Nat.digitChar m).toNat - 48 = m := by decide
  induction n using Nat.strong_induction_on generalizing rest with
  | _ n ih =>
    rw [Nat.toDigits_eq_if (by omega)]
    split_ifs with hn
    · obtain ⟨h1, h2⟩ := hdigit ⟨n, hn⟩
      dsimp only at h1 h2
      rw [List.singleton_append, paramsFrom, if_neg h1, h2, Nat.zero_mul, Nat.zero_add]
    · obtain ⟨h1, h2⟩ := hdigit ⟨n % 10, Nat.mod_lt _ (by omega)⟩
      dsimp only at h1 h2
      rw [List.append_assoc, ih (n / 10) (by omega), List.singleton_append, paramsFrom, if_neg h1, h2]
      congr 1
      omega

/-- two numbers and a semicolon between them -/
theorem params_pair (a b : ℕ) : params (Nat.toDigits 10 a ++ ';' :: Nat.toDigits 10 b) = [a, b] := by
  rw [params, paramsFrom_toDigits, paramsFrom, if_pos rfl, ← List.append_nil (Nat.toDigits 10 b), paramsFrom_toDigits, paramsFrom]

/-! ## Painting rows -/

/-- a piece of a row: a character or an SGR sequence with its parameters -/
inductive Piece where
  | cell (c : Char) (h : printable c = true)
  | sgr (ps : List Char) (h : ∀ c ∈ ps, Collected c)

def Piece.text : Piece → List Char
  | .cell c _ => [c]
  | .sgr ps _ => '\x1b' :: '[' :: (ps ++ ['m'])

/-- the number of cells of a row -/
def cells : List Piece → ℕ
  | [] => 0
  | .cell _ _ :: row => cells row + 1
  | .sgr _ _ :: row => cells row

variable (P) in
/-- the cells of a row from a pen, and the pen behind it -/
def paint (pen : π) : List Piece → List (Cell π) × π
  | [] => ([], pen)
  | .cell c _ :: row => (⟨c, pen⟩ :: (paint pen row).1, (paint pen row).2)
  | .sgr ps _ :: row => paint (P.sgr ps pen) row

variable (P) in
/-- the cells of the rows; the pen goes on from row to row -/
def paintRows (pen : π) : List (List Piece) → List (List (Cell π))
  | [] => []
  | row :: rows => (paint P pen row).1 :: paintRows (paint P pen row).2 rows

/-- the rows from the top, everything else blank -/
def shown (P : Pens π) (rows : List (List (Cell π))) : Screen π := fun r c => ((rows.getD r [])[c]?).getD (blank P)

/-- in the middle of painting: the rows above, and the cells of the row of the cursor -/
structure Painting (P : Pens π) (width height : ℕ) (above : List (List (Cell π))) (here : List (Cell π)) (alternate : Bool)
    (t : Term π) : Prop where
  parser : t.parser = .ground
  screen : t.screen = shown P (above ++ [here])
  alternate : t.alternate = alternate
  row : t.row = above.length
  col : t.col = min here.length (width - 1)
  pendingWrap : t.pendingWrap = decide (here.length = width)
  region : t.top = 0 ∧ t.bottom = height - 1
  origin : t.origin = false
  insert : t.insert = false
  autowrap : t.autowrap = true
  lost : t.lost = []

theorem screen_setScreen (t : Term π) (s : Screen π) : (t.setScreen s).screen = s := by
  unfold Term.setScreen Term.screen
  cases t.alternate <;> rfl

/-- one more cell in the row of the cursor -/
theorem shown_snoc (P : Pens π) (above : List (List (Cell π))) (here : List (Cell π)) (x : Cell π) (r i : ℕ) :
    shown P (above ++ [here ++ [x]]) r i =
      if r = above.length then if i = here.length then x else shown P (above ++ [here]) r i
      else shown P (above ++ [here]) r i := by
  split_ifs with hr hi
  · subst hr hi
    simp [shown]
  · subst hr
    simp only [shown, List.getD_eq_getElem?_getD, List.getElem?_concat_length, Option.getD_some]
    rcases Nat.lt_or_ge i here.length with hlt | hge
    · rw [List.getElem?_append_left hlt]
    · rw [List.getElem?_eq_none hge, List.getElem?_eq_none (by rw [List.length_append, List.length_singleton]; omega)]
  · rcases Nat.lt_or_ge r above.length with hlt | hge
    · simp only [shown, List.getD_eq_getElem?_getD, List.getElem?_append_left hlt]
    · have hnone : ∀ last : List (Cell π), (above ++ [last])[r]? = none := by
        intro last
        refine List.getElem?_eq_none ?_
        rw [List.length_append, List.length_singleton]
        omega
      simp only [shown, List.getD_eq_getElem?_getD, hnone]

variable {above : List (List (Cell π))} {here : List (Cell π)} {alternate : Bool}

/-- a character in a row that has room -/
theorem Painting.cell (h : Painting P width height above here alternate t) (hroom : here.length < width) {c : Char}
    (hc : printable c = true) :
    Painting P width height above (here ++ [⟨c, t.pen⟩]) alternate (t.step P width height c) ∧
      (t.step P width height c).pen = t.pen := by
  have hcol : t.col = here.length := by
    rw [h.col]
    omega
  have hpending : t.pendingWrap = false := by
    rw [h.pendingWrap, decide_eq_false_iff_not]
    omega
  have hstep : t.step P width height c = t.put width c := by
    have hn : 32 ≤ c.toNat := by
      simp only [printable, Bool.and_eq_true, decide_eq_true_eq] at hc
      exact hc.1
    rw [Term.step, if_neg (by omega), if_neg (by omega), h.parser]
    simp only [hc, if_true, Term.print, hpending, Bool.false_eq_true, if_false]
  have hwritten : t.written c = shown P (above ++ [here ++ [⟨c, t.pen⟩]]) := by
    funext r i
    rw [shown_snoc]
    simp only [Term.written, h.row, hcol, h.insert, h.screen, Bool.false_and, Bool.false_eq_true, if_false]
  have hlen : (here ++ [(⟨c, t.pen⟩ : Cell π)]).length = here.length + 1 := by simp
  have hscreen := screen_setScreen t (shown P (above ++ [here ++ [⟨c, t.pen⟩]]))
  rw [hstep, Term.put, hwritten]
  by_cases hw : here.length + 1 < width
  · have hadvance : (t.setScreen (shown P (above ++ [here ++ [⟨c, t.pen⟩]]))).advance width =
        { t.setScreen (shown P (above ++ [here ++ [⟨c, t.pen⟩]])) with col := t.col + 1, pendingWrap := false } :=
      if_pos (by show t.col + 1 < width; rw [hcol]; exact hw)
    rw [hadvance]
    refine ⟨⟨h.parser, hscreen, h.alternate, h.row, ?_, ?_, h.region, h.origin, h.insert, h.autowrap, h.lost⟩, rfl⟩
    · show t.col + 1 = _
      omega
    · show false = _
      rw [eq_comm, decide_eq_false_iff_not]
      omega
  · have hadvance : (t.setScreen (shown P (above ++ [here ++ [⟨c, t.pen⟩]]))).advance width =
        { t.setScreen (shown P (above ++ [here ++ [⟨c, t.pen⟩]])) with pendingWrap := t.autowrap } :=
      if_neg (by show ¬ t.col + 1 < width; rw [hcol]; exact hw)
    rw [hadvance]
    refine ⟨⟨h.parser, hscreen, h.alternate, h.row, ?_, ?_, h.region, h.origin, h.insert, h.autowrap, h.lost⟩, rfl⟩
    · show t.col = _
      omega
    · show t.autowrap = _
      rw [h.autowrap, eq_comm, decide_eq_true_eq]
      omega

/-- an SGR sequence changes the pen alone -/
theorem Painting.sgr (h : Painting P width height above here alternate t) {ps : List Char} (hps : ∀ c ∈ ps, Collected c) :
    Painting P width height above here alternate (t.feed P width height ('\x1b' :: '[' :: (ps ++ ['m']))) ∧
      (t.feed P width height ('\x1b' :: '[' :: (ps ++ ['m']))).pen = P.sgr ps t.pen := by
  rw [feed_csi hps (by decide)]
  have hcontrol : ({ t with parser := .ground } : Term π).control P width height ps 'm' =
      { t with parser := .ground, pen := P.sgr ps t.pen } := by
    rw [Term.control, if_neg (by decide), if_neg (by decide), if_pos rfl]
  rw [hcontrol]
  exact ⟨⟨rfl, h.screen, h.alternate, h.row, h.col, h.pendingWrap, h.region, h.origin, h.insert, h.autowrap, h.lost⟩, rfl⟩

/-- **A row.** -/
theorem Painting.pieces (row : List Piece) (h : Painting P width height above here alternate t)
    (hroom : here.length + cells row ≤ width) :
    Painting P width height above (here ++ (paint P t.pen row).1) alternate (t.feed P width height (row.flatMap Piece.text)) ∧
      (t.feed P width height (row.flatMap Piece.text)).pen = (paint P t.pen row).2 := by
  induction row generalizing t here with
  | nil => exact ⟨by simpa [paint, feed_nil] using h, rfl⟩
  | cons x row ih =>
    rw [List.flatMap_cons, feed_append]
    cases x with
    | cell c hc =>
      simp only [cells] at hroom
      obtain ⟨h1, hpen⟩ := h.cell (by omega) hc
      have h2 := ih h1 (by rw [List.length_append, List.length_singleton]; omega)
      rw [hpen, List.append_assoc] at h2
      exact h2
    | sgr ps hps =>
      obtain ⟨h1, hpen⟩ := h.sgr hps
      have h2 := ih h1 hroom
      rw [hpen] at h2
      exact h2

/-- the next row begins: the cursor is above the last row of the screen, so nothing scrolls -/
theorem Painting.newRow (h : Painting P width height above here alternate t) (hwidth : 0 < width)
    (hrow : above.length + 1 < height) :
    Painting P width height (above ++ [here]) [] alternate (t.feed P width height ['\r', '\n']) ∧
      (t.feed P width height ['\r', '\n']).pen = t.pen := by
  have hcr : t.step P width height '\r' = { t with col := 0, pendingWrap := false } := rfl
  have hlf : ({ t with col := 0, pendingWrap := false } : Term π).step P width height '\n' =
      { t with col := 0, pendingWrap := false, row := t.row + 1 } := by
    have hne : t.row ≠ t.bottom := by
      rw [h.row, h.region.2]
      omega
    have hlt : t.row + 1 < height := by
      rw [h.row]
      exact hrow
    show ({ t with col := 0, pendingWrap := false } : Term π).lineFeed height = _
    rw [Term.lineFeed, if_neg hne, if_pos hlt]
  rw [feed_cons, hcr, feed_cons, hlf, feed_nil]
  refine ⟨⟨h.parser, ?_, h.alternate, ?_, ?_, ?_, h.region, h.origin, h.insert, h.autowrap, h.lost⟩, rfl⟩
  · show t.screen = _
    rw [h.screen]
    funext r c
    simp only [shown, List.getD_eq_getElem?_getD]
    rcases Nat.lt_or_ge r (above ++ [here]).length with hlt | hge
    · rw [List.getElem?_append_left hlt]
    · have hempty : (above ++ [here] ++ [([] : List (Cell π))])[r]?.getD [] = [] := by
        rw [List.getElem?_append_right hge]
        cases r - (above ++ [here]).length <;> rfl
      rw [List.getElem?_eq_none hge, hempty]
      rfl
  · show t.row + 1 = _
    rw [h.row, List.length_append, List.length_singleton]
  · show 0 = _
    simp
  · show false = _
    rw [eq_comm, decide_eq_false_iff_not, List.length_nil]
    omega

/-- the text of the rows, with a new line between them -/
def rowsText : List (List Piece) → List Char
  | [] => []
  | [row] => row.flatMap Piece.text
  | row :: next :: rows => row.flatMap Piece.text ++ (['\r', '\n'] ++ rowsText (next :: rows))

/-- **Rows that fit the screen** are painted as they are. -/
theorem paintRows_run (rows : List (List Piece)) (hne : rows ≠ []) (h : Painting P width height above [] alternate t)
    (hwidth : 0 < width) (hrows : above.length + rows.length ≤ height) (hcells : ∀ row ∈ rows, cells row ≤ width) :
    ∃ above' here', above' ++ [here'] = above ++ paintRows P t.pen rows ∧
      Painting P width height above' here' alternate (t.feed P width height (rowsText rows)) := by
  induction rows generalizing above t with
  | nil => exact (hne rfl).elim
  | cons row rows ih =>
    obtain ⟨h1, hpen1⟩ := h.pieces row (by simpa using hcells row List.mem_cons_self)
    rw [List.nil_append] at h1
    cases rows with
    | nil => exact ⟨above, _, rfl, h1⟩
    | cons next rows =>
      simp only [List.length_cons] at hrows
      obtain ⟨h2, hpen2⟩ := h1.newRow hwidth (by omega)
      obtain ⟨above', here', happ, h3⟩ := ih (by simp) h2
        (by simp only [List.length_append, List.length_cons, List.length_nil]; omega)
        fun x hx => hcells x (List.mem_cons_of_mem _ hx)
      refine ⟨above', here', ?_, ?_⟩
      · rw [happ, hpen2, hpen1, List.append_assoc]
        rfl
      · rw [rowsText, feed_append, feed_append]
        exact h3

end OwlMux.Terminal
