/-
Rows of `list-panes`, in both directions: what tmux writes for a pane (`PANE_FORMAT`, expanded), what `parse_pane_row` makes of
it, and what `capture_lines` then sends to the Browser's terminal.

`PaneState` is a pane inside tmux. While a wrap is pending tmux keeps the cursor one column past the last, and a cursor in
origin mode may stand on any row: DECSTBM moves it to the first.

Results:
- `pane_row_round_trip`: a row is read back exactly when no wrap is pending and the cursor is not above the scroll region in
  origin mode;
- `admitted_panes_replayable`: of an admitted set of panes everything is in range but one address: in origin mode nothing keeps
  the cursor above the lower end of the region.
-/
import Mathlib.Tactic
import OwlMux.Tmux.Format
import OwlMux.Tmux.Bootstrap
import OwlMux.Tmux.Result

namespace OwlMux.Tmux

open OwlMux.Relay (Text)

/-! ## A pane inside tmux -/

structure PaneState where
  id : ℕ
  active : Bool
  width : ℕ
  height : ℕ
  left : ℕ
  top : ℕ
  cursorX : ℕ
  cursorY : ℕ
  alternateOn : Bool
  cursorFlag : Bool
  insertFlag : Bool
  keypadCursorFlag : Bool
  keypadFlag : Bool
  originFlag : Bool
  wrapFlag : Bool
  scrollUpper : ℕ
  scrollLower : ℕ
deriving DecidableEq, Repr

/-- what a running tmux can hold; ids are `u_int` -/
structure PaneState.Possible (s : PaneState) (window : WindowProjection) : Prop where
  id : s.id < 2 ^ 32
  size : 0 < s.width ∧ 0 < s.height
  inside : s.left + s.width ≤ window.width ∧ s.top + s.height ≤ window.height
  cursor : s.cursorX ≤ s.width ∧ s.cursorY < s.height
  region : s.scrollUpper ≤ s.scrollLower ∧ s.scrollLower < s.height

/-- a window the adapter has admitted -/
structure WindowProjection.Admitted (w : WindowProjection) : Prop where
  id : isWindowId w.windowId = true
  grid : validGrid w.width w.height = true

def number (n : ℕ) : Text := Nat.toDigits 10 n

def flag (b : Bool) : Text := if b then ['1'] else ['0']

def PaneState.paneId (s : PaneState) : Text := '%' :: number s.id

/-- tmux's variables for a pane of the window -/
def PaneState.variables (s : PaneState) (window : WindowProjection) : List (Text × Text) :=
  [("pane_id".toList, s.paneId), ("window_id".toList, window.windowId), ("pane_active".toList, flag s.active),
    ("pane_width".toList, number s.width), ("pane_height".toList, number s.height), ("pane_left".toList, number s.left),
    ("pane_top".toList, number s.top), ("cursor_x".toList, number s.cursorX), ("cursor_y".toList, number s.cursorY),
    ("alternate_on".toList, flag s.alternateOn), ("cursor_flag".toList, flag s.cursorFlag),
    ("insert_flag".toList, flag s.insertFlag), ("keypad_cursor_flag".toList, flag s.keypadCursorFlag),
    ("keypad_flag".toList, flag s.keypadFlag), ("origin_flag".toList, flag s.originFlag), ("wrap_flag".toList, flag s.wrapFlag),
    ("scroll_region_upper".toList, number s.scrollUpper), ("scroll_region_lower".toList, number s.scrollLower)]

/-- a variable tmux does not know is empty -/
def PaneState.target (s : PaneState) (window : WindowProjection) : Target :=
  ⟨fun name => ((s.variables window).lookup name).getD [], fun _ => []⟩

/-- the row tmux writes -/
def PaneState.row (s : PaneState) (window : WindowProjection) : Bytes := utf8 (expand (s.target window) paneFormat)

def bit (mode : UInt8) (b : Bool) : UInt8 := if b then mode else 0

def PaneState.modes (s : PaneState) : UInt8 :=
  bit modeAlternate s.alternateOn ||| bit modeCursorVisible s.cursorFlag ||| bit modeInsert s.insertFlag |||
    bit modeApplicationCursor s.keypadCursorFlag ||| bit modeApplicationKeypad s.keypadFlag ||| bit modeOrigin s.originFlag |||
    bit modeWrap s.wrapFlag

/-- the pane as the adapter describes it -/
def PaneState.projection (s : PaneState) : PaneProjection :=
  ⟨s.paneId, s.active, s.width, s.height, s.left, s.top, [], [],
    ⟨s.cursorX, s.cursorY, s.modes, s.scrollUpper, s.scrollLower⟩⟩

/-! ## The row -/

/-- the fields of the row, in order -/
def PaneState.fields (s : PaneState) (window : WindowProjection) : List Text := (s.variables window).map Prod.snd

theorem paneFormat_eq : paneFormat = (((paneFields.map String.toList).map reference).intersperse [':']).flatten := by
  rw [paneFormat, List.map_map]
  congr 2

theorem lookup_paneFields (s : PaneState) (window : WindowProjection) :
    (paneFields.map String.toList).map (s.target window).lookup = s.fields window := by
  rfl

theorem row_eq (s : PaneState) (window : WindowProjection) :
    s.row window = utf8 ((s.fields window).intersperse [':']).flatten := by
  have hnames : ∀ n ∈ paneFields.map String.toList, '\x7d' ∉ n := by decide +kernel
  rw [PaneState.row, paneFormat_eq, expand_fields (s.target window) (by decide) hnames, lookup_paneFields]

theorem splitChar_append {sep : Char} {f : Text} (rest : Text) (h : sep ∉ f) :
    splitChar sep (f ++ sep :: rest) = f :: splitChar sep rest := by
  induction f with
  | nil => simp [splitChar]
  | cons c f ih =>
    rw [List.mem_cons, not_or] at h
    rw [List.cons_append, splitChar, if_neg (Ne.symm h.1), ih h.2]

theorem splitChar_last {sep : Char} {f : Text} (h : sep ∉ f) : splitChar sep f = [f] := by
  induction f with
  | nil => rfl
  | cons c f ih =>
    rw [List.mem_cons, not_or] at h
    rw [splitChar, if_neg (Ne.symm h.1), ih h.2]

theorem splitChar_fields {sep : Char} {f : Text} {fs : List Text} (h : ∀ g ∈ f :: fs, sep ∉ g) :
    splitChar sep ((f :: fs).intersperse [sep]).flatten = f :: fs := by
  induction fs generalizing f with
  | nil => simpa using splitChar_last (h f List.mem_cons_self)
  | cons g fs ih =>
    have hrest := ih fun x hx => h x (List.mem_cons_of_mem _ hx)
    rw [List.intersperse_cons_cons, List.flatten_cons, List.flatten_cons, List.singleton_append,
      splitChar_append _ (h f List.mem_cons_self), hrest]

/-! ## Fields read back -/

theorem isDigit_of_mem_number {n : ℕ} {c : Char} (h : c ∈ number n) : isDigit c = true := by
  have hd := Nat.isDigit_of_mem_toDigits (by decide) (by decide) h
  simpa [isDigit, Char.isDigit, Char.le_def] using hd

theorem digitsValue_number (n : ℕ) : digitsValue (number n) = n := by
  have h := Nat.ofDigitChars_ten_toDigits (n := n)
  rw [Nat.ofDigitChars_eq_foldl] at h
  simp only [Nat.mul_comm 10] at h
  exact h

theorem parseDigits_number (n : ℕ) : parseDigits (number n) = some n := by
  have hne : (number n).isEmpty = false := by
    rw [List.isEmpty_eq_false_iff]
    exact Nat.toDigits_ne_nil
  have hall : (number n).all isDigit = true := List.all_eq_true.2 fun c hc => isDigit_of_mem_number hc
  rw [parseDigits, hne, hall, digitsValue_number]
  rfl

theorem parseUnsigned_number {size n : ℕ} (h : n < size) : parseUnsigned size (number n) = some n := by
  have hsign : ∀ t, number n ≠ '+' :: t := by
    intro t heq
    have hdigit := isDigit_of_mem_number (n := n) (c := '+') (by rw [heq]; exact List.mem_cons_self)
    exact absurd hdigit (by decide)
  rw [parseUnsigned, parseDigits_number]
  · simp [h]
  · exact hsign

theorem parseDimension_number {n : ℕ} (h : 0 < n ∧ n ≤ attachmentMaxDimension) : parseDimension (number n) = .ok n := by
  have hmax : attachmentMaxDimension < 2 ^ 32 := by decide
  have hok : (decide (n ≠ 0) && decide (n ≤ attachmentMaxDimension)) = true := by
    simp only [Bool.and_eq_true, decide_eq_true_eq]
    omega
  rw [parseDimension, parseUnsigned_number (by omega)]
  simp only [orError, bind, Except.bind, require, hok]
  rfl

theorem parseCoordinate_number {n : ℕ} (h : n < attachmentMaxDimension) : parseCoordinate (number n) = .ok n := by
  have hmax : attachmentMaxDimension < 2 ^ 32 := by decide
  rw [parseCoordinate, parseUnsigned_number (by omega)]
  simp [orError, bind, Except.bind, require, h, pure, Except.pure]

/-- a bound of the pane decides before the bound of the protocol -/
theorem parseCoordinateWithBound_number {n b : ℕ} (hn : n ≤ attachmentMaxDimension) (hb : b ≤ attachmentMaxDimension) :
    parseCoordinateWithBound (number n) b = if n < b then .ok n else .error .protocol := by
  have hmax : attachmentMaxDimension < 2 ^ 32 := by decide
  rw [parseCoordinateWithBound, parseCoordinate, parseUnsigned_number (by omega)]
  by_cases hlt : n < b
  · have hlt' : n < attachmentMaxDimension := by omega
    simp [orError, bind, Except.bind, require, hlt, hlt', pure, Except.pure]
  · by_cases hlt' : n < attachmentMaxDimension
    · simp [orError, bind, Except.bind, require, hlt, hlt', pure, Except.pure]
    · simp [orError, bind, Except.bind, require, hlt, hlt']

theorem parseFlag_flag (b : Bool) : parseFlag (flag b) = .ok b := by
  cases b with
  | false => rfl
  | true => rfl

theorem parseModes_flags (s : PaneState) :
    parseModes [flag s.alternateOn, flag s.cursorFlag, flag s.insertFlag, flag s.keypadCursorFlag, flag s.keypadFlag,
      flag s.originFlag, flag s.wrapFlag] = .ok s.modes := by
  have hall : ∀ a b c d e f g : Bool, parseModes [flag a, flag b, flag c, flag d, flag e, flag f, flag g] =
      .ok (bit modeAlternate a ||| bit modeCursorVisible b ||| bit modeInsert c ||| bit modeApplicationCursor d |||
        bit modeApplicationKeypad e ||| bit modeOrigin f ||| bit modeWrap g) := by decide +kernel
  exact hall ..

/-- the byte of modes holds the flags -/
theorem hasMode_modes (s : PaneState) : s.projection.terminal.hasMode modeOrigin = s.originFlag := by
  have hall : ∀ a b c d e f g : Bool,
      ((bit modeAlternate a ||| bit modeCursorVisible b ||| bit modeInsert c ||| bit modeApplicationCursor d |||
        bit modeApplicationKeypad e ||| bit modeOrigin f ||| bit modeWrap g) &&& modeOrigin != 0) = f := by decide +kernel
  exact hall ..

/-! ## The round trip -/

theorem isPaneId_paneId {s : PaneState} (h : s.id < 2 ^ 32) : isPaneId s.paneId = true := by
  have hne : (number s.id).isEmpty = false := by
    rw [List.isEmpty_eq_false_iff]
    exact Nat.toDigits_ne_nil
  have hlen : (number s.id).length ≤ 30 := by
    refine (Nat.length_toDigits_le_iff (by decide) (by decide)).2 ?_
    calc s.id < 2 ^ 32 := h
      _ < 10 ^ 30 := by norm_num
  have hall : (number s.id).all isDigit = true := List.all_eq_true.2 fun c hc => isDigit_of_mem_number hc
  simp only [isPaneId, isNumericId, PaneState.paneId, hne, hall, hlen, decide_true, beq_self_eq_true, Bool.not_false, Bool.and_self]

theorem colon_not_mem_number (n : ℕ) : ':' ∉ number n := by
  intro h
  exact absurd (isDigit_of_mem_number h) (by decide)

theorem colon_not_mem_flag (b : Bool) : ':' ∉ flag b := by
  cases b <;> decide

theorem colon_not_mem_id {mark : Char} {t : Text} (hm : ':' ≠ mark) (h : isNumericId mark t = true) : ':' ∉ t := by
  cases t with
  | nil => exact List.not_mem_nil
  | cons c t =>
    simp only [isNumericId, Bool.and_eq_true, beq_iff_eq, List.all_eq_true] at h
    intro hmem
    rcases List.mem_cons.1 hmem with hc | ht
    · exact hm (hc.trans h.1.1.1)
    · exact absurd (h.2 _ ht) (by decide)

theorem colon_not_mem_fields {s : PaneState} {window : WindowProjection} (hw : window.Admitted) (hs : s.Possible window) :
    ∀ f ∈ s.fields window, ':' ∉ f := by
  simp only [PaneState.fields, PaneState.variables, List.map_cons, List.map_nil, List.forall_mem_cons]
  simp only [colon_not_mem_number, colon_not_mem_flag, colon_not_mem_id (by decide) hw.id,
    colon_not_mem_id (by decide) (isPaneId_paneId hs.id)]
  simp

/-- **A row that is read back.** The two bounds a row can miss come last, so nothing else is reported in their place. -/
theorem parsePaneRow_row {s : PaneState} {window : WindowProjection} (hw : window.Admitted) (hs : s.Possible window) :
    parsePaneRow (s.row window) window =
      if s.cursorX < s.width ∧ (s.originFlag = true → s.scrollUpper ≤ s.cursorY) then .ok s.projection else .error .protocol := by
  have hgrid := hw.grid
  simp only [validGrid, Bool.and_eq_true, decide_eq_true_eq] at hgrid
  obtain ⟨⟨⟨⟨-, hmaxw⟩, -⟩, hmaxh⟩, -⟩ := hgrid
  have hsize := hs.size
  have hin := hs.inside
  have hcur := hs.cursor
  have hreg := hs.region
  have hfields := splitChar_fields (colon_not_mem_fields hw hs)
  have hinside : (decide (s.left < window.width) && decide (s.top < window.height) &&
      decide (s.left + s.width ≤ window.width) && decide (s.top + s.height ≤ window.height)) = true := by
    simp only [Bool.and_eq_true, decide_eq_true_eq]
    omega
  rw [parsePaneRow, row_eq, fromUtf8_utf8]
  simp only [orError, bind, Except.bind]
  rw [show splitChar ':' ((s.fields window).intersperse [':']).flatten = s.fields window from hfields]
  simp only [PaneState.fields, PaneState.variables, List.map_cons, List.map_nil, isPaneId_paneId hs.id, require, decide_true,
    parseFlag_flag, parseDimension_number (n := s.width) (by omega), parseDimension_number (n := s.height) (by omega),
    parseCoordinate_number (n := s.left) (by omega), parseCoordinate_number (n := s.top) (by omega), hinside, if_true,
    parseCoordinateWithBound_number (n := s.cursorX) (b := s.width) (by omega) (by omega),
    parseCoordinateWithBound_number (n := s.cursorY) (b := s.height) (by omega) (by omega),
    parseCoordinateWithBound_number (n := s.scrollUpper) (b := s.height) (by omega) (by omega),
    parseCoordinateWithBound_number (n := s.scrollLower) (b := s.height) (by omega) (by omega), parseModes_flags,
    hcur.2, hreg.2, lt_of_le_of_lt hreg.1 hreg.2]
  have hmode : PaneTerminalState.hasMode ⟨s.cursorX, s.cursorY, s.modes, s.scrollUpper, s.scrollLower⟩ modeOrigin = s.originFlag :=
    hasMode_modes s
  by_cases hx : s.cursorX < s.width
  · simp only [hx, if_true, true_and, hmode, hreg.1, decide_true, Bool.true_and]
    by_cases hlt : s.cursorY < s.scrollUpper
    · have hnot : ¬ s.scrollUpper ≤ s.cursorY := by omega
      cases ho : s.originFlag with
      | false => simp [hlt, pure, Except.pure, PaneState.projection]
      | true => simp [hlt, hnot]
    · have hle : s.scrollUpper ≤ s.cursorY := by omega
      simp [hlt, hle, pure, Except.pure, PaneState.projection]
  · simp [hx]

/-- **What tmux says and what is understood.** In an admitted window the row of a pane is read back, as the same pane, exactly
when no wrap is pending and, in origin mode, the cursor is not above the scroll region. -/
theorem pane_row_round_trip {s : PaneState} {window : WindowProjection} (hw : window.Admitted) (hs : s.Possible window) :
    parsePaneRow (s.row window) window = .ok s.projection ↔
      s.cursorX < s.width ∧ (s.originFlag = true → s.scrollUpper ≤ s.cursorY) := by
  rw [parsePaneRow_row hw hs]
  split_ifs with h
  · exact iff_of_true rfl h
  · refine iff_of_false ?_ h
    intro heq
    cases heq

def smallWindow : WindowProjection := ⟨"@1".toList, [], 80, 24, []⟩

/-- a pane as wide as the window, with the cursor at `x` -/
def widePane (x : ℕ) : PaneState where
  id := 1
  active := true
  width := 80
  height := 24
  left := 0
  top := 0
  cursorX := x
  cursorY := 5
  alternateOn := false
  cursorFlag := true
  insertFlag := false
  keypadCursorFlag := false
  keypadFlag := false
  originFlag := false
  wrapFlag := true
  scrollUpper := 0
  scrollLower := 23

theorem smallWindow_admitted : smallWindow.Admitted := ⟨by decide, by decide⟩

theorem widePane_possible {x : ℕ} (h : x ≤ 80) : (widePane x).Possible smallWindow where
  id := by simp [widePane]
  size := by simp [widePane]
  inside := by simp [widePane, smallWindow]
  cursor := ⟨h, by simp [widePane]⟩
  region := by simp [widePane]

theorem pane_row_round_trip_widePane : parsePaneRow ((widePane 79).row smallWindow) smallWindow = .ok (widePane 79).projection :=
  (pane_row_round_trip smallWindow_admitted (widePane_possible (by decide))).2 ⟨by decide, by decide⟩

/-- the last column was written and the next character will wrap -/
theorem pending_wrap_refused : ¬ ∀ (s : PaneState) (window : WindowProjection), window.Admitted → s.Possible window →
    parsePaneRow (s.row window) window = .ok s.projection := by
  intro h
  have hrow := h (widePane 80) smallWindow smallWindow_admitted (widePane_possible le_rfl)
  rw [parsePaneRow_row smallWindow_admitted (widePane_possible le_rfl)] at hrow
  exact absurd hrow (by decide)

/-! ## What is sent for an admitted pane -/

/-- `cursor_row` of `capture_lines`, in `u32` -/
def cursorRowChecked (t : PaneTerminalState) : Option ℕ :=
  let add (n : ℕ) := if n + 1 < 2 ^ 32 then some (n + 1) else none
  if t.hasMode modeOrigin then if t.scrollUpper ≤ t.cursorY then add (t.cursorY - t.scrollUpper) else none else add t.cursorY

/-- the cursor is addressed where it stands -/
def PaneProjection.Addressed (p : PaneProjection) : Prop :=
  ∃ r, cursorRowChecked p.terminal = some r ∧ 1 ≤ r ∧ r ≤ p.height ∧
    (p.terminal.hasMode modeOrigin = true → r ≤ p.terminal.scrollLower - p.terminal.scrollUpper + 1)

/-- a set of panes a terminal can be given -/
structure Replayable (window : WindowProjection) (panes : List PaneProjection) : Prop where
  inside : ∀ p ∈ panes, p.left + p.width ≤ window.width ∧ p.top + p.height ≤ window.height
  distinct : (panes.map PaneProjection.paneId).Nodup
  active : (panes.filter PaneProjection.active).length = 1
  cells : (panes.map fun p => p.width * p.height).sum ≤ attachmentMaxGridCells
  addressed : ∀ p ∈ panes, p.Addressed

/-- the row says origin mode, and a cursor below the scroll region -/
def belowRegion (row : Bytes) : Bool :=
  match fromUtf8 row with
  | none => false
  | some text =>
    match (splitChar ':' text)[8]?, (splitChar ':' text)[14]?, (splitChar ':' text)[17]? with
    | some cursorY, some origin, some lower =>
      match parseUnsigned (2 ^ 32) cursorY, parseUnsigned (2 ^ 32) lower with
      | some cursorY, some lower => origin = ['1'] && lower < cursorY
      | _, _ => false
    | _, _, _ => false

theorem parseFlag_ok {t : Text} {b : Bool} (h : parseFlag t = .ok b) : t = flag b := by
  unfold parseFlag at h
  split_ifs at h with h0 h1
  · cases h
    exact h0
  · cases h
    exact h1

theorem parseModesFrom_flags {index : ℕ} {acc modes : UInt8} {ts : List Text} (h : parseModesFrom index acc ts = .ok modes) :
    ∃ bs : List Bool, ts = bs.map flag := by
  induction ts generalizing index acc with
  | nil => exact ⟨[], rfl⟩
  | cons t ts ih =>
    obtain ⟨b, hb, h⟩ := parsed_bind.1 h
    obtain ⟨bs, hbs⟩ := ih h
    exact ⟨b :: bs, by rw [List.map_cons, ← hbs, parseFlag_ok hb]⟩

/-- the sixth flag is the origin mode -/
theorem parseModes_origin {m0 m1 m2 m3 m4 m5 m6 : Text} {modes : UInt8} (h : parseModes [m0, m1, m2, m3, m4, m5, m6] = .ok modes) :
    (modes &&& modeOrigin != 0) = decide (m5 = ['1']) := by
  have hall : ∀ a b c d e f g : Bool, ∃ modes, parseModes [flag a, flag b, flag c, flag d, flag e, flag f, flag g] = .ok modes ∧
      (modes &&& modeOrigin != 0) = decide (flag f = ['1']) := by
    intro a b c d e f g
    refine ⟨_, parseModes_flags ⟨0, true, 0, 0, 0, 0, 0, 0, a, b, c, d, e, f, g, 0, 0⟩, ?_⟩
    rw [show decide (flag f = ['1']) = f by cases f <;> rfl]
    exact hasMode_modes ⟨0, true, 0, 0, 0, 0, 0, 0, a, b, c, d, e, f, g, 0, 0⟩
  obtain ⟨bs, hbs⟩ := parseModesFrom_flags h
  match bs, hbs with
  | [a, b, c, d, e, f, g], hbs =>
    simp only [List.map_cons, List.map_nil, List.cons.injEq, and_true] at hbs
    obtain ⟨rfl, rfl, rfl, rfl, rfl, rfl, rfl⟩ := hbs
    obtain ⟨modes', hm, horigin⟩ := hall a b c d e f g
    rw [h] at hm
    cases hm
    exact horigin

theorem parseCoordinateWithBound_value {t : Text} {n bound : ℕ} (h : parseCoordinateWithBound t bound = .ok n) :
    parseUnsigned (2 ^ 32) t = some n := by
  obtain ⟨v, hv, h⟩ := parsed_bind.1 h
  obtain ⟨u, -, h⟩ := parsed_bind.1 h
  cases h
  obtain ⟨w, hw, hv⟩ := parsed_bind.1 hv
  obtain ⟨u, -, hv⟩ := parsed_bind.1 hv
  cases hv
  exact orError_ok.1 hw

/-- the row's own fields say whether its pane is below the region -/
theorem belowRegion_of_parsed {row : Bytes} {window : WindowProjection} {p : PaneProjection}
    (h : parsePaneRow row window = .ok p) :
    belowRegion row = (p.terminal.hasMode modeOrigin && decide (p.terminal.scrollLower < p.terminal.cursorY)) := by
  obtain ⟨t, ht, h⟩ := parsed_bind.1 h
  have ht := orError_ok.1 ht
  split at h
  · rename_i paneId windowId active width height left top x y m0 m1 m2 m3 m4 m5 m6 upper lower hsplit
    obtain ⟨u, -, h⟩ := parsed_bind.1 h
    obtain ⟨u, -, h⟩ := parsed_bind.1 h
    obtain ⟨active, -, h⟩ := parsed_bind.1 h
    obtain ⟨width, -, h⟩ := parsed_bind.1 h
    obtain ⟨height, -, h⟩ := parsed_bind.1 h
    obtain ⟨left, -, h⟩ := parsed_bind.1 h
    obtain ⟨top, -, h⟩ := parsed_bind.1 h
    obtain ⟨u, -, h⟩ := parsed_bind.1 h
    obtain ⟨x, -, h⟩ := parsed_bind.1 h
    obtain ⟨y, hy, h⟩ := parsed_bind.1 h
    obtain ⟨modes, hmodes, h⟩ := parsed_bind.1 h
    obtain ⟨upper, -, h⟩ := parsed_bind.1 h
    obtain ⟨lower, hlower, h⟩ := parsed_bind.1 h
    obtain ⟨u, -, h⟩ := parsed_bind.1 h
    cases h
    simp only [belowRegion, ht, hsplit, List.getElem?_cons_succ, List.getElem?_cons_zero, parseCoordinateWithBound_value hy,
      parseCoordinateWithBound_value hlower, PaneTerminalState.hasMode, parseModes_origin hmodes]
  · cases h

/-- every row has its pane and every pane its row -/
theorem parsePaneList_rows {window : WindowProjection} {rows : List Bytes} {seen panes : List PaneProjection}
    (h : parsePaneList window seen rows = .ok panes) :
    ∃ new, panes = seen ++ new ∧ (∀ row ∈ rows, ∃ p ∈ new, parsePaneRow row window = .ok p) ∧
      ∀ p ∈ new, ∃ row ∈ rows, parsePaneRow row window = .ok p := by
  induction rows generalizing seen with
  | nil =>
    cases h
    exact ⟨[], by simp, by simp, by simp⟩
  | cons row rows ih =>
    obtain ⟨pane, hpane, h⟩ := parsed_bind.1 h
    obtain ⟨u, -, h⟩ := parsed_bind.1 h
    obtain ⟨new, rfl, hleft, hright⟩ := ih h
    refine ⟨pane :: new, by simp, ?_, ?_⟩
    · intro r hr
      rcases List.mem_cons.1 hr with rfl | hr
      · exact ⟨pane, List.mem_cons_self, hpane⟩
      · obtain ⟨p, hp, hparsed⟩ := hleft r hr
        exact ⟨p, List.mem_cons_of_mem _ hp, hparsed⟩
    · intro p hp
      rcases List.mem_cons.1 hp with rfl | hp
      · exact ⟨row, List.mem_cons_self, hpane⟩
      · obtain ⟨r, hr, hparsed⟩ := hright p hp
        exact ⟨r, List.mem_cons_of_mem _ hr, hparsed⟩

theorem parsePaneRows_rows {window : WindowProjection} {rows : List Bytes} {panes : List PaneProjection}
    (h : parsePaneRows rows window = .ok panes) :
    (∀ row ∈ rows, ∃ p ∈ panes, parsePaneRow row window = .ok p) ∧
      ∀ p ∈ panes, ∃ row ∈ rows, parsePaneRow row window = .ok p := by
  obtain ⟨u, -, h⟩ := parsed_bind.1 h
  obtain ⟨ps, hps, h⟩ := parsed_bind.1 h
  obtain ⟨u, -, h⟩ := parsed_bind.1 h
  obtain ⟨u, -, h⟩ := parsed_bind.1 h
  cases h
  obtain ⟨new, rfl, hnew⟩ := parsePaneList_rows hps
  exact hnew

/-- the address is right unless the cursor is below the region -/
theorem addressed_iff {window : WindowProjection} {p : PaneProjection} (h : p.Fits window) :
    p.Addressed ↔ ¬ (p.terminal.hasMode modeOrigin = true ∧ p.terminal.scrollLower < p.terminal.cursorY) := by
  have hh := h.height
  have hcur := h.terminal.cursor
  have hreg := h.terminal.region
  have horigin := h.terminal.origin
  have hmax : attachmentMaxDimension < 2 ^ 32 := by decide
  unfold PaneProjection.Addressed cursorRowChecked
  cases ho : p.terminal.hasMode modeOrigin with
  | false =>
    refine iff_of_true ?_ (by simp)
    exact ⟨p.terminal.cursorY + 1, by simp; omega, by omega, by omega, by simp⟩
  | true =>
    have hle := horigin ho
    simp only [if_true, hle, true_and, forall_const]
    rw [if_pos (by omega)]
    constructor
    · rintro ⟨r, hr, -, -, hlow⟩ hlt
      cases hr
      omega
    · intro hlt
      exact ⟨_, rfl, by omega, by omega, by omega⟩

/-- **An admitted set of panes.** Rectangles, ids, the active pane and the total are in order for every accepted list of rows;
every cursor is addressed where it stands exactly when no row says origin mode with a cursor below the region. -/
theorem admitted_panes_replayable {window : WindowProjection} {rows : List Bytes} {panes : List PaneProjection}
    (h : parsePaneRows rows window = .ok panes) :
    Replayable window panes ↔ ∀ row ∈ rows, belowRegion row = false := by
  have hfit := parsePaneRows_spec h
  have hrows := parsePaneRows_rows h
  have hbelow : ∀ {row : Bytes} {p : PaneProjection}, p ∈ panes → parsePaneRow row window = .ok p →
      (p.Addressed ↔ belowRegion row = false) := by
    intro row p hp hrow
    rw [addressed_iff (hfit.each p hp), belowRegion_of_parsed hrow]
    simp
  constructor
  · intro hr row hrow
    obtain ⟨p, hp, hparsed⟩ := hrows.1 row hrow
    exact (hbelow hp hparsed).1 (hr.addressed p hp)
  · intro hall
    refine ⟨fun p hp => (hfit.each p hp).inside, hfit.nodup, hfit.active, hfit.cells, ?_⟩
    intro p hp
    obtain ⟨row, hrow, hparsed⟩ := hrows.2 p hp
    exact (hbelow hp hparsed).2 (hall row hrow)

/-- a cursor on row `y` in origin mode, with the region on the first ten rows -/
def originPane (y : ℕ) : PaneState :=
  { widePane 0 with cursorY := y, originFlag := true, scrollLower := 9 }

theorem originPane_rows {y : ℕ} (h : y < 24) :
    parsePaneRows [(originPane y).row smallWindow] smallWindow = .ok [(originPane y).projection] := by
  have hp : (originPane y).Possible smallWindow := by
    refine ⟨?_, ?_, ?_, ⟨?_, h⟩, ?_⟩ <;> simp [originPane, widePane, smallWindow]
  have hrow := parsePaneRow_row smallWindow_admitted hp
  rw [if_pos (by simp [originPane, widePane])] at hrow
  have hactive : (originPane y).projection.active = true := rfl
  have hcells : (originPane y).projection.width * (originPane y).projection.height ≤ attachmentMaxGridCells := by
    simp [originPane, widePane, PaneState.projection, attachmentMaxGridCells]
  simp [parsePaneRows, parsePaneList, hrow, bind, Except.bind, require, pure, Except.pure, attachmentMaxPanes, hactive, hcells]

theorem admitted_panes_replayable_originPane : Replayable smallWindow [(originPane 9).projection] := by
  refine (admitted_panes_replayable (originPane_rows (y := 9) (by decide))).2 ?_
  decide +kernel

/-- the cursor is below the region: the address is beyond its last row -/
theorem origin_cursor_clamped : ¬ ∀ (window : WindowProjection) (rows : List Bytes) (panes : List PaneProjection),
    parsePaneRows rows window = .ok panes → Replayable window panes := by
  intro h
  have hr := h _ _ _ (originPane_rows (y := 23) (by decide))
  obtain ⟨r, hr, -, -, hlow⟩ := hr.addressed _ List.mem_cons_self
  have hrow : r = 24 := by
    have : cursorRowChecked (originPane 23).projection.terminal = some 24 := by decide +kernel
    rw [this] at hr
    exact (Option.some.inj hr).symm
  have hbound := hlow (by decide +kernel)
  rw [hrow] at hbound
  exact absurd hbound (by decide)

end OwlMux.Tmux
