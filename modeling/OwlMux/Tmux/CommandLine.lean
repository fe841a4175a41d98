/-
The lines the adapter writes, read by tmux's command parser: blanks separate words, single quotes are literal, `;` separates
commands, `#` outside quotes begins a comment and `$` a variable before a letter, an underscore or a brace. A line with any other
construct of the parser (double quotes, backslash, braces, tilde) outside quotes is not read.

Results:
- `read_joined`: words spelled plain or quoted and joined by blanks are read back;
- `render_eq`: a command's text is its words;
- `AdapterLine.sendable`: a line of admitted commands is one line of at most 4096 bytes and is read as those commands.
-/
import Mathlib.Data.Bool.AllAny
import Mathlib.Tactic
import OwlMux.Tmux.Result
import OwlMux.Tmux.PaneRow

namespace OwlMux.Tmux

open OwlMux.Relay (Text byteLen)

/-! ## The parser -/

inductive LineMode where
  | bare
  | single
  | dollar
  | comment
  | failed
deriving DecidableEq, Repr

/-- the commands read so far, the words of the one being read, and the word being read -/
structure Line where
  commands : List (List Text)
  words : List Text
  word : Option Text
  mode : LineMode
deriving DecidableEq, Repr

def Line.endWord (l : Line) : Line :=
  match l.word with
  | some w => { l with words := l.words ++ [w], word := none }
  | none => l

def Line.endCommand (l : Line) : Line :=
  match l.endWord.words with
  | [] => l.endWord
  | ws => { l.endWord with commands := l.commands ++ [ws], words := [] }

def Line.add (l : Line) (c : Char) : Line := { l with word := some (l.word.getD [] ++ [c]) }

/-- the characters that mean something outside quotes -/
def specials : List Char := [' ', '\t', ';', '\x27', '#', '$', '\x22', '\\', '\x7b', '\x7d', '~', '\r', '\n', '\x00']

def Line.bareStep (l : Line) (c : Char) : Line :=
  if c ∉ specials then l.add c
  else if c = ' ' ∨ c = '\t' then l.endWord
  else if c = ';' then l.endCommand
  else if c = '\x27' then { l with word := some (l.word.getD []), mode := .single }
  else if c = '#' then { l.endWord with mode := .comment }
  else if c = '$' then { l with mode := .dollar }
  else { l with mode := .failed }

def Line.step (l : Line) (c : Char) : Line :=
  match l.mode with
  | .bare => l.bareStep c
  | .single => if c = '\x27' then { l with mode := .bare } else l.add c
  | .dollar =>
    if c.isAlpha || c = '_' || c = '\x7b' then { l with mode := .failed } else ({ l with mode := .bare }.add '$').bareStep c
  | .comment => l
  | .failed => l

def Line.start : Line := ⟨[], [], none, .bare⟩

def Line.finish (l : Line) : Option (List (List Text)) :=
  match l.mode with
  | .bare | .comment => some l.endCommand.commands
  | .dollar => some (l.add '$').endCommand.commands
  | .single | .failed => none

def Line.read (l : Line) (t : Text) : Line := t.foldl Line.step l

/-- the commands of a line, each with its arguments -/
def commandsOf (t : Text) : Option (List (List Text)) := (Line.read .start t).finish

/-! ## Words -/

theorem Line.read_append (l : Line) (a b : Text) : Line.read l (a ++ b) = Line.read (Line.read l a) b := List.foldl_append

/-- the text `r` is the word `w` -/
def Spells (r w : Text) : Prop := ∀ cs ws, Line.read ⟨cs, ws, none, .bare⟩ r = ⟨cs, ws, some w, .bare⟩

theorem Line.read_plain (cs : List (List Text)) (ws : List Text) (w t : Text) (h : ∀ c ∈ t, c ∉ specials) :
    Line.read ⟨cs, ws, some w, .bare⟩ t = ⟨cs, ws, some (w ++ t), .bare⟩ := by
  induction t generalizing w with
  | nil =>
    rw [List.append_nil]
    rfl
  | cons c t ih =>
    have hc : Line.step ⟨cs, ws, some w, .bare⟩ c = ⟨cs, ws, some (w ++ [c]), .bare⟩ := if_pos (h c List.mem_cons_self)
    rw [Line.read, List.foldl_cons, hc]
    have hrest := ih (w ++ [c]) fun d hd => h d (List.mem_cons_of_mem c hd)
    rw [List.append_assoc] at hrest
    exact hrest

theorem spells_plain {t : Text} (hne : t ≠ []) (h : ∀ c ∈ t, c ∉ specials) : Spells t t := by
  intro cs ws
  obtain ⟨c, t, rfl⟩ := List.exists_cons_of_ne_nil hne
  have hc : Line.step ⟨cs, ws, none, .bare⟩ c = ⟨cs, ws, some [c], .bare⟩ := if_pos (h c List.mem_cons_self)
  rw [Line.read, List.foldl_cons, hc]
  exact Line.read_plain cs ws [c] t fun d hd => h d (List.mem_cons_of_mem c hd)

theorem not_name_of_isDigit {d : Char} (hd : d.isDigit = true) : (d.isAlpha || d = '_' || d = '\x7b') = false := by
  have h0 : d.toNat ≤ 57 := by
    simp only [Char.isDigit, ge_iff_le, Bool.and_eq_true, decide_eq_true_eq] at hd
    simpa [UInt32.le_iff_toNat_le] using hd.2
  have hupper : d.isUpper = false := by
    delta Char.isUpper
    simp [UInt32.le_iff_toNat_le]
    omega
  have hlower : d.isLower = false := by
    delta Char.isLower
    simp [UInt32.le_iff_toNat_le]
    omega
  have halpha : d.isAlpha = false := by
    show (d.isUpper || d.isLower) = false
    rw [hupper, hlower]
    rfl
  have hunder : d ≠ '_' := by
    rintro rfl
    exact absurd h0 (by decide)
  have hbrace : d ≠ '\x7b' := by
    rintro rfl
    exact absurd h0 (by decide)
  simp [halpha, hunder, hbrace]

/-- a dollar before a digit is a dollar -/
theorem spells_dollar {d : Char} {t : Text} (hd : d.isDigit = true) (h : ∀ c ∈ d :: t, c ∉ specials) :
    Spells ('$' :: d :: t) ('$' :: d :: t) := by
  intro cs ws
  have hname := not_name_of_isDigit hd
  have hdollar : Line.step ⟨cs, ws, none, .bare⟩ '$' = ⟨cs, ws, none, .dollar⟩ := rfl
  have hstep : Line.step ⟨cs, ws, none, .dollar⟩ d = ⟨cs, ws, some ['$', d], .bare⟩ := by
    simp only [Line.step, hname]
    exact if_pos (h d List.mem_cons_self)
  rw [Line.read, List.foldl_cons, hdollar, List.foldl_cons, hstep]
  exact Line.read_plain cs ws ['$', d] t fun c hc => h c (List.mem_cons_of_mem d hc)

def quoteWord (t : Text) : Text := '\x27' :: (t ++ ['\x27'])

theorem spells_quoted {t : Text} (h : '\x27' ∉ t) : Spells (quoteWord t) t := by
  intro cs ws
  have hinner : ∀ w : Text, Line.read ⟨cs, ws, some w, .single⟩ t = ⟨cs, ws, some (w ++ t), .single⟩ := by
    induction t with
    | nil =>
      intro w
      rw [List.append_nil]
      rfl
    | cons c t ih =>
      intro w
      rw [List.mem_cons, not_or] at h
      have hc : Line.step ⟨cs, ws, some w, .single⟩ c = ⟨cs, ws, some (w ++ [c]), .single⟩ := if_neg (Ne.symm h.1)
      rw [Line.read, List.foldl_cons, hc]
      have hrest := ih h.2 (w ++ [c])
      rw [List.append_assoc] at hrest
      exact hrest
  have hopen : Line.read ⟨cs, ws, none, .bare⟩ (quoteWord t) = Line.read ⟨cs, ws, some [], .single⟩ (t ++ ['\x27']) := rfl
  rw [hopen, Line.read_append, hinner]
  rfl

/-! ## Lines -/

/-- words with one blank between -/
def joined (rs : List Text) : Text := (rs.intersperse [' ']).flatten

theorem read_joined {rs ws' : List Text} (h : List.Forall₂ Spells rs ws') (hne : rs ≠ []) (cs : List (List Text)) (ws : List Text) :
    ∃ w, Line.read ⟨cs, ws, none, .bare⟩ (joined rs) = ⟨cs, ws ++ ws'.dropLast, some w, .bare⟩ ∧ ws'.getLast? = some w := by
  induction h generalizing ws with
  | nil => exact (hne rfl).elim
  | @cons r w rs ws' hr hrs ih =>
    cases hrs with
    | nil => exact ⟨w, by simpa [joined] using hr cs ws, rfl⟩
    | @cons r' w' rs ws' hr' hrs =>
      obtain ⟨v, hv, hlast⟩ := ih (List.cons_ne_nil _ _) (ws ++ [w])
      refine ⟨v, ?_, by simpa using hlast⟩
      have hblank : Line.read ⟨cs, ws, some w, .bare⟩ [' '] = ⟨cs, ws ++ [w], none, .bare⟩ := rfl
      have hsplit : joined (r :: r' :: rs) = r ++ ([' '] ++ joined (r' :: rs)) := by
        simp [joined]
      rw [hsplit, Line.read_append, hr cs ws, Line.read_append, hblank, hv]
      simp

example : commandsOf "a -t $1 'b #c'".toList = some [["a".toList, "-t".toList, "$1".toList, "b #c".toList]] := by decide +kernel

/-! ## The adapter's commands -/

/-- the ids, sizes and inputs of the command are in the grammar; the attach block has no text -/
def Command.Ok : Command → Prop
  | .attach => False
  | .listWindows s | .displayWindow s => isSessionId s = true
  | .displayWindowName w | .listPanes w | .selectWindow w => isWindowId w = true
  | .displayTitle p | .displayCommand p | .pause p | .resume p | .capture p | .displayPane p | .selectPane p => isPaneId p = true
  | .resize c r => validGrid c r = true
  | .sendKeys p data => isPaneId p = true ∧ data ≠ [] ∧ data.length ≤ attachmentMaxInputBytes
  | .observerFlags | .subscribe | .switchClient | .sizeFlags _ => True

/-- a word of a line and whether it is quoted -/
structure Spelling where
  quoted : Bool
  word : Text
deriving DecidableEq, Repr

def Spelling.text (x : Spelling) : Text := if x.quoted then quoteWord x.word else x.word

def bareWord (t : String) : Spelling := ⟨false, t.toList⟩
def inQuotes (t : String) : Spelling := ⟨true, t.toList⟩

/-- the arguments the command is meant to have, as they are spelled -/
def Command.spelling : Command → List Spelling
  | .attach => []
  | .observerFlags => [bareWord "refresh-client", bareWord "-f", inQuotes "read-only,ignore-size,pause-after=1"]
  | .subscribe => [bareWord "refresh-client", bareWord "-B", inQuotes
      "owlmux-pane-v1:%*:#\x7bpane_title\x7d|#\x7bpane_current_command\x7d|#\x7bpane_active\x7d|#\x7bpane_width\x7d|#\x7bpane_height\x7d|#\x7bpane_left\x7d|#\x7bpane_top\x7d"]
  | .listWindows s => [bareWord "list-windows", bareWord "-t", ⟨false, s⟩, bareWord "-F",
      inQuotes "#\x7bwindow_id\x7d:#\x7bwindow_active\x7d:#\x7bwindow_name\x7d"]
  | .displayWindow s => [bareWord "display-message", bareWord "-p", bareWord "-t", ⟨false, s⟩, inQuotes
      "#\x7bsession_id\x7d:#\x7bsession_created\x7d:#\x7bwindow_id\x7d:#\x7bwindow_width\x7d:#\x7bwindow_height\x7d:#\x7bwindow_layout\x7d"]
  | .displayWindowName w =>
    [bareWord "display-message", bareWord "-p", bareWord "-t", ⟨false, w⟩, inQuotes "#\x7bwindow_name\x7d"]
  | .listPanes w => [bareWord "list-panes", bareWord "-t", ⟨false, w⟩, bareWord "-F", ⟨true, paneFormat⟩]
  | .displayTitle p =>
    [bareWord "display-message", bareWord "-p", bareWord "-t", ⟨false, p⟩, inQuotes "#\x7bpane_title\x7d"]
  | .displayCommand p =>
    [bareWord "display-message", bareWord "-p", bareWord "-t", ⟨false, p⟩, inQuotes "#\x7bpane_current_command\x7d"]
  | .pause p => [bareWord "refresh-client", bareWord "-A", ⟨true, p ++ ":pause".toList⟩]
  | .resume p => [bareWord "refresh-client", bareWord "-A", ⟨true, p ++ ":continue".toList⟩]
  | .capture p => [bareWord "capture-pane", bareWord "-p", bareWord "-e", bareWord "-N", bareWord "-t", ⟨false, p⟩]
  | .displayPane p => [bareWord "display-message", bareWord "-p", bareWord "-t", ⟨false, p⟩, ⟨true, paneFormat⟩]
  | .switchClient => [bareWord "switch-client", bareWord "-r"]
  | .sizeFlags ignore =>
    [bareWord "refresh-client", bareWord "-f",
      if ignore then inQuotes "ignore-size,pause-after=1" else inQuotes "!ignore-size,pause-after=1"]
  | .resize c r => [bareWord "refresh-client", bareWord "-C", ⟨false, Nat.toDigits 10 c ++ ['x'] ++ Nat.toDigits 10 r⟩]
  | .sendKeys p data =>
    [bareWord "send-keys", bareWord "-t", ⟨false, p⟩, bareWord "-H"] ++ data.map fun b => ⟨false, hexByte b⟩
  | .selectWindow w => [bareWord "select-window", bareWord "-t", ⟨false, w⟩]
  | .selectPane p => [bareWord "select-pane", bareWord "-t", ⟨false, p⟩]

/-- the intended arguments -/
def Command.argv (c : Command) : List Text := c.spelling.map Spelling.word

theorem joined_cons_cons (r r' : Text) (rs : List Text) : joined (r :: r' :: rs) = r ++ ' ' :: joined (r' :: rs) := by
  simp [joined]

theorem joined_cons (r : Text) (ts : List Text) : joined (r :: ts) = r ++ ts.flatMap (' ' :: ·) := by
  induction ts generalizing r with
  | nil => simp [joined]
  | cons t ts ih => rw [joined_cons_cons, ih t, List.flatMap_cons, List.cons_append]

/-- a word between fixed texts -/
theorem joined_between {a b : Text} {r t : List Text} (p : Text) (ha : a = r.flatMap (· ++ [' ']))
    (hb : b = t.flatMap (' ' :: ·)) : a ++ p ++ b = joined (r ++ p :: t) := by
  subst ha hb
  induction r with
  | nil => rw [List.nil_append, joined_cons, List.flatMap_nil, List.nil_append]
  | cons x r ih =>
    have hsplit : joined (x :: (r ++ p :: t)) = x ++ ' ' :: joined (r ++ p :: t) := by
      cases r with
      | nil => exact joined_cons_cons x p t
      | cons y r => exact joined_cons_cons x y (r ++ p :: t)
    rw [List.cons_append, hsplit, ← ih]
    simp

theorem joined_last {a : Text} {r : List Text} (p : Text) (ha : a = r.flatMap (· ++ [' '])) : a ++ p = joined (r ++ [p]) := by
  have h := joined_between (b := []) (t := []) p ha rfl
  rwa [List.append_nil] at h

/-- behind the word a quoted format -/
theorem joined_format {a b : Text} {r t : List Text} (p f : Text) (ha : a = r.flatMap (· ++ [' ']))
    (hb : b = t.flatMap (' ' :: ·) ++ [' ', '\x27']) : a ++ p ++ b ++ f ++ ['\x27'] = joined (r ++ p :: (t ++ [quoteWord f])) := by
  have h := joined_between (b := b ++ f ++ ['\x27']) (t := t ++ [quoteWord f]) p ha (by simp [hb, quoteWord])
  rw [← h]
  simp only [List.append_assoc]

/-- the word is the head of a quoted one -/
theorem joined_quoted {a b : Text} {r : List Text} (p u : Text) (ha : a = r.flatMap (· ++ [' ']) ++ ['\x27'])
    (hb : b = u ++ ['\x27']) : a ++ p ++ b = joined (r ++ [quoteWord (p ++ u)]) := by
  rw [← joined_last (quoteWord (p ++ u)) rfl, ha, hb]
  simp [quoteWord]

/-- the last word in three parts -/
theorem joined_size {a : Text} {r : List Text} (p x q : Text) (ha : a = r.flatMap (· ++ [' '])) :
    a ++ p ++ x ++ q = joined (r ++ [p ++ x ++ q]) := by
  rw [← joined_last _ ha]
  simp only [List.append_assoc]

/-- with a list of words behind -/
theorem joined_more {a b : Text} {r x : List Text} (p : Text) (t : List Text) (ha : a = r.flatMap (· ++ [' ']))
    (hb : b = x.flatMap (' ' :: ·)) : a ++ p ++ b ++ t.flatMap (' ' :: ·) = joined (r ++ p :: (x ++ t)) := by
  rw [← joined_between p ha rfl, List.flatMap_append, ← hb]
  simp only [List.append_assoc]

/-- a line is its words -/
theorem render_eq {c : Command} (h : c ≠ .attach) : c.render = joined (c.spelling.map Spelling.text) := by
  cases c with
  | attach => exact (h rfl).elim
  | observerFlags => decide +kernel
  | subscribe => decide +kernel
  | switchClient => decide +kernel
  | sizeFlags ignore => cases ignore <;> decide +kernel
  | listWindows s =>
    exact joined_between (r := ["list-windows".toList, "-t".toList]) s (by decide +kernel)
      (t := ["-F".toList, quoteWord "#\x7bwindow_id\x7d:#\x7bwindow_active\x7d:#\x7bwindow_name\x7d".toList]) (by decide +kernel)
  | displayWindow s =>
    exact joined_between (r := ["display-message".toList, "-p".toList, "-t".toList]) s (by decide +kernel) (t := [quoteWord
      "#\x7bsession_id\x7d:#\x7bsession_created\x7d:#\x7bwindow_id\x7d:#\x7bwindow_width\x7d:#\x7bwindow_height\x7d:#\x7bwindow_layout\x7d".toList])
      (by decide +kernel)
  | displayWindowName w =>
    exact joined_between (r := ["display-message".toList, "-p".toList, "-t".toList]) w (by decide +kernel)
      (t := [quoteWord "#\x7bwindow_name\x7d".toList]) (by decide +kernel)
  | displayTitle p =>
    exact joined_between (r := ["display-message".toList, "-p".toList, "-t".toList]) p (by decide +kernel)
      (t := [quoteWord "#\x7bpane_title\x7d".toList]) (by decide +kernel)
  | displayCommand p =>
    exact joined_between (r := ["display-message".toList, "-p".toList, "-t".toList]) p (by decide +kernel)
      (t := [quoteWord "#\x7bpane_current_command\x7d".toList]) (by decide +kernel)
  | listPanes w =>
    exact joined_format (r := ["list-panes".toList, "-t".toList]) (t := ["-F".toList]) w paneFormat (by decide +kernel)
      (by decide +kernel)
  | displayPane p =>
    exact joined_format (r := ["display-message".toList, "-p".toList, "-t".toList]) (t := []) p paneFormat (by decide +kernel)
      (by decide +kernel)
  | pause p =>
    exact joined_quoted (r := ["refresh-client".toList, "-A".toList]) p ":pause".toList (by decide +kernel) (by decide +kernel)
  | resume p =>
    exact joined_quoted (r := ["refresh-client".toList, "-A".toList]) p ":continue".toList (by decide +kernel) (by decide +kernel)
  | capture p =>
    exact joined_last (r := ["capture-pane".toList, "-p".toList, "-e".toList, "-N".toList, "-t".toList]) p (by decide +kernel)
  | selectWindow w => exact joined_last (r := ["select-window".toList, "-t".toList]) w (by decide +kernel)
  | selectPane p => exact joined_last (r := ["select-pane".toList, "-t".toList]) p (by decide +kernel)
  | resize c r =>
    exact joined_size (r := ["refresh-client".toList, "-C".toList]) (Nat.toDigits 10 c) ['x'] (Nat.toDigits 10 r) (by decide +kernel)
  | sendKeys p data =>
    have hline := joined_more (r := ["send-keys".toList, "-t".toList]) (x := ["-H".toList]) p (data.map hexByte)
      (a := "send-keys -t ".toList) (b := " -H".toList) (by decide +kernel) (by decide +kernel)
    rw [List.flatMap_map] at hline
    refine Eq.trans hline (congrArg joined ?_)
    rw [Command.spelling, List.map_append, List.map_map]
    rfl

/-! ## Every line can be sent -/

def printable (c : Char) : Bool := 0x20 ≤ c.toNat && c.toNat < 0x7F

/-- the word is read as it is spelled, and can stand in a line -/
def Spelling.ok (x : Spelling) : Bool :=
  x.word.all printable &&
    if x.quoted then !x.word.contains '\x27'
    else !x.word.isEmpty && (x.word.all fun c => !specials.contains c) || isSessionId x.word

theorem printable_of_isDigit {c : Char} (h : isDigit c = true) : printable c = true ∧ c ∉ specials := by
  have hrange : 48 ≤ c.toNat ∧ c.toNat ≤ 57 := by
    simpa [isDigit, Char.le_def, UInt32.le_iff_toNat_le] using h
  have hne : ∀ d ∈ specials, ¬ (48 ≤ d.toNat ∧ d.toNat ≤ 57) := List.all_iff_forall_prop.1 (by decide)
  constructor
  · simp only [printable, Bool.and_eq_true, decide_eq_true_eq]
    omega
  · intro hmem
    exact hne c hmem hrange

theorem isDigit_eq (c : Char) : isDigit c = c.isDigit := by
  simp only [isDigit, Char.isDigit, Char.le_def]

/-- the mark and its digits -/
theorem isNumericId_cases {mark : Char} {t : Text} (h : isNumericId mark t = true) :
    ∃ d ds, t = mark :: d :: ds ∧ (∀ c ∈ d :: ds, isDigit c = true) ∧ t.length ≤ 31 := by
  match t, h with
  | c :: [], h => simp [isNumericId] at h
  | c :: d :: ds, h =>
    simp only [isNumericId, Bool.and_eq_true, beq_iff_eq, decide_eq_true_eq, List.all_eq_true] at h
    refine ⟨d, ds, by rw [h.1.1.1], h.2, ?_⟩
    have := h.1.2
    simp only [List.length_cons] at this ⊢
    omega

theorem spells_session {t : Text} (h : isSessionId t = true) : Spells t t := by
  obtain ⟨d, ds, rfl, hdigits, -⟩ := isNumericId_cases h
  refine spells_dollar ?_ fun c hc => (printable_of_isDigit (hdigits c hc)).2
  rw [← isDigit_eq]
  exact hdigits d List.mem_cons_self

theorem Spelling.ok_spells {x : Spelling} (h : x.ok = true) : Spells x.text x.word := by
  obtain ⟨q, w⟩ := x
  cases q with
  | true =>
    simp only [Spelling.ok, if_true, Bool.and_eq_true, Bool.not_eq_true'] at h
    exact spells_quoted (by simpa using h.2)
  | false =>
    simp only [Spelling.ok, Bool.false_eq_true, if_false, Bool.and_eq_true, Bool.or_eq_true, Bool.not_eq_true',
      List.isEmpty_eq_false_iff, List.all_eq_true, List.contains_eq_mem, decide_eq_false_iff_not] at h
    rcases h.2 with ⟨hne, hplain⟩ | hsession
    · exact spells_plain hne hplain
    · exact spells_session hsession

theorem ok_id {mark : Char} {t : Text} (hm : printable mark = true ∧ mark ∉ specials) (h : isNumericId mark t = true) :
    Spelling.ok ⟨false, t⟩ = true := by
  obtain ⟨d, ds, rfl, hdigits, -⟩ := isNumericId_cases h
  have hall : ∀ c ∈ mark :: d :: ds, printable c = true ∧ c ∉ specials := by
    intro c hc
    rcases List.mem_cons.1 hc with rfl | hc
    · exact hm
    · exact printable_of_isDigit (hdigits c hc)
  simp only [Spelling.ok, Bool.false_eq_true, if_false, Bool.and_eq_true, Bool.or_eq_true, Bool.not_eq_true',
    List.isEmpty_eq_false_iff, List.all_eq_true, List.contains_eq_mem, decide_eq_false_iff_not]
  exact ⟨fun c hc => (hall c hc).1, .inl ⟨List.cons_ne_nil _ _, fun c hc => (hall c hc).2⟩⟩

theorem ok_session {t : Text} (h : isSessionId t = true) : Spelling.ok ⟨false, t⟩ = true := by
  have hprint : t.all printable = true := by
    obtain ⟨d, ds, rfl, hdigits, -⟩ := isNumericId_cases h
    refine List.all_eq_true.2 ?_
    intro c hc
    rcases List.mem_cons.1 hc with rfl | hc
    · decide
    · exact (printable_of_isDigit (hdigits c hc)).1
  simp [Spelling.ok, hprint, h]

/-- an id at the head of a quoted word -/
theorem ok_quoted_id {t : Text} (h : isPaneId t = true) {u : Text} (hu : Spelling.ok ⟨true, u⟩ = true) :
    Spelling.ok ⟨true, t ++ u⟩ = true := by
  have hid := ok_id (by decide) h
  simp only [Spelling.ok, if_true, Bool.and_eq_true, Bool.not_eq_true', List.contains_eq_mem, decide_eq_false_iff_not,
    List.all_append] at hu hid ⊢
  refine ⟨⟨hid.1, hu.1⟩, ?_⟩
  rw [List.mem_append, not_or]
  refine ⟨?_, hu.2⟩
  obtain ⟨d, ds, rfl, hdigits, -⟩ := isNumericId_cases h
  intro hmem
  rcases List.mem_cons.1 hmem with hm | hm
  · exact absurd hm (by decide)
  · exact absurd (hdigits _ hm) (by decide)

theorem ok_plain {t : Text} (hne : t ≠ []) (h : ∀ c ∈ t, printable c = true ∧ c ∉ specials) : Spelling.ok ⟨false, t⟩ = true := by
  simp only [Spelling.ok, Bool.false_eq_true, if_false, Bool.and_eq_true, Bool.or_eq_true, Bool.not_eq_true',
    List.isEmpty_eq_false_iff, List.all_eq_true, List.contains_eq_mem, decide_eq_false_iff_not]
  exact ⟨fun c hc => (h c hc).1, .inl ⟨hne, fun c hc => (h c hc).2⟩⟩

theorem ok_size (c r : ℕ) : Spelling.ok ⟨false, Nat.toDigits 10 c ++ ['x'] ++ Nat.toDigits 10 r⟩ = true := by
  have hdigit : ∀ {n : ℕ} {d : Char}, d ∈ Nat.toDigits 10 n → printable d = true ∧ d ∉ specials := fun hd =>
    printable_of_isDigit (isDigit_of_mem_number hd)
  refine ok_plain (by simp) ?_
  intro d hd
  rcases List.mem_append.1 hd with hd | hd
  · rcases List.mem_append.1 hd with hd | hd
    · exact hdigit hd
    · rw [List.mem_singleton.1 hd]
      decide
  · exact hdigit hd

theorem ok_hexByte (b : UInt8) : Spelling.ok ⟨false, hexByte b⟩ = true := by
  have hdigit : ∀ n : Fin 16, printable (Nat.digitChar n) = true ∧ Nat.digitChar n ∉ specials := by decide
  have hb := b.toNat_lt
  refine ok_plain (List.cons_ne_nil _ _) ?_
  intro c hc
  simp only [hexByte, List.mem_cons, List.not_mem_nil, or_false] at hc
  rcases hc with rfl | rfl
  · exact hdigit ⟨b.toNat / 16, by omega⟩
  · exact hdigit ⟨b.toNat % 16, by omega⟩

/-- the format as one quoted word -/
theorem ok_paneFormat : Spelling.ok ⟨true, paneFormat⟩ = true := by decide +kernel

/-- **Every word of an admitted command is read as it is spelled.** -/
theorem ok_spelling {c : Command} (h : c.Ok) : ∀ x ∈ c.spelling, x.ok = true := by
  have hpane : ∀ {p : Text}, isPaneId p = true → Spelling.ok ⟨false, p⟩ = true := fun hp => ok_id (by decide) hp
  have hwindow : ∀ {w : Text}, isWindowId w = true → Spelling.ok ⟨false, w⟩ = true := fun hw => ok_id (by decide) hw
  rw [← List.all_eq_true]
  cases c with
  | attach => exact h.elim
  | observerFlags => decide +kernel
  | subscribe => decide +kernel
  | switchClient => decide +kernel
  | sizeFlags ignore => cases ignore <;> decide +kernel
  | listWindows s =>
    simp only [Command.spelling, List.all_cons, ok_session h]
    decide +kernel
  | displayWindow s =>
    simp only [Command.spelling, List.all_cons, ok_session h]
    decide +kernel
  | displayWindowName w =>
    simp only [Command.spelling, List.all_cons, hwindow h]
    decide +kernel
  | listPanes w =>
    simp only [Command.spelling, List.all_cons, hwindow h, ok_paneFormat]
    decide +kernel
  | selectWindow w =>
    simp only [Command.spelling, List.all_cons, hwindow h]
    decide +kernel
  | displayTitle p =>
    simp only [Command.spelling, List.all_cons, hpane h]
    decide +kernel
  | displayCommand p =>
    simp only [Command.spelling, List.all_cons, hpane h]
    decide +kernel
  | capture p =>
    simp only [Command.spelling, List.all_cons, hpane h]
    decide +kernel
  | displayPane p =>
    simp only [Command.spelling, List.all_cons, hpane h, ok_paneFormat]
    decide +kernel
  | selectPane p =>
    simp only [Command.spelling, List.all_cons, hpane h]
    decide +kernel
  | pause p =>
    simp only [Command.spelling, List.all_cons, ok_quoted_id h (u := ":pause".toList) (by decide)]
    decide +kernel
  | resume p =>
    simp only [Command.spelling, List.all_cons, ok_quoted_id h (u := ":continue".toList) (by decide)]
    decide +kernel
  | resize c r =>
    simp only [Command.spelling, List.all_cons, ok_size]
    decide +kernel
  | sendKeys p data =>
    have hdata : (data.map fun b => (⟨false, hexByte b⟩ : Spelling)).all Spelling.ok = true := by
      refine List.all_eq_true.2 ?_
      intro x hx
      obtain ⟨b, -, rfl⟩ := List.mem_map.1 hx
      exact ok_hexByte b
    simp only [Command.spelling, List.all_append, List.all_cons, hpane h.1, hdata]
    decide +kernel

/-! ## Lengths -/

theorem length_joined {rs : List Text} (hne : rs ≠ []) : (joined rs).length + 1 = (rs.map fun r => r.length + 1).sum := by
  obtain ⟨r, rs, rfl⟩ := List.exists_cons_of_ne_nil hne
  induction rs generalizing r with
  | nil => simp [joined]
  | cons s rs ih =>
    have hrest := ih s (List.cons_ne_nil _ _)
    rw [joined_cons_cons, List.length_append, List.length_cons, List.map_cons, List.sum_cons, ← hrest]
    omega

theorem spelling_ne_nil {c : Command} (h : c.Ok) : c.spelling ≠ [] := by
  cases c with
  | attach => exact h.elim
  | _ => exact List.cons_ne_nil _ _

theorem ne_attach {c : Command} (h : c.Ok) : c ≠ .attach := by
  rintro rfl
  exact h

/-- the length of a line, with the blank or the line's end behind each word -/
theorem length_render {c : Command} (h : c.Ok) :
    c.render.length + 1 = (c.spelling.map fun x => x.text.length + 1).sum := by
  have hne : c.spelling.map Spelling.text ≠ [] := by simpa using spelling_ne_nil h
  rw [render_eq (ne_attach h), length_joined hne, List.map_map]
  rfl

theorem length_id {mark : Char} {t : Text} (h : isNumericId mark t = true) : t.length ≤ 31 := by
  obtain ⟨d, ds, rfl, -, hlen⟩ := isNumericId_cases h
  exact hlen

theorem length_paneFormat : paneFormat.length ≤ 400 := by decide +kernel

theorem length_digits {n : ℕ} (h : n ≤ attachmentMaxDimension) : (Nat.toDigits 10 n).length ≤ 5 := by
  refine (Nat.length_toDigits_le_iff (by decide) (by decide)).2 ?_
  have : attachmentMaxDimension < 10 ^ 5 := by decide
  omega

/-- the bytes a command carries -/
def Command.input : Command → Bytes
  | .sendKeys _ data => data
  | _ => []

/-- apart from input a command takes few bytes -/
theorem length_render_le {c : Command} (h : c.Ok) : c.render.length ≤ 600 + 3 * c.input.length := by
  have hlen := length_render h
  suffices (c.spelling.map fun x => x.text.length + 1).sum ≤ 600 + 3 * c.input.length by omega
  cases c with
  | attach => exact h.elim
  | observerFlags =>
    clear h hlen
    decide +kernel
  | subscribe =>
    clear h hlen
    decide +kernel
  | switchClient =>
    clear h hlen
    decide +kernel
  | sizeFlags ignore => cases ignore <;> simp [Command.spelling, bareWord, inQuotes, Spelling.text, quoteWord, Command.input]
  | resize c r =>
    simp only [Command.Ok, validGrid, Bool.and_eq_true, decide_eq_true_eq] at h
    have hc := length_digits h.1.1.1.2
    have hr := length_digits h.1.2
    simp [Command.spelling, bareWord, Spelling.text, Command.input]
    omega
  | sendKeys p data =>
    have hp := length_id h.1
    simp [Command.spelling, bareWord, hexByte, Function.comp_def, Spelling.text, Command.input]
    omega
  | listPanes w =>
    have hp := length_id h
    have hf := length_paneFormat
    simp [Command.spelling, bareWord, Spelling.text, quoteWord, Command.input]
    omega
  | displayPane p =>
    have hp := length_id h
    have hf := length_paneFormat
    simp [Command.spelling, bareWord, Spelling.text, quoteWord, Command.input]
    omega
  | _ =>
    have hp := length_id h
    simp [Command.spelling, bareWord, inQuotes, Spelling.text, quoteWord, Command.input]
    omega

/-! ## What is read -/

theorem read_command {c : Command} (h : c.Ok) (cs : List (List Text)) :
    ∃ w, Line.read ⟨cs, [], none, .bare⟩ c.render = ⟨cs, c.argv.dropLast, some w, .bare⟩ ∧ c.argv.getLast? = some w := by
  have hspells : List.Forall₂ Spells (c.spelling.map Spelling.text) c.argv := by
    rw [Command.argv, List.forall₂_map_left_iff, List.forall₂_map_right_iff, List.forall₂_same]
    intro x hx
    exact Spelling.ok_spells (ok_spelling h x hx)
  have hne : c.spelling.map Spelling.text ≠ [] := by simpa using spelling_ne_nil h
  rw [render_eq (ne_attach h)]
  obtain ⟨w, hw, hlast⟩ := read_joined hspells hne cs []
  exact ⟨w, hw, hlast⟩

theorem endCommand_last (cs : List (List Text)) {ws : List Text} {w : Text} (h : ws.getLast? = some w) :
    Line.endCommand ⟨cs, ws.dropLast, some w, .bare⟩ = ⟨cs ++ [ws], [], none, .bare⟩ := by
  obtain ⟨ys, rfl⟩ := List.getLast?_eq_some_iff.1 h
  obtain ⟨v, vs, hv⟩ := List.exists_cons_of_ne_nil (l := ys ++ [w]) (by simp)
  simp only [Line.endCommand, Line.endWord, List.dropLast_concat]
  rw [hv]

/-- commands are read one after the other -/
theorem read_line {c : Command} {rest : List Command} (h : ∀ x ∈ c :: rest, x.Ok) (cs : List (List Text)) :
    (Line.read ⟨cs, [], none, .bare⟩ (renderLine (c :: rest))).finish = some (cs ++ (c :: rest).map Command.argv) := by
  induction rest generalizing c cs with
  | nil =>
    obtain ⟨w, hread, hlast⟩ := read_command (h c List.mem_cons_self) cs
    have hline : renderLine [c] = c.render := by simp [renderLine]
    rw [hline, hread, Line.finish, endCommand_last cs hlast]
    rfl
  | cons d rest ih =>
    obtain ⟨w, hread, hlast⟩ := read_command (h c List.mem_cons_self) cs
    have hline : renderLine (c :: d :: rest) = c.render ++ (" ; ".toList ++ renderLine (d :: rest)) := by
      simp [renderLine]
    have hsep : Line.read ⟨cs, c.argv.dropLast, some w, .bare⟩ " ; ".toList = ⟨cs ++ [c.argv], [], none, .bare⟩ := by
      have hblank : Line.step ⟨cs, c.argv.dropLast, some w, .bare⟩ ' ' = ⟨cs, c.argv.dropLast ++ [w], none, .bare⟩ := rfl
      have hsemi : Line.step ⟨cs, c.argv.dropLast ++ [w], none, .bare⟩ ';' = ⟨cs ++ [c.argv], [], none, .bare⟩ :=
        endCommand_last cs hlast
      have hnext : Line.step ⟨cs ++ [c.argv], [], none, .bare⟩ ' ' = ⟨cs ++ [c.argv], [], none, .bare⟩ := rfl
      rw [show " ; ".toList = [' ', ';', ' '] from rfl, Line.read, List.foldl_cons, List.foldl_cons, List.foldl_cons, hblank,
        hsemi, hnext, List.foldl_nil]
    have hrest := ih (fun x hx => h x (List.mem_cons_of_mem c hx)) (cs ++ [c.argv])
    rw [hline, Line.read_append, hread, Line.read_append, hsep, hrest, List.append_assoc]
    rfl

/-! ## Lines that can be sent -/

theorem printable_render {c : Command} (h : c.Ok) : ∀ x ∈ c.render, printable x = true := by
  rw [render_eq (ne_attach h)]
  have hwords : ∀ r ∈ c.spelling.map Spelling.text, ∀ x ∈ r, printable x = true := by
    intro r hr x hx
    obtain ⟨w, hw, rfl⟩ := List.mem_map.1 hr
    have hok := ok_spelling h w hw
    simp only [Spelling.ok, Bool.and_eq_true, List.all_eq_true] at hok
    unfold Spelling.text at hx
    split_ifs at hx
    · simp only [quoteWord, List.mem_cons, List.mem_append, List.not_mem_nil, or_false] at hx
      rcases hx with rfl | hx | rfl
      · decide
      · exact hok.1 x hx
      · decide
    · exact hok.1 x hx
  intro x hx
  obtain ⟨r, rs, hrs⟩ := List.exists_cons_of_ne_nil (l := c.spelling.map Spelling.text) (by simpa using spelling_ne_nil h)
  rw [hrs] at hx hwords
  rw [joined_cons, List.mem_append] at hx
  rcases hx with hx | hx
  · exact hwords r List.mem_cons_self x hx
  · obtain ⟨t, ht, hxt⟩ := List.mem_flatMap.1 hx
    rcases List.mem_cons.1 hxt with rfl | hxt
    · decide
    · exact hwords t (List.mem_cons_of_mem r ht) x hxt

/-- what `send_command` accepts as text -/
def Sendable (t : Text) : Prop := byteLen t ≤ maxCommandBytes ∧ ∀ c ∈ t, c ≠ '\r' ∧ c ≠ '\n' ∧ c ≠ '\x00'

theorem byteLen_of_printable {t : Text} (h : ∀ c ∈ t, printable c = true) : byteLen t = t.length := by
  induction t with
  | nil => rfl
  | cons c t ih =>
    have hc := h c List.mem_cons_self
    simp only [printable, Bool.and_eq_true, decide_eq_true_eq] at hc
    have hsize : c.utf8Size = 1 := by
      have hval : c.val ≤ 127 := by
        rw [UInt32.le_iff_toNat_le]
        have : c.val.toNat = c.toNat := rfl
        have : (127 : UInt32).toNat = 127 := rfl
        omega
      simp [Char.utf8Size, hval]
    have hrest := ih fun d hd => h d (List.mem_cons_of_mem c hd)
    rw [byteLen, List.map_cons, List.sum_cons, hsize, List.length_cons]
    have : (t.map Char.utf8Size).sum = t.length := hrest
    omega

/-- the lines the adapter sends: one admitted command, or the capture with its metadata -/
inductive AdapterLine : List Command → Prop where
  | one {c : Command} (h : c.Ok) : AdapterLine [c]
  | barrier {p : Text} (h : isPaneId p = true) : AdapterLine [.capture p, .displayPane p]

theorem AdapterLine.ok {cs : List Command} (h : AdapterLine cs) : ∀ c ∈ cs, c.Ok := by
  cases h with
  | one h => simpa using h
  | barrier h => simpa [Command.Ok] using h

theorem AdapterLine.length {cs : List Command} (h : AdapterLine cs) : (renderLine cs).length ≤ maxCommandBytes := by
  cases h with
  | @one c h =>
    have hlen := length_render_le h
    have hinput : c.input.length ≤ 1024 := by
      cases c with
      | sendKeys p data => exact h.2.2
      | _ => simp [Command.input]
    simp only [renderLine, List.map_cons, List.map_nil, List.intersperse_singleton, List.flatten_cons, List.flatten_nil,
      List.append_nil, maxCommandBytes]
    omega
  | @barrier p h =>
    have h1 := length_render_le (c := .capture p) h
    have h2 := length_render_le (c := .displayPane p) h
    simp only [Command.input, List.length_nil] at h1 h2
    have hline : renderLine [.capture p, .displayPane p] =
        (Command.capture p).render ++ (" ; ".toList ++ (Command.displayPane p).render) := by
      simp [renderLine]
    rw [hline, List.length_append, List.length_append, maxCommandBytes]
    have hsep : " ; ".toList.length = 3 := rfl
    omega

theorem AdapterLine.printable {cs : List Command} (h : AdapterLine cs) : ∀ x ∈ renderLine cs, printable x = true := by
  cases h with
  | @one c h => simpa [renderLine] using printable_render h
  | @barrier p h =>
    have hline : renderLine [.capture p, .displayPane p] =
        (Command.capture p).render ++ (" ; ".toList ++ (Command.displayPane p).render) := by
      simp [renderLine]
    intro x hx
    rw [hline, List.mem_append, List.mem_append] at hx
    rcases hx with hx | hx | hx
    · exact printable_render (c := .capture p) h x hx
    · have hsep : ∀ y ∈ " ; ".toList, Tmux.printable y = true := List.all_iff_forall_prop.1 (by decide)
      exact hsep x hx
    · exact printable_render (c := .displayPane p) h x hx

/-- **A line of the adapter** can be sent, and is read as its commands. -/
theorem AdapterLine.sendable {cs : List Command} (h : AdapterLine cs) :
    Sendable (renderLine cs) ∧ commandsOf (renderLine cs) = some (cs.map Command.argv) := by
  refine ⟨⟨?_, ?_⟩, ?_⟩
  · rw [byteLen_of_printable h.printable]
    exact h.length
  · intro c hc
    have hp := h.printable c hc
    refine ⟨?_, ?_, ?_⟩
    all_goals
      rintro rfl
      exact absurd hp (by decide)
  · have hok := h.ok
    cases cs with
    | nil => cases h
    | cons c rest => exact read_line hok []

end OwlMux.Tmux
