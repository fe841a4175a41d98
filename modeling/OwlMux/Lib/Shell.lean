/-
The POSIX shell's reading of a command line: characters to lexemes (quoting, expansions, operators), lexemes to words, words to
a sequence of simple commands, control operators and reserved words. A command substitution holds such a sequence in its turn.

Back quotes, `${` and `$((` are not read: a text that has one outside single quotes has no parse.

Results:
- `run_append`, `fold_append`: a text is read piece by piece;
- `run_quote`, `fold_literal`: text in single quotes, with `'\''` for a quote, is one word of its characters, wherever an
  unquoted word may start, and every character of it is quoted: nothing in it is expanded, split, or taken for a keyword.
-/
import Mathlib.Tactic

namespace OwlMux.Shell

/-! ## Lexemes -/

inductive Lexeme where
  | plain (c : Char)
  | quoted (c : Char)
  /-- a quote opens: there is a word, even an empty one -/
  | mark
  | param (name : List Char) (inQuotes : Bool)
  | opened (inQuotes : Bool)
  | closed
  | blank
  | op (c : Char)
deriving DecidableEq, Repr

inductive Mode where
  | bare (inWord : Bool)
  | comment
  | escaped (inWord : Bool)
  | single
  | double
  | doubleEscaped
  | dollar (inQuotes : Bool)
  /-- behind `$(`: another parenthesis would begin an arithmetic expansion -/
  | opening
  | name (inQuotes : Bool) (read : List Char)
  | failed
deriving DecidableEq, Repr

/-- with, for each substitution that is open, whether it stands in double quotes -/
structure State where
  mode : Mode
  outer : List Bool
deriving DecidableEq, Repr

def isNameStart (c : Char) : Bool := c.isAlpha || c == '_'

def isNameChar (c : Char) : Bool := c.isAlphanum || c == '_'

/-- the mode an expansion returns to -/
def Mode.back (inQuotes : Bool) : Mode := if inQuotes then .double else .bare true

def bareStep (inWord : Bool) (outer : List Bool) (c : Char) : State × List Lexeme :=
  if c = ' ' ∨ c = '\t' then (⟨.bare false, outer⟩, [.blank])
  else if c = '\x27' then (⟨.single, outer⟩, [.mark])
  else if c = '\x22' then (⟨.double, outer⟩, [.mark])
  else if c = '\\' then (⟨.escaped inWord, outer⟩, [])
  else if c = '$' then (⟨.dollar false, outer⟩, [])
  else if c = '\x60' then (⟨.failed, outer⟩, [])
  else if c = '#' ∧ inWord = false then (⟨.comment, outer⟩, [])
  else if c = ')' then
    match outer with
    | [] => (⟨.bare false, outer⟩, [.op c])
    | q :: outer => (⟨.back q, outer⟩, [.closed])
  else if c = ';' ∨ c = '&' ∨ c = '|' ∨ c = '<' ∨ c = '>' ∨ c = '(' ∨ c = '\n' then (⟨.bare false, outer⟩, [.op c])
  else (⟨.bare true, outer⟩, [.plain c])

def doubleStep (outer : List Bool) (c : Char) : State × List Lexeme :=
  if c = '\x22' then (⟨.bare true, outer⟩, [])
  else if c = '\\' then (⟨.doubleEscaped, outer⟩, [])
  else if c = '$' then (⟨.dollar true, outer⟩, [])
  else if c = '\x60' then (⟨.failed, outer⟩, [])
  else (⟨.double, outer⟩, [.quoted c])

/-- a character after an expansion -/
def backStep (inQuotes : Bool) (outer : List Bool) (c : Char) : State × List Lexeme :=
  if inQuotes then doubleStep outer c else bareStep true outer c

def step (s : State) (c : Char) : State × List Lexeme :=
  match s.mode with
  | .bare inWord => bareStep inWord s.outer c
  | .comment => if c = '\n' then (⟨.bare false, s.outer⟩, [.op c]) else (s, [])
  | .escaped inWord => if c = '\n' then (⟨.bare inWord, s.outer⟩, []) else (⟨.bare true, s.outer⟩, [.quoted c])
  | .single => if c = '\x27' then (⟨.bare true, s.outer⟩, []) else (s, [.quoted c])
  | .double => doubleStep s.outer c
  | .doubleEscaped =>
    if c = '\n' then (⟨.double, s.outer⟩, [])
    else if c = '$' ∨ c = '\x60' ∨ c = '\x22' ∨ c = '\\' then (⟨.double, s.outer⟩, [.quoted c])
    else (⟨.double, s.outer⟩, [.quoted '\\', .quoted c])
  | .dollar q =>
    if c = '(' then (⟨.opening, q :: s.outer⟩, [.opened q])
    else if c = '\x7b' then (⟨.failed, s.outer⟩, [])
    else if isNameStart c then (⟨.name q [c], s.outer⟩, [])
    else if c.isDigit ∨ c ∈ ['@', '*', '#', '?', '-', '$', '!'] then (⟨.back q, s.outer⟩, [.param [c] q])
    else ((backStep q s.outer c).1, (if q then .quoted '$' else .plain '$') :: (backStep q s.outer c).2)
  | .opening => if c = '(' then (⟨.failed, s.outer⟩, []) else bareStep false s.outer c
  | .name q read =>
    if isNameChar c then (⟨.name q (read ++ [c]), s.outer⟩, [])
    else ((backStep q s.outer c).1, .param read q :: (backStep q s.outer c).2)
  | .failed => (s, [])

def run : State → List Char → State × List Lexeme
  | s, [] => (s, [])
  | s, c :: t => ((run (step s c).1 t).1, (step s c).2 ++ (run (step s c).1 t).2)

/-- the end of the text: everything opened must be closed -/
def finish (s : State) : Option (List Lexeme) :=
  if s.outer ≠ [] then none
  else
    match s.mode with
    | .bare _ | .comment => some []
    | .name false read => some [.param read false]
    | .dollar false => some [.plain '$']
    | _ => none

def start : State := ⟨.bare false, []⟩

def lex (t : List Char) : Option (List Lexeme) := (finish (run start t).1).map ((run start t).2 ++ ·)

/-! ## Words and commands -/

mutual

inductive Part where
  | plain (c : Char)
  | quoted (c : Char)
  | param (name : List Char) (inQuotes : Bool)
  | subst (commands : List Item) (inQuotes : Bool)

inductive Item where
  | simple (assigns words : List (List Part)) (redirects : List (List Char × List Part))
  | control (op : List Char)
  | reserved (word : List Char)

end

abbrev Word := List Part

inductive Token where
  | word (w : Word)
  | op (o : List Char)
  /-- with the file descriptor before it -/
  | redirect (o : List Char)

/-- the characters of a word that is neither quoted nor expanded -/
def plainText : Word → Option (List Char)
  | [] => some []
  | .plain c :: w => (plainText w).map (c :: ·)
  | _ :: _ => none

def reservedWords : List (List Char) :=
  ["if".toList, "then".toList, "else".toList, "elif".toList, "fi".toList, "do".toList, "done".toList, "case".toList,
    "esac".toList, "while".toList, "until".toList, "for".toList, "in".toList, ['\x7b'], ['\x7d'], ['!']]

def isReserved (w : Word) : Option (List Char) :=
  match plainText w with
  | some t => if t ∈ reservedWords then some t else none
  | none => none

/-- `name=` at the front, unquoted -/
def isAssignment (first : Bool) : Word → Bool
  | .plain c :: w => if c = '=' then !first else (if first then isNameStart c else isNameChar c) && isAssignment false w
  | _ => false

structure Simple where
  assigns : List Word
  words : List Word
  redirects : List (List Char × Word)

def Simple.none : Simple := ⟨[], [], []⟩

def Simple.flush (c : Simple) : List Item :=
  match c with
  | ⟨[], [], []⟩ => []
  | ⟨assigns, words, redirects⟩ => [.simple assigns words redirects]

/-- a word of a simple command; a reserved word only in the place of a command's name -/
def Simple.word (c : Simple) (w : Word) : Simple × List Item :=
  match c with
  | ⟨[], [], []⟩ =>
    match isReserved w with
    | some r => (c, [.reserved r])
    | Option.none => if isAssignment true w then (⟨[w], [], []⟩, []) else (⟨[], [w], []⟩, [])
  | ⟨assigns, [], redirects⟩ =>
    if isAssignment true w then (⟨assigns ++ [w], [], redirects⟩, []) else (⟨assigns, [w], redirects⟩, [])
  | ⟨assigns, words, redirects⟩ => (⟨assigns, words ++ [w], redirects⟩, [])

def itemsFrom (c : Simple) (redirect : Option (List Char)) : List Token → List Item
  | [] => c.flush
  | .word w :: ts =>
    match redirect with
    | some o => itemsFrom { c with redirects := c.redirects ++ [(o, w)] } Option.none ts
    | Option.none => (c.word w).2 ++ itemsFrom (c.word w).1 Option.none ts
  | .op o :: ts => c.flush ++ .control o :: itemsFrom .none Option.none ts
  | .redirect o :: ts => itemsFrom c (some o) ts

/-- the text read so far at one level, the last token first -/
structure Frame where
  tokens : List Token
  word : Option Word
  /-- the last character was an operator's -/
  glue : Bool

def Frame.empty : Frame := ⟨[], none, false⟩

def Frame.endWord (f : Frame) : Frame :=
  match f.word with
  | some w => ⟨.word w :: f.tokens, none, false⟩
  | none => { f with glue := false }

def Frame.add (f : Frame) (w : Word) : Frame := ⟨f.tokens, some (f.word.getD [] ++ w), false⟩

def operators : List (List Char) :=
  ["||".toList, "&&".toList, ";;".toList, ">>".toList, "<<".toList, ">&".toList, "<&".toList, "<>".toList, ">|".toList]

/-- digits directly before a redirection -/
def Frame.descriptor (f : Frame) : Option (List Char) :=
  match f.word with
  | some w =>
    match plainText w with
    | some t => if t ≠ [] ∧ t.all Char.isDigit then some t else none
    | none => none
  | none => none

def Token.single (c : Char) : Token := if c = '<' ∨ c = '>' then .redirect [c] else .op [c]

def Frame.op (f : Frame) (c : Char) : Frame :=
  match (if c = '<' ∨ c = '>' then f.descriptor else none) with
  | some fd => ⟨.redirect (fd ++ [c]) :: f.tokens, none, true⟩
  | none =>
    match f.word, f.glue, f.tokens with
    | none, true, .op o :: ts => if o ++ [c] ∈ operators then ⟨.op (o ++ [c]) :: ts, none, true⟩ else ⟨.single c :: f.tokens, none, true⟩
    | none, true, .redirect o :: ts =>
      if o.dropWhile Char.isDigit ++ [c] ∈ operators then ⟨.redirect (o ++ [c]) :: ts, none, true⟩
      else ⟨.single c :: f.tokens, none, true⟩
    | _, _, _ => ⟨.single c :: f.endWord.tokens, none, true⟩

def Frame.items (f : Frame) : List Item := itemsFrom .none none f.endWord.tokens.reverse

theorem Frame.op_separator (ts : List Token) (w : Word) (b : Bool) :
    Frame.op ⟨ts, some w, b⟩ ';' = ⟨.op [';'] :: .word w :: ts, none, true⟩ := rfl

theorem Frame.op_bar (ts : List Token) : Frame.op ⟨ts, none, false⟩ '|' = ⟨.op ['|'] :: ts, none, true⟩ := rfl

theorem Frame.op_or (ts : List Token) : Frame.op ⟨.op ['|'] :: ts, none, true⟩ '|' = ⟨.op ['|', '|'] :: ts, none, true⟩ := rfl

theorem Frame.op_output (ts : List Token) (b : Bool) :
    Frame.op ⟨ts, some ("2".toList.map .plain), b⟩ '>' = ⟨.redirect ['2', '>'] :: ts, none, true⟩ := rfl

structure Group where
  frame : Frame
  outer : List (Bool × Frame)

def Group.within (g : Group) (f : Frame → Frame) : Group := { g with frame := f g.frame }

def groupStep (g : Group) : Lexeme → Group
  | .plain c => g.within (·.add [.plain c])
  | .quoted c => g.within (·.add [.quoted c])
  | .mark => g.within (·.add [])
  | .param name q => g.within (·.add [.param name q])
  | .blank => g.within Frame.endWord
  | .op c => g.within (·.op c)
  | .opened q => ⟨.empty, (q, g.frame) :: g.outer⟩
  | .closed =>
    match g.outer with
    | [] => g
    | (q, f) :: outer => ⟨f.add [.subst g.frame.items q], outer⟩

def fold (g : Group) (ls : List Lexeme) : Group := ls.foldl groupStep g

def Group.start : Group := ⟨.empty, []⟩

def parse (t : List Char) : Option (List Item) := (lex t).map fun ls => (fold .start ls).frame.items

/-! ## Reading piece by piece -/

theorem run_append (s : State) (a b : List Char) :
    run s (a ++ b) = ((run (run s a).1 b).1, (run s a).2 ++ (run (run s a).1 b).2) := by
  induction a generalizing s with
  | nil => rfl
  | cons c a ih => simp only [List.cons_append, run, ih, List.append_assoc]

theorem fold_append (g : Group) (a b : List Lexeme) : fold g (a ++ b) = fold (fold g a) b := List.foldl_append

theorem fold_cons (g : Group) (l : Lexeme) (ls : List Lexeme) : fold g (l :: ls) = fold (groupStep g l) ls := rfl

theorem fold_nil (g : Group) : fold g [] = g := rfl

/-- a text is read from one state to another -/
def Reads (s s' : State) (t : List Char) (ls : List Lexeme) : Prop := run s t = (s', ls)

instance (s s' : State) (t : List Char) (ls : List Lexeme) : Decidable (Reads s s' t ls) := inferInstanceAs (Decidable (_ = _))

theorem Reads.append {s s' s'' : State} {a b : List Char} {la lb : List Lexeme} (ha : Reads s s' a la) (hb : Reads s' s'' b lb) :
    Reads s s'' (a ++ b) (la ++ lb) := by
  rw [Reads, run_append, ha, hb]

theorem parse_of_reads {s : State} {t : List Char} {ls : List Lexeme} (h : Reads start s t ls) (hs : finish s = some []) :
    parse t = some (fold .start ls).frame.items := by
  rw [parse, lex, h, hs]
  simp

/-- the lexemes of words as a fixed text has them -/
def plains (t : String) : List Lexeme := t.toList.map .plain

def singles (t : String) : List Lexeme := .mark :: t.toList.map .quoted

/-- words with a blank on either side -/
def spaced (ws : List (List Lexeme)) : List Lexeme := .blank :: ws.flatMap (· ++ [.blank])

/-! ## Quoted text -/

/-- every quote leaves the quotes and comes escaped -/
def escapeQuotes (v : List Char) : List Char := v.flatMap fun c => if c = '\x27' then ['\x27', '\\', '\x27', '\x27'] else [c]

def quote (v : List Char) : List Char := '\x27' :: (escapeQuotes v ++ ['\x27'])

def quotedLexemes (v : List Char) : List Lexeme := v.flatMap fun c => if c = '\x27' then [.quoted c, .mark] else [.quoted c]

/-- the lexemes of a quoted value -/
def literalLexemes (v : List Char) : List Lexeme := .mark :: quotedLexemes v

theorem run_escapeQuotes (outer : List Bool) (v : List Char) :
    run ⟨.single, outer⟩ (escapeQuotes v) = (⟨.single, outer⟩, quotedLexemes v) := by
  induction v with
  | nil => rfl
  | cons c v ih =>
    have hcons : escapeQuotes (c :: v) = (if c = '\x27' then ['\x27', '\\', '\x27', '\x27'] else [c]) ++ escapeQuotes v := rfl
    have hlits : quotedLexemes (c :: v) = (if c = '\x27' then [.quoted c, .mark] else [.quoted c]) ++ quotedLexemes v := rfl
    have hone : run ⟨.single, outer⟩ (if c = '\x27' then ['\x27', '\\', '\x27', '\x27'] else [c]) =
        (⟨.single, outer⟩, if c = '\x27' then [.quoted c, .mark] else [.quoted c]) := by
      split_ifs with h
      · subst h
        rfl
      · simp [run, step, h]
    rw [hcons, hlits, run_append, hone, ih]

/-- an unquoted position, where a word may start or go on -/
def Mode.unquoted : Mode → Bool
  | .bare _ | .opening => true
  | _ => false

/-- **Quoted text is one word's.** -/
theorem run_quote {m : Mode} (hm : m.unquoted = true) (outer : List Bool) (v : List Char) :
    run ⟨m, outer⟩ (quote v) = (⟨.bare true, outer⟩, literalLexemes v) := by
  have hopen : step ⟨m, outer⟩ '\x27' = (⟨.single, outer⟩, [.mark]) := by
    cases m with
    | bare w => simp [step, bareStep]
    | opening => simp [step, bareStep]
    | _ => cases hm
  rw [quote, run, hopen, run_append, run_escapeQuotes]
  simp [run, step, literalLexemes]

theorem Frame.add_add (f : Frame) (a b : Word) : (f.add a).add b = f.add (a ++ b) := by
  simp [Frame.add]

theorem fold_literal (g : Group) (v : List Char) :
    fold g (literalLexemes v) = g.within (·.add (v.map .quoted)) := by
  have hlits : ∀ w : Word, fold (g.within (·.add w)) (quotedLexemes v) = g.within (·.add (w ++ v.map .quoted)) := by
    induction v with
    | nil =>
      intro w
      rw [List.map_nil, List.append_nil]
      rfl
    | cons c v ih =>
      intro w
      have hcons : quotedLexemes (c :: v) = (if c = '\x27' then [.quoted c, .mark] else [.quoted c]) ++ quotedLexemes v := rfl
      have hone : fold (g.within (·.add w)) (if c = '\x27' then [.quoted c, .mark] else [.quoted c]) =
          g.within (·.add (w ++ [.quoted c])) := by
        split_ifs with h
        · simp [fold, groupStep, Group.within, Frame.add_add]
        · simp [fold, groupStep, Group.within, Frame.add_add]
      rw [hcons, fold_append, hone, ih, List.append_assoc, List.map_cons, List.singleton_append]
  have h := hlits []
  rw [List.nil_append] at h
  exact h

/-! ## Fixed text -/

theorem fold_map (f : Char → Lexeme) (p : Char → Part) (hf : ∀ (g : Group) (c : Char), groupStep g (f c) = g.within (·.add [p c]))
    (g : Group) (w : Word) (t : List Char) :
    fold (g.within (·.add w)) (t.map f) = g.within (·.add (w ++ t.map p)) := by
  induction t generalizing w with
  | nil =>
    rw [List.map_nil, List.map_nil, List.append_nil]
    rfl
  | cons c t ih =>
    have hadd : (g.within (·.add w)).within (·.add [p c]) = g.within (·.add (w ++ [p c])) := by
      simp only [Group.within, Frame.add_add]
    rw [List.map_cons, fold_cons, hf, hadd, ih, List.append_assoc, List.map_cons, List.singleton_append]

theorem fold_singles (g : Group) (t : String) : fold g (singles t) = g.within (·.add (t.toList.map .quoted)) :=
  fold_map .quoted .quoted (fun _ _ => rfl) g [] t.toList

theorem fold_map_plain (g : Group) {t : List Char} (h : t ≠ []) : fold g (t.map .plain) = g.within (·.add (t.map .plain)) := by
  obtain ⟨c, t, rfl⟩ := List.exists_cons_of_ne_nil h
  rw [List.map_cons, fold_cons]
  exact fold_map .plain .plain (fun _ _ => rfl) g [.plain c] t

theorem fold_plains (g : Group) {t : String} (h : t.toList ≠ []) :
    fold g (plains t) = g.within (·.add (t.toList.map .plain)) := fold_map_plain g h

/-- digits stand for themselves -/
theorem reads_digits (inWord : Bool) (outer : List Bool) {t : List Char} (hne : t ≠ []) (h : ∀ c ∈ t, c.isDigit = true) :
    Reads ⟨.bare inWord, outer⟩ ⟨.bare true, outer⟩ t (t.map .plain) := by
  have hone : ∀ (w : Bool) (c : Char), c.isDigit = true → step ⟨.bare w, outer⟩ c = (⟨.bare true, outer⟩, [.plain c]) := by
    intro w c hc
    have hdigit : ∀ d : Char, d.isDigit = false → c ≠ d := by
      rintro d hd rfl
      rw [hc] at hd
      cases hd
    simp (disch := decide) [step, bareStep, hdigit]
  induction t generalizing inWord with
  | nil => exact (hne rfl).elim
  | cons c t ih =>
    have hc := hone inWord c (h c List.mem_cons_self)
    cases t with
    | nil => simp [Reads, run, hc]
    | cons d t =>
      have hrest := ih true (List.cons_ne_nil d t) fun x hx => h x (List.mem_cons_of_mem c hx)
      rw [Reads, run, hc, hrest]
      rfl

theorem fold_spaced (g : Group) (ws : List (List Lexeme)) :
    fold g (spaced ws) = ws.foldl (fun g w => (fold g w).within Frame.endWord) (g.within Frame.endWord) := by
  have h : ∀ g : Group, fold g (ws.flatMap (· ++ [.blank])) = ws.foldl (fun g w => (fold g w).within Frame.endWord) g := by
    induction ws with
    | nil =>
      intro g
      rfl
    | cons w ws ih =>
      intro g
      rw [List.flatMap_cons, fold_append, fold_append, ih]
      rfl
  exact h _

/-! ## What a word stands for -/

/-- the character a part stands for, when nothing is expanded; pathname and tilde expansion look at plain characters -/
def Part.literal : Part → Option Char
  | .quoted c => some c
  | .plain c => if c ∈ ['*', '?', '[', '~'] then none else some c
  | _ => none

def literal : Word → Option (List Char)
  | [] => some []
  | p :: w => do return (← p.literal) :: (← literal w)

theorem literal_quoted (v : List Char) : literal (v.map .quoted) = some v := by
  induction v with
  | nil => rfl
  | cons c v ih =>
    rw [List.map_cons, literal, ih]
    rfl

end OwlMux.Shell
