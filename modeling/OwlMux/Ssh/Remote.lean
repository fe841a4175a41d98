/-
The commands `ssh.rs` sends to the target's shell: `run_tmux_probe`, `create_tmux_session` and `start_tmux_control` splice the
tmux path, the socket name, a session id and a session name into fixed texts, each behind `shell_literal`.

Results:
- `shellLiteral_word`: wherever an unquoted word may start, a literal is one word, its value, with nothing to expand;
- `remote_commands_closed`: every rendered command has one structure, with the values as whole words of it.
-/
import Mathlib.Tactic
import OwlMux.Lib.Shell
import OwlMux.Tmux.Projection
import OwlMux.Writer.Frames

namespace OwlMux.Ssh

open OwlMux.Relay (Text)
open OwlMux.Tmux (SshError)
open OwlMux.Shell

/-! ## The commands -/

/-- `shell_literal` -/
def shellLiteral (value : Text) : Except SshError Text :=
  if value.isEmpty || value.contains '\x00' then .error .invalidState else .ok (quote value)

/-- `is_tmux_session_id` -/
def isTmuxSessionId (value : Text) : Bool :=
  match value with
  | '$' :: digits => !digits.isEmpty && digits.all Char.isDigit
  | _ => false

def probeText (tmux socket : Text) : Text :=
  "v=$(".toList ++ tmux ++
    " -V) || exit 42; printf '__OWLMUX_TMUX_CLIENT_V1__\\t%s\\n' \"$v\"; if sv=$(".toList ++ tmux ++ " -L ".toList ++ socket ++
    " display-message -p 'tmux #\x7bversion\x7d' 2>/dev/null); then printf '__OWLMUX_TMUX_SERVER_V1__\\t%s\\n' \"$sv\"; ".toList ++
    tmux ++ " -L ".toList ++ socket ++
    " list-sessions -F '#\x7bsession_id\x7d:#\x7bsession_created\x7d:#\x7bsession_attached\x7d:#\x7bsession_windows\x7d:#\x7bsession_name\x7d'; else printf '__OWLMUX_TMUX_SERVER_V1__\\tnone\\n'; fi".toList

/-- the remote command of `run_tmux_probe` -/
def probeCommand (tmuxPath socketIdentity : Text) : Except SshError Text := do
  let tmux ← shellLiteral tmuxPath
  let socket ← shellLiteral socketIdentity
  return probeText tmux socket

def createText (tmux socket name : Text) : Text :=
  "created=$(".toList ++ tmux ++ " -L ".toList ++ socket ++
    " new-session -d -P -F '#\x7bsession_id\x7d:#\x7bsession_created\x7d' -s ".toList ++ name ++
    ") || exit 46; printf '__OWLMUX_TMUX_CREATED_V1__\\t%s\\n' \"$created\"".toList

/-- the remote command of `create_tmux_session`, behind its check of the name -/
def createCommand (tmuxPath socketIdentity name : Text) : Except SshError Text := do
  if !Writer.validSessionName name then throw .invalidState
  let tmux ← shellLiteral tmuxPath
  let socket ← shellLiteral socketIdentity
  let name ← shellLiteral name
  return createText tmux socket name

def controlText (tmux socket session expectedCreated : Text) : Text :=
  "actual=$(".toList ++ tmux ++ " -L ".toList ++ socket ++ " display-message -p -t ".toList ++ session ++
    " '#\x7bsession_created\x7d') || exit 44; [ \"$actual\" = ".toList ++ expectedCreated ++
    " ] || exit 45; printf '__OWLMUX_TMUX_SESSION_OK_V1__\\n'; exec ".toList ++ tmux ++ " -L ".toList ++ socket ++
    " -C attach-session -E -f 'read-only,ignore-size' -t ".toList ++ session

/-- the remote command of `start_tmux_control`, behind its check of the session; the time is an `i64` -/
def controlCommand (tmuxPath socketIdentity sessionId : Text) (sessionCreated : ℤ) : Except SshError Text := do
  if !isTmuxSessionId sessionId || sessionCreated ≤ 0 then throw .invalidState
  let tmux ← shellLiteral tmuxPath
  let socket ← shellLiteral socketIdentity
  let session ← shellLiteral sessionId
  return controlText tmux socket session (Nat.toDigits 10 sessionCreated.toNat)

/-! ## Their structure -/

def plainWord (t : String) : Word := t.toList.map .plain

def quotedWord (t : String) : Word := t.toList.map .quoted

/-- the word that is `v` -/
def valueWord (v : Text) : Word := v.map .quoted

def or : Item := .control "||".toList
def semicolon : Item := .control ";".toList

def probeItems (tmux socket : Word) : List Item :=
  [.simple [plainWord "v=" ++ [.subst [.simple [] [tmux, plainWord "-V"] []] false]] [] [], or,
    .simple [] [plainWord "exit", plainWord "42"] [], semicolon,
    .simple [] [plainWord "printf", quotedWord "__OWLMUX_TMUX_CLIENT_V1__\\t%s\\n", [.param "v".toList true]] [], semicolon,
    .reserved "if".toList,
    .simple [plainWord "sv=" ++ [.subst [.simple []
      [tmux, plainWord "-L", socket, plainWord "display-message", plainWord "-p", quotedWord "tmux #\x7bversion\x7d"]
      [("2>".toList, plainWord "/dev/null")]] false]] [] [], semicolon,
    .reserved "then".toList,
    .simple [] [plainWord "printf", quotedWord "__OWLMUX_TMUX_SERVER_V1__\\t%s\\n", [.param "sv".toList true]] [], semicolon,
    .simple [] [tmux, plainWord "-L", socket, plainWord "list-sessions", plainWord "-F", quotedWord
      "#\x7bsession_id\x7d:#\x7bsession_created\x7d:#\x7bsession_attached\x7d:#\x7bsession_windows\x7d:#\x7bsession_name\x7d"] [],
    semicolon, .reserved "else".toList,
    .simple [] [plainWord "printf", quotedWord "__OWLMUX_TMUX_SERVER_V1__\\tnone\\n"] [], semicolon, .reserved "fi".toList]

def createItems (tmux socket name : Word) : List Item :=
  [.simple [plainWord "created=" ++ [.subst [.simple []
      [tmux, plainWord "-L", socket, plainWord "new-session", plainWord "-d", plainWord "-P", plainWord "-F",
        quotedWord "#\x7bsession_id\x7d:#\x7bsession_created\x7d", plainWord "-s", name] []] false]] [] [], or,
    .simple [] [plainWord "exit", plainWord "46"] [], semicolon,
    .simple [] [plainWord "printf", quotedWord "__OWLMUX_TMUX_CREATED_V1__\\t%s\\n", [.param "created".toList true]] []]

def controlItems (tmux socket session created : Word) : List Item :=
  [.simple [plainWord "actual=" ++ [.subst [.simple []
      [tmux, plainWord "-L", socket, plainWord "display-message", plainWord "-p", plainWord "-t", session,
        quotedWord "#\x7bsession_created\x7d"] []] false]] [] [], or,
    .simple [] [plainWord "exit", plainWord "44"] [], semicolon,
    .simple [] [plainWord "[", [.param "actual".toList true], plainWord "=", created, plainWord "]"] [], or,
    .simple [] [plainWord "exit", plainWord "45"] [], semicolon,
    .simple [] [plainWord "printf", quotedWord "__OWLMUX_TMUX_SESSION_OK_V1__\\n"] [], semicolon,
    .simple [] [plainWord "exec", tmux, plainWord "-L", socket, plainWord "-C", plainWord "attach-session", plainWord "-E",
      plainWord "-f", quotedWord "read-only,ignore-size", plainWord "-t", session] []]

/-! ## Literals -/

theorem shellLiteral_ok {v q : Text} (h : shellLiteral v = .ok q) : q = quote v ∧ v ≠ [] := by
  unfold shellLiteral at h
  split_ifs at h with hv
  cases h
  refine ⟨rfl, ?_⟩
  rintro rfl
  exact hv rfl

theorem reads_literal {m : Mode} (hm : m.unquoted = true) (outer : List Bool) (v : Text) :
    Reads ⟨m, outer⟩ ⟨.bare true, outer⟩ (quote v) (literalLexemes v) := run_quote hm outer v

/-! ## The texts read -/

theorem reads_option (outer : List Bool) :
    Reads ⟨.bare true, outer⟩ ⟨.bare false, outer⟩ " -L ".toList (spaced [plains "-L"]) := by
  rfl

theorem parse_createText {tmux socket name : Text} (ht : tmux ≠ []) (hs : socket ≠ []) (hn : name ≠ []) :
    parse (createText (quote tmux) (quote socket) (quote name)) =
      some (createItems (valueWord tmux) (valueWord socket) (valueWord name)) := by
  have h1 : Reads start ⟨.opening, [false]⟩ "created=$(".toList (plains "created=" ++ [.opened false]) := by decide +kernel
  have h2 := h1.append (reads_literal rfl [false] tmux)
  have h3 := h2.append (reads_option [false])
  have h4 := h3.append (reads_literal rfl [false] socket)
  have h5 : Reads ⟨.bare true, [false]⟩ ⟨.bare false, [false]⟩
      " new-session -d -P -F '#\x7bsession_id\x7d:#\x7bsession_created\x7d' -s ".toList
      (spaced [plains "new-session", plains "-d", plains "-P", plains "-F",
        singles "#\x7bsession_id\x7d:#\x7bsession_created\x7d", plains "-s"]) := by decide +kernel
  have h6 := (h4.append h5).append (reads_literal rfl [false] name)
  have h7 : Reads ⟨.bare true, [false]⟩ ⟨.bare true, []⟩
      ") || exit 46; printf '__OWLMUX_TMUX_CREATED_V1__\\t%s\\n' \"$created\"".toList
      (.closed :: spaced [[.op '|', .op '|'], plains "exit", plains "46" ++ [.op ';'], plains "printf",
        singles "__OWLMUX_TMUX_CREATED_V1__\\t%s\\n"] ++ [.mark, .param "created".toList true]) := by decide +kernel
  have hparse := parse_of_reads (h6.append h7) rfl
  refine Eq.trans hparse ?_
  simp (disch := decide) only [fold_append, fold_literal, fold_spaced, fold_plains, fold_singles, fold_cons, List.foldl_cons,
    List.foldl_nil, groupStep, Group.within, Frame.add, Frame.endWord, Group.start, Frame.empty, Option.getD_none,
    Option.getD_some, List.nil_append, fold_nil, Frame.op_separator, Frame.op_bar,
    Frame.op_or]
  obtain ⟨c, tmux, rfl⟩ := List.exists_cons_of_ne_nil ht
  obtain ⟨d, socket, rfl⟩ := List.exists_cons_of_ne_nil hs
  obtain ⟨e, name, rfl⟩ := List.exists_cons_of_ne_nil hn
  rfl

theorem parse_probeText {tmux socket : Text} (ht : tmux ≠ []) (hs : socket ≠ []) :
    parse (probeText (quote tmux) (quote socket)) = some (probeItems (valueWord tmux) (valueWord socket)) := by
  have h1 : Reads start ⟨.opening, [false]⟩ "v=$(".toList (plains "v=" ++ [.opened false]) := by decide +kernel
  have h2 : Reads ⟨.bare true, [false]⟩ ⟨.opening, [false]⟩
      " -V) || exit 42; printf '__OWLMUX_TMUX_CLIENT_V1__\\t%s\\n' \"$v\"; if sv=$(".toList
      (.blank :: plains "-V" ++ .closed :: spaced [[.op '|', .op '|'], plains "exit", plains "42" ++ [.op ';'], plains "printf",
        singles "__OWLMUX_TMUX_CLIENT_V1__\\t%s\\n", [.mark, .param "v".toList true, .op ';'], plains "if"] ++ plains "sv=" ++
        [.opened false]) := by decide +kernel
  have h3 : Reads ⟨.bare true, [false]⟩ ⟨.bare false, []⟩
      " display-message -p 'tmux #\x7bversion\x7d' 2>/dev/null); then printf '__OWLMUX_TMUX_SERVER_V1__\\t%s\\n' \"$sv\"; ".toList
      (spaced [plains "display-message", plains "-p", singles "tmux #\x7bversion\x7d"] ++ plains "2" ++ .op '>' ::
        plains "/dev/null" ++ .closed :: .op ';' :: spaced [plains "then", plains "printf",
          singles "__OWLMUX_TMUX_SERVER_V1__\\t%s\\n", [.mark, .param "sv".toList true, .op ';']]) := by decide +kernel
  have h4 : Reads ⟨.bare true, []⟩ ⟨.bare true, []⟩
      " list-sessions -F '#\x7bsession_id\x7d:#\x7bsession_created\x7d:#\x7bsession_attached\x7d:#\x7bsession_windows\x7d:#\x7bsession_name\x7d'; else printf '__OWLMUX_TMUX_SERVER_V1__\\tnone\\n'; fi".toList
      (spaced [plains "list-sessions", plains "-F", singles
          "#\x7bsession_id\x7d:#\x7bsession_created\x7d:#\x7bsession_attached\x7d:#\x7bsession_windows\x7d:#\x7bsession_name\x7d" ++
          [.op ';'], plains "else", plains "printf", singles "__OWLMUX_TMUX_SERVER_V1__\\tnone\\n" ++ [.op ';']] ++
        plains "fi") := by decide +kernel
  have h5 := ((h1.append (reads_literal rfl [false] tmux)).append h2).append (reads_literal rfl [false] tmux)
  have h6 := ((h5.append (reads_option [false])).append (reads_literal rfl [false] socket)).append h3
  have h7 := ((h6.append (reads_literal rfl [] tmux)).append (reads_option [])).append (reads_literal rfl [] socket)
  have hparse := parse_of_reads (h7.append h4) rfl
  refine Eq.trans hparse ?_
  simp (disch := decide) only [fold_append, fold_literal, fold_spaced, fold_plains, fold_singles, fold_cons, List.foldl_cons,
    List.foldl_nil, groupStep, Group.within, Frame.add, Frame.endWord, Group.start, Frame.empty, Option.getD_none,
    Option.getD_some, List.nil_append, fold_nil, Frame.op_separator, Frame.op_bar,
    Frame.op_or, Frame.op_output]
  obtain ⟨c, tmux, rfl⟩ := List.exists_cons_of_ne_nil ht
  obtain ⟨d, socket, rfl⟩ := List.exists_cons_of_ne_nil hs
  rfl

theorem parse_controlText {tmux socket session created : Text} (ht : tmux ≠ []) (hs : socket ≠ []) (hn : session ≠ [])
    (hc : created ≠ []) (hdigits : ∀ c ∈ created, c.isDigit = true) :
    parse (controlText (quote tmux) (quote socket) (quote session) created) =
      some (controlItems (valueWord tmux) (valueWord socket) (valueWord session) (created.map .plain)) := by
  have h1 : Reads start ⟨.opening, [false]⟩ "actual=$(".toList (plains "actual=" ++ [.opened false]) := by decide +kernel
  have h2 : Reads ⟨.bare true, [false]⟩ ⟨.bare false, [false]⟩ " display-message -p -t ".toList
      (spaced [plains "display-message", plains "-p", plains "-t"]) := by decide +kernel
  have h3 : Reads ⟨.bare true, [false]⟩ ⟨.bare false, []⟩
      " '#\x7bsession_created\x7d') || exit 44; [ \"$actual\" = ".toList
      (.blank :: singles "#\x7bsession_created\x7d" ++ .closed :: spaced [[.op '|', .op '|'], plains "exit",
        plains "44" ++ [.op ';'], plains "[", [.mark, .param "actual".toList true], plains "="]) := by decide +kernel
  have h4 : Reads ⟨.bare true, []⟩ ⟨.bare false, []⟩
      " ] || exit 45; printf '__OWLMUX_TMUX_SESSION_OK_V1__\\n'; exec ".toList
      (spaced [plains "]", [.op '|', .op '|'], plains "exit", plains "45" ++ [.op ';'], plains "printf",
        singles "__OWLMUX_TMUX_SESSION_OK_V1__\\n" ++ [.op ';'], plains "exec"]) := by decide +kernel
  have h5 : Reads ⟨.bare true, []⟩ ⟨.bare false, []⟩ " -C attach-session -E -f 'read-only,ignore-size' -t ".toList
      (spaced [plains "-C", plains "attach-session", plains "-E", plains "-f", singles "read-only,ignore-size", plains "-t"]) := by
    decide +kernel
  have h6 := ((h1.append (reads_literal rfl [false] tmux)).append (reads_option [false])).append (reads_literal rfl [false] socket)
  have h7 := ((h6.append h2).append (reads_literal rfl [false] session)).append h3
  have h8 := ((h7.append (reads_digits false [] hc hdigits)).append h4).append (reads_literal rfl [] tmux)
  have h9 := ((h8.append (reads_option [])).append (reads_literal rfl [] socket)).append h5
  have hparse := parse_of_reads (h9.append (reads_literal rfl [] session)) rfl
  refine Eq.trans hparse ?_
  simp (disch := first | decide | exact hc) only [fold_append, fold_literal, fold_spaced, fold_plains, fold_singles,
    fold_map_plain, fold_cons, List.foldl_cons, List.foldl_nil, groupStep, Group.within, Frame.add, Frame.endWord, Group.start,
    Frame.empty, Option.getD_none, Option.getD_some, List.nil_append, fold_nil, Frame.op_separator, Frame.op_bar,
    Frame.op_or]
  obtain ⟨c, tmux, rfl⟩ := List.exists_cons_of_ne_nil ht
  obtain ⟨d, socket, rfl⟩ := List.exists_cons_of_ne_nil hs
  obtain ⟨e, session, rfl⟩ := List.exists_cons_of_ne_nil hn
  rfl

/-! ## Every rendered command -/

/-- where a word may start, `q` is the one word `v`: no part of it is expanded, and it is no keyword and no assignment -/
structure ReadsAsWord (q v : Text) : Prop where
  reads : ∀ (m : Mode) (outer : List Bool), m.unquoted = true →
    Reads ⟨m, outer⟩ ⟨.bare true, outer⟩ q (literalLexemes v)
  word : ∀ g : Group, g.frame.word = none →
    (fold g (literalLexemes v)).frame.endWord = ⟨.word (valueWord v) :: g.frame.tokens, none, false⟩ ∧
      (fold g (literalLexemes v)).outer = g.outer
  value : literal (valueWord v) = some v
  name : isReserved (valueWord v) = none ∧ isAssignment true (valueWord v) = false

theorem quote_readsAsWord {v : Text} (h : v ≠ []) : ReadsAsWord (quote v) v := by
  refine ⟨fun m outer hm => reads_literal hm outer v, ?_, literal_quoted v, ?_⟩
  · intro g hg
    rw [fold_literal]
    simp [Group.within, Frame.add, Frame.endWord, hg, valueWord]
  · obtain ⟨c, v, rfl⟩ := List.exists_cons_of_ne_nil h
    exact ⟨rfl, rfl⟩

theorem shellLiteral_of_ne_nil {v : Text} (h : v ≠ []) (h0 : '\x00' ∉ v) : shellLiteral v = .ok (quote v) := by
  have hempty : v.isEmpty = false := List.isEmpty_eq_false_iff.2 h
  have hcontains : v.contains '\x00' = false := by simpa using h0
  rw [shellLiteral, hempty, hcontains]
  rfl

theorem except_bind {α β : Type} {x : Except SshError α} {f : α → Except SshError β} {b : β} (h : x >>= f = .ok b) :
    ∃ a, x = .ok a ∧ f a = .ok b := by
  cases x with
  | error e => cases h
  | ok a => exact ⟨a, rfl, h⟩

theorem literal_digits (n : ℕ) : literal ((Nat.toDigits 10 n).map .plain) = some (Nat.toDigits 10 n) := by
  have hdigits : ∀ c ∈ Nat.toDigits 10 n, c.isDigit = true := fun c hc =>
    Nat.isDigit_of_mem_toDigits (by decide) (by decide) hc
  revert hdigits
  generalize Nat.toDigits 10 n = t
  intro hdigits
  induction t with
  | nil => rfl
  | cons c t ih =>
    have hc : c ∉ ['*', '?', '[', '~'] := by
      intro hmem
      have hd := hdigits c List.mem_cons_self
      simp only [List.mem_cons, List.not_mem_nil, or_false] at hmem
      rcases hmem with rfl | rfl | rfl | rfl
      all_goals exact absurd hd (by decide)
    rw [List.map_cons, literal, ih fun d hd => hdigits d (List.mem_cons_of_mem c hd), Part.literal, if_neg hc]
    rfl

/-- **One structure for every command.** A quoted value is one word, itself, in any unquoted position; and every command that is
rendered has the structure of its text, with the values as whole words. -/
theorem remote_commands_closed :
    (∀ v : Text, v ≠ [] → '\x00' ∉ v → ∃ q, shellLiteral v = .ok q ∧ ReadsAsWord q v) ∧
      (∀ tmux socket c : Text, probeCommand tmux socket = .ok c →
        parse c = some (probeItems (valueWord tmux) (valueWord socket))) ∧
      (∀ tmux socket name c : Text, createCommand tmux socket name = .ok c →
        parse c = some (createItems (valueWord tmux) (valueWord socket) (valueWord name))) ∧
      ∀ (tmux socket session c : Text) (created : ℤ), controlCommand tmux socket session created = .ok c →
        ∃ word, literal word = some (Nat.toDigits 10 created.toNat) ∧
          parse c = some (controlItems (valueWord tmux) (valueWord socket) (valueWord session) word) := by
  refine ⟨?_, ?_, ?_, ?_⟩
  · intro v h h0
    exact ⟨quote v, shellLiteral_of_ne_nil h h0, quote_readsAsWord h⟩
  · intro tmux socket c h
    obtain ⟨t, ht, h⟩ := except_bind h
    obtain ⟨s, hs, h⟩ := except_bind h
    cases h
    obtain ⟨rfl, ht'⟩ := shellLiteral_ok ht
    obtain ⟨rfl, hs'⟩ := shellLiteral_ok hs
    exact parse_probeText ht' hs'
  · intro tmux socket name c h
    unfold createCommand at h
    split_ifs at h
    · cases h
    · obtain ⟨t, ht, h⟩ := except_bind h
      obtain ⟨s, hs, h⟩ := except_bind h
      obtain ⟨n, hn, h⟩ := except_bind h
      cases h
      obtain ⟨rfl, ht'⟩ := shellLiteral_ok ht
      obtain ⟨rfl, hs'⟩ := shellLiteral_ok hs
      obtain ⟨rfl, hn'⟩ := shellLiteral_ok hn
      exact parse_createText ht' hs' hn'
  · intro tmux socket session c created h
    unfold controlCommand at h
    split_ifs at h
    · cases h
    · obtain ⟨t, ht, h⟩ := except_bind h
      obtain ⟨s, hs, h⟩ := except_bind h
      obtain ⟨n, hn, h⟩ := except_bind h
      cases h
      obtain ⟨rfl, ht'⟩ := shellLiteral_ok ht
      obtain ⟨rfl, hs'⟩ := shellLiteral_ok hs
      obtain ⟨rfl, hn'⟩ := shellLiteral_ok hn
      refine ⟨_, literal_digits _, parse_controlText ht' hs' hn' Nat.toDigits_ne_nil ?_⟩
      intro d hd
      exact Nat.isDigit_of_mem_toDigits (by decide) (by decide) hd

/-- a path with a blank and a quote, a socket that is a keyword -/
theorem remote_commands_closed_quoted :
    parse (probeText (quote "/opt/o'neil/tmux x".toList) (quote "then".toList)) =
      some (probeItems (valueWord "/opt/o'neil/tmux x".toList) (valueWord "then".toList)) :=
  remote_commands_closed.2.1 _ _ _ rfl

end OwlMux.Ssh
