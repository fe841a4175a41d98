/-
The name of a session on its way to tmux. `create_tmux_session` quotes it for the shell; tmux then expands its format language
in the argument of `new-session -s`, and the name may hold a `#`.

Result: `session_name_literal`: a created session has the requested name, and no job runs, on every target, exactly when the
name holds no format expression.
-/
import Mathlib.Tactic
import OwlMux.Ssh.Remote
import OwlMux.Tmux.Format

namespace OwlMux.Ssh

open OwlMux.Relay (Text)
open OwlMux.Shell
open OwlMux.Tmux (Target expand jobs Expression literal_iff)

/-! ## The argument -/

/-- the value behind an option -/
def argument (option : Text) : List Word → Option Text
  | w :: v :: ws => if literal w = some option then literal v else argument option (v :: ws)
  | _ => none

/-- the first command substitution of a word -/
def substitution : Word → Option (List Item)
  | [] => none
  | .subst items _ :: _ => some items
  | _ :: w => substitution w

/-- the name a command gives to `new-session`, behind the program, the socket and the command's name -/
def nameArgument (items : List Item) : Option Text :=
  match items with
  | .simple [w] [] [] :: _ =>
    match substitution w with
    | some [.simple [] (_ :: _ :: _ :: _ :: words) []] => argument "-s".toList words
    | _ => none
  | _ => none

/-- what tmux is given is the name -/
theorem nameArgument_createItems (tmux socket : Word) (name : Text) :
    nameArgument (createItems tmux socket (valueWord name)) = some name := by
  have hargs : nameArgument (createItems tmux socket (valueWord name)) = literal (valueWord name) := rfl
  rw [hargs]
  exact literal_quoted name

/-! ## The name -/

/-- the session the command creates has the requested name, whatever the target's variables say, and nothing is run for it -/
def NamedLiterally (command name : Text) : Prop :=
  ∃ items arg, parse command = some items ∧ nameArgument items = some arg ∧ (∀ env : Target, expand env arg = name) ∧ jobs arg = []

theorem parse_createCommand {tmux socket name c : Text} (h : createCommand tmux socket name = .ok c) :
    parse c = some (createItems (valueWord tmux) (valueWord socket) (valueWord name)) := by
  unfold createCommand at h
  split_ifs at h
  · cases h
  · obtain ⟨t, ht, h⟩ := except_bind h
    obtain ⟨s, hs, h⟩ := except_bind h
    obtain ⟨n, hn, h⟩ := except_bind h
    cases h
    obtain ⟨rfl, ht'⟩ := shellLiteral_ok ht
    obtain ⟨rfl, hs'⟩ := shellLiteral_ok hs
    obtain ⟨rfl, hn'⟩ := shellLiteral_ok hn
    exact parse_createText ht' hs' hn'

theorem namedLiterally_iff {tmux socket name c : Text} (h : createCommand tmux socket name = .ok c) :
    NamedLiterally c name ↔ (∀ env : Target, expand env name = name) ∧ jobs name = [] := by
  have hparse := parse_createCommand h
  have harg := nameArgument_createItems (valueWord tmux) (valueWord socket) name
  constructor
  · rintro ⟨items, arg, hitems, hname, hexpand, hjobs⟩
    rw [hparse] at hitems
    cases hitems
    rw [harg] at hname
    cases hname
    exact ⟨hexpand, hjobs⟩
  · intro hlit
    exact ⟨_, name, hparse, harg, hlit⟩

/-- **A name stays a name.** For every rendered command: exactly when the name holds none of `##`, `#{` with a later `}` and `#(`
with a later `)`. -/
theorem session_name_literal {tmux socket name c : Text} (h : createCommand tmux socket name = .ok c) :
    NamedLiterally c name ↔ ¬ Expression name := by
  rw [namedLiterally_iff h]
  exact literal_iff name

def tmuxPath : Text := "/usr/bin/tmux".toList

theorem createCommand_named (name : Text) (h : Writer.validSessionName name = true) (hne : name ≠ []) (h0 : '\x00' ∉ name) :
    createCommand tmuxPath "mux".toList name =
      .ok (createText (quote tmuxPath) (quote "mux".toList) (quote name)) := by
  have ht := shellLiteral_of_ne_nil (v := tmuxPath) (by decide) (by decide)
  have hs := shellLiteral_of_ne_nil (v := "mux".toList) (by decide) (by decide)
  have hn := shellLiteral_of_ne_nil hne h0
  rw [createCommand, h, ht, hs, hn]
  rfl

theorem session_name_literal_plain :
    NamedLiterally (createText (quote tmuxPath) (quote "mux".toList) (quote "build #1".toList)) "build #1".toList := by
  refine (session_name_literal (createCommand_named "build #1".toList (by decide +kernel) (by decide) (by decide))).2 ?_
  exact (literal_iff _).1 ⟨fun env => rfl, rfl⟩

/-- a name that runs a command on the target -/
theorem session_name_runs_job : ¬ ∀ tmux socket name c : Text, createCommand tmux socket name = .ok c → NamedLiterally c name := by
  intro h
  have hcmd := createCommand_named "#(id)".toList (by decide +kernel) (by decide) (by decide)
  have hjobs := ((namedLiterally_iff hcmd).1 (h _ _ _ _ hcmd)).2
  exact absurd hjobs (by decide +kernel)

end OwlMux.Ssh
