/-
Browser requests of one attachment and the checks made before they are dispatched (`owlmux-server/src/attachment.rs`,
`tmux.rs`): epochs, sizes, names, identifiers and the tmux command each request becomes.

`Operation.verdict` is what `handle_workspace_frame` decides before it takes the dispatch mutex, `Operation.render` the
command line `tmux.rs` writes for it, or nothing when it refuses to write one.

Results:
- `verdict_dispatch_matches`: what is dispatched carried the workspace and connection epochs of the attachment.
-/
import Mathlib.Tactic
import OwlMux.Lib.Base64Url
import OwlMux.Relay.Protocol

namespace OwlMux.Writer

open OwlMux.Relay (Uuid Text byteLen jsonNumber)

/-- `MutationOutcome`, `ControlOutcome` and `CreateSessionOutcome`, which `to_control_outcome` identifies -/
inductive Outcome where
  | succeeded
  | failed
  | ambiguous
deriving DecidableEq, Repr

/-- how the target answers a command; of an ambiguous one it may or may not have been applied -/
inductive Answer where
  | succeeded
  | failed
  | ambiguous (applied : Bool)
deriving DecidableEq, Repr

/-- `mutating_command` -/
def Answer.outcome : Answer → Outcome
  | .succeeded => .succeeded
  | .failed => .failed
  | .ambiguous _ => .ambiguous

def Answer.applied : Answer → Bool
  | .succeeded => true
  | .failed => false
  | .ambiguous b => b

/-! ## Checks -/

structure ClientSize where
  columns : ℕ
  rows : ℕ
deriving DecidableEq, Repr

def attachmentMaxDimension : ℕ := 10000
def attachmentMaxGridCells : ℕ := 2000000
def attachmentMaxInputBytes : ℕ := 1024

/-- `valid_grid` -/
def validGrid (width height : ℕ) : Bool :=
  decide (0 < width ∧ width ≤ attachmentMaxDimension ∧ 0 < height ∧ height ≤ attachmentMaxDimension ∧
    width * height ≤ attachmentMaxGridCells)

/-- `valid_client_size` -/
def validClientSize (size : ClientSize) : Bool :=
  decide (0 < size.columns ∧ size.columns ≤ attachmentMaxDimension ∧ 0 < size.rows ∧ size.rows ≤ attachmentMaxDimension ∧
    size.columns * size.rows ≤ attachmentMaxGridCells)

/-- `matches_connection_epoch`; a text equal to `expected.to_string()` also parses to `expected` -/
def matchesConnectionEpoch (value : Text) (expected : ℤ) : Bool := decide (0 < expected ∧ value = jsonNumber expected)

/-- `char::is_whitespace` -/
def isWhitespace (c : Char) : Bool :=
  decide (9 ≤ c.toNat ∧ c.toNat ≤ 13 ∨ c.toNat = 0x20 ∨ c.toNat = 0x85 ∨ c.toNat = 0xA0 ∨ c.toNat = 0x1680 ∨
    0x2000 ≤ c.toNat ∧ c.toNat ≤ 0x200A ∨ c.toNat = 0x2028 ∨ c.toNat = 0x2029 ∨ c.toNat = 0x202F ∨ c.toNat = 0x205F ∨
    c.toNat = 0x3000)

/-- `char::is_control` -/
def isControl (c : Char) : Bool := decide (c.toNat < 0x20 ∨ 0x7F ≤ c.toNat ∧ c.toNat < 0xA0)

/-- `valid_session_name`; a text equals its `trim` when neither end is white space -/
def validSessionName (value : Text) : Bool :=
  !value.isEmpty && decide (byteLen value ≤ 64) && !value.head?.any isWhitespace && !value.getLast?.any isWhitespace &&
    !value.any isControl

/-- `decode_input` -/
def decodeInput (value : Text) : Option (List UInt8) :=
  if value = [] ∨ 1366 < byteLen value then none
  else (Base64Url.decode value).bind fun bytes =>
    if bytes = [] ∨ attachmentMaxInputBytes < bytes.length ∨ Base64Url.encode bytes ≠ value then none else some bytes

/-- `is_numeric_id` -/
def isNumericId (value : Text) (sigil : Char) : Bool :=
  match value with
  | c :: digits => c == sigil && !digits.isEmpty && decide (digits.length ≤ 30) && digits.all Char.isDigit
  | [] => false

def isWindowId (value : Text) : Bool := isNumericId value '@'
def isPaneId (value : Text) : Bool := isNumericId value '%'

/-! ## Requests and commands -/

/-- the target mutations an attachment can send -/
inductive Command where
  | sendKeys (pane : Text) (data : List UInt8)
  | selectWindow (window : Text)
  | selectPane (pane : Text)
  | resize (size : ClientSize)
  | newSession (name : Text)
deriving DecidableEq, Repr

/-- `WorkspaceState`: the projection the Browser was last given. Its `connection_epoch` is that of the scope's route,
which every `install_projection` is called with. -/
structure Workspace where
  epoch : Uuid
  windows : List Text
  visiblePanes : List Text
  activePane : Text
deriving DecidableEq, Repr

/-- the epochs a request carries -/
structure Stamp where
  connectionEpoch : Text
  epoch : Uuid
deriving DecidableEq, Repr

/-- `WorkspaceState::matches` -/
def Workspace.matches (w : Workspace) (connectionEpoch : ℤ) (stamp : Stamp) : Bool :=
  decide (stamp.epoch = w.epoch) && matchesConnectionEpoch stamp.connectionEpoch connectionEpoch

/-- workspace frames that need the writer -/
inductive Operation where
  | paneInput (pane dataBase64 : Text)
  | clientResize (size : ClientSize)
  | windowSelect (window : Text)
  | paneSelect (pane : Text)
  | workspaceRefresh
deriving DecidableEq, Repr

inductive Frame where
  | sessionSelect (stamp : Stamp) (session : Text) (created : ℤ)
  | sessionRefresh (stamp : Stamp)
  | sessionCreate (stamp : Stamp) (name : Text)
  | writer (takeover : Bool) (stamp : Stamp) (size : ClientSize)
  | operation (stamp : Stamp) (op : Operation)
  | workspaceReturnToChooser (stamp : Stamp)
  | workspaceDetach
deriving DecidableEq, Repr

inductive Verdict where
  | stale
  | invalid
  | protocol
  | dispatch
deriving DecidableEq, Repr

/-- the checks of `handle_workspace_frame` in front of the dispatch mutex -/
def Operation.verdict (w : Workspace) (connectionEpoch : ℤ) (stamp : Stamp) : Operation → Verdict
  | .paneInput pane data =>
    if !w.matches connectionEpoch stamp || decide (w.activePane ≠ pane) then .stale
    else if (decodeInput data).isNone then .protocol else .dispatch
  | .clientResize size =>
    if !w.matches connectionEpoch stamp then .stale else if !validClientSize size then .invalid else .dispatch
  | .windowSelect window => if !w.matches connectionEpoch stamp || !w.windows.contains window then .stale else .dispatch
  | .paneSelect pane => if !w.matches connectionEpoch stamp || !w.visiblePanes.contains pane then .stale else .dispatch
  | .workspaceRefresh => if !w.matches connectionEpoch stamp then .stale else .dispatch

/-- the command `send_literal`, `resize`, `select_window` and `select_pane` write, or `TmuxError::Protocol` -/
def Operation.render : Operation → Option Command
  | .paneInput pane data => (decodeInput data).bind fun bytes =>
    if !isPaneId pane || bytes.isEmpty || decide (attachmentMaxInputBytes < bytes.length) then none
    else some (.sendKeys pane bytes)
  | .clientResize size => if validGrid size.columns size.rows then some (.resize size) else none
  | .windowSelect window => if isWindowId window then some (.selectWindow window) else none
  | .paneSelect pane => if isPaneId pane then some (.selectPane pane) else none
  | .workspaceRefresh => none

/-- what is dispatched carried the epochs of the attachment's workspace -/
theorem verdict_dispatch_matches {w : Workspace} {connectionEpoch : ℤ} {stamp : Stamp} {op : Operation}
    (h : op.verdict w connectionEpoch stamp = .dispatch) :
    w.matches connectionEpoch stamp = true := by
  cases op with
  | paneInput | clientResize | windowSelect | paneSelect | workspaceRefresh =>
    by_contra hm
    simp [Operation.verdict, Bool.eq_false_iff.2 hm] at h

end OwlMux.Writer
