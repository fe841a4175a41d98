/-
What a hydration reads from the target and how it is parsed: windows, the active window, its panes with their terminal
state, and the bootstrap text that rebuilds a pane from captured rows.

The field orders, bounds and errors are those of the source; a row that no longer fits its window is `changed`, which a
hydration retries, and a malformed one is `protocol`, which ends the attachment. What an accepted row and list satisfy is
in `Result.lean`.
-/
import Mathlib.Tactic
import OwlMux.Tmux.Text

namespace OwlMux.Tmux

open OwlMux.Relay (Text byteLen)

/-- the errors of the SSH control child that reach the adapter -/
inductive SshError where
  | fenced
  | unavailable
  | proofFailed
  | custody
  | invalidState
deriving DecidableEq, Repr

inductive TmuxError where
  | ssh (e : SshError)
  | incompatible
  | tooManySessions
  | tooManyPanes
  | projectionTooLarge
  | protocol
  | target
  | changed
  | deadline
deriving DecidableEq, Repr

/-! ## Limits -/

def attachmentMaxDimension : ℕ := 10000
def attachmentMaxGridCells : ℕ := 2000000
def attachmentMaxPanes : ℕ := 32
def attachmentMaxPaneSnapshotBytes : ℕ := 262144
def attachmentMaxProjectionBytes : ℕ := 1048576
def attachmentMaxTerminalChunkBytes : ℕ := 16384
def attachmentMaxInputBytes : ℕ := 1024
def maxWindows : ℕ := 128
def maxTextBytes : ℕ := 256
def maxLayoutBytes : ℕ := 4096
def maxWindowNameBytes : ℕ := 128

/-! ## Data -/

structure WindowSummary where
  windowId : Text
  name : Text
  active : Bool
deriving DecidableEq, Repr

structure WindowProjection where
  windowId : Text
  name : Text
  width : ℕ
  height : ℕ
  layout : Text
deriving DecidableEq, Repr

structure PaneTerminalState where
  cursorX : ℕ
  cursorY : ℕ
  modes : UInt8
  scrollUpper : ℕ
  scrollLower : ℕ
deriving DecidableEq, Repr

def modeAlternate : UInt8 := 1
def modeCursorVisible : UInt8 := 2
def modeInsert : UInt8 := 4
def modeApplicationCursor : UInt8 := 8
def modeApplicationKeypad : UInt8 := 16
def modeOrigin : UInt8 := 32
def modeWrap : UInt8 := 64

def PaneTerminalState.hasMode (t : PaneTerminalState) (mode : UInt8) : Bool := t.modes &&& mode != 0

structure PaneProjection where
  paneId : Text
  active : Bool
  width : ℕ
  height : ℕ
  left : ℕ
  top : ℕ
  title : Text
  currentCommand : Text
  terminal : PaneTerminalState
deriving DecidableEq, Repr

structure PaneSnapshot where
  paneId : Text
  content : Bytes
deriving DecidableEq, Repr

structure WorkspaceProjection where
  windows : List WindowSummary
  window : WindowProjection
  panes : List PaneProjection
  snapshots : List PaneSnapshot
deriving DecidableEq, Repr

/-! ## Fields -/

abbrev Parsed := Except TmuxError

def orError {α : Type} (e : TmuxError) : Option α → Parsed α
  | some a => .ok a
  | none => .error e

/-- a check of the source that returns `e` when it fails -/
def require (ok : Bool) (e : TmuxError) : Parsed Unit := if ok then .ok () else .error e

theorem parsed_bind {α β : Type} {x : Parsed α} {f : α → Parsed β} {b : β} :
    x >>= f = .ok b ↔ ∃ a, x = .ok a ∧ f a = .ok b := by
  cases x with
  | error e => simp [bind, Except.bind]
  | ok a => simp [bind, Except.bind]

theorem require_ok {c : Bool} {e : TmuxError} {u : Unit} : require c e = .ok u ↔ c = true := by
  cases c <;> simp [require]

theorem orError_ok {α : Type} {e : TmuxError} {o : Option α} {a : α} : orError e o = .ok a ↔ o = some a := by
  cases o <;> simp [orError]

/-- `single_line` -/
def singleLine (lines : List Bytes) : Parsed Text :=
  match lines with
  | [line] => orError .protocol (fromUtf8 line)
  | _ => .error .protocol

/-- `safe_text` -/
def safeText (lines : List Bytes) (maxBytes : ℕ) : Parsed Text := do
  let value ← singleLine lines
  require (byteLen value ≤ maxBytes && !value.any isControl) .protocol
  return value

def parseFlag (t : Text) : Parsed Bool := if t = ['0'] then .ok false else if t = ['1'] then .ok true else .error .protocol

def parsePositiveI64 (t : Text) : Parsed ℤ := do
  let value ← orError .protocol (parseI64 t)
  require (0 < value) .protocol
  return value

def parseDimension (t : Text) : Parsed ℕ := do
  let value ← orError .protocol (parseUnsigned (2 ^ 32) t)
  require (value ≠ 0 && value ≤ attachmentMaxDimension) .protocol
  return value

def parseCoordinate (t : Text) : Parsed ℕ := do
  let value ← orError .protocol (parseUnsigned (2 ^ 32) t)
  require (value < attachmentMaxDimension) .protocol
  return value

def parseCoordinateWithBound (t : Text) (bound : ℕ) : Parsed ℕ := do
  let value ← parseCoordinate t
  require (value < bound) .protocol
  return value

def validGrid (width height : ℕ) : Bool :=
  0 < width && width ≤ attachmentMaxDimension && 0 < height && height ≤ attachmentMaxDimension &&
    width * height ≤ attachmentMaxGridCells

/-- `parse_modes`, from bit `index` on -/
def parseModesFrom (index : ℕ) (modes : UInt8) : List Text → Parsed UInt8
  | [] => .ok modes
  | v :: vs => do
    let flag ← parseFlag v
    parseModesFrom (index + 1) (if flag then modes ||| (1 <<< UInt8.ofNat index) else modes) vs

def parseModes (values : List Text) : Parsed UInt8 :=
  if values.length ≠ 7 then .error .protocol else parseModesFrom 0 0 values

/-! ## Rows -/

/-- one row of `list-windows` -/
def parseWindowRow (row : Bytes) : Parsed WindowSummary := do
  let row ← orError .protocol (fromUtf8 row)
  match splitn ':' 3 row with
  | [windowId, active, name] =>
    let active ← parseFlag active
    require (isWindowId windowId && byteLen name ≤ maxWindowNameBytes && !name.any isControl) .protocol
    return ⟨windowId, name, active⟩
  | _ => .error .protocol

/-- the loop over the rows of `list-windows`; an id seen before is refused -/
def parseWindowRows (seen : List WindowSummary) : List Bytes → Parsed (List WindowSummary)
  | [] => .ok seen
  | row :: rows => do
    let w ← parseWindowRow row
    require (!(seen.map WindowSummary.windowId).contains w.windowId) .protocol
    parseWindowRows (seen ++ [w]) rows

/-- the rows of `observe_windows` -/
def parseWindows (rows : List Bytes) : Parsed (List WindowSummary) := do
  require (!rows.isEmpty && rows.length ≤ maxWindows) .protocol
  let windows ← parseWindowRows [] rows
  require ((windows.filter WindowSummary.active).length = 1) .protocol
  return windows

/-- the identity line of `observe_window`, before the name is asked for -/
def parseWindow (sessionId : Text) (sessionCreated : ℤ) (response : List Bytes) : Parsed WindowProjection := do
  let line ← singleLine response
  match splitn ':' 6 line with
  | [session, created, windowId, width, height, layout] =>
    let created ← parsePositiveI64 created
    let width ← parseDimension width
    let height ← parseDimension height
    require (validGrid width height) .projectionTooLarge
    require (session = sessionId && created = sessionCreated && isWindowId windowId && !layout.isEmpty &&
      byteLen layout ≤ maxLayoutBytes && layout.all fun c => '!' ≤ c && c ≤ '~') .changed
    return ⟨windowId, [], width, height, layout⟩
  -- a missing field is refused when it is asked for, so the fields before it are checked first
  | [_] => .error .protocol
  | _ :: created :: rest => do
    let _ ← parsePositiveI64 created
    match rest with
    | _ :: width :: rest => do
      let _ ← parseDimension width
      match rest with
      | height :: _ => do
        let _ ← parseDimension height
        .error .protocol
      | [] => .error .protocol
    | _ => .error .protocol
  | [] => .error .protocol

/-- `parse_pane_row` -/
def parsePaneRow (row : Bytes) (window : WindowProjection) : Parsed PaneProjection := do
  let row ← orError .protocol (fromUtf8 row)
  match splitChar ':' row with
  | [paneId, windowId, active, width, height, left, top, cursorX, cursorY, m0, m1, m2, m3, m4, m5, m6, upper, lower] =>
    require (isPaneId paneId) .protocol
    require (windowId = window.windowId) .changed
    let active ← parseFlag active
    let width ← parseDimension width
    let height ← parseDimension height
    let left ← parseCoordinate left
    let top ← parseCoordinate top
    require (left < window.width && top < window.height && left + width ≤ window.width && top + height ≤ window.height)
      .changed
    let cursorX ← parseCoordinateWithBound cursorX width
    let cursorY ← parseCoordinateWithBound cursorY height
    let modes ← parseModes [m0, m1, m2, m3, m4, m5, m6]
    let upper ← parseCoordinateWithBound upper height
    let lower ← parseCoordinateWithBound lower height
    let terminal : PaneTerminalState := ⟨cursorX, cursorY, modes, upper, lower⟩
    require (upper ≤ lower && !(decide (cursorY < upper) && terminal.hasMode modeOrigin)) .protocol
    return ⟨paneId, active, width, height, left, top, [], [], terminal⟩
  | _ => .error .protocol

/-- the loop over the rows of `list-panes` -/
def parsePaneList (window : WindowProjection) (seen : List PaneProjection) : List Bytes → Parsed (List PaneProjection)
  | [] => .ok seen
  | row :: rows => do
    let pane ← parsePaneRow row window
    require (!(seen.map PaneProjection.paneId).contains pane.paneId) .protocol
    parsePaneList window (seen ++ [pane]) rows

/-- `parse_pane_rows` -/
def parsePaneRows (rows : List Bytes) (window : WindowProjection) : Parsed (List PaneProjection) := do
  require (!rows.isEmpty && rows.length ≤ attachmentMaxPanes) .tooManyPanes
  let panes ← parsePaneList window [] rows
  require ((panes.filter PaneProjection.active).length = 1) .protocol
  require ((panes.map fun p => p.width * p.height).sum ≤ attachmentMaxGridCells) .projectionTooLarge
  return panes

/-- `same_pane_structure` -/
def samePaneStructure (l r : PaneProjection) : Bool :=
  l.paneId = r.paneId && l.active = r.active && l.width = r.width && l.height = r.height && l.left = r.left && l.top = r.top

/-- the window `windows` marks as active is `window` -/
def activeWindowIs (windows : List WindowSummary) (window : WindowProjection) : Bool :=
  match windows.find? WindowSummary.active with
  | some w => w.windowId = window.windowId
  | none => false

/-! ## The bootstrap text of a pane -/

def escape : UInt8 := 27

/-- a decimal number in a control sequence -/
def decimal (n : ℕ) : Bytes := (Nat.toDigits 10 n).map fun c => UInt8.ofNat c.toNat

/-- a control sequence: the introducer and the rest -/
def csi (s : String) : Bytes := escape :: ascii ("[" ++ s)

/-- `append_mode` -/
def appendMode (enabled : Bool) (set reset : Bytes) : Bytes := if enabled then set else reset

/-- the loop of `capture_lines` over the rows -/
def captureRows (content : Bytes) (first : Bool) : List Bytes → Parsed Bytes
  | [] => .ok content
  | line :: lines => do
    let content := (if first then content else content ++ [13, 10]) ++ line
    require (content.length ≤ attachmentMaxPaneSnapshotBytes) .projectionTooLarge
    captureRows content false lines

/-- what stands before the rows -/
def capturePrologue (t : PaneTerminalState) : Bytes :=
  [escape, 99] ++ (if t.hasMode modeAlternate then csi "?1049h" else []) ++ csi "?25l" ++ csi "?6l" ++ csi "H" ++ csi "2J"

/-- the row the cursor is sent to, counted from the top of the region in origin mode -/
def cursorRow (t : PaneTerminalState) : ℕ :=
  if t.hasMode modeOrigin then t.cursorY - t.scrollUpper + 1 else t.cursorY + 1

/-- what stands after the rows: region, origin mode, cursor and the other modes, in this order -/
def captureEpilogue (t : PaneTerminalState) : Bytes :=
  [escape, 91] ++ decimal (t.scrollUpper + 1) ++ [59] ++ decimal (t.scrollLower + 1) ++ [114] ++
    (if t.hasMode modeOrigin then csi "?6h" else csi "?6l") ++
    [escape, 91] ++ decimal (cursorRow t) ++ [59] ++ decimal (t.cursorX + 1) ++ [72] ++
    appendMode (t.hasMode modeInsert) (csi "4h") (csi "4l") ++
    appendMode (t.hasMode modeWrap) (csi "?7h") (csi "?7l") ++
    appendMode (t.hasMode modeApplicationCursor) (csi "?1h") (csi "?1l") ++
    appendMode (t.hasMode modeApplicationKeypad) [escape, 61] [escape, 62] ++
    appendMode (t.hasMode modeCursorVisible) (csi "?25h") (csi "?25l")

/-- `capture_lines` -/
def captureLines (lines : List Bytes) (pane : PaneProjection) : Parsed Bytes := do
  let content ← captureRows (capturePrologue pane.terminal) true lines
  let content := content ++ captureEpilogue pane.terminal
  require (content.length ≤ attachmentMaxPaneSnapshotBytes) .projectionTooLarge
  return content

end OwlMux.Tmux
