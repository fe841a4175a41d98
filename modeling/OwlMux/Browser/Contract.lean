/-
The Browser's side of the attachment contract: `parseAttachmentFrame` of `apps/web/src/attachment.ts`, on the JSON value of
a received text. A check that throws is `none`.

Identifiers, versions and epochs stay texts, as in the source. `Number.isSafeInteger` is exact on the integers a Server
writes: an integer above 2^53 - 1 is read as a double of at least 2^53, which is not safe.
-/
import Mathlib.Tactic
import OwlMux.Browser.Frames
import OwlMux.Lib.Base64Url

namespace OwlMux.Browser

open OwlMux.Relay (Text Uuid byteLen)
open OwlMux.Tmux (attachmentMaxDimension attachmentMaxGridCells attachmentMaxPanes attachmentMaxPaneSnapshotBytes
  attachmentMaxTerminalChunkBytes)

/-! ## Values -/

abbrev Record := List (String × Json)

/-- `input.key`; `none` is undefined -/
def Record.get (r : Record) (key : String) : Option Json := r.lookup key

/-- `hasKeys`: the same keys in some order -/
def hasKeys (r : Record) (keys : List String) : Bool := (r.map Prod.fst).isPerm keys

def isRecord : Json → Option Record
  | .object fields => some fields
  | _ => none

def isHex (c : Char) : Bool := c.isDigit || ('a' ≤ c && c ≤ 'f') || ('A' ≤ c && c ≤ 'F')

/-- the regular expression of `isUuid` -/
def matchesUuid (t : Text) : Bool :=
  t.length = 36 && (t.take 8).all isHex && t[8]? = some '-' && ((t.drop 9).take 4).all isHex && t[13]? = some '-' &&
    (t[14]?).any (fun c => '1' ≤ c && c ≤ '8') && ((t.drop 15).take 3).all isHex && t[18]? = some '-' &&
    (t[19]?).any (fun c => c ∈ ['8', '9', 'a', 'b', 'A', 'B']) && ((t.drop 20).take 3).all isHex && t[23]? = some '-' &&
    (t.drop 24).all isHex

def isUuid : Option Json → Option Text
  | some (.string t) => if matchesUuid t then some t else none
  | _ => none

/-- `/^[1-9][0-9]{0,18}$/` -/
def matchesConnectionEpoch (t : Text) : Bool :=
  match t with
  | c :: digits => '1' ≤ c && c ≤ '9' && digits.length ≤ 18 && digits.all Char.isDigit
  | [] => false

def isConnectionEpoch : Option Json → Option Text
  | some (.string t) => if matchesConnectionEpoch t then some t else none
  | _ => none

/-- the mark, one or more digits, at most 32 characters -/
def matchesNumericId (mark : Char) (t : Text) : Bool :=
  match t with
  | c :: digits => c == mark && !digits.isEmpty && digits.all Char.isDigit && t.length ≤ 32
  | [] => false

def isNumericId (mark : Char) : Option Json → Option Text
  | some (.string t) => if matchesNumericId mark t then some t else none
  | _ => none

def maxSafeInteger : ℤ := 2 ^ 53 - 1

def isBoundedInteger (minimum maximum : ℤ) : Option Json → Option ℤ
  | some (.number n) => if n ≤ maxSafeInteger ∧ -maxSafeInteger ≤ n ∧ minimum ≤ n ∧ n ≤ maximum then some n else none
  | _ => none

def isSafeCharacter (c : Char) : Bool := 32 ≤ c.toNat && c.toNat ≠ 127

def isSafeText (maximum : ℕ) (allowEmpty : Bool) : Option Json → Option Text
  | some (.string t) => if (allowEmpty || 0 < t.length) && byteLen t ≤ maximum && t.all isSafeCharacter then some t else none
  | _ => none

def isBoolean : Option Json → Option Bool
  | some (.bool b) => some b
  | _ => none

/-- `decodeBase64Url` with `allowEmpty`; `atob` ignores unused low bits, which the comparison then refuses -/
def decodeBase64Url (maximum : ℕ) : Option Json → Option (List UInt8)
  | some (.string t) => do
    guard (t.length ≤ (maximum * 4 + 2) / 3)
    let bytes ← Base64Url.decode t
    guard (bytes.length ≤ maximum && Base64Url.encode bytes = t)
    return bytes
  | _ => none

/-! ## Frames -/

structure AttachmentSessionSummary where
  sessionId : Text
  sessionCreated : ℤ
  name : Text
  attachedClientCount : ℤ
  windowCount : ℤ
deriving DecidableEq, Repr

structure AttachmentWindowSummary where
  windowId : Text
  name : Text
  active : Bool
deriving DecidableEq, Repr

structure AttachmentWindow where
  windowId : Text
  name : Text
  width : ℤ
  height : ℤ
  layout : Text
deriving DecidableEq, Repr

structure AttachmentPane where
  paneId : Text
  active : Bool
  width : ℤ
  height : ℤ
  left : ℤ
  top : ℤ
  title : Text
  currentCommand : Text
deriving DecidableEq, Repr

inductive AttachmentFrame where
  | phase (phase : Phase)
  | sessionList (machineConnectionEpoch selectionEpoch tmuxClientVersion : Text) (tmuxServerVersion : Option Text)
      (sessions : List AttachmentSessionSummary)
  | writerState (machineConnectionEpoch attachmentEpoch : Text) (role : WriterRole) (writerAvailable : Bool)
  | operationResult (requestId : Text) (operation : Operation) (outcome : PublicOutcome) (code message : Text)
  | projection (machineConnectionEpoch workspaceEpoch sessionId : Text) (sessionCreated : ℤ)
      (windows : List AttachmentWindowSummary) (window : AttachmentWindow) (panes : List AttachmentPane)
  | paneSnapshot (workspaceEpoch paneId : Text) (chunkIndex : ℤ) (final : Bool) (data : List UInt8)
  | output (workspaceEpoch paneId : Text) (data : List UInt8)
  | error (code message : Text)
deriving DecidableEq, Repr

/-- one of the listed strings; an array that `String` would turn into one, which no Server sends, is left out -/
def oneOf {α : Type} (json : α → Json) (values : List α) : Option Json → Option α
  | some (.string t) => values.find? fun a => match json a with | .string u => u = t | _ => false
  | _ => none

def phases : List Phase := [.connecting, .selecting, .ready, .failed]
def roles : List WriterRole := [.observer, .writer]
def outcomes : List PublicOutcome := [.succeeded, .failed, .ambiguous]

def operations : List Operation :=
  [.writerClaim, .writerTakeover, .sessionRefresh, .sessionCreate, .windowSelect, .paneSelect, .paneInput, .clientResize,
    .workspaceRefresh]

def errorCodes : List Text :=
  ["unauthenticated", "invalid_origin", "machine_unavailable", "temporarily_unavailable", "owner_unreachable",
    "stale_selection", "stale_epoch", "writer_required", "writer_busy", "operation_ambiguous", "overloaded", "tmux_missing",
    "tmux_incompatible", "target_unavailable", "protocol_error"].map String.toList

def parseSession (value : Json) : Option AttachmentSessionSummary := do
  let r ← isRecord value
  guard (hasKeys r ["attached_client_count", "name", "session_created", "session_id", "window_count"])
  let sessionId ← isNumericId '$' (r.get "session_id")
  let created ← isBoundedInteger 1 maxSafeInteger (r.get "session_created")
  let name ← isSafeText 128 true (r.get "name")
  let attached ← isBoundedInteger 0 10000 (r.get "attached_client_count")
  let windows ← isBoundedInteger 1 10000 (r.get "window_count")
  return ⟨sessionId, created, name, attached, windows⟩

/-- `input.tmux_server_version`: null or a safe text -/
def parseServerVersion : Option Json → Option (Option Text)
  | some .null => some none
  | v => (isSafeText 32 true v).map some

def isArray : Option Json → Option (List Json)
  | some (.array items) => some items
  | _ => none

/-- identities of a list are pairwise different -/
def distinct {α : Type} [DecidableEq α] (l : List α) : Bool := decide l.Nodup

def parseSessionList (r : Record) : Option AttachmentFrame := do
  guard (hasKeys r ["machine_connection_epoch", "selection_epoch", "sessions", "tmux_client_version", "tmux_server_version",
    "type"])
  let epoch ← isConnectionEpoch (r.get "machine_connection_epoch")
  let selection ← isUuid (r.get "selection_epoch")
  let client ← isSafeText 32 true (r.get "tmux_client_version")
  let server ← parseServerVersion (r.get "tmux_server_version")
  let items ← isArray (r.get "sessions")
  guard (items.length ≤ 128)
  let sessions ← items.mapM parseSession
  guard (distinct (sessions.map fun s => (s.sessionId, s.sessionCreated)))
  guard (sessions.isEmpty || server.isSome)
  return .sessionList epoch selection client server sessions

def parseWindowSummary (value : Json) : Option AttachmentWindowSummary := do
  let r ← isRecord value
  guard (hasKeys r ["active", "name", "window_id"])
  let windowId ← isNumericId '@' (r.get "window_id")
  let name ← isSafeText 128 true (r.get "name")
  let active ← isBoolean (r.get "active")
  return ⟨windowId, name, active⟩

def parseWindow (value : Json) : Option AttachmentWindow := do
  let r ← isRecord value
  guard (hasKeys r ["height", "layout", "name", "width", "window_id"])
  let windowId ← isNumericId '@' (r.get "window_id")
  let name ← isSafeText 128 true (r.get "name")
  let width ← isBoundedInteger 1 attachmentMaxDimension (r.get "width")
  let height ← isBoundedInteger 1 attachmentMaxDimension (r.get "height")
  guard (width * height ≤ attachmentMaxGridCells)
  let layout ← isSafeText 4096 false (r.get "layout")
  return ⟨windowId, name, width, height, layout⟩

def parsePane (window : AttachmentWindow) (value : Json) : Option AttachmentPane := do
  let r ← isRecord value
  guard (hasKeys r ["active", "current_command", "height", "left", "pane_id", "title", "top", "width"])
  let paneId ← isNumericId '%' (r.get "pane_id")
  let active ← isBoolean (r.get "active")
  let width ← isBoundedInteger 1 attachmentMaxDimension (r.get "width")
  let height ← isBoundedInteger 1 attachmentMaxDimension (r.get "height")
  let left ← isBoundedInteger 0 (attachmentMaxDimension - 1) (r.get "left")
  let top ← isBoundedInteger 0 (attachmentMaxDimension - 1) (r.get "top")
  guard (left + width ≤ window.width && top + height ≤ window.height)
  let title ← isSafeText 256 true (r.get "title")
  let current ← isSafeText 256 true (r.get "current_command")
  return ⟨paneId, active, width, height, left, top, title, current⟩

def parseProjection (r : Record) : Option AttachmentFrame := do
  guard (hasKeys r ["machine_connection_epoch", "panes", "session_created", "session_id", "type", "window", "windows",
    "workspace_epoch"])
  let epoch ← isConnectionEpoch (r.get "machine_connection_epoch")
  let workspace ← isUuid (r.get "workspace_epoch")
  let sessionId ← isNumericId '$' (r.get "session_id")
  let created ← isBoundedInteger 1 maxSafeInteger (r.get "session_created")
  let windowItems ← isArray (r.get "windows")
  guard (!windowItems.isEmpty && windowItems.length ≤ 128)
  let window ← (r.get "window").bind parseWindow
  let paneItems ← isArray (r.get "panes")
  guard (!paneItems.isEmpty && paneItems.length ≤ attachmentMaxPanes)
  let windows ← windowItems.mapM parseWindowSummary
  guard (distinct (windows.map AttachmentWindowSummary.windowId))
  guard ((windows.filter AttachmentWindowSummary.active).length = 1 &&
    windows.any fun w => w.active && w.windowId = window.windowId)
  let panes ← paneItems.mapM (parsePane window)
  guard (distinct (panes.map AttachmentPane.paneId))
  guard ((panes.filter AttachmentPane.active).length = 1 &&
    (panes.map fun p => p.width * p.height).sum ≤ attachmentMaxGridCells)
  return .projection epoch workspace sessionId created windows window panes

/-- the fields behind a `workspace.phase` tag -/
def parsePhase (r : Record) : Option AttachmentFrame := do
  guard (hasKeys r ["phase", "type"])
  let p ← oneOf Phase.json phases (r.get "phase")
  return .phase p

def parseWriterState (r : Record) : Option AttachmentFrame := do
  guard (hasKeys r ["attachment_epoch", "machine_connection_epoch", "role", "type", "writer_available"])
  let epoch ← isConnectionEpoch (r.get "machine_connection_epoch")
  let attachment ← isUuid (r.get "attachment_epoch")
  let role ← oneOf WriterRole.json roles (r.get "role")
  let available ← isBoolean (r.get "writer_available")
  return .writerState epoch attachment role available

def parseOperationResult (r : Record) : Option AttachmentFrame := do
  guard (hasKeys r ["code", "message", "operation", "outcome", "request_id", "type"])
  let request ← isUuid (r.get "request_id")
  let operation ← oneOf Operation.json operations (r.get "operation")
  let outcome ← oneOf PublicOutcome.json outcomes (r.get "outcome")
  let code ← isSafeText 64 false (r.get "code")
  let message ← isSafeText 256 true (r.get "message")
  return .operationResult request operation outcome code message

def parsePaneSnapshot (r : Record) : Option AttachmentFrame := do
  guard (hasKeys r ["chunk_index", "data_base64", "final", "pane_id", "type", "workspace_epoch"])
  let epoch ← isUuid (r.get "workspace_epoch")
  let pane ← isNumericId '%' (r.get "pane_id")
  let index ← isBoundedInteger 0 (attachmentMaxPaneSnapshotBytes / attachmentMaxTerminalChunkBytes - 1) (r.get "chunk_index")
  let final ← isBoolean (r.get "final")
  let data ← decodeBase64Url attachmentMaxTerminalChunkBytes (r.get "data_base64")
  return .paneSnapshot epoch pane index final data

def parseOutput (r : Record) : Option AttachmentFrame := do
  guard (hasKeys r ["data_base64", "pane_id", "type", "workspace_epoch"])
  let epoch ← isUuid (r.get "workspace_epoch")
  let pane ← isNumericId '%' (r.get "pane_id")
  let data ← decodeBase64Url attachmentMaxTerminalChunkBytes (r.get "data_base64")
  return .output epoch pane data

def parseError (r : Record) : Option AttachmentFrame := do
  guard (hasKeys r ["code", "message", "type"])
  let code ← oneOf Json.string errorCodes (r.get "code")
  let message ← isSafeText 256 true (r.get "message")
  return .error code message

/-- the cases of `parseAttachmentFrame`, by the tag -/
def parseTagged (tag : Text) (r : Record) : Option AttachmentFrame :=
  if tag = "workspace.phase".toList then parsePhase r
  else if tag = "session.list".toList then parseSessionList r
  else if tag = "writer.state".toList then parseWriterState r
  else if tag = "operation.result".toList then parseOperationResult r
  else if tag = "workspace.projection".toList then parseProjection r
  else if tag = "workspace.pane_snapshot".toList then parsePaneSnapshot r
  else if tag = "workspace.output".toList then parseOutput r
  else if tag = "workspace.error".toList then parseError r
  else none

/-- `parseAttachmentFrame` -/
def parseAttachmentFrame (input : Json) : Option AttachmentFrame := do
  let r ← isRecord input
  match r.get "type" with
  | some (.string tag) => parseTagged tag r
  | _ => none

end OwlMux.Browser
