/-
The control adapter of one tmux control client (`ControlAdapter`) and the target it talks to.

The target answers every command line with one guarded block a command, in order, stops after a command that fails, and
writes notifications only between blocks; what it writes, and where a read fails or a deadline passes, is a script of
moves, so a theorem over all scripts is one over all interleavings. A move that the target cannot make now (a
notification inside a block, an answer to nothing) is skipped. The adapter reads lines one at a time, keeps the events
of notifications in a bounded queue, and returns the rows of a block to the operation that asked for them.

The log and the three marks (`unread`, `stray`, `crossed`) are ghosts: no operation reads them.
-/
import Mathlib.Tactic
import OwlMux.Tmux.Projection

namespace OwlMux.Tmux

open OwlMux.Relay (Text byteLen)

/-! ## Lines and markers -/

structure Marker where
  time : ℕ
  number : ℕ
  flags : ℕ
deriving DecidableEq, Repr

def beginMark : Bytes := ascii "%begin "
def endMark : Bytes := ascii "%end "
def errorMark : Bytes := ascii "%error "

/-- `parse_marker` -/
def parseMarker (line head : Bytes) : Parsed (Option Marker) :=
  match stripHead head line with
  | none => .ok none
  | some value => do
    let value ← orError .protocol (fromUtf8 (stripNewline value))
    match splitWhitespace value with
    | [a, b, c] =>
      let a ← orError .protocol (parseUnsigned (2 ^ 64) a)
      let b ← orError .protocol (parseUnsigned (2 ^ 64) b)
      let c ← orError .protocol (parseUnsigned (2 ^ 64) c)
      return some ⟨a, b, c⟩
    | _ => .error .protocol

/-- the line is a well-formed closing record for the marker -/
def Closes (m : Marker) (line : Bytes) : Prop :=
  parseMarker line endMark = .ok (some m) ∨ parseMarker line errorMark = .ok (some m)

instance (m : Marker) (line : Bytes) : Decidable (Closes m line) :=
  inferInstanceAs (Decidable (_ ∨ _))

/-- a record between two blocks: it does not open one -/
structure Note where
  line : Bytes
  plain : stripHead beginMark line = none

/-- a guarded block: its opening record, rows none of which closes it, and its closing record -/
structure Answer where
  marker : Marker
  opening : Bytes
  rows : List Bytes
  ok : Bool
  closing : Bytes
  opens : parseMarker opening beginMark = .ok (some marker)
  rowsOpen : ∀ l ∈ rows, ¬ Closes marker l
  closes : parseMarker closing (if ok then endMark else errorMark) = .ok (some marker)

/-! ## Commands -/

inductive Command where
  | attach
  | observerFlags
  | subscribe
  | listWindows (session : Text)
  | displayWindow (session : Text)
  | displayWindowName (window : Text)
  | listPanes (window : Text)
  | displayTitle (pane : Text)
  | displayCommand (pane : Text)
  | pause (pane : Text)
  | resume (pane : Text)
  | capture (pane : Text)
  | displayPane (pane : Text)
  | switchClient
  | sizeFlags (ignoreSize : Bool)
  | resize (columns rows : ℕ)
  | sendKeys (pane : Text) (data : Bytes)
  | selectWindow (window : Text)
  | selectPane (pane : Text)
deriving DecidableEq, Repr

/-- the fields of `PANE_FORMAT` -/
def paneFields : List String :=
  ["pane_id", "window_id", "pane_active", "pane_width", "pane_height", "pane_left", "pane_top", "cursor_x", "cursor_y",
    "alternate_on", "cursor_flag", "insert_flag", "keypad_cursor_flag", "keypad_flag", "origin_flag", "wrap_flag",
    "scroll_region_upper", "scroll_region_lower"]

/-- `PANE_FORMAT` -/
def paneFormat : Text :=
  (paneFields.map fun f => "#\x7b".toList ++ f.toList ++ "\x7d".toList).intersperse [':'] |>.flatten

def hexByte (b : UInt8) : Text := [Nat.digitChar (b.toNat / 16), Nat.digitChar (b.toNat % 16)]

/-- the text of a command -/
def Command.render : Command → Text
  | .attach => []
  | .observerFlags => "refresh-client -f 'read-only,ignore-size,pause-after=1'".toList
  | .subscribe =>
    "refresh-client -B 'owlmux-pane-v1:%*:#\x7bpane_title\x7d|#\x7bpane_current_command\x7d|#\x7bpane_active\x7d|#\x7bpane_width\x7d|#\x7bpane_height\x7d|#\x7bpane_left\x7d|#\x7bpane_top\x7d'".toList
  | .listWindows s =>
    "list-windows -t ".toList ++ s ++ " -F '#\x7bwindow_id\x7d:#\x7bwindow_active\x7d:#\x7bwindow_name\x7d'".toList
  | .displayWindow s =>
    "display-message -p -t ".toList ++ s ++
      " '#\x7bsession_id\x7d:#\x7bsession_created\x7d:#\x7bwindow_id\x7d:#\x7bwindow_width\x7d:#\x7bwindow_height\x7d:#\x7bwindow_layout\x7d'".toList
  | .displayWindowName w => "display-message -p -t ".toList ++ w ++ " '#\x7bwindow_name\x7d'".toList
  | .listPanes w => "list-panes -t ".toList ++ w ++ " -F '".toList ++ paneFormat ++ "'".toList
  | .displayTitle p => "display-message -p -t ".toList ++ p ++ " '#\x7bpane_title\x7d'".toList
  | .displayCommand p => "display-message -p -t ".toList ++ p ++ " '#\x7bpane_current_command\x7d'".toList
  | .pause p => "refresh-client -A '".toList ++ p ++ ":pause'".toList
  | .resume p => "refresh-client -A '".toList ++ p ++ ":continue'".toList
  | .capture p => "capture-pane -p -e -N -t ".toList ++ p
  | .displayPane p => "display-message -p -t ".toList ++ p ++ " '".toList ++ paneFormat ++ "'".toList
  | .switchClient => "switch-client -r".toList
  | .sizeFlags ignore =>
    if ignore then "refresh-client -f 'ignore-size,pause-after=1'".toList
    else "refresh-client -f '!ignore-size,pause-after=1'".toList
  | .resize c r => "refresh-client -C ".toList ++ Nat.toDigits 10 c ++ ['x'] ++ Nat.toDigits 10 r
  | .sendKeys p data => "send-keys -t ".toList ++ p ++ " -H".toList ++ data.flatMap fun b => ' ' :: hexByte b
  | .selectWindow w => "select-window -t ".toList ++ w
  | .selectPane p => "select-pane -t ".toList ++ p

/-- the text of a command line -/
def renderLine (cs : List Command) : Text := (cs.map Command.render).intersperse " ; ".toList |>.flatten

/-! ## State -/

inductive ControlEvent where
  | output (paneId : Text) (data : Bytes)
  | refresh
  | exit
deriving DecidableEq, Repr

/-- what the target, or the transport, does next -/
inductive Move where
  | note (n : Note)
  | answer (a : Answer)
  /-- the next line of the block being written -/
  | rest
  /-- the deadline of a response passes -/
  | late
  /-- the transport or the lease fails -/
  | broken (e : SshError)

/-- a line on its way; the closing record of a block knows whose it is -/
structure WireLine where
  line : Bytes
  closes : Option (Command × List Bytes × Bool)

/-- what the adapter has read -/
inductive Entry where
  | note (line : Bytes)
  | closed (c : Command) (rows : List Bytes) (ok : Bool)
  /-- a hydration attempt begins -/
  | attempt
deriving DecidableEq, Repr

structure St where
  events : List ControlEvent
  queuedOutputBytes : ℕ
  /-- the rest of the block being written -/
  wire : List WireLine
  /-- the commands of the lines received and not answered -/
  pending : List (List Command)
  script : List Move
  log : List Entry
  /-- a command was sent while a block of an earlier one was unread -/
  unread : Bool
  /-- a `%begin` record reached `ingest_notification` -/
  stray : Bool
  /-- a response was returned that is not the answer to the caller's command -/
  crossed : Bool

/-- after `start_tmux_control`: the attach block is due -/
def St.init (script : List Move) : St :=
  { events := [], queuedOutputBytes := 0, wire := [], pending := [[.attach]], script := script, log := [], unread := false,
    stray := false, crossed := false }

/-! ## Operations -/

/-- what an operation returns; `waiting` is a read for which the script has nothing -/
inductive Res (α : Type) where
  | ok (a : α)
  | error (e : TmuxError)
  | waiting
deriving DecidableEq, Repr

def Io (α : Type) : Type := St → Res α × St

namespace Io

def pure {α : Type} (a : α) : Io α := fun s => (.ok a, s)

def bind {α β : Type} (x : Io α) (f : α → Io β) : Io β := fun s =>
  match x s with
  | (.ok a, s) => f a s
  | (.error e, s) => (.error e, s)
  | (.waiting, s) => (.waiting, s)

instance : Monad Io where
  pure := Io.pure
  bind := Io.bind

def fail {α : Type} (e : TmuxError) : Io α := fun s => (.error e, s)

def lift {α : Type} : Parsed α → Io α
  | .ok a => Io.pure a
  | .error e => Io.fail e

def modify (f : St → St) : Io Unit := fun s => (.ok (), f s)

end Io

/-! ## Reading -/

def maxControlLineBytes : ℕ := 262144

/-- a line reaches the adapter, if it is not too long -/
def deliver (line : Bytes) (entry : List Entry) (s : St) : Res Bytes × St :=
  if maxControlLineBytes < line.length then (.error (.ssh .proofFailed), s)
  else (.ok line, { s with log := s.log ++ entry })

/-- `next_line` -/
def nextLineFrom (deadline : Bool) : List Move → St → Res Bytes × St
  | [], s => (.waiting, { s with script := [] })
  | .late :: ms, s => if deadline then (.error .deadline, { s with script := ms }) else nextLineFrom deadline ms s
  | .broken e :: ms, s => (.error (.ssh e), { s with script := ms })
  | .rest :: ms, s =>
    match s.wire with
    | [] => nextLineFrom deadline ms s
    | l :: w =>
      deliver l.line (l.closes.toList.map fun c => .closed c.1 c.2.1 c.2.2) { s with wire := w, script := ms }
  | .note n :: ms, s =>
    if s.wire.isEmpty then deliver n.line [.note n.line] { s with script := ms } else nextLineFrom deadline ms s
  | .answer a :: ms, s =>
    match s.wire, s.pending with
    | [], (c :: cs) :: lines =>
      deliver a.opening [] { s with
        script := ms
        wire := a.rows.map (fun r => ⟨r, none⟩) ++ [⟨a.closing, some (c, a.rows.map stripNewline, a.ok)⟩]
        -- the commands after one that fails are not run
        pending := if a.ok && !cs.isEmpty then cs :: lines else lines }
    | _, _ => nextLineFrom deadline ms s

def nextLine (deadline : Bool) : Io Bytes := fun s => nextLineFrom deadline s.script s

def maxCommandBytes : ℕ := 4096

/-- `send_command` -/
def sendCommand (cs : List Command) : Io Unit := fun s =>
  let s := { s with unread := s.unread || !s.wire.isEmpty || !s.pending.isEmpty }
  match s.script with
  | .broken e :: ms => (.error (.ssh e), { s with script := ms })
  | _ =>
    if maxCommandBytes < byteLen (renderLine cs) || (renderLine cs).any fun c => c = '\r' || c = '\n' || c = Char.ofNat 0
    then (.error (.ssh .invalidState), s)
    else (.ok (), { s with pending := s.pending ++ [cs] })

/-! ## Notifications -/

def maxQueuedEvents : ℕ := 256
def maxQueuedOutputBytes : ℕ := 524288

/-- `chunks(n)`, for a positive n -/
def chunks (n : ℕ) (data : Bytes) : List Bytes :=
  if data = [] ∨ n = 0 then []
  else data.take n :: chunks n (data.drop n)
termination_by data.length
decreasing_by
  rename_i h
  have : data.length ≠ 0 := fun e => h (Or.inl (List.eq_nil_of_length_eq_zero e))
  simp only [List.length_drop]
  omega

/-- `queue_event` -/
def queueEvent (e : ControlEvent) : Io Unit := fun s =>
  if maxQueuedEvents ≤ s.events.length then (.error .protocol, s) else (.ok (), { s with events := s.events ++ [e] })

/-- the bytes of a chunk are counted before it is queued -/
def chargeOutput (n : ℕ) : Io Unit := fun s =>
  let s := { s with queuedOutputBytes := s.queuedOutputBytes + n }
  if maxQueuedOutputBytes < s.queuedOutputBytes then (.error .protocol, s) else (.ok (), s)

/-- the loop of `queue_output` -/
def queueChunks (paneId : Text) : List Bytes → Io Unit
  | [] => Io.pure ()
  | chunk :: rest => do
    chargeOutput chunk.length
    queueEvent (.output paneId chunk)
    queueChunks paneId rest

/-- `decode_escaped` as its caller sees it; overflow wraps in the release profile -/
def decoded (encoded : Bytes) : Parsed Bytes :=
  match (decodeEscaped false encoded).outcome with
  | .ok d => .ok d
  | _ => .error .protocol

def isAsciiDigit (b : UInt8) : Bool := 48 ≤ b && b ≤ 57

/-- `position(|byte| byte == b' ')` with what stands on both sides -/
def splitOnceSpace (value : Bytes) : Option (Bytes × Bytes) :=
  match value.span (· ≠ 32) with
  | (l, _ :: r) => some (l, r)
  | (_, []) => none

/-- the first ` : ` with what stands on both sides -/
def splitOnceColon : Bytes → Option (Bytes × Bytes)
  | [] => none
  | b :: v =>
    match stripHead [32, 58, 32] (b :: v) with
    | some r => some ([], r)
    | none => (splitOnceColon v).map fun p => (b :: p.1, p.2)

def refreshNotifications : List Bytes :=
  ["%layout-change ", "%pane-mode-changed ", "%session-changed ", "%session-renamed ", "%session-window-changed ",
    "%subscription-changed ", "%window-add ", "%window-close ", "%window-pane-changed ", "%window-renamed "].map ascii

def ignorableNotifications : List Bytes :=
  ["%client-active ", "%client-detached ", "%client-session-changed ", "%client-window-changed ", "%message ",
    "%paste-buffer-changed ", "%paste-buffer-deleted ", "%unlinked-window-add ", "%unlinked-window-close ",
    "%unlinked-window-renamed "].map ascii

def startsWith (line head : Bytes) : Bool := (stripHead head line).isSome

/-- `is_refresh_notification` -/
def isRefreshNotification (line : Bytes) : Bool :=
  line = ascii "%sessions-changed" || refreshNotifications.any (startsWith line)

/-- `is_ignorable_notification` -/
def isIgnorableNotification (line : Bytes) : Bool := ignorableNotifications.any (startsWith line)

/-- what a notification asks the adapter to queue -/
inductive Notice where
  | output (paneId : Text) (data : Bytes)
  | refresh
  | exit
  | nothing
deriving DecidableEq, Repr

/-- the pane and the escaped data of an output notification -/
def outputNotice (paneId encoded : Bytes) : Parsed Notice := do
  let paneId ← orError .protocol (fromUtf8 paneId)
  require (isPaneId paneId) .protocol
  let data ← decoded encoded
  return if data.isEmpty then .nothing else .output paneId data

/-- the parsing half of `ingest_notification` -/
def parseNotification (line : Bytes) : Parsed Notice :=
  let line := stripNewline line
  match stripHead (ascii "%output ") line with
  | some rest => do
    let (paneId, data) ← orError .protocol (splitOnceSpace rest)
    outputNotice paneId data
  | none =>
    match stripHead (ascii "%extended-output ") line with
    | some rest => do
      let (paneId, remaining) ← orError .protocol (splitOnceSpace rest)
      let (age, data) ← orError .protocol (splitOnceColon remaining)
      require (!age.isEmpty && age.all isAsciiDigit) .protocol
      outputNotice paneId data
    | none =>
      if line = ascii "%exit" || startsWith line (ascii "%exit ") then .ok .exit
      else
        match stripHead (ascii "%pause ") line with
        | some pane => do
          let pane ← orError .protocol (fromUtf8 pane)
          require (isPaneId pane) .protocol
          return .refresh
        | none =>
          match stripHead (ascii "%continue ") line with
          | some pane => do
            let pane ← orError .protocol (fromUtf8 pane)
            require (isPaneId pane) .protocol
            return .nothing
          | none =>
            if isRefreshNotification line then .ok .refresh
            else if isIgnorableNotification line then .ok .nothing
            else .error .protocol

def queueNotice : Notice → Io Unit
  | .output paneId data => queueChunks paneId (chunks attachmentMaxTerminalChunkBytes data)
  | .refresh => queueEvent .refresh
  | .exit => queueEvent .exit
  | .nothing => Io.pure ()

/-- `ingest_notification` -/
def ingestNotification (line : Bytes) : Io Unit := do
  Io.modify fun s => { s with stray := s.stray || startsWith line beginMark }
  let notice ← Io.lift (parseNotification line)
  queueNotice notice

/-! ## Responses -/

def maxResponseRecords : ℕ := 16384
def maxResponseWireBytes : ℕ := 8388608
def maxResponseBytes : ℕ := attachmentMaxProjectionBytes
def maxPaneMetadataBytes : ℕ := 1024

structure ResponseBudget where
  records : ℕ
  wireBytes : ℕ
deriving DecidableEq, Repr

def ResponseBudget.observe (b : ResponseBudget) (line : Bytes) : Parsed ResponseBudget := do
  let b : ResponseBudget := ⟨b.records + 1, b.wireBytes + line.length⟩
  require (b.records ≤ maxResponseRecords && b.wireBytes ≤ maxResponseWireBytes) .protocol
  return b

/-- what the reader of a response holds -/
structure Reading where
  marker : Option Marker
  size : ℕ
  budget : ResponseBudget
  result : List Bytes
deriving DecidableEq, Repr

def Reading.init : Reading := ⟨none, 0, ⟨0, 0⟩, []⟩

/-- one line of a response, after the budget: the reading goes on, or the block has ended -/
def observeLine (max : ℕ) (r : Reading) (line : Bytes) : Io (Reading ⊕ List Bytes) :=
  match r.marker with
  | none => do
    match ← Io.lift (parseMarker line beginMark) with
    | some m => return .inl { r with marker := some m }
    | none =>
      ingestNotification line
      return .inl r
  | some m => do
    match ← Io.lift (parseMarker line endMark) with
    | some e => if m = e then return .inr r.result else Io.fail .protocol
    | none =>
      match ← Io.lift (parseMarker line errorMark) with
      | some e => if m = e then Io.fail .target else Io.fail .protocol
      | none =>
        if startsWith line beginMark then Io.fail .protocol
        else
          let size := r.size + (stripNewline line).length
          if max < size then Io.fail .projectionTooLarge
          else return .inl { r with size := size, result := r.result ++ [stripNewline line] }

/-- the loop of `read_response_with_limit_inner`; the budget bounds the number of lines, so this much fuel is enough -/
def readResponseFrom (max : ℕ) : ℕ → Reading → Io (List Bytes)
  | 0, _ => Io.fail .protocol
  | fuel + 1, r => do
    let line ← nextLine true
    let budget ← Io.lift (r.budget.observe line)
    match ← observeLine max { r with budget := budget } line with
    | .inl r => readResponseFrom max fuel r
    | .inr rows => return rows

/-- the response is the answer to `c`, the last block read -/
def isAnswerTo (c : Command) (r : Res (List Bytes)) (log : List Entry) : Bool :=
  match r with
  | .ok rows => log.getLast? = some (.closed c rows true)
  | .error .target =>
    match log.getLast? with
    | some (.closed c' _ ok) => c' = c && !ok
    | _ => false
  | _ => true

/-- `read_response_with_limit`, by the caller that sent `c` -/
def readResponse (c : Command) (max : ℕ) : Io (List Bytes) := fun s =>
  let r := readResponseFrom max (maxResponseRecords + 1) .init s
  (r.1, { r.2 with crossed := r.2.crossed || !isAnswerTo c r.1 r.2.log })

/-- `command` -/
def command (c : Command) (max : ℕ) : Io (List Bytes) := do
  sendCommand [c]
  readResponse c max

inductive MutationOutcome where
  | succeeded
  | failed
  | ambiguous
deriving DecidableEq, Repr

/-- `mutating_command` -/
def mutatingCommand (c : Command) : Io MutationOutcome := fun s =>
  match sendCommand [c] s with
  | (.ok _, s) =>
    match readResponse c maxResponseBytes s with
    | (.ok _, s) => (.ok .succeeded, s)
    | (.error .target, s) => (.ok .failed, s)
    | (.error _, s) => (.ok .ambiguous, s)
    | (.waiting, s) => (.waiting, s)
  | (.error _, s) => (.ok .ambiguous, s)
  | (.waiting, s) => (.waiting, s)

end OwlMux.Tmux
