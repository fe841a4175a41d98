/-
The operations of the control adapter and their callers: `start`, `hydrate` with its retries, `set_writer`, `resize`,
`send_literal`, `select_window`, `select_pane`, `next_event` and `pump_event`, and the workspace of an attachment, which
enters with an optional promotion, installs a projection and then serves one request after another until an outcome ends
it.

What the rest of the attachment decides (who is the writer, which frame arrives, how often a notification is pumped while
a frame is written) is the argument of a request.
-/
import Mathlib.Tactic
import OwlMux.Tmux.Adapter

namespace OwlMux.Tmux

open OwlMux.Relay (Text byteLen)

/-! ## Events -/

/-- `pop_event`: the first event leaves the queue -/
def St.popped (s : St) (e : ControlEvent) (es : List ControlEvent) : St :=
  { s with
    events := es
    queuedOutputBytes := s.queuedOutputBytes - (match e with | .output _ d => d.length | _ => 0) }

/-- `clear_events` -/
def clearEvents : Io Unit := Io.modify fun s => { s with events := [], queuedOutputBytes := 0 }

/-- `pump_event` -/
def pumpEvent : Io Unit := do
  let line ← nextLine false
  ingestNotification line

/-- `next_event`, reading at most `fuel` notifications that queue nothing -/
def nextEventFrom : ℕ → Io ControlEvent
  | 0 => fun s => (.waiting, s)
  | fuel + 1 => fun s =>
    match s.events with
    | e :: es => (.ok e, s.popped e es)
    | [] => (pumpEvent >>= fun _ => nextEventFrom fuel) s

/-- `next_event`: every read takes a move of the script, so this much fuel is enough -/
def nextEvent : Io ControlEvent := fun s => nextEventFrom (s.script.length + 1) s

def isOutputOf (paneId : Text) : ControlEvent → Bool
  | .output p _ => p = paneId
  | _ => false

/-- `discard_captured_output` -/
def discardCapturedOutput (paneId : Text) : Io Unit := Io.modify fun s =>
  let events := s.events.filter fun e => !isOutputOf paneId e
  { s with
    events := events
    queuedOutputBytes := (events.map fun e => match e with | .output _ d => d.length | _ => 0).sum }

/-- the loop of `require_stable_cutover` -/
def stableFrom (changed : Bool) : List ControlEvent → Io Unit
  | [] => if changed then Io.fail .changed else Io.pure ()
  | e :: es => fun s =>
    match e with
    | .output _ _ => stableFrom changed es (s.popped e es)
    | .refresh => stableFrom true es (s.popped e es)
    | .exit => (.error .target, s.popped e es)

def requireStableCutover : Io Unit := fun s => stableFrom false s.events s

def requireLiveCutover : Io Unit := fun s =>
  if s.events.contains .exit then (.error .target, s)
  else if s.events.contains .refresh then (.error .changed, s)
  else (.ok (), s)

/-! ## Hydration -/

def observeWindows (session : Text) : Io (List WindowSummary) := do
  Io.lift (require (isSessionId session) .protocol)
  let rows ← command (.listWindows session) maxResponseBytes
  Io.lift (parseWindows rows)

def observeWindow (session : Text) (created : ℤ) : Io WindowProjection := do
  Io.lift (require (isSessionId session && decide (0 < created)) .protocol)
  let response ← command (.displayWindow session) maxResponseBytes
  let window ← Io.lift (parseWindow session created response)
  let name ← command (.displayWindowName window.windowId) maxResponseBytes
  let name ← Io.lift (safeText name maxWindowNameBytes)
  return { window with name := name }

def observePanes (window : WindowProjection) : Io (List PaneProjection) := do
  let rows ← command (.listPanes window.windowId) maxResponseBytes
  Io.lift (parsePaneRows rows window)

/-- `observe_pane_labels`, pane by pane -/
def observePaneLabels : List PaneProjection → Io (List PaneProjection)
  | [] => Io.pure []
  | pane :: panes => do
    let title ← command (.displayTitle pane.paneId) maxResponseBytes
    let title ← Io.lift (safeText title maxTextBytes)
    let current ← command (.displayCommand pane.paneId) maxResponseBytes
    let current ← Io.lift (safeText current maxTextBytes)
    let rest ← observePaneLabels panes
    return { pane with title := title, currentCommand := current } :: rest

/-- `pause_panes` and `continue_panes` -/
def forPanes (c : Text → Command) : List PaneProjection → Io Unit
  | [] => Io.pure ()
  | pane :: panes => do
    let _ ← command (c pane.paneId) maxResponseBytes
    forPanes c panes

/-- output of the pane was queued behind the boundary -/
def refuseOutputSince (paneId : Text) (boundary : ℕ) : Io Unit := fun s =>
  if (s.events.drop boundary).any (isOutputOf paneId) then (.error .changed, s) else (.ok (), s)

def queuedEvents : Io ℕ := fun s => (.ok s.events.length, s)

/-- `capture_barrier`: the metadata row and the captured rows -/
def captureBarrier (paneId : Text) : Io (Bytes × List Bytes) := do
  sendCommand [.capture paneId, .displayPane paneId]
  let lines ← readResponse (.capture paneId) attachmentMaxPaneSnapshotBytes
  let boundary ← queuedEvents
  let metadata ← readResponse (.displayPane paneId) maxPaneMetadataBytes
  refuseOutputSince paneId boundary
  let _ ← Io.lift (singleLine metadata)
  return (metadata.headD [], lines)

/-- one pane of `capture_panes`; `total` is the size of the snapshots before it -/
def capturePane (window : WindowProjection) (pane : PaneProjection) (total : ℕ) : Io (PaneProjection × PaneSnapshot) := do
  let (metadata, lines) ← captureBarrier pane.paneId
  let final ← Io.lift (parsePaneRow metadata window)
  Io.lift (require (samePaneStructure pane final) .changed)
  let pane := { pane with terminal := final.terminal }
  let content ← Io.lift (captureLines lines pane)
  Io.lift (require (total + content.length ≤ attachmentMaxProjectionBytes) .projectionTooLarge)
  discardCapturedOutput pane.paneId
  return (pane, ⟨pane.paneId, content⟩)

/-- `capture_panes` -/
def capturePanes (window : WindowProjection) : List PaneProjection → ℕ → Io (List PaneProjection × List PaneSnapshot)
  | [], _ => Io.pure ([], [])
  | pane :: panes, total => do
    let (pane, snapshot) ← capturePane window pane total
    let (panes, snapshots) ← capturePanes window panes (total + snapshot.content.length)
    return (pane :: panes, snapshot :: snapshots)

def revalidateProjection (session : Text) (created : ℤ) (expected : WindowProjection) (panes : List PaneProjection) :
    Io Unit := do
  let windows ← observeWindows session
  let window ← observeWindow session created
  Io.lift (require (window = expected && activeWindowIs windows window) .changed)
  let observed ← observePanes window
  Io.lift (require (observed.length = panes.length &&
    (observed.zip panes).all fun p => samePaneStructure p.1 p.2) .changed)

/-- `hydrate_once` -/
def hydrateOnce (session : Text) (created : ℤ) : Io WorkspaceProjection := do
  let windows ← observeWindows session
  let window ← observeWindow session created
  Io.lift (require (activeWindowIs windows window) .changed)
  let panes ← observePanes window
  let panes ← observePaneLabels panes
  forPanes .pause panes
  requireStableCutover
  forPanes .resume panes
  let (panes, snapshots) ← capturePanes window panes 0
  revalidateProjection session created window panes
  requireLiveCutover
  return ⟨windows, window, panes, snapshots⟩

/-- an attempt begins -/
def beginAttempt : Io Unit := do
  clearEvents
  Io.modify fun s => { s with log := s.log ++ [.attempt] }

/-- the retries of `hydrate`: only a change is tried again -/
def hydrateFrom (session : Text) (created : ℤ) : ℕ → Io WorkspaceProjection
  | 0 => Io.fail .changed
  | attempts + 1 => fun s =>
    match (beginAttempt >>= fun _ => hydrateOnce session created) s with
    | (.error .changed, s) => hydrateFrom session created attempts s
    | r => r

def maxHydrationAttempts : ℕ := 3

def hydrate (session : Text) (created : ℤ) : Io WorkspaceProjection := hydrateFrom session created maxHydrationAttempts

/-! ## Mutations -/

/-- `start`: the attach block, then the flags and the subscription of an observer -/
def startAdapter : Io Unit := do
  let _ ← readResponse .attach maxResponseBytes
  let _ ← command .observerFlags maxResponseBytes
  let _ ← command .subscribe maxResponseBytes
  clearEvents

/-- `set_writer` -/
def setWriter (writer : Bool) : Io MutationOutcome := do
  let outcome ← mutatingCommand (if writer then .switchClient else .sizeFlags true)
  if outcome ≠ .succeeded then return outcome
  else mutatingCommand (if writer then .sizeFlags false else .switchClient)

def resize (columns rows : ℕ) : Io MutationOutcome := do
  Io.lift (require (validGrid columns rows) .protocol)
  mutatingCommand (.resize columns rows)

def sendLiteral (paneId : Text) (data : Bytes) : Io MutationOutcome := do
  Io.lift (require (isPaneId paneId && !data.isEmpty && data.length ≤ attachmentMaxInputBytes) .protocol)
  mutatingCommand (.sendKeys paneId data)

def selectWindow (windowId : Text) : Io MutationOutcome := do
  Io.lift (require (isWindowId windowId) .protocol)
  mutatingCommand (.selectWindow windowId)

def selectPane (paneId : Text) : Io MutationOutcome := do
  Io.lift (require (isPaneId paneId) .protocol)
  mutatingCommand (.selectPane paneId)

/-! ## The workspace -/

structure ClientSize where
  columns : ℕ
  rows : ℕ
deriving DecidableEq, Repr

/-- what a turn of the workspace loop does with the adapter; `pumps` notifications are read while frames are written -/
inductive Request where
  | demote
  | event
  /-- a `next_event` that another branch of the loop cancels -/
  | listen (pumps : ℕ)
  | refresh (pumps : ℕ)
  | input (paneId : Text) (data : Bytes)
  | resize (size : ClientSize) (pumps : ℕ)
  | selectWindow (windowId : Text) (pumps : ℕ)
  | selectPane (paneId : Text) (pumps : ℕ)
  | claim (current : Bool) (size : ClientSize) (pumps : ℕ)
deriving DecidableEq, Repr

def pump : ℕ → Io Unit
  | 0 => Io.pure ()
  | n + 1 => do
    pumpEvent
    pump n

/-- `install_projection`; whether the workspace goes on -/
def install (session : Text) (created : ℤ) (pumps : ℕ) : Io Bool := fun s =>
  match hydrate session created s with
  | (.ok _, s) => (pump pumps >>= fun _ => Io.pure true) s
  | (.error e, s) => if e = .changed ∨ e = .target ∨ e = .ssh .unavailable then (.ok false, s) else (.error e, s)
  | (.waiting, s) => (.waiting, s)

/-- a mutation followed by `refresh_after_mutation`; `mutation_result` otherwise -/
def mutateAndRefresh (mutation : Io MutationOutcome) (session : Text) (created : ℤ) (pumps : ℕ) : Io Bool := do
  match ← mutation with
  | .succeeded => install session created pumps
  | .failed => return true
  | .ambiguous => return false

/-- one turn of the workspace loop -/
def serve (session : Text) (created : ℤ) : Request → Io Bool
  | .demote => do
    let outcome ← setWriter false
    return outcome == .succeeded
  | .event => do
    let event ← nextEvent
    return event != .exit
  | .listen pumps => pump pumps >>= fun _ => Io.pure true
  | .refresh pumps => install session created pumps
  | .input paneId data => do
    let outcome ← sendLiteral paneId data
    return outcome != .ambiguous
  | .resize size pumps => mutateAndRefresh (Tmux.resize size.columns size.rows) session created pumps
  | .selectWindow windowId pumps => mutateAndRefresh (Tmux.selectWindow windowId) session created pumps
  | .selectPane paneId pumps => mutateAndRefresh (Tmux.selectPane paneId) session created pumps
  | .claim current size pumps => do
    let outcome ← if current then Io.pure .succeeded else setWriter true
    if outcome ≠ .succeeded then return false
    else
      let outcome ← Tmux.resize size.columns size.rows
      if outcome ≠ .succeeded then return false else install session created pumps

/-- before the first projection the current writer's client is promoted and resized -/
def enter (session : Text) (created : ℤ) (writer : Option (Option ClientSize)) (pumps : ℕ) : Io Bool := do
  match writer with
  | none => install session created pumps
  | some size =>
    let outcome ← setWriter true
    if outcome ≠ .succeeded then return false
    else
      let outcome ← match size with
        | none => Io.pure .succeeded
        | some size => Tmux.resize size.columns size.rows
      if outcome ≠ .succeeded then return false else install session created pumps

/-- the loop: the first outcome that ends the workspace drops the adapter -/
def serveAll (session : Text) (created : ℤ) : List Request → Io Unit
  | [] => Io.pure ()
  | r :: rs => do
    if ← serve session created r then serveAll session created rs else Io.pure ()

/-- the adapter's life in `workspace` -/
def workspace (session : Text) (created : ℤ) (writer : Option (Option ClientSize)) (pumps : ℕ) (rs : List Request) :
    Io Unit := do
  startAdapter
  if ← enter session created writer pumps then serveAll session created rs else Io.pure ()

end OwlMux.Tmux
