/-
One `WriterScope` and the attachments that use it (`owlmux-server/src/writer.rs`, `attachment.rs`): the writer pointer,
the dispatch and state mutexes, and for every attachment the place its session loop, chooser, workspace loop or frame
handler has reached.

A step runs one attachment to its next await: a mutex, a tmux command with its answer, a `current_route` check, a
directive channel, a projection or a reply. `proceed` is the code between two of them, `command` a tmux command; the
schedule chooses every answer, whether a reply can be sent and when the route is lost. Guards are dropped with the block
that holds them, so `put` derives both mutexes from the place (`Pc.holdsDispatch`, `Pc.holdsState`).

- `demote_writer`: `demoteSend`, `demoteWait`; a wait ends with the response in the oneshot channel or, timed out or
  dropped, with `Ambiguous`. The directive channel holds four entries; a send waits only while it is full.
- `set_writer`: two commands, of which `switch-client -r` toggles the client's read-only flag.
- `checked` is a ghost: `current_route` has answered true since the dispatch mutex was taken.

Runs end at the node's hard fence, which drops every attachment task.
-/
import Mathlib.Tactic
import OwlMux.Lib.Machine
import OwlMux.Lib.Mutex
import OwlMux.Writer.Frames

namespace OwlMux.Writer

open OwlMux.Relay (Uuid Text)

/-! ## State -/

/-- the sending half of the directive channel of one workspace of an attachment -/
structure Sender where
  attachment : Uuid
  workspace : ℕ
deriving DecidableEq, Repr

inductive Directive where
  | demote (response : ℕ)
  | close
deriving DecidableEq, Repr

/-- capacity of the directive channel -/
def directiveCapacity : ℕ := 4

/-- `WriterHandle` -/
structure Handle where
  attachment : Uuid
  size : ClientSize
  control : Option Sender
deriving DecidableEq, Repr

/-- outcome and code of an `operation.result` -/
structure Reply where
  outcome : Outcome
  code : String
deriving DecidableEq, Repr

/-- where a chooser or workspace handler returns to -/
inductive Exit where
  | resume
  | chooser
  | close
deriving DecidableEq, Repr

/-- the blocks that take the dispatch mutex and then the state mutex -/
inductive Task where
  /-- `SessionCreate` in `chooser` -/
  | create (stamp : Stamp) (name : Text)
  /-- `change_writer_without_control` -/
  | claim (takeover : Bool) (stamp : Stamp) (size : ClientSize)
  /-- the first block of `workspace` -/
  | enter
  /-- an operation of `handle_workspace_frame` -/
  | operate (stamp : Stamp) (op : Operation)
  /-- `change_writer_with_control` -/
  | claimControl (takeover : Bool) (stamp : Stamp) (size : ClientSize)
  /-- `clear_control` after `workspace` has returned -/
  | leave (close : Bool)
  /-- `WriterScope::release` -/
  | release
deriving DecidableEq, Repr

/-- places inside such a block; `old` is the channel of the writer that is replaced -/
inductive At where
  | start
  | demoteSend (old : Sender)
  | demoteWait (old : Sender) (response : ℕ)
  | demoted (old : Sender) (outcome : Outcome)
  | closeOld (old : Sender) (reply : Option Reply)
  | setWriter (old : Option Sender) (second : Bool)
  | wrote (old : Option Sender) (outcome : Outcome)
  | resize (old : Option Sender)
  | resized (old : Option Sender) (outcome : Outcome)
  | mutate
  | mutated (outcome : Outcome)
  | announce (reply : Reply)
  | project
  | projected (workspace : Option Workspace)
  | reply (reply : Reply) (exit : Exit)
deriving DecidableEq, Repr

inductive Pc where
  /-- probing before the chooser -/
  | connecting
  | chooser
  /-- opening the control client -/
  | starting
  /-- the select loop of `workspace` -/
  | workspace
  /-- `set_writer(false)` in its directive branch -/
  | demoting (response : ℕ) (second : Bool)
  /-- its pending-dispatch branch -/
  | refreshing
  | waiting (t : Task)
  | locking (t : Task)
  | critical (t : Task) (a : At)
  | closed
deriving DecidableEq, Repr

def Task.inWorkspace : Task → Bool
  | .enter | .operate .. | .claimControl .. => true
  | _ => false

/-- the attachment has a control client and has not begun to leave its workspace -/
def Pc.live : Pc → Bool
  | .workspace | .demoting .. | .refreshing => true
  | .waiting t | .locking t | .critical t _ => t.inWorkspace
  | _ => false

def Pc.holdsDispatch : Pc → Bool
  | .refreshing | .locking _ | .critical .. => true
  | _ => false

def Pc.holdsState : Pc → Bool
  | .critical .. => true
  | _ => false

structure Attachment where
  pc : Pc
  selectionEpoch : Uuid
  sessions : List (Text × ℤ)
  workspace : Workspace
  /-- number of the workspace; the channels of earlier ones are closed -/
  generation : ℕ
  /-- flags of the tmux control client -/
  readOnly : Bool
  ignoreSize : Bool
  /-- the directive channel -/
  directives : List Directive

structure St where
  /-- `scope.route().connection_epoch` -/
  connectionEpoch : ℤ
  /-- what `current_route` answers -/
  route : Bool
  dispatch : Option Uuid
  state : Option Uuid
  checked : Bool
  current : Option Handle
  att : Uuid → Attachment
  /-- number of the next oneshot channel -/
  next : ℕ
  /-- responses in the oneshot channels, by the attachment that responds -/
  answered : Uuid → ℕ → Option Outcome

def Attachment.init : Attachment where
  pc := .connecting
  selectionEpoch := 0
  sessions := []
  workspace := ⟨0, [], [], []⟩
  generation := 0
  readOnly := true
  ignoreSize := true
  directives := []

def init (connectionEpoch : ℤ) : St where
  connectionEpoch := connectionEpoch
  route := true
  dispatch := none
  state := none
  checked := false
  current := none
  att := fun _ => Attachment.init
  next := 0
  answered := fun _ _ => none

/-! ## The writer pointer (`WriterGuard`) -/

def isCurrent (x : Uuid) (c : Option Handle) : Bool := c.any fun h => h.attachment == x

def currentSize (x : Uuid) (c : Option Handle) : Option ClientSize :=
  c.bind fun h => if h.attachment = x then some h.size else none

/-- change the pointer if it is the attachment's -/
def modifyCurrent (x : Uuid) (f : Handle → Handle) (c : Option Handle) : Option Handle :=
  c.map fun h => if h.attachment = x then f h else h

def setControl (x : Uuid) (k : Sender) : Option Handle → Option Handle := modifyCurrent x fun h => { h with control := some k }
def clearControl (x : Uuid) : Option Handle → Option Handle := modifyCurrent x fun h => { h with control := none }
def updateSize (x : Uuid) (size : ClientSize) : Option Handle → Option Handle := modifyCurrent x fun h => { h with size := size }
def clearIfCurrent (x : Uuid) (c : Option Handle) : Option Handle := if isCurrent x c then none else c

/-! ## Places and channels -/

/-- move the attachment; its mutexes are those of the place it moves to -/
def St.put (s : St) (x : Uuid) (a : Attachment) : St :=
  { s with
    att := Function.update s.att x a
    dispatch := Mutex.hand s.dispatch x a.pc.holdsDispatch
    state := Mutex.hand s.state x a.pc.holdsState }

def St.goto (s : St) (x : Uuid) (pc : Pc) : St := s.put x { s.att x with pc := pc }

/-- return from a handler; leaving the workspace drops its control client and the receiving half of its channel -/
def Attachment.exit (a : Attachment) : Exit → Attachment
  | .resume => { a with pc := if a.pc.live then .workspace else .chooser }
  | .chooser =>
    if a.pc.live then { a with pc := .waiting (.leave false), directives := [] } else { a with pc := .connecting }
  | .close =>
    if a.pc.live then { a with pc := .waiting (.leave true), directives := [] } else { a with pc := .waiting .release }

def St.exit (s : St) (x : Uuid) (e : Exit) : St := s.put x ((s.att x).exit e)

def St.sender (s : St) (x : Uuid) : Sender := ⟨x, (s.att x).generation⟩

/-- the receiving half of the channel exists -/
def St.isOpen (s : St) (k : Sender) : Bool :=
  (s.att k.attachment).pc.live && decide ((s.att k.attachment).generation = k.workspace)

def St.isFull (s : St) (k : Sender) : Bool := decide (directiveCapacity ≤ (s.att k.attachment).directives.length)

/-- `response.send(outcome)` -/
def St.respond (s : St) (x : Uuid) (response : ℕ) (outcome : Option Outcome) : St :=
  { s with answered := Function.update s.answered x (Function.update (s.answered x) response outcome) }

/-- `oneshot::channel()`: the next channel, empty -/
def St.oneshot (s : St) (x : Uuid) : St := { s.respond x s.next none with next := s.next + 1 }

def Attachment.push (a : Attachment) (d : Directive) : Attachment := { a with directives := a.directives ++ [d] }

def St.deliver (s : St) (k : Sender) (d : Directive) : St :=
  { s with att := Function.update s.att k.attachment ((s.att k.attachment).push d) }

/-! ## Replies -/

def claimed (takeover : Bool) : Reply := ⟨.succeeded, if takeover then "writer_taken_over" else "writer_claimed"⟩

def transitionFailed : Outcome → Reply
  | .ambiguous => ⟨.ambiguous, "operation_ambiguous"⟩
  | _ => ⟨.failed, "writer_transition_failed"⟩

def writerRequired : Reply := ⟨.failed, "writer_required"⟩
def writerBusy : Reply := ⟨.failed, "writer_busy"⟩

/-! ## Code under both mutexes -/

/-- from the state mutex to the next await -/
def start (s : St) (x : Uuid) (t : Task) : St :=
  match t with
  | .create _ name =>
    if !isCurrent x s.current then s.goto x (.critical t (.reply writerRequired .resume))
    else if !validSessionName name || !s.route then s.goto x (.critical t (.reply ⟨.failed, "invalid_operation"⟩ .resume))
    else { s with checked := true }.goto x (.critical t .mutate)
  | .claim takeover _ size =>
    if !s.route then s.exit x .close
    else if isCurrent x s.current then
      { s with checked := true, current := updateSize x size s.current }.goto x
        (.critical t (.reply ⟨.succeeded, "writer_current"⟩ .resume))
    else if s.current.isSome && !takeover then
      { s with checked := true }.goto x (.critical t (.reply writerBusy .resume))
    else match s.current.bind Handle.control with
      | some old => { s with checked := true }.goto x (.critical t (.demoteSend old))
      | none => { s with checked := true, current := some ⟨x, size, none⟩ }.goto x (.critical t (.reply (claimed takeover) .resume))
  | .enter =>
    if isCurrent x s.current then s.goto x (.critical t (.setWriter none false)) else s.goto x (.critical t .project)
  | .operate _ op =>
    if !isCurrent x s.current then s.goto x (.critical t (.reply writerRequired .resume))
    else if !s.route then s.exit x .close
    else match op with
      | .workspaceRefresh => { s with checked := true }.goto x (.critical t .project)
      | _ => { s with checked := true }.goto x (.critical t .mutate)
  | .claimControl takeover _ size =>
    if !s.route then s.exit x .close
    else if s.current.isSome && !isCurrent x s.current && !takeover then
      { s with checked := true }.goto x (.critical t (.reply writerBusy .resume))
    else if isCurrent x s.current then
      { s with checked := true, current := setControl x (s.sender x) (updateSize x size s.current) }.goto x
        (.critical t (.resize none))
    else match s.current.bind Handle.control with
      | some old => { s with checked := true }.goto x (.critical t (.demoteSend old))
      | none => { s with checked := true }.goto x (.critical t (.setWriter none false))
  | .leave close =>
    { s with current := clearControl x s.current }.goto x (if close then .waiting .release else .connecting)
  | .release => { s with current := clearIfCurrent x s.current }.goto x .closed

/-- give up a claim: `Close` to the former writer if there was one, then the reply or, without one, the error -/
def giveUp (s : St) (x : Uuid) (t : Task) (old : Option Sender) (r : Option Reply) : St :=
  match old, r with
  | some k, r => s.goto x (.critical t (.closeOld k r))
  | none, some r => s.goto x (.critical t (.reply r .chooser))
  | none, none => s.exit x .close

/-- after `Close` has been sent: the error, or the reply, which a chooser survives and a workspace does not -/
def afterClose (s : St) (x : Uuid) (t : Task) (r : Option Reply) : St :=
  match r, t with
  | none, _ => s.exit x .close
  | some r, .claim .. => s.goto x (.critical t (.reply r .resume))
  | some r, _ => s.goto x (.critical t (.reply r .chooser))

/-- from one await to the next, where the awaited answer is not a tmux command's -/
def proceed (s : St) (x : Uuid) (t : Task) : At → St
  | .start => start s x t
  | .demoteSend old =>
    -- the channel is closed, or the send times out because it is full
    if !s.isOpen old || s.isFull old then s.goto x (.critical t (.demoted old .ambiguous))
    else ((s.oneshot old.attachment).goto x (.critical t (.demoteWait old s.next))).deliver old (.demote s.next)
  | .demoteWait old response =>
    s.goto x (.critical t (.demoted old ((s.answered old.attachment response).getD .ambiguous)))
  | .demoted old outcome =>
    if !s.route then { s with current := none }.goto x (.critical t (.closeOld old none))
    else if outcome ≠ .succeeded then
      { s with current := none }.goto x (.critical t (.closeOld old (some (transitionFailed outcome))))
    else match t with
      | .claim takeover _ size =>
        { s with current := some ⟨x, size, none⟩ }.goto x (.critical t (.reply (claimed takeover) .resume))
      | _ => s.goto x (.critical t (.setWriter (some old) false))
  | .closeOld old r =>
    if !s.isOpen old then afterClose s x t r
    else if s.isFull old then s
    else (afterClose s x t r).deliver old .close
  | .wrote old outcome =>
    match t with
    | .enter =>
      if outcome ≠ .succeeded then { s with current := clearIfCurrent x s.current }.exit x .chooser
      else { s with current := setControl x (s.sender x) s.current }.goto x
        (.critical t (if (currentSize x s.current).isSome then .resize none else .project))
    | .claimControl _ _ size =>
      if !s.route then giveUp { s with current := none } x t old none
      else if outcome ≠ .succeeded then giveUp { s with current := none } x t old (some (transitionFailed outcome))
      else { s with current := some ⟨x, size, some (s.sender x)⟩ }.goto x (.critical t (.resize old))
    | _ => s
  | .resized old outcome =>
    match t with
    | .enter =>
      if outcome ≠ .succeeded then { s with current := clearIfCurrent x s.current }.exit x .chooser
      else s.goto x (.critical t .project)
    | .claimControl .. =>
      if !s.route then giveUp { s with current := clearIfCurrent x s.current } x t old none
      else if outcome ≠ .succeeded then
        giveUp { s with current := clearIfCurrent x s.current } x t old (some (transitionFailed outcome))
      else s.goto x (.critical t .project)
    | _ => s
  | .mutated outcome =>
    if !s.route then { s with current := clearIfCurrent x s.current }.exit x .close
    else match t, outcome with
      | .create .., .succeeded => s.goto x (.critical t (.reply ⟨.succeeded, "session_created"⟩ .chooser))
      | .create .., .failed => s.goto x (.critical t (.reply ⟨.failed, "session_create_failed"⟩ .chooser))
      | .create .., .ambiguous =>
        { s with current := none }.goto x (.critical t (.reply ⟨.ambiguous, "operation_ambiguous"⟩ .chooser))
      | _, .failed => s.goto x (.critical t (.reply ⟨.failed, "target_rejected"⟩ .resume))
      | _, .ambiguous =>
        { s with current := clearIfCurrent x s.current }.goto x
          (.critical t (.reply ⟨.ambiguous, "operation_ambiguous"⟩ .chooser))
      | .operate _ (.clientResize size), .succeeded =>
        { s with current := updateSize x size s.current }.goto x (.critical t (.announce ⟨.succeeded, "resize_applied"⟩))
      | .operate _ (.windowSelect _), .succeeded => s.goto x (.critical t (.announce ⟨.succeeded, "window_selected"⟩))
      | .operate _ (.paneSelect _), .succeeded => s.goto x (.critical t (.announce ⟨.succeeded, "pane_selected"⟩))
      | _, .succeeded => s.goto x (.critical t (.reply ⟨.succeeded, "operation_succeeded"⟩ .resume))
  | .projected w =>
    match t, w with
    | .enter, w =>
      if !s.route then { s with current := clearIfCurrent x s.current }.exit x .close
      else match w with
        | none => s.exit x .chooser
        | some w => s.put x { s.att x with workspace := w, pc := .workspace }
    | .claimControl takeover .., some w =>
      if !s.route then { s with current := clearIfCurrent x s.current }.exit x .close
      else s.put x { s.att x with workspace := w, pc := .critical t (.reply (claimed takeover) .resume) }
    | .operate _ op, some w =>
      if !s.route then s.exit x .close
      else match op with
        | .workspaceRefresh =>
          s.put x { s.att x with workspace := w, pc := .critical t (.reply ⟨.succeeded, "projection_refreshed"⟩ .resume) }
        | _ => s.put x { s.att x with workspace := w, pc := .workspace }
    | _, _ => s
  | _ => s

/-- the size a resize inside a block applies: the pointer's on entry, the request's in a claim -/
def resizeTo (s : St) (x : Uuid) : Task → Option ClientSize
  | .enter => currentSize x s.current
  | .claimControl _ _ size => some size
  | _ => none

/-- the target mutation that is sent at this place, if there is one -/
def mutation (s : St) (x : Uuid) (t : Task) : At → Option Command
  | .resize _ => (resizeTo s x t).bind fun size => if validGrid size.columns size.rows then some (.resize size) else none
  | .mutate =>
    match t with
    | .create _ name => some (.newSession name)
    | .operate _ op => op.render
    | _ => none
  | _ => none

/-- `switch-client -r` -/
def Attachment.switchClient (a : Attachment) (answer : Answer) : Attachment :=
  { a with readOnly := a.readOnly ^^ answer.applied }

/-- `refresh-client -f` with or without `ignore-size` -/
def Attachment.refreshClient (a : Attachment) (ignoreSize : Bool) (answer : Answer) : Attachment :=
  { a with ignoreSize := if answer.applied then ignoreSize else a.ignoreSize }

/-- one tmux command with its answer; a mutation that cannot be written is an error -/
def command (s : St) (x : Uuid) (answer : Answer) : St :=
  match (s.att x).pc with
  | .demoting response false =>
    if answer.outcome = .succeeded then s.put x { (s.att x).refreshClient true answer with pc := .demoting response true }
    else (s.respond x response (some answer.outcome)).put x (((s.att x).refreshClient true answer).exit .chooser)
  | .demoting response true =>
    if answer.outcome = .succeeded then (s.respond x response (some .succeeded)).put x (((s.att x).switchClient answer).exit .resume)
    else (s.respond x response (some answer.outcome)).put x (((s.att x).switchClient answer).exit .chooser)
  | .critical t (.setWriter old false) =>
    if answer.outcome = .succeeded then s.put x { (s.att x).switchClient answer with pc := .critical t (.setWriter old true) }
    else s.put x { (s.att x).switchClient answer with pc := .critical t (.wrote old answer.outcome) }
  | .critical t (.setWriter old true) =>
    s.put x { (s.att x).refreshClient false answer with pc := .critical t (.wrote old answer.outcome) }
  | .critical t (.resize old) =>
    if (mutation s x t (.resize old)).isSome then s.goto x (.critical t (.resized old answer.outcome)) else s.exit x .close
  | .critical t .mutate =>
    if (mutation s x t .mutate).isSome then s.goto x (.critical t (.mutated answer.outcome)) else s.exit x .close
  | _ => s

/-- what `install_projection` returns -/
inductive Projection where
  | error
  | changed
  | installed (w : Workspace)
deriving DecidableEq, Repr

def project (s : St) (x : Uuid) (p : Projection) : St :=
  match (s.att x).pc, p with
  | .critical _ .project, .error => s.exit x .close
  | .critical .enter .project, .changed => s.goto x (.critical .enter (.projected none))
  | .critical (.claimControl ..) .project, .changed => { s with current := clearIfCurrent x s.current }.exit x .chooser
  | .critical _ .project, .changed => s.exit x .chooser
  | .critical t .project, .installed w => s.goto x (.critical t (.projected (some w)))
  | .refreshing, .error => s.exit x .close
  | .refreshing, .changed => s.exit x .chooser
  | .refreshing, .installed w =>
    if !s.route then s.exit x .close
    else s.put x { s.att x with workspace := w, pc := .workspace }
  | _, _ => s

/-! ## Frames, directives and the schedule -/

def Attachment.stale (a : Attachment) (connectionEpoch : ℤ) (stamp : Stamp) : Bool :=
  !matchesConnectionEpoch stamp.connectionEpoch connectionEpoch || decide (stamp.epoch ≠ a.selectionEpoch)

/-- a frame in the loop of `chooser` -/
def receiveChooser (s : St) (x : Uuid) : Frame → St
  | .sessionSelect stamp session created =>
    if (s.att x).stale s.connectionEpoch stamp || !(s.att x).sessions.contains (session, created) then s
    else s.goto x .starting
  | .writer takeover stamp size =>
    if (s.att x).stale s.connectionEpoch stamp || !validClientSize size then s
    else s.goto x (.waiting (.claim takeover stamp size))
  | .sessionRefresh stamp => if (s.att x).stale s.connectionEpoch stamp then s else s.exit x .chooser
  | .sessionCreate stamp name =>
    if (s.att x).stale s.connectionEpoch stamp then s else s.goto x (.waiting (.create stamp name))
  | .workspaceDetach => s.exit x .close
  | _ => s.exit x .close

/-- take the dispatch mutex if it is free (`try_dispatch`) -/
def tryDispatch (s : St) (x : Uuid) (pc : Pc) : St :=
  if s.dispatch.isSome then s else { s with checked := false }.goto x pc

/-- a frame in the loop of `workspace` -/
def receiveWorkspace (s : St) (x : Uuid) : Frame → St
  | .workspaceReturnToChooser stamp => if (s.att x).workspace.matches s.connectionEpoch stamp then s.exit x .chooser else s
  | .workspaceDetach => s.exit x .close
  | .writer takeover stamp size =>
    if decide (stamp.epoch ≠ (s.att x).workspace.epoch) || !matchesConnectionEpoch stamp.connectionEpoch s.connectionEpoch ||
        !validClientSize size then s
    else tryDispatch s x (.locking (.claimControl takeover stamp size))
  | .operation stamp op =>
    match op.verdict (s.att x).workspace s.connectionEpoch stamp with
    | .stale | .invalid => s
    | .protocol => s.exit x .close
    | .dispatch => tryDispatch s x (.locking (.operate stamp op))
  | _ => s.exit x .close

inductive Op where
  /-- the route is lost, or current -/
  | route (current : Bool)
  | probed (x : Uuid) (selectionEpoch : Uuid) (sessions : List (Text × ℤ))
  | receive (x : Uuid) (frame : Frame)
  /-- the control client has started -/
  | started (x : Uuid)
  | directive (x : Uuid)
  /-- the client, the route or the control client ends while a loop waits -/
  | hangUp (x : Uuid) (close : Bool)
  | refresh (x : Uuid)
  | acquire (x : Uuid)
  | lock (x : Uuid)
  | proceed (x : Uuid)
  | command (x : Uuid) (answer : Answer)
  | project (x : Uuid) (p : Projection)
  | reply (x : Uuid) (sent : Bool)
  /-- `SessionCreate` finds no stream of its route, or SSH fails before the command -/
  | unavailable (x : Uuid) (ssh : Bool)
deriving DecidableEq, Repr

def step (s : St) : Op → St
  | .route b => { s with route := b }
  | .probed x epoch sessions =>
    if (s.att x).pc = .connecting then s.put x { s.att x with selectionEpoch := epoch, sessions := sessions, pc := .chooser }
    else s
  | .receive x frame =>
    match (s.att x).pc with
    | .chooser => receiveChooser s x frame
    | .workspace => receiveWorkspace s x frame
    | _ => s
  | .started x =>
    if (s.att x).pc = .starting then
      s.put x { s.att x with
        generation := (s.att x).generation + 1
        readOnly := true
        ignoreSize := true
        directives := []
        pc := .waiting .enter }
    else s
  | .directive x =>
    match (s.att x).pc, (s.att x).directives with
    | .workspace, .demote response :: rest => s.put x { s.att x with directives := rest, pc := .demoting response false }
    | .workspace, .close :: _ => s.exit x .chooser
    | _, _ => s
  | .hangUp x close =>
    match (s.att x).pc with
    | .connecting | .chooser => s.exit x .close
    | .starting => s.goto x (.waiting (.leave true))
    | .workspace => s.exit x (if close then .close else .chooser)
    | _ => s
  | .refresh x => if (s.att x).pc = .workspace then tryDispatch s x .refreshing else s
  | .acquire x =>
    match (s.att x).pc with
    | .waiting t => tryDispatch s x (.locking t)
    | _ => s
  | .lock x =>
    match (s.att x).pc with
    | .locking t =>
      if s.state.isSome then s
      else match t with
        | .enter => if !s.route then s.exit x .close else { s with checked := true }.goto x (.critical .enter .start)
        | t => s.goto x (.critical t .start)
    | _ => s
  | .proceed x =>
    match (s.att x).pc with
    | .critical t a => proceed s x t a
    | _ => s
  | .command x answer => command s x answer
  | .project x p => project s x p
  | .reply x sent =>
    match (s.att x).pc with
    | .critical _ (.reply _ e) => s.exit x (if sent then e else .close)
    | .critical t (.announce _) => if sent then s.goto x (.critical t .project) else s.exit x .close
    | _ => s
  | .unavailable x ssh =>
    match (s.att x).pc with
    | .critical (.create stamp name) .mutate =>
      if ssh then s.exit x .close
      else s.goto x (.critical (.create stamp name) (.reply ⟨.failed, "target_unavailable"⟩ .resume))
    | _ => s

def run (s : St) (ops : List Op) : St := Machine.run step s ops

end OwlMux.Writer
