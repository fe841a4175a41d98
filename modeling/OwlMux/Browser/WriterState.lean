/-
Writer states on their way to the Browser: the watch channel of a `WriterScope`, the task of one attachment (`chooser`,
`workspace` and `install_projection` of `owlmux-server/src/attachment.rs`), its ordered connection and the client's
`validateSequence`.

Every attachment of the scope may change the writer at any moment (`set_current`, `clear`, `clear_if_current`, under the
state mutex), and every change but a `clear` of nobody bumps the version of the channel. The task marks the version as
seen when it subscribes and when `changed()` returns, then reads the view and sends it with the epoch of its chooser or
of its workspace. A projection replaces that epoch on both sides; the frame that carries the new one precedes every writer
state that carries it. A client that closes the connection receives nothing more.

Results:
- `step_inv`: the epoch of the task is the one the client will hold behind the frames in flight, and the last report agrees
  with the scope while nothing is unseen;
- `writer_state_agreement`: over every schedule, no writer state is dropped, and a waiting task with nothing unseen and
  nothing in flight has shown the client the writer of the scope.
-/
import Mathlib.Tactic
import OwlMux.Browser.Client
import OwlMux.Lib.Machine

namespace OwlMux.Browser

open OwlMux.Relay (Text Uuid uuidText jsonNumber)
open OwlMux.Tmux (WindowSummary WindowProjection PaneProjection)

/-! ## The scope and the task -/

/-- `WriterScope`: who writes, and the version of its watch channel -/
structure Scope where
  current : Option Uuid
  version : ℕ
deriving DecidableEq, Repr

/-- the methods of `WriterGuard` that change the writer -/
inductive WriterChange where
  | setCurrent (attachment : Uuid)
  | clear
  | clearIfCurrent (attachment : Uuid)
deriving DecidableEq, Repr

def Scope.apply (s : Scope) : WriterChange → Scope
  | .setCurrent a => ⟨some a, s.version + 1⟩
  | .clear => if s.current.isSome then ⟨none, s.version + 1⟩ else s
  | .clearIfCurrent a => if s.current = some a then ⟨none, s.version + 1⟩ else s

/-- `WriterView`, as the writer state carries it -/
def Scope.view (s : Scope) (me : Uuid) : WriterRole × Bool :=
  (if s.current = some me then .writer else .observer, s.current.isNone)

/-- where the task is; `e` is the selection epoch of the chooser or the epoch of the workspace -/
inductive Task where
  /-- at the beginning of `chooser` -/
  | choosing
  /-- the probe runs -/
  | probing
  /-- subscribed, the phase is not sent -/
  | subscribed
  /-- the phase is sent, the session list is not -/
  | listing
  /-- before `scope.view` of `send_writer_state` -/
  | reporting (e : Uuid) (workspace : Bool)
  /-- between `scope.view` and `send` -/
  | viewed (e : Uuid) (workspace : Bool) (view : WriterRole × Bool)
  /-- in the select loop -/
  | waiting (e : Uuid) (workspace : Bool)
  /-- at the beginning of `workspace` -/
  | entering
  /-- `install_projection` runs, its projection is not sent; `again` is a workspace with its projection -/
  | hydrating (again : Bool)
  /-- its projection is sent -/
  | installing (e : Uuid) (again : Bool)
  /-- the first projection of a workspace is installed -/
  | entered (e : Uuid)
  | ended
deriving DecidableEq, Repr

/-- an attachment: its id and the connection epoch of its route, which is claimed and so positive -/
structure Attachment where
  me : Uuid
  connectionEpoch : ℤ
  positive : 0 < connectionEpoch
  bounded : connectionEpoch < 2 ^ 63

structure Link where
  scope : Scope
  /-- the version marked as seen -/
  seen : ℕ
  task : Task
  /-- frames sent and not received -/
  wire : List ServerFrame
  client : Client
  /-- the client has closed the connection -/
  closed : Bool
  /-- the last writer state handed on -/
  shown : Option (WriterRole × Bool)
  /-- a writer state was not handed on -/
  dropped : Bool

def Link.init (scope : Scope) : Link := ⟨scope, 0, .choosing, [], .init, false, none, false⟩

/-! ## Steps -/

/-- frames that carry neither an epoch of the attachment nor a phase -/
def Incidental : ServerFrame → Bool
  | .operationResult _ _ _ _ _ => true
  | .output _ _ _ => true
  | .error _ _ => true
  | _ => false

inductive Move where
  /-- any attachment changes the writer -/
  | change (c : WriterChange)
  /-- the task, up to its next step; the data of the frames come from elsewhere -/
  | connect
  /-- the probe ends: `writers.scope` returns the scope of before or another one, and the task subscribes -/
  | subscribe (scope : Option Scope)
  | select
  | list (e : Uuid) (clientVersion : Text) (serverVersion : Option Text) (sessions : List SessionSummary)
  | view
  | report
  | changed
  | incidental (frame : ServerFrame)
  | enter
  | hydrate
  | project (e : Uuid) (session : Text) (created : ℤ) (windows : List WindowSummary) (window : WindowProjection)
      (panes : List PaneProjection)
  | chunk (pane : Text) (index : ℕ) (final : Bool) (data : Text)
  | ready
  | subscribeWorkspace
  /-- the chooser is refreshed, or the workspace ends in the chooser -/
  | leave
  | quit
  | deliver

def Link.send (s : Link) (f : ServerFrame) (t : Task) : Link := { s with wire := s.wire ++ [f], task := t }

def isWriterState : ServerFrame → Bool
  | .writerState _ _ _ _ => true
  | _ => false

/-- what the page shows once the client hands a frame on -/
def AttachmentFrame.writerShown (shown : Option (WriterRole × Bool)) : AttachmentFrame → Option (WriterRole × Bool)
  | .writerState _ _ r a => some (r, a)
  | _ => shown

/-- the client takes the next frame -/
def Link.deliver (s : Link) : Link :=
  match s.wire with
  | [] => s
  | f :: rest =>
    if s.closed then s
    else
      match receive s.client f.json with
      | .closed => { s with closed := true }
      | .disposed => { s with closed := true }
      | .dropped c => { s with wire := rest, client := c, dropped := s.dropped || isWriterState f }
      | .delivered c frame => { s with wire := rest, client := c, shown := frame.writerShown s.shown }

/-- where a task can return to the chooser -/
def Task.leaves : Task → Bool
  | .waiting _ _ => true
  | .entering => true
  | .hydrating _ => true
  | _ => false

def Link.step (A : Attachment) (s : Link) : Move → Link
  | .change c => { s with scope := s.scope.apply c }
  | .connect => if s.task = .choosing then s.send (.phase .connecting) .probing else s
  | .subscribe scope =>
    if s.task = .probing then
      let scope := scope.getD s.scope
      { s with scope := scope, seen := scope.version, task := .subscribed }
    else s
  | .select => if s.task = .subscribed then s.send (.phase .selecting) .listing else s
  | .list e c v ss =>
    if s.task = .listing ∧ IsV4 e then s.send (.sessionList (jsonNumber A.connectionEpoch) e c v ss) (.reporting e false) else s
  | .view =>
    match s.task with
    | .reporting e w => { s with task := .viewed e w (s.scope.view A.me) }
    | _ => s
  | .report =>
    match s.task with
    | .viewed e w v => s.send (.writerState (jsonNumber A.connectionEpoch) e v.1 v.2) (.waiting e w)
    | _ => s
  | .changed =>
    match s.task with
    | .waiting e w => if s.seen = s.scope.version then s else { s with seen := s.scope.version, task := .reporting e w }
    | _ => s
  | .incidental f =>
    match s.task with
    | .waiting e w => if Incidental f then s.send f (.waiting e w) else s
    | _ => s
  | .enter =>
    match s.task with
    | .waiting _ false => { s with task := .entering }
    | _ => s
  | .hydrate =>
    match s.task with
    | .entering => s.send (.phase .connecting) (.hydrating false)
    | .waiting _ true => s.send (.phase .connecting) (.hydrating true)
    | _ => s
  | .project e session created ws w ps =>
    match s.task with
    | .hydrating again =>
      if IsV4 e then
        s.send (.projection (jsonNumber A.connectionEpoch) e session created ws w ps) (.installing e again)
      else s
    | _ => s
  | .chunk pane index final data =>
    match s.task with
    | .installing e again => s.send (.paneSnapshot e pane index final data) (.installing e again)
    | _ => s
  | .ready =>
    match s.task with
    | .installing e false => s.send (.phase .ready) (.entered e)
    | .installing e true => s.send (.phase .ready) (.waiting e true)
    | _ => s
  | .subscribeWorkspace =>
    match s.task with
    | .entered e => { s with seen := s.scope.version, task := .reporting e true }
    | _ => s
  | .leave => if s.task.leaves then { s with task := .choosing } else s
  | .quit => { s with task := .ended }
  | .deliver => s.deliver

/-! ## Behind the frames in flight -/

/-- the attachment epoch the client will hold behind the frames -/
def epochBehind (wire : List ServerFrame) (old : Option Text) : Option Text :=
  wire.foldl (fun o f => f.attachmentEpoch o) old

def connectionBehind (wire : List ServerFrame) (old : Option Text) : Option Text :=
  wire.foldl (fun o f => f.connectionEpoch o) old

def shownBehind (wire : List ServerFrame) (old : Option (WriterRole × Bool)) : Option (WriterRole × Bool) :=
  wire.foldl (fun o f => f.writerShown o) old

/-- every writer state among the frames carries the epochs the client will hold when it arrives -/
def InStep (A : Attachment) : List ServerFrame → Option Text → Option Text → Prop
  | [], _, _ => True
  | f :: rest, att, conn =>
    (∀ m e r a, f = .writerState m e r a →
      m = jsonNumber A.connectionEpoch ∧ IsV4 e ∧ conn = some m ∧ att = some (uuidText e)) ∧
      InStep A rest (f.attachmentEpoch att) (f.connectionEpoch conn)

variable {A : Attachment} {s : Link}

theorem inStep_append {wire : List ServerFrame} {f : ServerFrame} {att conn : Option Text} (h : InStep A wire att conn)
    (hf : ∀ m e r a, f = .writerState m e r a → m = jsonNumber A.connectionEpoch ∧ IsV4 e ∧
      connectionBehind wire conn = some m ∧ epochBehind wire att = some (uuidText e)) :
    InStep A (wire ++ [f]) att conn := by
  induction wire generalizing att conn with
  | nil => exact ⟨hf, trivial⟩
  | cons g rest ih => exact ⟨h.1, ih h.2 hf⟩

/-- the epoch the task reports under -/
def Task.epoch : Task → Option Uuid
  | .reporting e _ => some e
  | .viewed e _ _ => some e
  | .waiting e _ => some e
  | .installing e _ => some e
  | .entered e => some e
  | _ => none

/-- the session list of the chooser is sent -/
def Task.listed : Task → Bool
  | .choosing => false
  | .probing => false
  | .subscribed => false
  | .listing => false
  | .ended => false
  | _ => true

/-- the task has reported since it last marked a version as seen -/
def Task.reported : Task → Bool
  | .waiting _ _ => true
  | .hydrating again => again
  | .installing _ again => again
  | _ => false

structure Inv (A : Attachment) (s : Link) : Prop where
  clean : s.dropped = false
  stuck : s.closed = true → s.wire ≠ []
  seen : s.seen ≤ s.scope.version
  inStep : s.closed = false → InStep A s.wire s.client.attachmentEpoch s.client.connectionEpoch
  epoch : s.closed = false → ∀ e, s.task.epoch = some e →
    IsV4 e ∧ epochBehind s.wire s.client.attachmentEpoch = some (uuidText e)
  connection : s.closed = false → s.task.listed = true →
    connectionBehind s.wire s.client.connectionEpoch = some (jsonNumber A.connectionEpoch)
  viewed : ∀ e w v, s.task = .viewed e w v → s.seen = s.scope.version → v = s.scope.view A.me
  reported : s.closed = false → s.task.reported = true → s.seen = s.scope.version →
    shownBehind s.wire s.shown = some (s.scope.view A.me)

theorem init_inv (scope : Scope) : Inv A (Link.init scope) where
  clean := rfl
  stuck := by intro h; cases h
  seen := Nat.zero_le _
  inStep := fun _ => trivial
  epoch := by intro _ e h; cases h
  connection := by intro _ h; cases h
  viewed := by intro e w v h; cases h
  reported := by intro _ h; cases h

theorem behind_snoc {α : Type} (g : ServerFrame → α → α) (wire : List ServerFrame) (f : ServerFrame) (a : α) :
    (wire ++ [f]).foldl (fun o f => g f o) a = g f (wire.foldl (fun o f => g f o) a) := by
  rw [List.foldl_append]
  rfl

/-- **Sending** a frame that is no writer state: the epochs and the report behind the frames follow it. -/
theorem Inv.send (h : Inv A s) {f : ServerFrame} {t : Task} (hw : ∀ m e r a, f ≠ .writerState m e r a)
    (hepoch : s.closed = false → ∀ e, t.epoch = some e →
      IsV4 e ∧ f.attachmentEpoch (epochBehind s.wire s.client.attachmentEpoch) = some (uuidText e))
    (hconn : s.closed = false → t.listed = true →
      f.connectionEpoch (connectionBehind s.wire s.client.connectionEpoch) = some (jsonNumber A.connectionEpoch))
    (hviewed : ∀ e w v, t ≠ .viewed e w v)
    (hreported : t.reported = true → s.task.reported = true) : Inv A (s.send f t) where
  clean := h.clean
  stuck := by
    intro _
    simp [Link.send]
  seen := h.seen
  inStep := fun hc => inStep_append (h.inStep hc) fun m e r a hf => (hw m e r a hf).elim
  epoch := by
    intro hc e he
    obtain ⟨h1, h2⟩ := hepoch hc e he
    exact ⟨h1, (behind_snoc ServerFrame.attachmentEpoch _ _ _).trans h2⟩
  connection := fun hc hl => (behind_snoc ServerFrame.connectionEpoch _ _ _).trans (hconn hc hl)
  viewed := fun e w v he => (hviewed e w v he).elim
  reported := by
    intro hc hr hs
    refine (behind_snoc ServerFrame.writerShown _ _ _).trans ?_
    have hold := h.reported hc (hreported hr) hs
    show f.writerShown (shownBehind s.wire s.shown) = some (s.scope.view A.me)
    rw [hold]
    cases f <;> first | rfl | exact absurd rfl (hw _ _ _ _)

/-- a step of the task that sends nothing -/
theorem Inv.move (h : Inv A s) {t : Task} (hlisted : t.listed = true → s.task.listed = true)
    (hepoch : ∀ e, t.epoch = some e → s.task.epoch = some e)
    (hviewed : ∀ e w v, t = .viewed e w v → v = s.scope.view A.me) (hreported : t.reported = true → s.task.reported = true) :
    Inv A { s with task := t } where
  clean := h.clean
  stuck := h.stuck
  seen := h.seen
  inStep := h.inStep
  epoch := fun hc e he => h.epoch hc e (hepoch e he)
  connection := fun hc hl => h.connection hc (hlisted hl)
  viewed := fun e w v he _ => hviewed e w v he
  reported := fun hc hr => h.reported hc (hreported hr)

/-- marking the present version as seen before a new report -/
theorem Inv.mark (h : Inv A s) {e : Uuid} {w : Bool} (he : s.task.epoch = some e) (hl : s.task.listed = true) :
    Inv A { s with seen := s.scope.version, task := .reporting e w } where
  clean := h.clean
  stuck := h.stuck
  seen := le_rfl
  inStep := h.inStep
  epoch := by
    intro hc e' he'
    exact h.epoch hc e' (he.trans he')
  connection := fun hc _ => h.connection hc hl
  viewed := by intro _ _ _ h; cases h
  reported := by intro _ h; cases h

theorem size_connectionEpoch (A : Attachment) : (Json.string (jsonNumber A.connectionEpoch)).size ≤ 21 := by
  have hpos := A.positive
  have hmax := A.bounded
  have hall : ∀ c ∈ Nat.toDigits 10 A.connectionEpoch.natAbs, Plain c := fun c hc =>
    plain_of_isDigit (Nat.isDigit_of_mem_toDigits (by omega) (by omega) hc)
  have hlen : (Nat.toDigits 10 A.connectionEpoch.natAbs).length ≤ 19 :=
    (Nat.length_toDigits_le_iff (by omega) (by omega)).2 (by omega)
  rw [jsonNumber, if_neg (by omega), size_string_plain hall]
  omega

/-- a change bumps the version or changes nothing -/
theorem Scope.apply_cases (s : Scope) (c : WriterChange) : s.apply c = s ∨ (s.apply c).version = s.version + 1 := by
  cases c with
  | setCurrent a => exact Or.inr rfl
  | clear =>
    simp only [Scope.apply]
    split_ifs
    · exact Or.inr rfl
    · exact Or.inl rfl
  | clearIfCurrent a =>
    simp only [Scope.apply]
    split_ifs
    · exact Or.inr rfl
    · exact Or.inl rfl

theorem Inv.change (h : Inv A s) (c : WriterChange) : Inv A { s with scope := s.scope.apply c } := by
  rcases s.scope.apply_cases c with he | he
  · rw [he]
    exact h
  · -- the new version is unseen
    have hlt : s.seen < (s.scope.apply c).version := by
      have := h.seen
      omega
    exact ⟨h.clean, h.stuck, hlt.le, h.inStep, h.epoch, h.connection, fun _ _ _ _ hs => (hlt.ne hs).elim,
      fun _ _ hs => (hlt.ne hs).elim⟩

/-- **Reporting.** The view read is sent under the epoch of the task. -/
theorem Inv.report (h : Inv A s) {e : Uuid} {w : Bool} {v : WriterRole × Bool} (ht : s.task = .viewed e w v) :
    Inv A (s.send (.writerState (jsonNumber A.connectionEpoch) e v.1 v.2) (.waiting e w)) where
  clean := h.clean
  stuck := by
    intro _
    simp [Link.send]
  seen := h.seen
  inStep := by
    intro hc
    refine inStep_append (h.inStep hc) fun m e' r a hf => ?_
    cases hf
    obtain ⟨h1, h2⟩ := h.epoch hc e (by rw [ht]; rfl)
    exact ⟨rfl, h1, h.connection hc (by rw [ht]; rfl), h2⟩
  epoch := by
    intro hc e' he
    cases he
    obtain ⟨h1, h2⟩ := h.epoch hc e (by rw [ht]; rfl)
    exact ⟨h1, (behind_snoc ServerFrame.attachmentEpoch _ _ _).trans h2⟩
  connection := fun hc _ => (behind_snoc ServerFrame.connectionEpoch _ _ _).trans (h.connection hc (by rw [ht]; rfl))
  viewed := by intro _ _ _ he; cases he
  reported := by
    intro _ _ hs
    refine (behind_snoc ServerFrame.writerShown _ _ _).trans ?_
    show some (v.1, v.2) = some (s.scope.view A.me)
    rw [← h.viewed e w v ht hs]

theorem deliver_cons {f : ServerFrame} {rest : List ServerFrame} (hw : s.wire = f :: rest) (hc : s.closed = false) :
    s.deliver =
      match receive s.client f.json with
      | .closed => { s with closed := true }
      | .disposed => { s with closed := true }
      | .dropped c => { s with wire := rest, client := c, dropped := s.dropped || isWriterState f }
      | .delivered c frame => { s with wire := rest, client := c, shown := frame.writerShown s.shown } := by
  simp only [Link.deliver, hw, hc, Bool.false_eq_true, if_false]

/-- a writer state in step is handed on -/
theorem receive_inStep {f : ServerFrame} {c : Client}
    (hf : ∀ m e r a, f = .writerState m e r a →
      m = jsonNumber A.connectionEpoch ∧ IsV4 e ∧ c.connectionEpoch = some m ∧ c.attachmentEpoch = some (uuidText e))
    {m : Text} {e : Uuid} {r : WriterRole} {a : Bool} (h : f = .writerState m e r a) :
    receive c f.json = .delivered c (.writerState m (uuidText e) r a) := by
  obtain ⟨rfl, h2, h3, h4⟩ := hf m e r a h
  rw [h]
  exact receive_writerState (matchesConnectionEpoch_jsonNumber A.positive A.bounded) h2 (size_connectionEpoch A) h3 h4 r a

/-- the frame is taken: what lay behind the frames in flight lies behind the rest -/
theorem Inv.taken (h : Inv A s) (hc : s.closed = false) {f : ServerFrame} {rest : List ServerFrame} (hw : s.wire = f :: rest)
    {c : Client} {shown : Option (WriterRole × Bool)} {dropped : Bool} (hclean : dropped = false)
    (hatt : c.attachmentEpoch = f.attachmentEpoch s.client.attachmentEpoch)
    (hconn : c.connectionEpoch = f.connectionEpoch s.client.connectionEpoch) (hshown : shown = f.writerShown s.shown) :
    Inv A { s with wire := rest, client := c, shown := shown, dropped := dropped } where
  clean := hclean
  stuck := by
    intro h
    rw [hc] at h
    cases h
  seen := h.seen
  inStep := by
    intro _
    have hin := h.inStep hc
    rw [hw] at hin
    show InStep A rest c.attachmentEpoch c.connectionEpoch
    rw [hatt, hconn]
    exact hin.2
  epoch := by
    intro _ e he
    have hold := h.epoch hc e he
    rw [hw] at hold
    show IsV4 e ∧ epochBehind rest c.attachmentEpoch = some (uuidText e)
    rw [hatt]
    exact hold
  connection := by
    intro _ hl
    have hold := h.connection hc hl
    rw [hw] at hold
    show connectionBehind rest c.connectionEpoch = some (jsonNumber A.connectionEpoch)
    rw [hconn]
    exact hold
  viewed := h.viewed
  reported := by
    intro _ hr hs
    have hold := h.reported hc hr hs
    rw [hw] at hold
    show shownBehind rest shown = some (s.scope.view A.me)
    rw [hshown]
    exact hold

/-- **Delivery.** A frame that is not refused leaves the client with the epochs behind it, and a writer state is shown. -/
theorem Inv.deliver (h : Inv A s) : Inv A s.deliver := by
  cases hw : s.wire with
  | nil =>
    have hsame : s.deliver = s := by simp [Link.deliver, hw]
    rw [hsame]
    exact h
  | cons f rest =>
    cases hc : s.closed with
    | true =>
      have hsame : s.deliver = s := by simp [Link.deliver, hw, hc]
      rw [hsame]
      exact h
    | false =>
      have hin := h.inStep hc
      rw [hw] at hin
      have hclosed : Inv A { s with closed := true } :=
        ⟨h.clean, fun _ => by rw [hw]; simp, h.seen, by simp, by simp, by simp, h.viewed, by simp⟩
      rw [deliver_cons hw hc]
      cases hr : receive s.client f.json with
      | closed => exact hclosed
      | disposed => exact hclosed
      | dropped c =>
        obtain ⟨hatt, hconn, -⟩ := receive_epochs (Or.inl hr)
        have hnot : ∀ m e r a, f ≠ .writerState m e r a := by
          intro m e r a hf
          rw [receive_inStep hin.1 hf] at hr
          cases hr
        refine h.taken hc hw ?_ hatt hconn ?_
        · cases f <;> first | exact absurd rfl (hnot _ _ _ _) | simp [isWriterState, h.clean]
        · cases f <;> first | rfl | exact absurd rfl (hnot _ _ _ _)
      | delivered c g =>
        obtain ⟨hatt, hconn, hm⟩ := receive_epochs (Or.inr ⟨g, hr⟩)
        have hmirror := hm g hr
        refine h.taken hc hw h.clean hatt hconn ?_
        cases f <;> cases g <;> simp only [Mirrors] at hmirror <;>
          first | rfl | (obtain ⟨-, -, rfl, rfl⟩ := hmirror; rfl)

/-! ## Runs -/

/-- the first projection of a workspace, and every later one, gives the task its new epoch -/
theorem step_inv (m : Move) (h : Inv A s) : Inv A (s.step A m) := by
  cases m with
  | change c => exact h.change c
  | connect =>
    simp only [Link.step]
    split_ifs with ht
    · exact h.send (by simp) (by simp [Task.epoch]) (by simp [Task.listed]) (by simp) (by simp [Task.reported])
    · exact h
  | subscribe scope =>
    simp only [Link.step]
    split_ifs with ht
    · exact ⟨h.clean, h.stuck, le_rfl, h.inStep, by simp [Task.epoch], by simp [Task.listed], by simp, by simp [Task.reported]⟩
    · exact h
  | select =>
    simp only [Link.step]
    split_ifs with ht
    · exact h.send (by simp) (by simp [Task.epoch]) (by simp [Task.listed]) (by simp) (by simp [Task.reported])
    · exact h
  | list e c v ss =>
    simp only [Link.step]
    split_ifs with ht
    · refine h.send (by simp) (fun _ e' he => ?_) (fun _ _ => rfl) (by simp) (by simp [Task.reported])
      cases he
      exact ⟨ht.2, rfl⟩
    · exact h
  | view =>
    simp only [Link.step]
    split
    · rename_i e w ht
      refine h.move (fun _ => by rw [ht]; rfl) (fun e' he => by rw [ht]; exact he) (fun _ _ v hv => ?_) (by simp [Task.reported])
      cases hv
      rfl
    · exact h
  | report =>
    simp only [Link.step]
    split
    · rename_i e w v ht
      exact h.report ht
    · exact h
  | changed =>
    simp only [Link.step]
    split
    · rename_i e w ht
      split_ifs with hs
      · exact h
      · exact h.mark (by rw [ht]; rfl) (by rw [ht]; rfl)
    · exact h
  | incidental f =>
    simp only [Link.step]
    split
    · rename_i e w ht
      split_ifs with hf
      · have hold := fun hc => h.epoch hc e (by rw [ht]; rfl)
        have hconn := fun hc => h.connection hc (by rw [ht]; rfl)
        refine h.send (fun _ _ _ _ he => by rw [he] at hf; cases hf) (fun hc e' he => ?_) (fun hc _ => ?_) (by simp)
          (fun _ => by rw [ht]; rfl)
        · cases he
          refine ⟨(hold hc).1, ?_⟩
          rw [(hold hc).2]
          cases f <;> first | rfl | cases hf
        · rw [hconn hc]
          cases f <;> first | rfl | cases hf
      · exact h
    · exact h
  | enter =>
    simp only [Link.step]
    split
    · rename_i e ht
      exact h.move (fun _ => by rw [ht]; rfl) (by simp [Task.epoch]) (by simp) (by simp [Task.reported])
    · exact h
  | hydrate =>
    simp only [Link.step]
    split
    · rename_i ht
      exact h.send (by simp) (by simp [Task.epoch]) (fun hc _ => h.connection hc (by rw [ht]; rfl)) (by simp)
        (by simp [Task.reported])
    · rename_i e ht
      exact h.send (by simp) (by simp [Task.epoch]) (fun hc _ => h.connection hc (by rw [ht]; rfl)) (by simp)
        (fun _ => by rw [ht]; rfl)
    · exact h
  | project e session created ws w ps =>
    simp only [Link.step]
    split
    · rename_i again ht
      split_ifs with he
      · refine h.send (by simp) (fun _ e' he' => ?_) (fun hc _ => h.connection hc (by rw [ht]; rfl)) (by simp)
          (fun hr => by rw [ht]; exact hr)
        cases he'
        exact ⟨he, rfl⟩
      · exact h
    · exact h
  | chunk pane index final data =>
    simp only [Link.step]
    split
    · rename_i e again ht
      exact h.send (by simp) (fun hc e' he => h.epoch hc e' (by rw [ht]; exact he))
        (fun hc _ => h.connection hc (by rw [ht]; rfl)) (by simp) (fun hr => by rw [ht]; exact hr)
    · exact h
  | ready =>
    simp only [Link.step]
    split
    · rename_i e ht
      exact h.send (by simp) (fun hc e' he => h.epoch hc e' (by rw [ht]; exact he))
        (fun hc _ => h.connection hc (by rw [ht]; rfl)) (by simp) (by simp [Task.reported])
    · rename_i e ht
      exact h.send (by simp) (fun hc e' he => h.epoch hc e' (by rw [ht]; exact he))
        (fun hc _ => h.connection hc (by rw [ht]; rfl)) (by simp) (fun _ => by rw [ht]; rfl)
    · exact h
  | subscribeWorkspace =>
    simp only [Link.step]
    split
    · rename_i e ht
      exact h.mark (by rw [ht]; rfl) (by rw [ht]; rfl)
    · exact h
  | leave =>
    simp only [Link.step]
    split_ifs with ht
    · exact h.move (by simp [Task.listed]) (by simp [Task.epoch]) (by simp) (by simp [Task.reported])
    · exact h
  | quit => exact h.move (by simp [Task.listed]) (by simp [Task.epoch]) (by simp) (by simp [Task.reported])
  | deliver => exact h.deliver

/-- **Agreement with the Browser.** Over every schedule no writer state is dropped, and once the task waits in its select
loop with nothing unseen and every frame taken, the last writer state the client handed on is the writer of the scope. -/
theorem writer_state_agreement (A : Attachment) (scope : Scope) (moves : List Move) :
    (Machine.run (Link.step A) (Link.init scope) moves).dropped = false ∧
      ∀ e w, (Machine.run (Link.step A) (Link.init scope) moves).task = .waiting e w →
        (Machine.run (Link.step A) (Link.init scope) moves).seen =
          (Machine.run (Link.step A) (Link.init scope) moves).scope.version →
        (Machine.run (Link.step A) (Link.init scope) moves).wire = [] →
        ∃ role available, (Machine.run (Link.step A) (Link.init scope) moves).shown = some (role, available) ∧
          (role = .writer ↔ (Machine.run (Link.step A) (Link.init scope) moves).scope.current = some A.me) ∧
          (available = true ↔ (Machine.run (Link.step A) (Link.init scope) moves).scope.current = none) := by
  have h : Inv A (Machine.run (Link.step A) (Link.init scope) moves) :=
    Machine.run_inv (fun _ m => step_inv m) _ moves (init_inv scope)
  generalize Machine.run (Link.step A) (Link.init scope) moves = s at h ⊢
  refine ⟨h.clean, fun e w ht hs hw => ?_⟩
  have hopen : s.closed = false := by
    cases hc : s.closed with
    | false => rfl
    | true => exact (h.stuck hc hw).elim
  have hshown := h.reported hopen (by rw [ht]; rfl) hs
  rw [hw] at hshown
  refine ⟨_, _, hshown, ?_, ?_⟩
  · show (if s.scope.current = some A.me then WriterRole.writer else .observer) = .writer ↔ _
    split_ifs with hme
    · simp [hme]
    · simp [hme]
  · exact Option.isNone_iff_eq_none

/-- the attachment that takes the lease below -/
def holder : Attachment := ⟨0x00000000000040008000000000000001#128, 7, by decide, by decide⟩

/-- the selection epoch of its chooser -/
def holderChooser : Uuid := 0x00000000000040008000000000000002#128

/-- the chooser reports, then the attachment becomes the writer -/
def holderMoves : List Move :=
  [.connect, .subscribe none, .select, .list holderChooser "tmux 3.4".toList none [], .view, .report,
    .change (.setCurrent holder.me), .changed, .view, .report, .deliver, .deliver, .deliver, .deliver, .deliver]

theorem writer_state_agreement_holder :
    ∃ role available, (Machine.run (Link.step holder) (Link.init ⟨none, 0⟩) holderMoves).shown = some (role, available) ∧
      (role = .writer ↔ (Machine.run (Link.step holder) (Link.init ⟨none, 0⟩) holderMoves).scope.current = some holder.me) ∧
      (available = true ↔ (Machine.run (Link.step holder) (Link.init ⟨none, 0⟩) holderMoves).scope.current = none) :=
  (writer_state_agreement holder ⟨none, 0⟩ holderMoves).2 holderChooser false (by decide +kernel) (by decide +kernel)
    (by decide +kernel)

end OwlMux.Browser
