/-
A projection on its way to the Browser: the frames of `install_projection_inner` (`owlmux-server/src/attachment.rs`) for a
hydrated workspace, and what the client makes of them.

Two implementations check the same data. The Server checks what tmux answers, piece by piece, while it hydrates
(`Tmux/Result.lean`); the Browser checks the frames again, with limits, grammars and a sequence automaton of its own. A text
that the Server's frame bound lets through must not be refused by the Browser.

Results:
- `parse_projection`: the projection of a hydrated workspace is read back as it was sent;
- `snapshots_run`: the chunks of all snapshots, in order, complete the pending projection;
- `projection_transfer`: the whole transfer, and the output that follows it.
-/
import Mathlib.Tactic
import OwlMux.Browser.Client
import OwlMux.Tmux.Queue
import OwlMux.Tmux.Result

namespace OwlMux.Browser

open OwlMux.Relay (Text Uuid byteLen uuidText jsonNumber)
open OwlMux.Tmux (Bytes WindowSummary WindowProjection PaneProjection PaneSnapshot WorkspaceProjection WindowsOk PanesFit
  Labelled SnapshotsOk Safe chunks chunks_flatten chunks_length attachmentMaxDimension attachmentMaxGridCells
  attachmentMaxPanes attachmentMaxPaneSnapshotBytes attachmentMaxProjectionBytes attachmentMaxTerminalChunkBytes
  maxWindowNameBytes maxTextBytes maxLayoutBytes maxWindows)

/-! ## The Server's side -/

structure WorkspaceState where
  epoch : Uuid
  connectionEpoch : ℤ
  windows : List Text
  visiblePanes : List Text
  activePane : Text
deriving DecidableEq, Repr

/-- the state `install_projection_inner` returns; without an active pane it fails -/
def workspaceState (connectionEpoch : ℤ) (e : Uuid) (w : WorkspaceProjection) : Option WorkspaceState := do
  let active ← w.panes.find? PaneProjection.active
  return ⟨e, connectionEpoch, w.windows.map WindowSummary.windowId, w.panes.map PaneProjection.paneId, active.paneId⟩

def projectionFrame (connectionEpoch : ℤ) (e : Uuid) (session : Text) (created : ℤ) (w : WorkspaceProjection) : ServerFrame :=
  .projection (jsonNumber connectionEpoch) e session created w.windows w.window w.panes

/-- chunks from an index on; `last` is the index of the last chunk -/
def chunkFrames (e : Uuid) (pane : Text) (last start : ℕ) (cs : List Bytes) : List ServerFrame :=
  (cs.zipIdx start).map fun c => .paneSnapshot e pane c.2 (c.2 == last) (Base64Url.encode c.1)

/-- an empty snapshot is one empty chunk -/
def snapshotFrames (e : Uuid) (snapshot : PaneSnapshot) : List ServerFrame :=
  match chunks attachmentMaxTerminalChunkBytes snapshot.content with
  | [] => [.paneSnapshot e snapshot.paneId 0 true []]
  | c :: cs => chunkFrames e snapshot.paneId cs.length 0 (c :: cs)

/-- the frames of `install_projection_inner`, in order -/
def installFrames (connectionEpoch : ℤ) (e : Uuid) (session : Text) (created : ℤ) (w : WorkspaceProjection) :
    List ServerFrame :=
  .phase .connecting :: projectionFrame connectionEpoch e session created w ::
    (w.snapshots.flatMap (snapshotFrames e) ++ [.phase .ready])

/-! ## Texts and numbers that pass -/

theorem isSafeText_of_safe {maximum : ℕ} {t : Text} (h : Safe maximum t) :
    isSafeText maximum true (some (.string t)) = some t := by
  have hall : t.all isSafeCharacter = true := by
    rw [List.all_eq_true]
    intro c hc
    have hctl : Tmux.isControl c = false := by
      have := h.2
      rw [List.any_eq_false] at this
      simpa using this c hc
    simp only [Tmux.isControl, Bool.or_eq_false_iff, Bool.and_eq_false_iff, decide_eq_false_iff_not] at hctl
    simp only [isSafeCharacter, Bool.and_eq_true, decide_eq_true_eq]
    omega
  simp [isSafeText, h.1, hall]

theorem isSafeText_layout {t : Text} (h : t ≠ [] ∧ byteLen t ≤ maxLayoutBytes ∧ ∀ c ∈ t, '!' ≤ c ∧ c ≤ '~') :
    isSafeText 4096 false (some (.string t)) = some t := by
  obtain ⟨hne, hlen, hc⟩ := h
  have hall : t.all isSafeCharacter = true := by
    rw [List.all_eq_true]
    intro c hm
    obtain ⟨h1, h2⟩ := hc c hm
    have h33 : 33 ≤ c.toNat := h1
    have h126 : c.toNat ≤ 126 := h2
    simp only [isSafeCharacter, Bool.and_eq_true, decide_eq_true_eq]
    omega
  have hlen' : byteLen t ≤ 4096 := hlen
  have hpos := List.length_pos_of_ne_nil hne
  simp [isSafeText, hpos, hlen', hall]

theorem isBoundedInteger_nat {n minimum maximum : ℕ} (h1 : minimum ≤ n) (h2 : n ≤ maximum) (h3 : maximum ≤ 2 ^ 53 - 1) :
    isBoundedInteger minimum maximum (some (nat n)) = some (n : ℤ) := by
  refine if_pos ⟨?_, ?_, ?_, ?_⟩
  · simp only [maxSafeInteger]
    omega
  · simp only [maxSafeInteger]
    omega
  · exact_mod_cast h1
  · exact_mod_cast h2

theorem isNumericId_string {mark : Char} {t : Text} (h : Tmux.isNumericId mark t = true) :
    isNumericId mark (some (.string t)) = some t := if_pos (matchesNumericId_of h)

/-- every item is read back -/
theorem mapM_map {α β : Type} {f : α → Json} {g : Json → Option β} {r : α → β} {l : List α}
    (h : ∀ a ∈ l, g (f a) = some (r a)) : (l.map f).mapM g = some (l.map r) := by
  induction l with
  | nil => rfl
  | cons a l ih =>
    rw [List.map_cons, List.mapM_cons, h a List.mem_cons_self, ih fun b hb => h b (List.mem_cons_of_mem _ hb)]
    rfl

/-! ## The projection is read back -/

def readWindowSummary (w : WindowSummary) : AttachmentWindowSummary := ⟨w.windowId, w.name, w.active⟩
def readWindow (w : WindowProjection) : AttachmentWindow := ⟨w.windowId, w.name, w.width, w.height, w.layout⟩

def readPane (p : PaneProjection) : AttachmentPane :=
  ⟨p.paneId, p.active, p.width, p.height, p.left, p.top, p.title, p.currentCommand⟩

theorem parse_windowSummary {w : WindowSummary} (h : w.Ok) : parseWindowSummary (windowSummaryJson w) = some (readWindowSummary w) := by
  have hkeys : hasKeys [("window_id", .string w.windowId), ("name", .string w.name), ("active", .bool w.active)]
      ["active", "name", "window_id"] = true := by
    show List.isPerm ["window_id", "name", "active"] _ = true
    rfl
  have hname : isSafeText 128 true (some (.string w.name)) = some w.name := isSafeText_of_safe h.name
  simp [parseWindowSummary, windowSummaryJson, isRecord, hkeys, isNumericId_string h.id, hname, isBoolean, readWindowSummary]

theorem validGrid_le {width height : ℕ} (h : Tmux.validGrid width height = true) :
    (0 < width ∧ width ≤ attachmentMaxDimension) ∧ (0 < height ∧ height ≤ attachmentMaxDimension) ∧
      width * height ≤ attachmentMaxGridCells := by
  simpa [Tmux.validGrid, Bool.and_eq_true, and_assoc, Nat.pos_iff_ne_zero] using h

theorem parse_window {w : WindowProjection} (h : w.Ok) : parseWindow (windowJson w) = some (readWindow w) := by
  obtain ⟨hw, hh, hcells⟩ := validGrid_le h.grid
  have hkeys : hasKeys [("window_id", .string w.windowId), ("name", .string w.name), ("width", nat w.width),
      ("height", nat w.height), ("layout", .string w.layout)] ["height", "layout", "name", "width", "window_id"] = true := by
    show List.isPerm ["window_id", "name", "width", "height", "layout"] _ = true
    rfl
  have hname : isSafeText 128 true (some (.string w.name)) = some w.name := isSafeText_of_safe h.name
  have hwidth : isBoundedInteger 1 attachmentMaxDimension (some (nat w.width)) = some (w.width : ℤ) :=
    isBoundedInteger_nat hw.1 hw.2 (by decide)
  have hheight : isBoundedInteger 1 attachmentMaxDimension (some (nat w.height)) = some (w.height : ℤ) :=
    isBoundedInteger_nat hh.1 hh.2 (by decide)
  have hgrid : (w.width : ℤ) * w.height ≤ attachmentMaxGridCells := by exact_mod_cast hcells
  simp [parseWindow, windowJson, isRecord, hkeys, isNumericId_string h.id, hname, hwidth, hheight, hgrid,
    isSafeText_layout h.layout, readWindow]

theorem parse_pane {window : WindowProjection} {p : PaneProjection} (h : p.Fits window) (hl : Labelled p) :
    parsePane (readWindow window) (paneJson p) = some (readPane p) := by
  have hkeys : hasKeys [("pane_id", .string p.paneId), ("active", .bool p.active), ("width", nat p.width),
      ("height", nat p.height), ("left", nat p.left), ("top", nat p.top), ("title", .string p.title),
      ("current_command", .string p.currentCommand)]
      ["active", "current_command", "height", "left", "pane_id", "title", "top", "width"] = true := by
    show List.isPerm ["pane_id", "active", "width", "height", "left", "top", "title", "current_command"] _ = true
    rfl
  have htitle : isSafeText 256 true (some (.string p.title)) = some p.title := isSafeText_of_safe hl.title
  have hcommand : isSafeText 256 true (some (.string p.currentCommand)) = some p.currentCommand :=
    isSafeText_of_safe hl.currentCommand
  have hwidth : isBoundedInteger 1 attachmentMaxDimension (some (nat p.width)) = some (p.width : ℤ) :=
    isBoundedInteger_nat h.width.1 h.width.2 (by decide)
  have hheight : isBoundedInteger 1 attachmentMaxDimension (some (nat p.height)) = some (p.height : ℤ) :=
    isBoundedInteger_nat h.height.1 h.height.2 (by decide)
  have hcoordinate : ∀ n : ℕ, n < attachmentMaxDimension →
      isBoundedInteger 0 ((attachmentMaxDimension : ℤ) - 1) (some (nat n)) = some (n : ℤ) := by
    intro n hn
    exact @isBoundedInteger_nat n 0 9999 (Nat.zero_le n) (Nat.le_of_lt_succ hn) (by decide)
  have hinside : (p.left : ℤ) + p.width ≤ (readWindow window).width ∧ (p.top : ℤ) + p.height ≤ (readWindow window).height := by
    constructor
    · show (p.left : ℤ) + p.width ≤ window.width
      exact_mod_cast h.inside.1
    · show (p.top : ℤ) + p.height ≤ window.height
      exact_mod_cast h.inside.2
  simp [parsePane, paneJson, isRecord, hkeys, isNumericId_string h.id, isBoolean, hwidth, hheight, hcoordinate _ h.origin.1,
    hcoordinate _ h.origin.2, hinside, htitle, hcommand, readPane]

/-- the active window of the list is the window shown -/
theorem any_of_activeWindowIs {windows : List WindowSummary} {window : WindowProjection}
    (h : Tmux.activeWindowIs windows window = true) :
    (windows.any fun w => w.active && w.windowId = window.windowId) = true := by
  unfold Tmux.activeWindowIs at h
  split at h
  · rename_i x hx
    have hid : x.windowId = window.windowId := by simpa using h
    exact List.any_eq_true.2 ⟨x, List.mem_of_find?_eq_some hx, by simp [List.find?_some hx, hid]⟩
  · cases h

/-- the frame the client reads -/
def readProjection (connectionEpoch : ℤ) (e : Uuid) (session : Text) (created : ℤ) (w : WorkspaceProjection) : AttachmentFrame :=
  .projection (jsonNumber connectionEpoch) (uuidText e) session created (w.windows.map readWindowSummary) (readWindow w.window)
    (w.panes.map readPane)

/-- **The projection** of a hydrated workspace is read back as it was sent. -/
theorem parse_projection {session : Text} {created : ℤ} {w : WorkspaceProjection} (h : w.Ok session created)
    (hcreated : created ≤ 2 ^ 53 - 1) {n : ℤ} (hpos : 0 < n) (hmax : n < 2 ^ 63) {e : Uuid} (he : IsV4 e) :
    parseAttachmentFrame (projectionFrame n e session created w).json = some (readProjection n e session created w) := by
  have hkeys : hasKeys [("type", lit "workspace.projection"), ("machine_connection_epoch", .string (jsonNumber n)),
      ("workspace_epoch", uuid e), ("session_id", .string session), ("session_created", .number created),
      ("windows", .array (w.windows.map windowSummaryJson)), ("window", windowJson w.window),
      ("panes", .array (w.panes.map paneJson))]
      ["machine_connection_epoch", "panes", "session_created", "session_id", "type", "window", "windows",
        "workspace_epoch"] = true := by
    show List.isPerm ["type", "machine_connection_epoch", "workspace_epoch", "session_id", "session_created", "windows",
      "window", "panes"] _ = true
    rfl
  have hepoch : isConnectionEpoch (some (.string (jsonNumber n))) = some (jsonNumber n) :=
    if_pos (matchesConnectionEpoch_jsonNumber hpos hmax)
  have hworkspace : isUuid (some (uuid e)) = some (uuidText e) := if_pos (matchesUuid_of_isV4 he)
  have hsession : isNumericId '$' (some (.string session)) = some session := isNumericId_string h.session
  have hcreated' : isBoundedInteger 1 maxSafeInteger (some (.number created)) = some created := by
    have hpositive := h.created
    have hsafe : created ≤ maxSafeInteger := hcreated
    exact if_pos ⟨hsafe, by simp only [maxSafeInteger]; omega, hpositive, hsafe⟩
  have hwindows : (w.windows.map windowSummaryJson).mapM parseWindowSummary = some (w.windows.map readWindowSummary) :=
    mapM_map fun x hx => parse_windowSummary (h.windows.each x hx)
  have hpanes : (w.panes.map paneJson).mapM (parsePane (readWindow w.window)) = some (w.panes.map readPane) :=
    mapM_map fun p hp => parse_pane (h.panes.each p hp) (h.labels p hp)
  -- the checks of the lists, as the parser makes them
  have hwindowCount : (!(w.windows.map windowSummaryJson).isEmpty && decide ((w.windows.map windowSummaryJson).length ≤ 128)) = true := by
    have hlen : 0 < w.windows.length ∧ w.windows.length ≤ 128 := h.windows.length
    simpa [List.length_pos_iff] using hlen
  have hpaneCount : (!(w.panes.map paneJson).isEmpty && decide ((w.panes.map paneJson).length ≤ attachmentMaxPanes)) = true := by
    have hlen := h.panes.length
    simpa [List.length_pos_iff] using hlen
  have hwindowIds : distinct ((w.windows.map readWindowSummary).map AttachmentWindowSummary.windowId) = true := by
    rw [distinct, decide_eq_true_eq, List.map_map]
    exact h.windows.nodup
  have hpaneIds : distinct ((w.panes.map readPane).map AttachmentPane.paneId) = true := by
    rw [distinct, decide_eq_true_eq, List.map_map]
    exact h.panes.nodup
  have hactiveWindow : (decide (((w.windows.map readWindowSummary).filter AttachmentWindowSummary.active).length = 1) &&
      (w.windows.map readWindowSummary).any fun x => x.active && x.windowId = (readWindow w.window).windowId) = true := by
    rw [Bool.and_eq_true, decide_eq_true_eq, List.filter_map, List.length_map, List.any_map]
    exact ⟨h.windows.active, any_of_activeWindowIs h.current⟩
  have hactivePane : (decide (((w.panes.map readPane).filter AttachmentPane.active).length = 1) &&
      decide (((w.panes.map readPane).map fun p => p.width * p.height).sum ≤ (attachmentMaxGridCells : ℤ))) = true := by
    have hsum : ((w.panes.map readPane).map fun p => p.width * p.height).sum =
        (((w.panes.map fun p => p.width * p.height).sum : ℕ) : ℤ) := by
      rw [List.map_map, Nat.cast_list_sum, List.map_map]
      refine congrArg List.sum (List.map_congr_left fun p _ => ?_)
      simp [readPane]
    rw [hsum, Bool.and_eq_true, decide_eq_true_eq, decide_eq_true_eq, List.filter_map, List.length_map]
    exact ⟨h.panes.active, by exact_mod_cast h.panes.cells⟩
  rw [projectionFrame, ServerFrame.json, parse_tag, parseTagged_projection, parseProjection, hkeys]
  simp only [Record.get_cons, String.reduceEq, reduceIte, hepoch, hworkspace, hsession, hcreated', isArray, Option.bind_some,
    parse_window h.window, guard_true, Option.bind_eq_bind, hwindowCount, hpaneCount, hwindows, hpanes, hwindowIds, hpaneIds,
    hactiveWindow, hactivePane]
  rfl

/-! ## A client that takes frame after frame -/

/-- the frames handed on, unless one of the frames closes the connection -/
def receiveAll (c : Client) : List ServerFrame → Option (Client × List AttachmentFrame)
  | [] => some (c, [])
  | f :: fs =>
    match receive c f.json with
    | .closed => none
    | .disposed => none
    | .dropped c => receiveAll c fs
    | .delivered c g => (receiveAll c fs).map fun r => (r.1, g :: r.2)

variable {c c' : Client} {e : Uuid} {pane : Text}

theorem receiveAll_cons {f : ServerFrame} {g : AttachmentFrame} (h : receive c f.json = .delivered c' g) (fs : List ServerFrame) :
    receiveAll c (f :: fs) = (receiveAll c' fs).map fun r => (r.1, g :: r.2) := by
  rw [receiveAll, h]

theorem receiveAll_append {a b : List ServerFrame} {c₁ c₂ : Client} {gs hs : List AttachmentFrame}
    (ha : receiveAll c a = some (c₁, gs)) (hb : receiveAll c₁ b = some (c₂, hs)) :
    receiveAll c (a ++ b) = some (c₂, gs ++ hs) := by
  induction a generalizing c gs with
  | nil =>
    cases ha
    exact hb
  | cons f a ih =>
    rw [receiveAll] at ha
    rw [List.cons_append, receiveAll]
    cases hr : receive c f.json with
    | closed => simp [hr] at ha
    | disposed => simp [hr] at ha
    | dropped c₃ =>
      rw [hr] at ha
      exact ih ha
    | delivered c₃ g =>
      rw [hr] at ha
      obtain ⟨⟨c₄, gs'⟩, h1, h2⟩ := Option.map_eq_some_iff.1 ha
      cases h2
      show (receiveAll c₃ (a ++ b)).map (fun r => (r.1, g :: r.2)) = some (c₂, g :: gs' ++ hs)
      rw [ih h1]
      rfl

/-- a frame that fits, is read and is in sequence is handed on -/
theorem receive_of_parse {f : ServerFrame} {g : AttachmentFrame} (hfit : f.fits = true) (hp : parseAttachmentFrame f.json = some g)
    (hg : ∀ code text, g ≠ .error code text) (hv : validateSequence c g = some (c', true)) :
    receive c f.json = .delivered c' g := by
  have hsize : ¬ attachmentMaxFrameBytes < f.json.size := Nat.not_lt.2 (of_decide_eq_true hfit)
  rw [receive, if_neg hsize, hp]
  cases g with
  | error code text => exact (hg code text rfl).elim
  | _ => simp only [hv]

/-! ## Chunks -/

/-- what the chunks of one pane do to the pending projection -/
structure Advances (p p' : Pending) (pane : Text) (bytes : ℕ) : Prop where
  epoch : p'.workspaceEpoch = p.workspaceEpoch
  paneIds : p'.paneIds = p.paneIds
  completed : p'.completed = pane :: p.completed
  total : p'.totalBytes = p.totalBytes + bytes
  next : ∀ q, q ≠ pane → p'.nextChunk q = p.nextChunk q
  bytes : ∀ q, q ≠ pane → p'.paneBytes q = p.paneBytes q

/-- the pending projection waits for the chunk of this index -/
structure Waits (p : Pending) (e : Uuid) (pane : Text) (index : ℕ) : Prop where
  epoch : p.workspaceEpoch = uuidText e
  visible : pane ∈ p.paneIds
  due : pane ∉ p.completed
  next : p.nextChunk pane = index

def readChunk (e : Uuid) (pane : Text) (last : ℕ) (c : Bytes × ℕ) : AttachmentFrame :=
  .paneSnapshot (uuidText e) pane c.2 (c.2 == last) c.1

theorem size_paneId (h : Tmux.isPaneId pane = true) : (Json.string pane).size ≤ 34 := by
  cases pane with
  | nil => cases h
  | cons m digits =>
    simp only [Tmux.isPaneId, Tmux.isNumericId, Bool.and_eq_true, decide_eq_true_eq, List.all_eq_true, beq_iff_eq] at h
    obtain ⟨⟨⟨hm, -⟩, hlen⟩, hd⟩ := h
    have hplain : ∀ x ∈ m :: digits, Plain x := by
      intro x hx
      rcases List.mem_cons.1 hx with rfl | hx
      · rw [hm]
        exact ⟨by decide, by decide⟩
      · have := hd x hx
        exact plain_of_isDigit (by simpa [Tmux.isDigit, Char.isDigit, Char.le_def] using this)
    rw [size_string_plain hplain, List.length_cons]
    omega

/-- one chunk -/
theorem receive_chunk (last : ℕ) {p : Pending} {index : ℕ} {data : Bytes} (hc : c.pending = some p) (hw : Waits p e pane index)
    (he : IsV4 e) (hid : Tmux.isPaneId pane = true) (hi : index ≤ 15) (hd : data.length ≤ attachmentMaxTerminalChunkBytes)
    (hempty : data = [] → index = last) (hpane : p.paneBytes pane + data.length ≤ attachmentMaxPaneSnapshotBytes)
    (htotal : p.totalBytes + data.length ≤ attachmentMaxProjectionBytes) :
    receive c (ServerFrame.paneSnapshot e pane index (index == last) (Base64Url.encode data)).json =
      .delivered { c with pending := some { p with
        paneBytes := Function.update p.paneBytes pane (p.paneBytes pane + data.length)
        totalBytes := p.totalBytes + data.length
        nextChunk := Function.update p.nextChunk pane ((index : ℤ) + 1)
        completed := if index == last then pane :: p.completed else p.completed } } (readChunk e pane last (data, index)) := by
  refine receive_of_parse (fits_paneSnapshot (size_paneId hid) (by omega) e _ hd)
    (parse_paneSnapshot (matchesUuid_of_isV4 he) hid hi _ data hd) (by intro _ _ h; cases h) ?_
  have hok : ¬ (uuidText e ≠ p.workspaceEpoch ∨ pane ∉ p.paneIds ∨ pane ∈ p.completed ∨ (index : ℤ) ≠ p.nextChunk pane ∨
      ((index == last) = false ∧ data.length = 0)) := by
    rintro (h | h | h | h | ⟨h1, h2⟩)
    · exact h hw.epoch.symm
    · exact h hw.visible
    · exact hw.due h
    · exact h hw.next.symm
    · have := hempty (List.eq_nil_of_length_eq_zero h2)
      simp [this] at h1
  have hbytes : ¬ (attachmentMaxPaneSnapshotBytes < p.paneBytes pane + data.length ∨
      attachmentMaxProjectionBytes < p.totalBytes + data.length) := by omega
  simp only [readChunk, validateSequence, hc, Pending.chunk, if_neg hok, if_neg hbytes, Option.map_some]

/-- **The chunks of one pane**, by induction on what is left of them. -/
theorem chunks_run (last : ℕ) (he : IsV4 e) (hid : Tmux.isPaneId pane = true) (hmax : last ≤ 15) (cs : List Bytes) (hne : cs ≠ [])
    (start : ℕ) (hlast : start + cs.length = last + 1) (hsize : ∀ d ∈ cs, d.length ≤ attachmentMaxTerminalChunkBytes)
    (hempty : ∀ x ∈ cs.zipIdx start, x.1 = [] → x.2 = last) {p : Pending} (hc : c.pending = some p) (hw : Waits p e pane start)
    (hpane : p.paneBytes pane + cs.flatten.length ≤ attachmentMaxPaneSnapshotBytes)
    (htotal : p.totalBytes + cs.flatten.length ≤ attachmentMaxProjectionBytes) :
    ∃ p', receiveAll c (chunkFrames e pane last start cs) =
        some ({ c with pending := some p' }, (cs.zipIdx start).map (readChunk e pane last)) ∧
      Advances p p' pane cs.flatten.length := by
  induction cs generalizing start p c with
  | nil => exact (hne rfl).elim
  | cons d cs ih =>
    rw [List.flatten_cons, List.length_append] at hpane htotal
    rw [List.zipIdx_cons] at hempty
    have hstep := receive_chunk last hc hw he hid (by rw [List.length_cons] at hlast; omega)
      (hsize d List.mem_cons_self) (hempty (d, start) List.mem_cons_self) (by omega) (by omega)
    have hframes : chunkFrames e pane last start (d :: cs) =
        .paneSnapshot e pane start (start == last) (Base64Url.encode d) :: chunkFrames e pane last (start + 1) cs := by
      rw [chunkFrames, List.zipIdx_cons, List.map_cons]
      rfl
    rw [hframes, receiveAll_cons hstep, List.zipIdx_cons, List.map_cons, List.flatten_cons, List.length_append]
    cases cs with
    | nil =>
      -- the last chunk completes the pane
      have hfinal : (start == last) = true := by
        simp only [List.length_cons, List.length_nil] at hlast
        simp only [beq_iff_eq]
        omega
      refine ⟨_, rfl, ⟨rfl, rfl, ?_, rfl, fun q hq => Function.update_of_ne hq _ _, fun q hq => Function.update_of_ne hq _ _⟩⟩
      simp only [hfinal, if_true]
    | cons d' cs =>
      have hmore : (start == last) = false := by
        simp only [List.length_cons] at hlast
        simp only [beq_eq_false_iff_ne]
        omega
      obtain ⟨p', h1, h2⟩ := ih (c := { c with pending := some { p with
          paneBytes := Function.update p.paneBytes pane (p.paneBytes pane + d.length)
          totalBytes := p.totalBytes + d.length
          nextChunk := Function.update p.nextChunk pane ((start : ℤ) + 1)
          completed := if start == last then pane :: p.completed else p.completed } })
        (by simp) (start + 1) (by rw [List.length_cons] at hlast; omega) (fun x hx => hsize x (List.mem_cons_of_mem _ hx))
        (fun x hx => hempty x (List.mem_cons_of_mem _ hx)) rfl
        ⟨hw.epoch, hw.visible, by simp only [hmore]; exact hw.due, by simp⟩
        (by simp only [Function.update_self]; omega) (by dsimp only; omega)
      refine ⟨p', by rw [h1]; rfl, ⟨h2.epoch, h2.paneIds, ?_, ?_, fun q hq => ?_, fun q hq => ?_⟩⟩
      · rw [h2.completed]
        simp only [hmore]
        rfl
      · rw [h2.total]
        dsimp only
        omega
      · rw [h2.next q hq]
        exact Function.update_of_ne hq _ _
      · rw [h2.bytes q hq]
        exact Function.update_of_ne hq _ _

/-! ## Snapshots -/

/-- the pieces a snapshot is sent in -/
def pieces (content : Bytes) : List Bytes :=
  match chunks attachmentMaxTerminalChunkBytes content with
  | [] => [[]]
  | c :: cs => c :: cs

theorem snapshotFrames_eq (e : Uuid) (x : PaneSnapshot) :
    snapshotFrames e x = chunkFrames e x.paneId ((pieces x.content).length - 1) 0 (pieces x.content) := by
  unfold snapshotFrames pieces
  split <;> rfl

theorem chunks_count {n : ℕ} (hn : 0 < n) (data : Bytes) : (chunks n data).length * n < data.length + n := by
  induction data using OwlMux.Tmux.chunks.induct n with
  | case1 data hd =>
    rw [chunks, if_pos hd]
    simp [hn]
  | case2 data hd ih =>
    have hpos := List.length_pos_of_ne_nil (not_or.1 hd).1
    rw [chunks, if_neg hd, List.length_cons, Nat.succ_mul]
    rw [List.length_drop] at ih
    rcases Nat.lt_or_ge data.length n with hlt | hge
    · -- nothing is left
      have hzero : (chunks n (data.drop n)).length = 0 := by
        rw [Nat.sub_eq_zero_of_le hlt.le, Nat.zero_add] at ih
        exact Nat.lt_one_iff.1 (Nat.lt_of_mul_lt_mul_right (by rwa [Nat.one_mul]))
      rw [hzero]
      omega
    · omega

structure PiecesOk (content : Bytes) : Prop where
  nonempty : pieces content ≠ []
  flatten : (pieces content).flatten = content
  size : ∀ d ∈ pieces content, d.length ≤ attachmentMaxTerminalChunkBytes
  empty : ∀ x ∈ (pieces content).zipIdx 0, x.1 = [] → x.2 = (pieces content).length - 1

theorem pieces_ok (content : Bytes) : PiecesOk content := by
  have hflat := chunks_flatten (n := attachmentMaxTerminalChunkBytes) (by decide) content
  have hsize : ∀ d ∈ chunks attachmentMaxTerminalChunkBytes content,
      0 < d.length ∧ d.length ≤ attachmentMaxTerminalChunkBytes := fun d hd => chunks_length hd
  cases hcs : chunks attachmentMaxTerminalChunkBytes content with
  | nil =>
    rw [hcs] at hflat
    have hp : pieces content = [[]] := by simp [pieces, hcs]
    refine ⟨by simp [hp], ?_, by simp [hp], by simp [hp]⟩
    rw [hp, ← hflat]
    rfl
  | cons c cs =>
    have hp : pieces content = c :: cs := by simp [pieces, hcs]
    rw [hcs] at hflat hsize
    refine ⟨by simp [hp], by rw [hp]; exact hflat, fun d hd => (hsize d (by rwa [hp] at hd)).2, fun x hx h0 => ?_⟩
    rw [hp] at hx
    have hpos := (hsize x.1 (List.fst_mem_of_mem_zipIdx hx)).1
    rw [h0] at hpos
    exact (Nat.lt_irrefl 0 hpos).elim

theorem pieces_count {content : Bytes} (h : content.length ≤ attachmentMaxPaneSnapshotBytes) : (pieces content).length ≤ 16 := by
  have hcount := chunks_count (n := attachmentMaxTerminalChunkBytes) (by decide) content
  simp only [attachmentMaxPaneSnapshotBytes] at h
  unfold pieces
  split
  · simp
  · rename_i c cs hcs
    rw [hcs] at hcount
    simp only [attachmentMaxTerminalChunkBytes] at hcount
    omega

/-- the frames handed on for one snapshot -/
def readSnapshot (e : Uuid) (x : PaneSnapshot) : List AttachmentFrame :=
  ((pieces x.content).zipIdx 0).map (readChunk e x.paneId ((pieces x.content).length - 1))

theorem snapshot_run (he : IsV4 e) {x : PaneSnapshot} (hid : Tmux.isPaneId x.paneId = true)
    (hsize : x.content.length ≤ attachmentMaxPaneSnapshotBytes) {p : Pending} (hc : c.pending = some p)
    (hw : Waits p e x.paneId 0) (hbytes : p.paneBytes x.paneId = 0)
    (htotal : p.totalBytes + x.content.length ≤ attachmentMaxProjectionBytes) :
    ∃ p', receiveAll c (snapshotFrames e x) = some ({ c with pending := some p' }, readSnapshot e x) ∧
      Advances p p' x.paneId x.content.length := by
  have hok := pieces_ok x.content
  have hcount := pieces_count hsize
  have hpos := List.length_pos_of_ne_nil hok.nonempty
  have hrun := chunks_run ((pieces x.content).length - 1) he hid (by omega) (pieces x.content) hok.nonempty 0 (by omega)
    hok.size hok.empty hc hw (by rw [hok.flatten, hbytes]; omega) (by rw [hok.flatten]; omega)
  rw [hok.flatten] at hrun
  rw [snapshotFrames_eq]
  exact hrun

/-- **All snapshots**, in order: each completes its pane. -/
theorem snapshots_run (he : IsV4 e) (snapshots : List PaneSnapshot) (hnd : (snapshots.map PaneSnapshot.paneId).Nodup)
    (hid : ∀ x ∈ snapshots, Tmux.isPaneId x.paneId = true)
    (hsize : ∀ x ∈ snapshots, x.content.length ≤ attachmentMaxPaneSnapshotBytes) {p : Pending} (hc : c.pending = some p)
    (hw : ∀ x ∈ snapshots, Waits p e x.paneId 0) (hbytes : ∀ x ∈ snapshots, p.paneBytes x.paneId = 0)
    (htotal : p.totalBytes + (snapshots.map fun x => x.content.length).sum ≤ attachmentMaxProjectionBytes) :
    ∃ p', receiveAll c (snapshots.flatMap (snapshotFrames e)) =
        some ({ c with pending := some p' }, snapshots.flatMap (readSnapshot e)) ∧
      p'.workspaceEpoch = p.workspaceEpoch ∧ p'.paneIds = p.paneIds ∧
      p'.completed.length = p.completed.length + snapshots.length := by
  induction snapshots generalizing c p with
  | nil => exact ⟨p, by rw [← hc]; rfl, rfl, rfl, rfl⟩
  | cons x xs ih =>
    rw [List.map_cons, List.nodup_cons] at hnd
    rw [List.map_cons, List.sum_cons] at htotal
    obtain ⟨p₁, h1, adv⟩ := snapshot_run he (hid x List.mem_cons_self) (hsize x List.mem_cons_self) hc (hw x List.mem_cons_self)
      (hbytes x List.mem_cons_self) (by omega)
    have hother : ∀ y ∈ xs, y.paneId ≠ x.paneId := by
      intro y hy hyx
      exact hnd.1 (hyx ▸ List.mem_map_of_mem hy)
    have hw₁ : ∀ y ∈ xs, Waits p₁ e y.paneId 0 := by
      intro y hy
      have hy' := hw y (List.mem_cons_of_mem _ hy)
      refine ⟨adv.epoch.trans hy'.epoch, by rw [adv.paneIds]; exact hy'.visible, ?_, ?_⟩
      · rw [adv.completed, List.mem_cons, not_or]
        exact ⟨hother y hy, hy'.due⟩
      · rw [adv.next _ (hother y hy)]
        exact hy'.next
    have hbytes₁ : ∀ y ∈ xs, p₁.paneBytes y.paneId = 0 := by
      intro y hy
      rw [adv.bytes _ (hother y hy)]
      exact hbytes y (List.mem_cons_of_mem _ hy)
    obtain ⟨p₂, h2, k1, k2, k3⟩ := ih (c := { c with pending := some p₁ }) hnd.2 (fun y hy => hid y (List.mem_cons_of_mem _ hy))
      (fun y hy => hsize y (List.mem_cons_of_mem _ hy)) rfl hw₁ hbytes₁ (by rw [adv.total]; omega)
    refine ⟨p₂, ?_, k1.trans adv.epoch, k2.trans adv.paneIds, ?_⟩
    · rw [List.flatMap_cons, List.flatMap_cons]
      exact receiveAll_append h1 h2
    · rw [k3, adv.completed, List.length_cons, List.length_cons]
      omega

/-! ## What the page receives -/

/-- the snapshot data handed on for a pane -/
def delivered (pane : Text) (gs : List AttachmentFrame) : Bytes :=
  gs.flatMap fun
    | .paneSnapshot _ q _ _ d => if q = pane then d else []
    | _ => []

theorem delivered_append (pane : Text) (a b : List AttachmentFrame) :
    delivered pane (a ++ b) = delivered pane a ++ delivered pane b := List.flatMap_append

theorem delivered_readSnapshot (pane : Text) (e : Uuid) (x : PaneSnapshot) :
    delivered pane (readSnapshot e x) = if x.paneId = pane then x.content else [] := by
  have hall : ∀ (cs : List Bytes) (start last : ℕ),
      delivered pane ((cs.zipIdx start).map (readChunk e x.paneId last)) = if x.paneId = pane then cs.flatten else [] := by
    intro cs
    induction cs with
    | nil => intro start last; simp [delivered]
    | cons d cs ih =>
      intro start last
      rw [List.zipIdx_cons, List.map_cons, ← List.singleton_append, delivered_append, ih]
      split_ifs with hq
      · simp [delivered, readChunk, hq]
      · simp [delivered, readChunk, hq]
  rw [readSnapshot, hall, (pieces_ok x.content).flatten]

theorem delivered_snapshots {snapshots : List PaneSnapshot} (hnd : (snapshots.map PaneSnapshot.paneId).Nodup) (e : Uuid)
    {x : PaneSnapshot} (hx : x ∈ snapshots) : delivered x.paneId (snapshots.flatMap (readSnapshot e)) = x.content := by
  have hskip : ∀ l : List PaneSnapshot, x.paneId ∉ l.map PaneSnapshot.paneId →
      delivered x.paneId (l.flatMap (readSnapshot e)) = [] := by
    intro l
    induction l with
    | nil => intro _; rfl
    | cons y l ih =>
      intro h
      rw [List.map_cons, List.mem_cons, not_or] at h
      rw [List.flatMap_cons, delivered_append, delivered_readSnapshot, if_neg (Ne.symm h.1), ih h.2]
      rfl
  induction snapshots with
  | nil => cases hx
  | cons y l ih =>
    rw [List.map_cons, List.nodup_cons] at hnd
    rw [List.flatMap_cons, delivered_append, delivered_readSnapshot]
    rcases List.mem_cons.1 hx with rfl | hx
    · rw [if_pos rfl, hskip l hnd.1, List.append_nil]
    · have hne : y.paneId ≠ x.paneId := fun h => hnd.1 (h ▸ List.mem_map_of_mem hx)
      rw [if_neg hne, ih hnd.2 hx]
      rfl

/-! ## Between two phases -/

/-- a frame the Server may send before its next phase: a session list, a projection and snapshots follow one -/
def Between : ServerFrame → Bool
  | .writerState _ _ _ _ => true
  | .operationResult _ _ _ _ _ => true
  | .output _ _ _ => true
  | .error _ _ => true
  | _ => false

theorem validateSequence_between {f : ServerFrame} (hf : Between f = true) {g : AttachmentFrame} (hm : Mirrors f g) {ok : Bool}
    (h : validateSequence c g = some (c', ok)) : c' = c := by
  cases f with
  | phase p => cases hf
  | sessionList m e v sv ss => cases hf
  | projection m e s cr ws w ps => cases hf
  | paneSnapshot e p i f d => cases hf
  | _ =>
    cases g
    all_goals first
      | exact hm.elim
      | (cases h; rfl)

theorem receive_between {f : ServerFrame} (hf : Between f = true)
    (h : receive c f.json = .dropped c' ∨ ∃ g, receive c f.json = .delivered c' g) : c' = c := by
  unfold receive at h
  split_ifs at h with hsize
  · simp at h
  · cases hp : parseAttachmentFrame f.json with
    | none => simp [hp] at h
    | some g =>
      have hm := parse_mirrors f hp
      rw [hp] at h
      cases hg : validateSequence c g with
      | none =>
        cases g <;> simp only [hg, reduceCtorEq, exists_false, or_self] at h
        cases hg
      | some r =>
        obtain ⟨c₂, ok⟩ := r
        have hsame := validateSequence_between hf hm hg
        cases g with
        | error code text =>
          dsimp only at h
          split_ifs at h
          · simp at h
          · simp only [Received.delivered.injEq, false_or] at h
            obtain ⟨_, h, _⟩ := h
            exact h.symm
        | _ =>
          simp only [hg] at h
          cases ok
          · simp only [Received.dropped.injEq, reduceCtorEq, exists_false, or_false] at h
            exact h.symm.trans hsame
          · simp only [Received.delivered.injEq, reduceCtorEq, false_or] at h
            obtain ⟨_, h, _⟩ := h
            exact h.symm.trans hsame

/-- these frames change nothing the client holds -/
theorem receiveAll_between {fs : List ServerFrame} (hf : ∀ f ∈ fs, Between f = true) {gs : List AttachmentFrame}
    (h : receiveAll c fs = some (c', gs)) : c' = c := by
  induction fs generalizing gs with
  | nil =>
    cases h
    rfl
  | cons f fs ih =>
    have hrest : ∀ f ∈ fs, Between f = true := fun g hg => hf g (List.mem_cons_of_mem _ hg)
    rw [receiveAll] at h
    cases hr : receive c f.json with
    | closed => simp [hr] at h
    | disposed => simp [hr] at h
    | dropped c₁ =>
      rw [hr] at h
      obtain rfl := receive_between (hf f List.mem_cons_self) (Or.inl hr)
      exact ih hrest h
    | delivered c₁ g =>
      rw [hr] at h
      obtain rfl := receive_between (hf f List.mem_cons_self) (Or.inr ⟨g, hr⟩)
      obtain ⟨⟨c₂, gs'⟩, h1, h2⟩ := Option.map_eq_some_iff.1 h
      cases h2
      exact ih hrest h1

/-- output of a visible pane under the epoch of the workspace -/
theorem receive_output {data : Bytes} (he : IsV4 e) (hc : c.workspaceEpoch = some (uuidText e)) (hpane : pane ∈ c.paneIds)
    (hid : Tmux.isPaneId pane = true) (hd : data.length ≤ attachmentMaxTerminalChunkBytes) :
    receive c (ServerFrame.output e pane (Base64Url.encode data)).json = .delivered c (.output (uuidText e) pane data) := by
  refine receive_of_parse (fits_output (size_paneId hid) e hd) (parse_output (matchesUuid_of_isV4 he) hid data hd)
    (by intro _ _ h; cases h) ?_
  simp [validateSequence, hc, hpane]

/-- a client that goes on has found every frame within the bound -/
theorem fits_of_receiveAll {fs : List ServerFrame} {gs : List AttachmentFrame} (h : receiveAll c fs = some (c', gs)) :
    ∀ f ∈ fs, f.fits = true := by
  have hone : ∀ {c : Client} {f : ServerFrame}, receive c f.json ≠ .closed → f.fits = true := by
    intro c f hr
    unfold receive at hr
    split_ifs at hr with hsize
    · exact (hr rfl).elim
    · exact decide_eq_true (Nat.not_lt.1 hsize)
  induction fs generalizing c c' gs with
  | nil => simp
  | cons f fs ih =>
    rw [receiveAll] at h
    intro f' hf'
    have hne : receive c f.json ≠ .closed := by
      intro hr
      simp [hr] at h
    rcases List.mem_cons.1 hf' with rfl | hf'
    · exact hone hne
    · cases hr : receive c f.json with
      | closed => exact (hne hr).elim
      | disposed => simp [hr] at h
      | dropped c₁ =>
        rw [hr] at h
        exact ih h f' hf'
      | delivered c₁ g =>
        rw [hr] at h
        obtain ⟨⟨c₂, gs'⟩, h1, h2⟩ := Option.map_eq_some_iff.1 h
        exact ih h1 f' hf'

/-! ## The transfer -/

/-- the frames handed on by a client that installs the projection -/
def readInstall (connectionEpoch : ℤ) (e : Uuid) (session : Text) (created : ℤ) (w : WorkspaceProjection) :
    List AttachmentFrame :=
  .phase .connecting :: readProjection connectionEpoch e session created w :: (w.snapshots.flatMap (readSnapshot e) ++ [.phase .ready])

theorem length_readSnapshots (e : Uuid) (snapshots : List PaneSnapshot) :
    (snapshots.flatMap (readSnapshot e)).length = (snapshots.flatMap (snapshotFrames e)).length := by
  rw [List.length_flatMap, List.length_flatMap]
  refine congrArg List.sum (List.map_congr_left fun x _ => ?_)
  rw [snapshotFrames_eq, readSnapshot, chunkFrames, List.length_map, List.length_map]

/-- **The install frames**: every one is handed on, and the client holds the workspace. -/
theorem install_run {session : Text} {created : ℤ} {w : WorkspaceProjection} (h : w.Ok session created)
    (hcreated : created ≤ 2 ^ 53 - 1) {n : ℤ} (hpos : 0 < n) (hmax : n < 2 ^ 63) (he : IsV4 e)
    (hfit : (projectionFrame n e session created w).fits = true) (hc : c.connectionEpoch = some (jsonNumber n)) :
    ∃ c', receiveAll c (installFrames n e session created w) = some (c', readInstall n e session created w) ∧
      c'.workspaceEpoch = some (uuidText e) ∧ c'.paneIds = w.panes.map PaneProjection.paneId := by
  have hids : (w.panes.map readPane).map AttachmentPane.paneId = w.panes.map PaneProjection.paneId := by
    rw [List.map_map]
    rfl
  -- the phase, the projection
  have hphase : receive c (ServerFrame.phase .connecting).json =
      .delivered { c with pending := none, workspaceEpoch := none, paneIds := [] } (.phase .connecting) :=
    receive_of_parse (fits_phase _) (parse_phase _) (by intro _ _ h; cases h) rfl
  have hproj : receive { c with pending := none, workspaceEpoch := none, paneIds := [] } (projectionFrame n e session created w).json =
      .delivered { c with
        attachmentEpoch := some (uuidText e)
        pending := some ⟨uuidText e, w.panes.map PaneProjection.paneId, fun _ => 0, [], fun _ => 0, 0⟩
        workspaceEpoch := none
        paneIds := [] } (readProjection n e session created w) := by
    refine receive_of_parse hfit (parse_projection h hcreated hpos hmax he) (by intro _ _ h; cases h) ?_
    simp only [readProjection, validateSequence, hc, ne_eq, not_true_eq_false, if_false, hids, h.panes.nodup.dedup]
  -- the snapshots
  have hsnapIds : ∀ x ∈ w.snapshots, x.paneId ∈ w.panes.map PaneProjection.paneId := by
    intro x hx
    rw [← h.snapshots.ids]
    exact List.mem_map_of_mem hx
  have hpaneId : ∀ x ∈ w.snapshots, Tmux.isPaneId x.paneId = true := by
    intro x hx
    obtain ⟨p, hp, hpx⟩ := List.mem_map.1 (hsnapIds x hx)
    rw [← hpx]
    exact (h.panes.each p hp).id
  obtain ⟨p', h1, k1, k2, k3⟩ := snapshots_run (c := { c with
        attachmentEpoch := some (uuidText e)
        pending := some ⟨uuidText e, w.panes.map PaneProjection.paneId, fun _ => 0, [], fun _ => 0, 0⟩
        workspaceEpoch := none
        paneIds := [] }) he w.snapshots (by rw [h.snapshots.ids]; exact h.panes.nodup) hpaneId h.snapshots.each rfl
    (fun x hx => ⟨rfl, hsnapIds x hx, List.not_mem_nil, rfl⟩) (fun _ _ => rfl) (by simpa using h.total)
  -- the phase that ends it
  have hcomplete : p'.completed.length = p'.paneIds.length := by
    rw [k3, k2]
    have := congrArg List.length h.snapshots.ids
    simpa using this
  have hready : receive { c with
        attachmentEpoch := some (uuidText e)
        pending := some p'
        workspaceEpoch := none
        paneIds := [] } (ServerFrame.phase .ready).json =
      .delivered { c with
        attachmentEpoch := some (uuidText e)
        pending := none
        workspaceEpoch := some p'.workspaceEpoch
        paneIds := p'.paneIds } (.phase .ready) := by
    refine receive_of_parse (fits_phase _) (parse_phase _) (by intro _ _ h; cases h) ?_
    simp [validateSequence, hcomplete]
  refine ⟨{ c with
        attachmentEpoch := some (uuidText e)
        pending := none
        workspaceEpoch := some p'.workspaceEpoch
        paneIds := p'.paneIds }, ?_, congrArg some k1, k2⟩
  rw [installFrames, receiveAll_cons hphase, receiveAll_cons hproj]
  rw [receiveAll_append h1 (receiveAll_cons hready [])]
  rfl

/-- **Projection transfer.** For every projection that `hydrate` returns, whatever the target does, and every client that
holds the connection epoch: each frame of the install fits, is accepted and is handed on; the client ends with the epoch
and the panes of the Server's `WorkspaceState`; the chunks of every pane concatenate to its snapshot; and output that the
Server sends before its next phase is accepted. -/
theorem projection_transfer (session : Text) (created : ℤ) (s s' : Tmux.St) (w : WorkspaceProjection)
    (h : Tmux.hydrate session created s = (.ok w, s')) (n : ℤ) (hpos : 0 < n) (hmax : n < 2 ^ 63) (e : Uuid) (he : IsV4 e)
    (hfit : (projectionFrame n e session created w).fits = true) (hcreated : created ≤ 2 ^ 53 - 1) (c : Client)
    (hc : c.connectionEpoch = some (jsonNumber n)) :
    ∃ ws c' gs, workspaceState n e w = some ws ∧
      (∀ f ∈ installFrames n e session created w, f.fits = true) ∧
      receiveAll c (installFrames n e session created w) = some (c', gs) ∧
      gs.length = (installFrames n e session created w).length ∧
      c'.workspaceEpoch = some (uuidText ws.epoch) ∧ (∀ p, p ∈ c'.paneIds ↔ p ∈ ws.visiblePanes) ∧
      (∀ p ∈ ws.visiblePanes, ∃ x ∈ w.snapshots, x.paneId = p ∧ delivered p gs = x.content) ∧
      ∀ writer pumps rs script pane data t between c₁ hs,
        Tmux.nextEvent (Tmux.workspace session created writer pumps rs (Tmux.St.init script)).2 = (.ok (.output pane data), t) →
        pane ∈ ws.visiblePanes → (∀ f ∈ between, Between f = true) → receiveAll c' between = some (c₁, hs) →
        receive c₁ (ServerFrame.output ws.epoch pane (Base64Url.encode data)).json =
          .delivered c₁ (.output (uuidText ws.epoch) pane data) := by
  have hok := Tmux.hydrate_result h
  obtain ⟨c', hrun, hepoch, hids⟩ := install_run hok hcreated hpos hmax he hfit hc
  obtain ⟨active, hactive⟩ : ∃ p, w.panes.find? PaneProjection.active = some p := by
    have hone := hok.panes.active
    obtain ⟨p, hp⟩ : ∃ p, p ∈ w.panes.filter PaneProjection.active := by
      cases hl : w.panes.filter PaneProjection.active with
      | nil => simp [hl] at hone
      | cons p l => exact ⟨p, List.mem_cons_self⟩
    obtain ⟨hp1, hp2⟩ := List.mem_filter.1 hp
    exact Option.isSome_iff_exists.1 (List.find?_isSome.2 ⟨p, hp1, hp2⟩)
  refine ⟨⟨e, n, w.windows.map WindowSummary.windowId, w.panes.map PaneProjection.paneId, active.paneId⟩, c',
    readInstall n e session created w, ?_, fits_of_receiveAll hrun, hrun, ?_, hepoch, ?_, ?_, ?_⟩
  · rw [workspaceState, hactive]
    rfl
  · simp only [readInstall, installFrames, List.length_cons, List.length_append, List.length_nil, length_readSnapshots]
  · intro p
    rw [hids]
  · intro p hp
    rw [← hok.snapshots.ids] at hp
    obtain ⟨x, hx, rfl⟩ := List.mem_map.1 hp
    refine ⟨x, hx, rfl, ?_⟩
    have hsnap := delivered_snapshots (by rw [hok.snapshots.ids]; exact hok.panes.nodup) e hx
    show delivered x.paneId ([.phase .connecting, readProjection n e session created w] ++
      (w.snapshots.flatMap (readSnapshot e) ++ [.phase .ready])) = x.content
    rw [delivered_append, delivered_append, hsnap]
    simp [delivered, readProjection]
  · intro writer pumps rs script pane data t between c₁ hs hev hpane hbetween hrun₁
    obtain rfl := receiveAll_between hbetween hrun₁
    obtain ⟨hid, hd⟩ := Tmux.nextEvent_chunk (Tmux.workspace_chunked session created writer pumps rs script) hev
    exact receive_output he hepoch (by rw [hids]; exact hpane) hid hd

/-- the client of connection 7 -/
def clientOfSeven : Client := { Client.init with connectionEpoch := some (jsonNumber 7) }

theorem output_plain : Tmux.stripHead Tmux.beginMark (Tmux.ascii "%output %1 a\n") = none := by decide +kernel

/-- output of the pane arrives -/
def outputMoves : List Tmux.Move := [.note ⟨Tmux.ascii "%output %1 a\n", output_plain⟩]

/-- the workspace is there and has the property -/
def installedWith (p : WorkspaceProjection → Bool) : Tmux.Res WorkspaceProjection × Tmux.St → Bool
  | (.ok w, _) => p w
  | _ => false

/-- one pane with its snapshot, and output of it -/
theorem projection_transfer_onePane :
    ∃ w c' gs, (Tmux.hydrate "$1".toList 1700000000 Tmux.onePaneState).1 = .ok w ∧ w.panes.length = 1 ∧
      receiveAll clientOfSeven (installFrames 7 0x00000000000040008000000000000002#128 "$1".toList 1700000000 w) = some (c', gs) ∧
      c'.workspaceEpoch = some (uuidText 0x00000000000040008000000000000002#128) ∧
      receive c' (ServerFrame.output 0x00000000000040008000000000000002#128 "%1".toList (Base64Url.encode [97])).json =
        .delivered c' (.output (uuidText 0x00000000000040008000000000000002#128) "%1".toList [97]) := by
  have hrun : installedWith (fun w => w.panes.map PaneProjection.paneId == ["%1".toList] &&
      (projectionFrame 7 0x00000000000040008000000000000002#128 "$1".toList 1700000000 w).fits)
      (Tmux.hydrate "$1".toList 1700000000 Tmux.onePaneState) = true := by decide +kernel
  have hevent : (Tmux.nextEvent (Tmux.workspace "$1".toList 1700000000 none 0 [] (Tmux.St.init outputMoves)).2).1 =
      .ok (.output "%1".toList [97]) := by decide +kernel
  rcases hx : Tmux.hydrate "$1".toList 1700000000 Tmux.onePaneState with ⟨o, s'⟩
  rw [hx] at hrun
  cases o with
  | ok w =>
    simp only [installedWith, Bool.and_eq_true, beq_iff_eq] at hrun
    obtain ⟨ws, c', gs, hws, -, h1, -, h2, -, -, h3⟩ := projection_transfer "$1".toList 1700000000 _ _ w hx 7 (by decide)
      (by decide) 0x00000000000040008000000000000002#128 (by decide) hrun.2 (by decide) clientOfSeven rfl
    obtain ⟨p, -, hp⟩ := bind_some hws
    cases hp
    have hpanes : "%1".toList ∈ w.panes.map PaneProjection.paneId := by
      rw [hrun.1]
      exact List.mem_cons_self
    have hlen : w.panes.length = 1 := by simpa using congrArg List.length hrun.1
    have hnext := h3 none 0 [] outputMoves "%1".toList [97]
    rcases hev : Tmux.nextEvent (Tmux.workspace "$1".toList 1700000000 none 0 [] (Tmux.St.init outputMoves)).2 with ⟨r, t⟩
    rw [hev] at hevent hnext
    dsimp only at hevent
    rw [hevent] at hnext
    exact ⟨w, c', gs, rfl, hlen, h1, h2, hnext t [] c' [] rfl hpanes (by simp) rfl⟩
  | error e => cases hrun
  | waiting => cases hrun

end OwlMux.Browser
