/-
What a successful hydration returns: every list is bounded and free of duplicates, every window and pane lies within the
limits of the contract, every text is safe, and there is one bounded snapshot a pane, in the order of the panes.

Results:
- `parsePaneRow_spec`: an accepted pane lies in its window, with its cursor and scroll region inside the pane;
- `parseWindows_spec`, `parsePaneRows_spec`: an accepted list is bounded, has no duplicate and one active entry;
- `hydrate_result`: the projection of a successful hydration.
-/
import Mathlib.Tactic
import OwlMux.Tmux.Cutover

namespace OwlMux.Tmux

open OwlMux.Relay (Text byteLen)

variable {s s' : St}

/-! ## Windows -/

def Safe (maximum : ℕ) (t : Text) : Prop := byteLen t ≤ maximum ∧ t.any isControl = false

structure WindowSummary.Ok (w : WindowSummary) : Prop where
  id : isWindowId w.windowId = true
  name : Safe maxWindowNameBytes w.name

theorem parseWindowRow_ok {row : Bytes} {w : WindowSummary} (h : parseWindowRow row = .ok w) : w.Ok := by
  obtain ⟨t, -, h⟩ := parsed_bind.1 h
  split at h
  · obtain ⟨active, -, h⟩ := parsed_bind.1 h
    obtain ⟨u, hu, h⟩ := parsed_bind.1 h
    cases h
    have := require_ok.1 hu
    simp only [Bool.and_eq_true, decide_eq_true_eq, Bool.not_eq_true'] at this
    exact ⟨this.1.1, this.1.2, this.2⟩
  · cases h

theorem parseWindowRows_ok {rows : List Bytes} {seen windows : List WindowSummary}
    (hok : ∀ w ∈ seen, w.Ok) (hnd : (seen.map WindowSummary.windowId).Nodup) (h : parseWindowRows seen rows = .ok windows) :
    (∀ w ∈ windows, w.Ok) ∧ (windows.map WindowSummary.windowId).Nodup ∧ windows.length = seen.length + rows.length := by
  induction rows generalizing seen with
  | nil =>
    cases h
    exact ⟨hok, hnd, rfl⟩
  | cons row rows ih =>
    obtain ⟨w, hw, h⟩ := parsed_bind.1 h
    obtain ⟨u, hu, h⟩ := parsed_bind.1 h
    have hnew : w.windowId ∉ seen.map WindowSummary.windowId := by
      have := require_ok.1 hu
      simpa using this
    have hok' : ∀ v ∈ seen ++ [w], v.Ok := by
      intro v hv
      rcases List.mem_append.1 hv with hv | hv
      · exact hok v hv
      · rw [List.mem_singleton.1 hv]
        exact parseWindowRow_ok hw
    have hnd' : ((seen ++ [w]).map WindowSummary.windowId).Nodup := by
      rw [List.map_append, List.nodup_append]
      refine ⟨hnd, by simp, ?_⟩
      intro a ha b hb e
      rw [List.map_singleton, List.mem_singleton] at hb
      exact hnew (hb ▸ e ▸ ha)
    obtain ⟨h1, h2, h3⟩ := ih hok' hnd' h
    refine ⟨h1, h2, ?_⟩
    rw [h3, List.length_append, List.length_singleton, List.length_cons]
    omega

structure WindowsOk (windows : List WindowSummary) : Prop where
  each : ∀ w ∈ windows, w.Ok
  nodup : (windows.map WindowSummary.windowId).Nodup
  length : 0 < windows.length ∧ windows.length ≤ maxWindows
  active : (windows.filter WindowSummary.active).length = 1

theorem parseWindows_spec {rows : List Bytes} {windows : List WindowSummary} (h : parseWindows rows = .ok windows) :
    WindowsOk windows := by
  obtain ⟨u, hu, h⟩ := parsed_bind.1 h
  obtain ⟨ws, hws, h⟩ := parsed_bind.1 h
  obtain ⟨u', hu', h⟩ := parsed_bind.1 h
  cases h
  obtain ⟨h1, h2, h3⟩ := parseWindowRows_ok (by simp) (by simp) hws
  have hlen := require_ok.1 hu
  simp only [Bool.and_eq_true, Bool.not_eq_true', List.isEmpty_eq_false_iff, decide_eq_true_eq] at hlen
  have hpos := List.length_pos_of_ne_nil hlen.1
  simp only [List.length_nil, Nat.zero_add] at h3
  exact ⟨h1, h2, by omega, by simpa using require_ok.1 hu'⟩

/-! ## The active window -/

structure WindowProjection.Ok (w : WindowProjection) : Prop where
  id : isWindowId w.windowId = true
  name : Safe maxWindowNameBytes w.name
  grid : validGrid w.width w.height = true
  layout : w.layout ≠ [] ∧ byteLen w.layout ≤ maxLayoutBytes ∧ ∀ c ∈ w.layout, '!' ≤ c ∧ c ≤ '~'

theorem safeText_ok {lines : List Bytes} {maximum : ℕ} {t : Text} (h : safeText lines maximum = .ok t) : Safe maximum t := by
  obtain ⟨v, -, h⟩ := parsed_bind.1 h
  obtain ⟨u, hu, h⟩ := parsed_bind.1 h
  cases h
  have := require_ok.1 hu
  simp only [Bool.and_eq_true, decide_eq_true_eq, Bool.not_eq_true'] at this
  exact this

theorem parseWindow_ok {session : Text} {created : ℤ} {response : List Bytes} {w : WindowProjection}
    (h : parseWindow session created response = .ok w) :
    isWindowId w.windowId = true ∧ validGrid w.width w.height = true ∧
      w.layout ≠ [] ∧ byteLen w.layout ≤ maxLayoutBytes ∧ ∀ c ∈ w.layout, '!' ≤ c ∧ c ≤ '~' := by
  obtain ⟨line, -, h⟩ := parsed_bind.1 h
  split at h
  · obtain ⟨c, -, h⟩ := parsed_bind.1 h
    obtain ⟨wd, -, h⟩ := parsed_bind.1 h
    obtain ⟨ht, -, h⟩ := parsed_bind.1 h
    obtain ⟨u, hgrid, h⟩ := parsed_bind.1 h
    obtain ⟨u, hid, h⟩ := parsed_bind.1 h
    cases h
    have := require_ok.1 hid
    simp only [Bool.and_eq_true, decide_eq_true_eq, Bool.not_eq_true', List.isEmpty_eq_false_iff, List.all_eq_true] at this
    exact ⟨this.1.1.1.2, require_ok.1 hgrid, this.1.1.2, this.1.2, this.2⟩
  · cases h
  · obtain ⟨c, -, h⟩ := parsed_bind.1 h
    split at h
    · obtain ⟨wd, -, h⟩ := parsed_bind.1 h
      split at h
      · obtain ⟨ht, -, h⟩ := parsed_bind.1 h
        cases h
      · cases h
    · cases h
  · cases h

/-! ## Panes -/

/-- the terminal state lies in a pane of this size -/
structure PaneTerminalState.Within (t : PaneTerminalState) (width height : ℕ) : Prop where
  cursor : t.cursorX < width ∧ t.cursorY < height
  region : t.scrollUpper ≤ t.scrollLower ∧ t.scrollLower < height
  origin : t.hasMode modeOrigin = true → t.scrollUpper ≤ t.cursorY

/-- a pane as a row describes it, without its labels -/
structure PaneProjection.Fits (p : PaneProjection) (window : WindowProjection) : Prop where
  id : isPaneId p.paneId = true
  width : 0 < p.width ∧ p.width ≤ attachmentMaxDimension
  height : 0 < p.height ∧ p.height ≤ attachmentMaxDimension
  inside : p.left + p.width ≤ window.width ∧ p.top + p.height ≤ window.height
  origin : p.left < attachmentMaxDimension ∧ p.top < attachmentMaxDimension
  terminal : p.terminal.Within p.width p.height

theorem parseDimension_ok {t : Text} {n : ℕ} (h : parseDimension t = .ok n) : 0 < n ∧ n ≤ attachmentMaxDimension := by
  obtain ⟨v, -, h⟩ := parsed_bind.1 h
  obtain ⟨u, hu, h⟩ := parsed_bind.1 h
  cases h
  have := require_ok.1 hu
  simp only [Bool.and_eq_true, decide_eq_true_eq] at this
  omega

theorem parseCoordinate_ok {t : Text} {n : ℕ} (h : parseCoordinate t = .ok n) : n < attachmentMaxDimension := by
  obtain ⟨v, -, h⟩ := parsed_bind.1 h
  obtain ⟨u, hu, h⟩ := parsed_bind.1 h
  cases h
  simpa using require_ok.1 hu

theorem parseCoordinateWithBound_ok {t : Text} {n bound : ℕ} (h : parseCoordinateWithBound t bound = .ok n) : n < bound := by
  obtain ⟨v, -, h⟩ := parsed_bind.1 h
  obtain ⟨u, hu, h⟩ := parsed_bind.1 h
  cases h
  simpa using require_ok.1 hu

/-- **One row.** -/
theorem parsePaneRow_spec {row : Bytes} {window : WindowProjection} {p : PaneProjection}
    (h : parsePaneRow row window = .ok p) : p.Fits window ∧ p.title = [] ∧ p.currentCommand = [] := by
  obtain ⟨t, -, h⟩ := parsed_bind.1 h
  split at h
  · obtain ⟨u, hid, h⟩ := parsed_bind.1 h
    obtain ⟨u, -, h⟩ := parsed_bind.1 h
    obtain ⟨active, -, h⟩ := parsed_bind.1 h
    obtain ⟨width, hwidth, h⟩ := parsed_bind.1 h
    obtain ⟨height, hheight, h⟩ := parsed_bind.1 h
    obtain ⟨left, hleft, h⟩ := parsed_bind.1 h
    obtain ⟨top, htop, h⟩ := parsed_bind.1 h
    obtain ⟨u, hinside, h⟩ := parsed_bind.1 h
    obtain ⟨x, hx, h⟩ := parsed_bind.1 h
    obtain ⟨y, hy, h⟩ := parsed_bind.1 h
    obtain ⟨modes, -, h⟩ := parsed_bind.1 h
    obtain ⟨upper, -, h⟩ := parsed_bind.1 h
    obtain ⟨lower, hlower, h⟩ := parsed_bind.1 h
    obtain ⟨u, hterm, h⟩ := parsed_bind.1 h
    cases h
    have hin := require_ok.1 hinside
    have ht := require_ok.1 hterm
    simp only [Bool.and_eq_true, decide_eq_true_eq] at hin
    simp only [Bool.and_eq_true, decide_eq_true_eq, Bool.not_eq_true', Bool.and_eq_false_imp] at ht
    refine ⟨⟨require_ok.1 hid, parseDimension_ok hwidth, parseDimension_ok hheight, ⟨hin.1.2, hin.2⟩,
      ⟨parseCoordinate_ok hleft, parseCoordinate_ok htop⟩, ⟨parseCoordinateWithBound_ok hx, parseCoordinateWithBound_ok hy⟩,
      ⟨ht.1, parseCoordinateWithBound_ok hlower⟩, fun horigin => ?_⟩, rfl, rfl⟩
    by_contra hlt
    have := ht.2 (by simpa using hlt)
    rw [horigin] at this
    cases this
  · cases h

theorem parsePaneList_fits {window : WindowProjection} {rows : List Bytes} {seen panes : List PaneProjection}
    (hs : ∀ p ∈ seen, p.Fits window) (h : parsePaneList window seen rows = .ok panes) :
    (∀ p ∈ panes, p.Fits window) ∧ panes.length = seen.length + rows.length := by
  induction rows generalizing seen with
  | nil =>
    cases h
    exact ⟨hs, rfl⟩
  | cons row rows ih =>
    obtain ⟨pane, hpane, h⟩ := parsed_bind.1 h
    obtain ⟨u, hu, h⟩ := parsed_bind.1 h
    have hs' : ∀ p ∈ seen ++ [pane], p.Fits window := by
      intro p hp
      rcases List.mem_append.1 hp with hp | hp
      · exact hs p hp
      · rw [List.mem_singleton.1 hp]
        exact (parsePaneRow_spec hpane).1
    obtain ⟨h1, h2⟩ := ih hs' h
    refine ⟨h1, ?_⟩
    rw [h2, List.length_append, List.length_singleton, List.length_cons]
    omega

/-- the panes of a window, labelled or not -/
structure PanesFit (window : WindowProjection) (panes : List PaneProjection) : Prop where
  each : ∀ p ∈ panes, p.Fits window
  nodup : (panes.map PaneProjection.paneId).Nodup
  length : 0 < panes.length ∧ panes.length ≤ attachmentMaxPanes
  active : (panes.filter PaneProjection.active).length = 1
  cells : (panes.map fun p => p.width * p.height).sum ≤ attachmentMaxGridCells

/-- **All rows.** -/
theorem parsePaneRows_spec {window : WindowProjection} {rows : List Bytes} {panes : List PaneProjection}
    (h : parsePaneRows rows window = .ok panes) : PanesFit window panes := by
  have hnd := parsePaneRows_nodup h
  obtain ⟨u, hlen, h⟩ := parsed_bind.1 h
  obtain ⟨ps, hps, h⟩ := parsed_bind.1 h
  obtain ⟨u, hactive, h⟩ := parsed_bind.1 h
  obtain ⟨u, hcells, h⟩ := parsed_bind.1 h
  cases h
  obtain ⟨h1, h2⟩ := parsePaneList_fits (by simp) hps
  have hlen' := require_ok.1 hlen
  simp only [Bool.and_eq_true, Bool.not_eq_true', List.isEmpty_eq_false_iff, decide_eq_true_eq] at hlen'
  have hpos := List.length_pos_of_ne_nil hlen'.1
  simp only [List.length_nil, Nat.zero_add] at h2
  exact ⟨h1, hnd, by omega, by simpa using require_ok.1 hactive, by simpa using require_ok.1 hcells⟩

/-! ## Labels and captures keep the structure -/

/-- the panes agree in everything but labels and terminal state, which fits -/
structure SamePane (window : WindowProjection) (p q : PaneProjection) : Prop where
  id : q.paneId = p.paneId
  active : q.active = p.active
  width : q.width = p.width
  height : q.height = p.height
  left : q.left = p.left
  top : q.top = p.top
  terminal : q.terminal.Within q.width q.height

theorem map_of_same {β : Type} {window : WindowProjection} {panes panes' : List PaneProjection} {f : PaneProjection → β}
    (hf : ∀ p q, SamePane window p q → f q = f p) (hs : List.Forall₂ (SamePane window) panes panes') :
    panes'.map f = panes.map f := by
  induction hs with
  | nil => rfl
  | cons hp _ ih => rw [List.map_cons, List.map_cons, hf _ _ hp, ih]

theorem SamePane.fits {window : WindowProjection} {p q : PaneProjection} (h : SamePane window p q) (hp : p.Fits window) :
    q.Fits window where
  id := by rw [h.id]; exact hp.id
  width := by rw [h.width]; exact hp.width
  height := by rw [h.height]; exact hp.height
  inside := by rw [h.left, h.top, h.width, h.height]; exact hp.inside
  origin := by rw [h.left, h.top]; exact hp.origin
  terminal := h.terminal

theorem PanesFit.of_same {window : WindowProjection} {panes panes' : List PaneProjection} (h : PanesFit window panes)
    (hs : List.Forall₂ (SamePane window) panes panes') : PanesFit window panes' where
  each := by
    intro q hq
    obtain ⟨i, hi, rfl⟩ := List.mem_iff_getElem.1 hq
    have hlen := hs.length_eq
    exact (hs.get (hlen ▸ hi) hi).fits (h.each _ (List.getElem_mem _))
  nodup := by
    rw [map_of_same (fun p q hpq => hpq.id) hs]
    exact h.nodup
  length := by
    rw [← hs.length_eq]
    exact h.length
  active := by
    have hactive : ∀ l : List PaneProjection, (l.filter PaneProjection.active).length =
        ((l.map PaneProjection.active).filter id).length := by
      intro l
      rw [List.filter_map, List.length_map]
      rfl
    rw [hactive, map_of_same (fun p q hpq => hpq.active) hs, ← hactive]
    exact h.active
  cells := by
    rw [map_of_same (fun p q hpq => by rw [hpq.width, hpq.height]) hs]
    exact h.cells

/-- the labels are safe -/
structure Labelled (p : PaneProjection) : Prop where
  title : Safe maxTextBytes p.title
  currentCommand : Safe maxTextBytes p.currentCommand

theorem observePaneLabels_ok {window : WindowProjection} {panes panes' : List PaneProjection}
    (hfit : ∀ p ∈ panes, p.Fits window) (h : observePaneLabels panes s = (.ok panes', s')) :
    List.Forall₂ (SamePane window) panes panes' ∧ ∀ p ∈ panes', Labelled p := by
  induction panes generalizing s panes' with
  | nil =>
    cases h
    exact ⟨.nil, by simp⟩
  | cons pane panes ih =>
    obtain ⟨_, s₁, -, r1⟩ := ok_of_bind h
    obtain ⟨title, s₂, h2, r2⟩ := ok_of_bind r1
    obtain ⟨_, s₃, -, r3⟩ := ok_of_bind r2
    obtain ⟨current, s₄, h4, r4⟩ := ok_of_bind r3
    obtain ⟨rest, s₅, h5, r5⟩ := ok_of_bind r4
    cases r5
    obtain ⟨hsame, hlab⟩ := ih (fun p hp => hfit p (List.mem_cons_of_mem _ hp)) h5
    refine ⟨.cons ⟨rfl, rfl, rfl, rfl, rfl, rfl, (hfit pane List.mem_cons_self).terminal⟩ hsame, fun p hp => ?_⟩
    rcases List.mem_cons.1 hp with rfl | hp
    · exact ⟨safeText_ok (ok_of_lift h2).1, safeText_ok (ok_of_lift h4).1⟩
    · exact hlab p hp

theorem captureLines_length {lines : List Bytes} {pane : PaneProjection} {content : Bytes}
    (h : captureLines lines pane = .ok content) : content.length ≤ attachmentMaxPaneSnapshotBytes := by
  obtain ⟨c, -, h⟩ := parsed_bind.1 h
  obtain ⟨u, hu, h⟩ := parsed_bind.1 h
  cases h
  simpa using require_ok.1 hu

/-- one snapshot a pane, each within its bound -/
structure SnapshotsOk (panes : List PaneProjection) (snapshots : List PaneSnapshot) : Prop where
  ids : snapshots.map PaneSnapshot.paneId = panes.map PaneProjection.paneId
  each : ∀ snapshot ∈ snapshots, snapshot.content.length ≤ attachmentMaxPaneSnapshotBytes

theorem capturePanes_ok {window : WindowProjection} {panes panes' : List PaneProjection} {total : ℕ}
    {snapshots : List PaneSnapshot} (htotal : total ≤ attachmentMaxProjectionBytes)
    (h : capturePanes window panes total s = (.ok (panes', snapshots), s')) :
    List.Forall₂ (SamePane window) panes panes' ∧ ((∀ p ∈ panes, Labelled p) → ∀ p ∈ panes', Labelled p) ∧
      SnapshotsOk panes' snapshots ∧
      total + (snapshots.map fun x => x.content.length).sum ≤ attachmentMaxProjectionBytes := by
  induction panes generalizing s total panes' snapshots with
  | nil =>
    cases h
    exact ⟨.nil, by simp, ⟨rfl, by simp⟩, by simpa using htotal⟩
  | cons pane panes ih =>
    obtain ⟨⟨pane₁, snapshot₁⟩, s₁, h1, r1⟩ := ok_of_bind h
    obtain ⟨⟨ps, snaps⟩, s₂, h2, r2⟩ := ok_of_bind r1
    cases r2
    obtain ⟨⟨metadata, rows⟩, t₁, -, q1⟩ := ok_of_bind h1
    obtain ⟨final, t₂, k2, q2⟩ := ok_of_bind q1
    obtain ⟨u, t₃, k3, q3⟩ := ok_of_bind q2
    obtain ⟨content, t₄, k4, q4⟩ := ok_of_bind q3
    obtain ⟨u, t₅, k5, q5⟩ := ok_of_bind q4
    obtain ⟨u, t₆, k6, q6⟩ := ok_of_bind q5
    cases q6
    have hfinal := (parsePaneRow_spec (ok_of_lift k2).1).1
    have hsame := require_ok.1 (ok_of_lift k3).1
    simp only [samePaneStructure, Bool.and_eq_true, decide_eq_true_eq] at hsame
    obtain ⟨⟨⟨⟨⟨e1, e2⟩, e3⟩, e4⟩, e5⟩, e6⟩ := hsame
    have hcontent := captureLines_length (ok_of_lift k4).1
    have hsum : total + content.length ≤ attachmentMaxProjectionBytes := by simpa using require_ok.1 (ok_of_lift k5).1
    obtain ⟨i1, i2, i3, i4⟩ := ih hsum h2
    refine ⟨.cons ⟨rfl, rfl, rfl, rfl, rfl, rfl, ?_⟩ i1, fun hl p hp => ?_, ⟨?_, fun x hx => ?_⟩, ?_⟩
    · show final.terminal.Within pane.width pane.height
      rw [e3, e4]
      exact hfinal.terminal
    · rcases List.mem_cons.1 hp with rfl | hp
      · have := hl pane List.mem_cons_self
        exact ⟨this.title, this.currentCommand⟩
      · exact i2 (fun q hq => hl q (List.mem_cons_of_mem _ hq)) p hp
    · rw [List.map_cons, List.map_cons, i3.ids]
    · rcases List.mem_cons.1 hx with rfl | hx
      · exact hcontent
      · exact i3.each x hx
    · rw [List.map_cons, List.sum_cons]
      dsimp only at i4 ⊢
      omega

/-! ## The whole projection -/

/-- a projection within the limits of the contract -/
structure WorkspaceProjection.Ok (session : Text) (created : ℤ) (w : WorkspaceProjection) : Prop where
  session : isSessionId session = true
  created : 0 < created
  windows : WindowsOk w.windows
  window : w.window.Ok
  current : activeWindowIs w.windows w.window = true
  panes : PanesFit w.window w.panes
  labels : ∀ p ∈ w.panes, Labelled p
  snapshots : SnapshotsOk w.panes w.snapshots
  total : (w.snapshots.map fun x => x.content.length).sum ≤ attachmentMaxProjectionBytes

theorem hydrateOnce_result {session : Text} {created : ℤ} {w : WorkspaceProjection}
    (h : hydrateOnce session created s = (.ok w, s')) : w.Ok session created := by
  obtain ⟨windows, s₁, h1, r1⟩ := ok_of_bind h
  obtain ⟨window, s₂, h2, r2⟩ := ok_of_bind r1
  obtain ⟨u, s₃, h3, r3⟩ := ok_of_bind r2
  obtain ⟨panes, s₄, h4, r4⟩ := ok_of_bind r3
  obtain ⟨labelled, s₅, h5, r5⟩ := ok_of_bind r4
  obtain ⟨u, s₆, h6, r6⟩ := ok_of_bind r5
  obtain ⟨u, s₇, h7, r7⟩ := ok_of_bind r6
  obtain ⟨u, s₈, h8, r8⟩ := ok_of_bind r7
  obtain ⟨⟨captured, snapshots⟩, s₉, h9, r9⟩ := ok_of_bind r8
  obtain ⟨u, s₁₀, h10, r10⟩ := ok_of_bind r9
  obtain ⟨u, s₁₁, h11, r11⟩ := ok_of_bind r10
  cases r11
  have hwindows : WindowsOk windows := by
    obtain ⟨u, t, -, k1⟩ := ok_of_bind h1
    obtain ⟨rows, t', -, k2⟩ := ok_of_bind k1
    exact parseWindows_spec (ok_of_lift k2).1
  obtain ⟨hwindow, hsession, hcreated⟩ : window.Ok ∧ isSessionId session = true ∧ 0 < created := by
    obtain ⟨u, t₁, k0, k1⟩ := ok_of_bind h2
    obtain ⟨response, t₂, -, k2⟩ := ok_of_bind k1
    obtain ⟨win, t₃, k3, k4⟩ := ok_of_bind k2
    obtain ⟨name, t₄, -, k5⟩ := ok_of_bind k4
    obtain ⟨name', t₅, k6, k7⟩ := ok_of_bind k5
    cases k7
    have hs := require_ok.1 (ok_of_lift k0).1
    simp only [Bool.and_eq_true, decide_eq_true_eq] at hs
    obtain ⟨p1, p2, p3, p4, p5⟩ := parseWindow_ok (ok_of_lift k3).1
    exact ⟨⟨p1, safeText_ok (ok_of_lift k6).1, p2, p3, p4, p5⟩, hs.1, hs.2⟩
  have hpanes : PanesFit window panes := by
    obtain ⟨rows, t, -, k⟩ := ok_of_bind h4
    exact parsePaneRows_spec (ok_of_lift k).1
  obtain ⟨hsame, hlab⟩ := observePaneLabels_ok hpanes.each h5
  obtain ⟨c1, c2, c3, c4⟩ := capturePanes_ok (Nat.zero_le _) h9
  exact ⟨hsession, hcreated, hwindows, hwindow, require_ok.1 (ok_of_lift h3).1, (hpanes.of_same hsame).of_same c1, c2 hlab, c3,
    by simpa using c4⟩

/-- **The projection of a successful hydration.** -/
theorem hydrate_result {session : Text} {created : ℤ} {w : WorkspaceProjection}
    (h : hydrate session created s = (.ok w, s')) : w.Ok session created := by
  have hfrom : ∀ (attempts : ℕ) (s : St), hydrateFrom session created attempts s = (.ok w, s') → w.Ok session created := by
    intro attempts
    induction attempts with
    | zero =>
      intro s h
      cases h
    | succ attempts ih =>
      intro s h
      unfold hydrateFrom at h
      split at h
      · exact ih _ h
      · obtain ⟨u, t, -, k⟩ := ok_of_bind h
        exact hydrateOnce_result k
  exact hfrom _ _ h

end OwlMux.Tmux
