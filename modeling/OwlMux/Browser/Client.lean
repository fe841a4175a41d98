/-
The Browser's end of one attachment connection: `validateSequence` and the message handler of `apps/web/src/client.ts`, and
what `parseAttachmentFrame` makes of the frames a Server sends.

The bookkeeping of pending requests does not decide whether a frame is accepted and is left out. A check that throws closes
the connection.

Results:
- `parse_phase`, `parse_writerState`, `parse_paneSnapshot`, `parse_output`: these frames are read back as they were sent;
- `receive_writerState`: a writer state is handed on if it carries the epochs the client holds.
-/
import Mathlib.Tactic
import OwlMux.Browser.Contract

namespace OwlMux.Browser

open OwlMux.Relay (Text Uuid byteLen uuidText jsonNumber)
open OwlMux.Tmux (attachmentMaxPaneSnapshotBytes attachmentMaxProjectionBytes attachmentMaxTerminalChunkBytes)

/-! ## The sequence automaton -/

/-- membership of a text is decided by its equality -/
instance : LawfulBEq Text := inferInstance

/-- `pendingProjection` -/
structure Pending where
  workspaceEpoch : Text
  paneIds : List Text
  nextChunk : Text → ℤ
  completed : List Text
  paneBytes : Text → ℕ
  totalBytes : ℕ

structure Client where
  pending : Option Pending
  connectionEpoch : Option Text
  attachmentEpoch : Option Text
  workspaceEpoch : Option Text
  paneIds : List Text

def Client.init : Client := ⟨none, none, none, none, []⟩

/-- a snapshot chunk against the pending projection -/
def Pending.chunk (p : Pending) (epoch pane : Text) (index : ℤ) (final : Bool) (data : List UInt8) : Option Pending :=
  if epoch ≠ p.workspaceEpoch ∨ pane ∉ p.paneIds ∨ pane ∈ p.completed ∨ index ≠ p.nextChunk pane ∨
      (final = false ∧ data.length = 0) then none
  else
    let paneBytes := p.paneBytes pane + data.length
    let totalBytes := p.totalBytes + data.length
    if attachmentMaxPaneSnapshotBytes < paneBytes ∨ attachmentMaxProjectionBytes < totalBytes then none
    else some { p with
      paneBytes := Function.update p.paneBytes pane paneBytes
      totalBytes := totalBytes
      nextChunk := Function.update p.nextChunk pane (index + 1)
      completed := if final then pane :: p.completed else p.completed }

/-- the new state and whether the frame is handed on; `none` is an exception -/
def validateSequence (c : Client) : AttachmentFrame → Option (Client × Bool)
  | .phase .ready =>
    match c.pending with
    | some p =>
      if p.completed.length ≠ p.paneIds.length then none
      else some ({ c with workspaceEpoch := some p.workspaceEpoch, paneIds := p.paneIds, pending := none }, true)
    | none => none
  | .phase _ => some ({ c with pending := none, workspaceEpoch := none, paneIds := [] }, true)
  | .sessionList epoch selection _ _ _ =>
    some ({ pending := none, connectionEpoch := some epoch, attachmentEpoch := some selection, workspaceEpoch := none,
            paneIds := [] }, true)
  | .writerState epoch attachment _ _ => some (c, some epoch = c.connectionEpoch && some attachment = c.attachmentEpoch)
  | .projection epoch workspace _ _ _ _ panes =>
    if some epoch ≠ c.connectionEpoch then none
    else
      -- a Set, whose order nothing observes
      let ids := (panes.map AttachmentPane.paneId).dedup
      some ({ c with
        attachmentEpoch := some workspace
        pending := some ⟨workspace, ids, fun _ => 0, [], fun _ => 0, 0⟩
        workspaceEpoch := none
        paneIds := [] }, true)
  | .paneSnapshot epoch pane index final data =>
    match c.pending with
    | some p => (p.chunk epoch pane index final data).map fun p => ({ c with pending := some p }, true)
    | none => none
  | .output epoch pane _ => some (c, some epoch = c.workspaceEpoch && pane ∈ c.paneIds)
  | .operationResult _ _ _ _ _ => some (c, true)
  | .error _ _ => some (c, true)

/-! ## Messages -/

inductive Received where
  /-- the connection is closed as a protocol error -/
  | closed
  /-- authentication failed: the client is disposed -/
  | disposed
  /-- not handed on -/
  | dropped (c : Client)
  | delivered (c : Client) (frame : AttachmentFrame)

/-- the message handler, on the value of the text -/
def receive (c : Client) (message : Json) : Received :=
  if attachmentMaxFrameBytes < message.size then .closed
  else
    match parseAttachmentFrame message with
    | none => .closed
    | some (.error code text) =>
      if code = "unauthenticated".toList then .disposed else .delivered c (.error code text)
    | some frame =>
      match validateSequence c frame with
      | none => .closed
      | some (c, true) => .delivered c frame
      | some (c, false) => .dropped c

/-! ## Reading frames back -/

/-- every tag has its own parser -/
theorem parseTagged_tags (r : Record) :
    parseTagged "workspace.phase".toList r = parsePhase r ∧
    parseTagged "session.list".toList r = parseSessionList r ∧
    parseTagged "writer.state".toList r = parseWriterState r ∧
    parseTagged "operation.result".toList r = parseOperationResult r ∧
    parseTagged "workspace.projection".toList r = parseProjection r ∧
    parseTagged "workspace.pane_snapshot".toList r = parsePaneSnapshot r ∧
    parseTagged "workspace.output".toList r = parseOutput r ∧
    parseTagged "workspace.error".toList r = parseError r := by
  refine ⟨?_, ?_, ?_, ?_, ?_, ?_, ?_, ?_⟩
  · rw [parseTagged, if_pos rfl]
  · rw [parseTagged, if_neg (by decide +kernel), if_pos rfl]
  · rw [parseTagged, if_neg (by decide +kernel), if_neg (by decide +kernel), if_pos rfl]
  · rw [parseTagged, if_neg (by decide +kernel), if_neg (by decide +kernel), if_neg (by decide +kernel), if_pos rfl]
  · rw [parseTagged, if_neg (by decide +kernel), if_neg (by decide +kernel), if_neg (by decide +kernel),
      if_neg (by decide +kernel), if_pos rfl]
  · rw [parseTagged, if_neg (by decide +kernel), if_neg (by decide +kernel), if_neg (by decide +kernel),
      if_neg (by decide +kernel), if_neg (by decide +kernel), if_pos rfl]
  · rw [parseTagged, if_neg (by decide +kernel), if_neg (by decide +kernel), if_neg (by decide +kernel),
      if_neg (by decide +kernel), if_neg (by decide +kernel), if_neg (by decide +kernel), if_pos rfl]
  · rw [parseTagged, if_neg (by decide +kernel), if_neg (by decide +kernel), if_neg (by decide +kernel),
      if_neg (by decide +kernel), if_neg (by decide +kernel), if_neg (by decide +kernel), if_neg (by decide +kernel),
      if_pos rfl]

theorem parseTagged_sessionList (r : Record) : parseTagged "session.list".toList r = parseSessionList r := (parseTagged_tags r).2.1

theorem parseTagged_writerState (r : Record) : parseTagged "writer.state".toList r = parseWriterState r := (parseTagged_tags r).2.2.1

theorem parseTagged_operationResult (r : Record) : parseTagged "operation.result".toList r = parseOperationResult r := (parseTagged_tags r).2.2.2.1

theorem parseTagged_projection (r : Record) : parseTagged "workspace.projection".toList r = parseProjection r := (parseTagged_tags r).2.2.2.2.1

theorem parseTagged_paneSnapshot (r : Record) : parseTagged "workspace.pane_snapshot".toList r = parsePaneSnapshot r := (parseTagged_tags r).2.2.2.2.2.1

theorem parseTagged_output (r : Record) : parseTagged "workspace.output".toList r = parseOutput r := (parseTagged_tags r).2.2.2.2.2.2.1

theorem parseTagged_error (r : Record) : parseTagged "workspace.error".toList r = parseError r := (parseTagged_tags r).2.2.2.2.2.2.2

@[simp]
theorem Record.get_cons (k key : String) (v : Json) (r : Record) :
    Record.get ((k, v) :: r) key = if key = k then some v else Record.get r key := by
  unfold Record.get
  rw [List.lookup_cons]
  by_cases h : key = k
  · simp [h]
  · simp [h, beq_eq_false_iff_ne.2 h]

/-- the `type` field of a frame decides its parser -/
theorem parse_tag (tag : String) (fields : Record) :
    parseAttachmentFrame (.object (("type", lit tag) :: fields)) = parseTagged tag.toList (("type", lit tag) :: fields) := by
  simp [parseAttachmentFrame, isRecord, lit]

theorem parse_phase (p : Phase) : parseAttachmentFrame (ServerFrame.phase p).json = some (.phase p) := by
  cases p <;> decide +kernel

theorem parse_writerState {m : Text} {e : Uuid} (hm : matchesConnectionEpoch m = true) (he : matchesUuid (uuidText e) = true)
    (r : WriterRole) (a : Bool) :
    parseAttachmentFrame (ServerFrame.writerState m e r a).json = some (.writerState m (uuidText e) r a) := by
  have hrole : oneOf WriterRole.json roles (some r.json) = some r := by cases r <;> decide +kernel
  have hkeys : hasKeys [("type", lit "writer.state"), ("machine_connection_epoch", .string m), ("attachment_epoch", uuid e),
      ("role", r.json), ("writer_available", .bool a)]
      ["attachment_epoch", "machine_connection_epoch", "role", "type", "writer_available"] = true := by
    show List.isPerm ["type", "machine_connection_epoch", "attachment_epoch", "role", "writer_available"] _ = true
    decide +kernel
  rw [ServerFrame.json, parse_tag, parseTagged_writerState, parseWriterState, hkeys]
  simp [isConnectionEpoch, isUuid, isBoolean, uuid, hm, he, hrole]

/-- the Browser's identifiers are at least the Server's -/
theorem matchesNumericId_of {mark : Char} {t : Text} (h : Tmux.isNumericId mark t = true) : matchesNumericId mark t = true := by
  cases t with
  | nil => cases h
  | cons c digits =>
    simp only [Tmux.isNumericId, Bool.and_eq_true, decide_eq_true_eq, Bool.not_eq_true'] at h
    simp only [matchesNumericId, Bool.and_eq_true, decide_eq_true_eq, Bool.not_eq_true', List.length_cons]
    refine ⟨⟨⟨h.1.1.1, h.1.1.2⟩, ?_⟩, by omega⟩
    rw [List.all_eq_true] at h ⊢
    intro c hc
    have := h.2 c hc
    simpa [Tmux.isDigit, Char.isDigit, Char.le_def] using this

example : matchesNumericId '%' "%12".toList = true ∧ matchesNumericId '%' "%".toList = false := by decide +kernel

theorem decodeBase64Url_encode {maximum : ℕ} (data : List UInt8) (h : data.length ≤ maximum) :
    decodeBase64Url maximum (some (.string (Base64Url.encode data))) = some data := by
  have hlen : (Base64Url.encode data).length ≤ (maximum * 4 + 2) / 3 := by
    rw [Base64Url.length_encode]
    omega
  simp [decodeBase64Url, hlen, h]

theorem parse_paneSnapshot {e : Uuid} {pane : Text} {index : ℕ} (he : matchesUuid (uuidText e) = true)
    (hp : Tmux.isPaneId pane = true) (hi : index ≤ 15) (final : Bool) (data : List UInt8)
    (hd : data.length ≤ attachmentMaxTerminalChunkBytes) :
    parseAttachmentFrame (ServerFrame.paneSnapshot e pane index final (Base64Url.encode data)).json =
      some (.paneSnapshot (uuidText e) pane index final data) := by
  have hkeys : hasKeys [("type", lit "workspace.pane_snapshot"), ("workspace_epoch", uuid e), ("pane_id", .string pane),
      ("chunk_index", nat index), ("final", .bool final), ("data_base64", .string (Base64Url.encode data))]
      ["chunk_index", "data_base64", "final", "pane_id", "type", "workspace_epoch"] = true := by
    show List.isPerm ["type", "workspace_epoch", "pane_id", "chunk_index", "final", "data_base64"] _ = true
    decide +kernel
  have hindex : isBoundedInteger 0 (attachmentMaxPaneSnapshotBytes / attachmentMaxTerminalChunkBytes - 1) (some (nat index)) =
      some (index : ℤ) := by
    refine if_pos ⟨?_, ?_, ?_, ?_⟩
    · simp only [maxSafeInteger]
      omega
    · simp only [maxSafeInteger]
      omega
    · omega
    · norm_num [attachmentMaxPaneSnapshotBytes, attachmentMaxTerminalChunkBytes]
      omega
  rw [ServerFrame.json, parse_tag, parseTagged_paneSnapshot, parsePaneSnapshot, hkeys]
  simp [isUuid, isBoolean, uuid, he, isNumericId, matchesNumericId_of hp, hindex, decodeBase64Url_encode data hd]

theorem parse_output {e : Uuid} {pane : Text} (he : matchesUuid (uuidText e) = true) (hp : Tmux.isPaneId pane = true)
    (data : List UInt8) (hd : data.length ≤ attachmentMaxTerminalChunkBytes) :
    parseAttachmentFrame (ServerFrame.output e pane (Base64Url.encode data)).json = some (.output (uuidText e) pane data) := by
  have hkeys : hasKeys [("type", lit "workspace.output"), ("workspace_epoch", uuid e), ("pane_id", .string pane),
      ("data_base64", .string (Base64Url.encode data))] ["data_base64", "pane_id", "type", "workspace_epoch"] = true := by
    show List.isPerm ["type", "workspace_epoch", "pane_id", "data_base64"] _ = true
    decide +kernel
  rw [ServerFrame.json, parse_tag, parseTagged_output, parseOutput, hkeys]
  simp [isUuid, uuid, he, isNumericId, matchesNumericId_of hp, decodeBase64Url_encode data hd]

/-! ## Epochs -/

/-- `Uuid::new_v4`: version 4, variant 10 -/
def IsV4 (u : Uuid) : Prop := u.toNat / 16 ^ 19 % 16 = 4 ∧ 8 ≤ u.toNat / 16 ^ 15 % 16 ∧ u.toNat / 16 ^ 15 % 16 < 12

instance (u : Uuid) : Decidable (IsV4 u) := inferInstanceAs (Decidable (_ ∧ _))

theorem isHex_digitChar {n : ℕ} (h : n < 16) : isHex (Nat.digitChar n) = true := by
  have key : ∀ m : Fin 16, isHex (Nat.digitChar m) = true := by decide
  exact key ⟨n, h⟩

/-- 32 hexadecimal digits with hyphens, the right version and the right variant -/
theorem matchesUuid_digits {f : ℕ → Char} (hx : ∀ i, isHex (f i) = true) (hv : f 12 = '4')
    (hw : f 16 ∈ ['8', '9', 'a', 'b', 'A', 'B']) :
    matchesUuid ([f 0, f 1, f 2, f 3, f 4, f 5, f 6, f 7, '-', f 8, f 9, f 10, f 11, '-', f 12, f 13, f 14, f 15, '-', f 16,
      f 17, f 18, f 19, '-', f 20, f 21, f 22, f 23, f 24, f 25, f 26, f 27, f 28, f 29, f 30, f 31]) = true := by
  simp only [matchesUuid, List.take_succ_cons, List.take_zero, List.drop_succ_cons, List.drop_zero, List.all_cons, List.all_nil,
    hx, hv, List.length_cons, List.length_nil]
  simpa using hw

theorem matchesUuid_of_isV4 {u : Uuid} (h : IsV4 u) : matchesUuid (uuidText u) = true := by
  have hv : Nat.digitChar (u.toNat / 16 ^ 19 % 16) = '4' := by rw [h.1]; rfl
  have hw : Nat.digitChar (u.toNat / 16 ^ 15 % 16) ∈ ['8', '9', 'a', 'b', 'A', 'B'] := by
    have key : ∀ m : Fin 16, 8 ≤ m.val → m.val < 12 → Nat.digitChar m ∈ ['8', '9', 'a', 'b', 'A', 'B'] := by decide
    exact key ⟨_, Nat.mod_lt _ (by omega)⟩ h.2.1 h.2.2
  exact matchesUuid_digits (f := fun i => Nat.digitChar (u.toNat / 16 ^ (31 - i) % 16))
    (fun i => isHex_digitChar (Nat.mod_lt _ (by omega))) hv hw

/-- a positive number is written without a leading zero -/
theorem toDigits_head {n : ℕ} (h : 0 < n) :
    ∃ c digits, Nat.toDigits 10 n = c :: digits ∧ '1' ≤ c ∧ c ≤ '9' := by
  induction n using Nat.strong_induction_on with
  | _ n ih =>
    rw [Nat.toDigits_eq_if (by omega)]
    split_ifs with hn
    · have key : ∀ m : Fin 10, 0 < m.val → '1' ≤ Nat.digitChar m ∧ Nat.digitChar m ≤ '9' := by decide
      exact ⟨_, [], rfl, key ⟨n, hn⟩ h⟩
    · obtain ⟨c, digits, hd, hc⟩ := ih (n / 10) (by omega) (by omega)
      exact ⟨c, digits ++ [(n % 10).digitChar], by rw [hd]; rfl, hc⟩

/-- `connection_epoch.to_string()` of a claimed route -/
theorem matchesConnectionEpoch_jsonNumber {n : ℤ} (hpos : 0 < n) (hmax : n < 2 ^ 63) :
    matchesConnectionEpoch (jsonNumber n) = true := by
  obtain ⟨c, digits, hd, hc1, hc9⟩ := toDigits_head (n := n.natAbs) (by omega)
  have hall : ∀ d ∈ Nat.toDigits 10 n.natAbs, d.isDigit = true := fun d hd =>
    Nat.isDigit_of_mem_toDigits (by omega) (by omega) hd
  have hlen : (Nat.toDigits 10 n.natAbs).length ≤ 19 :=
    (Nat.length_toDigits_le_iff (by omega) (by omega)).2 (by omega)
  rw [jsonNumber, if_neg (by omega), hd]
  rw [hd] at hall hlen
  simp only [List.length_cons] at hlen
  simp only [matchesConnectionEpoch, Bool.and_eq_true, decide_eq_true_eq, List.all_eq_true]
  exact ⟨⟨⟨hc1, hc9⟩, by omega⟩, fun d hm => hall d (List.mem_cons_of_mem _ hm)⟩

/-! ## The epochs of a frame survive parsing -/

/-- the parsed frame is of the same kind, with the same epochs and the same writer state -/
def Mirrors : ServerFrame → AttachmentFrame → Prop
  | .phase p, .phase q => q = p
  | .sessionList m e _ _ _, .sessionList m' e' _ _ _ => m' = m ∧ e' = uuidText e
  | .writerState m e r a, .writerState m' e' r' a' => m' = m ∧ e' = uuidText e ∧ r' = r ∧ a' = a
  | .operationResult _ _ _ _ _, .operationResult _ _ _ _ _ => True
  | .projection m e _ _ _ _ _, .projection m' e' _ _ _ _ _ => m' = m ∧ e' = uuidText e
  | .paneSnapshot _ _ _ _ _, .paneSnapshot _ _ _ _ _ => True
  | .output _ _ _, .output _ _ _ => True
  | .error _ _, .error _ _ => True
  | _, _ => False

theorem bind_some {α β : Type} {x : Option α} {f : α → Option β} {b : β} (h : (x >>= f) = some b) :
    ∃ a, x = some a ∧ f a = some b := Option.bind_eq_some_iff.1 h

theorem isConnectionEpoch_some {t t' : Text} (h : isConnectionEpoch (some (.string t)) = some t') : t' = t := by
  simp only [isConnectionEpoch, Option.ite_none_right_eq_some, Option.some.injEq] at h
  exact h.2.symm

theorem isUuid_some {u : Uuid} {t : Text} (h : isUuid (some (uuid u)) = some t) : t = uuidText u := by
  simp only [isUuid, uuid, Option.ite_none_right_eq_some, Option.some.injEq] at h
  exact h.2.symm

theorem parse_mirrors (f : ServerFrame) {g : AttachmentFrame} (h : parseAttachmentFrame f.json = some g) : Mirrors f g := by
  cases f with
  | phase p =>
    rw [parse_phase] at h
    cases h
    rfl
  | sessionList m e c v ss =>
    change parseAttachmentFrame (.object (("type", lit "session.list") :: _)) = some g at h
    rw [parse_tag, parseTagged_sessionList] at h
    obtain ⟨_, -, h⟩ := bind_some h
    obtain ⟨m', hm, h⟩ := bind_some h
    obtain ⟨e', he, h⟩ := bind_some h
    obtain ⟨_, -, h⟩ := bind_some h
    obtain ⟨_, -, h⟩ := bind_some h
    obtain ⟨_, -, h⟩ := bind_some h
    obtain ⟨_, -, h⟩ := bind_some h
    obtain ⟨_, -, h⟩ := bind_some h
    obtain ⟨_, -, h⟩ := bind_some h
    obtain ⟨_, -, h⟩ := bind_some h
    cases h
    simp at hm he
    exact ⟨isConnectionEpoch_some hm, isUuid_some he⟩
  | writerState m e r a =>
    rw [ServerFrame.json, parse_tag, parseTagged_writerState] at h
    obtain ⟨_, -, h⟩ := bind_some h
    obtain ⟨m', hm, h⟩ := bind_some h
    obtain ⟨e', he, h⟩ := bind_some h
    obtain ⟨r', hr, h⟩ := bind_some h
    obtain ⟨a', ha, h⟩ := bind_some h
    cases h
    have hrole : oneOf WriterRole.json roles (some r.json) = some r := by cases r <;> decide +kernel
    simp [hrole, isBoolean] at hm he hr ha
    exact ⟨isConnectionEpoch_some hm, isUuid_some he, hr.symm, ha.symm⟩
  | operationResult r o p c m =>
    rw [ServerFrame.json, parse_tag, parseTagged_operationResult] at h
    obtain ⟨_, -, h⟩ := bind_some h
    obtain ⟨_, -, h⟩ := bind_some h
    obtain ⟨_, -, h⟩ := bind_some h
    obtain ⟨_, -, h⟩ := bind_some h
    obtain ⟨_, -, h⟩ := bind_some h
    obtain ⟨_, -, h⟩ := bind_some h
    cases h
    trivial
  | projection m e s c ws w ps =>
    rw [ServerFrame.json, parse_tag, parseTagged_projection] at h
    obtain ⟨_, -, h⟩ := bind_some h
    obtain ⟨m', hm, h⟩ := bind_some h
    obtain ⟨e', he, h⟩ := bind_some h
    obtain ⟨_, -, h⟩ := bind_some h
    obtain ⟨_, -, h⟩ := bind_some h
    obtain ⟨_, -, h⟩ := bind_some h
    obtain ⟨_, -, h⟩ := bind_some h
    obtain ⟨_, -, h⟩ := bind_some h
    obtain ⟨_, -, h⟩ := bind_some h
    obtain ⟨_, -, h⟩ := bind_some h
    obtain ⟨_, -, h⟩ := bind_some h
    obtain ⟨_, -, h⟩ := bind_some h
    obtain ⟨_, -, h⟩ := bind_some h
    obtain ⟨_, -, h⟩ := bind_some h
    obtain ⟨_, -, h⟩ := bind_some h
    obtain ⟨_, -, h⟩ := bind_some h
    cases h
    simp at hm he
    exact ⟨isConnectionEpoch_some hm, isUuid_some he⟩
  | paneSnapshot e p i f d =>
    rw [ServerFrame.json, parse_tag, parseTagged_paneSnapshot] at h
    obtain ⟨_, -, h⟩ := bind_some h
    obtain ⟨_, -, h⟩ := bind_some h
    obtain ⟨_, -, h⟩ := bind_some h
    obtain ⟨_, -, h⟩ := bind_some h
    obtain ⟨_, -, h⟩ := bind_some h
    obtain ⟨_, -, h⟩ := bind_some h
    cases h
    trivial
  | output e p d =>
    rw [ServerFrame.json, parse_tag, parseTagged_output] at h
    obtain ⟨_, -, h⟩ := bind_some h
    obtain ⟨_, -, h⟩ := bind_some h
    obtain ⟨_, -, h⟩ := bind_some h
    obtain ⟨_, -, h⟩ := bind_some h
    cases h
    trivial
  | error c m =>
    rw [ServerFrame.json, parse_tag, parseTagged_error] at h
    obtain ⟨_, -, h⟩ := bind_some h
    obtain ⟨_, -, h⟩ := bind_some h
    obtain ⟨_, -, h⟩ := bind_some h
    cases h
    trivial

/-! ## What a client holds behind a frame -/

/-- `currentAttachmentEpoch` after a frame that is not refused -/
def ServerFrame.attachmentEpoch (f : ServerFrame) (old : Option Text) : Option Text :=
  match f with
  | .sessionList _ e _ _ _ => some (uuidText e)
  | .projection _ e _ _ _ _ _ => some (uuidText e)
  | _ => old

/-- `currentConnectionEpoch` after it -/
def ServerFrame.connectionEpoch (f : ServerFrame) (old : Option Text) : Option Text :=
  match f with
  | .sessionList m _ _ _ _ => some m
  | _ => old

/-- the writer state shown after it -/
def ServerFrame.writerShown (f : ServerFrame) (old : Option (WriterRole × Bool)) : Option (WriterRole × Bool) :=
  match f with
  | .writerState _ _ r a => some (r, a)
  | _ => old

theorem validateSequence_epochs {c c' : Client} {f : ServerFrame} {g : AttachmentFrame} {b : Bool} (hm : Mirrors f g)
    (h : validateSequence c g = some (c', b)) :
    c'.attachmentEpoch = f.attachmentEpoch c.attachmentEpoch ∧ c'.connectionEpoch = f.connectionEpoch c.connectionEpoch := by
  cases f <;> cases g <;> simp only [Mirrors] at hm
  case phase.phase p q =>
    subst hm
    cases q
    case ready =>
      simp only [validateSequence] at h
      split at h
      · split_ifs at h
        cases h
        exact ⟨rfl, rfl⟩
      · cases h
    all_goals
      cases h
      exact ⟨rfl, rfl⟩
  case sessionList.sessionList =>
    cases h
    exact ⟨by rw [hm.2]; rfl, by rw [hm.1]; rfl⟩
  case writerState.writerState =>
    cases h
    exact ⟨rfl, rfl⟩
  case operationResult.operationResult =>
    cases h
    exact ⟨rfl, rfl⟩
  case projection.projection =>
    simp only [validateSequence] at h
    split_ifs at h
    cases h
    exact ⟨by rw [hm.2]; rfl, rfl⟩
  case paneSnapshot.paneSnapshot =>
    simp only [validateSequence] at h
    split at h
    · obtain ⟨p, -, hp⟩ := Option.map_eq_some_iff.1 h
      cases hp
      exact ⟨rfl, rfl⟩
    · cases h
  case output.output =>
    cases h
    exact ⟨rfl, rfl⟩
  case error.error =>
    cases h
    exact ⟨rfl, rfl⟩

/-- **A message that is not refused.** -/
theorem receive_epochs {c c' : Client} {f : ServerFrame}
    (h : receive c f.json = .dropped c' ∨ ∃ g, receive c f.json = .delivered c' g) :
    c'.attachmentEpoch = f.attachmentEpoch c.attachmentEpoch ∧ c'.connectionEpoch = f.connectionEpoch c.connectionEpoch ∧
      ∀ g, receive c f.json = .delivered c' g → Mirrors f g := by
  unfold receive at h ⊢
  split_ifs at h ⊢
  · simp at h
  · cases hp : parseAttachmentFrame f.json with
    | none => simp [hp] at h
    | some g =>
      have hm := parse_mirrors f hp
      rw [hp] at h
      cases g with
      | error code text =>
        dsimp only at h ⊢
        split_ifs at h ⊢
        · simp at h
        · simp only [Received.delivered.injEq, false_or] at h
          obtain ⟨g, rfl, rfl⟩ := h
          cases f <;> simp only [Mirrors] at hm
          exact ⟨rfl, rfl, fun g hg => by cases hg; trivial⟩
      | _ =>
        dsimp only at h ⊢
        generalize hv : validateSequence c _ = o at h ⊢
        match o, h with
        | some (c₁, true), h =>
          simp only [Received.delivered.injEq, reduceCtorEq, false_or] at h
          obtain ⟨g, rfl, rfl⟩ := h
          obtain ⟨h1, h2⟩ := validateSequence_epochs hm hv
          exact ⟨h1, h2, fun g hg => by cases hg; exact hm⟩
        | some (c₁, false), h =>
          simp only [Received.dropped.injEq, reduceCtorEq, exists_false, or_false] at h
          subst h
          obtain ⟨h1, h2⟩ := validateSequence_epochs hm hv
          exact ⟨h1, h2, fun g hg => by cases hg⟩

/-- **A writer state** with the client's epochs is handed on. -/
theorem receive_writerState {c : Client} {m : Text} {e : Uuid} (hm : matchesConnectionEpoch m = true) (he : IsV4 e)
    (hs : (Json.string m).size ≤ 21) (hc : c.connectionEpoch = some m) (ha : c.attachmentEpoch = some (uuidText e))
    (r : WriterRole) (a : Bool) :
    receive c (ServerFrame.writerState m e r a).json = .delivered c (.writerState m (uuidText e) r a) := by
  have hfit := fits_writerState hs e r a
  have hsize : ¬ attachmentMaxFrameBytes < (ServerFrame.writerState m e r a).json.size := Nat.not_lt.2 (of_decide_eq_true hfit)
  rw [receive, if_neg hsize, parse_writerState hm (matchesUuid_of_isV4 he)]
  simp [validateSequence, hc, ha]

end OwlMux.Browser
