/-
The frames a Server sends to a Browser (`ServerFrame` of `owlmux-server/src/attachment.rs`) and their JSON text.

A frame becomes a JSON value as serde derives it (internally tagged: `type` first, then the fields in order), and the text
of the value is what serde_json writes. `send` refuses a text longer than ATTACHMENT_MAX_FRAME_BYTES. JSON.parse of such a
text is the value again, so the Browser's side (`Contract.lean`) reads values.

Results:
- `size_object`, `size_array`: the size of a text, field by field;
- `fits_phase`, `fits_writerState`, `fits_paneSnapshot`, `fits_output`: these frames always fit.
-/
import Mathlib.Tactic
import OwlMux.Relay.Protocol
import OwlMux.Tmux.Projection

namespace OwlMux.Browser

open OwlMux.Relay (Text Uuid byteLen byteLen_append byteLen_cons byteLen_nil byteLen_of_forall byteLen_natValue
  byteLen_jsonString_base64 utf8Size_of_isDigit jsonEscape jsonString jsonNumber uuidText)
open OwlMux.Tmux (WindowSummary WindowProjection PaneProjection attachmentMaxTerminalChunkBytes)

/-! ## JSON -/

inductive Json where
  | null
  | bool (b : Bool)
  | number (n : ℤ)
  | string (t : Text)
  | array (items : List Json)
  | object (fields : List (String × Json))

/-- the items of an array or an object with commas between them -/
def separated : List Text → Text
  | [] => []
  | [t] => t
  | t :: u :: rest => t ++ ',' :: separated (u :: rest)

mutual

/-- `serde_json::to_string` -/
def Json.text : Json → Text
  | .null => "null".toList
  | .bool b => if b then "true".toList else "false".toList
  | .number n => jsonNumber n
  | .string t => jsonString t
  | .array items => '[' :: separated (Json.itemTexts items) ++ [']']
  | .object fields => '\x7b' :: separated (Json.fieldTexts fields) ++ ['\x7d']

def Json.itemTexts : List Json → List Text
  | [] => []
  | v :: vs => v.text :: Json.itemTexts vs

def Json.fieldTexts : List (String × Json) → List Text
  | [] => []
  | (k, v) :: fs => (jsonString k.toList ++ ':' :: v.text) :: Json.fieldTexts fs

end

theorem Json.itemTexts_eq (items : List Json) : Json.itemTexts items = items.map Json.text := by
  induction items with
  | nil => rfl
  | cons v vs ih => rw [Json.itemTexts, ih, List.map_cons]

theorem Json.fieldTexts_eq (fields : List (String × Json)) :
    Json.fieldTexts fields = fields.map fun f => jsonString f.1.toList ++ ':' :: f.2.text := by
  induction fields with
  | nil => rfl
  | cons f fs ih => rw [Json.fieldTexts, ih, List.map_cons]

/-! ## Frames -/

inductive Phase where
  | connecting
  | selecting
  | ready
  | failed
deriving DecidableEq, Repr

inductive WriterRole where
  | observer
  | writer
deriving DecidableEq, Repr

inductive Operation where
  | writerClaim
  | writerTakeover
  | sessionRefresh
  | sessionCreate
  | windowSelect
  | paneSelect
  | paneInput
  | clientResize
  | workspaceRefresh
deriving DecidableEq, Repr

inductive PublicOutcome where
  | succeeded
  | failed
  | ambiguous
deriving DecidableEq, Repr

structure SessionSummary where
  sessionId : Text
  sessionCreated : ℤ
  name : Text
  attachedClientCount : ℕ
  windowCount : ℕ
deriving DecidableEq, Repr

inductive ServerFrame where
  | phase (phase : Phase)
  | sessionList (machineConnectionEpoch : Text) (selectionEpoch : Uuid) (tmuxClientVersion : Text)
      (tmuxServerVersion : Option Text) (sessions : List SessionSummary)
  | writerState (machineConnectionEpoch : Text) (attachmentEpoch : Uuid) (role : WriterRole) (writerAvailable : Bool)
  | operationResult (requestId : Uuid) (operation : Operation) (outcome : PublicOutcome) (code message : Text)
  | projection (machineConnectionEpoch : Text) (workspaceEpoch : Uuid) (sessionId : Text) (sessionCreated : ℤ)
      (windows : List WindowSummary) (window : WindowProjection) (panes : List PaneProjection)
  | paneSnapshot (workspaceEpoch : Uuid) (paneId : Text) (chunkIndex : ℕ) (final : Bool) (dataBase64 : Text)
  | output (workspaceEpoch : Uuid) (paneId dataBase64 : Text)
  | error (code message : Text)
deriving DecidableEq, Repr

/-- a string of the source -/
def lit (s : String) : Json := .string s.toList

def nat (n : ℕ) : Json := .number n

def Phase.json : Phase → Json
  | .connecting => lit "connecting"
  | .selecting => lit "selecting"
  | .ready => lit "ready"
  | .failed => lit "failed"

def WriterRole.json : WriterRole → Json
  | .observer => lit "observer"
  | .writer => lit "writer"

def Operation.json : Operation → Json
  | .writerClaim => lit "writer.claim"
  | .writerTakeover => lit "writer.takeover"
  | .sessionRefresh => lit "session.refresh"
  | .sessionCreate => lit "session.create"
  | .windowSelect => lit "window.select"
  | .paneSelect => lit "pane.select"
  | .paneInput => lit "pane.input"
  | .clientResize => lit "client.resize"
  | .workspaceRefresh => lit "workspace.refresh"

def PublicOutcome.json : PublicOutcome → Json
  | .succeeded => lit "succeeded"
  | .failed => lit "failed"
  | .ambiguous => lit "ambiguous"

def uuid (u : Uuid) : Json := .string (uuidText u)

def SessionSummary.json (s : SessionSummary) : Json :=
  .object [("session_id", .string s.sessionId), ("session_created", .number s.sessionCreated), ("name", .string s.name),
    ("attached_client_count", nat s.attachedClientCount), ("window_count", nat s.windowCount)]

def windowSummaryJson (w : WindowSummary) : Json :=
  .object [("window_id", .string w.windowId), ("name", .string w.name), ("active", .bool w.active)]

def windowJson (w : WindowProjection) : Json :=
  .object [("window_id", .string w.windowId), ("name", .string w.name), ("width", nat w.width), ("height", nat w.height),
    ("layout", .string w.layout)]

/-- the terminal state is skipped -/
def paneJson (p : PaneProjection) : Json :=
  .object [("pane_id", .string p.paneId), ("active", .bool p.active), ("width", nat p.width), ("height", nat p.height),
    ("left", nat p.left), ("top", nat p.top), ("title", .string p.title), ("current_command", .string p.currentCommand)]

def ServerFrame.json : ServerFrame → Json
  | .phase p => .object [("type", lit "workspace.phase"), ("phase", p.json)]
  | .sessionList m e c v ss => .object [("type", lit "session.list"), ("machine_connection_epoch", .string m),
      ("selection_epoch", uuid e), ("tmux_client_version", .string c),
      ("tmux_server_version", match v with | some v => .string v | none => .null),
      ("sessions", .array (ss.map SessionSummary.json))]
  | .writerState m e r a => .object [("type", lit "writer.state"), ("machine_connection_epoch", .string m),
      ("attachment_epoch", uuid e), ("role", r.json), ("writer_available", .bool a)]
  | .operationResult r o p c m => .object [("type", lit "operation.result"), ("request_id", uuid r), ("operation", o.json),
      ("outcome", p.json), ("code", .string c), ("message", .string m)]
  | .projection m e s c ws w ps => .object [("type", lit "workspace.projection"), ("machine_connection_epoch", .string m),
      ("workspace_epoch", uuid e), ("session_id", .string s), ("session_created", .number c),
      ("windows", .array (ws.map windowSummaryJson)), ("window", windowJson w), ("panes", .array (ps.map paneJson))]
  | .paneSnapshot e p i f d => .object [("type", lit "workspace.pane_snapshot"), ("workspace_epoch", uuid e),
      ("pane_id", .string p), ("chunk_index", nat i), ("final", .bool f), ("data_base64", .string d)]
  | .output e p d => .object [("type", lit "workspace.output"), ("workspace_epoch", uuid e), ("pane_id", .string p),
      ("data_base64", .string d)]
  | .error c m => .object [("type", lit "workspace.error"), ("code", .string c), ("message", .string m)]

def attachmentMaxFrameBytes : ℕ := 32768

/-- the check of `send` and `send_with_control` -/
def ServerFrame.fits (f : ServerFrame) : Bool := byteLen f.json.text ≤ attachmentMaxFrameBytes

/-! ## Sizes -/

/-- the size of a text -/
def Json.size (v : Json) : ℕ := byteLen v.text

theorem byteLen_separated (ts : List Text) : byteLen (separated ts) = (ts.map byteLen).sum + (ts.length - 1) := by
  induction ts with
  | nil => rfl
  | cons t ts ih =>
    cases ts with
    | nil => simp [separated]
    | cons u rest =>
      have hc : ','.utf8Size = 1 := by decide
      rw [separated, byteLen_append, byteLen_cons, ih, hc]
      simp only [List.map_cons, List.sum_cons, List.length_cons]
      omega

theorem size_array (items : List Json) : (Json.array items).size = 2 + (items.map Json.size).sum + (items.length - 1) := by
  have h1 : '['.utf8Size = 1 := by decide
  have h2 : ']'.utf8Size = 1 := by decide
  rw [Json.size, Json.text, byteLen_append, byteLen_cons, byteLen_cons, byteLen_nil, byteLen_separated, Json.itemTexts_eq,
    h1, h2, List.map_map, List.length_map]
  show 1 + ((items.map Json.size).sum + (items.length - 1)) + (1 + 0) = _
  omega

theorem size_object (fields : List (String × Json)) :
    (Json.object fields).size =
      2 + (fields.map fun f => byteLen (jsonString f.1.toList) + 1 + f.2.size).sum + (fields.length - 1) := by
  have h1 : '\x7b'.utf8Size = 1 := by decide
  have h2 : '\x7d'.utf8Size = 1 := by decide
  have h3 : ':'.utf8Size = 1 := by decide
  rw [Json.size, Json.text, byteLen_append, byteLen_cons, byteLen_cons, byteLen_nil, byteLen_separated, Json.fieldTexts_eq,
    h1, h2, List.map_map, List.length_map]
  have hf : (fields.map (byteLen ∘ fun f : String × Json => jsonString f.1.toList ++ ':' :: f.2.text)) =
      fields.map fun f => byteLen (jsonString f.1.toList) + 1 + f.2.size := by
    refine List.map_congr_left fun f _ => ?_
    show byteLen (jsonString f.1.toList ++ ':' :: f.2.text) = _
    rw [byteLen_append, byteLen_cons, h3, Json.size]
    omega
  rw [hf]
  omega

/-- a character that is written as it is, in one byte -/
def Plain (c : Char) : Prop := c.utf8Size = 1 ∧ jsonEscape c = [c]

theorem size_string_plain {t : Text} (h : ∀ c ∈ t, Plain c) : (Json.string t).size = t.length + 2 := by
  have hq : '"'.utf8Size = 1 := by decide
  have hesc : t.flatMap jsonEscape = t := by
    induction t with
    | nil => rfl
    | cons c t ih =>
      rw [List.flatMap_cons, (h c List.mem_cons_self).2, ih fun d hd => h d (List.mem_cons_of_mem _ hd)]
      rfl
  rw [Json.size, Json.text, jsonString, hesc, byteLen_cons, byteLen_append, byteLen_cons, byteLen_nil, hq,
    byteLen_of_forall fun c hc => (h c hc).1]
  omega

theorem plain_digitChar {n : ℕ} (h : n < 16) : Plain (Nat.digitChar n) := by
  have key : ∀ m : Fin 16, (Nat.digitChar m).utf8Size = 1 ∧ jsonEscape (Nat.digitChar m) = [Nat.digitChar m] := by
    decide +kernel
  exact key ⟨n, h⟩

theorem plain_of_isDigit {c : Char} (h : c.isDigit = true) : Plain c := by
  obtain ⟨h1, h2⟩ : 48 ≤ c.toNat ∧ c.toNat ≤ 57 := by
    simp only [Char.isDigit, Bool.and_eq_true, decide_eq_true_eq] at h
    exact h
  refine ⟨utf8Size_of_isDigit h, ?_⟩
  have hne : ∀ d : Char, d.toNat < 48 ∨ 57 < d.toNat → c ≠ d := by
    rintro d hd rfl
    omega
  unfold jsonEscape
  rw [if_neg (hne '"' (by decide)), if_neg (hne '\\' (by decide)), if_neg (by omega), if_neg (by omega), if_neg (by omega),
    if_neg (by omega), if_neg (by omega), if_neg (by omega)]

theorem size_uuid (u : Uuid) : (uuid u).size = 38 := by
  have hplain : ∀ c ∈ uuidText u, Plain c := by
    have hd : ∀ c ∈ (List.range 32).map fun i => Nat.digitChar (u.toNat / 16 ^ (31 - i) % 16), Plain c := by
      intro c hc
      obtain ⟨i, -, rfl⟩ := List.mem_map.1 hc
      exact plain_digitChar (Nat.mod_lt _ (by omega))
    have hh : Plain '-' := ⟨by decide, by decide⟩
    intro c hc
    simp only [uuidText, List.mem_append, List.mem_cons] at hc
    rcases hc with (((hc | rfl | hc) | rfl | hc) | rfl | hc) | rfl | hc
    · exact hd c (List.mem_of_mem_take hc)
    · exact hh
    · exact hd c (List.mem_of_mem_drop (List.mem_of_mem_take hc))
    · exact hh
    · exact hd c (List.mem_of_mem_drop (List.mem_of_mem_take hc))
    · exact hh
    · exact hd c (List.mem_of_mem_drop (List.mem_of_mem_take hc))
    · exact hh
    · exact hd c (List.mem_of_mem_drop hc)
  have hlen : (uuidText u).length = 36 := by simp [uuidText]
  rw [uuid, size_string_plain hplain, hlen]

theorem size_bool (b : Bool) : (Json.bool b).size ≤ 5 := by cases b <;> decide

/-- a natural number below 10^k takes at most k characters -/
theorem size_nat {n k : ℕ} (hk : 0 < k) (h : n < 10 ^ k) : (nat n).size ≤ k := byteLen_natValue hk h

theorem size_base64 (data : List UInt8) : (Json.string (Base64Url.encode data)).size = (4 * data.length + 2) / 3 + 2 :=
  byteLen_jsonString_base64 data

theorem fits_phase (p : Phase) : (ServerFrame.phase p).fits = true := by cases p <;> rfl

/-- the sizes of the keys with quotes, colon and comma -/
theorem size_keys : (["type", "machine_connection_epoch", "attachment_epoch", "role", "writer_available"].map
      fun k => byteLen (jsonString k.toList)) = [6, 26, 18, 6, 18] ∧
    (["type", "workspace_epoch", "pane_id", "chunk_index", "final", "data_base64"].map
      fun k => byteLen (jsonString k.toList)) = [6, 17, 9, 13, 7, 13] := ⟨rfl, rfl⟩

theorem fits_of_size {f : ServerFrame} (h : f.json.size ≤ attachmentMaxFrameBytes) : f.fits = true := decide_eq_true h

theorem size_role (r : WriterRole) : r.json.size ≤ 10 := by cases r <;> decide

theorem fits_writerState {m : Text} (hm : (Json.string m).size ≤ 21) (e : Uuid) (r : WriterRole) (a : Bool) :
    (ServerFrame.writerState m e r a).fits = true := by
  obtain ⟨hk, -⟩ := size_keys
  simp only [List.map_cons, List.map_nil, List.cons.injEq, and_true] at hk
  obtain ⟨k1, k2, k3, k4, k5⟩ := hk
  have ht : (lit "writer.state").size = 14 := rfl
  have h1 := size_role r
  have h2 := size_bool a
  refine fits_of_size ?_
  rw [ServerFrame.json, size_object]
  simp only [List.map_cons, List.map_nil, List.sum_cons, List.sum_nil, List.length_cons, List.length_nil, k1, k2, k3, k4, k5, ht,
    size_uuid, attachmentMaxFrameBytes]
  omega

theorem fits_paneSnapshot {pane : Text} (hp : (Json.string pane).size ≤ 34) {index : ℕ} (hi : index < 100) (e : Uuid)
    (final : Bool) {data : List UInt8} (hd : data.length ≤ attachmentMaxTerminalChunkBytes) :
    (ServerFrame.paneSnapshot e pane index final (Base64Url.encode data)).fits = true := by
  obtain ⟨-, hk⟩ := size_keys
  simp only [List.map_cons, List.map_nil, List.cons.injEq, and_true] at hk
  obtain ⟨k1, k2, k3, k4, k5, k6⟩ := hk
  have ht : (lit "workspace.pane_snapshot").size = 25 := rfl
  have h1 := size_nat (k := 2) (by omega) hi
  have h2 := size_bool final
  have h3 := size_base64 data
  simp only [attachmentMaxTerminalChunkBytes] at hd
  refine fits_of_size ?_
  rw [ServerFrame.json, size_object]
  simp only [List.map_cons, List.map_nil, List.sum_cons, List.sum_nil, List.length_cons, List.length_nil, k1, k2, k3, k4, k5, k6,
    ht, size_uuid, h3, attachmentMaxFrameBytes]
  omega

theorem fits_output {pane : Text} (hp : (Json.string pane).size ≤ 34) (e : Uuid) {data : List UInt8}
    (hd : data.length ≤ attachmentMaxTerminalChunkBytes) : (ServerFrame.output e pane (Base64Url.encode data)).fits = true := by
  obtain ⟨-, hk⟩ := size_keys
  simp only [List.map_cons, List.map_nil, List.cons.injEq, and_true] at hk
  obtain ⟨k1, k2, k3, -, -, k6⟩ := hk
  have ht : (lit "workspace.output").size = 18 := rfl
  have h3 := size_base64 data
  simp only [attachmentMaxTerminalChunkBytes] at hd
  refine fits_of_size ?_
  rw [ServerFrame.json, size_object]
  simp only [List.map_cons, List.map_nil, List.sum_cons, List.sum_nil, List.length_cons, List.length_nil, k1, k2, k3, k6, ht,
    size_uuid, h3, attachmentMaxFrameBytes]
  omega

end OwlMux.Browser
