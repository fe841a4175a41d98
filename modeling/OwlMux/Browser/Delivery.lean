/-
What a Server admits from a target and what it can deliver: `parse_probe` of `owlmux-server/src/tmux.rs`, the session list
that `chooser` builds from the result, and the projection frame of a hydrated workspace.

Admission bounds every count, name and title by itself; delivery bounds the JSON text of the whole frame, where a quote and
a backslash of a name take two bytes, and the Browser bounds the version texts and the creation times once more. The product
of the single limits lies above the bound of a frame, and nothing on the Server's side bounds the versions.

Results:
- `parseProbe_spec`: what an accepted probe holds;
- `size_sessionList`, `size_projection`: the exact size of the two frames, in terms of what was admitted;
- `delivery_meets`: exactly which accepted probes and projections can be delivered.
Counterexample:
- `admitted_not_delivered`: a version text of 38 bytes; 92 sessions with names of 128 quotes.
-/
import Mathlib.Data.List.TakeWhile
import Mathlib.Tactic
import OwlMux.Browser.Install

namespace OwlMux.Browser

open OwlMux.Relay (Text Uuid byteLen byteLen_append byteLen_cons byteLen_nil byteLen_of_forall jsonEscape jsonString jsonNumber
  uuidText)
open OwlMux.Tmux (Parsed TmuxError WindowSummary WindowProjection PaneProjection WorkspaceProjection Safe orError require
  parsed_bind require_ok orError_ok stripHead splitn parseUnsigned parsePositiveI64 isSessionId isControl)

/-! ## The probe -/

/-- a line that ends in a newline, from its characters in reverse: a return before the newline is dropped -/
def endedLine : Text → Text
  | '\r' :: l => l.reverse
  | l => l.reverse

/-- `str::lines`, with the characters of the line being read in reverse -/
def linesFrom (line : Text) : Text → List Text
  | [] => if line.isEmpty then [] else [line.reverse]
  | c :: rest => if c = '\n' then endedLine line :: linesFrom [] rest else linesFrom (c :: line) rest

def lines (t : Text) : List Text := linesFrom [] t

def probeClientPrefix : Text := "__OWLMUX_TMUX_CLIENT_V1__\t".toList
def probeServerPrefix : Text := "__OWLMUX_TMUX_SERVER_V1__\t".toList
def maxSessions : ℕ := 128

/-- what follows the digits of the minor number -/
def parsePatch : Text → Parsed (Option Char)
  | [] => .ok none
  | [c] => if 'a' ≤ c ∧ c ≤ 'z' then .ok (some c) else .error .incompatible
  | _ => .error .incompatible

/-- `parse_version_release` -/
def parseVersionRelease (release : Text) : Parsed (ℕ × ℕ × Option Char) := do
  let (major, rest) ← orError .incompatible (match splitn '.' 2 release with | [a, b] => some (a, b) | _ => none)
  require (!major.isEmpty && major.all Tmux.isDigit) .incompatible
  let minor := rest.takeWhile Tmux.isDigit
  require (!minor.isEmpty) .incompatible
  let patch ← parsePatch (rest.dropWhile Tmux.isDigit)
  let major ← orError .incompatible (parseUnsigned (2 ^ 32) major)
  let minor ← orError .incompatible (parseUnsigned (2 ^ 32) minor)
  return (major, minor, patch)

/-- `validate_version`; no version is known to be bad -/
def validateVersion (value : Text) : Parsed Unit := do
  let release ← orError .incompatible (stripHead "tmux ".toList value)
  let (major, minor, patch) ← parseVersionRelease release
  require (!(major < 3 || (major = 3 && minor < 2) || (major = 3 && minor = 2 && patch.isNone))) .incompatible

def parseCount (t : Text) : Parsed ℕ := do
  let value ← orError .protocol (parseUnsigned (2 ^ 32) t)
  require (value ≤ 10000) .protocol
  return value

/-- one row of the loop, before the identity is looked up -/
def parseSessionRow (line : Text) : Parsed SessionSummary :=
  match splitn ':' 5 line with
  | [sessionId, created, attached, windows, name] => do
    require (isSessionId sessionId && byteLen name ≤ 128 && !name.any isControl) .protocol
    let created ← parsePositiveI64 created
    let attached ← parseCount attached
    let windows ← parseCount windows
    require (windows ≠ 0) .protocol
    return ⟨sessionId, created, name, attached, windows⟩
  | _ => .error .protocol

/-- the loop over the rows; `sessions` are those before -/
def parseSessions (sessions : List SessionSummary) : List Text → Parsed (List SessionSummary)
  | [] => .ok sessions
  | line :: rest =>
    if line.isEmpty then parseSessions sessions rest
    else do
      require (sessions.length < maxSessions) .tooManySessions
      let s ← parseSessionRow line
      require (!(sessions.map fun s => (s.sessionId, s.sessionCreated)).contains (s.sessionId, s.sessionCreated)) .protocol
      parseSessions (sessions ++ [s]) rest

structure ProbeResult where
  tmuxClientVersion : Text
  tmuxServerVersion : Option Text
  selectionEpoch : Uuid
  sessions : List SessionSummary
deriving DecidableEq, Repr

/-- the value behind the server mark -/
def parseProbeServer (value : Text) : Parsed (Option Text) :=
  if value = "none".toList then .ok none
  else do
    validateVersion value
    return some value

/-- `parse_probe`, with the new selection epoch -/
def parseProbe (epoch : Uuid) (stdout : Text) : Parsed ProbeResult :=
  match lines stdout with
  | first :: second :: rows => do
    let client ← orError .protocol (stripHead probeClientPrefix first)
    validateVersion client
    let server ← orError .protocol (stripHead probeServerPrefix second)
    let server ← parseProbeServer server
    let sessions ← parseSessions [] rows
    require (sessions.isEmpty || server.isSome) .protocol
    return ⟨client, server, epoch, sessions⟩
  | [first] => do
    let client ← orError .protocol (stripHead probeClientPrefix first)
    validateVersion client
    .error .protocol
  | [] => .error .protocol

/-- the frame of `chooser` -/
def sessionListFrame (connectionEpoch : ℤ) (p : ProbeResult) : ServerFrame :=
  .sessionList (jsonNumber connectionEpoch) p.selectionEpoch p.tmuxClientVersion p.tmuxServerVersion p.sessions

/-! ## What is accepted -/

structure SessionSummary.Ok (s : SessionSummary) : Prop where
  id : isSessionId s.sessionId = true
  created : 0 < s.sessionCreated
  name : Safe 128 s.name
  attached : s.attachedClientCount ≤ 10000
  windows : 1 ≤ s.windowCount ∧ s.windowCount ≤ 10000

theorem parseCount_ok {t : Text} {n : ℕ} (h : parseCount t = .ok n) : n ≤ 10000 := by
  obtain ⟨v, -, h⟩ := parsed_bind.1 h
  obtain ⟨u, hu, h⟩ := parsed_bind.1 h
  cases h
  simpa using require_ok.1 hu

theorem parseSessionRow_ok {line : Text} {s : SessionSummary} (h : parseSessionRow line = .ok s) : s.Ok := by
  unfold parseSessionRow at h
  split at h
  · obtain ⟨u, hid, h⟩ := parsed_bind.1 h
    obtain ⟨created, hcreated, h⟩ := parsed_bind.1 h
    obtain ⟨attached, hattached, h⟩ := parsed_bind.1 h
    obtain ⟨windows, hwindows, h⟩ := parsed_bind.1 h
    obtain ⟨u, hpos, h⟩ := parsed_bind.1 h
    cases h
    have hid' := require_ok.1 hid
    simp only [Bool.and_eq_true, decide_eq_true_eq, Bool.not_eq_true'] at hid'
    have hpositive : 0 < created := by
      obtain ⟨v, -, k⟩ := parsed_bind.1 hcreated
      obtain ⟨u, hu, k⟩ := parsed_bind.1 k
      cases k
      simpa using require_ok.1 hu
    have hne : windows ≠ 0 := by simpa using require_ok.1 hpos
    exact ⟨hid'.1.1, hpositive, ⟨hid'.1.2, hid'.2⟩, parseCount_ok hattached, Nat.one_le_iff_ne_zero.2 hne,
      parseCount_ok hwindows⟩
  · cases h

/-- the sessions of an accepted probe -/
structure SessionsOk (sessions : List SessionSummary) : Prop where
  each : ∀ s ∈ sessions, s.Ok
  nodup : (sessions.map fun s => (s.sessionId, s.sessionCreated)).Nodup
  length : sessions.length ≤ maxSessions

theorem parseSessions_ok {rows : List Text} {seen sessions : List SessionSummary} (hs : SessionsOk seen)
    (h : parseSessions seen rows = .ok sessions) : SessionsOk sessions := by
  induction rows generalizing seen with
  | nil =>
    cases h
    exact hs
  | cons line rows ih =>
    rw [parseSessions] at h
    split_ifs at h
    · exact ih hs h
    · obtain ⟨u, hlen, h⟩ := parsed_bind.1 h
      obtain ⟨s, hrow, h⟩ := parsed_bind.1 h
      obtain ⟨u, hnew, h⟩ := parsed_bind.1 h
      have hlen' : seen.length < maxSessions := by simpa using require_ok.1 hlen
      have hnew' : (s.sessionId, s.sessionCreated) ∉ seen.map fun s => (s.sessionId, s.sessionCreated) := by
        simpa using require_ok.1 hnew
      refine ih ⟨fun x hx => ?_, ?_, by rw [List.length_append, List.length_singleton]; omega⟩ h
      · rcases List.mem_append.1 hx with hx | hx
        · exact hs.each x hx
        · rw [List.mem_singleton.1 hx]
          exact parseSessionRow_ok hrow
      · rw [List.map_append, List.map_singleton]
        exact List.nodup_append.2 ⟨hs.nodup, by simp, by simpa using hnew'⟩

/-- a character of a version text -/
def VersionChar (c : Char) : Prop := c.toNat = 32 ∨ c.toNat = 46 ∨ (48 ≤ c.toNat ∧ c.toNat ≤ 57) ∨ (97 ≤ c.toNat ∧ c.toNat ≤ 122)

theorem versionChar_plain {c : Char} (h : VersionChar c) : Plain c ∧ isSafeCharacter c = true := by
  unfold VersionChar at h
  have hsize : c.utf8Size = 1 := by
    have hle : c.val ≤ 127 := by
      show c.toNat ≤ 127
      omega
    simp [Char.utf8Size, hle]
  have hne : ∀ d : Char, d.toNat = 34 ∨ d.toNat = 92 → c ≠ d := by
    rintro d hd rfl
    omega
  refine ⟨⟨hsize, ?_⟩, ?_⟩
  · unfold jsonEscape
    rw [if_neg (hne '"' (by decide)), if_neg (hne '\\' (by decide)), if_neg (by omega), if_neg (by omega), if_neg (by omega),
      if_neg (by omega), if_neg (by omega), if_neg (by omega)]
  · simp only [isSafeCharacter, Bool.and_eq_true, decide_eq_true_eq]
    omega

theorem versionChar_of_isDigit {c : Char} (h : Tmux.isDigit c = true) : VersionChar c := by
  simp only [Tmux.isDigit, Bool.and_eq_true, decide_eq_true_eq] at h
  exact Or.inr (Or.inr (Or.inl ⟨h.1, h.2⟩))

theorem append_of_stripHead {head t rest : Text} (h : stripHead head t = some rest) : t = head ++ rest := by
  induction head generalizing t with
  | nil =>
    cases h
    rfl
  | cons p ps ih =>
    cases t with
    | nil => cases h
    | cons b v =>
      rw [stripHead] at h
      split_ifs at h with hp
      rw [hp, ih h]
      rfl

theorem splitn_two {sep : Char} {t a b : Text} (h : splitn sep 2 t = [a, b]) : t = a ++ sep :: b := by
  induction t generalizing a with
  | nil => cases h
  | cons c t ih =>
    rw [splitn] at h
    split_ifs at h with hc
    · rw [splitn] at h
      cases h
      rw [hc]
      rfl
    · split at h
      · cases h
      · rename_i f fs hfs
        cases h
        rw [ih hfs]
        rfl

/-- an accepted version is written in plain characters, of any number -/
theorem validateVersion_chars {v : Text} {u : Unit} (h : validateVersion v = .ok u) : ∀ c ∈ v, VersionChar c := by
  obtain ⟨release, h1, h⟩ := parsed_bind.1 h
  obtain ⟨x, h2, -⟩ := parsed_bind.1 h
  obtain ⟨⟨major, rest⟩, h3, h2⟩ := parsed_bind.1 h2
  obtain ⟨u, h4, h2⟩ := parsed_bind.1 h2
  obtain ⟨u, h5, h2⟩ := parsed_bind.1 h2
  obtain ⟨patch, h6, -⟩ := parsed_bind.1 h2
  have hmajor := require_ok.1 h4
  simp only [Bool.and_eq_true, List.all_eq_true] at hmajor
  have hrelease : release = major ++ '.' :: rest := by
    have hsplit := orError_ok.1 h3
    split at hsplit
    · rename_i a b heq
      cases hsplit
      exact splitn_two heq
    · cases hsplit
  have hpatch : ∀ c ∈ rest.dropWhile Tmux.isDigit, VersionChar c := by
    intro c hc
    unfold parsePatch at h6
    split at h6
    · rename_i heq
      rw [heq] at hc
      cases hc
    · rename_i d heq
      rw [heq] at hc
      split_ifs at h6 with hd
      rw [List.mem_singleton.1 hc]
      exact Or.inr (Or.inr (Or.inr ⟨hd.1, hd.2⟩))
    · cases h6
  have hrest : ∀ c ∈ rest, VersionChar c := by
    intro c hc
    rw [← List.takeWhile_append_dropWhile (p := Tmux.isDigit) (l := rest), List.mem_append] at hc
    rcases hc with hc | hc
    · exact versionChar_of_isDigit (List.mem_takeWhile_imp hc)
    · exact hpatch c hc
  have htmux : ∀ c ∈ "tmux ".toList, VersionChar c := by
    intro c hc
    have hcases : c = 't' ∨ c = 'm' ∨ c = 'u' ∨ c = 'x' ∨ c = ' ' := by simpa using hc
    unfold VersionChar
    rcases hcases with rfl | rfl | rfl | rfl | rfl <;> decide
  intro c hc
  rw [append_of_stripHead (orError_ok.1 h1), List.mem_append, hrelease, List.mem_append, List.mem_cons] at hc
  rcases hc with hc | hc | rfl | hc
  · exact htmux c hc
  · exact versionChar_of_isDigit (hmajor.2 c hc)
  · exact Or.inr (Or.inl rfl)
  · exact hrest c hc

/-- an accepted probe -/
structure ProbeResult.Ok (p : ProbeResult) : Prop where
  client : ∀ c ∈ p.tmuxClientVersion, VersionChar c
  server : ∀ v, p.tmuxServerVersion = some v → ∀ c ∈ v, VersionChar c
  sessions : SessionsOk p.sessions
  present : p.sessions = [] ∨ p.tmuxServerVersion.isSome = true

/-- **What `parse_probe` accepts.** -/
theorem parseProbe_spec {epoch : Uuid} {stdout : Text} {p : ProbeResult} (h : parseProbe epoch stdout = .ok p) :
    p.Ok ∧ p.selectionEpoch = epoch := by
  unfold parseProbe at h
  split at h
  · obtain ⟨client, -, h⟩ := parsed_bind.1 h
    obtain ⟨u, hclient, h⟩ := parsed_bind.1 h
    obtain ⟨value, -, h⟩ := parsed_bind.1 h
    obtain ⟨server, hserver, h⟩ := parsed_bind.1 h
    obtain ⟨sessions, hsessions, h⟩ := parsed_bind.1 h
    obtain ⟨u, hpresent, h⟩ := parsed_bind.1 h
    cases h
    refine ⟨⟨validateVersion_chars hclient, fun v hv => ?_, parseSessions_ok ⟨by simp, by simp, by simp⟩ hsessions, ?_⟩, rfl⟩
    · unfold parseProbeServer at hserver
      split_ifs at hserver
      · cases hserver
        cases hv
      · obtain ⟨u, hversion, hserver⟩ := parsed_bind.1 hserver
        cases hserver
        cases hv
        exact validateVersion_chars hversion
    · simpa using require_ok.1 hpresent
  · obtain ⟨client, -, h⟩ := parsed_bind.1 h
    obtain ⟨u, -, h⟩ := parsed_bind.1 h
    cases h
  · cases h

/-! ## Sizes -/

/-- the bytes of a text in quotes, without them: a quote and a backslash take two -/
def textWeight (t : Text) : ℕ := byteLen t + t.count '"' + t.count '\\'

def digits (n : ℕ) : ℕ := (Nat.toDigits 10 n).length

theorem size_string_safe {maximum : ℕ} {t : Text} (h : Safe maximum t) : (Json.string t).size = textWeight t + 2 := by
  have hq : '"'.utf8Size = 1 := by decide
  have hesc : ∀ t : Text, t.any isControl = false → byteLen (t.flatMap jsonEscape) = textWeight t := by
    intro t
    induction t with
    | nil => intro _; rfl
    | cons c t ih =>
      intro hc
      rw [List.any_cons, Bool.or_eq_false_iff] at hc
      have hcontrol : 32 ≤ c.toNat := by
        have := hc.1
        simp only [isControl, Bool.or_eq_false_iff, decide_eq_false_iff_not] at this
        omega
      rw [List.flatMap_cons, byteLen_append, ih hc.2, textWeight, textWeight, byteLen_cons, List.count_cons, List.count_cons]
      by_cases h1 : c = '"'
      · subst h1
        have hb : byteLen (jsonEscape '"') = 2 := by decide
        rw [hb, hq]
        simp
        omega
      · by_cases h2 : c = '\\'
        · subst h2
          have hb : byteLen (jsonEscape '\\') = 2 := by decide
          have hs : '\\'.utf8Size = 1 := by decide
          rw [hb, hs]
          simp
          omega
        · have he : jsonEscape c = [c] := by
            unfold jsonEscape
            rw [if_neg h1, if_neg h2, if_neg (by omega), if_neg (by omega), if_neg (by omega), if_neg (by omega),
              if_neg (by omega), if_neg (by omega)]
          rw [he, byteLen_cons, byteLen_nil]
          simp [h1, h2]
          omega
  rw [Json.size, Json.text, jsonString, byteLen_cons, byteLen_append, byteLen_cons, byteLen_nil, hq, hesc t h.2]
  omega

theorem size_string_version {t : Text} (h : ∀ c ∈ t, VersionChar c) : (Json.string t).size = t.length + 2 :=
  size_string_plain fun c hc => (versionChar_plain (h c hc)).1

theorem size_number {n : ℤ} (h : 0 ≤ n) : (Json.number n).size = digits n.natAbs := by
  have hplain : ∀ c ∈ Nat.toDigits 10 n.natAbs, c.utf8Size = 1 := fun c hc =>
    (plain_of_isDigit (Nat.isDigit_of_mem_toDigits (by omega) (by omega) hc)).1
  rw [Json.size, Json.text, jsonNumber, if_neg (by omega), byteLen_of_forall hplain]
  rfl

theorem size_nat_eq (n : ℕ) : (nat n).size = digits n := size_number (Int.natCast_nonneg n)

theorem size_epoch {n : ℤ} (h : 0 ≤ n) : (Json.string (jsonNumber n)).size = digits n.natAbs + 2 := by
  have hplain : ∀ c ∈ Nat.toDigits 10 n.natAbs, Plain c := fun c hc =>
    plain_of_isDigit (Nat.isDigit_of_mem_toDigits (by omega) (by omega) hc)
  rw [jsonNumber, if_neg (by omega), size_string_plain hplain]
  rfl

theorem size_string_id (mark : Char) (hm : Plain mark) {t : Text} (h : Tmux.isNumericId mark t = true) :
    (Json.string t).size = t.length + 2 := by
  refine size_string_plain fun c hc => ?_
  cases t with
  | nil => cases h
  | cons m ds =>
    simp only [Tmux.isNumericId, Bool.and_eq_true, decide_eq_true_eq, List.all_eq_true, beq_iff_eq] at h
    rcases List.mem_cons.1 hc with rfl | hc
    · rw [h.1.1.1]
      exact hm
    · have := h.2 c hc
      exact plain_of_isDigit (by simpa [Tmux.isDigit, Char.isDigit, Char.le_def] using this)

theorem size_string_layout {t : Text} (h : ∀ c ∈ t, '!' ≤ c ∧ c ≤ '~') : (Json.string t).size = textWeight t + 2 := by
  refine @size_string_safe (byteLen t) t ⟨le_rfl, ?_⟩
  rw [List.any_eq_false]
  intro c hc
  obtain ⟨h1, h2⟩ := h c hc
  have h33 : 33 ≤ c.toNat := h1
  have h126 : c.toNat ≤ 126 := h2
  simp only [isControl, Bool.or_eq_true, Bool.and_eq_true, decide_eq_true_eq]
  omega

/-- the bytes of a session in the list -/
def SessionSummary.weight (s : SessionSummary) : ℕ :=
  87 + s.sessionId.length + digits s.sessionCreated.natAbs + textWeight s.name + digits s.attachedClientCount + digits s.windowCount

theorem size_session {s : SessionSummary} (h : s.Ok) : s.json.size = s.weight := by
  have hk : (["session_id", "session_created", "name", "attached_client_count", "window_count"].map
      fun k => byteLen (jsonString k.toList)) = [12, 17, 6, 23, 14] := rfl
  simp only [List.map_cons, List.map_nil, List.cons.injEq, and_true] at hk
  obtain ⟨k1, k2, k3, k4, k5⟩ := hk
  rw [SessionSummary.json, size_object]
  simp only [List.map_cons, List.map_nil, List.sum_cons, List.sum_nil, List.length_cons, List.length_nil, k1, k2, k3, k4, k5,
    size_string_id '$' ⟨by decide, by decide⟩ h.id, size_number h.created.le, size_string_safe h.name, size_nat_eq,
    SessionSummary.weight]
  omega

def serverWeight : Option Text → ℕ
  | some v => v.length + 2
  | none => 4

/-- the bytes of the session list -/
def ProbeResult.weight (connectionEpoch : ℤ) (p : ProbeResult) : ℕ :=
  172 + digits connectionEpoch.natAbs + p.tmuxClientVersion.length + serverWeight p.tmuxServerVersion +
    (p.sessions.map SessionSummary.weight).sum + (p.sessions.length - 1)

/-- null without a server -/
def serverJson : Option Text → Json
  | some v => .string v
  | none => .null

theorem sessionListFrame_json (n : ℤ) (p : ProbeResult) : (sessionListFrame n p).json =
    .object [("type", lit "session.list"), ("machine_connection_epoch", .string (jsonNumber n)),
      ("selection_epoch", uuid p.selectionEpoch), ("tmux_client_version", .string p.tmuxClientVersion),
      ("tmux_server_version", serverJson p.tmuxServerVersion), ("sessions", .array (p.sessions.map SessionSummary.json))] := by
  cases hv : p.tmuxServerVersion with
  | none =>
    rw [sessionListFrame, hv]
    rfl
  | some v =>
    rw [sessionListFrame, hv]
    rfl

theorem size_sessionList {n : ℤ} (hn : 0 ≤ n) {p : ProbeResult} (h : p.Ok) :
    (sessionListFrame n p).json.size = p.weight n := by
  have hk : (["type", "machine_connection_epoch", "selection_epoch", "tmux_client_version", "tmux_server_version", "sessions"].map
      fun k => byteLen (jsonString k.toList)) = [6, 26, 17, 21, 21, 10] := rfl
  simp only [List.map_cons, List.map_nil, List.cons.injEq, and_true] at hk
  obtain ⟨k1, k2, k3, k4, k5, k6⟩ := hk
  have ht : (lit "session.list").size = 14 := rfl
  have hserver : (serverJson p.tmuxServerVersion).size = serverWeight p.tmuxServerVersion := by
    cases hv : p.tmuxServerVersion with
    | none => decide
    | some v => exact size_string_version (h.server v hv)
  have hsessions : (p.sessions.map SessionSummary.json).map Json.size = p.sessions.map SessionSummary.weight := by
    rw [List.map_map]
    exact List.map_congr_left fun s hs => size_session (h.sessions.each s hs)
  rw [sessionListFrame_json, size_object]
  simp only [List.map_cons, List.map_nil, List.sum_cons, List.sum_nil, List.length_cons, List.length_nil, k1, k2, k3, k4, k5, k6,
    ht, size_epoch hn, size_uuid, size_string_version h.client, hserver, size_array, List.length_map, hsessions,
    ProbeResult.weight]
  omega

def boolWeight (b : Bool) : ℕ := if b then 4 else 5

theorem size_bool_eq (b : Bool) : (Json.bool b).size = boolWeight b := by cases b <;> decide

def windowSummaryWeight (w : WindowSummary) : ℕ := 36 + w.windowId.length + textWeight w.name + boolWeight w.active

def windowWeight (w : WindowProjection) : ℕ :=
  57 + w.windowId.length + textWeight w.name + digits w.width + digits w.height + textWeight w.layout

def paneWeight (p : PaneProjection) : ℕ :=
  90 + p.paneId.length + boolWeight p.active + digits p.width + digits p.height + digits p.left + digits p.top +
    textWeight p.title + textWeight p.currentCommand

/-- the bytes of the projection -/
def projectionWeight (connectionEpoch : ℤ) (session : Text) (created : ℤ) (w : WorkspaceProjection) : ℕ :=
  187 + digits connectionEpoch.natAbs + session.length + digits created.natAbs + (w.windows.map windowSummaryWeight).sum +
    (w.windows.length - 1) + windowWeight w.window + (w.panes.map paneWeight).sum + (w.panes.length - 1)

theorem size_windowSummary {w : WindowSummary} (h : w.Ok) : (windowSummaryJson w).size = windowSummaryWeight w := by
  have hk : (["window_id", "name", "active"].map fun k => byteLen (jsonString k.toList)) = [11, 6, 8] := rfl
  simp only [List.map_cons, List.map_nil, List.cons.injEq, and_true] at hk
  obtain ⟨k1, k2, k3⟩ := hk
  rw [windowSummaryJson, size_object]
  simp only [List.map_cons, List.map_nil, List.sum_cons, List.sum_nil, List.length_cons, List.length_nil, k1, k2, k3,
    size_string_id '@' ⟨by decide, by decide⟩ h.id, size_string_safe h.name, size_bool_eq, windowSummaryWeight]
  omega

theorem size_window {w : WindowProjection} (h : w.Ok) : (windowJson w).size = windowWeight w := by
  have hk : (["window_id", "name", "width", "height", "layout"].map fun k => byteLen (jsonString k.toList)) =
      [11, 6, 7, 8, 8] := rfl
  simp only [List.map_cons, List.map_nil, List.cons.injEq, and_true] at hk
  obtain ⟨k1, k2, k3, k4, k5⟩ := hk
  rw [windowJson, size_object]
  simp only [List.map_cons, List.map_nil, List.sum_cons, List.sum_nil, List.length_cons, List.length_nil, k1, k2, k3, k4, k5,
    size_string_id '@' ⟨by decide, by decide⟩ h.id, size_string_safe h.name, size_nat_eq,
    size_string_layout h.layout.2.2, windowWeight]
  omega

theorem size_pane {window : WindowProjection} {p : PaneProjection} (h : p.Fits window) (hl : Tmux.Labelled p) :
    (paneJson p).size = paneWeight p := by
  have hk : (["pane_id", "active", "width", "height", "left", "top", "title", "current_command"].map
      fun k => byteLen (jsonString k.toList)) = [9, 8, 7, 8, 6, 5, 7, 17] := rfl
  simp only [List.map_cons, List.map_nil, List.cons.injEq, and_true] at hk
  obtain ⟨k1, k2, k3, k4, k5, k6, k7, k8⟩ := hk
  rw [paneJson, size_object]
  simp only [List.map_cons, List.map_nil, List.sum_cons, List.sum_nil, List.length_cons, List.length_nil, k1, k2, k3, k4, k5, k6,
    k7, k8, size_string_id '%' ⟨by decide, by decide⟩ h.id, size_bool_eq, size_nat_eq, size_string_safe hl.title,
    size_string_safe hl.currentCommand, paneWeight]
  omega

theorem size_projection {n : ℤ} (hn : 0 ≤ n) (e : Uuid) {session : Text} {created : ℤ} {w : WorkspaceProjection}
    (h : w.Ok session created) : (projectionFrame n e session created w).json.size = projectionWeight n session created w := by
  have hk : (["type", "machine_connection_epoch", "workspace_epoch", "session_id", "session_created", "windows", "window",
      "panes"].map fun k => byteLen (jsonString k.toList)) = [6, 26, 17, 12, 17, 9, 8, 7] := rfl
  simp only [List.map_cons, List.map_nil, List.cons.injEq, and_true] at hk
  obtain ⟨k1, k2, k3, k4, k5, k6, k7, k8⟩ := hk
  have ht : (lit "workspace.projection").size = 22 := rfl
  have hwindows : (w.windows.map windowSummaryJson).map Json.size = w.windows.map windowSummaryWeight := by
    rw [List.map_map]
    exact List.map_congr_left fun x hx => size_windowSummary (h.windows.each x hx)
  have hpanes : (w.panes.map paneJson).map Json.size = w.panes.map paneWeight := by
    rw [List.map_map]
    exact List.map_congr_left fun p hp => size_pane (h.panes.each p hp) (h.labels p hp)
  rw [projectionFrame, ServerFrame.json, size_object]
  simp only [List.map_cons, List.map_nil, List.sum_cons, List.sum_nil, List.length_cons, List.length_nil, k1, k2, k3, k4, k5, k6,
    k7, k8, ht, size_epoch hn, size_uuid, size_string_id '$' ⟨by decide, by decide⟩ h.session,
    size_number h.created.le, size_array, List.length_map, hwindows, hpanes, size_window h.window, projectionWeight]
  omega

/-! ## What the Browser reads -/

def readSession (s : SessionSummary) : AttachmentSessionSummary :=
  ⟨s.sessionId, s.sessionCreated, s.name, s.attachedClientCount, s.windowCount⟩

/-- the frame the client reads, with the same sessions -/
def readSessionList (connectionEpoch : ℤ) (p : ProbeResult) : AttachmentFrame :=
  .sessionList (jsonNumber connectionEpoch) (uuidText p.selectionEpoch) p.tmuxClientVersion p.tmuxServerVersion
    (p.sessions.map readSession)

theorem isSafeText_version {v : Text} (h : ∀ c ∈ v, VersionChar c) :
    isSafeText 32 true (some (.string v)) = if v.length ≤ 32 then some v else none := by
  have hlen : byteLen v = v.length := byteLen_of_forall fun c hc => (versionChar_plain (h c hc)).1.1
  have hall : v.all isSafeCharacter = true := List.all_eq_true.2 fun c hc => (versionChar_plain (h c hc)).2
  simp [isSafeText, hlen, hall]

theorem parse_session {s : SessionSummary} (h : s.Ok) :
    parseSession s.json = if s.sessionCreated ≤ 2 ^ 53 - 1 then some (readSession s) else none := by
  have hkeys : hasKeys [("session_id", .string s.sessionId), ("session_created", .number s.sessionCreated), ("name", .string s.name),
      ("attached_client_count", nat s.attachedClientCount), ("window_count", nat s.windowCount)]
      ["attached_client_count", "name", "session_created", "session_id", "window_count"] = true := by
    show List.isPerm ["session_id", "session_created", "name", "attached_client_count", "window_count"] _ = true
    rfl
  have hid : isNumericId '$' (some (.string s.sessionId)) = some s.sessionId := isNumericId_string h.id
  have hattached : isBoundedInteger 0 10000 (some (nat s.attachedClientCount)) = some (s.attachedClientCount : ℤ) :=
    @isBoundedInteger_nat s.attachedClientCount 0 10000 (Nat.zero_le _) h.attached (by decide)
  have hwindows : isBoundedInteger 1 10000 (some (nat s.windowCount)) = some (s.windowCount : ℤ) :=
    @isBoundedInteger_nat s.windowCount 1 10000 h.windows.1 h.windows.2 (by decide)
  have hcreated : isBoundedInteger 1 maxSafeInteger (some (.number s.sessionCreated)) =
      if s.sessionCreated ≤ 2 ^ 53 - 1 then some s.sessionCreated else none := by
    have hpos := h.created
    by_cases hc : s.sessionCreated ≤ 2 ^ 53 - 1
    · rw [if_pos hc]
      have hsafe : s.sessionCreated ≤ maxSafeInteger := hc
      exact if_pos ⟨hsafe, by simp only [maxSafeInteger]; omega, hpos, hsafe⟩
    · rw [if_neg hc]
      exact if_neg fun hall => hc hall.1
  rw [parseSession, SessionSummary.json]
  simp only [isRecord, Option.bind_eq_bind, Option.bind_some, hkeys, guard_true, Record.get_cons, String.reduceEq, reduceIte, hid,
    hcreated, isSafeText_of_safe h.name, hattached, hwindows]
  split_ifs <;> rfl

theorem parse_serverVersion {p : ProbeResult} (h : p.Ok) :
    parseServerVersion (some (serverJson p.tmuxServerVersion)) =
      if ∀ v, p.tmuxServerVersion = some v → v.length ≤ 32 then some p.tmuxServerVersion else none := by
  cases hv : p.tmuxServerVersion with
  | none =>
    rw [if_pos (by simp)]
    rfl
  | some v =>
    have hsafe := isSafeText_version (h.server v hv)
    have hp : parseServerVersion (some (serverJson (some v))) = (isSafeText 32 true (some (.string v))).map some := rfl
    rw [hp, hsafe]
    by_cases hlen : v.length ≤ 32
    · rw [if_pos hlen, if_pos (by simpa using hlen)]
      rfl
    · rw [if_neg hlen, if_neg (by simpa using hlen)]
      rfl

/-- all sessions are read, or one of them is refused -/
theorem parse_sessions {sessions : List SessionSummary} (h : ∀ s ∈ sessions, s.Ok) :
    (sessions.map SessionSummary.json).mapM parseSession =
      if ∀ s ∈ sessions, s.sessionCreated ≤ 2 ^ 53 - 1 then some (sessions.map readSession) else none := by
  induction sessions with
  | nil => rfl
  | cons s l ih =>
    rw [List.map_cons, List.mapM_cons, parse_session (h s List.mem_cons_self), ih fun x hx => h x (List.mem_cons_of_mem _ hx)]
    by_cases hs : s.sessionCreated ≤ 2 ^ 53 - 1
    · by_cases hl : ∀ x ∈ l, x.sessionCreated ≤ 2 ^ 53 - 1
      · have hall : ∀ x ∈ s :: l, x.sessionCreated ≤ 2 ^ 53 - 1 := List.forall_mem_cons.2 ⟨hs, hl⟩
        rw [if_pos hs, if_pos hl, if_pos hall]
        rfl
      · have hall : ¬ ∀ x ∈ s :: l, x.sessionCreated ≤ 2 ^ 53 - 1 := fun hall => hl fun x hx => hall x (List.mem_cons_of_mem _ hx)
        rw [if_pos hs, if_neg hl, if_neg hall]
        rfl
    · have hall : ¬ ∀ x ∈ s :: l, x.sessionCreated ≤ 2 ^ 53 - 1 := fun hall => hs (hall s List.mem_cons_self)
      rw [if_neg hs, if_neg hall]
      rfl

/-- the limits of the Browser that the Server does not check -/
structure Readable (p : ProbeResult) : Prop where
  client : p.tmuxClientVersion.length ≤ 32
  server : ∀ v, p.tmuxServerVersion = some v → v.length ≤ 32
  created : ∀ s ∈ p.sessions, s.sessionCreated ≤ 2 ^ 53 - 1

/-- **The session list** is read with the same sessions exactly if these limits hold. -/
theorem parse_sessionList {n : ℤ} (hpos : 0 < n) (hmax : n < 2 ^ 63) {p : ProbeResult} (h : p.Ok) (he : IsV4 p.selectionEpoch) :
    parseAttachmentFrame (sessionListFrame n p).json = some (readSessionList n p) ↔ Readable p := by
  have hkeys : hasKeys [("type", lit "session.list"), ("machine_connection_epoch", .string (jsonNumber n)),
      ("selection_epoch", uuid p.selectionEpoch), ("tmux_client_version", .string p.tmuxClientVersion),
      ("tmux_server_version", serverJson p.tmuxServerVersion), ("sessions", .array (p.sessions.map SessionSummary.json))]
      ["machine_connection_epoch", "selection_epoch", "sessions", "tmux_client_version", "tmux_server_version",
        "type"] = true := by
    show List.isPerm ["type", "machine_connection_epoch", "selection_epoch", "tmux_client_version", "tmux_server_version",
      "sessions"] _ = true
    rfl
  have hepoch : isConnectionEpoch (some (.string (jsonNumber n))) = some (jsonNumber n) :=
    if_pos (matchesConnectionEpoch_jsonNumber hpos hmax)
  have hselection : isUuid (some (uuid p.selectionEpoch)) = some (uuidText p.selectionEpoch) := if_pos (matchesUuid_of_isV4 he)
  have hcount : (p.sessions.map SessionSummary.json).length ≤ 128 := by
    rw [List.length_map]
    exact h.sessions.length
  have hdistinct : distinct ((p.sessions.map readSession).map fun s => (s.sessionId, s.sessionCreated)) = true := by
    rw [distinct, decide_eq_true_eq, List.map_map]
    exact h.sessions.nodup
  have hpresent : ((p.sessions.map readSession).isEmpty || p.tmuxServerVersion.isSome) = true := by
    rcases h.present with h | h
    · simp [h]
    · simp [h]
  rw [sessionListFrame_json, parse_tag, parseTagged_sessionList]
  constructor
  · intro hsome
    obtain ⟨_, -, hsome⟩ := bind_some hsome
    obtain ⟨_, -, hsome⟩ := bind_some hsome
    obtain ⟨_, -, hsome⟩ := bind_some hsome
    obtain ⟨client, h1, hsome⟩ := bind_some hsome
    obtain ⟨server, h2, hsome⟩ := bind_some hsome
    obtain ⟨items, h3, hsome⟩ := bind_some hsome
    obtain ⟨_, -, hsome⟩ := bind_some hsome
    obtain ⟨sessions, h4, -⟩ := bind_some hsome
    simp only [Record.get_cons, String.reduceEq, reduceIte, isSafeText_version h.client] at h1
    simp only [Record.get_cons, String.reduceEq, reduceIte, parse_serverVersion h] at h2
    simp only [Record.get_cons, String.reduceEq, reduceIte, isArray, Option.some.injEq] at h3
    rw [← h3, parse_sessions h.sessions.each] at h4
    exact ⟨(Option.ite_none_right_eq_some.1 h1).1, (Option.ite_none_right_eq_some.1 h2).1,
      (Option.ite_none_right_eq_some.1 h4).1⟩
  · intro hread
    rw [parseSessionList, hkeys]
    simp only [Record.get_cons, String.reduceEq, reduceIte, hepoch, hselection, isSafeText_version h.client, if_pos hread.client,
      parse_serverVersion h, if_pos hread.server, isArray, Option.bind_some, guard_true, Option.bind_eq_bind, hcount,
      parse_sessions h.sessions.each, if_pos hread.created, hdistinct, hpresent]
    rfl

/-! ## Delivery -/

/-- the session list of the probe fits a frame and is read with the same sessions -/
def SessionListDelivered (n : ℤ) (p : ProbeResult) : Prop :=
  (sessionListFrame n p).fits = true ∧ parseAttachmentFrame (sessionListFrame n p).json = some (readSessionList n p)

theorem fits_iff (f : ServerFrame) : f.fits = true ↔ f.json.size ≤ attachmentMaxFrameBytes := by
  rw [ServerFrame.fits, decide_eq_true_eq]
  rfl

/-- **Delivery.** An accepted probe is delivered exactly if its versions have at most 32 characters, its creation times are at
most 2^53 - 1 and the list weighs at most a frame; the projection of a hydrated workspace fits exactly if it weighs at most
a frame. -/
theorem delivery_meets (n : ℤ) (hpos : 0 < n) (hmax : n < 2 ^ 63) (e : Uuid) (he : IsV4 e) :
    (∀ stdout p, parseProbe e stdout = .ok p →
      (SessionListDelivered n p ↔ Readable p ∧ p.weight n ≤ attachmentMaxFrameBytes)) ∧
      ∀ session created s s' w, Tmux.hydrate session created s = (.ok w, s') →
        ((projectionFrame n e session created w).fits = true ↔ projectionWeight n session created w ≤ attachmentMaxFrameBytes) := by
  constructor
  · intro stdout p h
    obtain ⟨hok, hepoch⟩ := parseProbe_spec h
    rw [SessionListDelivered, fits_iff, size_sessionList hpos.le hok, parse_sessionList hpos hmax hok (by rw [hepoch]; exact he)]
    exact and_comm
  · intro session created s s' w h
    rw [fits_iff, size_projection hpos.le e (Tmux.hydrate_result h)]

def probeEpoch : Uuid := 0x00000000000040008000000000000002#128

def oneSessionRows : List Text :=
  [probeClientPrefix ++ "tmux 3.4".toList, probeServerPrefix ++ "tmux 3.4".toList, "$1:1700000000:1:2:alpha".toList]

/-- one session, delivered -/
theorem delivery_meets_oneSession :
    ∃ p, parseProbe probeEpoch (oneSessionRows.flatMap (· ++ ['\n'])) = .ok p ∧ SessionListDelivered 7 p := by
  have hprobe : parseProbe probeEpoch (oneSessionRows.flatMap (· ++ ['\n'])) =
      .ok ⟨"tmux 3.4".toList, some "tmux 3.4".toList, probeEpoch, [⟨"$1".toList, 1700000000, "alpha".toList, 1, 2⟩]⟩ := by
    decide +kernel
  refine ⟨_, hprobe, ((delivery_meets 7 (by decide) (by decide) _ (by decide)).1 _ _ hprobe).2 ⟨⟨by decide, ?_, ?_⟩, ?_⟩⟩
  · intro v hv
    cases hv
    decide
  · intro s hs
    rw [List.mem_singleton.1 hs]
    decide
  · decide +kernel

/-! ## Accepted and not delivered -/

theorem linesFrom_append {row : Text} (h : '\n' ∉ row) (line rest : Text) :
    linesFrom line (row ++ rest) = linesFrom (row.reverse ++ line) rest := by
  induction row generalizing line with
  | nil => rfl
  | cons c row ih =>
    rw [List.mem_cons, not_or] at h
    rw [List.cons_append, linesFrom, if_neg (Ne.symm h.1), ih h.2, List.reverse_cons, List.append_assoc]
    rfl

/-- rows that end in a newline each -/
theorem lines_rows {rows : List Text} (h : ∀ row ∈ rows, '\n' ∉ row ∧ row.getLast? ≠ some '\r') :
    lines (rows.flatMap (· ++ ['\n'])) = rows := by
  unfold lines
  induction rows with
  | nil => rfl
  | cons row rows ih =>
    obtain ⟨h1, h2⟩ := h row List.mem_cons_self
    rw [List.flatMap_cons, List.append_assoc, linesFrom_append h1, List.append_nil, List.singleton_append, linesFrom, if_pos rfl,
      ih fun x hx => h x (List.mem_cons_of_mem _ hx)]
    congr 1
    unfold endedLine
    split
    · rename_i l hl
      rw [List.getLast?_eq_head?_reverse, hl] at h2
      exact (h2 rfl).elim
    · exact List.reverse_reverse row

/-- a version with a minor number of 31 digits -/
def longVersionRows : List Text :=
  [probeClientPrefix ++ "tmux 3.".toList ++ List.replicate 30 '0' ++ ['4'], probeServerPrefix ++ "none".toList]

/-- 92 sessions with names of 128 quotes -/
def crowdedRows : List Text :=
  [probeClientPrefix ++ "tmux 3.4".toList, probeServerPrefix ++ "tmux 3.4".toList] ++
    (List.range 92).map fun i => '$' :: Nat.toDigits 10 i ++ ":1700000000:0:1:".toList ++ List.replicate 128 '"'

theorem longVersion_accepted : parseProbe probeEpoch (longVersionRows.flatMap (· ++ ['\n'])) =
    .ok ⟨"tmux 3.".toList ++ List.replicate 30 '0' ++ ['4'], none, probeEpoch, []⟩ := by decide +kernel

theorem crowded_accepted : ∃ p, parseProbe probeEpoch (crowdedRows.flatMap (· ++ ['\n'])) = .ok p ∧
    attachmentMaxFrameBytes < p.weight 7 := by
  have hrows : ∀ row ∈ crowdedRows, '\n' ∉ row ∧ row.getLast? ≠ some '\r' := by decide +kernel
  have hparsed : (parseProbe probeEpoch (crowdedRows.flatMap (· ++ ['\n']))).toOption.map
      (fun p => decide (attachmentMaxFrameBytes < p.weight 7)) = some true := by
    rw [parseProbe, lines_rows hrows]
    decide +kernel
  cases hp : parseProbe probeEpoch (crowdedRows.flatMap (· ++ ['\n'])) with
  | error e => simp [hp, Except.toOption] at hparsed
  | ok p =>
    rw [hp] at hparsed
    exact ⟨p, rfl, by simpa [Except.toOption] using hparsed⟩

/-- **Two accepted probes that are not delivered**: a version the Browser refuses, and a list the Server cannot send. -/
theorem admitted_not_delivered :
    (∃ p, parseProbe probeEpoch (longVersionRows.flatMap (· ++ ['\n'])) = .ok p ∧ (sessionListFrame 7 p).fits = true ∧
      parseAttachmentFrame (sessionListFrame 7 p).json = none) ∧
      ∃ p, parseProbe probeEpoch (crowdedRows.flatMap (· ++ ['\n'])) = .ok p ∧ (sessionListFrame 7 p).fits = false := by
  constructor
  · exact ⟨_, longVersion_accepted, by decide +kernel, by decide +kernel⟩
  · obtain ⟨p, hp, hweight⟩ := crowded_accepted
    refine ⟨p, hp, ?_⟩
    rw [← size_sessionList (by decide) (parseProbe_spec hp).1] at hweight
    exact decide_eq_false (Nat.not_le.2 hweight)

end OwlMux.Browser
