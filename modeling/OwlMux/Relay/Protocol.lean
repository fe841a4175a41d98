/-
The Relay wire protocol (`owlmux-server/src/relay/protocol.rs`, `owlmux-relay/src/protocol.rs`): frames, their JSON text
and the size checks of `decode_frame` and `write_data`.

Frames are serialized by serde with an internal `type` tag in snake case, then the fields in declaration order. `encode`
writes that text; `byteLen` is its length in bytes. The wire is modelled as carrying frames: that `serde_json::from_str`
reads back what `serde_json::to_string` wrote is library behaviour; the size check in front of it is `fitsFrame`.

Results:
- `ServerFrame.Sendable.fits`, `ClientFrame.Sendable.fits`: every frame a tunnel endpoint produces, with a payload of at
  most MAX_DATA_BYTES bytes and a u32 stream id, encodes within MAX_FRAME_BYTES.
-/
import Mathlib.Tactic
import OwlMux.Lib.Base64Url

namespace OwlMux.Relay

def maxFrameBytes : ℕ := 32768
def maxDataBytes : ℕ := 16384
def maxStreams : ℕ := 32

abbrev Uuid := BitVec 128
abbrev Text := List Char

/-- `RouteIdentity` of `owlmux-server/src/relay/mod.rs`: one owned tunnel of a Machine -/
structure RouteIdentity where
  routeRevision : ℤ
  connectionEpoch : ℤ
  connectionId : Uuid
deriving DecidableEq, Repr

/-! ## Frames -/

inductive CloseReason where
  | eof
  | connectFailed
  | protocol
  | shutdown
deriving DecidableEq, Repr

inductive ChallengePurpose where
  | enrollment
  | tunnel
deriving DecidableEq, Repr

/-- frames a Relay sends -/
inductive ClientFrame where
  | token (token : Text)
  | setup (protocol : ℕ) (relayId : Uuid) (publicKey endpoint observedAccount : Text)
  | ready
  | hostKeyAccepted (hostIdentity : Text)
  | signature (signature : Text)
  | tunnelHello (protocol : ℕ) (deploymentId machineId relayId connectionId : Uuid) (routeRevision : ℤ)
  | streamOpened (streamId : ℕ)
  | streamData (streamId : ℕ) (data : Text)
  | streamHalfClosed (streamId : ℕ)
  | streamClosed (streamId : ℕ) (reason : CloseReason)
  | pong (nonce : ℕ)
deriving DecidableEq, Repr

/-- frames a Server sends -/
inductive ServerFrame where
  | accepted (deploymentId machineId attemptId : Uuid) (routeRevision : ℤ)
  | credential (credentialId : Uuid) (name publicKey publicFingerprintSha256 : Text)
  | hostKey (hostIdentity fingerprintSha256 : Text)
  | challenge (purpose : ChallengePurpose) (nonce : Text)
  | activated (routeRevision : ℤ)
  | tunnelEstablished (connectionEpoch : ℤ)
  | openStream (streamId : ℕ)
  | streamData (streamId : ℕ) (data : Text)
  | streamHalfClosed (streamId : ℕ)
  | streamClosed (streamId : ℕ) (reason : CloseReason)
  | ping (nonce : ℕ)
  | error (code message : Text)
deriving DecidableEq, Repr

/-- the logical stream a frame belongs to -/
def ServerFrame.stream : ServerFrame → Option ℕ
  | .openStream id => some id
  | .streamData id _ => some id
  | .streamHalfClosed id => some id
  | .streamClosed id _ => some id
  | _ => none

def ClientFrame.stream : ClientFrame → Option ℕ
  | .streamOpened id => some id
  | .streamData id _ => some id
  | .streamHalfClosed id => some id
  | .streamClosed id _ => some id
  | _ => none

/-! ## JSON text -/

/-- length in bytes of the UTF-8 text -/
def byteLen (t : Text) : ℕ := (t.map Char.utf8Size).sum

@[simp] theorem byteLen_nil : byteLen [] = 0 := rfl

@[simp] theorem byteLen_cons (c : Char) (t : Text) : byteLen (c :: t) = c.utf8Size + byteLen t := by
  simp [byteLen]

@[simp] theorem byteLen_append (a b : Text) : byteLen (a ++ b) = byteLen a + byteLen b := by
  simp [byteLen]

inductive JsonValue where
  | string (t : Text)
  | number (n : ℤ)

/-- one character inside a JSON string, as serde_json writes it -/
def jsonEscape (c : Char) : Text :=
  if c = '"' then ['\\', '"']
  else if c = '\\' then ['\\', '\\']
  else if c.toNat = 8 then ['\\', 'b']
  else if c.toNat = 9 then ['\\', 't']
  else if c.toNat = 10 then ['\\', 'n']
  else if c.toNat = 12 then ['\\', 'f']
  else if c.toNat = 13 then ['\\', 'r']
  else if c.toNat < 32 then
    ['\\', 'u', '0', '0', Nat.digitChar (c.toNat / 16), Nat.digitChar (c.toNat % 16)]
  else [c]

def jsonString (t : Text) : Text := '"' :: (t.flatMap jsonEscape ++ ['"'])

def jsonNumber (n : ℤ) : Text :=
  if n < 0 then '-' :: Nat.toDigits 10 n.natAbs else Nat.toDigits 10 n.natAbs

def JsonValue.text : JsonValue → Text
  | .string t => jsonString t
  | .number n => jsonNumber n

/-- an object whose first field is the `type` tag -/
def jsonObject (tag : String) (fields : List (String × JsonValue)) : Text :=
  '\x7b' :: (jsonString "type".toList ++ ':' :: jsonString tag.toList ++
    fields.flatMap (fun f => ',' :: jsonString f.1.toList ++ ':' :: f.2.text) ++ ['\x7d'])

/-- the hyphenated lower-case form of a UUID -/
def uuidText (u : Uuid) : Text :=
  let digits := (List.range 32).map fun i => Nat.digitChar (u.toNat / 16 ^ (31 - i) % 16)
  digits.take 8 ++ '-' :: (digits.drop 8).take 4 ++ '-' :: (digits.drop 12).take 4 ++ '-' :: (digits.drop 16).take 4 ++
    '-' :: digits.drop 20

def uuidValue (u : Uuid) : JsonValue := .string (uuidText u)

def natValue (n : ℕ) : JsonValue := .number n

def CloseReason.value : CloseReason → JsonValue
  | .eof => .string "eof".toList
  | .connectFailed => .string "connect_failed".toList
  | .protocol => .string "protocol".toList
  | .shutdown => .string "shutdown".toList

def ChallengePurpose.value : ChallengePurpose → JsonValue
  | .enrollment => .string "enrollment".toList
  | .tunnel => .string "tunnel".toList

def ClientFrame.encode : ClientFrame → Text
  | .token t => jsonObject "token" [("token", .string t)]
  | .setup p r k e a => jsonObject "setup" [("protocol", natValue p), ("relay_id", uuidValue r),
      ("public_key", .string k), ("endpoint", .string e), ("observed_account", .string a)]
  | .ready => jsonObject "ready" []
  | .hostKeyAccepted h => jsonObject "host_key_accepted" [("host_identity", .string h)]
  | .signature s => jsonObject "signature" [("signature", .string s)]
  | .tunnelHello p d m r c v => jsonObject "tunnel_hello" [("protocol", natValue p), ("deployment_id", uuidValue d),
      ("machine_id", uuidValue m), ("relay_id", uuidValue r), ("connection_id", uuidValue c), ("route_revision", .number v)]
  | .streamOpened id => jsonObject "stream_opened" [("stream_id", natValue id)]
  | .streamData id d => jsonObject "stream_data" [("stream_id", natValue id), ("data", .string d)]
  | .streamHalfClosed id => jsonObject "stream_half_closed" [("stream_id", natValue id)]
  | .streamClosed id r => jsonObject "stream_closed" [("stream_id", natValue id), ("reason", r.value)]
  | .pong n => jsonObject "pong" [("nonce", natValue n)]

def ServerFrame.encode : ServerFrame → Text
  | .accepted d m a v => jsonObject "accepted" [("deployment_id", uuidValue d), ("machine_id", uuidValue m),
      ("attempt_id", uuidValue a), ("route_revision", .number v)]
  | .credential c n k f => jsonObject "credential" [("credential_id", uuidValue c), ("name", .string n),
      ("public_key", .string k), ("public_fingerprint_sha256", .string f)]
  | .hostKey h f => jsonObject "host_key" [("host_identity", .string h), ("fingerprint_sha256", .string f)]
  | .challenge p n => jsonObject "challenge" [("purpose", p.value), ("nonce", .string n)]
  | .activated v => jsonObject "activated" [("route_revision", .number v)]
  | .tunnelEstablished e => jsonObject "tunnel_established" [("connection_epoch", .number e)]
  | .openStream id => jsonObject "open_stream" [("stream_id", natValue id)]
  | .streamData id d => jsonObject "stream_data" [("stream_id", natValue id), ("data", .string d)]
  | .streamHalfClosed id => jsonObject "stream_half_closed" [("stream_id", natValue id)]
  | .streamClosed id r => jsonObject "stream_closed" [("stream_id", natValue id), ("reason", r.value)]
  | .ping n => jsonObject "ping" [("nonce", natValue n)]
  | .error c m => jsonObject "error" [("code", .string c), ("message", .string m)]

/-- `decode_frame`: the received text is refused, as `RelayError::Protocol`, when it is longer than MAX_FRAME_BYTES -/
def fitsFrame (encoded : Text) : Bool := byteLen encoded ≤ maxFrameBytes

/-! ## Sizes -/

theorem byteLen_of_forall {t : Text} (h : ∀ c ∈ t, c.utf8Size = 1) : byteLen t = t.length := by
  induction t with
  | nil => rfl
  | cons c t ih =>
    rw [byteLen_cons, h c List.mem_cons_self, ih fun d hd => h d (List.mem_cons_of_mem _ hd), List.length_cons]
    omega

theorem alphabet_plain (c : Char) (hc : c ∈ Base64Url.alphabet) : c.utf8Size = 1 ∧ jsonEscape c = [c] := by
  have hlen : Base64Url.alphabet.length = 64 := by decide +kernel
  have key : ∀ m : Fin 64, (Base64Url.symbol m).utf8Size = 1 ∧ jsonEscape (Base64Url.symbol m) = [Base64Url.symbol m] := by
    decide +kernel
  obtain ⟨i, hi, rfl⟩ := List.mem_iff_getElem.mp hc
  have hs : Base64Url.symbol i = Base64Url.alphabet[i] := by
    simp [Base64Url.symbol, hi]
  rw [← hs]
  exact key ⟨i, hlen ▸ hi⟩

/-- a base64url text needs no escaping: it encodes to itself between quotes -/
theorem byteLen_jsonString_base64 (b : List UInt8) :
    byteLen (jsonString (Base64Url.encode b)) = (4 * b.length + 2) / 3 + 2 := by
  have hmem := Base64Url.encode_mem_alphabet b
  have hplain : (Base64Url.encode b).flatMap jsonEscape = Base64Url.encode b := by
    generalize Base64Url.encode b = t at hmem
    induction t with
    | nil => rfl
    | cons c t ih =>
      rw [List.flatMap_cons, (alphabet_plain c (hmem c List.mem_cons_self)).2,
        ih fun d hd => hmem d (List.mem_cons_of_mem _ hd)]
      rfl
  have hlen := byteLen_of_forall fun c hc => (alphabet_plain c (hmem c hc)).1
  have hq : '"'.utf8Size = 1 := by decide
  rw [jsonString, hplain]
  simp only [byteLen_cons, byteLen_append, byteLen_nil, hq, hlen, Base64Url.length_encode]
  omega

theorem utf8Size_of_isDigit {c : Char} (h : c.isDigit = true) : c.utf8Size = 1 := by
  have hc : c.toNat ≤ 57 := by
    simp only [Char.isDigit, Bool.and_eq_true, decide_eq_true_eq] at h
    exact h.2
  have : c.val ≤ 127 := by
    show c.val.toNat ≤ 127
    exact le_trans hc (by omega)
  simp [Char.utf8Size, this]

/-- a natural number below 10^k takes at most k characters -/
theorem byteLen_natValue {n k : ℕ} (hk : 0 < k) (h : n < 10 ^ k) : byteLen (natValue n).text ≤ k := by
  have hd : byteLen (Nat.toDigits 10 n) = (Nat.toDigits 10 n).length :=
    byteLen_of_forall fun c hc => utf8Size_of_isDigit (Nat.isDigit_of_mem_toDigits (by omega) (by omega) hc)
  have hl : (Nat.toDigits 10 n).length ≤ k := (Nat.length_toDigits_le_iff (by omega) hk).2 h
  have ht : (natValue n).text = Nat.toDigits 10 n := by simp [natValue, JsonValue.text, jsonNumber]
  rw [ht, hd]; exact hl

theorem byteLen_jsonObject (tag : String) (fields : List (String × JsonValue)) :
    byteLen (jsonObject tag fields) = 9 + byteLen (jsonString tag.toList) +
      (fields.map fun f => 2 + byteLen (jsonString f.1.toList) + byteLen f.2.text).sum := by
  have hf : byteLen (fields.flatMap fun f => ',' :: jsonString f.1.toList ++ ':' :: f.2.text) =
      (fields.map fun f => 2 + byteLen (jsonString f.1.toList) + byteLen f.2.text).sum := by
    induction fields with
    | nil => rfl
    | cons f fields ih =>
      rw [List.flatMap_cons, byteLen_append, ih, List.map_cons, List.sum_cons]
      have h1 : ','.utf8Size = 1 := by decide
      have h2 : ':'.utf8Size = 1 := by decide
      simp only [byteLen_append, byteLen_cons, h1, h2]
      omega
  have ht : byteLen (jsonString "type".toList) = 6 := by decide
  have h1 : '\x7b'.utf8Size = 1 := by decide
  have h2 : '\x7d'.utf8Size = 1 := by decide
  have h3 : ':'.utf8Size = 1 := by decide
  simp only [jsonObject, byteLen_cons, byteLen_append, byteLen_nil, hf, ht, h1, h2, h3]
  omega

/-- a frame without payload: its text is a few dozen bytes -/
theorem small_fits {tag : String} {fields : List (String × JsonValue)}
    (h : byteLen (jsonString tag.toList) +
      (fields.map fun f => 2 + byteLen (jsonString f.1.toList) + byteLen f.2.text).sum ≤ 32759) :
    fitsFrame (jsonObject tag fields) = true := by
  have := byteLen_jsonObject tag fields
  apply decide_eq_true
  simp only [maxFrameBytes]
  omega

theorem closeReason_byteLen (r : CloseReason) : byteLen r.value.text ≤ 16 := by cases r <;> decide

/-! ## Frames a tunnel endpoint produces -/

/-- a payload the readers make: base64url of 1 to MAX_DATA_BYTES bytes -/
def Payload (data : Text) : Prop := ∃ b : List UInt8, data = Base64Url.encode b ∧ 1 ≤ b.length ∧ b.length ≤ maxDataBytes

/-- what `run_tunnel` puts on the wire -/
def ServerFrame.Sendable : ServerFrame → Prop
  | .openStream id => 0 < id ∧ id < 2 ^ 32
  | .streamData id d => id < 2 ^ 32 ∧ Payload d
  | .streamHalfClosed id => id < 2 ^ 32
  | .streamClosed id _ => id < 2 ^ 32
  | .ping n => n < 2 ^ 64
  | _ => False

/-- what `relay_tunnel` puts on the wire -/
def ClientFrame.Sendable : ClientFrame → Prop
  | .streamOpened id => id < 2 ^ 32
  | .streamData id d => id < 2 ^ 32 ∧ Payload d
  | .streamHalfClosed id => id < 2 ^ 32
  | .streamClosed id _ => id < 2 ^ 32
  | .pong n => n < 2 ^ 64
  | _ => False

theorem streamId_byteLen {id : ℕ} (h : id < 2 ^ 32) : byteLen (natValue id).text ≤ 10 :=
  byteLen_natValue (by omega) (by omega)

theorem nonce_byteLen {n : ℕ} (h : n < 2 ^ 64) : byteLen (natValue n).text ≤ 20 :=
  byteLen_natValue (by omega) (by omega)

theorem payload_byteLen {d : Text} (h : Payload d) : byteLen (JsonValue.string d).text ≤ 21848 := by
  obtain ⟨b, rfl, -, hb⟩ := h
  have := byteLen_jsonString_base64 b
  simp only [JsonValue.text, maxDataBytes] at *
  omega

/-- the key texts of the stream frames -/
theorem key_byteLen : byteLen (jsonString "stream_id".toList) = 11 ∧ byteLen (jsonString "data".toList) = 6 ∧
    byteLen (jsonString "reason".toList) = 8 ∧ byteLen (jsonString "nonce".toList) = 7 ∧
    byteLen (jsonString "stream_data".toList) = 13 ∧ byteLen (jsonString "stream_half_closed".toList) = 20 ∧
    byteLen (jsonString "stream_closed".toList) = 15 ∧ byteLen (jsonString "open_stream".toList) = 13 ∧
    byteLen (jsonString "stream_opened".toList) = 15 ∧ byteLen (jsonString "ping".toList) = 6 ∧
    byteLen (jsonString "pong".toList) = 6 := by
  decide +kernel

/-- **No frame of the Server is oversized.** Everything `run_tunnel` produces passes the Relay's size check. -/
theorem ServerFrame.Sendable.fits {f : ServerFrame} (h : f.Sendable) : fitsFrame f.encode = true := by
  obtain ⟨k1, k2, k3, k4, t1, t2, t3, t4, -, t6, -⟩ := key_byteLen
  cases f with
  | openStream id =>
    have := streamId_byteLen h.2
    apply small_fits; simp only [List.map_cons, List.map_nil, List.sum_cons, List.sum_nil, k1, t4]; omega
  | streamData id d =>
    have h1 := streamId_byteLen h.1
    have h2 := payload_byteLen h.2
    apply small_fits; simp only [List.map_cons, List.map_nil, List.sum_cons, List.sum_nil, k1, k2, t1]; omega
  | streamHalfClosed id =>
    have := streamId_byteLen h
    apply small_fits; simp only [List.map_cons, List.map_nil, List.sum_cons, List.sum_nil, k1, t2]; omega
  | streamClosed id r =>
    have h1 := streamId_byteLen h
    have h2 := closeReason_byteLen r
    apply small_fits; simp only [List.map_cons, List.map_nil, List.sum_cons, List.sum_nil, k1, k3, t3]; omega
  | ping n =>
    have := nonce_byteLen h
    apply small_fits; simp only [List.map_cons, List.map_nil, List.sum_cons, List.sum_nil, k4, t6]; omega
  | _ => exact h.elim

/-- **No frame of the Relay is oversized**, so neither its own check before sending nor the Server's refuses it. -/
theorem ClientFrame.Sendable.fits {f : ClientFrame} (h : f.Sendable) : fitsFrame f.encode = true := by
  obtain ⟨k1, k2, k3, k4, t1, t2, t3, -, t5, -, t7⟩ := key_byteLen
  cases f with
  | streamOpened id =>
    have := streamId_byteLen h
    apply small_fits; simp only [List.map_cons, List.map_nil, List.sum_cons, List.sum_nil, k1, t5]; omega
  | streamData id d =>
    have h1 := streamId_byteLen h.1
    have h2 := payload_byteLen h.2
    apply small_fits; simp only [List.map_cons, List.map_nil, List.sum_cons, List.sum_nil, k1, k2, t1]; omega
  | streamHalfClosed id =>
    have := streamId_byteLen h
    apply small_fits; simp only [List.map_cons, List.map_nil, List.sum_cons, List.sum_nil, k1, t2]; omega
  | streamClosed id r =>
    have h1 := streamId_byteLen h
    have h2 := closeReason_byteLen r
    apply small_fits; simp only [List.map_cons, List.map_nil, List.sum_cons, List.sum_nil, k1, k3, t3]; omega
  | pong n =>
    have := nonce_byteLen h
    apply small_fits; simp only [List.map_cons, List.map_nil, List.sum_cons, List.sum_nil, k4, t7]; omega
  | _ => exact h.elim

end OwlMux.Relay
