/-
Enrollment: `enroll` and `enrollment_stream` of the Relay (`owlmux-relay/src/main.rs`, `state.rs`), and `enrollment`,
`continue_enrollment`, `resolve_enrollment_host_identity`, `run_provisional_stream` and `activate` of the Server
(`owlmux-server/src/relay/mod.rs`), joined by two frame channels, with the Relay's state file and the rows of the database
that `activate` reads and writes.

Each function is a sequence of waits; a phase is the wait it stands at. `serverOnFrame` and `relayOnFrame` are what happens
when the awaited frame arrives. A function that returns reads nothing more, so a return only sets `serverExit` or `relayExit`
and leaves the channel as it is; `Outcome.unexpected` marks a return because of the kind or the stream id of a frame.

- The target reader of the Relay and `relay_reader` of the Server hand frames to bounded channels (`Lane`), from which the
  select loops take them in any order with the other branches. The Server's end of a provisional stream is an in-memory pipe:
  a read of it gives bytes or, when it gives none, the end of file; it does not fail. Reads of the loopback socket may.
- `persist` runs stage by stage (`Lib/Disk.lean`); the process or the power may fail at every stage.
- A frame may be lost, a party may stop, other transactions may change the rows, and the operator may start the Relay again.

History, read by no step: `closed` and `acknowledged`, the streams the Server has closed and the Relay has acknowledged;
`Binding.mine`, the row was inserted by this enrollment.
-/
import Mathlib.Tactic
import OwlMux.Lib.Bytes
import OwlMux.Lib.Disk
import OwlMux.Cluster.Database
import OwlMux.Relay.Tunnel

namespace OwlMux.Enrollment

open OwlMux.Relay
open OwlMux.Bytes (bigEndian)

def version : ℕ := 1
def endpoint : Text := "127.0.0.1:22".toList
def provisionalCapacity : ℕ := 16

/-! ## Signatures -/

/-- ed25519: the verifying key of a secret key, signing, and the two steps of `verify_signature` -/
structure Keys where
  verifyingKey : List UInt8 → List UInt8
  sign : List UInt8 → List UInt8 → List UInt8
  isKey : List UInt8 → Bool
  verify : List UInt8 → List UInt8 → List UInt8 → Bool

def uuidBytes (u : Uuid) : List UInt8 := bigEndian 16 u.toNat

/-- `i64::to_be_bytes` -/
def i64Bytes (n : ℤ) : List UInt8 := bigEndian 8 (n % 2 ^ 64).toNat

/-- an ASCII literal with the zero byte behind it -/
def label (t : String) : List UInt8 := t.toList.map (fun c => UInt8.ofNat c.toNat) ++ [0]

def signatureMessage (purpose : ChallengePurpose) (deploymentId machineId relayId : Uuid) (connectionId : Option Uuid)
    (routeRevision : ℤ) (nonce : List UInt8) : List UInt8 :=
  label "owlmux:relay-signature:v1" ++
    (match purpose with
      | .enrollment => label "enrollment"
      | .tunnel => label "tunnel") ++
    uuidBytes deploymentId ++ uuidBytes machineId ++ uuidBytes relayId ++
    (match connectionId with
      | some c => uuidBytes c
      | none => []) ++
    i64Bytes routeRevision ++ nonce

/-- `decode_32` -/
def decode32 (value : Text) : Option (List UInt8) :=
  match Base64Url.decode value with
  | some b => if b.length = 32 ∧ Base64Url.encode b = value then some b else none
  | none => none

/-- `decode_signature` -/
def decodeSignature (value : Text) : Option (List UInt8) :=
  match Base64Url.decode value with
  | some b => if b.length = 64 then some b else none
  | none => none

def verifySignature (K : Keys) (publicKey signature message : List UInt8) : Except RelayError Unit :=
  if !K.isKey publicKey then .error .protocol
  else if K.verify publicKey signature message then .ok ()
  else .error .proofFailed

/-! ## The Relay's state file -/

structure RelayState where
  protocol : ℕ
  relayId : Uuid
  secretKey : Text
  targetAccount : Text
  deploymentId : Option Uuid
  machineId : Option Uuid
  routeRevision : Option ℤ
deriving DecidableEq, Repr

/-- `signing_key`; the secret of the key -/
def RelayState.signingKey (s : RelayState) : Option (List UInt8) := decode32 s.secretKey

/-- `char::is_whitespace` or `char::is_control` -/
def isBlank (c : Char) : Bool :=
  c.toNat ≤ 32 || (0x7f ≤ c.toNat && c.toNat ≤ 0xa0) || c.toNat = 0x1680 || (0x2000 ≤ c.toNat && c.toNat ≤ 0x200a) ||
    c.toNat = 0x2028 || c.toNat = 0x2029 || c.toNat = 0x202f || c.toNat = 0x205f || c.toNat = 0x3000

def validateAccount (account : Text) : Bool := !account.isEmpty && byteLen account ≤ 64 && !account.any isBlank

/-- `RelayState::load` of what the path names; every file `persist` writes has mode 600 and at most 16 KiB -/
def load (file : Option (File RelayState)) : Option RelayState :=
  match file with
  | some ⟨some s, _⟩ => if s.protocol = 1 ∧ validateAccount s.targetAccount ∧ s.signingKey.isSome then some s else none
  | _ => none

/-- the three fields `enroll` sets -/
def RelayState.enrolled (s : RelayState) (deploymentId machineId : Uuid) (routeRevision : ℤ) : RelayState :=
  { s with deploymentId := some deploymentId, machineId := some machineId, routeRevision := some routeRevision }

/-! ## Rows -/

/-- what `accept_token` returns -/
structure AcceptedEnrollment where
  deploymentId : Uuid
  machineId : Uuid
  attemptId : Uuid
  routeRevision : ℤ
  targetAccount : Text
  hostIdentity : Option Text

/-- `relay_verification_attempts`, the row of this attempt -/
structure AttemptRow where
  verifying : Bool
  /-- the deadline has not passed -/
  inTime : Bool
  /-- executing_incarnation_id is this incarnation -/
  executing : Bool
  routeRevision : ℤ
deriving DecidableEq, Repr

/-- `machines`, the row of this Machine -/
structure MachineRow where
  lifecycle : Cluster.Lifecycle
  routeRevision : ℤ
  hostIdentity : Option Text
  credentialActive : Bool
deriving DecidableEq, Repr

/-- `relay_bindings` -/
structure Binding where
  machineId : Uuid
  relayId : Uuid
  relayPublicKey : List UInt8
  routeRevision : ℤ
  active : Bool
  mine : Bool
deriving DecidableEq, Repr

structure Db where
  /-- `lock_deployment` and `validate_node` pass -/
  serving : Bool
  attempt : AttemptRow
  machine : MachineRow
  bindings : List Binding
deriving DecidableEq, Repr

/-- the constraints and unique indexes of `relay_bindings` -/
def insertable (rows : List Binding) (b : Binding) : Bool :=
  b.relayPublicKey.length = 32 && 0 < b.routeRevision &&
    rows.all fun r => !r.active || (r.machineId ≠ b.machineId && r.relayId ≠ b.relayId && r.relayPublicKey ≠ b.relayPublicKey)

/-- the condition of the SELECT EXISTS in `activate` -/
def Db.valid (db : Db) : Bool :=
  db.attempt.verifying && db.attempt.inTime && db.attempt.executing && db.attempt.routeRevision = db.machine.routeRevision &&
    db.machine.lifecycle = .verifying && db.machine.credentialActive

/-- `activate`, the statements of the transaction -/
def activate (isEd25519 : Text → Bool) (A : AcceptedEnrollment) (db : Db) (relayId : Uuid) (publicKey : List UInt8)
    (hostIdentity : Text) : Except RelayError Db :=
  let row : Binding := ⟨A.machineId, relayId, publicKey, A.routeRevision, true, true⟩
  if !db.serving then .error .fenced
  else if !db.valid || !isEd25519 hostIdentity then .error .invalidState
  else if !(db.machine.routeRevision = A.routeRevision &&
      (db.machine.hostIdentity = none || db.machine.hostIdentity = some hostIdentity)) then .error .invalidState
  else if !insertable db.bindings row then .error .conflict
  else
    .ok { db with
      machine := { db.machine with hostIdentity := some hostIdentity }
      bindings := db.bindings ++ [row]
      attempt := { db.attempt with verifying := false } }

/-- `binding_key` -/
def bindingKey (rows : List Binding) (machineId relayId : Uuid) (routeRevision : ℤ) : Except RelayError (List UInt8) :=
  match rows.find? fun b => b.machineId = machineId && b.relayId = relayId && b.routeRevision = routeRevision && b.active with
  | some b => if b.relayPublicKey.length = 32 then .ok b.relayPublicKey else .error .invalidState
  | none => .error .invalidState

/-- other transactions -/
inductive Elsewhere where
  | serving (ok : Bool)
  | attempt (row : AttemptRow)
  | machine (row : MachineRow)
  | insert (row : Binding)
  | revoke (i : ℕ)
  | delete (i : ℕ)
deriving DecidableEq, Repr

def Db.elsewhere (db : Db) : Elsewhere → Db
  | .serving ok => { db with serving := ok }
  | .attempt row => { db with attempt := row }
  | .machine row => { db with machine := row }
  | .insert row =>
    if insertable db.bindings row then { db with bindings := db.bindings ++ [{ row with mine := false }] } else db
  | .revoke i => { db with bindings := db.bindings.modify i fun b => { b with active := false } }
  | .delete i => { db with bindings := db.bindings.eraseIdx i }

/-! ## Phases -/

/-- how a function returns -/
inductive Outcome (ε : Type) where
  | ok
  | failed (e : ε)
  /-- because of the kind or the stream id of a frame -/
  | unexpected (e : ε)
deriving DecidableEq, Repr

/-- the SSH operation over a provisional stream -/
inductive Purpose where
  | discover
  | verify
deriving DecidableEq, Repr

/-- where `enrollment` and `continue_enrollment` wait -/
inductive ServerPhase where
  | token
  | setup
  | ready
  | signature
  /-- `open_provisional_stream` waits for StreamOpened -/
  | opening (purpose : Purpose) (id : ℕ)
  /-- the select loop of `run_provisional_stream` -/
  | streaming (purpose : Purpose) (id : ℕ)
  /-- its second loop; StreamClosed has been sent -/
  | draining (purpose : Purpose) (id : ℕ) (result : Outcome RelayError)
  | hostKey
  | activating (id : ℕ)
  | finishing (id : ℕ)
deriving DecidableEq, Repr

/-- where `enroll` and `enrollment_stream` wait -/
inductive RelayPhase where
  | idle
  | accepted
  /-- in `persist`; `activated`: the call behind Activated -/
  | persisting (stage : Disk.Stage) (activated : Bool)
  | credential
  | challenge
  /-- the loop of `enrollment_stream` with its variables -/
  | streams (target : Option ℕ) (nextStreamId : ℕ) (hostKeyConfirmed : Bool)
deriving DecidableEq, Repr

/-- `DiscoveredHostIdentity` -/
structure HostKey where
  publicKey : Text
  fingerprintSha256 : Text
deriving DecidableEq, Repr

structure St where
  serverPhase : ServerPhase
  serverExit : Option (Outcome RelayError)
  relayId : Uuid
  publicKey : List UInt8
  nonce : List UInt8
  discovered : HostKey
  hostIdentity : Text
  /-- `relay_reader` of the provisional stream is running -/
  pipeReader : Bool
  relayPhase : RelayPhase
  relayExit : Option (Outcome ClientError)
  state : RelayState
  /-- the target reader of a stream is running -/
  targetReader : ℕ → Bool
  disk : Disk RelayState
  db : Db
  down : Lane ServerFrame
  up : Lane ClientFrame
  closed : List ℕ
  acknowledged : List ℕ

/-- the Relay has loaded its state from the file, the Server waits for the token -/
def init (state : RelayState) (db : Db) : St :=
  { serverPhase := .token, serverExit := none, relayId := 0, publicKey := [], nonce := [], discovered := ⟨[], []⟩,
    hostIdentity := [], pipeReader := false, relayPhase := .idle, relayExit := none, state := state,
    targetReader := fun _ => false, disk := ⟨some ⟨some state, true⟩, some ⟨some state, true⟩, none⟩, db := db, down := {},
    up := {}, closed := [], acknowledged := [] }

namespace St

def serverReturns (s : St) (o : Outcome RelayError) : St := { s with serverExit := some o }

def relayReturns (s : St) (o : Outcome ClientError) : St := { s with relayExit := some o }

/-- the Server takes a frame -/
def takeUp (s : St) : St := { s with up := s.up.pop }

/-- the Relay takes a frame -/
def takeDown (s : St) : St := { s with down := s.down.pop }

/-- `send_frame` of the Server -/
def tell (s : St) (f : ServerFrame) : St := { s with down := s.down.push f }

/-- `send_frame` of the Relay, which checks the size of what it sends; behind it the Relay is in `next` -/
def answer (s : St) (f : ClientFrame) (next : St) : St :=
  if fitsFrame f.encode then { next with up := next.up.push f } else s.relayReturns (.failed .protocol)

end St

def errorCode : RelayError → Text
  | .invalidToken => "invalid_token".toList
  | .invalidState => "invalid_state".toList
  | .conflict => "invalid_state".toList
  | .proofFailed => "proof_failed".toList
  | .protocol => "protocol_error".toList
  | .ownerConflict => "owner_conflict".toList
  | _ => "temporarily_unavailable".toList

def errorMessage : RelayError → Text
  | .invalidToken => "Enrollment token is invalid or expired.".toList
  | .invalidState => "Relay or Machine state is invalid.".toList
  | .conflict => "Relay or Machine state is invalid.".toList
  | .proofFailed => "Relay identity or SSH access proof failed.".toList
  | .protocol => "Relay protocol frame is invalid.".toList
  | .ownerConflict => "Machine already has a valid owner.".toList
  | _ => "Relay service is temporarily unavailable.".toList

/-- `send_error`: the error frame, then the return -/
def St.sendError (s : St) (e : RelayError) (o : Outcome RelayError) : St :=
  (s.tell (.error (errorCode e) (errorMessage e))).serverReturns o

/-! ## The Server -/

/-- what the database, the random source and the pipe give the Server while it handles a frame -/
structure ServerEnv where
  /-- `accept_token` succeeds -/
  accepts : Bool
  /-- `enrollment_credential`: id, name, public key and fingerprint -/
  credential : Option (Uuid × Text × Text × Text)
  nonce : List UInt8
  write : Write
  /-- the SSH operation has dropped its end of the pipe -/
  gone : Bool
deriving DecidableEq, Repr

/-- `open_provisional_stream`, up to its wait -/
def St.openStream (s : St) (purpose : Purpose) (id : ℕ) : St :=
  { s.tell (.openStream id) with serverPhase := .opening purpose id }

/-- `resolve_enrollment_host_identity`, up to its first wait or its return; then the proof stream is opened -/
def St.resolve (s taken : St) (isEd25519 : Text → Bool) (A : AcceptedEnrollment) : St :=
  match A.hostIdentity with
  | some h =>
    if isEd25519 h then { taken.openStream .verify 1 with hostIdentity := h } else s.serverReturns (.failed .invalidState)
  | none => taken.openStream .discover 1

/-- behind the select loop of `run_provisional_stream`: the reader task is aborted, its channel dropped, StreamClosed sent -/
def St.closeStream (s : St) (purpose : Purpose) (id : ℕ) (result : Outcome RelayError) : St :=
  { s with
    down := Lane.push { s.down with hand := fun _ => none, queue := [] } (.streamClosed id .eof)
    pipeReader := false
    serverPhase := .draining purpose id result
    closed := s.closed ++ [id] }

/-- `run_provisional_stream` returns `result` -/
def St.drained (s taken : St) (purpose : Purpose) (id : ℕ) : Outcome RelayError → St
  | .ok =>
    match purpose with
    | .discover =>
      { taken.tell (.hostKey s.discovered.publicKey s.discovered.fingerprintSha256) with serverPhase := .hostKey }
    | .verify => { taken with serverPhase := .activating id }
  | o => s.serverReturns o

/-- the match of the select loop on a received frame -/
def St.streamed (s taken : St) (env : ServerEnv) (purpose : Purpose) (id : ℕ) : ClientFrame → St
  | .streamData received data =>
    if received = id then
      match writeData env.gone env.write data with
      | .protocol => s.serverReturns (.failed .protocol)
      | .ok _ => taken
      | .failed _ => s.serverReturns (.failed .unavailable)
    else taken.closeStream purpose id (.unexpected .protocol)
  | .streamHalfClosed received =>
    if received = id then (if env.write = .all then taken else s.serverReturns (.failed .unavailable))
    else taken.closeStream purpose id (.unexpected .protocol)
  | .streamClosed received _ =>
    if received = id then (if env.write = .all then taken else s.serverReturns (.failed .unavailable))
    else taken.closeStream purpose id (.unexpected .protocol)
  | _ => taken.closeStream purpose id (.unexpected .protocol)

/-- the match of the second loop -/
def St.drains (s taken : St) (purpose : Purpose) (id : ℕ) (result : Outcome RelayError) : ClientFrame → St
  | .streamClosed received _ =>
    if received = id then s.drained taken purpose id result else s.serverReturns (.unexpected .protocol)
  | .streamData received _ => if received = id then taken else s.serverReturns (.unexpected .protocol)
  | .streamHalfClosed received => if received = id then taken else s.serverReturns (.unexpected .protocol)
  | _ => s.serverReturns (.unexpected .protocol)

/-- a frame arrives where the Server waits; `taken` is the state without it -/
def serverOnFrame (K : Keys) (isEd25519 : Text → Bool) (A : AcceptedEnrollment) (env : ServerEnv) (s taken : St)
    (f : ClientFrame) : St :=
  match s.serverPhase with
  | .token =>
    match f with
    | .token _ =>
      if env.accepts then
        { taken.tell (.accepted A.deploymentId A.machineId A.attemptId A.routeRevision) with serverPhase := .setup }
      else s.serverReturns (.failed .invalidToken)
    | _ => s.sendError .protocol (.unexpected .protocol)
  | .setup =>
    match f with
    | .setup protocol relayId publicKey observedEndpoint observedAccount =>
      if protocol = version ∧ observedEndpoint = endpoint ∧ observedAccount = A.targetAccount then
        match decode32 publicKey, env.credential with
        | none, _ => s.serverReturns (.failed .protocol)
        | some _, none => s.serverReturns (.failed .invalidState)
        | some key, some (id, name, credentialKey, fingerprint) =>
          { taken.tell (.credential id name credentialKey fingerprint) with
            serverPhase := .ready, relayId := relayId, publicKey := key }
      else s.sendError .invalidState (.failed .invalidState)
    | _ => s.sendError .invalidState (.unexpected .invalidState)
  | .ready =>
    match f with
    | .ready =>
      { taken.tell (.challenge .enrollment (Base64Url.encode env.nonce)) with serverPhase := .signature, nonce := env.nonce }
    | _ => s.sendError .protocol (.unexpected .protocol)
  | .signature =>
    match f with
    | .signature signature =>
      match decodeSignature signature with
      | none => s.serverReturns (.failed .protocol)
      | some bytes =>
        match verifySignature K s.publicKey bytes
          (signatureMessage .enrollment A.deploymentId A.machineId s.relayId none A.routeRevision s.nonce) with
        | .error e => s.serverReturns (.failed e)
        | .ok () => s.resolve taken isEd25519 A
    | _ => s.sendError .protocol (.unexpected .protocol)
  | .opening purpose id =>
    match f with
    | .streamOpened opened =>
      if opened = id then { taken with serverPhase := .streaming purpose id, pipeReader := true }
      else s.serverReturns (.unexpected .proofFailed)
    | _ => s.serverReturns (.unexpected .proofFailed)
  | .streaming purpose id => s.streamed taken env purpose id f
  | .draining purpose id result => s.drains taken purpose id result f
  | .hostKey =>
    match f with
    | .hostKeyAccepted hostIdentity =>
      if hostIdentity = s.discovered.publicKey then
        { taken.openStream .verify 2 with hostIdentity := s.discovered.publicKey }
      else s.sendError .invalidState (.failed .invalidState)
    | _ => s.sendError .invalidState (.unexpected .invalidState)
  | .activating _ => s
  -- `finish_enrollment` reads and drops
  | .finishing _ => taken

def serverRecv (K : Keys) (isEd25519 : Text → Bool) (A : AcceptedEnrollment) (env : ServerEnv) (s : St) : St :=
  match s.up.wire with
  | [] => s
  | f :: _ =>
    if !fitsFrame f.encode then s.serverReturns (.failed .protocol)
    else serverOnFrame K isEd25519 A env s s.takeUp f

/-- the SSH operation finishes, with the host key it has discovered -/
def operationDone (s : St) (result : Option HostKey) : St :=
  match s.serverPhase, result with
  | .streaming purpose id, none => s.closeStream purpose id (.failed .proofFailed)
  | .streaming .discover id, some key => { s.closeStream .discover id .ok with discovered := key }
  | .streaming .verify id, some _ => s.closeStream .verify id .ok
  | _, _ => s

/-- one read of `relay_reader`; no bytes are the end of file -/
def pipeRead (s : St) (b : List UInt8) : St :=
  match s.serverPhase with
  | .streaming _ id =>
    if s.pipeReader ∧ s.down.hand id = none then
      if b.take maxDataBytes = [] then { s with pipeReader := false, down := s.down.hold id (.streamHalfClosed id) }
      else { s with down := s.down.hold id (.streamData id (Base64Url.encode (b.take maxDataBytes))) }
    else s
  | _ => s

def pipeEnqueue (s : St) : St :=
  match s.serverPhase with
  | .streaming _ id => { s with down := s.down.enqueue provisionalCapacity id }
  | _ => s

/-- the select loop takes a frame from `outbound_rx` -/
def serverSend (s : St) : St :=
  match s.serverPhase with
  | .streaming _ _ => { s with down := s.down.flush }
  | _ => s

/-- how the transaction of `activate` ends once its statements have run -/
inductive Commit where
  | committed
  /-- the connection or the process is gone before the answer; applied or not -/
  | lost (applied : Bool)
deriving DecidableEq, Repr

def activateStep (isEd25519 : Text → Bool) (A : AcceptedEnrollment) (s : St) (c : Commit) : St :=
  match s.serverPhase with
  | .activating id =>
    match activate isEd25519 A s.db s.relayId s.publicKey s.hostIdentity with
    | .error e => s.serverReturns (.failed e)
    | .ok db =>
      match c with
      | .committed => { s.tell (.activated A.routeRevision) with db := db, serverPhase := .finishing id }
      | .lost applied => { s.serverReturns (.failed .ambiguous) with db := if applied then db else s.db }
  | _ => s

/-! ## The Relay -/

/-- what the loopback socket and the user give the Relay while it handles a frame -/
structure RelayEnv where
  connects : Bool
  write : Write
  /-- sshd has closed the connection -/
  gone : Bool
  /-- `confirm_target_authorization` or `confirm_host_key` succeeds -/
  confirms : Bool
deriving DecidableEq, Repr

/-- `enroll`, up to its first wait -/
def enroll (s : St) (token : Text) : St :=
  match s.relayPhase with
  | .idle =>
    if s.state.routeRevision.isSome then s.relayReturns (.failed .state)
    else s.answer (.token token) { s with relayPhase := .accepted }
  | _ => s

/-- the match of `enrollment_stream` on a received frame -/
def St.served (s taken : St) (env : RelayEnv) (target : Option ℕ) (nextStreamId : ℕ) (hostKeyConfirmed : Bool) :
    ServerFrame → St
  | .openStream id =>
    if target = none ∧ id = nextStreamId ∧ id ≤ 2 then
      if env.connects then
        s.answer (.streamOpened id) { taken with
          relayPhase := .streams (some id) (nextStreamId + 1) hostKeyConfirmed
          targetReader := Function.update s.targetReader id true }
      else s.relayReturns (.failed .transport)
    else s.relayReturns (.unexpected .protocol)
  | .streamData id data =>
    if target = some id then
      match writeData env.gone env.write data with
      | .protocol => s.relayReturns (.failed .protocol)
      | .ok _ => taken
      | .failed _ => s.relayReturns (.failed .transport)
    else s.relayReturns (.unexpected .protocol)
  | .streamHalfClosed id => if target = some id then taken else s.relayReturns (.unexpected .protocol)
  | .streamClosed id _ =>
    if target = some id then
      s.answer (.streamClosed id .eof) { taken with
        relayPhase := .streams none nextStreamId hostKeyConfirmed
        acknowledged := s.acknowledged ++ [id] }
    else s.relayReturns (.unexpected .protocol)
  | .hostKey hostIdentity _ =>
    if target = none ∧ nextStreamId = 2 ∧ hostKeyConfirmed = false then
      if env.confirms then
        s.answer (.hostKeyAccepted hostIdentity) { taken with relayPhase := .streams target nextStreamId true }
      else s.relayReturns (.failed .state)
    else s.relayReturns (.unexpected .protocol)
  | .activated routeRevision =>
    if target = none then
      { taken with
        state := { s.state with routeRevision := some routeRevision }
        relayPhase := .persisting .create true }
    else s.relayReturns (.unexpected .protocol)
  | .ping nonce => s.answer (.pong nonce) taken
  | .error code _ => s.relayReturns (.failed (.remote code))
  | _ => s.relayReturns (.unexpected .protocol)

/-- a frame arrives where the Relay waits; `taken` is the state without it -/
def relayOnFrame (K : Keys) (env : RelayEnv) (s taken : St) (f : ServerFrame) : St :=
  match s.relayPhase with
  | .accepted =>
    match f with
    | .accepted deploymentId machineId _ routeRevision =>
      { taken with
        state := s.state.enrolled deploymentId machineId routeRevision
        relayPhase := .persisting .create false }
    | .error code _ => s.relayReturns (.failed (.remote code))
    | _ => s.relayReturns (.unexpected .protocol)
  | .credential =>
    match f with
    | .credential _ _ _ _ =>
      if env.confirms then s.answer .ready { taken with relayPhase := .challenge } else s.relayReturns (.failed .state)
    | _ => s.relayReturns (.unexpected .protocol)
  | .challenge =>
    match f with
    | .challenge purpose nonce =>
      match decode32 nonce, s.state.signingKey, s.state.deploymentId, s.state.machineId, s.state.routeRevision with
      | some bytes, some key, some d, some m, some r =>
        if purpose = .enrollment then
          s.answer (.signature (Base64Url.encode (K.sign key (signatureMessage purpose d m s.state.relayId none r bytes))))
            { taken with relayPhase := .streams none 1 false }
        else s.relayReturns (.failed .protocol)
      | _, _, _, _, _ => s.relayReturns (.failed .protocol)
    | .error code _ => s.relayReturns (.failed (.remote code))
    | _ => s.relayReturns (.unexpected .protocol)
  | .streams target nextStreamId hostKeyConfirmed => s.served taken env target nextStreamId hostKeyConfirmed f
  -- `enroll` has not connected, or is inside `persist`
  | .idle => s
  | .persisting _ _ => s

def relayRecv (K : Keys) (env : RelayEnv) (s : St) : St :=
  match s.down.wire with
  | [] => s
  | f :: _ =>
    if !fitsFrame f.encode then s.relayReturns (.failed .protocol)
    else relayOnFrame K env s s.takeDown f

/-- behind the first `persist`: the setup frame -/
def St.sendSetup (s : St) (K : Keys) : St :=
  match s.state.signingKey with
  | none => s.relayReturns (.failed .stateFile)
  | some key =>
    s.answer (.setup version s.state.relayId (Base64Url.encode (K.verifyingKey key)) endpoint s.state.targetAccount)
      { s with relayPhase := .credential }

/-- one stage of `persist`; `ok`: it succeeds -/
def relayPersist (K : Keys) (s : St) (ok : Bool) : St :=
  match s.relayPhase with
  | .persisting stage activated =>
    if !ok then s.relayReturns (.failed .stateFile)
    else
      let s' := { s with disk := s.disk.advance s.state stage }
      match stage.next with
      | some next => { s' with relayPhase := .persisting next activated }
      | none => if activated then s'.relayReturns .ok else s'.sendSetup K
  | _ => s

/-- one read of the target reader -/
def targetRead (s : St) (id : ℕ) (r : Read) : St :=
  if s.targetReader id ∧ s.up.hand id = none then
    match r with
    | .failed =>
      { s with
        targetReader := Function.update s.targetReader id false
        up := s.up.hold id (.streamClosed id .shutdown) }
    | .bytes b =>
      if b.take maxDataBytes = [] then
        { s with
          targetReader := Function.update s.targetReader id false
          up := s.up.hold id (.streamHalfClosed id) }
      else { s with up := s.up.hold id (.streamData id (Base64Url.encode (b.take maxDataBytes))) }
  else s

/-- `enrollment_stream` takes a frame from `outbound_rx`, and drops it when its stream is no longer the target -/
def relaySend (s : St) : St :=
  match s.relayPhase, s.up.queue with
  | .streams target _ _, f :: queue =>
    if target.isSome ∧ f.stream = target then s.answer f { s with up := { s.up with queue := queue } }
    else { s with up := { s.up with queue := queue } }
  | _, _ => s

/-! ## Steps -/

inductive Op where
  | enroll (token : Text)
  | relayRecv (env : RelayEnv)
  | relayPersist (ok : Bool)
  | targetRead (id : ℕ) (r : Read)
  | targetEnqueue (id : ℕ)
  | relaySend
  /-- a timeout, a closed connection, a failed send -/
  | relayStop (e : ClientError)
  | relayCrash (c : Disk.Crash)
  | serverRecv (env : ServerEnv)
  | pipeRead (b : List UInt8)
  | pipeEnqueue
  | serverSend
  | operationDone (result : Option HostKey)
  | activate (c : Commit)
  /-- a timeout, the deadline of the attempt, a closed connection, a fence or a crash -/
  | serverStop (e : RelayError)
  | elsewhere (e : Elsewhere)
  | loseUp (i : ℕ)
  | loseDown (i : ℕ)
  /-- the operator starts another enrollment with the same state file; `recorded`: up to the sync of the directory -/
  | enrollAgain (deploymentId machineId : Uuid) (routeRevision : ℤ) (recorded : Bool)
  /-- the command `reset` -/
  | reset (relayId : Uuid) (secretKey : Text)
deriving DecidableEq, Repr

/-- `enroll` of a later process refuses a file with a route revision -/
def enrollAgain (s : St) (deploymentId machineId : Uuid) (routeRevision : ℤ) (recorded : Bool) : St :=
  match load s.disk.entry with
  | none => s
  | some state =>
    if state.routeRevision.isSome then s
    else
      let file := some ⟨some (state.enrolled deploymentId machineId routeRevision), true⟩
      { s with disk := ⟨file, if recorded then file else s.disk.recorded, none⟩ }

/-- `reset_identity` -/
def reset (s : St) (relayId : Uuid) (secretKey : Text) : St :=
  match load s.disk.entry with
  | none => s
  | some state =>
    let file := some ⟨some { state with
      relayId := relayId, secretKey := secretKey, deploymentId := none, machineId := none, routeRevision := none }, true⟩
    { s with disk := ⟨file, file, none⟩ }

/-- a step of the Server; it takes none after its return -/
def onServer (s s' : St) : St := if s.serverExit.isSome then s else s'

def onRelay (s s' : St) : St := if s.relayExit.isSome then s else s'

def step (K : Keys) (isEd25519 : Text → Bool) (A : AcceptedEnrollment) (s : St) : Op → St
  | .enroll token => onRelay s (enroll s token)
  | .relayRecv env => onRelay s (relayRecv K env s)
  | .relayPersist ok => onRelay s (relayPersist K s ok)
  | .targetRead id r => onRelay s (targetRead s id r)
  | .targetEnqueue id => onRelay s { s with up := s.up.enqueue provisionalCapacity id }
  | .relaySend => onRelay s (relaySend s)
  | .relayStop e => onRelay s (s.relayReturns (.failed e))
  | .relayCrash c => { onRelay s (s.relayReturns (.failed .transport)) with disk := s.disk.crash c }
  | .serverRecv env => onServer s (serverRecv K isEd25519 A env s)
  | .pipeRead b => onServer s (pipeRead s b)
  | .pipeEnqueue => onServer s (pipeEnqueue s)
  | .serverSend => onServer s (serverSend s)
  | .operationDone result => onServer s (operationDone s result)
  | .activate c => onServer s (activateStep isEd25519 A s c)
  | .serverStop e => onServer s (s.serverReturns (.failed e))
  | .elsewhere e => { s with db := s.db.elsewhere e }
  | .loseUp i => { s with up := { s.up with wire := s.up.wire.eraseIdx i } }
  | .loseDown i => { s with down := { s.down with wire := s.down.wire.eraseIdx i } }
  | .enrollAgain d m r recorded => if s.relayExit.isSome then enrollAgain s d m r recorded else s
  | .reset relayId secretKey => if s.relayExit.isSome then reset s relayId secretKey else s

def run (K : Keys) (isEd25519 : Text → Bool) (A : AcceptedEnrollment) (s : St) (ops : List Op) : St :=
  Machine.run (step K isEd25519 A) s ops

end OwlMux.Enrollment
