/-
The Relay multiplexer: the server loop `run_tunnel` (`owlmux-server/src/relay/mod.rs`) and the Relay loop `relay_tunnel`
(`owlmux-relay/src/main.rs`) joined by two reliable FIFO frame channels, with the reader tasks of both sides
(`relay_reader`, `spawn_target_reader`), the callers that hold the far end of each stream and the loopback sshd.

- `serverOnFrame`, `relayOnFrame`: what one loop iteration does with a received frame, and how it answers it;
- `step`: one select branch of one loop, one read or one queued send of one reader task, or one act of the environment
  (a caller or sshd drops its end, the barrier closes, the lease fails, a timer fires). Select branches are taken in any
  order: the priority of the biased select of `run_tunnel` only removes schedules;
- `runForever`: what `run_forever` makes of the result of one tunnel.

Environment choices are arguments of the operations: whether the loopback connect succeeds, the bytes a read returns,
whether a local write completes (`Write.cut`: it fails or times out after k bytes), and what `socket.next()` gives once the
peer has dropped its WebSocket without a close handshake. Writing to an end that is gone fails.

`down` carries Server frames to the Relay, `up` Relay frames to the Server; each is a `Lane`, with one reader task per
stream, a bounded outbound queue of 64 frames and the wire. OpenStream, Ping, StreamOpened, Pong and the refusal of a
connect go directly on the wire.

History, read by no step: `connected` and `refused` (the outcome of each loopback connect), `cut` (streams whose write to
sshd failed, which ended the Relay's loop), `closedSent` (streams whose half-close or close the server has put on the wire),
`admitted id` (the streams without one when `id` was admitted).
-/
import Mathlib.Tactic
import OwlMux.Lib.Lane
import OwlMux.Lib.Machine
import OwlMux.Relay.Protocol

namespace OwlMux.Relay

/-- `RelayError` of the Server -/
inductive RelayError where
  | invalidToken
  | invalidState
  | proofFailed
  | protocol
  | unavailable
  | overloaded
  | ownerConflict
  | conflict
  | ambiguous
  | fenced
deriving DecidableEq, Repr

/-- `RelayError` of the Relay, without the texts that only `Display` reads -/
inductive ClientError where
  | input
  | state
  | stateFile
  | protocol
  | transport
  | remote (code : Text)
deriving DecidableEq, Repr

inductive TunnelExit where
  | shutdown
  | disconnected
deriving DecidableEq, Repr

/-- `run_forever`: `none` retries after a pause, `some r` leaves the loop with `r` -/
def runForever : Except ClientError TunnelExit → Option (Except ClientError Unit)
  | .ok .shutdown => some (.ok ())
  | .ok .disconnected => none
  | .error .transport => none
  | .error (.remote _) => none
  | .error e => some (.error e)

/-! ## Local ends -/

/-- how a local `write_all` ends: everything, or a failure or timeout after k bytes -/
inductive Write where
  | all
  | cut (k : ℕ)
deriving DecidableEq, Repr

inductive WriteResult where
  | protocol
  | ok (written : List UInt8)
  | failed (written : List UInt8)
deriving DecidableEq, Repr

/-- `write_data` (both crates): decode, bound, write. `gone`: the peer of the local end has been dropped. `write_all` of no
bytes completes without a write. -/
def writeData (gone : Bool) (w : Write) (data : Text) : WriteResult :=
  match Base64Url.decode data with
  | none => .protocol
  | some decoded =>
    if maxDataBytes < decoded.length then .protocol
    else if decoded = [] then .ok []
    else
      match w with
      | .all => if gone then .failed [] else .ok decoded
      | .cut k => .failed (decoded.take k)

/-- what one `reader.read` of a reader task returns: bytes (none at end of file), or an error -/
inductive Read where
  | bytes (b : List UInt8)
  | failed
deriving DecidableEq, Repr

/-- one logical stream, seen from its two local ends -/
structure Stream where
  /-- bytes `relay_reader` has read from the caller's end -/
  callerRead : List UInt8 := []
  /-- bytes `write_data` of the Server has written to the caller's end -/
  callerGot : List UInt8 := []
  /-- bytes the target reader has read from sshd's socket -/
  sshdRead : List UInt8 := []
  /-- bytes `write_data` of the Relay has written to sshd's socket -/
  sshdGot : List UInt8 := []
  callerGone : Bool := false
  sshdGone : Bool := false
  /-- `relay_reader` of this stream is running -/
  callerReader : Bool := false
  /-- the target reader of this stream is running -/
  sshdReader : Bool := false
deriving DecidableEq, Repr

/-! ## The joined loops -/

structure St where
  writers : Finset ℕ
  nextStreamId : ℕ
  pingNonce : ℕ
  outstandingPings : List ℕ
  /-- `close_dispatch` has run: dispatch closed, barrier cancelled -/
  barrier : Bool
  /-- `lease.check()` succeeds -/
  leaseOk : Bool
  serverExit : Option (Except RelayError Unit)
  targets : Finset ℕ
  relayExit : Option (Except ClientError TunnelExit)
  down : Lane ServerFrame
  up : Lane ClientFrame
  streams : ℕ → Stream
  connected : Finset ℕ
  refused : Finset ℕ
  cut : Finset ℕ
  closedSent : Finset ℕ
  admitted : ℕ → Finset ℕ

def init : St :=
  { writers := ∅, nextStreamId := 1, pingNonce := 0, outstandingPings := [], barrier := false, leaseOk := true,
    serverExit := none, targets := ∅, relayExit := none, down := {}, up := {}, streams := fun _ => {},
    connected := ∅, refused := ∅, cut := ∅, closedSent := ∅, admitted := fun _ => ∅ }

/-- change one stream -/
def St.modify (s : St) (id : ℕ) (f : Stream → Stream) : St :=
  { s with streams := Function.update s.streams id (f (s.streams id)) }

namespace Stream

def callerGets (b : List UInt8) (t : Stream) : Stream := { t with callerGot := t.callerGot ++ b }
def sshdGets (b : List UInt8) (t : Stream) : Stream := { t with sshdGot := t.sshdGot ++ b }
def callerReads (b : List UInt8) (t : Stream) : Stream := { t with callerRead := t.callerRead ++ b }
def sshdReads (b : List UInt8) (t : Stream) : Stream := { t with sshdRead := t.sshdRead ++ b }
def callerStarts (t : Stream) : Stream := { t with callerReader := true }
def callerEnds (t : Stream) : Stream := { t with callerReader := false }
def sshdStarts (t : Stream) : Stream := { t with sshdReader := true }
def sshdEnds (t : Stream) : Stream := { t with sshdReader := false }
def callerDrops (t : Stream) : Stream := { t with callerGone := true }
def sshdDrops (t : Stream) : Stream := { t with sshdGone := true }

end Stream

/-- a frame that ends one direction of its stream -/
def ServerFrame.closing : ServerFrame → Bool
  | .streamHalfClosed _ => true
  | .streamClosed _ _ => true
  | _ => false

def ClientFrame.closing : ClientFrame → Bool
  | .streamHalfClosed _ => true
  | .streamClosed _ _ => true
  | _ => false

/-- `run_tunnel`, the match on a received frame -/
def serverOnFrame (w : Write) (s : St) (f : ClientFrame) : Except RelayError Unit × St :=
  if !fitsFrame f.encode then (.error .protocol, s)
  else
    match f with
    | .streamOpened _ => (.ok (), s)
    | .pong nonce =>
      if nonce ∈ s.outstandingPings then
        (.ok (), { s with outstandingPings := s.outstandingPings.erase nonce })
      else (.error .protocol, s)
    | .streamData id data =>
      if !s.leaseOk then (.error .fenced, s)
      else if id ∉ s.writers then (.error .protocol, s)
      else
        match writeData (s.streams id).callerGone w data with
        | .protocol => (.error .protocol, s)
        | .ok b => (.ok (), s.modify id (Stream.callerGets b))
        | .failed b => (.error .unavailable, s.modify id (Stream.callerGets b))
    | .streamHalfClosed id => (.ok (), { s with writers := s.writers.erase id })
    | .streamClosed id _ => (.ok (), { s with writers := s.writers.erase id })
    | _ => (.error .protocol, s)

/-- `send_frame` of the Relay: it checks the size of what it sends -/
def relaySendFrame (s : St) (f : ClientFrame) : Except ClientError Unit × St :=
  if fitsFrame f.encode then (.ok (), { s with up := s.up.push f }) else (.error .protocol, s)

/-- `relay_tunnel`, the match on a received frame; `connect`: the loopback connect succeeds -/
def relayOnFrame (connect : Bool) (w : Write) (s : St) (f : ServerFrame) : Except ClientError Unit × St :=
  if !fitsFrame f.encode then (.error .protocol, s)
  else
    match f with
    | .openStream id =>
      if id = 0 ∨ maxStreams ≤ s.targets.card ∨ id ∈ s.targets then (.error .protocol, s)
      else if connect then
        relaySendFrame
          { s.modify id Stream.sshdStarts with
            targets := insert id s.targets, connected := insert id s.connected }
          (.streamOpened id)
      else
        relaySendFrame { s with refused := insert id s.refused } (.streamClosed id .connectFailed)
    | .streamData id data =>
      if id ∉ s.targets then (.error .protocol, s)
      else
        match writeData (s.streams id).sshdGone w data with
        | .protocol => (.error .protocol, s)
        | .ok b => (.ok (), s.modify id (Stream.sshdGets b))
        | .failed b => (.error .transport, { s.modify id (Stream.sshdGets b) with cut := insert id s.cut })
    | .streamHalfClosed id => (.ok (), { s with targets := s.targets.erase id })
    | .streamClosed id _ => (.ok (), { s with targets := s.targets.erase id })
    | .ping nonce => relaySendFrame s (.pong nonce)
    | .error code _ => (.error (.remote code), s)
    | _ => (.error .protocol, s)

def outboundCapacity : ℕ := 64

/-- why a loop ends without a frame making it; `socketError`: `socket.next()` is an error, or the close of the peer, which
`decode_frame` refuses -/
inductive ServerStop where
  | barrier
  | fence
  | inboundDeadline
  | sendFailed
  | socketError
deriving DecidableEq, Repr

inductive RelayStop where
  | ctrlC
  | inboundDeadline
  | sendFailed
deriving DecidableEq, Repr

inductive Op where
  /-- `run_tunnel` takes a `TunnelCommand::Open` -/
  | openStream
  /-- `relay_reader` of stream `id` returns from a read -/
  | callerRead (id : ℕ) (r : Read)
  | callerEnqueue (id : ℕ)
  /-- `run_tunnel` takes a frame from `outbound_rx` -/
  | serverSend
  | serverRecv (w : Write)
  | heartbeat
  | serverStop (r : ServerStop)
  | closeDispatch
  | fence
  /-- the caller drops its `DuplexStream` -/
  | callerDrop (id : ℕ)
  /-- the target reader of stream `id` returns from a read -/
  | sshdRead (id : ℕ) (r : Read)
  | sshdEnqueue (id : ℕ)
  /-- `relay_tunnel` takes a frame from `outbound_rx` -/
  | relaySend
  | relayRecv (connect : Bool) (w : Write)
  | relayStop (r : RelayStop)
  /-- sshd closes its TCP socket -/
  | sshdClose (id : ℕ)
deriving DecidableEq, Repr

/-- the answer of a loop to a frame: go on, or return -/
def St.settleServer (p : Except RelayError Unit × St) : St :=
  match p.1 with
  | .ok () => p.2
  | .error e => { p.2 with serverExit := some (.error e) }

def St.settleRelay (p : Except ClientError Unit × St) : St :=
  match p.1 with
  | .ok () => p.2
  | .error e => { p.2 with relayExit := some (.error e) }

/-- an admitted open: writer, reader task and OpenStream frame under the next stream id -/
def admitStream (s : St) : St :=
  { s.modify s.nextStreamId Stream.callerStarts with
    writers := insert s.nextStreamId s.writers
    nextStreamId := s.nextStreamId + 1
    down := s.down.push (.openStream s.nextStreamId)
    admitted := Function.update s.admitted s.nextStreamId (Finset.Ico 1 s.nextStreamId \ s.closedSent) }

/-- `TunnelCommand::Open`; a refused command only answers its caller -/
def serverOpen (s : St) : St :=
  if !s.leaseOk then { s with serverExit := some (.error .fenced) }
  else if s.barrier then s
  else if maxStreams ≤ s.writers.card then s
  else if 2 ^ 32 ≤ s.nextStreamId + 1 then { s with serverExit := some (.error .protocol) }
  else admitStream s

/-- one read of `relay_reader`: the buffer holds MAX_DATA_BYTES -/
def callerReadStep (s : St) (id : ℕ) : Read → St
  | .failed =>
    { s.modify id Stream.callerEnds with
      down := s.down.hold id (.streamClosed id .shutdown) }
  | .bytes b =>
    if b.take maxDataBytes = [] then
      { s.modify id Stream.callerEnds with down := s.down.hold id (.streamHalfClosed id) }
    else
      { s.modify id (Stream.callerReads (b.take maxDataBytes)) with
        down := s.down.hold id (.streamData id (Base64Url.encode (b.take maxDataBytes))) }

/-- one read of the target reader -/
def sshdReadStep (s : St) (id : ℕ) : Read → St
  | .failed =>
    { s.modify id Stream.sshdEnds with up := s.up.hold id (.streamClosed id .shutdown) }
  | .bytes b =>
    if b.take maxDataBytes = [] then
      { s.modify id Stream.sshdEnds with up := s.up.hold id (.streamHalfClosed id) }
    else
      { s.modify id (Stream.sshdReads (b.take maxDataBytes)) with
        up := s.up.hold id (.streamData id (Base64Url.encode (b.take maxDataBytes))) }

/-- streams whose closing frame has been sent, after sending `f` -/
def noteClosing (closedSent : Finset ℕ) (f : ServerFrame) : Finset ℕ :=
  match f.stream with
  | none => closedSent
  | some id => if f.closing then insert id closedSent else closedSent

/-- `send_route_frame` of the oldest queued frame -/
def serverSendStep (s : St) : St :=
  match s.down.queue with
  | [] => s
  | f :: _ =>
    if !s.leaseOk then { s with serverExit := some (.error .fenced) }
    else if s.barrier then { s with serverExit := some (.error .unavailable) }
    else { s with down := s.down.flush, closedSent := noteClosing s.closedSent f }

def heartbeatStep (s : St) : St :=
  if 3 ≤ s.outstandingPings.length then { s with serverExit := some (.error .unavailable) }
  else if 2 ^ 64 ≤ s.pingNonce + 1 then { s with serverExit := some (.error .protocol) }
  else if !s.leaseOk then { s with serverExit := some (.error .fenced) }
  else if s.barrier then { s with serverExit := some (.error .unavailable) }
  else
    { s with
      pingNonce := s.pingNonce + 1
      down := s.down.push (.ping (s.pingNonce + 1))
      outstandingPings := s.outstandingPings ++ [s.pingNonce + 1] }

/-- `socket.next()` gives a frame, or none once the Relay has dropped its end -/
def serverRecvStep (w : Write) (s : St) : St :=
  match s.up.wire with
  | [] => if s.relayExit.isSome then { s with serverExit := some (.error .unavailable) } else s
  | f :: _ => St.settleServer (serverOnFrame w { s with up := s.up.pop } f)

def relaySendStep (s : St) : St :=
  match s.up.queue with
  | [] => s
  | f :: _ =>
    if fitsFrame f.encode then { s with up := s.up.flush } else { s with relayExit := some (.error .protocol) }

def relayRecvStep (connect : Bool) (w : Write) (s : St) : St :=
  match s.down.wire with
  | [] => if s.serverExit.isSome then { s with relayExit := some (.ok .disconnected) } else s
  | f :: _ => St.settleRelay (relayOnFrame connect w { s with down := s.down.pop } f)

def serverStopStep (s : St) : ServerStop → St
  | .barrier => if s.barrier then { s with serverExit := some (.ok ()) } else s
  | .fence => if s.leaseOk then s else { s with serverExit := some (.error .fenced) }
  | .inboundDeadline => { s with serverExit := some (.error .unavailable) }
  | .sendFailed => { s with serverExit := some (.error .unavailable) }
  | .socketError =>
    -- the channels are reliable: reading fails only after the Relay's loop has returned and dropped its end
    if s.relayExit.isSome then { s with serverExit := some (.error .protocol) } else s

def relayStopStep (s : St) : RelayStop → St
  | .ctrlC => { s with relayExit := some (.ok .shutdown) }
  | .inboundDeadline => { s with relayExit := some (.ok .disconnected) }
  | .sendFailed => { s with relayExit := some (.error .transport) }

/-- one step; a loop that has returned takes no more of its own -/
def step (s : St) : Op → St
  | .openStream => if s.serverExit.isSome then s else serverOpen s
  | .callerRead id r => if (s.streams id).callerReader ∧ s.down.hand id = none then callerReadStep s id r else s
  | .callerEnqueue id =>
    if s.serverExit.isSome then s else { s with down := s.down.enqueue outboundCapacity id }
  | .serverSend => if s.serverExit.isSome then s else serverSendStep s
  | .serverRecv w => if s.serverExit.isSome then s else serverRecvStep w s
  | .heartbeat => if s.serverExit.isSome then s else heartbeatStep s
  | .serverStop r => if s.serverExit.isSome then s else serverStopStep s r
  | .closeDispatch => { s with barrier := true }
  | .fence => { s with leaseOk := false }
  | .callerDrop id => s.modify id Stream.callerDrops
  | .sshdRead id r => if (s.streams id).sshdReader ∧ s.up.hand id = none then sshdReadStep s id r else s
  | .sshdEnqueue id => if s.relayExit.isSome then s else { s with up := s.up.enqueue outboundCapacity id }
  | .relaySend => if s.relayExit.isSome then s else relaySendStep s
  | .relayRecv connect w => if s.relayExit.isSome then s else relayRecvStep connect w s
  | .relayStop r => if s.relayExit.isSome then s else relayStopStep s r
  | .sshdClose id => s.modify id Stream.sshdDrops

def run (s : St) (ops : List Op) : St := Machine.run step s ops

end OwlMux.Relay
