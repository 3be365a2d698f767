import MoqQuic.L2Machine.Tquic.RangeSet
import MoqQuic.L2Machine.Tquic.RecvBuf

/-!
# The streams of a connection, receiving side (`connection/stream.rs`)

`StreamMap` owns the streams of a connection and its flow control. Frames open
streams as long as the limits on their number allow it. A stream that is complete
is closed: it stays in the map for the endpoint to destroy it if there is an event
queue, and is destroyed at once otherwise. That an id was used is then known from
the sets of available ids only.

The sending side of a stream is reduced to whether it is complete. The queues and
sets of streams that wait for something are left out; they do not influence what
is modelled. `ledgers` is not in the source: for each stream that was ever opened,
the largest offset that was received and the ranges of bytes that were credited to
the connection's flow control as read.

Line numbers without a file are those of `stream.rs`.
-/
namespace MoqQuic.L3.Tquic
open Reader (Bytes)
open L2.Tquic

/-- mirrors codec.rs: the largest value of a variable-length integer -/
def vintMax : Nat := 2 ^ 62 - 1

/-- mirrors :1956-1958 -/
def isLocal (streamId : Nat) (isServer : Bool) : Bool := (streamId % 2 == 1) == isServer

/-- mirrors :1965-1967 -/
def isBidi (streamId : Nat) : Bool := streamId / 2 % 2 == 0

/-! ## Limits on the number of streams -/

/-- The streams of one initiator and one type; `maxStreamsNext` is used for those of the peer. -/
structure StreamLimit where
  maxStreams : Nat
  maxStreamsNext : Nat
  opened : Nat
  availIds : RangeSet

namespace StreamLimit

def new (maxStreams : Nat) : StreamLimit := ⟨maxStreams, maxStreams, 0, RangeSet.empty.insert ⟨0, maxStreams⟩⟩

variable (l : StreamLimit)

/-- mirrors :3210-3270 -/
def check (streamId : Nat) : Except Error StreamLimit :=
  if max l.opened (streamId / 4 + 1) > l.maxStreams then .error .streamLimitError
  else .ok { l with opened := max l.opened (streamId / 4 + 1) }

/-- mirrors :3273-3281 -/
def isLimited (streamId : Nat) : Bool := streamId / 4 + 1 > l.maxStreams

/-- mirrors :3284-3292 -/
def isAvailable (streamId : Nat) : Bool := l.availIds.contains (streamId / 4)

/-- mirrors :3305-3313 -/
def removeAvailId (streamId : Nat) : StreamLimit :=
  { l with availIds := l.availIds.removeElem (streamId / 4) }

/-- The limit becomes `maxStreams`. mirrors :3102-3105, 3136-3138 -/
def raise (maxStreams : Nat) : StreamLimit :=
  { l with maxStreams, availIds := l.availIds.insert ⟨l.maxStreams, maxStreams⟩ }

end StreamLimit

/-- mirrors :3026-3076 -/
structure ConcurrencyControl where
  localBidi : StreamLimit
  localUni : StreamLimit
  peerBidi : StreamLimit
  peerUni : StreamLimit

namespace ConcurrencyControl

/-- mirrors :3079-3094 -/
def new (localMaxStreamsBidi localMaxStreamsUni : Nat) : ConcurrencyControl :=
  ⟨.new 0, .new 0, .new localMaxStreamsBidi, .new localMaxStreamsUni⟩

variable (c : ConcurrencyControl)

def get : (loc bidi : Bool) → StreamLimit
  | true, true => c.localBidi
  | true, false => c.localUni
  | false, true => c.peerBidi
  | false, false => c.peerUni

def set (l : StreamLimit) : (loc bidi : Bool) → ConcurrencyControl
  | true, true => { c with localBidi := l }
  | true, false => { c with localUni := l }
  | false, true => { c with peerBidi := l }
  | false, false => { c with peerUni := l }

/-- After MAX_STREAMS was received. mirrors :3098-3130 -/
def updatePeerMaxStreams (bidi : Bool) (maxStreams : Nat) : ConcurrencyControl :=
  if (c.get true bidi).maxStreams < maxStreams then c.set ((c.get true bidi).raise maxStreams) true bidi else c

/-- After MAX_STREAMS was sent. mirrors :3133-3145 -/
def updateLocalMaxStreams (bidi : Bool) : ConcurrencyControl :=
  c.set ((c.get false bidi).raise (c.get false bidi).maxStreamsNext) false bidi

/-- mirrors :3184-3195 -/
def increaseMaxStreamsCredits (bidi : Bool) (delta : Nat) : ConcurrencyControl :=
  c.set { c.get false bidi with maxStreamsNext := (c.get false bidi).maxStreamsNext + delta } false bidi

end ConcurrencyControl

/-! ## Streams -/

structure Stream where
  bidi : Bool
  loc : Bool
  recv : RecvBuf
  sendComplete : Bool
  closed : Bool

namespace Stream

/-- mirrors :1799-1848 -/
def new (bidi loc : Bool) (maxRxData : Nat) : Stream := ⟨bidi, loc, RecvBuf.new maxRxData, false, false⟩

/-- mirrors :1877-1889 -/
def isComplete (s : Stream) : Bool :=
  match s.bidi, s.loc with
  | true, _ => s.sendComplete && s.recv.isFin
  | false, true => s.sendComplete
  | false, false => s.recv.isFin

end Stream

/-- What a stream received and what was credited for it, the latest first. -/
structure Ledger where
  largest : Nat
  credited : List (Nat × Nat)

structure StreamTransportParams where
  initialMaxData : Nat
  initialMaxStreamDataBidiLocal : Nat
  initialMaxStreamDataBidiRemote : Nat
  initialMaxStreamDataUni : Nat
  initialMaxStreamsBidi : Nat
  initialMaxStreamsUni : Nat

structure StreamMap where
  isServer : Bool
  hasEvents : Bool
  params : StreamTransportParams
  concurrency : ConcurrencyControl
  flowControl : FlowControl
  streams : OrdMap Nat Stream
  ledgers : OrdMap Nat Ledger

namespace StreamMap

/-- mirrors :157-189 -/
def new (isServer hasEvents : Bool) (params : StreamTransportParams) : StreamMap :=
  ⟨isServer, hasEvents, params, .new params.initialMaxStreamsBidi params.initialMaxStreamsUni,
    .new params.initialMaxData, OrdMap.empty, OrdMap.empty⟩

variable (m : StreamMap)

/-- The limit that a stream id is subject to. -/
def limit (id : Nat) : StreamLimit := m.concurrency.get (isLocal id m.isServer) (isBidi id)

/-- mirrors :1104-1120 -/
def isClosed (id : Nat) : Bool :=
  match m.streams.find id with
  | some stream => stream.closed
  | none => !((m.limit id).isAvailable id || (m.limit id).isLimited id)

/-- How much can be received on a new stream. mirrors :607-634 -/
def maxStreamDataLimit (params : StreamTransportParams) : (loc bidi : Bool) → Nat
  | true, true => params.initialMaxStreamDataBidiLocal
  | true, false => 0
  | false, true => params.initialMaxStreamDataBidiRemote
  | false, false => params.initialMaxStreamDataUni

/-- mirrors :638-707 -/
def getOrCreate (id : Nat) (loc : Bool) : Except Error (Stream × StreamMap) :=
  if id > vintMax then .error .protocolViolation
  else match m.streams.find id with
  | some stream => .ok (stream, m)
  | none =>
    if m.isClosed id then .error .done
    else if loc ≠ isLocal id m.isServer then .error .streamStateError
    else match (m.limit id).check id with
    | .error e => .error e
    | .ok l =>
      let stream := Stream.new (isBidi id) loc (maxStreamDataLimit m.params loc (isBidi id))
      .ok (stream, { m with
        concurrency := m.concurrency.set (l.removeAvailId id) (isLocal id m.isServer) (isBidi id)
        streams := m.streams.insert id stream
        ledgers := m.ledgers.insert id ⟨0, []⟩ })

/-- mirrors :909-911 -/
def streamDestroy (id : Nat) : StreamMap := { m with streams := m.streams.erase id }

/-- The stream is marked, and the peer may open another one for one of its own. mirrors :880-895 -/
def setClosed (id : Nat) (loc : Bool) : StreamMap :=
  { m with
    concurrency := if loc then m.concurrency else m.concurrency.increaseMaxStreamsCredits (isBidi id) 1
    streams := m.streams.modify id fun stream => { stream with closed := true } }

/-- mirrors :876-906 -/
def markClosed (id : Nat) (loc : Bool) : StreamMap :=
  if m.isClosed id then m
  else if m.hasEvents then m.setClosed id loc
  else (m.setClosed id loc).streamDestroy id

/-- Close the stream if it is there and `done`. -/
def closeIf (id : Nat) (done : Stream → Bool) : StreamMap :=
  match m.streams.find id with
  | some stream => if done stream then m.markClosed id stream.loc else m
  | none => m

/-- The effect of a change through `get_mut`. -/
def setRecv (id : Nat) (recv : RecvBuf) : StreamMap :=
  { m with streams := m.streams.modify id fun stream => { stream with recv } }

/-- Data up to `off` was received. -/
def noteReceived (id off : Nat) : StreamMap :=
  { m with ledgers := m.ledgers.modify id fun l => { l with largest := max l.largest off } }

/-- `increase_read_off` for the `n` bytes from `lo` on. -/
def credit (id lo n : Nat) : StreamMap :=
  { m with
    flowControl := m.flowControl.increaseReadOff n
    ledgers := m.ledgers.modify id fun l => { l with credited := (lo, lo + n) :: l.credited } }

def increaseRecvOff (m : StreamMap) (delta : Nat) : StreamMap :=
  { m with flowControl := m.flowControl.increaseRecvOff delta }

/-- mirrors :1464-1466 -/
def maxRxDataLeft : Nat := m.flowControl.maxData - m.flowControl.recvOff

/-! ## Frames -/

/-- The frame was stored: `stream` is as before. A frame without data and FIN is dropped by `write`.
mirrors :1547-1566 -/
def frameStored (id : Nat) (stream : Stream) (offset : Nat) (data : Bytes) (fin : Bool)
    (recv : RecvBuf) : StreamMap :=
  let delta := offset + data.length - stream.recv.recvOff
  let m := (m.setRecv id recv).increaseRecvOff delta
  let m := if data.isEmpty ∧ fin = false then m else m.noteReceived id (offset + data.length)
  if stream.recv.shutdown then m.credit id stream.recv.recvOff delta else m

/-- `none`: `write` has not ended. mirrors :1498-1567 -/
def onStreamFrameReceived (id offset : Nat) (data : Bytes) (fin : Bool) : Option (Except Error StreamMap) :=
  if isLocal id m.isServer ∧ (isBidi id = false ∨ (m.streams.find id).isNone ∧ m.isClosed id = false) then
    some (.error .streamStateError)
  else match m.getOrCreate id false with
  | .error .done => some (.ok m)
  | .error e => some (.error e)
  | .ok (stream, m') =>
    if offset + data.length - stream.recv.recvOff > m.maxRxDataLeft then some (.error .flowControlError)
    else (stream.recv.write offset data fin).map fun written =>
      written.map fun recv => m'.frameStored id stream offset data fin recv

/-- Close the stream if it is complete and has nothing to read. mirrors :1351-1355, 1577-1582, 1595-1600 -/
def closeIfDone (id : Nat) : StreamMap :=
  m.closeIf id fun stream => stream.isComplete && !stream.recv.ready

/-- mirrors :1338-1360 -/
def streamWasReset (id : Nat) (stream : Stream) (finalSize delta : Nat) (recv : RecvBuf) : StreamMap :=
  let m := ((m.setRecv id recv).increaseRecvOff delta).noteReceived id finalSize
  (m.credit id stream.recv.readOff (finalSize - stream.recv.readOff)).closeIfDone id

/-- mirrors :1289-1364 -/
def onResetStreamFrameReceived (id errorCode finalSize : Nat) : Option (Except Error StreamMap) :=
  if isBidi id = false ∧ isLocal id m.isServer then some (.error .streamStateError)
  else match m.getOrCreate id false with
  | .error .done => some (.ok m)
  | .error e => some (.error e)
  | .ok (stream, m') => (stream.recv.reset errorCode finalSize).map fun
    | .error e => .error e
    | .ok (delta, recv) =>
      if delta > m.maxRxDataLeft then .error .flowControlError
      else .ok (m'.streamWasReset id stream finalSize delta recv)

/-! ## Calls of the application -/

/-- mirrors :266-268, 300-303 -/
def closeIfComplete (id : Nat) : StreamMap := m.closeIf id Stream.isComplete

/-- mirrors :240-306 -/
def streamRead (id cap : Nat) : StreamMap × Except Error (Bytes × Bool) :=
  if isBidi id = false ∧ isLocal id m.isServer then (m, .error .streamStateError)
  else match m.streams.find id with
  | none => (m, .error .streamStateError)
  | some stream =>
    if stream.recv.ready = false then (m, .error .done)
    else match stream.recv.read cap with
    | (recv, .error e) => ((m.setRecv id recv).closeIfComplete id, .error e)
    | (recv, .ok (got, fin)) =>
      (((m.setRecv id recv).credit id stream.recv.readOff got.length).closeIfComplete id, .ok (got, fin))

/-- `stream_shutdown` with `Shutdown::Read`. mirrors :425-456 -/
def streamShutdownRead (id : Nat) : Except Error StreamMap :=
  match m.streams.find id with
  | none => .error .done
  | some stream =>
    if isLocal id m.isServer ∧ isBidi id = false then .error .streamStateError
    else match stream.recv.shutdownRead with
    | .error e => .error e
    | .ok (unread, recv) => .ok ((m.setRecv id recv).credit id stream.recv.readOff unread)

/-- After MAX_DATA was sent. mirrors :1453-1455 -/
def updateMaxRxData : StreamMap := { m with flowControl := m.flowControl.updateMaxData }

/-- After MAX_STREAM_DATA was sent. mirrors :2301-2303 -/
def updateStreamMaxData (id : Nat) : StreamMap :=
  { m with streams := m.streams.modify id fun stream => { stream with recv := stream.recv.updateMaxData } }

/-- The sending side becomes complete. mirrors :2851-2856 -/
def sendCompleted (id : Nat) : StreamMap :=
  { m with streams := m.streams.modify id fun stream => { stream with sendComplete := true } }

/-- A sent frame is acknowledged, and with it perhaps all that was sent. mirrors :1571-1601 -/
def onFrameAcked (id : Nat) (completes : Bool) : StreamMap :=
  (if completes then m.sendCompleted id else m).closeIfDone id

end StreamMap

end MoqQuic.L3.Tquic
