import MoqQuic.L1Encoding.TquicCodec
import MoqQuic.L2Machine.Tquic.RangeSet

/-!
# QUIC frames on the wire (`frame.rs`)

Every kind of frame is written by `to_bytes`, measured by `wire_len` and read by
`from_bytes`, in code of its own each time. An ACK frame lists its ranges from
the largest down, as the gaps between them and their lengths; STREAM and CRYPTO
frames have a length of two bytes; a run of PADDING frames is one value.

`RangeSet` has a capacity, which its derived equality compares and which is not
on the wire: the set that is read has the capacity of `RangeSet::default()`.

Results:
* `codes_frame`, `paddings_spec`: each frame that may be sent in a 1-RTT packet takes
  `wire_len` bytes and is read back.
* `frame_round_trip`: the same for all frames and any bytes behind them.

Line numbers without a file are those of `frame.rs`.
-/
namespace MoqQuic.L3.Tquic.Wire
open Reader (Act Bytes Reads bind_ok)
open Writer L1.Tquic L2.Tquic

def MAX_STREAM_SIZE : Nat := 2 ^ 62

/-- `usize::MAX` -/
def usizeMax : Nat := 2 ^ 64 - 1

/-- A `RangeSet` with its capacity. mirrors ranges.rs:25-31 -/
structure AckRanges where
  set : RangeSet
  capacity : Nat
  deriving DecidableEq

/-- mirrors :1172-1184 -/
structure EcnCounts where
  ect0Count : Nat
  ect1Count : Nat
  ecnCeCount : Nat
  deriving DecidableEq

/-- mirrors :46-181 -/
inductive Frame where
  | paddings (len : Nat)
  | ping (pmtuProbe : Option (Nat × Nat))
  | ack (ackDelay : Nat) (ackRanges : AckRanges) (ecnCounts : Option EcnCounts)
  | resetStream (streamId errorCode finalSize : Nat)
  | stopSending (streamId errorCode : Nat)
  | crypto (offset length : Nat) (data : Bytes)
  | newToken (token : Bytes)
  | stream (streamId offset length : Nat) (fin : Bool) (data : Bytes)
  | maxData (max : Nat)
  | maxStreamData (streamId max : Nat)
  | maxStreams (bidi : Bool) (max : Nat)
  | dataBlocked (max : Nat)
  | streamDataBlocked (streamId max : Nat)
  | streamsBlocked (bidi : Bool) (max : Nat)
  | newConnectionId (seqNum retirePriorTo : Nat) (connId : ConnectionId) (resetToken : ResetToken)
  | retireConnectionId (seqNum : Nat)
  | pathChallenge (data : Vector UInt8 8)
  | pathResponse (data : Vector UInt8 8)
  | connectionClose (errorCode frameType : Nat) (reason : Bytes)
  | applicationClose (errorCode : Nat) (reason : Bytes)
  | handshakeDone
  | pathAbandon (dcidSeqNum errorCode : Nat) (reason : Bytes)
  | pathStatus (dcidSeqNum seqNum status : Nat)
  deriving DecidableEq

namespace Frame

/-! ## Writing -/

/-- The ranges below the first, from the largest down. mirrors :441-448 -/
def ackRangePieces : Nat → List Range → List Piece
  | _, [] => []
  | smallestAck, r :: rs =>
    writeVarint (smallestAck - r.stop - 1) :: writeVarint ((r.stop - 1) - r.start) :: ackRangePieces r.start rs

def ecnPieces : Option EcnCounts → List Piece
  | some ecn => [writeVarint ecn.ect0Count, writeVarint ecn.ect1Count, writeVarint ecn.ecnCeCount]
  | none => []

/-- mirrors :430-454; `unwrap` panics on an empty set -/
def ackPieces (ackDelay : Nat) (ackRanges : AckRanges) (ecnCounts : Option EcnCounts) : List Piece :=
  match ackRanges.set.ranges.reverse with
  | [] => [none]
  | first :: rest =>
    writeVarint (first.stop - 1) :: writeVarint ackDelay :: writeVarint rest.length ::
      writeVarint ((first.stop - 1) - first.start) :: (ackRangePieces first.start rest ++ ecnPieces ecnCounts)

/-- mirrors :1129-1137 -/
def encodeCryptoHeader (offset length : Nat) : List Piece :=
  [writeVarint 0x06, writeVarint offset, writeVarintWithLen length 2]

/-- mirrors :1147-1166 -/
def encodeStreamHeader (streamId offset length : Nat) (fin : Bool) : List Piece :=
  [writeVarint (if fin then 0x0e ||| 0x01 else 0x0e), writeVarint streamId, writeVarint offset,
   writeVarintWithLen length 2]

/-- mirrors :403-615 -/
def pieces : Frame → List Piece
  | paddings len => List.replicate len (writeVarint 0x00)
  | ping _ => [writeVarint 0x01]
  | ack ackDelay ackRanges ecnCounts =>
    writeVarint (if ecnCounts.isNone then 0x02 else 0x03) :: ackPieces ackDelay ackRanges ecnCounts
  | resetStream streamId errorCode finalSize =>
    [writeVarint 0x04, writeVarint streamId, writeVarint errorCode, writeVarint finalSize]
  | stopSending streamId errorCode => [writeVarint 0x05, writeVarint streamId, writeVarint errorCode]
  | crypto offset length data => encodeCryptoHeader offset length ++ [write data]
  | newToken token => [writeVarint 0x07, writeVarint token.length, write token]
  | stream streamId offset length fin data => encodeStreamHeader streamId offset length fin ++ [write data]
  | maxData max => [writeVarint 0x10, writeVarint max]
  | maxStreamData streamId max => [writeVarint 0x11, writeVarint streamId, writeVarint max]
  | maxStreams bidi max => [writeVarint (if bidi then 0x12 else 0x13), writeVarint max]
  | dataBlocked max => [writeVarint 0x14, writeVarint max]
  | streamDataBlocked streamId max => [writeVarint 0x15, writeVarint streamId, writeVarint max]
  | streamsBlocked bidi max => [writeVarint (if bidi then 0x16 else 0x17), writeVarint max]
  | newConnectionId seqNum retirePriorTo connId resetToken =>
    [writeVarint 0x18, writeVarint seqNum, writeVarint retirePriorTo, writeU8 connId.data.length, write connId.data,
     write resetToken.toList]
  | retireConnectionId seqNum => [writeVarint 0x19, writeVarint seqNum]
  | pathChallenge data => [writeVarint 0x1a, write data.toList]
  | pathResponse data => [writeVarint 0x1b, write data.toList]
  | connectionClose errorCode frameType reason =>
    [writeVarint 0x1c, writeVarint errorCode, writeVarint frameType, writeVarint reason.length, write reason]
  | applicationClose errorCode reason =>
    [writeVarint 0x1d, writeVarint errorCode, writeVarint reason.length, write reason]
  | handshakeDone => [writeVarint 0x1e]
  | pathAbandon dcidSeqNum errorCode reason =>
    [writeVarint 0x15228c05, writeVarint dcidSeqNum, writeVarint errorCode, writeVarint reason.length, write reason]
  | pathStatus dcidSeqNum seqNum status =>
    [writeVarint 0x15228c06, writeVarint dcidSeqNum, writeVarint seqNum, writeVarint status]

/-- What is written into a buffer with this room. -/
def toBytes (f : Frame) (room : Nat) : Put := put room f.pieces

/-! ## Measuring -/

/-- mirrors :639-645 -/
def ackRangesLen : Nat → List Range → Nat
  | _, [] => 0
  | smallestAck, r :: rs =>
    encodeVarintLen (smallestAck - r.stop - 1) + encodeVarintLen ((r.stop - 1) - r.start) + ackRangesLen r.start rs

def ecnLen : Option EcnCounts → Nat
  | some ecn => encodeVarintLen ecn.ect0Count + encodeVarintLen ecn.ect1Count + encodeVarintLen ecn.ecnCeCount
  | none => 0

/-- An empty set panics. mirrors :623-651 -/
def ackLen (ackDelay : Nat) (ackRanges : AckRanges) (ecnCounts : Option EcnCounts) : Nat :=
  match ackRanges.set.ranges.reverse with
  | [] => 0
  | first :: rest =>
    1 + encodeVarintLen (first.stop - 1) + encodeVarintLen ackDelay + encodeVarintLen rest.length +
      encodeVarintLen ((first.stop - 1) - first.start) + ackRangesLen first.start rest + ecnLen ecnCounts

/-- mirrors :617-771 -/
def wireLen : Frame → Nat
  | paddings len => len
  | ping _ => 1
  | ack ackDelay ackRanges ecnCounts => ackLen ackDelay ackRanges ecnCounts
  | resetStream streamId errorCode finalSize =>
    1 + encodeVarintLen streamId + encodeVarintLen errorCode + encodeVarintLen finalSize
  | stopSending streamId errorCode => 1 + encodeVarintLen streamId + encodeVarintLen errorCode
  | crypto offset _ data => 1 + encodeVarintLen offset + 2 + data.length
  | newToken token => 1 + encodeVarintLen token.length + token.length
  | stream streamId offset _ _ data => 1 + encodeVarintLen streamId + encodeVarintLen offset + 2 + data.length
  | maxData max => 1 + encodeVarintLen max
  | maxStreamData streamId max => 1 + encodeVarintLen streamId + encodeVarintLen max
  | maxStreams _ max => 1 + encodeVarintLen max
  | dataBlocked max => 1 + encodeVarintLen max
  | streamDataBlocked streamId max => 1 + encodeVarintLen streamId + encodeVarintLen max
  | streamsBlocked _ max => 1 + encodeVarintLen max
  | newConnectionId seqNum retirePriorTo connId resetToken =>
    1 + encodeVarintLen seqNum + encodeVarintLen retirePriorTo + 1 + connId.data.length + resetToken.toList.length
  | retireConnectionId seqNum => 1 + encodeVarintLen seqNum
  | pathChallenge _ => 1 + 8
  | pathResponse _ => 1 + 8
  | connectionClose errorCode frameType reason =>
    1 + encodeVarintLen errorCode + encodeVarintLen frameType + encodeVarintLen reason.length + reason.length
  | applicationClose errorCode reason =>
    1 + encodeVarintLen errorCode + encodeVarintLen reason.length + reason.length
  | handshakeDone => 1
  | pathAbandon dcidSeqNum errorCode reason =>
    4 + encodeVarintLen dcidSeqNum + encodeVarintLen errorCode + encodeVarintLen reason.length + reason.length
  | pathStatus dcidSeqNum seqNum status =>
    4 + encodeVarintLen dcidSeqNum + encodeVarintLen seqNum + encodeVarintLen status

/-! ## Reading -/

/-- mirrors :191-198 -/
def readPaddings : Read Frame := ⟨fun b s =>
  .ok (paddings (1 + (s.takeWhile (· == 0)).length)) b (s.dropWhile (· == 0))⟩

/-- mirrors :1209-1226 -/
def readAckRanges : Nat → Nat → RangeSet → Read RangeSet
  | 0, _, set => pure set
  | rangeCount + 1, smallestAck, set => do
    let gap ← readVarint
    if smallestAck < 2 + gap then Act.throw .frameEncodingError
    else
      let largestAck := (smallestAck - gap) - 2
      let ackRangeLen ← readVarint
      if largestAck < ackRangeLen then Act.throw .frameEncodingError
      else
        let smallestAck := largestAck - ackRangeLen
        readAckRanges rangeCount smallestAck (set.insert ⟨smallestAck, largestAck + 1⟩)

/-- mirrors :1228-1242 -/
def readEcnCounts (frameType : Nat) : Read (Option EcnCounts) :=
  if frameType &&& 0x01 ≠ 0 then do
    let ect0Count ← readVarint
    let ect1Count ← readVarint
    let ecnCeCount ← readVarint
    pure (some { ect0Count, ect1Count, ecnCeCount })
  else pure none

/-- mirrors :1186-1252 -/
def parseAckFrame (frameType : Nat) : Read Frame := do
  let largestAck ← readVarint
  let ackDelay ← readVarint
  let rangeCount ← readVarint
  let ackRangeLen ← readVarint
  if largestAck < ackRangeLen then Act.throw .frameEncodingError
  else
    let smallestAck := largestAck - ackRangeLen
    let set ← readAckRanges rangeCount smallestAck (RangeSet.empty.insert ⟨smallestAck, largestAck + 1⟩)
    let ecnCounts ← readEcnCounts frameType
    pure (ack ackDelay { set, capacity := usizeMax } ecnCounts)

/-- Bytes of the buffer itself, as many as are left where there is no length. -/
def readLength (frameType : Nat) : Read Nat :=
  if frameType &&& 0x02 ≠ 0 then readVarint else ⟨fun b s => .ok s.length b s⟩

/-- mirrors :219-233 -/
def parseCrypto : Read Frame := do
  let offset ← readVarint
  let length ← readVarint
  let data ← read length
  pure (crypto offset length data)

/-- mirrors :239-271 -/
def parseStream (frameType : Nat) : Read Frame := do
  let streamId ← readVarint
  let offset ← if frameType &&& 0x04 ≠ 0 then readVarint else pure 0
  let length ← readLength frameType
  if offset + length ≥ MAX_STREAM_SIZE then Act.throw .frameEncodingError
  else
    let data ← read length
    pure (stream streamId offset length (frameType &&& 0x01 ≠ 0) data)

/-- mirrors :190-363 -/
def parseBody (frameType : Nat) : Read Frame :=
  match frameType with
  | 0x00 => readPaddings
  | 0x01 => pure (ping none)
  | 0x02 => parseAckFrame 0x02
  | 0x03 => parseAckFrame 0x03
  | 0x04 => do pure (resetStream (← readVarint) (← readVarint) (← readVarint))
  | 0x05 => do pure (stopSending (← readVarint) (← readVarint))
  | 0x06 => parseCrypto
  | 0x07 => do pure (newToken (← readWithVarintLength))
  | 0x08 => parseStream 0x08
  | 0x09 => parseStream 0x09
  | 0x0a => parseStream 0x0a
  | 0x0b => parseStream 0x0b
  | 0x0c => parseStream 0x0c
  | 0x0d => parseStream 0x0d
  | 0x0e => parseStream 0x0e
  | 0x0f => parseStream 0x0f
  | 0x10 => do pure (maxData (← readVarint))
  | 0x11 => do pure (maxStreamData (← readVarint) (← readVarint))
  | 0x12 => do pure (maxStreams true (← readVarint))
  | 0x13 => do pure (maxStreams false (← readVarint))
  | 0x14 => do pure (dataBlocked (← readVarint))
  | 0x15 => do pure (streamDataBlocked (← readVarint) (← readVarint))
  | 0x16 => do pure (streamsBlocked true (← readVarint))
  | 0x17 => do pure (streamsBlocked false (← readVarint))
  | 0x18 => do
    let seqNum ← readVarint
    let retirePriorTo ← readVarint
    let cid ← readWithU8Length
    pure (newConnectionId seqNum retirePriorTo (.new cid) (← readArray 16))
  | 0x19 => do pure (retireConnectionId (← readVarint))
  | 0x1a => do pure (pathChallenge (← readArray 8))
  | 0x1b => do pure (pathResponse (← readArray 8))
  | 0x1c => do pure (connectionClose (← readVarint) (← readVarint) (← readWithVarintLength))
  | 0x1d => do pure (applicationClose (← readVarint) (← readWithVarintLength))
  | 0x1e => pure handshakeDone
  | 0x15228c05 => do pure (pathAbandon (← readVarint) (← readVarint) (← readWithVarintLength))
  | 0x15228c06 => do pure (pathStatus (← readVarint) (← readVarint) (← readVarint))
  | _ => Act.throw .frameEncodingError

/-- mirrors :372-400 -/
def validateFrame : PacketType → Frame → Bool
  | _, paddings _ => true
  | _, ping _ => true
  | .zeroRTT, ack _ _ _ => false
  | .zeroRTT, crypto _ _ _ => false
  | .zeroRTT, handshakeDone => false
  | .zeroRTT, newToken _ => false
  | .zeroRTT, pathResponse _ => false
  | .zeroRTT, retireConnectionId _ => false
  | .zeroRTT, connectionClose _ _ _ => false
  | _, ack _ _ _ => true
  | _, crypto _ _ _ => true
  | _, connectionClose _ _ _ => true
  | .oneRTT, _ => true
  | .zeroRTT, _ => true
  | _, _ => false

def parseFrame (pkt : PacketType) : Read Frame := do
  let frameType ← readVarint
  let frame ← parseBody frameType
  if validateFrame pkt frame then pure frame else Act.throw .invalidPacket

/-- The frame and the number of bytes it takes. mirrors :185-370 -/
def fromBytes (pkt : PacketType) : Read (Frame × Nat) := ⟨fun b s =>
  match (parseFrame pkt).run b s with
  | .ok frame b rest => .ok (frame, s.length - rest.length) b rest
  | .err e b rest => .err e b rest
  | .panic => .panic⟩

/-! ## Frames of a 1-RTT packet -/

/-- A frame that may be sent: numbers are varints, lengths are those of the data. -/
def Legal : Frame → Prop
  | paddings len => 1 ≤ len
  | ping pmtuProbe => pmtuProbe = none
  | ack ackDelay ackRanges ecnCounts => ackDelay < 2 ^ 62 ∧ ackRanges.set.ranges ≠ [] ∧
      (∀ x ∈ ackRanges.set, x < 2 ^ 62) ∧
      ∀ ecn ∈ ecnCounts, ecn.ect0Count < 2 ^ 62 ∧ ecn.ect1Count < 2 ^ 62 ∧ ecn.ecnCeCount < 2 ^ 62
  | resetStream streamId errorCode finalSize => streamId < 2 ^ 62 ∧ errorCode < 2 ^ 62 ∧ finalSize < 2 ^ 62
  | stopSending streamId errorCode => streamId < 2 ^ 62 ∧ errorCode < 2 ^ 62
  | crypto offset length data => length = data.length ∧ length ≤ 16383 ∧ offset + length < 2 ^ 62
  | newToken token => token.length < 2 ^ 62
  | stream streamId offset length _ data =>
    streamId < 2 ^ 62 ∧ length = data.length ∧ length ≤ 16383 ∧ offset + length < 2 ^ 62
  | maxData max => max < 2 ^ 62
  | maxStreamData streamId max => streamId < 2 ^ 62 ∧ max < 2 ^ 62
  | maxStreams _ max => max < 2 ^ 62
  | dataBlocked max => max < 2 ^ 62
  | streamDataBlocked streamId max => streamId < 2 ^ 62 ∧ max < 2 ^ 62
  | streamsBlocked _ max => max < 2 ^ 62
  | newConnectionId seqNum retirePriorTo connId _ =>
    seqNum < 2 ^ 62 ∧ retirePriorTo ≤ seqNum ∧ 1 ≤ connId.data.length
  | retireConnectionId seqNum => seqNum < 2 ^ 62
  | pathChallenge _ => True
  | pathResponse _ => True
  | connectionClose errorCode frameType reason =>
    errorCode < 2 ^ 62 ∧ frameType < 2 ^ 62 ∧ reason.length < 2 ^ 62
  | applicationClose errorCode reason => errorCode < 2 ^ 62 ∧ reason.length < 2 ^ 62
  | handshakeDone => True
  | pathAbandon dcidSeqNum errorCode reason =>
    dcidSeqNum < 2 ^ 62 ∧ errorCode < 2 ^ 62 ∧ reason.length < 2 ^ 62
  | pathStatus dcidSeqNum seqNum status => dcidSeqNum < 2 ^ 62 ∧ seqNum < 2 ^ 62 ∧ status < 2 ^ 62

/-- The frame as it is read: the capacity of a set of ranges is not on the wire. -/
def received : Frame → Frame
  | ack ackDelay ackRanges ecnCounts => ack ackDelay { ackRanges with capacity := usizeMax } ecnCounts
  | f => f

/-- What is written takes `wire_len` bytes, and from them, whatever follows, the frame is read. -/
abbrev Coded (f : Frame) : Prop := Codes f.pieces f.wireLen (readVarint >>= parseBody) f.received

/-! ## ACK frames -/

/-- The ranges lie below `smallestAck`, from the largest down, with gaps between them. -/
def Descends : Nat → List Range → Prop
  | _, [] => True
  | smallestAck, r :: rs => r.start < r.stop ∧ r.stop < smallestAck ∧ Descends r.start rs

variable {rs : List Range} {smallestAck : Nat}

theorem descends_of_pairwise (hlt : ∀ r ∈ rs, r.start < r.stop) (hbelow : ∀ r ∈ rs, r.stop < smallestAck)
    (h : rs.Pairwise fun a b => b.stop < a.start) : Descends smallestAck rs := by
  induction rs generalizing smallestAck with
  | nil => trivial
  | cons r rs ih =>
    obtain ⟨hhead, htail⟩ := List.pairwise_cons.mp h
    refine ⟨hlt r (by simp), hbelow r (by simp), ih (fun r' hr' => hlt r' (by simp [hr'])) hhead htail⟩

/-- Gaps and lengths give the ranges back. -/
theorem codes_ackRanges (set : RangeSet) (hfit : smallestAck < 2 ^ 62) (h : Descends smallestAck rs) :
    Codes (ackRangePieces smallestAck rs) (ackRangesLen smallestAck rs) (readAckRanges rs.length smallestAck set)
      (rs.foldl RangeSet.insert set) := by
  induction rs generalizing smallestAck set with
  | nil => exact Codes.pure set
  | cons r rs ih =>
    obtain ⟨hlt, hbelow, hrest⟩ := h
    have hstop : smallestAck - (smallestAck - r.stop - 1) - 2 = r.stop - 1 := by omega
    have hstart : (r.stop - 1) - ((r.stop - 1) - r.start) = r.start := by omega
    have hlast : r.stop - 1 + 1 = r.stop := by omega
    have hfits : r.start < 2 ^ 62 := by omega
    have htail := ih (set.insert r) hfits hrest
    have hlen : ackRangesLen smallestAck (r :: rs) = encodeVarintLen (smallestAck - r.stop - 1) +
        (encodeVarintLen ((r.stop - 1) - r.start) + ackRangesLen r.start rs) := by
      simp only [ackRangesLen]
      omega
    rw [hlen]
    refine (codes_varint (by omega)).cons ?_
    rw [if_neg (by omega), hstop]
    refine (codes_varint (by omega)).cons ?_
    rw [if_neg (by omega), hstart, hlast]
    exact htail

theorem length_le_of_descends (h : Descends smallestAck rs) : rs.length ≤ smallestAck := by
  induction rs generalizing smallestAck with
  | nil => simp
  | cons r rs ih =>
    obtain ⟨hlt, hbelow, hrest⟩ := h
    have := ih hrest
    simp only [List.length_cons]
    omega

theorem mem_foldl_insert {set : RangeSet} {x : Nat} : x ∈ rs.foldl RangeSet.insert set ↔ x ∈ set ∨ ∃ r ∈ rs, x ∈ r := by
  induction rs generalizing set with
  | nil => simp
  | cons r rs ih => simp [ih, or_assoc]

variable {s : RangeSet} {first : Range} {rest : List Range} (h : s.ranges.reverse = first :: rest)
include h

/-- The set of the ranges of a set, inserted from the largest down. -/
theorem foldl_insert_ranges : rest.foldl RangeSet.insert (RangeSet.empty.insert first) = s := by
  apply RangeSet.ext_of_mem
  intro x
  have hmem : ∀ r, r ∈ s.ranges ↔ r = first ∨ r ∈ rest := by
    intro r
    rw [← List.mem_reverse, h, List.mem_cons]
  have hs : x ∈ s ↔ ∃ r ∈ s.ranges, x ∈ r := RangeSet.mem_iff_ranges
  rw [mem_foldl_insert, hs]
  simp [hmem]

/-- The first range and those below it. -/
theorem descends_ranges : first.start < first.stop ∧ Descends first.start rest ∧ (first.stop - 1) ∈ s := by
  have hmem : ∀ r ∈ first :: rest, r ∈ s.ranges := by
    intro r hr
    rwa [← List.mem_reverse, h]
  have hgaps : (first :: rest).Pairwise fun a b => b.stop < a.start := by
    rw [← h, List.pairwise_reverse]
    exact s.pairwise_ranges
  have hfirst := RangeSet.start_lt_stop (hmem first (by simp))
  obtain ⟨hhead, htail⟩ := List.pairwise_cons.mp hgaps
  refine ⟨hfirst, ?_, ?_⟩
  · exact descends_of_pairwise (fun r hr => RangeSet.start_lt_stop (hmem r (by simp [hr]))) hhead htail
  refine RangeSet.mem_iff_ranges.mpr ⟨first, hmem first (by simp), ?_⟩
  rw [Range.mem_def]
  omega

omit h

theorem codes_ecnCounts {ecnCounts : Option EcnCounts}
    (h : ∀ ecn ∈ ecnCounts, ecn.ect0Count < 2 ^ 62 ∧ ecn.ect1Count < 2 ^ 62 ∧ ecn.ecnCeCount < 2 ^ 62) :
    Codes (ecnPieces ecnCounts) (ecnLen ecnCounts) (readEcnCounts (if ecnCounts.isNone then 0x02 else 0x03))
      ecnCounts := by
  cases ecnCounts with
  | none => exact Codes.pure none
  | some ecn =>
    obtain ⟨hect0, hect1, hce⟩ := h ecn rfl
    have hlen : ecnLen (some ecn) = encodeVarintLen ecn.ect0Count +
        (encodeVarintLen ecn.ect1Count + encodeVarintLen ecn.ecnCeCount) := by
      simp only [ecnLen]
      omega
    rw [hlen, Option.isNone_some, readEcnCounts, if_pos (by decide)]
    refine (codes_varint hect0).cons ?_
    refine (codes_varint hect1).cons ?_
    exact (codes_varint hce).bind_pure

theorem codes_ack {ackDelay : Nat} {ackRanges : AckRanges} {ecnCounts : Option EcnCounts}
    (h : (ack ackDelay ackRanges ecnCounts).Legal) : (ack ackDelay ackRanges ecnCounts).Coded := by
  obtain ⟨hdelay, hne, hfits, hecn⟩ := h
  obtain ⟨first, rest, hranges⟩ := List.exists_cons_of_ne_nil (mt List.reverse_eq_nil_iff.mp hne)
  obtain ⟨hfirst, hdesc, hmem⟩ := descends_ranges hranges
  have hlast := hfits _ hmem
  have hcount := length_le_of_descends hdesc
  have hbody : Codes (ackPieces ackDelay ackRanges ecnCounts) (encodeVarintLen (first.stop - 1) +
      (encodeVarintLen ackDelay + (encodeVarintLen rest.length + (encodeVarintLen ((first.stop - 1) - first.start) +
        (ackRangesLen first.start rest + ecnLen ecnCounts)))))
      (parseAckFrame (if ecnCounts.isNone then 0x02 else 0x03)) (ack ackDelay ackRanges ecnCounts).received := by
    have hrest := codes_ackRanges (RangeSet.empty.insert first) (by omega) hdesc
    have hstart : (first.stop - 1) - ((first.stop - 1) - first.start) = first.start := by omega
    have hstop : first.stop - 1 + 1 = first.stop := by omega
    rw [foldl_insert_ranges hranges] at hrest
    rw [ackPieces, hranges]
    refine (codes_varint (by omega)).cons ?_
    refine (codes_varint hdelay).cons ?_
    refine (codes_varint (by omega)).cons ?_
    refine (codes_varint (by omega)).cons ?_
    rw [if_neg (by omega), hstart, hstop]
    exact hrest.bind (codes_ecnCounts hecn).bind_pure
  have hlen : 1 + (encodeVarintLen (first.stop - 1) + (encodeVarintLen ackDelay + (encodeVarintLen rest.length +
      (encodeVarintLen ((first.stop - 1) - first.start) + (ackRangesLen first.start rest + ecnLen ecnCounts))))) =
      (ack ackDelay ackRanges ecnCounts).wireLen := by
    simp only [wireLen, ackLen, hranges]
    omega
  rw [Coded, ← hlen]
  cases ecnCounts with
  | none => exact Codes.cons (codes_varint (n := 0x02) (by decide)) hbody
  | some ecn => exact Codes.cons (codes_varint (n := 0x03) (by decide)) hbody

/-! ## The other frames -/

variable {f : Frame} {rest : Bytes}

/-- The type in front of a frame. -/
theorem codes_type {t k n m : Nat} {ps : List Piece} (ht : t < 2 ^ 62) (hk : encodeVarintLen t = k)
    (hbody : Codes ps n (parseBody t) f) (hm : m = k + n := by simp only [wireLen]; omega) :
    Codes (writeVarint t :: ps) m (readVarint >>= parseBody) f := by
  subst hm hk
  exact (codes_varint ht).cons hbody

theorem codes_crypto {offset length : Nat} {data : Bytes} (h : (crypto offset length data).Legal) :
    (crypto offset length data).Coded := by
  obtain ⟨rfl, hlen, hfits⟩ := h
  refine codes_type (k := 1) (n := encodeVarintLen offset + (2 + data.length)) (by decide) rfl ?_
  refine (codes_varint (n := offset) (by omega)).cons ?_
  refine (codes_varintWithLen_two (n := data.length) (by omega)).cons ?_
  exact (codes_read data).bind_pure

theorem codes_stream {streamId offset length : Nat} {fin : Bool} {data : Bytes}
    (h : (stream streamId offset length fin data).Legal) : (stream streamId offset length fin data).Coded := by
  obtain ⟨hid, rfl, hlen, hfits⟩ := h
  have hoff : ¬ offset + data.length ≥ MAX_STREAM_SIZE := by
    simp only [MAX_STREAM_SIZE]
    omega
  have hlen : (stream streamId offset data.length fin data).wireLen =
      1 + (encodeVarintLen streamId + (encodeVarintLen offset + (2 + data.length))) := by
    simp only [wireLen]
    omega
  -- the type is 0x0e, or 0x0f with FIN
  cases fin
  all_goals
    refine codes_type (by decide) rfl ?_ hlen
    refine (codes_varint hid).cons ?_
    refine (codes_varint (n := offset) (by omega)).cons ?_
    refine (codes_varintWithLen_two (by omega)).cons ?_
    rw [if_neg hoff]
    exact (codes_read data).bind_pure

theorem codes_newConnectionId {seqNum retirePriorTo : Nat} {connId : ConnectionId} {resetToken : ResetToken}
    (h : (newConnectionId seqNum retirePriorTo connId resetToken).Legal) :
    (newConnectionId seqNum retirePriorTo connId resetToken).Coded := by
  obtain ⟨hseq, hretire, -⟩ := h
  have hcid := connId.fits
  simp only [MAX_CID_LEN] at hcid
  have hnew : ConnectionId.new connId.data = connId := ConnectionId.ext (List.take_of_length_le connId.fits)
  have hlen : (newConnectionId seqNum retirePriorTo connId resetToken).wireLen =
      1 + (encodeVarintLen seqNum + (encodeVarintLen retirePriorTo + ((1 + connId.data.length) + 16))) := by
    simp only [wireLen, Vector.length_toList]
    omega
  have hconn : connId.data.length < 256 := by omega
  have hfits : retirePriorTo < 2 ^ 62 := by omega
  refine codes_type (by decide) rfl ?_ hlen
  refine (codes_varint hseq).cons ?_
  refine (codes_varint hfits).cons ?_
  refine Codes.bind (codes_withU8Length hconn) ?_
  rw [hnew]
  exact (codes_readArray resetToken).bind_pure

/-- Every frame but a run of PADDING is read back, whatever follows. -/
theorem codes_frame (h : f.Legal) (hpad : ∀ len, f ≠ paddings len) : f.Coded := by
  cases f with
  | paddings len => exact absurd rfl (hpad len)
  | ping pmtuProbe =>
    cases h
    exact codes_type (k := 1) (by decide) rfl (Codes.pure _) rfl
  | ack ackDelay ackRanges ecnCounts => exact codes_ack h
  | resetStream streamId errorCode finalSize =>
    obtain ⟨hid, herror, hsize⟩ := h
    exact codes_type (k := 1) (by decide) rfl
      ((codes_varint hid).cons ((codes_varint herror).cons (codes_varint hsize).bind_pure))
  | stopSending streamId errorCode | maxStreamData streamId max | streamDataBlocked streamId max =>
    exact codes_type (k := 1) (by decide) rfl ((codes_varint h.1).cons (codes_varint h.2).bind_pure)
  | crypto offset length data => exact codes_crypto h
  | newToken token =>
    exact codes_type (k := 1) (by decide) rfl (codes_withVarintLength h).bind_pure
  | stream streamId offset length fin data => exact codes_stream h
  | maxData max | dataBlocked max | retireConnectionId seqNum =>
    exact codes_type (k := 1) (by decide) rfl (codes_varint h).bind_pure rfl
  | maxStreams bidi max =>
    cases bidi with
    | false => exact codes_type (t := 0x13) (k := 1) (by decide) rfl (codes_varint h).bind_pure rfl
    | true => exact codes_type (t := 0x12) (k := 1) (by decide) rfl (codes_varint h).bind_pure rfl
  | streamsBlocked bidi max =>
    cases bidi with
    | false => exact codes_type (t := 0x17) (k := 1) (by decide) rfl (codes_varint h).bind_pure rfl
    | true => exact codes_type (t := 0x16) (k := 1) (by decide) rfl (codes_varint h).bind_pure rfl
  | newConnectionId seqNum retirePriorTo connId resetToken => exact codes_newConnectionId h
  | pathChallenge data | pathResponse data =>
    exact codes_type (k := 1) (by decide) rfl (codes_readArray data).bind_pure rfl
  | connectionClose errorCode frameType reason =>
    obtain ⟨herror, htype, hreason⟩ := h
    exact codes_type (k := 1) (by decide) rfl
      ((codes_varint herror).cons ((codes_varint htype).cons (codes_withVarintLength hreason).bind_pure))
  | applicationClose errorCode reason =>
    exact codes_type (k := 1) (by decide) rfl ((codes_varint h.1).cons (codes_withVarintLength h.2).bind_pure)
  | handshakeDone => exact codes_type (k := 1) (by decide) rfl (Codes.pure _) rfl
  | pathAbandon dcidSeqNum errorCode reason =>
    obtain ⟨hseq, herror, hreason⟩ := h
    exact codes_type (k := 4) (by decide) rfl
      ((codes_varint hseq).cons ((codes_varint herror).cons (codes_withVarintLength hreason).bind_pure))
  | pathStatus dcidSeqNum seqNum status =>
    obtain ⟨hdcid, hseq, hstatus⟩ := h
    exact codes_type (k := 4) (by decide) rfl
      ((codes_varint hdcid).cons ((codes_varint hseq).cons (codes_varint hstatus).bind_pure))

/-! ## Padding -/

theorem join_paddings (len : Nat) : join (paddings len).pieces = some (List.replicate len 0) := by
  have hzero : writeVarint 0x00 = some [0] := by decide
  simp only [pieces, hzero]
  induction len with
  | zero => rfl
  | succ len ih => simp [List.replicate_succ, join, ih]

/-- The zeros in front of the next frame. -/
theorem span_zeros (h : rest.head? ≠ some 0) (n : Nat) :
    (List.replicate n 0 ++ rest).takeWhile (· == 0) = List.replicate n 0 ∧
      (List.replicate n 0 ++ rest).dropWhile (· == 0) = rest := by
  induction n with
  | zero =>
    cases rest with
    | nil => simp
    | cons b rest =>
      have hb : b ≠ 0 := by simpa using h
      simp [hb]
  | succ n ih => simp [List.replicate_succ, ih]

theorem paddings_spec {len : Nat} (hlen : 1 ≤ len) (hrest : rest.head? ≠ some 0) :
    (readVarint >>= parseBody).run () (List.replicate len 0 ++ rest) = .ok (paddings len) () rest := by
  obtain ⟨n, rfl⟩ : ∃ n, len = n + 1 := ⟨len - 1, by omega⟩
  have hfirst : readVarint.run () (List.replicate (n + 1) 0 ++ rest) = .ok 0 () (List.replicate n 0 ++ rest) := by
    obtain ⟨bytes, hjoin, -, hreads⟩ := codes_varint (n := 0) (by decide)
    have hbytes : bytes = [0] := Option.some.inj hjoin.symm
    rw [hbytes] at hreads
    exact hreads _
  obtain ⟨htake, hdrop⟩ := span_zeros hrest n
  rw [bind_ok hfirst]
  simp only [parseBody, readPaddings, htake, hdrop, List.length_replicate, Nat.add_comm]

/-! ## All frames -/

theorem validateFrame_oneRTT (f : Frame) : validateFrame .oneRTT f = true := by
  cases f <;> rfl

theorem fromBytes_of_body {bytes : Bytes} (h : (readVarint >>= parseBody).run () (bytes ++ rest) = .ok f () rest) :
    (fromBytes .oneRTT).run () (bytes ++ rest) = .ok (f, bytes.length) () rest := by
  have hparse : (parseFrame .oneRTT).run () (bytes ++ rest) = .ok f () rest := by
    have hassoc : parseFrame .oneRTT = (readVarint >>= parseBody) >>= fun frame =>
        if validateFrame .oneRTT frame then pure frame else Act.throw .invalidPacket := by
      unfold parseFrame
      simp only [Bind.bind, Act.mk.injEq]
      funext b s
      cases readVarint.run b s <;> rfl
    rw [hassoc, bind_ok h, if_pos (validateFrame_oneRTT f)]
    rfl
  simp only [fromBytes, hparse, List.length_append, Nat.add_sub_cancel]

theorem received_eq_iff (f : Frame) : f.received = f ↔
    ∀ ackDelay ackRanges ecnCounts, f = ack ackDelay ackRanges ecnCounts → ackRanges.capacity = usizeMax := by
  cases f with
  | ack ackDelay ackRanges ecnCounts =>
    obtain ⟨set, capacity⟩ := ackRanges
    simp [received, eq_comm]
  | _ => simp [received]

/-- What `to_bytes` writes takes `wire_len` bytes, and `from_bytes` reads the frame and that length from it, whatever
follows. The frame is the same one, but for the capacity of a set of ranges. -/
theorem frame_round_trip (f : Frame) (hf : f.Legal) (rest : Bytes)
    (hrest : ∀ len, f = paddings len → rest.head? ≠ some 0) :
    ∃ bytes, bytes.length = f.wireLen ∧ (∀ room, f.toBytes room = if room < f.wireLen then .short else .ok bytes) ∧
      (fromBytes .oneRTT).run () (bytes ++ rest) = .ok (f.received, f.wireLen) () rest ∧
      (f.received = f ↔ ∀ ackDelay ackRanges ecnCounts, f = ack ackDelay ackRanges ecnCounts →
        ackRanges.capacity = usizeMax) := by
  have hspec : ∃ bytes, join f.pieces = some bytes ∧ bytes.length = f.wireLen ∧
      (readVarint >>= parseBody).run () (bytes ++ rest) = .ok f.received () rest := by
    by_cases hpad : ∃ len, f = paddings len
    · obtain ⟨len, rfl⟩ := hpad
      exact ⟨_, join_paddings len, by simp [wireLen], paddings_spec hf (hrest len rfl)⟩
    obtain ⟨bytes, hjoin, hlen, hreads⟩ := codes_frame hf fun len hlen => hpad ⟨len, hlen⟩
    exact ⟨bytes, hjoin, hlen, hreads rest⟩
  obtain ⟨bytes, hjoin, hlen, hbody⟩ := hspec
  refine ⟨bytes, hlen, fun room => ?_, ?_, received_eq_iff f⟩
  · rw [← hlen]
    exact put_of_join hjoin room
  rw [← hlen]
  exact fromBytes_of_body hbody

/-- An ACK of packets 3, 4 and 9 with ECN counts, in front of a PING. -/
theorem frame_round_trip_ack : ∃ bytes, bytes.length = 10 ∧ (fromBytes .oneRTT).run () (bytes ++ [1]) =
      .ok (ack 5 ⟨(RangeSet.empty.insert ⟨3, 5⟩).insert ⟨9, 10⟩, usizeMax⟩ (some ⟨1, 2, 3⟩), 10) () [1] := by
  have hlegal : (ack 5 ⟨(RangeSet.empty.insert ⟨3, 5⟩).insert ⟨9, 10⟩, usizeMax⟩ (some ⟨1, 2, 3⟩)).Legal := by
    refine ⟨by decide, by decide +kernel, ?_, by simp⟩
    intro x hx
    simp [Range.mem_def] at hx
    omega
  obtain ⟨bytes, hlen, -, hread, -⟩ := frame_round_trip _ hlegal [1] (by simp)
  exact ⟨bytes, hlen, hread⟩

/-- The set of an ACK that a connection sends has a capacity of 68; the one that is read has the default. -/
theorem capacity_not_sent : (ack 0 ⟨RangeSet.empty.insert ⟨0, 1⟩, 68⟩ none).Legal ∧
    (ack 0 ⟨RangeSet.empty.insert ⟨0, 1⟩, 68⟩ none).toBytes 5 = .ok [2, 0, 0, 0, 0] ∧
    (fromBytes .oneRTT).run () [2, 0, 0, 0, 0] = .ok (ack 0 ⟨RangeSet.empty.insert ⟨0, 1⟩, usizeMax⟩ none, 5) () [] ∧
    ack 0 ⟨RangeSet.empty.insert ⟨0, 1⟩, usizeMax⟩ none ≠ ack 0 ⟨RangeSet.empty.insert ⟨0, 1⟩, 68⟩ none := by
  refine ⟨⟨by decide, by decide +kernel, ?_, by simp⟩, by decide +kernel, by decide +kernel, by simp [usizeMax]⟩
  intro x hx
  simp [Range.mem_def] at hx
  omega

end Frame

end MoqQuic.L3.Tquic.Wire
