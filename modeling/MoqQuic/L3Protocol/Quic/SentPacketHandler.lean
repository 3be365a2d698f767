import MoqQuic.L2Machine.Ackhandler.Space
import MoqQuic.L2Machine.Congestion.SendAlgorithm

/-!
# `sentPacketHandler`

Model of `internal/ackhandler/sent_packet_handler.go`, for every congestion
controller (`SendAlgorithm C`) and every ECN handler (`EcnHandler E`). Each
method is a function on the handler's state; a panic, also the one of a nil
dereference of a dropped packet number space, is `none`. Logging, qlog events
and connection statistics are left out. The calls to the frames' handlers and to
`ignorePacketsBelow` are recorded in `callbacks`.

A packet that leaves a history is never put back, so packets are values: what
the code writes into a packet after its removal is read nowhere.

Line numbers without a file are those of `sent_packet_handler.go`.
-/
namespace MoqQuic.L3.Quic

open L2 L2.Ackhandler L2.Congestion

/-- mirrors protocol.go:40-46 -/
inductive ECN
  | unsupported
  | non
  | ect1
  | ect0
  | ce
  deriving DecidableEq, Repr

/-- mirrors ecn.go:41-46 -/
structure EcnHandler (E : Type) where
  sentPacket : E → (pn : Int) → ECN → Option E
  mode : E → ECN × E
  handleNewlyAcked : E → List (Int × Packet) → (ect0 ect1 ecnce : Nat) → Bool × E
  lostPacket : E → (pn : Int) → E

/-- mirrors send_mode.go:8-25 -/
inductive SendMode
  | none
  | ack
  | ptoInitial
  | ptoHandshake
  | ptoAppData
  | pacingLimited
  | any
  deriving DecidableEq, Repr

inductive TimerType
  | ack
  | pto
  | pathProbe
  deriving DecidableEq, Repr

/-- The default is the alarm that is not set. mirrors :61-65 -/
structure AlarmTimer where
  time : Int := 0
  timerType : Option TimerType := .none
  encryptionLevel : Option EncryptionLevel := .none
  deriving DecidableEq, Repr

inductive Callback
  | onAcked (handler frame : Nat)
  | onLost (handler frame : Nat)
  | ignorePacketsBelow (pn : Int)
  deriving DecidableEq, Repr

inductive AckError
  | protocolViolation (message : String)
  | bug (message : String)
  deriving DecidableEq, Repr

abbrev packetThreshold : Int := 3
abbrev amplificationFactor : Nat := 3
abbrev minRTTAfterRetry : Int := 5 * millisecond
abbrev maxPTODuration : Int := 60 * second
abbrev pathProbePacketLossTimeout : Int := second

/-- mirrors :67-114 -/
structure Handler (C E : Type) where
  initialPackets : Option PacketNumberSpace
  handshakePackets : Option PacketNumberSpace
  appDataPackets : PacketNumberSpace
  lostPackets : LostPacketTracker := []
  largestAckedTime : Int := 0
  peerCompletedAddressValidation : Bool
  bytesReceived : Nat := 0
  bytesSent : Nat := 0
  peerAddressValidated : Bool
  handshakeConfirmed : Bool := false
  /-- whether the callback is set -/
  ignorePacketsBelow : Bool
  ackedPackets : List (Int × Packet) := []
  bytesInFlight : Nat := 0
  congestion : C
  rttStats : RTTStats := {}
  ptoCount : Nat := 0
  ptoMode : SendMode := .none
  numProbesToSend : Nat := 0
  alarm : AlarmTimer := {}
  ecnTracker : Option E
  perspective : Perspective
  callbacks : List Callback := []

variable {C E : Type}

/-- mirrors :120-164 -/
def newSentPacketHandler (initialPN : Int) (rttStats : RTTStats) (clientAddressValidated : Bool)
    (ecnTracker : Option E) (ignorePacketsBelow : Bool) (pers : Perspective) (congestion : C)
    (draw : Nat) : Handler C E :=
  { peerCompletedAddressValidation := pers = .server
    peerAddressValidated := pers = .client || clientAddressValidated
    initialPackets := some (newPacketNumberSpace initialPN false draw)
    handshakePackets := some (newPacketNumberSpace 0 false draw)
    appDataPackets := newPacketNumberSpace 0 true draw
    rttStats, congestion, ecnTracker, ignorePacketsBelow, perspective := pers }

namespace Handler

section

variable (h : Handler C E)

/-- mirrors :368-379 -/
def getPacketNumberSpace : EncryptionLevel → Option PacketNumberSpace
  | .initial => h.initialPackets
  | .handshake => h.handshakePackets
  | .zeroRTT | .oneRTT => some h.appDataPackets

/-- Write through the pointer that `getPacketNumberSpace` returned. -/
def setSpace : EncryptionLevel → PacketNumberSpace → Handler C E
  | .initial, sp => { h with initialPackets := some sp }
  | .handshake, sp => { h with handshakePackets := some sp }
  | .zeroRTT, sp | .oneRTT, sp => { h with appDataPackets := sp }

/-! ## Timers -/

/-- mirrors :1037-1042 -/
def isAmplificationLimited : Bool :=
  if h.peerAddressValidated then false else h.bytesSent ≥ amplificationFactor * h.bytesReceived

def spaceOutstanding (sp : Option PacketNumberSpace) : Bool :=
  (sp.map fun sp => sp.history.hasOutstandingPackets).getD false

/-- mirrors :689-697 -/
def hasOutstandingCryptoPackets : Bool :=
  spaceOutstanding h.initialPackets || spaceOutstanding h.handshakePackets

/-- mirrors :621-638 -/
def getLossTimeAndSpace : Int × EncryptionLevel :=
  let first : Int × EncryptionLevel := ((h.initialPackets.map (·.lossTime)).getD 0, .initial)
  let second := match h.handshakePackets with
    | some sp =>
      if first.1 = 0 ∨ (sp.lossTime ≠ 0 ∧ sp.lossTime < first.1) then (sp.lossTime, .handshake)
      else first
    | none => first
  let app := h.appDataPackets.lossTime
  if second.1 = 0 ∨ (app ≠ 0 ∧ app < second.1) then (app, .oneRTT) else second

/-- The shift is one of `int64`s. mirrors :640-646 -/
def getScaledPTO (includeMaxAckDelay : Bool) : Int :=
  let pto := Int.bmod (h.rttStats.pto includeMaxAckDelay * 2 ^ h.ptoCount) (2 ^ 64)
  if pto > maxPTODuration ∨ pto ≤ 0 then maxPTODuration else pto

/-- Take over the timer of a space if it has outstanding packets and fires earlier.
mirrors :664-686 -/
def earlierPTO (sp : PacketNumberSpace) (enc : EncryptionLevel) (scaled : Int)
    (pto : Int × Option EncryptionLevel) : Int × Option EncryptionLevel :=
  if sp.history.hasOutstandingPackets ∧ sp.lastAckElicitingPacketTime ≠ 0 then
    let t := sp.lastAckElicitingPacketTime + scaled
    if pto.1 = 0 ∨ (t ≠ 0 ∧ t < pto.1) then (t, some enc) else pto
  else pto

/-- mirrors :649-687 -/
def getPTOTimeAndSpace (now : Int) : Int × Option EncryptionLevel :=
  if !h.handshakeConfirmed && !h.hasOutstandingCryptoPackets then
    if h.peerCompletedAddressValidation then (0, none)
    else (now + h.getScaledPTO false, if h.initialPackets.isSome then some .initial else some .handshake)
  else
    let pto : Int × Option EncryptionLevel := match h.initialPackets with
      | some sp => earlierPTO sp .initial (h.getScaledPTO false) (0, none)
      | none => (0, none)
    let pto := match h.handshakePackets with
      | some sp => earlierPTO sp .handshake (h.getScaledPTO false) pto
      | none => pto
    if h.handshakeConfirmed then earlierPTO h.appDataPackets .oneRTT (h.getScaledPTO true) pto else pto

/-- mirrors :724-768 -/
def lossDetectionTime (now : Int) : AlarmTimer :=
  let app := h.appDataPackets.history
  if h.peerCompletedAddressValidation && !h.hasOutstandingCryptoPackets &&
      !app.hasOutstandingPackets && !app.hasOutstandingPathProbes then {}
  else if h.isAmplificationLimited then {}
  else
    let pathProbeLossTime := match app.pathProbePackets with
      | [] => 0
      | (_, p) :: _ => p.sendTime + pathProbePacketLossTimeout
    let (lossTime, encLevel) := h.getLossTimeAndSpace
    if lossTime ≠ 0 ∧ (pathProbeLossTime = 0 ∨ lossTime < pathProbeLossTime) then
      { time := lossTime, timerType := some .ack, encryptionLevel := some encLevel }
    else
      let (ptoTime, encLevel) := h.getPTOTimeAndSpace now
      if ptoTime ≠ 0 ∧ (pathProbeLossTime = 0 ∨ ptoTime < pathProbeLossTime) then
        { time := ptoTime, timerType := some .pto, encryptionLevel := encLevel }
      else if pathProbeLossTime ≠ 0 then
        { time := pathProbeLossTime, timerType := some .pathProbe, encryptionLevel := some .oneRTT }
      else {}

/-- mirrors :699-722 -/
def setLossDetectionTimer (now : Int) : Handler C E :=
  { h with alarm := h.lossDetectionTime now }

/-! ## Packets that leave -/

/-- mirrors :166-174 -/
def removeFromBytesInFlight (p : Packet) : Option (Handler C E) :=
  if p.includedInBytesInFlight then
    if p.length > h.bytesInFlight then none
    else some { h with bytesInFlight := h.bytesInFlight - p.length }
  else some h

/-- The calls to the handlers of a packet's frames; a frame without a handler is passed over. -/
def frameCallbacks (call : Nat → Nat → Callback) (p : Packet) : List Callback :=
  (p.frames ++ p.streamFrames).filterMap fun f => f.handler.map fun hd => call hd f.frame

/-- mirrors :1059-1075 -/
def queueFramesForRetransmission (p : Packet) : Option (Handler C E) :=
  if !p.isAckEliciting then none
  else some { h with callbacks := h.callbacks ++ frameCallbacks .onLost p }

/-- mirrors :1044-1057 -/
def queueProbePacket (enc : EncryptionLevel) : Option (Bool × Handler C E) := do
  let sp ← h.getPacketNumberSpace enc
  match sp.history.firstOutstanding with
  | none => return (false, h)
  | some (pn, p) =>
    let history ← sp.history.declareLost pn
    let h := h.setSpace enc { sp with history }
    let h ← h.removeFromBytesInFlight p
    let h ← h.queueFramesForRetransmission p
    return (true, h)

/-- The handler of a path probe's frame is called without a check.
mirrors :781-787 -/
def loseProbes : List (Int × Packet) → Handler C E → Option (Handler C E)
  | [], h => some h
  | (pn, p) :: rest, h =>
    if p.frames.any fun f => f.handler.isNone then none
    else
      let app := h.appDataPackets
      loseProbes rest
        { h with callbacks := h.callbacks ++ frameCallbacks .onLost { p with streamFrames := [] }
                 appDataPackets := { app with history := (app.history.removePathProbe pn).2 } }

/-- mirrors :770-788 -/
def detectLostPathProbes (now : Int) : Option (Handler C E) :=
  let lossTime := now - pathProbePacketLossTimeout
  loseProbes (h.appDataPackets.history.pathProbePackets.filter fun e => e.2.sendTime ≤ lossTime) h

/-- mirrors :794-798; the product is exact as long as
the RTT is below eleven days -/
def lossDelay (r : RTTStats) : Int :=
  max ((9 * max r.latestRTT r.smoothedRTT).tdiv 8) timerGranularity

/-- The two thresholds. mirrors :809-826 -/
def packetLost (sp : PacketNumberSpace) (lossDelay now pn : Int) (p : Packet) : Bool :=
  p.sendTime ≤ now - lossDelay || sp.history.difference sp.largestAcked pn ≥ packetThreshold

end

variable (A : SendAlgorithm C) (ecn : EcnHandler E) (h : Handler C E)

/-- The frames' handlers, the controller and the ECN tracker hear about a lost packet.
mirrors :855-865 -/
def reportLost (enc : EncryptionLevel) (priorInFlight : Nat) (pn : Int) (p : Packet) (h : Handler C E) :
    Option (Handler C E) :=
  if !p.isPathProbePacket && p.isAckEliciting then do
    let h ← h.removeFromBytesInFlight p
    let h ← h.queueFramesForRetransmission p
    let congestion := if p.isPathMTUProbePacket then h.congestion
      else A.onCongestionEvent h.congestion pn p.length priorInFlight
    let ecnTracker := if enc = .oneRTT then h.ecnTracker.map fun e => ecn.lostPacket e pn
      else h.ecnTracker
    return { h with congestion, ecnTracker }
  else some h

/-- One packet is declared lost. mirrors :850-866 -/
def losePacket (enc : EncryptionLevel) (priorInFlight : Nat) (pn : Int) (p : Packet)
    (h : Handler C E) : Option (Handler C E) := do
  let sp ← h.getPacketNumberSpace enc
  let lostPackets := if enc = .zeroRTT ∨ enc = .oneRTT then h.lostPackets.add pn p.sendTime
    else h.lostPackets
  let history ← sp.history.declareLost pn
  reportLost A ecn enc priorInFlight pn p { h.setSpace enc { sp with history } with lostPackets }

/-- The loop over the packets of the space. mirrors :804-867 -/
def detectLost (enc : EncryptionLevel) (lossDelay now : Int) (priorInFlight : Nat) :
    List (Int × Packet) → Handler C E → Option (Handler C E)
  | [], h => some h
  | (pn, p) :: rest, h => do
    let sp ← h.getPacketNumberSpace enc
    if pn > sp.largestAcked then return h
    else if packetLost sp lossDelay now pn p then
      let h ← losePacket A ecn enc priorInFlight pn p h
      detectLost enc lossDelay now priorInFlight rest h
    else
      let lossTime := if sp.lossTime = 0 then p.sendTime + lossDelay else sp.lossTime
      detectLost enc lossDelay now priorInFlight rest (h.setSpace enc { sp with lossTime })

/-- mirrors :790-868 -/
def detectLostPackets (now : Int) (enc : EncryptionLevel) : Option (Handler C E) := do
  let sp ← h.getPacketNumberSpace enc
  detectLost A ecn enc (lossDelay h.rttStats) now h.bytesInFlight sp.history.tracked
    (h.setSpace enc { sp with lossTime := 0 })

/-! ## Sending -/

/-- The arguments of `SentPacket`; a packet number that is sent is not negative.
mirrors :255-266 -/
structure SentArgs where
  t : Int
  pn : Nat
  largestAcked : Int := invalidPacketNumber
  streamFrames : List Frame := []
  frames : List Frame := []
  encLevel : EncryptionLevel
  ecn : ECN := .non
  size : Nat
  isPathMTUProbePacket : Bool := false
  isPathProbePacket : Bool := false

/-- mirrors :280-289 and :299-300 -/
def SentArgs.packet (a : SentArgs) : Packet :=
  { sendTime := a.t, encryptionLevel := some a.encLevel, length := a.size, frames := a.frames
    largestAcked := a.largestAcked, streamFrames := a.streamFrames
    isPathMTUProbePacket := a.isPathMTUProbePacket, isPathProbePacket := a.isPathProbePacket
    includedInBytesInFlight := !a.isPathProbePacket && (!a.streamFrames.isEmpty || !a.frames.isEmpty) }

/-- A path probe is not reported to the controller.
mirrors :291-295 -/
def sentPathProbe (a : SentArgs) : Option (Handler C E) := do
  let sp ← h.getPacketNumberSpace a.encLevel
  let history ← sp.history.sentPathProbePacket a.pn a.packet
  let h := { h.setSpace a.encLevel { sp with history, largestSent := a.pn } with
    bytesSent := h.bytesSent + a.size }
  return h.setLossDetectionTimer a.t

/-- mirrors :267-289 and :296-310 -/
def recordSent (a : SentArgs) : Option (Handler C E) := do
  let isAckEliciting := a.packet.isAckEliciting
  let sp ← h.getPacketNumberSpace a.encLevel
  let bytesInFlight := if isAckEliciting then h.bytesInFlight + a.size else h.bytesInFlight
  let numProbesToSend := if isAckEliciting then h.numProbesToSend - 1 else h.numProbesToSend
  let congestion := A.onPacketSent h.congestion a.t bytesInFlight a.pn a.size isAckEliciting
  let ecnTracker ← (match h.ecnTracker with
    | some e => if a.encLevel = .oneRTT then (ecn.sentPacket e a.pn a.ecn).map some else some (some e)
    | none => some none)
  let history ← sp.history.sentPacket a.pn a.packet
  let lastAckElicitingPacketTime := if isAckEliciting then a.t else sp.lastAckElicitingPacketTime
  let sp := { sp with history, largestSent := a.pn, lastAckElicitingPacketTime }
  return { h.setSpace a.encLevel sp with
    bytesSent := h.bytesSent + a.size, bytesInFlight, numProbesToSend, congestion, ecnTracker }

/-- mirrors :311-319 -/
def sentRegular (a : SentArgs) : Option (Handler C E) := do
  let h ← h.recordSent A ecn a
  return if !a.packet.isAckEliciting && h.peerCompletedAddressValidation then h
    else h.setLossDetectionTimer a.t

/-- mirrors :255-320 -/
def sentPacket (a : SentArgs) : Option (Handler C E) :=
  if a.isPathProbePacket then h.sentPathProbe a else sentRegular A ecn h a

/-! ## Acknowledgements -/

/-- Step to the next higher range as long as `pn` lies above the current one. -/
def advance (pn : Int) : List AckRange → List AckRange
  | r :: r' :: rs => if pn > r.largest then advance pn (r' :: rs) else r :: r' :: rs
  | rs => rs

/-- What the search for newly acknowledged packets has found. -/
structure Scan where
  history : SentPacketHistory
  acked : List (Int × Packet) := []
  hasAckEliciting : Bool := false
  error : Option AckError := none

/-- The placeholder of a path probe stands for the probe, unless that was declared lost.
mirrors :577-589 -/
def Scan.take (s : Scan) (pn : Int) (p : Packet) : Scan :=
  if p.isPathProbePacket then
    match s.history.removePathProbe pn with
    | (some probePacket, history) => { s with history, acked := s.acked ++ [(pn, probePacket)] }
    | (none, history) => { s with history }
  else { s with acked := s.acked ++ [(pn, p)], hasAckEliciting := s.hasAckEliciting || p.isAckEliciting }

/-- The loop over the packets of the space; `ranges` are the ranges not yet passed, lowest first.
mirrors :551-590 -/
def scanAcked (ack : AckFrame) : List (Int × Packet) → List AckRange → Scan → Scan
  | [], _, s => s
  | (pn, p) :: rest, ranges, s =>
    if pn < ack.lowestAcked then scanAcked ack rest ranges s
    else if pn > ack.largestAcked then s
    else if ack.hasMissingRanges then
      match advance pn ranges with
      | [] => s
      | r :: rs =>
        if pn < r.smallest then scanAcked ack rest (r :: rs) s
        else if pn > r.largest then
          { s with error := some (.bug <| s!"BUG: ackhandler would have acked wrong packet {pn}, " ++
              s!"while evaluating range {r.smallest} -> {r.largest}") }
        else scanAcked ack rest (r :: rs) (s.take pn p)
    else scanAcked ack rest ranges (s.take pn p)

/-- The search in a history. -/
def newlyAcked (history : SentPacketHistory) (ack : AckFrame) : Scan :=
  scanAcked ack history.tracked ack.ackRanges.reverse { history }

/-- mirrors :599-617 -/
def removeAcked (enc : EncryptionLevel) :
    List (Int × Packet) → Handler C E → Option (Except AckError Unit × Handler C E)
  | [], h => some (.ok (), h)
  | (pn, p) :: rest, h => do
    let ignore := if p.largestAcked ≠ invalidPacketNumber ∧ enc = .oneRTT ∧ h.ignorePacketsBelow then
      [Callback.ignorePacketsBelow (p.largestAcked + 1)] else []
    let h := { h with callbacks := h.callbacks ++ ignore ++ frameCallbacks .onAcked p }
    let sp ← h.getPacketNumberSpace enc
    match ← sp.history.remove pn with
    | .error e => return (.error (.bug e), h)
    | .ok history => removeAcked enc rest (h.setSpace enc { sp with history })

/-- The newly acknowledged packets in ascending order, and whether one is ack-eliciting.
mirrors :529-619 -/
def detectAndRemoveAckedPackets (ack : AckFrame) (enc : EncryptionLevel) :
    Option (Except AckError (List (Int × Packet) × Bool) × Handler C E) := do
  if !h.ackedPackets.isEmpty then
    return (.error (.bug "ackhandler BUG: ackedPackets slice not empty"), h)
  let sp ← h.getPacketNumberSpace enc
  match (if enc = .oneRTT then sp.history.skippedPackets.find? ack.acksPacket else none) with
  | some p =>
    return (.error (.protocolViolation s!"received an ACK for skipped packet number: {p} ({enc.string})"), h)
  | none =>
    let s := newlyAcked sp.history ack
    let h := { h.setSpace enc { sp with history := s.history } with ackedPackets := s.acked }
    match s.error with
    | some e => return (.error e, h)
    | none =>
      match ← removeAcked enc s.acked h with
      | (.error e, h) => return (.error e, h)
      | (.ok (), h) => return (.ok (s.acked, s.hasAckEliciting), h)

/-- Does the ACK give an RTT sample, and of which packet? The last packet has to be the largest
acknowledged and no path probe, and one of the packets ack-eliciting.
mirrors :411-412 -/
def rttPacket (ack : AckFrame) (acked : List (Int × Packet)) (hasAckEliciting : Bool) : Option Packet :=
  match acked.getLast? with
  | some (pn, p) =>
    if pn = ack.largestAcked ∧ !p.isPathProbePacket ∧ hasAckEliciting then some p else none
  | none => none

/-- The new RTT estimate and the new `largestAckedTime`.
mirrors :413-424 -/
def rttAfter (ack : AckFrame) (enc : EncryptionLevel) (rcvTime : Int) (p : Packet) : RTTStats × Int :=
  let ackDelay := if enc = .oneRTT then min ack.delayTime h.rttStats.maxAckDelay else 0
  if h.largestAckedTime = 0 ∨ ¬p.sendTime < h.largestAckedTime then
    (h.rttStats.updateRTT (rcvTime - p.sendTime) ackDelay, p.sendTime)
  else (h.rttStats, h.largestAckedTime)

/-- The RTT statistics and `largestAckedTime` after the newly acknowledged packets have been looked at. -/
def rttOnAck (ack : AckFrame) (enc : EncryptionLevel) (rcvTime : Int)
    (acked : List (Int × Packet)) (hasAckEliciting : Bool) : RTTStats × Int :=
  match rttPacket ack acked hasAckEliciting with
  | some p => h.rttAfter ack enc rcvTime p
  | none => (h.rttStats, h.largestAckedTime)

/-- mirrors :407-426 -/
def updateRTTOnAck (ack : AckFrame) (enc : EncryptionLevel) (rcvTime : Int)
    (acked : List (Int × Packet)) (hasAckEliciting : Bool) : Handler C E :=
  let rtt := h.rttOnAck ack enc rcvTime acked hasAckEliciting
  { h with
    rttStats := rtt.1
    largestAckedTime := rtt.2
    congestion := if (rttPacket ack acked hasAckEliciting).isSome then A.maybeExitSlowStart h.congestion
      else h.congestion }

/-- mirrors :428-434 -/
def informECN (ack : AckFrame) (enc : EncryptionLevel) (largestAcked : Int)
    (acked : List (Int × Packet)) (priorInFlight : Nat) : Handler C E :=
  match h.ecnTracker with
  | some e =>
    if enc = .oneRTT ∧ ack.largestAcked > largestAcked then
      let handled := ecn.handleNewlyAcked e acked ack.ect0 ack.ect1 ack.ecnce
      { h with
        ecnTracker := some handled.2
        congestion := if handled.1 then A.onCongestionEvent h.congestion ack.largestAcked 0 priorInFlight
          else h.congestion }
    else h
  | none => h

/-- mirrors :443-454 -/
def ackPackets (priorInFlight : Nat) (rcvTime : Int) : List (Int × Packet) → Handler C E → Option (Handler C E)
  | [], h => some h
  | (pn, p) :: rest, h => do
    let congestion := if p.includedInBytesInFlight then
      A.onPacketAcked h.congestion pn p.length priorInFlight rcvTime else h.congestion
    let h ← { h with congestion }.removeFromBytesInFlight p
    ackPackets priorInFlight rcvTime rest h

/-- The lost packets that the frame acknowledges after all.
mirrors :488-526 -/
def spuriousLosses : List (Int × Int) → List AckRange → List Int
  | [], _ => []
  | (pn, _) :: rest, ranges =>
    match advance pn ranges with
    | [] => []
    | r :: rs =>
      if pn ≥ r.smallest ∧ pn ≤ r.largest then pn :: spuriousLosses rest (r :: rs)
      else spuriousLosses rest (r :: rs)

/-- mirrors :456-464 and :523-525 -/
def cleanLostPackets (ack : AckFrame) (rcvTime : Int) : Handler C E :=
  let spurious := spuriousLosses h.lostPackets ack.ackRanges.reverse
  let lost := spurious.foldl LostPacketTracker.delete h.lostPackets
  { h with lostPackets := LostPacketTracker.deleteBefore lost (rcvTime - 3 * h.rttStats.pto false) }

/-- The rest of `ReceivedAck` once packets are newly acknowledged.
mirrors :407-485 -/
def processAcked (ack : AckFrame) (enc : EncryptionLevel) (rcvTime : Int)
    (priorInFlight : Nat) (acked : List (Int × Packet)) (hasAckEliciting : Bool) :
    Option (Bool × Handler C E) := do
  let h := h.updateRTTOnAck A ack enc rcvTime acked hasAckEliciting
  let sp ← h.getPacketNumberSpace enc
  let h := h.informECN A ecn ack enc sp.largestAcked acked priorInFlight
  let largestAcked := max sp.largestAcked ack.largestAcked
  let h := h.setSpace enc { sp with largestAcked }
  let h ← detectLostPackets A ecn h rcvTime enc
  let h ← (if enc = .oneRTT then h.detectLostPathProbes rcvTime else some h)
  let h ← ackPackets A priorInFlight rcvTime acked h
  let acked1RTTPacket := acked.any fun e => e.2.encryptionLevel = some .oneRTT
  let h := if enc = .oneRTT ∧ ack.largestAcked = largestAcked then h.cleanLostPackets ack rcvTime else h
  let h := { h with
    ackedPackets := []
    ptoCount := if h.peerCompletedAddressValidation then 0 else h.ptoCount
    numProbesToSend := 0 }
  return (acked1RTTPacket, h.setLossDetectionTimer rcvTime)

/-- mirrors :392-399 -/
def completeAddressValidation (enc : EncryptionLevel) (rcvTime : Int) : Handler C E :=
  if h.perspective = .client ∧ !h.peerCompletedAddressValidation ∧ (enc = .handshake ∨ enc = .oneRTT) then
    { h with peerCompletedAddressValidation := true }.setLossDetectionTimer rcvTime
  else h

/-- mirrors :381-486 -/
def receivedAck (ack : AckFrame) (enc : EncryptionLevel) (rcvTime : Int) :
    Option (Except AckError Bool × Handler C E) := do
  let sp ← h.getPacketNumberSpace enc
  if ack.largestAcked > sp.largestSent then
    return (.error (.protocolViolation "received ACK for an unsent packet"), h)
  let h := h.completeAddressValidation enc rcvTime
  match ← h.detectAndRemoveAckedPackets ack enc with
  | (.error e, h) => return (.error e, h)
  | (.ok ([], _), h) => return (.ok false, h)
  | (.ok (acked, hasAckEliciting), h') =>
    let (acked1RTTPacket, h) ← processAcked A ecn h' ack enc rcvTime h.bytesInFlight acked hasAckEliciting
    return (.ok acked1RTTPacket, h)

/-! ## The other methods -/

/-- mirrors :187-190 -/
def removeAllFromBytesInFlight (packets : List (Int × Packet)) : Option (Handler C E) :=
  packets.foldlM (fun h e => h.removeFromBytesInFlight e.2) h

/-- The 0-RTT packets at the front of the history are dropped; an error of `Remove` is ignored.
mirrors :206-212 -/
def drop0RTT : List (Int × Packet) → Handler C E → Option (Handler C E)
  | [], h => some h
  | (pn, p) :: rest, h =>
    if p.encryptionLevel ≠ some .zeroRTT then some h
    else do
      let h ← h.removeFromBytesInFlight p
      match ← h.appDataPackets.history.remove pn with
      | .error _ => drop0RTT rest h
      | .ok history => drop0RTT rest { h with appDataPackets := { h.appDataPackets with history } }

/-- mirrors :221-224 -/
def afterDrop (now : Int) : Handler C E :=
  { h with ptoCount := 0, numProbesToSend := 0, ptoMode := .none }.setLossDetectionTimer now

/-- mirrors :176-225 -/
def dropPackets (enc : EncryptionLevel) (now : Int) : Option (Handler C E) :=
  match enc with
  | .initial =>
    match h.initialPackets with
    | none => some h
    | some sp => do
      let h ← h.removeAllFromBytesInFlight sp.history.tracked
      return { h with initialPackets := none }.afterDrop now
  | .handshake =>
    let h := if h.perspective = .client then { h with peerCompletedAddressValidation := true } else h
    match h.handshakePackets with
    | none => some h
    | some sp => do
      let h ← h.removeAllFromBytesInFlight sp.history.tracked
      return { h with handshakeConfirmed := true, handshakePackets := none }.afterDrop now
  | .zeroRTT => do
    let h ← h.drop0RTT h.appDataPackets.history.tracked
    return h.afterDrop now
  | .oneRTT => none

/-- mirrors :227-234 -/
def receivedBytes (n : Nat) (t : Int) : Handler C E :=
  let h' := { h with bytesReceived := h.bytesReceived + n }
  if h.isAmplificationLimited ∧ !h'.isAmplificationLimited then h'.setLossDetectionTimer t else h'

/-- mirrors :236-242 -/
def receivedPacket (enc : EncryptionLevel) (t : Int) : Handler C E :=
  if h.perspective = .server ∧ enc = .handshake ∧ !h.peerAddressValidated then
    { h with peerAddressValidated := true }.setLossDetectionTimer t
  else h

/-- mirrors :971-982 -/
def popPacketNumber (enc : EncryptionLevel) (draw : Nat) : Option (Int × Handler C E) := do
  let sp ← h.getPacketNumberSpace enc
  let popped := sp.pns.pop draw
  let pn := popped.2.1
  let history ← (if popped.1 then sp.history.skippedPacket (pn - 1) else some sp.history)
  return (pn, h.setSpace enc { sp with pns := popped.2.2, history })

/-- The probe timeout has fired for a level: count it and choose what to send.
mirrors :922-946 -/
def ptoFired (enc : Option EncryptionLevel) (draw : Nat) : Option (Option String × Handler C E) :=
  let h := { h with ptoCount := h.ptoCount + 1, numProbesToSend := h.numProbesToSend + 2 }
  match enc with
  | some .initial => some (none, { h with ptoMode := .ptoInitial })
  | some .handshake => some (none, { h with ptoMode := .ptoHandshake })
  | some .oneRTT => do
    -- a packet number is skipped in order to elicit an immediate ACK
    let (pn, h) ← h.popPacketNumber .oneRTT draw
    let history ← h.appDataPackets.history.skippedPacket pn
    return (none, { h with appDataPackets := { h.appDataPackets with history }, ptoMode := .ptoAppData })
  | some .zeroRTT => some (some "PTO timer in unexpected encryption level: 0-RTT", h)
  | none => some (some "PTO timer in unexpected encryption level: unknown", h)

/-- mirrors :901-922 -/
def onPTO (now : Int) (draw : Nat) : Option (Option String × Handler C E) :=
  if h.bytesInFlight = 0 ∧ !h.peerCompletedAddressValidation then
    let h := { h with ptoCount := h.ptoCount + 1, numProbesToSend := h.numProbesToSend + 1 }
    if h.initialPackets.isSome then some (none, { h with ptoMode := .ptoInitial })
    else if h.handshakePackets.isSome then some (none, { h with ptoMode := .ptoHandshake })
    else some (some ("sentPacketHandler BUG: PTO fired, but bytes_in_flight is 0 and " ++
      "Initial and Handshake already dropped"), h)
  else
    let pto := h.getPTOTimeAndSpace now
    if pto.1 = 0 then some (none, h)
    else do
      let enc ← pto.2
      let ps ← h.getPacketNumberSpace enc
      if !ps.history.hasOutstandingPackets ∧ !ps.history.hasOutstandingPathProbes ∧
          !h.peerCompletedAddressValidation then return (none, h)
      else h.ptoFired pto.2 draw

/-- The timer is set again on every return.
mirrors :870-948 -/
def onLossDetectionTimeout (now : Int) (draw : Nat) : Option (Option String × Handler C E) := do
  let h ← (if h.handshakeConfirmed then h.detectLostPathProbes now else some h)
  let (err, h) ← (if h.getLossTimeAndSpace.1 ≠ 0 then
      (detectLostPackets A ecn h now h.getLossTimeAndSpace.2).map fun h => (none, h)
    else h.onPTO now draw)
  return (err, h.setLossDetectionTimer now)

/-- mirrors :984-1027 -/
def sendMode (now : Int) : SendMode × Handler C E :=
  let spaceLen (sp : Option PacketNumberSpace) : Nat := (sp.map fun sp => sp.history.len).getD 0
  let numTrackedPackets := h.appDataPackets.history.len + spaceLen h.initialPackets + spaceLen h.handshakePackets
  if h.isAmplificationLimited then (.none, h)
  else if numTrackedPackets ≥ maxTrackedSentPackets then (.none, h)
  else if h.numProbesToSend > 0 then (h.ptoMode, h)
  else if !A.canSend h.congestion h.bytesInFlight then (.ack, h)
  else if numTrackedPackets ≥ maxOutstandingSentPackets then (.ack, h)
  else
    let (budget, congestion) := A.hasPacingBudget h.congestion now
    (if budget then .any else .pacingLimited, { h with congestion })

/-- mirrors :1029-1031 -/
def timeUntilSend (clock : Int) : Int :=
  A.timeUntilSend h.congestion h.bytesInFlight clock

/-- mirrors :954-962 -/
def ecnMode (isShortHeaderPacket : Bool) : ECN × Handler C E :=
  match h.ecnTracker with
  | none => (.unsupported, h)
  | some e =>
    if !isShortHeaderPacket then (.non, h)
    else ((ecn.mode e).1, { h with ecnTracker := some (ecn.mode e).2 })

/-- mirrors :1080-1094 -/
def requeueAll (packets : List (Int × Packet)) : Option (Handler C E) :=
  packets.foldlM (fun h e => if e.2.isAckEliciting then h.queueFramesForRetransmission e.2 else some h) h

/-- The send time of the first packet with one. mirrors :1079-1083 -/
def firstPacketSendTime (packets : List (Int × Packet)) : Int :=
  packets.foldl (fun t e => if t = 0 then e.2.sendTime else t) 0

/-- mirrors :1077-1121 -/
def resetForRetry (now : Int) (draw : Nat) : Option (Handler C E) := do
  let initial ← h.initialPackets
  let h := { h with bytesInFlight := 0 }
  let h ← h.requeueAll initial.history.tracked
  let h ← h.requeueAll h.appDataPackets.history.tracked
  let sent := firstPacketSendTime initial.history.tracked
  let rttStats := if h.ptoCount = 0 then h.rttStats.updateRTT (max minRTTAfterRetry (now - sent)) 0
    else h.rttStats
  return { h with
    rttStats
    initialPackets := some (newPacketNumberSpace initial.pns.peek false draw)
    appDataPackets := newPacketNumberSpace h.appDataPackets.pns.peek true draw
    alarm := {}
    ptoCount := 0 }

/-- mirrors :1125-1133 -/
def loseAll : List (Int × Packet) → Handler C E → Option (Handler C E)
  | [], h => some h
  | (pn, p) :: rest, h => do
    let history ← h.appDataPackets.history.declareLost pn
    let h := { h with appDataPackets := { h.appDataPackets with history } }
    if p.isPathProbePacket then loseAll rest h
    else
      let h ← h.removeFromBytesInFlight p
      let h ← (if p.isAckEliciting then h.queueFramesForRetransmission p else some h)
      loseAll rest h

/-- mirrors :1123-1150 -/
def migratedPath (now : Int) (initialMaxDatagramSize : Nat) (clock : Int) : Option (Handler C E) := do
  let h := { h with rttStats := h.rttStats.resetForPathMigration }
  let h ← loseAll h.appDataPackets.history.tracked h
  let app := { h.appDataPackets with history := h.appDataPackets.history.removeRangedPathProbes }
  let congestion := match A.newCubicSender with
    | some newCubicSender => newCubicSender initialMaxDatagramSize
    | none => A.onRetransmissionTimeout h.congestion true clock
  return { h with appDataPackets := app, congestion }.setLossDetectionTimer now

end Handler

/-! ## Runs -/

/-- A call of one of the handler's methods, or of one of the setters of the RTT statistics it shares with
the connection. -/
inductive Call
  | sentPacket (a : Handler.SentArgs)
  | receivedAck (ack : AckFrame) (enc : EncryptionLevel) (rcvTime : Int)
  | receivedBytes (n : Nat) (t : Int)
  | receivedPacket (enc : EncryptionLevel) (t : Int)
  | dropPackets (enc : EncryptionLevel) (now : Int)
  | resetForRetry (now : Int) (draw : Nat)
  | sendMode (now : Int)
  | setMaxDatagramSize (size : Nat)
  | queueProbePacket (enc : EncryptionLevel)
  | ecnMode (isShortHeaderPacket : Bool)
  | popPacketNumber (enc : EncryptionLevel) (draw : Nat)
  | onLossDetectionTimeout (now : Int) (draw : Nat)
  | migratedPath (now : Int) (initialMaxDatagramSize : Nat) (clock : Int)
  | setMaxAckDelay (mad : Int)
  | setInitialRTT (t : Int)

/-- The state after a call; `none` when it panics. -/
def Handler.step (A : SendAlgorithm C) (ecn : EcnHandler E) (h : Handler C E) : Call → Option (Handler C E)
  | .sentPacket a => h.sentPacket A ecn a
  | .receivedAck ack enc rcvTime => (h.receivedAck A ecn ack enc rcvTime).map (·.2)
  | .receivedBytes n t => some (h.receivedBytes n t)
  | .receivedPacket enc t => some (h.receivedPacket enc t)
  | .dropPackets enc now => h.dropPackets enc now
  | .resetForRetry now draw => h.resetForRetry now draw
  | .sendMode now => some (h.sendMode A now).2
  | .setMaxDatagramSize size => some { h with congestion := A.setMaxDatagramSize h.congestion size }
  | .queueProbePacket enc => (h.queueProbePacket enc).map (·.2)
  | .ecnMode isShort => some (h.ecnMode ecn isShort).2
  | .popPacketNumber enc draw => (h.popPacketNumber enc draw).map (·.2)
  | .onLossDetectionTimeout now draw => (h.onLossDetectionTimeout A ecn now draw).map (·.2)
  | .migratedPath now size clock => h.migratedPath A now size clock
  | .setMaxAckDelay mad => some { h with rttStats := { h.rttStats with maxAckDelay := mad } }
  | .setInitialRTT t => some { h with rttStats := h.rttStats.setInitialRTT t }

end MoqQuic.L3.Quic
