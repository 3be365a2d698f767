import MoqQuic.L2Machine.Protocol
import MoqQuic.L2Machine.Congestion.SendAlgorithm

/-!
# `BBRv3Sender`

Model of `internal/congestion/bbrv3.go`. Gains and thresholds are multiples of
one hundredth and kept as numbers of hundredths; a product of floats that is
converted to an integer is read as an exact rational, truncated. Sums of times
are `int64` sums (`addTime`), since an interval may be the largest `int64`.
Readings of the clock are arguments.

The methods through which the handler drives the sender are at the end
(`Sender.algorithm`). They reach only a small part of the file: `ackState`
returns a zero record, and `updateModelAndState`, which moves the state machine,
has no caller. What only it reaches is left out, as are the statistics; the
record keeps the fields, which a retransmission timeout sets to those of a new
sender.

Results:
* `InStartup.*`: none of them leaves Startup.
* `keepsSendTimes`: the map `sentTimes` is written by `OnPacketSent` and
  `OnPacketAcked` alone.

Line numbers without a file are those of `bbrv3.go`.
-/
namespace MoqQuic.L2.Congestion.Bbrv3

open L2 L2.Congestion

/-- `^uint64(0)` -/
abbrev maxUint64 : Nat := 2 ^ 64 - 1

/-- The sum of two `int64`s. -/
def addTime (a b : Int) : Int := Int.bmod (a + b) (2 ^ 64)

/-- mirrors :13-70, in hundredths where they are fractions -/
abbrev startupPacingGain : Nat := 277
abbrev lossThreshold : Nat := 2
abbrev fullLossCount : Nat := 6
abbrev minRttFilterLen : Int := 10 * second
abbrev probeRttInterval : Int := 5 * second

/-- mirrors :73-83 -/
inductive State
  | startup
  | drain
  | probeBwDown
  | probeBwCruise
  | probeBwRefill
  | probeBwUp
  | probeRtt
  deriving DecidableEq, Repr

/-- mirrors :86-94 -/
inductive AckProbePhase
  | init
  | stopping
  | refilling
  | starting
  | feedback
  deriving DecidableEq, Repr

/-- mirrors :97-106 -/
structure AckState where
  newlyLostBytes : Nat := 0
  newlyAckedBytes : Nat := 0
  packetDelivered : Nat := 0
  txInFlight : Nat := 0
  lost : Nat := 0

/-- The samples of a windowed maximum filter by round. mirrors :123-134 -/
abbrev MinMaxFilter := List (Nat × Nat)

/-- mirrors :109-121 and :159-250 -/
structure Sender where
  initialCwnd : Nat
  minCwnd : Nat
  maxDatagramSize : Nat
  state : State := .startup
  roundCount : Nat := 0
  isRoundStart : Bool := false
  nextRoundDelivered : Nat := 0
  isFilledPipe : Bool := false
  fullBw : Nat := 0
  fullBwCount : Nat := 0
  ackPhase : AckProbePhase := .init
  pacingRate : Nat := 0
  pacingGain : Nat := startupPacingGain
  cwndGain : Nat := 200
  sendQuantum : Nat := 0
  packetConservation : Bool := false
  cwnd : Nat
  priorCwnd : Nat := 0
  maxBw : Nat := 0
  bwHi : Nat := maxUint64
  bwLo : Nat := maxUint64
  bw : Nat := 0
  bwLatest : Nat := 0
  minRtt : Int := maxInt64
  minRttStamp : Int
  probeRttMinDelay : Int := maxInt64
  probeRttMinStamp : Int
  probeRttExpired : Bool := false
  probeRttDoneStamp : Int := 0
  probeRttRoundDone : Bool := false
  offloadBudget : Nat := 0
  maxInflight : Nat := 0
  inflightHi : Nat := maxUint64
  inflightLo : Nat := maxUint64
  inflightLatest : Nat := 0
  extraAckedFilter : MinMaxFilter := []
  cycleCount : Nat := 0
  cycleStamp : Int
  roundsSinceBwProbe : Nat := 0
  bwProbeWait : Int := maxInt64
  bwProbeUpCnt : Nat := maxUint64
  bwProbeUpAcks : Nat := 0
  bwProbeUpRounds : Nat := 0
  bwProbeSamples : Bool := false
  lossRoundStart : Bool := false
  lossInRound : Bool := false
  lossRoundDelivered : Nat := 0
  lossEventsInRound : Nat := 0
  inRecovery : Bool := false
  recoveryEpochStart : Int := 0
  delivered : Nat := 0
  extraAckedDelivered : Nat := 0
  extraAckedIntervalStart : Int
  idleRestart : Bool := false
  sentTimes : Int → Option Int := fun _ => none
  initTime : Int

namespace Sender

variable (b : Sender)

/-- The default RTT of `initPacingRate` is one millisecond.
mirrors :352-356 -/
def initPacingRate : Sender :=
  { b with pacingRate := b.pacingGain * (b.initialCwnd * 1000) / 100 }

/-- mirrors :257-291; `now` is the reading of the clock -/
def new (initialMaxDatagramSize : Nat) (now : Int) : Sender :=
  initPacingRate
    { initialCwnd := 80 * initialMaxDatagramSize
      minCwnd := 4 * initialMaxDatagramSize
      maxDatagramSize := initialMaxDatagramSize
      cwnd := 80 * initialMaxDatagramSize
      minRttStamp := now
      probeRttMinStamp := now
      cycleStamp := now
      extraAckedIntervalStart := now
      initTime := now }

/-- A zero record: nothing is ever accumulated. mirrors :1175-1179 -/
def ackState (_ : Sender) : AckState := {}

/-! ## Targets -/

/-- mirrors :390-395 -/
def bdp (bw : Nat) : Nat :=
  if b.minRtt = maxInt64 then b.initialCwnd else (bw * b.minRtt).toNat / 1000000000

/-- mirrors :398-400 -/
def bdpMultiple (bw gain : Nat) : Nat := b.bdp bw * gain / 100

/-- mirrors :403-405 -/
def inflight (gain : Nat) : Nat := b.bdpMultiple b.maxBw gain

/-! ## Startup -/

/-- mirrors :662-664 -/
def isInflightTooHigh : Bool :=
  b.ackState.lost > b.ackState.txInFlight * lossThreshold / 100

/-- mirrors :667-670 -/
def handleQueueTooHighInStartup : Sender :=
  { b with isFilledPipe := true, inflightHi := max (b.inflight 100) b.inflightLatest }

/-- mirrors :651-659 -/
def checkStartupHighLoss : Sender :=
  let b := if b.lossRoundStart ∧ b.inRecovery ∧ b.lossEventsInRound ≥ fullLossCount ∧ b.isInflightTooHigh then
    b.handleQueueTooHighInStartup else b
  if b.lossRoundStart then { b with lossEventsInRound := 0 } else b

/-! ## RTT -/

/-- mirrors :918-923 -/
def filterProbe (now sampleRtt : Int) : Sender :=
  let b := { b with probeRttExpired := now - b.probeRttMinStamp > probeRttInterval }
  if sampleRtt > 0 ∧ (sampleRtt ≤ b.probeRttMinDelay ∨ b.probeRttExpired) then
    { b with probeRttMinDelay := sampleRtt, probeRttMinStamp := now } else b

/-- mirrors :925-929 -/
def filterMin (now : Int) : Sender :=
  if b.probeRttMinDelay < b.minRtt ∨ now - b.minRttStamp > minRttFilterLen then
    { b with minRtt := b.probeRttMinDelay, minRttStamp := b.probeRttMinStamp } else b

/-- mirrors :917-930 -/
def updateMinRtt (now sampleRtt : Int) : Sender := (b.filterProbe now sampleRtt).filterMin now

/-! ## The interface -/

/-- mirrors :1198-1206 -/
def timeUntilSend (_bytesInFlight : Nat) (clock : Int) : Int :=
  if b.pacingRate = 0 then clock else b.initTime

/-- mirrors :1209-1214 -/
def hasPacingBudget (_now : Int) : Bool :=
  if b.state = .probeRtt then true else true

/-- mirrors :1217-1241 -/
def onPacketSent (sentTime : Int) (_bytesInFlight : Nat) (packetNumber : Int) (bytes : Nat)
    (_isRetransmittable : Bool) : Sender :=
  let b := { b with sentTimes := Function.update b.sentTimes packetNumber (some sentTime) }
  if b.pacingRate > 0 ∧ bytes > 0 then
    let pacingDelay := bytes * 1000000000 / b.pacingRate
    { b with initTime := addTime sentTime pacingDelay }
  else b

/-- mirrors :1244-1246 -/
def canSend (bytesInFlight : Nat) : Bool := bytesInFlight < b.cwnd

/-- The RTT sample that `OnPacketAcked` takes, if it takes one.
mirrors :1253-1259 -/
def rttSample (number eventTime : Int) : Option Int :=
  match b.sentTimes number with
  | some sentTime => if eventTime - sentTime > 0 then some (eventTime - sentTime) else none
  | none => none

/-- mirrors :1252-1289 -/
def onPacketAcked (number : Int) (ackedBytes _priorInFlight : Nat) (eventTime : Int) : Sender :=
  let b := match b.rttSample number eventTime with
    | some rtt => b.updateMinRtt eventTime rtt
    | none => b
  { b with
    sentTimes := Function.update b.sentTimes number none
    delivered := b.delivered + ackedBytes }

/-- mirrors :1293-1295 -/
def countLossEvent (lostBytes : Nat) : Sender :=
  if lostBytes > 0 ∧ b.lossEventsInRound < 15 then { b with lossEventsInRound := b.lossEventsInRound + 1 }
  else b

/-- mirrors :1292-1308 -/
def onCongestionEvent (_number : Int) (lostBytes _priorInFlight : Nat) : Sender :=
  let b := b.countLossEvent lostBytes
  if b.state = .startup ∧ b.inRecovery then b.checkStartupHighLoss else b

/-- mirrors :1311-1325 -/
def onRetransmissionTimeout (packetsRetransmitted : Bool) (clock : Int) : Sender :=
  if packetsRetransmitted then
    { new b.maxDatagramSize clock with minRtt := b.minRtt, minRttStamp := b.minRttStamp }
  else b

/-- mirrors :1328-1330 -/
def setMaxDatagramSize (maxDatagramSize : Nat) : Sender := { b with maxDatagramSize }

/-- mirrors :1333-1338 -/
def getCongestionWindow : Nat := max b.cwnd b.minCwnd

/-- The sender as the handler sees it. -/
def algorithm : SendAlgorithm Sender where
  timeUntilSend := timeUntilSend
  hasPacingBudget b now := (b.hasPacingBudget now, b)
  onPacketSent := onPacketSent
  canSend := canSend
  maybeExitSlowStart := id
  onPacketAcked := onPacketAcked
  onCongestionEvent := onCongestionEvent
  onRetransmissionTimeout := onRetransmissionTimeout
  setMaxDatagramSize := setMaxDatagramSize
  newCubicSender := none

/-! ## What the interface reaches -/

/-- The state machine, the rate and the send times are the same. -/
structure SameControl (b b' : Sender) : Prop where
  state : b'.state = b.state
  isFilledPipe : b'.isFilledPipe = b.isFilledPipe
  inRecovery : b'.inRecovery = b.inRecovery
  pacingRate : b'.pacingRate = b.pacingRate
  sentTimes : b'.sentTimes = b.sentTimes

variable (b : Sender)

theorem sameControl_updateMinRtt (now rtt : Int) : SameControl b (b.updateMinRtt now rtt) := by
  unfold updateMinRtt filterMin filterProbe
  simp only
  split
  · split <;> exact ⟨rfl, rfl, rfl, rfl, rfl⟩
  split <;> exact ⟨rfl, rfl, rfl, rfl, rfl⟩

theorem sameControl_countLossEvent (lost : Nat) : SameControl b (b.countLossEvent lost) := by
  unfold countLossEvent
  split <;> exact ⟨rfl, rfl, rfl, rfl, rfl⟩

/-- What `OnPacketAcked` does besides the estimate. -/
theorem onPacketAcked_spec (number : Int) (n prior : Nat) (t : Int) :
    (b.onPacketAcked number n prior t).state = b.state ∧
      (b.onPacketAcked number n prior t).isFilledPipe = b.isFilledPipe ∧
      (b.onPacketAcked number n prior t).inRecovery = b.inRecovery ∧
      (b.onPacketAcked number n prior t).pacingRate = b.pacingRate ∧
      (b.onPacketAcked number n prior t).sentTimes = Function.update b.sentTimes number none := by
  unfold onPacketAcked
  simp only
  split
  · rename_i rtt _
    have hsame := sameControl_updateMinRtt b t rtt
    exact ⟨hsame.state, hsame.isFilledPipe, hsame.inRecovery, hsame.pacingRate, by rw [hsame.sentTimes]⟩
  · exact ⟨rfl, rfl, rfl, rfl, rfl⟩

theorem onPacketSent_sentTimes (t : Int) (inFlight : Nat) (pn : Int) (n : Nat) (r : Bool) :
    (b.onPacketSent t inFlight pn n r).sentTimes = Function.update b.sentTimes pn (some t) := by
  unfold onPacketSent
  simp only
  split <;> rfl

theorem checkStartupHighLoss_sentTimes : b.checkStartupHighLoss.sentTimes = b.sentTimes := by
  unfold checkStartupHighLoss
  simp only
  split <;> (split <;> rfl)

theorem onCongestionEvent_sentTimes (pn : Int) (lost prior : Nat) :
    (b.onCongestionEvent pn lost prior).sentTimes = b.sentTimes := by
  rw [← (sameControl_countLossEvent b lost).sentTimes]
  unfold onCongestionEvent
  simp only
  split
  · exact checkStartupHighLoss_sentTimes _
  · rfl

/-- The map of send times changes with sends and acknowledgements alone. -/
theorem keepsSendTimes : KeepsSendTimes algorithm Sender.sentTimes where
  onPacketSent := onPacketSent_sentTimes
  onPacketAcked b pn n prior t := (onPacketAcked_spec b pn n prior t).2.2.2.2
  onCongestionEvent := onCongestionEvent_sentTimes
  maybeExitSlowStart _ := rfl
  hasPacingBudget _ _ := rfl
  setMaxDatagramSize _ _ := rfl
  onRetransmissionTimeout _ _ := rfl
  newCubicSender := rfl

/-- The sender as it was created. -/
structure InStartup (b : Sender) : Prop where
  state : b.state = .startup
  isFilledPipe : b.isFilledPipe = false
  inRecovery : b.inRecovery = false

theorem inStartup_new (size : Nat) (now : Int) : (new size now).InStartup := ⟨rfl, rfl, rfl⟩

theorem SameControl.inStartup {b b' : Sender} (hs : SameControl b b') (hb : b.InStartup) : b'.InStartup :=
  ⟨hs.state.trans hb.state, hs.isFilledPipe.trans hb.isFilledPipe, hs.inRecovery.trans hb.inRecovery⟩

namespace InStartup

variable {b : Sender}

theorem onPacketSent (hb : b.InStartup) (t : Int) (inFlight : Nat) (pn : Int) (n : Nat) (r : Bool) :
    (b.onPacketSent t inFlight pn n r).InStartup := by
  unfold Sender.onPacketSent
  simp only
  split <;> exact { hb with }

theorem onPacketAcked (hb : b.InStartup) (pn : Int) (n prior : Nat) (t : Int) :
    (b.onPacketAcked pn n prior t).InStartup := by
  obtain ⟨hstate, hfilled, hrec, -⟩ := onPacketAcked_spec b pn n prior t
  exact ⟨hstate.trans hb.state, hfilled.trans hb.isFilledPipe, hrec.trans hb.inRecovery⟩

/-- The high-loss check is behind `inRecovery`, which nothing sets. -/
theorem onCongestionEvent (hb : b.InStartup) (pn : Int) (lost prior : Nat) :
    (b.onCongestionEvent pn lost prior).InStartup := by
  have hc := (sameControl_countLossEvent b lost).inStartup hb
  unfold Sender.onCongestionEvent
  simp only [hc.inRecovery, Bool.false_eq_true, and_false, if_false]
  exact hc

theorem onRetransmissionTimeout (hb : b.InStartup) (r : Bool) (clock : Int) :
    (b.onRetransmissionTimeout r clock).InStartup := by
  unfold Sender.onRetransmissionTimeout
  split
  · exact ⟨rfl, rfl, rfl⟩
  · exact hb

end InStartup

end Sender

end MoqQuic.L2.Congestion.Bbrv3
