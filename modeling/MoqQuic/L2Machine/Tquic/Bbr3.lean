import MoqQuic.L2Machine.Tquic.DeliveryRate

/-!
# tquic: `Bbr3`

Model of `congestion_control/bbr3.rs`. Gains and thresholds are kept in
hundredths; a product of floats that is converted to an integer is read as an
exact rational, truncated, and saturates at `u64::MAX`. A method that changes
the controller and returns a value is a function to a pair. The random numbers
of `pick_probe_wait` are drawn from a sequence `draws` that is part of the state.
`none` is a panic: a rate sample over less than a microsecond, a sum of times
beyond the clock's range, or bounds of `clamp` in the wrong order.

Left out are the fields that nothing reads (`extra_acked`, `cycle_count`,
`prior_bytes_in_flight`, the statistics of acknowledged bytes).

Line numbers without a file are those of `bbr3.rs`.
-/
namespace MoqQuic.L2.Tquic

/-- mirrors :44-83; the fields without a setter are the constants below -/
structure Bbr3Config where
  minCwnd : Nat
  initialCwnd : Nat
  initialRtt : Option Nat := some 333000000
  maxDatagramSize : Nat
  deriving DecidableEq, Repr

/-- mirrors :85-101 -/
def Bbr3Config.fromWindows (minCongestionWindow initialCongestionWindow initialRtt maxDatagramSize : Nat) :
    Bbr3Config :=
  { minCwnd := min (minCongestionWindow * maxDatagramSize) u64Max
    initialCwnd := min (initialCongestionWindow * maxDatagramSize) u64Max
    initialRtt := some initialRtt
    maxDatagramSize }

/-- mirrors :122-201 and lib.rs:144, in hundredths where they are fractions -/
abbrev pacingMarginPercent : Nat := 1
abbrev lossThresh : Nat := 2
abbrev fullLossCount : Nat := 6
abbrev beta : Nat := 70
abbrev headroom : Nat := 85
abbrev extraAckedFilterLen : Nat := 10
abbrev minRttFilterLen : Nat := 10000000000
abbrev probeRttDuration : Nat := 200000000
abbrev probeRttInterval : Nat := 5000000000
abbrev fullBwCountThreshold : Nat := 3
abbrev fullBwGrowthRate : Nat := 25
abbrev probeBwMaxRounds : Nat := 63
abbrev probeBwRandRounds : Nat := 2
abbrev probeBwMinWaitTimeInMsec : Nat := 2000
abbrev probeBwMaxWaitTimeInMsec : Nat := 3000
abbrev sendQuantumThresholdPacingRate : Nat := 1200000 / 8
abbrev defaultInitialRtt : Nat := 333000000

/-- mirrors :227-235 -/
inductive State
  | startup
  | drain
  | probeBwDown
  | probeBwCruise
  | probeBwRefill
  | probeBwUp
  | probeRTT
  deriving DecidableEq, Repr

/-- mirrors :336-351 -/
inductive AckProbePhase
  | init
  | stopping
  | refilling
  | starting
  | feedback
  deriving DecidableEq, Repr

/-- mirrors :269-311 -/
structure AckState where
  now : Int
  newlyLostBytes : Nat := 0
  newlyAckedBytes : Nat := 0
  packetDelivered : Nat := 0
  lastAckPacketSentTime : Int
  txInFlight : Nat := 0
  lost : Nat := 0
  deriving DecidableEq, Repr

/-- The records `round`, `full_pipe`, `stats` and `max_bw_filter` are spread out.
mirrors :357-549 -/
structure Bbr3 where
  config : Bbr3Config
  bytesInFlight : Nat := 0
  bytesLostInTotal : Nat := 0
  pacingRate : Nat := 0
  minPacingRate : Option Nat := none
  sendQuantum : Nat := 0
  cwnd : Nat
  pacingGain : Nat := 277
  cwndGain : Nat := 200
  packetConservation : Bool := false
  state : State := .startup
  roundCount : Nat := 0
  isRoundStart : Bool := false
  nextRoundDelivered : Nat := 0
  idleRestart : Bool := false
  maxBw : Nat := 0
  bwHi : Nat := 0
  bwLo : Nat := 0
  bw : Nat := 0
  minRtt : Nat := durationMax
  bdp : Nat := 0
  offloadBudget : Nat := 0
  maxInflight : Nat := 0
  inflightHi : Nat := 0
  inflightLo : Nat := 0
  bwLatest : Nat := 0
  inflightLatest : Nat := 0
  maxBwFilter0 : Nat := 0
  maxBwFilter1 : Nat := 0
  cycleStamp : Int
  ackPhase : AckProbePhase := .init
  extraAckedIntervalStart : Option Int
  extraAckedDelivered : Nat := 0
  extraAckedFilter : MinMax := { window := extraAckedFilterLen }
  isFilledPipe : Bool := false
  fullBw : Nat := 0
  fullBwCount : Nat := 0
  minRttStamp : Int
  probeRttMinDelay : Nat := durationMax
  probeRttMinStamp : Int
  probeRttExpired : Bool := false
  probeRttDoneStamp : Option Int
  probeRttRoundDone : Bool := false
  deliveryRateEstimator : DeliveryRateEstimator
  ackState : AckState
  roundsSinceBwProbe : Nat := 0
  bwProbeWait : Nat := durationMax
  bwProbeUpCnt : Nat := 0
  bwProbeUpAcks : Nat := 0
  bwProbeUpRounds : Nat := 0
  bwProbeSamples : Bool := false
  lossRoundStart : Bool := false
  lossInRound : Bool := false
  priorCwnd : Nat := 0
  inRecovery : Bool := false
  lossRoundDelivered : Nat := 0
  lossEventsInRound : Nat := 0
  recoveryEpochStart : Option Int
  draws : Nat → Nat × Nat

namespace Bbr3

/-! ## Rounds, signals, bounds -/

variable (b : Bbr3)

/-- mirrors :707-709 -/
def startRound : Bbr3 := { b with nextRoundDelivered := b.deliveryRateEstimator.delivered }

/-- mirrors :712-724 -/
def updateRound : Bbr3 :=
  if b.ackState.packetDelivered ≥ b.nextRoundDelivered then
    { b.startRound with
      roundCount := b.roundCount + 1
      roundsSinceBwProbe := b.roundsSinceBwProbe + 1
      isRoundStart := true
      packetConservation := false }
  else { b with isRoundStart := false }

/-- mirrors :738-744 -/
def saveCwnd : Bbr3 :=
  { b with priorCwnd := if !b.inRecovery && b.state ≠ .probeRTT then b.cwnd else max b.cwnd b.priorCwnd }

/-- mirrors :747-749 -/
def restoreCwnd : Bbr3 := { b with cwnd := max b.cwnd b.priorCwnd }

/-- The method `in_recovery`; the field of that name is `inRecovery`.
mirrors :767-769 -/
def sentInRecovery (sentTime : Int) : Bool :=
  match b.recoveryEpochStart with
  | some t => sentTime ≤ t
  | none => false

/-- mirrors :771-773 -/
def inSlowStart : Bool := b.state = .startup

/-- mirrors :1222-1224 -/
def isAppLimited (b : Bbr3) : Bool := b.deliveryRateEstimator.isAppLimited

/-- mirrors :1110-1115 -/
def isInAProbeBwState : Bool :=
  match b.state with
  | .probeBwDown | .probeBwCruise | .probeBwRefill | .probeBwUp => true
  | _ => false

/-- mirrors :842-873 -/
def updateGains : Bbr3 :=
  match b.state with
  | .startup => { b with pacingGain := 277, cwndGain := 200 }
  | .drain => { b with pacingGain := 50, cwndGain := 200 }
  | .probeBwDown => { b with pacingGain := 90, cwndGain := 200 }
  | .probeBwCruise => { b with pacingGain := 100, cwndGain := 200 }
  | .probeBwRefill => { b with pacingGain := 100, cwndGain := 200 }
  | .probeBwUp => { b with pacingGain := 125, cwndGain := 225 }
  | .probeRTT => { b with pacingGain := 100, cwndGain := 50 }

/-- mirrors :1549-1553 -/
def resetCongestionSignals : Bbr3 :=
  { b with lossInRound := false, bwLatest := 0, inflightLatest := 0 }

/-- mirrors :1612-1615 -/
def resetLowerBounds : Bbr3 := { b with bwLo := u64Max, inflightLo := u64Max }

/-- mirrors :876-879 -/
def enterStartup : Bbr3 := { b with state := .startup }.updateGains

/-- An RTT of zero makes the bandwidth infinite. mirrors :1622-1633 -/
def initPacingRate : Bbr3 :=
  let srtt := b.config.initialRtt.getD 1000000
  { b with pacingRate := if srtt = 0 then u64Max else
      toU64 (b.pacingGain * b.config.initialCwnd * 1000000000 / (100 * srtt)) }

/-- mirrors :672-698 and, for the rounds and the pipe, :701-705 and :889-893 -/
def init (now : Int) : Bbr3 :=
  let b := { b with
    minRtt := max (b.config.initialRtt.getD defaultInitialRtt) 1000
    minRttStamp := now, probeRttDoneStamp := none, probeRttRoundDone := false, priorCwnd := 0
    idleRestart := false, extraAckedIntervalStart := some now, extraAckedDelivered := 0, ackPhase := .init
    bwHi := u64Max, inflightHi := u64Max }
  let b := b.resetCongestionSignals.resetLowerBounds
  let b := { b with
    nextRoundDelivered := 0, roundCount := 0, isRoundStart := false
    isFilledPipe := false, fullBw := 0, fullBwCount := 0 }
  b.initPacingRate.enterStartup

/-- All readings of the clock are `now`. mirrors :552-668 -/
def new (config : Bbr3Config) (now : Int) (draws : Nat → Nat × Nat) : Bbr3 :=
  init
    { config, cwnd := config.initialCwnd, cycleStamp := now, extraAckedIntervalStart := some now
      minRttStamp := now, probeRttMinStamp := now, probeRttDoneStamp := some now
      deliveryRateEstimator := { deliveredTime := now, firstSentTime := now }
      ackState := { now, lastAckPacketSentTime := now }
      recoveryEpochStart := some now, draws } now

/-! ## Data in flight -/

/-- mirrors :1680-1690 -/
def bdpMultiple (bw gain : Nat) : Nat × Bbr3 :=
  if b.minRtt = durationMax then (b.config.initialCwnd, b)
  else (toU64 (gain * bw * b.minRtt / 100000000000),
    { b with bdp := toU64 (bw * b.minRtt / 1000000000) })

/-- mirrors :1371-1373 and :1692-1704 -/
def quantizationBudget (bytesInFlight : Nat) : Nat × Bbr3 :=
  let b := { b with offloadBudget := 3 * b.sendQuantum }
  let inflight := max (max bytesInFlight b.offloadBudget) b.config.minCwnd
  (if b.state = .probeBwUp then satAdd inflight (2 * b.config.maxDatagramSize) else inflight, b)

/-- mirrors :1710-1714 -/
def inflight (gain : Nat) : Nat × Bbr3 :=
  let bdp := b.bdpMultiple b.maxBw gain
  bdp.2.quantizationBudget bdp.1

/-- mirrors :1009-1013 -/
def targetInflight : Nat := min b.bdp b.cwnd

/-- mirrors :1140-1150 -/
def inflightWithHeadroom : Nat :=
  if b.inflightHi = u64Max then u64Max
  else max (b.inflightHi - max (headroom * b.inflightHi / 100) 1) b.config.minCwnd

/-- mirrors :1444-1449 -/
def isInflightTooHigh : Bool := b.ackState.lost > b.ackState.txInFlight * lossThresh / 100

/-! ## ProbeBW -/

/-- mirrors :986-998 -/
def pickProbeWait : Bbr3 :=
  let draw := b.draws 0
  let wait := probeBwMinWaitTimeInMsec + draw.2 % (probeBwMaxWaitTimeInMsec - probeBwMinWaitTimeInMsec)
  { b with
    roundsSinceBwProbe := draw.1 % probeBwRandRounds
    bwProbeWait := wait * 1000000
    draws := fun n => b.draws (n + 1) }

/-- mirrors :1016-1029 -/
def startProbeBwDown (now : Int) : Bbr3 :=
  let b := b.resetCongestionSignals.pickProbeWait.startRound
  { b with bwProbeUpCnt := u64Max, cycleStamp := now, ackPhase := .stopping, state := .probeBwDown }

/-- mirrors :1031-1033 -/
def startProbeBwCruise : Bbr3 := { b with state := .probeBwCruise }

/-- mirrors :1035-1042 -/
def startProbeBwRefill : Bbr3 :=
  let b := b.resetLowerBounds.startRound
  { b with bwProbeUpRounds := 0, bwProbeUpAcks := 0, ackPhase := .refilling, state := .probeBwRefill }

/-- mirrors :1153-1158 -/
def raiseInflightHiSlope : Bbr3 :=
  { b with
    bwProbeUpRounds := min (b.bwProbeUpRounds + 1) 30
    bwProbeUpCnt := max (b.cwnd / 2 ^ b.bwProbeUpRounds) 1 }

/-- mirrors :1044-1054 -/
def startProbeBwUp (now : Int) : Bbr3 :=
  let b := b.startRound.raiseInflightHiSlope
  { b with
    ackPhase := .starting
    fullBw := b.deliveryRateEstimator.rateSample.deliveryRate
    cycleStamp := now
    state := .probeBwUp }

/-- mirrors :1132-1134 -/
def hasElapsedInPhase (now : Int) (interval : Nat) : Option Bool := do
  let t ← addDuration b.cycleStamp interval
  return now > t

/-- mirrors :1000-1007 -/
def isRenoCoexistenceProbeTime : Bool :=
  b.roundsSinceBwProbe ≥ min b.targetInflight probeBwMaxRounds

/-- mirrors :974-984 -/
def checkTimeToProbeBw (now : Int) : Option (Bool × Bbr3) := do
  let elapsed ← b.hasElapsedInPhase now b.bwProbeWait
  if elapsed || b.isRenoCoexistenceProbeTime then return (true, b.startProbeBwRefill)
  else return (false, b)

/-- mirrors :1118-1130 -/
def checkTimeToCruise (bytesInFlight : Nat) : Bool × Bbr3 :=
  if bytesInFlight > b.inflightWithHeadroom then (false, b)
  else (bytesInFlight ≤ (b.inflight 100).1, (b.inflight 100).2)

/-- In ProbeBW_UP the count is at least one. mirrors :1161-1182 -/
def probeInflightHiUpward (isCwndLimited : Bool) : Bbr3 :=
  if !isCwndLimited || b.cwnd < b.inflightHi then b
  else
    let b := { b with bwProbeUpAcks := b.bwProbeUpAcks + b.ackState.newlyAckedBytes }
    let b := if b.bwProbeUpAcks ≥ b.bwProbeUpCnt then
      let delta := b.bwProbeUpAcks / b.bwProbeUpCnt
      { b with
        bwProbeUpAcks := b.bwProbeUpAcks - delta * b.bwProbeUpCnt
        inflightHi := satAdd b.inflightHi (delta * b.config.maxDatagramSize) }
      else b
    if b.isRoundStart then b.raiseInflightHiSlope else b

/-- mirrors :1352-1365 -/
def advanceMaxBwFilter : Bbr3 :=
  if b.maxBwFilter1 = 0 then b else { b with maxBwFilter0 := b.maxBwFilter1, maxBwFilter1 := 0 }

/-- mirrors :1454-1463 -/
def cutInflightHi : Bbr3 :=
  if !b.isAppLimited then
    { b with
      bwProbeSamples := false
      inflightHi := max (b.targetInflight * beta / 100) b.ackState.txInFlight }
  else { b with bwProbeSamples := false }

/-- mirrors :1453-1468 -/
def handleInflightTooHigh (now : Int) : Bbr3 :=
  let b := b.cutInflightHi
  if b.state = .probeBwUp then b.startProbeBwDown now else b

/-- mirrors :1429-1442 -/
def checkInflightTooHigh (now : Int) : Bool × Bbr3 :=
  if b.isInflightTooHigh then (true, if b.bwProbeSamples then b.handleInflightTooHigh now else b)
  else (false, b)

/-- The phase of the samples. mirrors :1186-1199 -/
def adaptAckPhase : Bbr3 :=
  if b.ackPhase = .starting ∧ b.isRoundStart then { b with ackPhase := .feedback }
  else if b.ackPhase = .stopping ∧ b.isRoundStart then
    let b := { b with bwProbeSamples := false, ackPhase := .init }
    if b.isInAProbeBwState && !b.isAppLimited then b.advanceMaxBwFilter else b
  else b

/-- The loss rate is safe. mirrors :1208-1218 -/
def raiseUpperBounds : Bbr3 :=
  let b := { b with
    inflightHi := max b.ackState.txInFlight b.inflightHi
    bwHi := max b.deliveryRateEstimator.rateSample.deliveryRate b.bwHi }
  if b.state = .probeBwUp then b.probeInflightHiUpward true else b

/-- mirrors :1185-1220 -/
def adaptUpperBounds (now : Int) : Bbr3 :=
  let tooHigh := b.adaptAckPhase.checkInflightTooHigh now
  if tooHigh.1 then tooHigh.2
  else if tooHigh.2.inflightHi = u64Max then tooHigh.2
  else tooHigh.2.raiseUpperBounds

/-- The four ProbeBW states. mirrors :1070-1106 -/
def probeBwPhase (now : Int) (bytesInFlight : Nat) : Option Bbr3 :=
  match b.state with
  | .probeBwDown => do
    let probe ← b.checkTimeToProbeBw now
    if probe.1 then return probe.2
    let cruise := probe.2.checkTimeToCruise bytesInFlight
    return if cruise.1 then cruise.2.startProbeBwCruise else cruise.2
  | .probeBwCruise => (b.checkTimeToProbeBw now).map (·.2)
  | .probeBwRefill =>
    some (if b.isRoundStart then { b.startProbeBwUp now with bwProbeSamples := true } else b)
  | .probeBwUp => do
    let elapsed ← b.hasElapsedInPhase now b.minRtt
    if elapsed then
      let target := b.inflight b.pacingGain
      return if bytesInFlight > target.1 then target.2.startProbeBwDown now else target.2
    else return b
  | _ => some b

/-- mirrors :1057-1107 -/
def updateProbeBwCyclePhase (now : Int) (bytesInFlight : Nat) : Option Bbr3 :=
  if !b.isFilledPipe then some b
  else (b.adaptUpperBounds now).probeBwPhase now bytesInFlight

/-! ## Startup and Drain -/

/-- mirrors :895-921 -/
def checkStartupFullBandwidth : Bbr3 :=
  if b.isFilledPipe || !b.isRoundStart || b.deliveryRateEstimator.rateSample.isAppLimited then b
  else if b.maxBw ≥ b.fullBw * (100 + fullBwGrowthRate) / 100 then
    { b with fullBw := b.maxBw, fullBwCount := 0 }
  else
    let b := { b with fullBwCount := b.fullBwCount + 1 }
    if b.fullBwCount ≥ fullBwCountThreshold then { b with isFilledPipe := true } else b

/-- mirrors :923-931 -/
def handleQueueTooHighInStartup : Bbr3 :=
  let b := { b with isFilledPipe := true }
  { (b.inflight 100).2 with inflightHi := max (b.inflight 100).1 b.inflightLatest }

/-- mirrors :942-945 -/
def countLossEvent : Bbr3 :=
  if b.ackState.lost > 0 ∧ b.lossEventsInRound < 15 then
    { b with lossEventsInRound := b.lossEventsInRound + 1 } else b

/-- mirrors :937-958 -/
def checkStartupHighLoss : Bbr3 :=
  let b := b.countLossEvent
  let b := if b.lossRoundStart && b.inRecovery && b.lossEventsInRound ≥ fullLossCount &&
    b.isInflightTooHigh then b.handleQueueTooHighInStartup else b
  if b.lossRoundStart then { b with lossEventsInRound := 0 } else b

/-- mirrors :881-887 and :961-964 -/
def checkStartupDone : Bbr3 :=
  let b := b.checkStartupFullBandwidth.checkStartupHighLoss
  if b.state = .startup ∧ b.isFilledPipe then { b with state := .drain }.updateGains else b

/-- mirrors :966-971 -/
def checkDrain (now : Int) (bytesInFlight : Nat) : Bbr3 :=
  if b.state = .drain then
    let target := b.inflight 100
    if bytesInFlight ≤ target.1 then target.2.startProbeBwDown now else target.2
  else b

/-! ## ProbeRTT -/

/-- mirrors :1227-1246 -/
def updateMinRtt (now : Int) : Bbr3 :=
  let rtt := b.deliveryRateEstimator.rateSample.rtt
  let b := { b with probeRttExpired := durationSince now b.probeRttMinStamp > probeRttInterval }
  let b := if rtt ≠ 0 ∧ (rtt ≤ b.probeRttMinDelay ∨ b.probeRttExpired) then
    { b with probeRttMinDelay := rtt, probeRttMinStamp := now } else b
  let minRttExpired := durationSince now b.minRttStamp > minRttFilterLen
  if b.probeRttMinDelay < b.minRtt ∨ minRttExpired then
    { b with minRtt := b.probeRttMinDelay, minRttStamp := b.probeRttMinStamp } else b

/-- mirrors :1763-1766 -/
def probeRttCwnd : Nat × Bbr3 :=
  let bdp := b.bdpMultiple b.bw b.cwndGain
  (max bdp.1 b.config.minCwnd, bdp.2)

/-- mirrors :1312-1321 -/
def exitProbeRtt (now : Int) : Bbr3 :=
  let b := b.resetLowerBounds
  if b.isFilledPipe then (b.startProbeBwDown now).startProbeBwCruise else b.enterStartup

/-- mirrors :1296-1305 -/
def checkProbeRttDone (now : Int) : Bbr3 :=
  match b.probeRttDoneStamp with
  | some t => if now > t then { b.restoreCwnd.exitProbeRtt now with probeRttMinStamp := now } else b
  | none => b

/-- mirrors :1307-1309 -/
def markConnectionAppLimited : Bbr3 :=
  { b with deliveryRateEstimator := b.deliveryRateEstimator.setAppLimited true }

/-- The data in flight is being drained. mirrors :1287-1293 -/
def awaitProbeRttCwnd (now : Int) (bytesInFlight : Nat) : Option Bbr3 :=
  let target := b.probeRttCwnd
  if bytesInFlight ≤ target.1 then
    (addDuration now probeRttDuration).map fun t =>
      { target.2.startRound with probeRttDoneStamp := some t, probeRttRoundDone := false }
  else some target.2

/-- mirrors :1280-1286 -/
def awaitProbeRttRound (now : Int) : Bbr3 :=
  if b.isRoundStart || b.probeRttRoundDone then
    { b.checkProbeRttDone now with probeRttRoundDone := true } else b

/-- mirrors :1274-1294 -/
def handleProbeRtt (now : Int) (bytesInFlight : Nat) : Option Bbr3 :=
  let b := b.markConnectionAppLimited
  if b.probeRttDoneStamp.isSome then some (b.awaitProbeRttRound now)
  else b.awaitProbeRttCwnd now bytesInFlight

/-- The way into ProbeRTT. mirrors :1249-1257 and :1268-1272 -/
def enterProbeRttIfDue : Bbr3 :=
  if b.state ≠ .probeRTT ∧ b.probeRttExpired ∧ !b.idleRestart then
    let b := { b with state := .probeRTT }.updateGains.saveCwnd.startRound
    { b with probeRttDoneStamp := none, ackPhase := .stopping }
  else b

/-- mirrors :1248-1266 -/
def checkProbeRtt (now : Int) (bytesInFlight : Nat) : Option Bbr3 := do
  let b := b.enterProbeRttIfDue
  let b ← (if b.state = .probeRTT then b.handleProbeRtt now bytesInFlight else some b)
  return if b.deliveryRateEstimator.delivered > 0 then { b with idleRestart := false } else b

/-! ## The model -/

/-- mirrors :1341-1350 -/
def updateMaxBw : Bbr3 :=
  let bw := b.deliveryRateEstimator.rateSample.deliveryRate
  let b := b.updateRound
  if bw ≥ b.maxBw ∨ !b.isAppLimited then
    let b := { b with maxBwFilter1 := max bw b.maxBwFilter1 }
    { b with maxBw := max b.maxBwFilter0 b.maxBwFilter1 }
  else b

/-- mirrors :1389-1420 -/
def updateAckAggregation (now : Int) : Bbr3 :=
  match b.extraAckedIntervalStart with
  | some start =>
    let micros := durationSince now start / 1000
    let expected := min (b.bw * micros) (2 ^ 128 - 1) % 2 ^ 64 / 1000000
    let slow : Bool := b.extraAckedDelivered ≤ expected
    let b := if slow then { b with extraAckedDelivered := 0, extraAckedIntervalStart := some now } else b
    let expected := if slow then 0 else expected
    let b := { b with extraAckedDelivered := satAdd b.extraAckedDelivered b.ackState.newlyAckedBytes }
    let extra := min (b.extraAckedDelivered - expected) b.cwnd
    { b with extraAckedFilter := b.extraAckedFilter.updateMax b.roundCount extra }
  | none => { b with extraAckedDelivered := 0, extraAckedIntervalStart := some now }

/-- mirrors :1522-1537 -/
def updateLatestDeliverySignals : Bbr3 :=
  let sample := b.deliveryRateEstimator.rateSample
  let b := { b with
    lossRoundStart := false
    bwLatest := max b.bwLatest sample.deliveryRate
    inflightLatest := max b.inflightLatest sample.delivered }
  if sample.priorDelivered ≥ b.lossRoundDelivered then
    { b with lossRoundDelivered := b.deliveryRateEstimator.delivered, lossRoundStart := true } else b

/-- mirrors :1540-1545 -/
def advanceLatestDeliverySignals : Bbr3 :=
  if b.lossRoundStart then
    { b with
      bwLatest := b.deliveryRateEstimator.rateSample.deliveryRate
      inflightLatest := b.deliveryRateEstimator.rateSample.delivered } else b

/-- mirrors :1573-1578 -/
def isProbingBw : Bool :=
  match b.state with
  | .startup | .probeBwRefill | .probeBwUp => true
  | _ => false

/-- mirrors :1593-1601 -/
def initLowerBounds : Bbr3 :=
  { b with
    bwLo := if b.bwLo = u64Max then b.maxBw else b.bwLo
    inflightLo := if b.inflightLo = u64Max then b.cwnd else b.inflightLo }

/-- mirrors :1603-1610 -/
def lossLowerBounds : Bbr3 :=
  { b with
    bwLo := max b.bwLatest (b.bwLo * beta / 100)
    inflightLo := max b.inflightLatest (b.inflightLo * beta / 100) }

/-- mirrors :1580-1591 -/
def adaptLowerBoundsFromCongestion : Bbr3 :=
  if b.isProbingBw then b
  else if b.lossInRound then b.initLowerBounds.lossLowerBounds
  else b

/-- mirrors :1557-1571 -/
def updateCongestionSignals : Bbr3 :=
  let b := b.updateMaxBw
  let b := if b.ackState.lost > 0 then { b with lossInRound := true } else b
  if !b.lossRoundStart then b
  else { b.adaptLowerBoundsFromCongestion with lossInRound := true }

/-- mirrors :1617-1619 -/
def boundBwForModel : Bbr3 := { b with bw := min (min b.maxBw b.bwLo) b.bwHi }

/-- mirrors :780-791 -/
def updateModelAndState (now : Int) (bytesInFlight : Nat) : Option Bbr3 := do
  let b := b.updateLatestDeliverySignals.updateCongestionSignals
  let b := (b.updateAckAggregation now).checkStartupDone
  let b ← (b.checkDrain now bytesInFlight).updateProbeBwCyclePhase now bytesInFlight
  let b ← (b.updateMinRtt now).checkProbeRtt now bytesInFlight
  return b.advanceLatestDeliverySignals.boundBwForModel

/-! ## Control parameters -/

/-- mirrors :1635-1645 -/
def setPacingRateWithGain (pacingGain : Nat) : Bbr3 :=
  let rate := toU64 (pacingGain * b.bw * (100 - pacingMarginPercent) / 10000)
  if b.isFilledPipe || rate > b.pacingRate then { b with pacingRate := rate } else b

/-- mirrors :1652-1657 -/
def setMinPacingRate : Bbr3 :=
  { b with minPacingRate := some (match b.minPacingRate with
    | none => b.pacingRate
    | some least => min least b.pacingRate) }

/-- mirrors :1668-1672 -/
def sendQuantumFloor : Nat :=
  if b.pacingRate < sendQuantumThresholdPacingRate then b.config.maxDatagramSize
  else 2 * b.config.maxDatagramSize

/-- mirrors :1659-1677 -/
def setSendQuantum : Option Bbr3 :=
  if b.sendQuantumFloor > 64 * 1024 then none
  else some { b with sendQuantum := min (max (b.pacingRate / 1000) b.sendQuantumFloor) (64 * 1024) }

/-- mirrors :1716-1728 -/
def updateMaxInflight : Bbr3 :=
  let bdp := b.bdpMultiple b.maxBw b.cwndGain
  let budget := bdp.2.quantizationBudget (satAdd bdp.1 b.extraAckedFilter.get)
  { budget.2 with maxInflight := budget.1 }

/-- mirrors :1775-1788 -/
def modulateCwndForRecovery (bytesInFlight : Nat) : Bbr3 :=
  let b := if b.ackState.newlyLostBytes > 0 then
    { b with cwnd := max (b.cwnd - b.ackState.newlyLostBytes) b.config.minCwnd } else b
  if b.packetConservation then
    { b with cwnd := max b.cwnd (bytesInFlight + b.ackState.newlyAckedBytes) } else b

/-- The growth of the window outside packet conservation.
mirrors :1803-1814 -/
def growCwnd : Bbr3 :=
  let b := if b.isFilledPipe then
      { b with cwnd := min b.maxInflight (b.cwnd + b.ackState.newlyAckedBytes) }
    else if b.cwnd < b.maxInflight ∨ b.deliveryRateEstimator.delivered < b.config.initialCwnd then
      { b with cwnd := satAdd b.cwnd b.ackState.newlyAckedBytes }
    else b
  { b with cwnd := max b.cwnd b.config.minCwnd }

/-- mirrors :1768-1772 -/
def boundCwndForProbeRtt : Bbr3 :=
  if b.state = .probeRTT then { b.probeRttCwnd.2 with cwnd := min b.cwnd b.probeRttCwnd.1 } else b

/-- mirrors :1823-1836 -/
def boundCwndForModel : Bbr3 :=
  let cap := if b.isInAProbeBwState && b.state ≠ .probeBwCruise then b.inflightHi
    else if b.state = .probeRTT || b.state = .probeBwCruise then b.inflightWithHeadroom
    else u64Max
  { b with cwnd := min b.cwnd (max (min cap b.inflightLo) b.config.minCwnd) }

/-- mirrors :1797-1818 -/
def setCwnd : Bbr3 :=
  let b := b.updateMaxInflight.modulateCwndForRecovery b.bytesInFlight
  let b := if !b.packetConservation then b.growCwnd else b
  b.boundCwndForProbeRtt.boundCwndForModel

/-- mirrors :793-798 and :1648-1650 -/
def updateControlParameters : Option Bbr3 := do
  let b ← (b.setPacingRateWithGain b.pacingGain).setMinPacingRate.setSendQuantum
  return b.setCwnd

/-! ## Recovery and losses -/

/-- mirrors :1731-1746 -/
def enterRecovery (now : Int) : Bbr3 :=
  let b := b.saveCwnd
  { b with
    recoveryEpochStart := some now
    cwnd := b.bytesInFlight + max b.ackState.newlyAckedBytes b.config.maxDatagramSize
    packetConservation := true
    inRecovery := true }.startRound

/-- mirrors :1748-1758 -/
def exitRecovery : Bbr3 :=
  { b with recoveryEpochStart := none, packetConservation := false, inRecovery := false }.restoreCwnd

/-- mirrors :1498-1511 -/
def inflightHiFromLostPacket (packet : SentPacket) : Nat :=
  let inflightPrev := packet.rateSampleState.txInFlight - packet.sentSize
  let lostPrev := b.ackState.lost - packet.sentSize
  let lostPrefix := (inflightPrev * lossThresh - lostPrev * 100) / (100 - lossThresh)
  satAdd inflightPrev lostPrefix

/-- `packet.lost` is an earlier reading of the total. mirrors :1480-1485 -/
def noteLost (packet : SentPacket) : Bbr3 :=
  let state := packet.rateSampleState
  { b with
    ackState := { b.ackState with txInFlight := state.txInFlight, lost := b.bytesLostInTotal - state.lost }
    deliveryRateEstimator := b.deliveryRateEstimator.setAppLimited state.isAppLimited }

/-- mirrors :1473-1490 -/
def handleLostPacket (now : Int) (packet : SentPacket) : Bbr3 :=
  if !b.bwProbeSamples && !b.inSlowStart then b
  else
    let b := b.noteLost packet
    if b.isInflightTooHigh then
      let txInFlight := b.inflightHiFromLostPacket packet
      { b with ackState := { b.ackState with txInFlight } }.handleInflightTooHigh now
    else b

/-- mirrors :1324-1338 -/
def handleRestartFromIdle (now : Int) (bytesInFlight : Nat) : Bbr3 :=
  if bytesInFlight = 0 ∧ b.isAppLimited then
    let b := { b with idleRestart := true, extraAckedIntervalStart := some now }
    if b.isInAProbeBwState then b.setPacingRateWithGain 100
    else if b.state = .probeRTT then b.checkProbeRttDone now
    else b
  else b

/-! ## The `CongestionController` interface -/

/-- mirrors :1860-1869 -/
def onSent (now : Int) (packet : SentPacket) : Bbr3 × SentPacket :=
  let sent := b.deliveryRateEstimator.onPacketSent packet b.bytesInFlight b.bytesLostInTotal
  let b := { b with deliveryRateEstimator := sent.1 }.handleRestartFromIdle now b.bytesInFlight
  ({ b with bytesInFlight := b.bytesInFlight + packet.sentSize }, sent.2)

/-- mirrors :1871-1880 -/
def beginAck (now : Int) : Bbr3 := { b with ackState := { now, lastAckPacketSentTime := now } }

/-- mirrors :1882-1918 -/
def onAck (packet : SentPacket) : Bbr3 × SentPacket :=
  let updated := b.deliveryRateEstimator.updateRateSample packet
  let ackState := { b.ackState with
    newlyAckedBytes := b.ackState.newlyAckedBytes + packet.sentSize
    lastAckPacketSentTime := packet.timeSent
    packetDelivered := max b.ackState.packetDelivered updated.2.rateSampleState.delivered }
  let bytesInFlight := b.bytesInFlight - packet.sentSize
  ({ b with deliveryRateEstimator := updated.1, bytesInFlight, ackState }, updated.2)

/-- The newest packet acknowledged was sent after the recovery began.
mirrors :1926-1929 -/
def exitRecoveryIfOver : Bbr3 :=
  if b.inRecovery && !b.sentInRecovery b.ackState.lastAckPacketSentTime then b.exitRecovery else b

/-- mirrors :1920-1935 -/
def endAck : Option Bbr3 := do
  let e ← b.deliveryRateEstimator.generateRateSample
  let b1 := { b with deliveryRateEstimator := e }.exitRecoveryIfOver
  let b2 ← b1.updateModelAndState b1.ackState.now b.bytesInFlight
  b2.updateGains.updateControlParameters

/-- mirrors :1945-1948 -/
def countLostBytes (lostBytes : Nat) : Bbr3 :=
  { b with
    bytesInFlight := b.bytesInFlight - lostBytes
    bytesLostInTotal := satAdd b.bytesLostInTotal lostBytes
    ackState := { b.ackState with newlyLostBytes := satAdd b.ackState.newlyLostBytes lostBytes } }

/-- mirrors :1937-1966 -/
def onCongestionEvent (now : Int) (packet : SentPacket) (inPersistentCongestion : Bool) (lostBytes : Nat) : Bbr3 :=
  let b := (b.countLostBytes lostBytes).handleLostPacket now packet
  if inPersistentCongestion then { b with cwnd := b.config.minCwnd, recoveryEpochStart := none }
  else if !b.inRecovery && !b.sentInRecovery packet.timeSent then b.enterRecovery now
  else b

end Bbr3

end MoqQuic.L2.Tquic
