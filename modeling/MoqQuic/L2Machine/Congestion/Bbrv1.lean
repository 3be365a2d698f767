import MoqQuic.L2Machine.Protocol
import MoqQuic.L2Machine.Congestion.SendAlgorithm

/-!
# `BBRv1Sender`

Model of `internal/congestion/bbrv1.go`. Gains are kept in thousandths; a float
expression that is converted to an integer is read as an exact rational,
truncated. A missing entry of the Go map `sentTimes` reads as time zero. The
readings of the clock in the constructor are arguments.

Results:
* `keepsSendTimes`: the map `sentTimes` is written by `OnPacketSent` and
  `OnPacketAcked` alone.

Line numbers without a file are those of `bbrv1.go`.
-/
namespace MoqQuic.L2.Congestion.Bbrv1

open L2 L2.Congestion

/-- mirrors :46-51 -/
inductive State
  | startup
  | drain
  | probeBw
  | probeRtt
  deriving DecidableEq, Repr

abbrev bwWin : Nat := 16
abbrev minBdp : Nat := 32

/-- In thousandths. mirrors :55 -/
def probeBWCycleGain : List Nat := [1250, 750, 1000, 1000, 1000, 1000, 1000, 1000]

/-- mirrors :14-17 -/
structure AckInfo where
  ackedBytes : Nat
  recordTime : Int
  deriving DecidableEq, Repr

/-- mirrors :18-44 -/
structure Sender where
  state : State := .startup
  round : Nat := 0
  roundStartTime : Int
  startupLastBwGrow25Round : Nat := 0
  startupLastBw : Int := 0
  pacingGain : Nat := 2890
  cwndGain : Nat := 2890
  sentTimes : Int → Option Int := fun _ => none
  lastNewMinRTT : Int := 10 * second
  lastNewMinRTTTime : Int
  lastProbeRTTStart : Int := 0
  maxBandwidth : Int := 0
  delivered : Int := 0
  ackinfo : List AckInfo := []
  latelybandwidth : List Int := List.replicate bwWin 0
  nextSendTime : Int := 0
  maxDatagramSize : Nat
  inRecovery : Bool := false

namespace Sender

variable (b : Sender)

/-- mirrors :118-120 -/
def minMaxbandwidth : Int := (minBdp * b.maxDatagramSize * second).tdiv b.lastNewMinRTT

/-- mirrors :57-71 -/
def new (initialMaxDatagramSize : Nat) (now : Int) : Sender :=
  let b : Sender :=
    { maxDatagramSize := initialMaxDatagramSize, roundStartTime := now, lastNewMinRTTTime := now }
  { b with maxBandwidth := b.minMaxbandwidth }

/-- `bdp` in units of a nanobyte, since its uses round at different points.
mirrors :82-84 -/
def bdpNano : Int :=
  max (b.maxBandwidth * b.lastNewMinRTT) (minBdp * b.maxDatagramSize * second)

def bdp : Int := b.bdpNano.tdiv second

/-- mirrors :86-91 -/
def cwnd : Int :=
  if b.state = .probeRtt then 4 * b.maxDatagramSize else (b.bdpNano * b.cwndGain).tdiv (1000 * second)

/-- mirrors :112-116 -/
def entryProbeBW : Sender :=
  { b with state := .probeBw, pacingGain := probeBWCycleGain.getD (b.round % 8) 0, cwndGain := 2000 }

/-- mirrors :106-110 -/
def mayExitProbeRTT (time : Int) : Sender :=
  if b.state = .probeRtt ∧ time - b.lastProbeRTTStart ≥ 200 * millisecond then b.entryProbeBW else b

/-- mirrors :122-127 -/
def updateMaxbandwidthFilter : Sender :=
  { b with maxBandwidth := b.latelybandwidth.foldl max b.minMaxbandwidth }

/-- mirrors :129-139 -/
def exitRecover : Sender :=
  match b.state with
  | .startup => { b with inRecovery := false, pacingGain := 2890 }
  | .drain => { b with inRecovery := false, pacingGain := 345 }
  | .probeRtt => { b with inRecovery := false, pacingGain := 1000 }
  | .probeBw => { b with inRecovery := false }

/-- Everything up to the last expired entry is cut off, and the expired entries are subtracted.
mirrors :141-152 -/
def updateLastbandwidthFilter (eventTime : Int) : Int × Sender :=
  let expired (e : AckInfo) : Bool := eventTime - e.recordTime > b.lastNewMinRTT
  let expireSum := ((b.ackinfo.filter expired).map (·.ackedBytes)).sum
  let ackinfo := (b.ackinfo.reverse.takeWhile fun e => !expired e).reverse
  let delivered := b.delivered - expireSum
  ((delivered * second).tdiv b.lastNewMinRTT, { b with ackinfo, delivered })

/-! ## The interface -/

/-- mirrors :73-80 -/
def hasPacingBudget (now : Int) : Bool × Sender :=
  let b := b.mayExitProbeRTT now
  if b.state = .probeRtt then (true, b)
  else
    let updated := b.updateLastbandwidthFilter now
    (updated.1 * 1000 < b.maxBandwidth * b.pacingGain, updated.2)

/-- mirrors :97-100 -/
def onPacketSent (sentTime : Int) (_bytesInFlight : Nat) (packetNumber : Int) (bytes : Nat)
    (_isRetransmittable : Bool) : Sender :=
  { b with
    sentTimes := Function.update b.sentTimes packetNumber (some sentTime)
    nextSendTime := sentTime + (bytes * second * 1000).tdiv (b.pacingGain * b.maxBandwidth) }

/-- mirrors :102-104 -/
def canSend (bytesInFlight : Nat) : Bool := bytesInFlight < b.cwnd

/-- The difference `OnPacketAcked` takes for the RTT. mirrors :155-156 -/
def rtt (number eventTime : Int) : Int := eventTime - (b.sentTimes number).getD 0

/-- The RTT sample. mirrors :159-162 -/
def noteSample (rtt t : Int) : Sender :=
  if rtt < b.lastNewMinRTT ∧ rtt > 0 then { b with lastNewMinRTT := rtt, lastNewMinRTTTime := t } else b

/-- mirrors :155-164 -/
def recordAck (number : Int) (ackedBytes : Nat) (eventTime : Int) : Sender :=
  let rtt := b.rtt number eventTime
  let b := { b with sentTimes := Function.update b.sentTimes number none }.mayExitProbeRTT eventTime
  let b := b.noteSample rtt eventTime
  { b with
    delivered := b.delivered + ackedBytes
    ackinfo := b.ackinfo ++ [{ ackedBytes, recordTime := eventTime }] }

/-- The growth test divides by `startup_last_bw`, zero at first, which makes the quotient infinite.
mirrors :180-183 -/
def noteGrowth : Sender :=
  if b.state = .startup ∧ b.maxBandwidth > b.startupLastBw ∧
      4 * (b.maxBandwidth - b.startupLastBw) ≥ b.startupLastBw then
    { b with startupLastBw := b.maxBandwidth, startupLastBwGrow25Round := b.round } else b

/-- mirrors :184-188 -/
def leaveStartup : Sender :=
  if b.state = .startup ∧ b.round ≥ b.startupLastBwGrow25Round + 3 then
    { b with state := .drain, pacingGain := 345, cwndGain := 1000 } else b

def checkStartup : Sender := b.noteGrowth.leaveStartup

/-- mirrors :170-172 -/
def recover : Sender := if b.inRecovery then b.exitRecover else b

/-- mirrors :173-174 -/
def nextRound (rate : Int) : Sender :=
  { b with latelybandwidth := b.latelybandwidth.set (b.round % bwWin) rate, round := b.round + 1 }

/-- mirrors :175-177 -/
def cycleGain : Sender :=
  if b.state = .probeBw then { b with pacingGain := probeBWCycleGain.getD (b.round % 8) 0 } else b

/-- mirrors :169-189 -/
def endRound (deliveryRate eventTime : Int) : Sender :=
  if eventTime - b.roundStartTime ≥ b.lastNewMinRTT then
    { (b.recover.nextRound deliveryRate).cycleGain with
      roundStartTime := eventTime }.updateMaxbandwidthFilter.checkStartup
  else b

/-- mirrors :190-192 -/
def drained (prior : Nat) : Sender :=
  if b.state = .drain ∧ prior < b.bdp then b.entryProbeBW else b

/-- mirrors :193-196 -/
def raise (rate : Int) (prior : Nat) : Sender :=
  let appLimited : Bool := prior < b.bdp
  if (rate > b.maxBandwidth ∨ (!appLimited ∧ rate > 0)) ∧ b.state ≠ .drain ∧ !b.inRecovery then
    { b with maxBandwidth := max rate b.minMaxbandwidth } else b

/-- The condition under which an acknowledgement starts PROBE_RTT. -/
def StartsProbeRTT (t : Int) : Prop :=
  t - b.lastNewMinRTTTime ≥ 10 * second ∧ t - b.lastProbeRTTStart ≥ 10 * second

instance (t : Int) : Decidable (b.StartsProbeRTT t) := inferInstanceAs (Decidable (_ ∧ _))

/-- mirrors :197-203 -/
def mayStartProbeRTT (t : Int) : Sender :=
  if b.StartsProbeRTT t then
    { b with state := .probeRtt, pacingGain := 1000, cwndGain := 1000, lastNewMinRTT := 10 * second
             lastProbeRTTStart := t }
  else b

/-- mirrors :190-203 -/
def adjust (deliveryRate : Int) (priorInFlight : Nat) (eventTime : Int) : Sender :=
  ((b.drained priorInFlight).raise deliveryRate priorInFlight).mayStartProbeRTT eventTime

/-- mirrors :154-204 -/
def onPacketAcked (number : Int) (ackedBytes priorInFlight : Nat) (eventTime : Int) : Sender :=
  let b := b.recordAck number ackedBytes eventTime
  if b.state = .probeRtt then b
  else
    let updated := b.updateLastbandwidthFilter eventTime
    (updated.2.endRound updated.1 eventTime).adjust updated.1 priorInFlight eventTime

/-- mirrors :220-226 -/
def onRetransmissionTimeout (packetsRetransmitted : Bool) (clock : Int) : Sender :=
  if packetsRetransmitted then
    { new b.maxDatagramSize clock with
      lastNewMinRTT := b.lastNewMinRTT
      lastNewMinRTTTime := b.lastNewMinRTTTime
      lastProbeRTTStart := b.lastProbeRTTStart }
  else b

/-- The sender as the handler sees it; congestion events are ignored. -/
def algorithm : SendAlgorithm Sender where
  timeUntilSend b _ _ := b.nextSendTime
  hasPacingBudget := hasPacingBudget
  onPacketSent := onPacketSent
  canSend := canSend
  maybeExitSlowStart := id
  onPacketAcked := onPacketAcked
  onCongestionEvent b _ _ _ := b
  onRetransmissionTimeout := onRetransmissionTimeout
  setMaxDatagramSize b maxDatagramSize := { b with maxDatagramSize }
  newCubicSender := none

/-! ## What is recorded about packets -/

/-- The send times, the acknowledgements in the window and their sum. -/
structure SameRecords (b b' : Sender) : Prop where
  sentTimes : b'.sentTimes = b.sentTimes
  ackinfo : b'.ackinfo = b.ackinfo
  delivered : b'.delivered = b.delivered

namespace SameRecords

theorem refl : SameRecords b b := ⟨rfl, rfl, rfl⟩

theorem trans {b b' b'' : Sender} (h : SameRecords b b') (h' : SameRecords b' b'') : SameRecords b b'' :=
  ⟨h'.sentTimes.trans h.sentTimes, h'.ackinfo.trans h.ackinfo, h'.delivered.trans h.delivered⟩

/-- Whichever way a test goes. -/
theorem ite {b c d : Sender} {p : Prop} [Decidable p] (hc : SameRecords b c) (hd : SameRecords b d) :
    SameRecords b (if p then c else d) := by
  split
  · exact hc
  · exact hd

end SameRecords

theorem sameRecords_mayExitProbeRTT (t : Int) : SameRecords b (b.mayExitProbeRTT t) :=
  .ite ⟨rfl, rfl, rfl⟩ (.refl b)

theorem sameRecords_noteSample (rtt t : Int) : SameRecords b (b.noteSample rtt t) :=
  .ite ⟨rfl, rfl, rfl⟩ (.refl b)

theorem sameRecords_exitRecover : SameRecords b b.exitRecover := by
  unfold exitRecover
  split <;> exact ⟨rfl, rfl, rfl⟩

theorem sameRecords_checkStartup : SameRecords b b.checkStartup := by
  have hnote : SameRecords b b.noteGrowth := .ite ⟨rfl, rfl, rfl⟩ (.refl b)
  exact hnote.trans (.ite ⟨rfl, rfl, rfl⟩ (.refl _))

theorem sameRecords_endRound (rate t : Int) : SameRecords b (b.endRound rate t) := by
  refine .ite ?_ (.refl b)
  have hrecover : SameRecords b b.recover := .ite (sameRecords_exitRecover b) (.refl b)
  have hround : SameRecords b.recover (b.recover.nextRound rate) := ⟨rfl, rfl, rfl⟩
  have hcycle : SameRecords (b.recover.nextRound rate) (b.recover.nextRound rate).cycleGain :=
    .ite ⟨rfl, rfl, rfl⟩ (.refl _)
  have hfilter : SameRecords (b.recover.nextRound rate).cycleGain
      { (b.recover.nextRound rate).cycleGain with roundStartTime := t }.updateMaxbandwidthFilter := ⟨rfl, rfl, rfl⟩
  exact hrecover.trans (hround.trans (hcycle.trans (hfilter.trans (sameRecords_checkStartup _))))

theorem sameRecords_adjust (rate : Int) (prior : Nat) (t : Int) : SameRecords b (b.adjust rate prior t) := by
  have hdrained : SameRecords b (b.drained prior) := .ite ⟨rfl, rfl, rfl⟩ (.refl b)
  have hraise : SameRecords (b.drained prior) ((b.drained prior).raise rate prior) :=
    .ite ⟨rfl, rfl, rfl⟩ (.refl _)
  exact hdrained.trans (hraise.trans (.ite ⟨rfl, rfl, rfl⟩ (.refl _)))

/-- After the sample, an acknowledgement changes what is recorded through the filter alone. -/
theorem sameRecords_onPacketAcked (pn : Int) (n prior : Nat) (t : Int) :
    (b.recordAck pn n t).state = .probeRtt ∧ b.onPacketAcked pn n prior t = b.recordAck pn n t ∨
    (b.recordAck pn n t).state ≠ .probeRtt ∧
      SameRecords ((b.recordAck pn n t).updateLastbandwidthFilter t).2 (b.onPacketAcked pn n prior t) := by
  unfold onPacketAcked
  dsimp only
  split
  · exact .inl ⟨‹_›, rfl⟩
  · exact .inr ⟨‹_›, (sameRecords_endRound _ _ _).trans (sameRecords_adjust _ _ _ _)⟩

theorem recordAck_sentTimes (pn : Int) (n : Nat) (t : Int) :
    (b.recordAck pn n t).sentTimes = Function.update b.sentTimes pn none := by
  exact ((sameRecords_mayExitProbeRTT _ t).trans (sameRecords_noteSample _ _ t)).sentTimes

theorem onPacketAcked_sentTimes (pn : Int) (n prior : Nat) (t : Int) :
    (b.onPacketAcked pn n prior t).sentTimes = Function.update b.sentTimes pn none := by
  obtain ⟨-, heq⟩ | ⟨-, hsame⟩ := sameRecords_onPacketAcked b pn n prior t
  · rw [heq]
    exact recordAck_sentTimes b pn n t
  rw [hsame.sentTimes]
  exact recordAck_sentTimes b pn n t

theorem hasPacingBudget_sentTimes (now : Int) : (b.hasPacingBudget now).2.sentTimes = b.sentTimes := by
  have hexit := (sameRecords_mayExitProbeRTT b now).sentTimes
  unfold hasPacingBudget
  dsimp only
  split <;> exact hexit

/-- The map of send times changes with sends and acknowledgements alone. -/
theorem keepsSendTimes : KeepsSendTimes algorithm Sender.sentTimes where
  onPacketSent _ _ _ _ _ _ := rfl
  onPacketAcked := onPacketAcked_sentTimes
  onCongestionEvent _ _ _ _ := rfl
  maybeExitSlowStart _ := rfl
  hasPacingBudget := hasPacingBudget_sentTimes
  setMaxDatagramSize _ _ := rfl
  onRetransmissionTimeout _ _ := rfl
  newCubicSender := rfl

end Sender

end MoqQuic.L2.Congestion.Bbrv1
