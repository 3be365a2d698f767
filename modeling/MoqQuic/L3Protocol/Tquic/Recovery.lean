import MoqQuic.Core.LTS
import MoqQuic.L2Machine.Tquic.RecvBuf
import MoqQuic.L2Machine.Tquic.Space

/-!
# Loss recovery of a path (`connection/recovery.rs`, `connection/rtt.rs`)

`Recovery` follows the packets that one path sends: it marks them as acknowledged
or lost, keeps the counters of what is in flight, estimates the round trip and
sets the timer for loss detection. The congestion controller, the pacer, the
statistics and the log are left out; none of them changes what is modelled here.

`Duration::mul_f64(time_thresh)` is a parameter. A packet counts as sent long
enough ago if `time_sent + loss_delay <= now`; the source subtracts `loss_delay`
from `now` instead.

Results:
* `ackRanges_sent`: an ACK marks exactly the packets of its ranges.
* `Balanced`: the counters are what the packets in the queue have in them, kept
  by every loop over the packets; when packets are acknowledged only if none of
  them was declared lost before.

Line numbers without a file are those of `recovery.rs`.
-/
namespace MoqQuic.L3.Tquic
open LTS L2.Tquic.Space List Option
open SentPacket (pktNum outstanding cost)
open L2.Tquic (Error Range RangeSet)

/-! ## Round trips (`rtt.rs`) -/

/-- mirrors lib.rs:130 -/
def timerGranularity : Nat := 1000000

structure RttEstimator where
  latestRtt : Nat
  smoothed : Option Nat
  rttvar : Nat
  minRtt : Nat
  maxRtt : Nat

namespace RttEstimator

/-- mirrors rtt.rs:44-52 -/
def new (initialRtt : Nat) : RttEstimator := ⟨initialRtt, none, initialRtt / 2, initialRtt, initialRtt⟩

/-- mirrors rtt.rs:55-57 -/
def smoothedRtt (r : RttEstimator) : Nat := r.smoothed.getD r.latestRtt

/-- mirrors rtt.rs:80-82 -/
def ptoBase (r : RttEstimator) : Nat := r.smoothedRtt + max (4 * r.rttvar) timerGranularity

/-- mirrors rtt.rs:106-134 -/
def update (r : RttEstimator) (ackDelay rtt : Nat) : RttEstimator :=
  match r.smoothed with
  | some smoothed =>
    let minRtt := min r.minRtt rtt
    let adjusted := if minRtt + ackDelay ≤ rtt then rtt - ackDelay else rtt
    let varSample := if smoothed > adjusted then smoothed - adjusted else adjusted - smoothed
    ⟨rtt, some ((7 * smoothed + adjusted) / 8), (3 * r.rttvar + varSample) / 4, minRtt, max r.maxRtt rtt⟩
  | none => ⟨rtt, some rtt, rtt / 2, rtt, rtt⟩

end RttEstimator

/-! ## Recovery -/

/-- mirrors connection.rs:4541-4550 -/
structure HandshakeStatus where
  derivedHandshakeKeys : Bool
  peerVerifiedAddress : Bool
  completed : Bool
  deriving DecidableEq

/-- The part of the configuration that is read here; `mulTimeThresh d` is `d.mul_f64(9.0 / 8.0)`. -/
structure RecoveryConfig where
  maxAckDelay : Nat
  ptoLinearFactor : Nat
  maxPto : Nat
  initialRtt : Nat
  mulTimeThresh : Nat → Nat

/-- The defaults, with a multiplication that does not round up. mirrors lib.rs:144-153, 862-888 -/
def RecoveryConfig.default : RecoveryConfig := ⟨0, 0, 2 ^ 64 * 10 ^ 9 - 1, 333000000, fun d => d * 9 / 8⟩

/-- mirrors :57-124 -/
structure Recovery where
  conf : RecoveryConfig
  ptoCount : Nat
  lossDetectionTimer : Option Nat
  pktThresh : Nat
  inFlight : InFlight
  rtt : RttEstimator

namespace Recovery

/-- mirrors :127-150 -/
def new (conf : RecoveryConfig) : Recovery := ⟨conf, 0, none, 3, 0, RttEstimator.new conf.initialRtt⟩

/-! ### Timers -/

/-- mirrors :675-679, 741-745 -/
def candidates (id : SpaceId) : List SpaceId :=
  if id ≠ .initial ∧ id ≠ .handshake then [.initial, .handshake, id] else [.initial, .handshake, .data]

/-- `<` on optional times, where `None` is the least. -/
def timeLt : Option Nat → Option Nat → Bool
  | none, some _ => true
  | some a, some b => a < b
  | _, none => false

/-- The earlier one of `best` and the loss time of a space. mirrors :684-692 -/
def earlierLoss (spaces : PacketNumSpaceMap) (best : Option Nat × SpaceId) (id : SpaceId) : Option Nat × SpaceId :=
  match spaces.get id with
  | none => best
  | some space =>
    if best.1.isNone ∨ space.lossTime.isSome ∧ timeLt space.lossTime best.1 then (space.lossTime, id) else best

/-- mirrors :670-696 -/
def getLossTimeAndSpace (id : SpaceId) (spaces : PacketNumSpaceMap) : Option Nat × SpaceId :=
  (candidates id).foldl (earlierLoss spaces) (none, .initial)

variable (r : Recovery)

/-- mirrors :700-702, 2_u32.saturating_pow -/
def backoff : Nat := min (2 ^ (r.ptoCount - r.conf.ptoLinearFactor)) (2 ^ 32 - 1)

/-- mirrors :699-708 -/
def calculatePto : Nat := min (r.rtt.ptoBase * r.backoff) r.conf.maxPto

/-- mirrors :711-720 -/
def ptoWithAckDelay (duration : Nat) : Nat :=
  min (duration + r.conf.maxAckDelay * r.backoff) r.conf.maxPto

/-- mirrors :772-775 -/
def earlierPto (best : Option Nat × SpaceId) (time : Option Nat) (id : SpaceId) : Option Nat × SpaceId :=
  if best.1.isNone ∨ timeLt time best.1 then (time, id) else best

/-- The loop over the candidates. mirrors :750-777 -/
def ptoLoop (r : Recovery) (spaces : PacketNumSpaceMap) (status : HandshakeStatus) :
    List SpaceId → Nat → Option Nat × SpaceId → Option Nat × SpaceId
  | [], _, best => best
  | id :: ids, duration, best =>
    match spaces.get id with
    | none => ptoLoop r spaces status ids duration best
    | some space =>
      if space.inFlight.ackEliciting = 0 then ptoLoop r spaces status ids duration best
      else if id = .data ∧ status.completed = false then best
      else
        let duration := if id = .data then r.ptoWithAckDelay duration else duration
        let newTime := space.timeOfLastSentAckElicitingPkt.map (· + duration)
        ptoLoop r spaces status ids duration (earlierPto best newTime id)

/-- mirrors :723-778 -/
def getPtoTimeAndSpace (id : SpaceId) (spaces : PacketNumSpaceMap) (status : HandshakeStatus)
    (now : Nat) : Option Nat × SpaceId :=
  if r.inFlight.ackEliciting = 0 then
    (some (now + r.calculatePto), if status.derivedHandshakeKeys then .handshake else .initial)
  else ptoLoop r spaces status (candidates id) r.calculatePto (none, .initial)

/-- mirrors :555-583 -/
def setLossDetectionTimer (id : SpaceId) (spaces : PacketNumSpaceMap) (status : HandshakeStatus)
    (now : Nat) : Recovery :=
  if (getLossTimeAndSpace id spaces).1.isSome then { r with lossDetectionTimer := (getLossTimeAndSpace id spaces).1 }
  else if r.inFlight.ackEliciting = 0 ∧ status.peerVerifiedAddress then { r with lossDetectionTimer := none }
  else { r with lossDetectionTimer := (r.getPtoTimeAndSpace id spaces status now).1 }

/-! ### Packets that are sent -/

/-- mirrors :160-225 -/
def onPacketSent (pkt : SentPacket) (id : SpaceId) (spaces : PacketNumSpaceMap)
    (status : HandshakeStatus) (now : Nat) : Recovery × PacketNumSpaceMap :=
  match spaces.get id with
  | none => (r, spaces)
  | some space =>
    let space := { space with sent := space.sent ++ [{ pkt with timeSent := now }] }
    if pkt.inFlight then
      let space := { space with
        timeOfLastSentAckElicitingPkt := if pkt.ackEliciting then some now else space.timeOfLastSentAckElicitingPkt
        lossProbes := if pkt.ackEliciting then space.lossProbes - 1 else space.lossProbes
        inFlight := space.inFlight + pkt.size }
      let spaces := spaces.set id space
      (setLossDetectionTimer { r with inFlight := r.inFlight + pkt.size } id spaces status now, spaces)
    else (r, spaces.set id space)

/-! ### Packets that are acknowledged -/

/-- The counters of path and space. -/
structure Counters where
  path : InFlight
  space : InFlight

/-- The packet leaves the flight. -/
def Counters.leave (c : Counters) (p : SentPacket) : Counters := ⟨c.path.remove p, c.space.remove p⟩

/-- The last packet that is newly acknowledged, whether one of them is ack-eliciting, and how many there are. -/
structure NewlyAcked where
  largestPktNum : Nat
  largestSentTime : Nat
  ackEliciting : Bool
  count : Nat

/-- `done`: the packets before the index of the loop; `rest`: those from it on. -/
structure AckScan where
  done : List SentPacket
  rest : List SentPacket
  counters : Counters
  newly : NewlyAcked

/-- The inner loop. mirrors :325-397 -/
def ackRange (now : Nat) (range : Range) : Counters → NewlyAcked → List SentPacket → AckScan
  | c, newly, [] => ⟨[], [], c, newly⟩
  | c, newly, p :: ps =>
    if p.pktNum < range.start ∨ p.timeAcked.isSome then
      let scan := ackRange now range c newly ps
      { scan with done := p :: scan.done }
    else if p.pktNum ≥ range.stop then ⟨[], p :: ps, c, newly⟩
    else
      let scan := ackRange now range (c.leave p)
        ⟨p.pktNum, p.timeSent, newly.ackEliciting || p.ackEliciting, newly.count + 1⟩ ps
      { scan with done := { p with timeAcked := some now } :: scan.done }

/-- The outer loop. mirrors :324-398 -/
def ackRanges (now : Nat) : List Range → Counters → NewlyAcked → List SentPacket → AckScan
  | [], c, newly, sent => ⟨[], sent, c, newly⟩
  | range :: ranges, c, newly, sent =>
    let first := ackRange now range c newly sent
    let scan := ackRanges now ranges first.counters first.newly first.rest
    { scan with done := first.done ++ scan.done }

/-- mirrors :312-410 -/
def detectAckedPackets (ranges : RangeSet) (space : PacketNumSpace) (now : Nat) :
    Recovery × PacketNumSpace × NewlyAcked × Option Nat :=
  let scan := ackRanges now ranges.ranges ⟨r.inFlight, space.inFlight⟩ ⟨0, now, false, 0⟩ space.sent
  let sample := if scan.newly.largestPktNum = space.largestAckedPkt ∧ scan.newly.ackEliciting then
    some (now - scan.newly.largestSentTime) else none
  ({ r with inFlight := scan.counters.path },
    { space with
      sent := scan.done ++ scan.rest
      inFlight := scan.counters.space
      acks := ranges :: space.acks },
    scan.newly, sample)

/-! ### Packets that are lost -/

structure LossScan where
  sent : List SentPacket
  counters : Counters
  lossTime : Option Nat
  lostPackets : Nat
  lostBytes : Nat

/-- mirrors :444-502 -/
def lossLoop (largest lossDelay pktThresh now : Nat) : Counters → Option Nat → Nat → Nat → List SentPacket → LossScan
  | c, lossTime, packets, bytes, [] => ⟨[], c, lossTime, packets, bytes⟩
  | c, lossTime, packets, bytes, p :: ps =>
    if p.pktNum > largest then ⟨p :: ps, c, lossTime, packets, bytes⟩
    else if p.timeAcked.isSome ∨ p.timeLost.isSome then
      let scan := lossLoop largest lossDelay pktThresh now c lossTime packets bytes ps
      { scan with sent := p :: scan.sent }
    else if p.timeSent + lossDelay ≤ now ∨ p.pktNum + pktThresh ≤ largest then
      let scan := lossLoop largest lossDelay pktThresh now (c.leave p) lossTime (packets + 1)
        (if p.inFlight then bytes + p.sentSize else bytes) ps
      { scan with sent := { p with timeLost := some now } :: scan.sent }
    else
      let time := p.timeSent + lossDelay
      let scan := lossLoop largest lossDelay pktThresh now c (some ((lossTime.map (min · time)).getD time)) packets
        bytes ps
      { scan with sent := p :: scan.sent }

/-- mirrors :439-441 -/
def lossDelay : Nat :=
  max (r.conf.mulTimeThresh (max r.rtt.latestRtt r.rtt.smoothedRtt)) timerGranularity

/-- mirrors :427-528 -/
def detectLostPackets (space : PacketNumSpace) (now : Nat) : Recovery × PacketNumSpace × Nat × Nat :=
  let scan :=
    lossLoop space.largestAckedPkt r.lossDelay r.pktThresh now ⟨r.inFlight, space.inFlight⟩ none 0 0 space.sent
  ({ r with inFlight := scan.counters.path },
    { space with sent := scan.sent, inFlight := scan.counters.space, lossTime := scan.lossTime },
    scan.lostPackets, scan.lostBytes)

/-- Acknowledged, or lost for longer than a round trip. mirrors :537-547 -/
def expired (now rtt : Nat) (p : SentPacket) : Bool :=
  (p.timeAcked.isSome || p.timeLost.isSome) && p.timeLost.all fun t => t + rtt ≤ now

/-- mirrors :534-550 -/
def drainSentPackets (space : PacketNumSpace) (now rtt : Nat) : PacketNumSpace :=
  { space with
    sent := space.sent.dropWhile (expired now rtt)
    removed := space.removed ++ space.sent.takeWhile (expired now rtt) }

/-- mirrors :272-286 -/
def updateRtt (ackDelay : Nat) : Option Nat → Recovery
  | some rtt => if rtt ≠ 0 then { r with rtt := r.rtt.update (1000 * ackDelay) rtt } else r
  | none => r

/-- `none`: the ranges are empty, for which the source panics. The pair has the number of packets and bytes that
are newly lost. mirrors :231-307 -/
def onAckReceived (ranges : RangeSet) (ackDelay : Nat) (id : SpaceId) (spaces : PacketNumSpaceMap)
    (status : HandshakeStatus) (now : Nat) : Option (Except Error ((Nat × Nat) × Recovery × PacketNumSpaceMap)) :=
  match spaces.get id with
  | none => some (.error .internalError)
  | some space => ranges.max.map fun largest =>
    let (r, space, newly, sample) := r.detectAckedPackets ranges (space.updateLargestAcked largest) now
    if newly.count = 0 then .ok ((0, 0), r, spaces.set id space)
    else
      let (r, space, lostPackets, lostBytes) := (r.updateRtt ackDelay sample).detectLostPackets space now
      let space := drainSentPackets space now r.rtt.smoothedRtt
      let spaces := spaces.set id space
      .ok ((lostPackets, lostBytes), setLossDetectionTimer { r with ptoCount := 0 } id spaces status now, spaces)

/-! ### Timeouts -/

/-- The space that is probed. mirrors :624-638 -/
def probedSpace (id : SpaceId) (spaces : PacketNumSpaceMap) (status : HandshakeStatus) (now : Nat) : SpaceId :=
  if r.inFlight.ackEliciting > 0 then (r.getPtoTimeAndSpace id spaces status now).2
  else if status.derivedHandshakeKeys then .handshake else .initial

/-- The frames that are sent again are left out. mirrors :595-667 -/
def onLossDetectionTimeout (id : SpaceId) (spaces : PacketNumSpaceMap) (status : HandshakeStatus)
    (now : Nat) : (Nat × Nat) × Recovery × PacketNumSpaceMap :=
  let (lossTime, sid) := getLossTimeAndSpace id spaces
  match spaces.get sid with
  | none => ((0, 0), r, spaces)
  | some space =>
    if lossTime.isSome then
      let (r, space, lostPackets, lostBytes) := r.detectLostPackets space now
      let spaces := spaces.set sid (drainSentPackets space now r.rtt.smoothedRtt)
      ((lostPackets, lostBytes), setLossDetectionTimer r id spaces status now, spaces)
    else
      let sid := r.probedSpace id spaces status now
      match spaces.get sid with
      | none => ((0, 0), r, spaces)
      | some space =>
        let r := { r with ptoCount := r.ptoCount + 1 }
        let spaces := spaces.set sid { space with lossProbes := if sid.isData then min r.ptoCount 2 else 1 }
        ((0, 0), setLossDetectionTimer r id spaces status now, spaces)

/-! ### Spaces that are discarded -/

/-- mirrors :818-829 -/
def removeFromBytesInFlight (space : PacketNumSpace) : Recovery :=
  { r with inFlight := space.sent.foldl (fun c p => if p.outstanding then c.remove p else c) r.inFlight }

/-- mirrors :785-812 -/
def onPktNumSpaceDiscarded (id : SpaceId) (spaces : PacketNumSpaceMap) (status : HandshakeStatus)
    (now : Nat) : Recovery × PacketNumSpaceMap :=
  match spaces.get id with
  | none => (r, spaces)
  | some space =>
    let spaces := spaces.set id { space with
      sent := []
      timeOfLastSentAckElicitingPkt := none
      lossTime := none
      lossProbes := 0
      inFlight := 0
      removed := [] }
    (setLossDetectionTimer (r.removeFromBytesInFlight space) id spaces status now, spaces)

/-! ## What the loops do -/

/-- The packet after an ACK of the numbers that `covers` accepts. -/
def markAcked (now : Nat) (covers : Nat → Bool) (p : SentPacket) : SentPacket :=
  if p.timeAcked.isNone && covers p.pktNum then { p with timeAcked := some now } else p

/-- The counters have what the packets of the queue contribute, and `x` and `y` besides. -/
structure Balanced (c : Counters) (sent : List SentPacket) (x y : InFlight) : Prop where
  path : c.path = load sent + x
  space : c.space = load sent + y

section Loops

variable {now : Nat} {range : Range} {c : Counters} {newly : NewlyAcked} {p : SentPacket} {sent : List SentPacket}
  {x y : InFlight}

theorem load_cons_add (z : InFlight) : load (p :: sent) + z = load sent + (p.cost + z) := by
  rw [load_cons, add_assoc, add_left_comm]

theorem balanced_cons : Balanced c (p :: sent) x y ↔ Balanced c sent (p.cost + x) (p.cost + y) :=
  ⟨fun h => ⟨h.path.trans (load_cons_add x), h.space.trans (load_cons_add y)⟩,
    fun h => ⟨h.path.trans (load_cons_add x).symm, h.space.trans (load_cons_add y).symm⟩⟩

theorem balanced_append {l : List SentPacket} :
    Balanced c (l ++ sent) x y ↔ Balanced c sent (load l + x) (load l + y) := by
  have hadd (z : InFlight) : load (l ++ sent) + z = load sent + (load l + z) := by
    rw [load_append, add_assoc, add_left_comm]
  exact ⟨fun h => ⟨h.path.trans (hadd x), h.space.trans (hadd y)⟩,
    fun h => ⟨h.path.trans (hadd x).symm, h.space.trans (hadd y).symm⟩⟩

/-- A packet that leaves is taken out of the counters, if that was not done before. -/
theorem Balanced.leave (h : Balanced c (p :: sent) x y) (hp : p.inFlight = true → p.outstanding = true) :
    Balanced (c.leave p) sent x y := by
  constructor
  · rw [Counters.leave, h.path, load_cons, add_assoc, remove_cost hp]
  · rw [Counters.leave, h.space, load_cons, add_assoc, remove_cost hp]

/-- A packet that is marked has nothing in the counters any more. -/
theorem Balanced.marked {p' : SentPacket} (h : Balanced c sent x y) (hp : p'.outstanding = false) :
    Balanced c (p' :: sent) x y := by
  rw [balanced_cons, cost, hp]
  exact ⟨h.path.trans (by simp), h.space.trans (by simp)⟩

/-! ### Acknowledgement -/

theorem ackRange_balanced (h : Balanced c sent x y)
    (hlate : ∀ p ∈ sent, p.timeAcked = none → p.pktNum ∈ range → p.inFlight = true → p.timeLost = none) :
    Balanced (ackRange now range c newly sent).counters
      ((ackRange now range c newly sent).done ++ (ackRange now range c newly sent).rest) x y := by
  induction sent generalizing c newly x y with
  | nil => exact h
  | cons p ps ih =>
    have hlate' := fun q hq => hlate q (mem_cons_of_mem p hq)
    rw [ackRange]
    split
    · exact balanced_cons.mpr (ih (balanced_cons.mp h) hlate')
    rename_i hskip
    split
    · exact h
    rename_i hstop
    rw [not_or, Bool.not_eq_true, isSome_eq_false_iff, isNone_iff_eq_none] at hskip
    have hout : p.inFlight = true → p.outstanding = true := by
      intro hp
      have hlost := hlate p mem_cons_self hskip.2 ⟨Nat.le_of_not_lt hskip.1, Nat.lt_of_not_le hstop⟩ hp
      rw [outstanding, hp, hskip.2, hlost]
      rfl
    refine (ih (h.leave hout) hlate').marked ?_
    simp [outstanding]

/-- The packets before the index are marked, those from it on are beyond the range. -/
theorem ackRange_sent (hsorted : (sent.map pktNum).Pairwise (· < ·)) (hne : range.start < range.stop) :
    ∃ pre, sent = pre ++ (ackRange now range c newly sent).rest ∧
      (ackRange now range c newly sent).done = pre.map (markAcked now fun n => n ∈ range) ∧
      (∀ p ∈ pre, p.timeAcked = none → p.pktNum < range.stop) ∧
      ∀ p ∈ (ackRange now range c newly sent).rest, range.stop ≤ p.pktNum := by
  induction sent generalizing c newly with
  | nil => exact ⟨[], rfl, rfl, fun p hp => absurd hp not_mem_nil, fun p hp => absurd hp not_mem_nil⟩
  | cons p ps ih =>
    obtain ⟨hhead, htail⟩ := pairwise_cons.mp hsorted
    rw [ackRange]
    split
    · next hskip =>
      obtain ⟨pre, hsent, hdone, hpre, hrest⟩ := @ih c newly htail
      refine ⟨p :: pre, by rw [cons_append, ← hsent], ?_, fun q hq hnone => ?_, hrest⟩
      · have hsame : markAcked now (fun n => n ∈ range) p = p := by
          rw [markAcked, if_neg]
          rw [Bool.and_eq_true, decide_eq_true_iff, Range.mem_def, isNone_iff_eq_none]
          rintro ⟨hnone, hin⟩
          rw [hnone] at hskip
          rcases hskip with hlt | hsome
          · omega
          · cases hsome
        exact congrArg₂ List.cons hsame.symm hdone
      rcases mem_cons.mp hq with rfl | hq
      · rw [hnone] at hskip
        rcases hskip with hlt | hsome
        · omega
        · cases hsome
      · exact hpre q hq hnone
    rename_i hskip
    split
    · next hstop =>
      exact ⟨[], rfl, rfl, fun q hq => absurd hq not_mem_nil,
        forall_mem_cons.mpr ⟨hstop, fun q hq => hstop.trans (hhead _ (mem_map_of_mem hq)).le⟩⟩
    rename_i hstop
    rw [not_or, Bool.not_eq_true, isSome_eq_false_iff, isNone_iff_eq_none] at hskip
    obtain ⟨pre, hsent, hdone, hpre, hrest⟩ := @ih (c.leave p)
      ⟨p.pktNum, p.timeSent, newly.ackEliciting || p.ackEliciting, newly.count + 1⟩ htail
    refine ⟨p :: pre, by rw [cons_append, ← hsent], ?_, fun q hq hnone => ?_, hrest⟩
    · have hmark : markAcked now (fun n => n ∈ range) p = { p with timeAcked := some now } := by
        rw [markAcked, if_pos]
        rw [Bool.and_eq_true, decide_eq_true_iff, Range.mem_def, isNone_iff_eq_none]
        exact ⟨hskip.2, by omega⟩
      exact congrArg₂ List.cons hmark.symm hdone
    rcases mem_cons.mp hq with rfl | hq
    · omega
    · exact hpre q hq hnone

theorem markAcked_congr {f g : Nat → Bool} (h : p.timeAcked = none → f p.pktNum = g p.pktNum) :
    markAcked now f p = markAcked now g p := by
  rw [markAcked, markAcked]
  cases hp : p.timeAcked with
  | some t => rfl
  | none => rw [h hp]

/-- An ACK marks exactly the packets of its ranges. -/
theorem ackRanges_sent {ranges : List Range} (hsorted : (sent.map pktNum).Pairwise (· < ·))
    (hranges : ranges.Pairwise fun a b => a.stop < b.start) (hne : ∀ r ∈ ranges, r.start < r.stop) :
    (ackRanges now ranges c newly sent).done ++ (ackRanges now ranges c newly sent).rest =
      sent.map (markAcked now fun n => ranges.any fun r => n ∈ r) := by
  induction ranges generalizing c newly sent with
  | nil => exact (map_id'' (fun p => by simp [markAcked]) sent).symm
  | cons r rs ih =>
    obtain ⟨hafter, hrs⟩ := pairwise_cons.mp hranges
    obtain ⟨pre, hsent, hdone, hpre, hrest⟩ := @ackRange_sent now r c newly sent hsorted (hne r mem_cons_self)
    rw [ackRanges]
    rw [hsent, map_append, pairwise_append] at hsorted
    rw [append_assoc, ih hsorted.2.1 hrs fun r hr => hne r (mem_cons_of_mem _ hr), hdone]
    conv_rhs => rw [hsent, map_append]
    congr 1
    · refine map_congr_left fun p hp => markAcked_congr fun hnone => ?_
      -- `p` is before the end of `r`, so none of the later ranges has it
      have hlt := hpre p hp hnone
      rw [any_cons]
      cases hin : decide (p.pktNum ∈ r) with
      | true => rfl
      | false =>
        refine (any_eq_false.mpr fun r' hr' => ?_).symm
        have := hafter r' hr'
        rw [decide_eq_true_iff, Range.mem_def]
        omega
    refine map_congr_left fun p hp => markAcked_congr fun _ => ?_
    have hge := hrest p hp
    rw [any_cons, decide_eq_false (by rw [Range.mem_def]; omega), Bool.false_or]

theorem ackRanges_balanced {ranges : List Range} (hsorted : (sent.map pktNum).Pairwise (· < ·))
    (hne : ∀ r ∈ ranges, r.start < r.stop) (h : Balanced c sent x y)
    (hlate : ∀ p ∈ sent, p.timeAcked = none → (∃ r ∈ ranges, p.pktNum ∈ r) → p.inFlight = true → p.timeLost = none) :
    Balanced (ackRanges now ranges c newly sent).counters
      ((ackRanges now ranges c newly sent).done ++ (ackRanges now ranges c newly sent).rest) x y := by
  induction ranges generalizing c newly sent x y with
  | nil => exact h
  | cons r rs ih =>
    have hfirst := @ackRange_balanced now r c newly sent x y h fun p hp hnone hin =>
      hlate p hp hnone ⟨r, mem_cons_self, hin⟩
    obtain ⟨pre, hsent, -, -, -⟩ := @ackRange_sent now r c newly sent hsorted (hne r mem_cons_self)
    rw [hsent, map_append, pairwise_append] at hsorted
    rw [ackRanges]
    rw [append_assoc, balanced_append] at *
    refine ih hsorted.2.1 (fun r hr => hne r (mem_cons_of_mem _ hr)) hfirst fun p hp hnone ⟨r', hr', hin⟩ => ?_
    exact hlate p (hsent ▸ mem_append_right _ hp) hnone ⟨r', mem_cons_of_mem _ hr', hin⟩

/-! ### Loss -/

section Loss

variable {largest lossDelay pktThresh packets bytes : Nat} {lossTime : Option Nat}

/-- Only packets that have something in the counters leave. -/
theorem lossLoop_balanced (h : Balanced c sent x y) :
    Balanced (lossLoop largest lossDelay pktThresh now c lossTime packets bytes sent).counters
      (lossLoop largest lossDelay pktThresh now c lossTime packets bytes sent).sent x y := by
  induction sent generalizing c lossTime packets bytes x y with
  | nil => exact h
  | cons p ps ih =>
    rw [lossLoop]
    split
    · exact h
    split
    · exact balanced_cons.mpr (ih (balanced_cons.mp h))
    rename_i hopen
    rw [not_or, Bool.not_eq_true, isSome_eq_false_iff, Bool.not_eq_true, isSome_eq_false_iff] at hopen
    split
    · refine Balanced.marked (ih (h.leave fun hp => ?_)) ?_
      · rw [outstanding, hp, hopen.1, hopen.2]
        rfl
      · simp [outstanding]
    · exact balanced_cons.mpr (ih (balanced_cons.mp h))

theorem lossLoop_pktNum :
    (lossLoop largest lossDelay pktThresh now c lossTime packets bytes sent).sent.map pktNum =
      sent.map pktNum := by
  induction sent generalizing c lossTime packets bytes with
  | nil => rfl
  | cons p ps ih =>
    rw [lossLoop]
    split
    · rfl
    split
    · exact congrArg (List.cons p.pktNum) ih
    split <;> exact congrArg (List.cons p.pktNum) ih

/-- A packet stays as it is or becomes a lost one. -/
theorem mem_lossLoop (hp : p ∈ (lossLoop largest lossDelay pktThresh now c lossTime packets bytes sent).sent) :
    p ∈ sent ∨ ∃ q ∈ sent, p = { q with timeLost := some now } := by
  induction sent generalizing c lossTime packets bytes with
  | nil => exact .inl hp
  | cons q qs ih =>
    have hcons : (p ∈ qs ∨ ∃ q' ∈ qs, p = { q' with timeLost := some now }) →
        p ∈ q :: qs ∨ ∃ q' ∈ q :: qs, p = { q' with timeLost := some now } := by
      rintro (hp | ⟨q', hq', hp⟩)
      · exact .inl (mem_cons_of_mem _ hp)
      · exact .inr ⟨q', mem_cons_of_mem _ hq', hp⟩
    rw [lossLoop] at hp
    split at hp
    · exact .inl hp
    split at hp
    · rcases mem_cons.mp hp with rfl | hp
      · exact .inl mem_cons_self
      · exact hcons (ih hp)
    split at hp
    · rcases mem_cons.mp hp with rfl | hp
      · exact .inr ⟨q, mem_cons_self, rfl⟩
      · exact hcons (ih hp)
    rcases mem_cons.mp hp with rfl | hp
    · exact .inl mem_cons_self
    · exact hcons (ih hp)

end Loss

theorem done_of_expired {rtt : Nat} (h : expired now rtt p = true) :
    p.timeAcked.isSome = true ∨ p.timeLost.isSome = true := by
  rw [expired, Bool.and_eq_true, Bool.or_eq_true] at h
  exact h.1

theorem outstanding_of_done (h : p.timeAcked.isSome = true ∨ p.timeLost.isSome = true) : p.outstanding = false := by
  rw [outstanding]
  rcases h with h | h
  · rw [isNone_eq_false_iff.mpr h, Bool.and_false, Bool.false_and]
  · rw [isNone_eq_false_iff.mpr h, Bool.and_false]

/-- What is drained has nothing in the counters. -/
theorem load_dropWhile_expired (rtt : Nat) : load (sent.dropWhile (expired now rtt)) = load sent := by
  have hzero : load (sent.takeWhile (expired now rtt)) = 0 :=
    load_eq_zero fun p hp => outstanding_of_done (done_of_expired (all_eq_true.mp all_takeWhile p hp))
  calc load (sent.dropWhile (expired now rtt))
      = load (sent.takeWhile (expired now rtt)) + load (sent.dropWhile (expired now rtt)) := by rw [hzero, zero_add]
    _ = load sent := by rw [← load_append, takeWhile_append_dropWhile]

/-! ### Discarding -/

theorem foldl_remove_outstanding (x : InFlight) :
    sent.foldl (fun c p => if p.outstanding then c.remove p else c) (load sent + x) = x := by
  induction sent with
  | nil => exact zero_add x
  | cons p ps ih =>
    rw [foldl_cons, load_cons, add_assoc]
    split
    · next ho => rw [remove_cost fun _ => ho, ih]
    · next ho =>
      rw [cost, if_neg ho, zero_add, ih]

end Loops

end Recovery

end MoqQuic.L3.Tquic
