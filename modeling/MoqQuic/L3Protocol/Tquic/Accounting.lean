import Mathlib.Algebra.Order.Ring.Int
import MoqQuic.L3Protocol.Tquic.Recovery

/-!
# Runs of loss recovery (`connection/recovery.rs`, `connection/connection.rs`)

The calls that a connection makes on the recovery of one path: packets are sent
under the next number of their space, ACK frames and timeouts arrive in any
order, and spaces are discarded.

A packet that was declared lost stays in the queue for a round trip, in case its
ACK arrives late. `detect_acked_packets` passes over packets that were
acknowledged before, but not over those that were declared lost, so such a
packet is taken out of the counters a second time.

Results:
* `in_flight_exact`: the counters are exact in every run in which no ACK covers
  a packet in flight that was declared lost and is still in the queue.
* `late_ack_counts_twice`: a run in which one does.
-/
namespace MoqQuic.L3.Tquic
open LTS L2.Tquic.Space List Recovery InFlight
open Recovery (candidates markAcked earlierPto)
open L2.Tquic (Error Range RangeSet)

structure PathRecovery where
  recovery : Recovery
  spaces : PacketNumSpaceMap

inductive RecoveryCall where
  | packetSent (id : SpaceId) (ackEliciting inFlight : Bool) (sentSize : Nat) (status : HandshakeStatus) (now : Nat)
  | ackReceived (id : SpaceId) (ranges : RangeSet) (ackDelay : Nat) (status : HandshakeStatus) (now : Nat)
  | lossDetectionTimeout (id : SpaceId) (status : HandshakeStatus) (now : Nat)
  | spaceDiscarded (id : SpaceId) (status : HandshakeStatus) (now : Nat)

namespace PathRecovery

def new (conf : RecoveryConfig) (extra : Nat) : PathRecovery := ⟨Recovery.new conf, PacketNumSpaceMap.new extra⟩

/-- The source counts the number up after `on_packet_sent`, which does not read it.
mirrors connection.rs:1869-1902 -/
def sendPacket (s : PathRecovery) (id : SpaceId) (ackEliciting inFlight : Bool) (sentSize : Nat)
    (status : HandshakeStatus) (now : Nat) : PathRecovery :=
  match s.spaces.get id with
  | none => s
  | some space =>
    let spaces := s.spaces.set id { space with nextPktNum := space.nextPktNum + 1 }
    let done := s.recovery.onPacketSent
      ⟨space.nextPktNum, now, none, none, ackEliciting, inFlight, sentSize⟩ id spaces status now
    ⟨done.1, done.2⟩

/-- `none`: an ACK without ranges. -/
def step (s : PathRecovery) : RecoveryCall → Option PathRecovery
  | .packetSent id ackEliciting inFlight sentSize status now =>
    some (s.sendPacket id ackEliciting inFlight sentSize status now)
  | .ackReceived id ranges ackDelay status now =>
    (s.recovery.onAckReceived ranges ackDelay id s.spaces status now).map fun
      | .ok (_, recovery, spaces) => ⟨recovery, spaces⟩
      | .error _ => s
  | .lossDetectionTimeout id status now =>
    let done := s.recovery.onLossDetectionTimeout id s.spaces status now
    some ⟨done.2.1, done.2.2⟩
  | .spaceDiscarded id status now =>
    let done := s.recovery.onPktNumSpaceDiscarded id s.spaces status now
    some ⟨done.1, done.2⟩

end PathRecovery

/-! ## What is to be counted -/

/-- An ACK for the number was processed. -/
def acknowledged (s : PacketNumSpace) (n : Nat) : Bool := s.acks.any fun r => r.contains n

/-- The packets in flight, of all that were sent in the space, that were neither acknowledged nor declared lost. -/
def unresolved (s : PacketNumSpace) : List SentPacket :=
  (s.removed ++ s.sent).filter fun p => p.inFlight && !acknowledged s p.pktNum && p.timeLost.isNone

/-! ## The invariant of a space -/

/-- With `sentOnly` every ACK so far was for packets that had been sent. -/
structure Counted (sentOnly : Prop) (s : PacketNumSpace) : Prop where
  sorted : (s.sent.map SentPacket.pktNum).Pairwise (· < ·)
  lt_next : ∀ p ∈ s.sent, p.pktNum < s.nextPktNum
  inFlight_eq : s.inFlight = load s.sent
  removed_done : ∀ p ∈ s.removed, p.timeAcked.isSome = true ∨ p.timeLost.isSome = true
  acked : ∀ p ∈ s.removed ++ s.sent, p.timeAcked.isSome = true → acknowledged s p.pktNum = true
  last_sent : ∀ p ∈ s.sent, p.outstanding = true → p.ackEliciting = true →
    s.timeOfLastSentAckElicitingPkt.isSome = true
  heard : sentOnly → ∀ p ∈ s.sent, acknowledged s p.pktNum = true → p.timeAcked.isSome = true
  acked_lt : sentOnly → ∀ n, acknowledged s n = true → n < s.nextPktNum

/-- The space is counted, and the path counts it and `x` besides. -/
structure Fits (sentOnly : Prop) (r : Recovery) (s : PacketNumSpace) (x : InFlight) : Prop where
  counted : Counted sentOnly s
  path : r.inFlight = load s.sent + x

theorem counted_of_nil {sentOnly : Prop} {s : PacketNumSpace} (hsent : s.sent = []) (hremoved : s.removed = [])
    (hflight : s.inFlight = 0) (hlt : sentOnly → ∀ n, acknowledged s n = true → n < s.nextPktNum) :
    Counted sentOnly s := by
  constructor <;> simp_all

theorem counted_new (sentOnly : Prop) : Counted sentOnly PacketNumSpace.new :=
  counted_of_nil rfl rfl rfl fun _ _ hn => by cases hn

namespace Fits

variable {sentOnly : Prop} {r : Recovery} {s : PacketNumSpace} {x : InFlight} {now : Nat}

theorem balanced (h : Fits sentOnly r s x) : Recovery.Balanced ⟨r.inFlight, s.inFlight⟩ s.sent x 0 :=
  ⟨h.path, h.counted.inFlight_eq.trans (add_zero _).symm⟩

/-- A packet under the next number. -/
theorem sent (h : Fits sentOnly r s x) (p : SentPacket) (hnum : p.pktNum = s.nextPktNum) (hacked : p.timeAcked = none)
    (hlost : p.timeLost = none) {last : Option Nat} {probes : Nat}
    (hlast : if p.inFlight && p.ackEliciting then last.isSome = true else last = s.timeOfLastSentAckElicitingPkt) :
    Fits sentOnly { r with inFlight := r.inFlight + p.cost } { s with
      sent := s.sent ++ [p]
      inFlight := s.inFlight + p.cost
      timeOfLastSentAckElicitingPkt := last
      lossProbes := probes
      nextPktNum := s.nextPktNum + 1 } x := by
  have hc := h.counted
  have hload : load (s.sent ++ [p]) = load s.sent + p.cost := by
    rw [load_append, load_cons, load_nil, add_zero]
  refine ⟨⟨?_, fun q hq => ?_, ?_, hc.removed_done, fun q hq hsome => ?_, fun q hq hout hae => ?_,
    fun hb q hq hack => ?_, fun hb n hn => Nat.lt_succ_of_lt (hc.acked_lt hb n hn)⟩, ?_⟩
  · rw [map_append, pairwise_append]
    refine ⟨hc.sorted, pairwise_singleton _ _, fun n hn m hm => ?_⟩
    obtain ⟨q, hq, rfl⟩ := mem_map.mp hn
    obtain rfl : m = p.pktNum := by simpa using hm
    rw [hnum]
    exact hc.lt_next q hq
  · dsimp only
    rcases mem_append.mp hq with hq | hq
    · exact Nat.lt_succ_of_lt (hc.lt_next q hq)
    obtain rfl := mem_singleton.mp hq
    omega
  · rw [hload, hc.inFlight_eq]
  · rw [← append_assoc] at hq
    rcases mem_append.mp hq with hq | hq
    · exact hc.acked q hq hsome
    obtain rfl := mem_singleton.mp hq
    rw [hacked] at hsome
    cases hsome
  · split at hlast
    · exact hlast
    rename_i hno
    rcases mem_append.mp hq with hq | hq
    · rw [hlast]
      exact hc.last_sent q hq hout hae
    obtain rfl := mem_singleton.mp hq
    rw [SentPacket.outstanding, hacked, hlost] at hout
    exact absurd (by simpa [hae] using hout) hno
  · rcases mem_append.mp hq with hq | hq
    · exact hc.heard hb q hq hack
    obtain rfl := mem_singleton.mp hq
    exact absurd (hc.acked_lt hb _ hack) (by omega)
  · rw [hload, h.path, add_right_comm]

theorem updateLargestAcked (h : Fits sentOnly r s x) (largest : Nat) :
    Fits sentOnly r (s.updateLargestAcked largest) x :=
  ⟨⟨h.counted.sorted, h.counted.lt_next, h.counted.inFlight_eq, h.counted.removed_done, h.counted.acked,
    h.counted.last_sent, h.counted.heard, h.counted.acked_lt⟩, h.path⟩

theorem mem_markAcked {ranges : RangeSet} {l : List SentPacket} {p : SentPacket}
    (hp : p ∈ l.map (markAcked now fun n => ranges.ranges.any fun r => n ∈ r)) :
    (p ∈ l ∧ (p.pktNum ∈ ranges → p.timeAcked.isSome = true)) ∨
      ∃ q ∈ l, q.timeAcked = none ∧ q.pktNum ∈ ranges ∧ p = { q with timeAcked := some now } := by
  obtain ⟨q, hq, rfl⟩ := mem_map.mp hp
  rw [markAcked]
  split
  · next hmark =>
    rw [Bool.and_eq_true, Option.isNone_iff_eq_none, any_eq_true] at hmark
    obtain ⟨hnone, range, hrange, hin⟩ := hmark
    exact .inr ⟨q, hq, hnone, RangeSet.mem_iff_ranges.mpr ⟨range, hrange, of_decide_eq_true hin⟩, rfl⟩
  rename_i hmark
  refine .inl ⟨hq, fun hin => ?_⟩
  obtain ⟨range, hrange, hin⟩ := RangeSet.mem_iff_ranges.mp hin
  by_contra hnone
  rw [Bool.and_eq_true, not_and, any_eq_true] at hmark
  exact hmark (by simpa using hnone) ⟨range, hrange, decide_eq_true hin⟩

theorem map_markAcked_pktNum (covers : Nat → Bool) (l : List SentPacket) :
    (l.map (markAcked now covers)).map SentPacket.pktNum = l.map SentPacket.pktNum := by
  rw [map_map]
  refine map_congr_left fun p _ => ?_
  rw [Function.comp_apply, markAcked]
  split <;> rfl

variable (h : Fits sentOnly r s x)
include h

/-- A packet that is outstanding after an ACK is as it was before. -/
theorem mem_of_outstanding {ranges : RangeSet} :
    ∀ p ∈ (r.detectAckedPackets ranges s now).2.1.sent, p.outstanding = true → p ∈ s.sent := by
  intro p hp hout
  rw [Recovery.detectAckedPackets] at hp
  rw [ackRanges_sent h.counted.sorted ranges.pairwise_ranges fun range hr => RangeSet.start_lt_stop hr] at hp
  rcases mem_markAcked hp with ⟨hp, -⟩ | ⟨q, hq, -, -, rfl⟩
  · exact hp
  rw [outstanding_of_done (.inl rfl)] at hout
  cases hout

/-- Packets are acknowledged, none of which was declared lost while in flight. -/
theorem detectAcked {ranges : RangeSet}
    (hlate : ∀ p ∈ s.sent, p.timeAcked = none → p.pktNum ∈ ranges → p.inFlight = true → p.timeLost = none)
    (hover : sentOnly → ∀ n ∈ ranges, n < s.nextPktNum) :
    Fits sentOnly (r.detectAckedPackets ranges s now).1 (r.detectAckedPackets ranges s now).2.1 x := by
  have hc := h.counted
  have hne : ∀ range ∈ ranges.ranges, range.start < range.stop := fun range hr => RangeSet.start_lt_stop hr
  have hbalanced := @ackRanges_balanced now ⟨r.inFlight, s.inFlight⟩ ⟨0, now, false, 0⟩ s.sent x 0 ranges.ranges
    hc.sorted hne h.balanced fun p hp hnone hin => hlate p hp hnone (RangeSet.mem_iff_ranges.mpr hin)
  have hsent := @ackRanges_sent now ⟨r.inFlight, s.inFlight⟩ ⟨0, now, false, 0⟩ s.sent ranges.ranges
    hc.sorted ranges.pairwise_ranges hne
  rw [Recovery.detectAckedPackets]
  rw [hsent] at hbalanced ⊢
  have hacks : ∀ n, (ranges :: s.acks).any (fun r => r.contains n) = true ↔ n ∈ ranges ∨ acknowledged s n = true := by
    intro n
    rw [any_cons, Bool.or_eq_true, RangeSet.contains_iff, acknowledged]
  refine ⟨⟨?_, fun p hp => ?_, hbalanced.space.trans (add_zero _), hc.removed_done, fun p hp hsome => (hacks _).mpr ?_,
    fun p hp hout hae => ?_, fun hb p hp hack => ?_, fun hb n hn => ?_⟩, hbalanced.path⟩
  · rw [map_markAcked_pktNum]
    exact hc.sorted
  · rcases mem_markAcked hp with ⟨hp, -⟩ | ⟨q, hq, -, -, rfl⟩
    · exact hc.lt_next p hp
    · exact hc.lt_next q hq
  · rcases mem_append.mp hp with hp | hp
    · exact .inr (hc.acked p (mem_append_left _ hp) hsome)
    rcases mem_markAcked hp with ⟨hp, -⟩ | ⟨q, hq, -, hin, rfl⟩
    · exact .inr (hc.acked p (mem_append_right _ hp) hsome)
    · exact .inl hin
  · rcases mem_markAcked hp with ⟨hp, -⟩ | ⟨q, hq, -, -, rfl⟩
    · exact hc.last_sent p hp hout hae
    rw [outstanding_of_done (.inl rfl)] at hout
    cases hout
  · rcases mem_markAcked hp with ⟨hp, hin⟩ | ⟨q, hq, -, -, rfl⟩
    · exact ((hacks _).mp hack).elim hin (hc.heard hb p hp)
    · rfl
  · exact ((hacks n).mp hn).elim (hover hb n) (hc.acked_lt hb n)

theorem detectLost : Fits sentOnly (r.detectLostPackets s now).1 (r.detectLostPackets s now).2.1 x := by
  have hc := h.counted
  have hbalanced := @lossLoop_balanced now ⟨r.inFlight, s.inFlight⟩ s.sent x 0 s.largestAckedPkt r.lossDelay
    r.pktThresh 0 0 none h.balanced
  have hnum := @lossLoop_pktNum now ⟨r.inFlight, s.inFlight⟩ s.sent s.largestAckedPkt r.lossDelay r.pktThresh 0 0 none
  have hmem := fun p => @mem_lossLoop now ⟨r.inFlight, s.inFlight⟩ p s.sent s.largestAckedPkt r.lossDelay
    r.pktThresh 0 0 none
  rw [Recovery.detectLostPackets]
  refine ⟨⟨?_, fun p hp => ?_, hbalanced.space.trans (add_zero _), hc.removed_done, fun p hp hsome => ?_,
    fun p hp hout hae => ?_, fun hb p hp hack => ?_, hc.acked_lt⟩, hbalanced.path⟩
  · rw [hnum]
    exact hc.sorted
  · rcases hmem p hp with hp | ⟨q, hq, rfl⟩
    · exact hc.lt_next p hp
    · exact hc.lt_next q hq
  · rcases mem_append.mp hp with hp | hp
    · exact hc.acked p (mem_append_left _ hp) hsome
    rcases hmem p hp with hp | ⟨q, hq, rfl⟩
    · exact hc.acked p (mem_append_right _ hp) hsome
    · exact hc.acked q (mem_append_right _ hq) hsome
  · rcases hmem p hp with hp | ⟨q, hq, rfl⟩
    · exact hc.last_sent p hp hout hae
    rw [outstanding_of_done (.inr rfl)] at hout
    cases hout
  rcases hmem p hp with hp | ⟨q, hq, rfl⟩
  · exact hc.heard hb p hp hack
  · exact hc.heard hb q hq hack

/-- What is drained moves from the queue to the removed packets. -/
theorem drain (rtt : Nat) : Fits sentOnly r (Recovery.drainSentPackets s now rtt) x := by
  have hc := h.counted
  have hsub : ∀ p ∈ s.sent.dropWhile (Recovery.expired now rtt), p ∈ s.sent := fun p hp =>
    (dropWhile_suffix _).mem hp
  have hload := @load_dropWhile_expired now s.sent rtt
  refine ⟨⟨?_, fun p hp => hc.lt_next p (hsub p hp), ?_, fun p hp => ?_, fun p hp hsome => hc.acked p ?_ hsome,
    fun p hp => hc.last_sent p (hsub p hp), fun hb p hp => hc.heard hb p (hsub p hp), hc.acked_lt⟩, ?_⟩
  · exact hc.sorted.sublist ((dropWhile_sublist _).map _)
  · exact hc.inFlight_eq.trans hload.symm
  · rcases mem_append.mp hp with hp | hp
    · exact hc.removed_done p hp
    · exact done_of_expired (all_eq_true.mp all_takeWhile p hp)
  · rw [Recovery.drainSentPackets] at hp
    rwa [append_assoc, takeWhile_append_dropWhile] at hp
  · exact h.path.trans (congrArg (· + x) hload.symm)

/-- A space that is discarded starts again without packets. -/
theorem discard : Fits sentOnly (r.removeFromBytesInFlight s) { s with
    sent := []
    timeOfLastSentAckElicitingPkt := none
    lossTime := none
    lossProbes := 0
    inFlight := 0
    removed := [] } x where
  counted := counted_of_nil rfl rfl rfl h.counted.acked_lt
  path := by
    rw [Recovery.removeFromBytesInFlight, h.path]
    exact (foldl_remove_outstanding x).trans (zero_add x).symm

theorem of_inFlight {r' : Recovery} (hr : r'.inFlight = r.inFlight) : Fits sentOnly r' s x :=
  ⟨h.counted, hr.trans h.path⟩

end Fits

/-! ## The invariant of a path -/

namespace PathRecovery

structure Inv (sentOnly : Prop) (s : PathRecovery) : Prop where
  counted : ∀ e ∈ s.spaces, Counted sentOnly e.2
  path : s.recovery.inFlight = s.spaces.totalLoad

/-- ACK ranges are for packets that were sent. -/
def OverSent (s : PathRecovery) : RecoveryCall → Prop
  | .ackReceived id ranges _ _ _ => ∀ space, s.spaces.get id = some space → ∀ n ∈ ranges, n < space.nextPktNum
  | _ => True

/-- No packet in flight is acknowledged that was declared lost and is still in the queue. -/
def NotLate (s : PathRecovery) : RecoveryCall → Prop
  | .ackReceived id ranges _ _ _ => ∀ space, s.spaces.get id = some space → ∀ p ∈ space.sent,
      p.timeAcked = none → p.pktNum ∈ ranges → p.inFlight = true → p.timeLost = none
  | _ => True

variable {sentOnly : Prop} {s s' : PathRecovery} {id : SpaceId} {space : PacketNumSpace}

theorem inv_new (sentOnly : Prop) (conf : RecoveryConfig) (extra : Nat) : Inv sentOnly (new conf extra) where
  counted := fun _ he => PacketNumSpaceMap.mem_new he ▸ counted_new sentOnly
  path := (PacketNumSpaceMap.totalLoad_new extra).symm

/-- The part of the path's counters that is not from one space stays the same while only that space changes. -/
theorem Inv.fits (h : Inv sentOnly s) (hget : s.spaces.get id = some space) : ∃ x, Fits sentOnly s.recovery space x ∧
      ∀ r' space', Fits sentOnly r' space' x → Inv sentOnly ⟨r', s.spaces.set id space'⟩ := by
  obtain ⟨x, hsplit, hset⟩ := PacketNumSpaceMap.totalLoad_split hget
  refine ⟨x, ⟨h.counted _ (PacketNumSpaceMap.mem_of_get hget), h.path.trans hsplit⟩, fun r' space' hfits => ⟨?_, ?_⟩⟩
  · intro e he
    rcases (PacketNumSpaceMap.mem_set hget).mp he with rfl | ⟨he, -⟩
    · exact hfits.counted
    · exact h.counted e he
  · exact hfits.path.trans (hset space').symm

/-- What a call leaves: the invariant, with the timer set anew or as it was. -/
structure Outcome (sentOnly : Prop) (s : PathRecovery) (id : SpaceId) (status : HandshakeStatus) (now : Nat)
    (touched : List SpaceId) (s' : PathRecovery) : Prop where
  inv : Inv sentOnly s'
  others : ∀ e ∈ s'.spaces, e ∈ s.spaces ∨ ∃ id' ∈ touched, e.1 = id'.key
  timer : (∃ r : Recovery, r.inFlight = s'.recovery.inFlight ∧
      s'.recovery = r.setLossDetectionTimer id s'.spaces status now) ∨
    s'.recovery.lossDetectionTimer = s.recovery.lossDetectionTimer ∧
      (0 < s'.recovery.inFlight.ackEliciting → 0 < s.recovery.inFlight.ackEliciting)

theorem setLossDetectionTimer_inFlight (r : Recovery) (spaces : PacketNumSpaceMap) (status : HandshakeStatus)
    (now : Nat) : (r.setLossDetectionTimer id spaces status now).inFlight = r.inFlight := by
  unfold Recovery.setLossDetectionTimer
  split
  · rfl
  · split <;> rfl

variable {status : HandshakeStatus} {now : Nat}

theorem Outcome.same (h : Inv sentOnly s) (touched : List SpaceId) : Outcome sentOnly s id status now touched s :=
  ⟨h, fun _ he => .inl he, .inr ⟨rfl, fun hpos => hpos⟩⟩

theorem others_set {space' : PacketNumSpace} (hget : s.spaces.get id = some space) {touched : List SpaceId}
    (hid : id ∈ touched) : ∀ e ∈ s.spaces.set id space', e ∈ s.spaces ∨ ∃ id' ∈ touched, e.1 = id'.key := by
  intro e he
  rcases (PacketNumSpaceMap.mem_set hget).mp he with rfl | ⟨he, -⟩
  · exact .inr ⟨id, hid, rfl⟩
  · exact .inl he

/-- One space is replaced and the timer is set anew. -/
theorem Outcome.rearm {r : Recovery} {space' : PacketNumSpace} {touched : List SpaceId}
    (hget : s.spaces.get id = some space) (hinv : Inv sentOnly ⟨r, s.spaces.set id space'⟩) (hid : id ∈ touched)
    (timerId : SpaceId) : Outcome sentOnly s timerId status now touched
      ⟨r.setLossDetectionTimer timerId (s.spaces.set id space') status now, s.spaces.set id space'⟩ :=
  ⟨⟨hinv.counted, (setLossDetectionTimer_inFlight ..).trans hinv.path⟩, others_set hget hid,
    .inl ⟨r, (setLossDetectionTimer_inFlight ..).symm, rfl⟩⟩

/-! ## What each call leaves -/

theorem sendPacket_outcome (h : Inv sentOnly s) (ackEliciting inFlight : Bool) (sentSize : Nat) :
    Outcome sentOnly s id status now [id] (s.sendPacket id ackEliciting inFlight sentSize status now) := by
  unfold sendPacket
  cases hget : s.spaces.get id with
  | none => exact .same h [id]
  | some space =>
    dsimp only
    rw [Recovery.onPacketSent, PacketNumSpaceMap.get_set_self hget]
    dsimp only
    have hmem : id ∈ [id] := mem_singleton_self id
    obtain ⟨x, hx, hset⟩ := h.fits hget
    cases inFlight with
    | true =>
      rw [if_pos rfl, PacketNumSpaceMap.set_set]
      refine .rearm hget (hset _ _ ?_) hmem id
      exact @Fits.sent sentOnly s.recovery space x hx ⟨space.nextPktNum, now, none, none, ackEliciting, true, sentSize⟩
        rfl rfl rfl _ _ (by cases ackEliciting <;> simp)
    | false =>
      -- the packet has no part in the counters and the timer stays
      rw [if_neg Bool.false_ne_true, PacketNumSpaceMap.set_set]
      have hsent := @Fits.sent sentOnly s.recovery space x hx
        ⟨space.nextPktNum, now, none, none, ackEliciting, false, sentSize⟩ rfl rfl rfl
        space.timeOfLastSentAckElicitingPkt space.lossProbes (by simp)
      exact ⟨hset _ _ hsent, others_set hget hmem, .inr ⟨rfl, fun hpos => hpos⟩⟩

theorem updateRtt_inFlight (r : Recovery) (ackDelay : Nat) (sample : Option Nat) :
    (r.updateRtt ackDelay sample).inFlight = r.inFlight := by
  unfold Recovery.updateRtt
  split
  · split <;> rfl
  · rfl

theorem ackReceived_outcome (h : Inv sentOnly s) {ranges : RangeSet} {ackDelay : Nat}
    (hlate : NotLate s (.ackReceived id ranges ackDelay status now))
    (hover : sentOnly → OverSent s (.ackReceived id ranges ackDelay status now))
    (hs : step s (.ackReceived id ranges ackDelay status now) = some s') :
    Outcome sentOnly s id status now [id] s' := by
  obtain ⟨res, hres, rfl⟩ := Option.map_eq_some_iff.mp hs
  unfold Recovery.onAckReceived at hres
  cases hget : s.spaces.get id with
  | none =>
    rw [hget] at hres
    cases hres
    exact .same h [id]
  | some space =>
    rw [hget] at hres
    obtain ⟨largest, -, rfl⟩ := Option.map_eq_some_iff.mp hres
    have hmem : id ∈ [id] := mem_singleton_self id
    obtain ⟨x, hx, hset⟩ := h.fits hget
    have hacked := @Fits.detectAcked sentOnly s.recovery (space.updateLargestAcked largest) x now
      (hx.updateLargestAcked largest) ranges (hlate space hget) fun hb => hover hb space hget
    have hold := @Fits.mem_of_outstanding sentOnly s.recovery (space.updateLargestAcked largest) x now
      (hx.updateLargestAcked largest) ranges
    have htimer : (s.recovery.detectAckedPackets ranges (space.updateLargestAcked largest) now).1.lossDetectionTimer =
      s.recovery.lossDetectionTimer := rfl
    generalize s.recovery.detectAckedPackets ranges (space.updateLargestAcked largest) now = detected at *
    obtain ⟨r, space', newly, sample⟩ := detected
    dsimp only at hacked hold htimer ⊢
    by_cases hcount : newly.count = 0
    · rw [if_pos hcount]
      refine ⟨hset _ _ hacked, others_set hget hmem, .inr ⟨htimer, fun hpos => ?_⟩⟩
      rw [hacked.path, add_ackEliciting, Nat.add_pos_iff_pos_or_pos, ackEliciting_pos_iff] at hpos
      rw [hx.path, add_ackEliciting, Nat.add_pos_iff_pos_or_pos, ackEliciting_pos_iff]
      exact hpos.imp_left fun ⟨p, hp, hout, hae⟩ => ⟨p, hold p hp hout, hout, hae⟩
    rw [if_neg hcount]
    have hlost := @Fits.detectLost sentOnly (r.updateRtt ackDelay sample) space' x now
      (hacked.of_inFlight (updateRtt_inFlight r ackDelay sample))
    generalize (r.updateRtt ackDelay sample).detectLostPackets space' now = lost at *
    obtain ⟨r', space'', packets, bytes⟩ := lost
    exact .rearm hget (hset { r' with ptoCount := 0 } _ ((hlost.drain _).of_inFlight rfl)) hmem id

theorem discard_outcome (h : Inv sentOnly s) :
    Outcome sentOnly s id status now [id] ⟨(s.recovery.onPktNumSpaceDiscarded id s.spaces status now).1,
      (s.recovery.onPktNumSpaceDiscarded id s.spaces status now).2⟩ := by
  unfold Recovery.onPktNumSpaceDiscarded
  cases hget : s.spaces.get id with
  | none => exact .same h [id]
  | some space =>
    obtain ⟨x, hx, hset⟩ := h.fits hget
    exact .rearm hget (hset _ _ hx.discard) (mem_singleton_self id) id

/-! ### Timeouts -/

theorem initial_mem_candidates (id : SpaceId) : .initial ∈ candidates id := by
  rw [candidates]
  split <;> exact mem_cons_self

theorem handshake_mem_candidates (id : SpaceId) : .handshake ∈ candidates id := by
  rw [candidates]
  split <;> exact mem_cons_of_mem _ mem_cons_self

theorem getLossTimeAndSpace_mem (id : SpaceId) (spaces : PacketNumSpaceMap) :
    (Recovery.getLossTimeAndSpace id spaces).2 ∈ candidates id := by
  have hfold : ∀ (ids : List SpaceId) (best : Option Nat × SpaceId), best.2 ∈ candidates id →
      (∀ s ∈ ids, s ∈ candidates id) →
      (ids.foldl (Recovery.earlierLoss spaces) best).2 ∈ candidates id := by
    intro ids
    induction ids with
    | nil => exact fun best hbest _ => hbest
    | cons s ids ih =>
      intro best hbest hids
      refine ih _ ?_ fun s hs => hids s (mem_cons_of_mem _ hs)
      unfold Recovery.earlierLoss
      split
      · exact hbest
      split
      · exact hids s mem_cons_self
      · exact hbest
  exact hfold _ _ (initial_mem_candidates id) fun s hs => hs

theorem earlierPto_snd (best : Option Nat × SpaceId) (time : Option Nat) (id : SpaceId) :
    (earlierPto best time id).2 = best.2 ∨ (earlierPto best time id).2 = id := by
  rw [earlierPto]
  split
  · exact .inr rfl
  · exact .inl rfl

theorem ptoLoop_mem (r : Recovery) (spaces : PacketNumSpaceMap) {ids : List SpaceId} {duration : Nat}
    {best : Option Nat × SpaceId} : (r.ptoLoop spaces status ids duration best).2 = best.2 ∨
      (r.ptoLoop spaces status ids duration best).2 ∈ ids := by
  induction ids generalizing duration best with
  | nil => exact .inl rfl
  | cons id ids ih =>
    unfold Recovery.ptoLoop
    split
    · exact ih.imp_right (mem_cons_of_mem _)
    split
    · exact ih.imp_right (mem_cons_of_mem _)
    split
    · exact .inl rfl
    rcases ih with heq | hin
    · rw [heq]
      refine (earlierPto_snd _ _ _).imp_right fun h => ?_
      rw [h]
      exact mem_cons_self
    · exact .inr (mem_cons_of_mem _ hin)

theorem probedSpace_mem (r : Recovery) (id : SpaceId) (spaces : PacketNumSpaceMap) :
    r.probedSpace id spaces status now ∈ candidates id := by
  unfold Recovery.probedSpace Recovery.getPtoTimeAndSpace
  split
  · next hpos =>
    rw [if_neg (by omega)]
    rcases @ptoLoop_mem status r spaces (candidates id) r.calculatePto (none, .initial) with heq | hin
    · rw [heq]
      exact initial_mem_candidates id
    · exact hin
  split
  · exact handshake_mem_candidates id
  · exact initial_mem_candidates id

theorem timeout_outcome (h : Inv sentOnly s) : Outcome sentOnly s id status now (candidates id)
      ⟨(s.recovery.onLossDetectionTimeout id s.spaces status now).2.1,
        (s.recovery.onLossDetectionTimeout id s.spaces status now).2.2⟩ := by
  have hsid := getLossTimeAndSpace_mem id s.spaces
  unfold Recovery.onLossDetectionTimeout
  generalize Recovery.getLossTimeAndSpace id s.spaces = found at *
  obtain ⟨lossTime, sid⟩ := found
  dsimp only at hsid ⊢
  cases hget : s.spaces.get sid with
  | none => exact .same h _
  | some space =>
    dsimp only
    split
    · obtain ⟨x, hx, hset⟩ := h.fits hget
      have hlost := @Fits.detectLost sentOnly s.recovery space x now hx
      generalize s.recovery.detectLostPackets space now = lost at *
      exact .rearm hget (hset _ _ (hlost.drain _)) hsid id
    have hprobed := @probedSpace_mem status now s.recovery id s.spaces
    generalize s.recovery.probedSpace id s.spaces status now = probed at *
    cases hget' : s.spaces.get probed with
    | none => exact .same h _
    | some space' =>
      obtain ⟨x, hx, hset⟩ := h.fits hget'
      have hc := hx.counted
      have hfits : ∀ probes, Fits sentOnly { s.recovery with ptoCount := s.recovery.ptoCount + 1 }
          { space' with lossProbes := probes } x := fun probes =>
        ⟨{ hc with }, hx.path⟩
      exact .rearm hget' (hset _ _ (hfits _)) hprobed id

end PathRecovery

/-- The space that a call names. -/
def RecoveryCall.spaceId : RecoveryCall → SpaceId
  | .packetSent id .. => id
  | .ackReceived id .. => id
  | .lossDetectionTimeout id .. => id
  | .spaceDiscarded id .. => id

def RecoveryCall.status : RecoveryCall → HandshakeStatus
  | .packetSent _ _ _ _ status _ => status
  | .ackReceived _ _ _ status _ => status
  | .lossDetectionTimeout _ status _ => status
  | .spaceDiscarded _ status _ => status

def RecoveryCall.now : RecoveryCall → Nat
  | .packetSent _ _ _ _ _ now => now
  | .ackReceived _ _ _ _ now => now
  | .lossDetectionTimeout _ _ now => now
  | .spaceDiscarded _ _ now => now

/-- The spaces that a call may change. -/
def RecoveryCall.touched : RecoveryCall → List SpaceId
  | .lossDetectionTimeout id _ _ => candidates id
  | c => [c.spaceId]

namespace PathRecovery

variable {sentOnly : Prop} {s s' : PathRecovery} {c : RecoveryCall}

theorem step_outcome (h : Inv sentOnly s) (hlate : NotLate s c) (hover : sentOnly → OverSent s c)
    (hs : step s c = some s') : Outcome sentOnly s c.spaceId c.status c.now c.touched s' := by
  cases c with
  | packetSent id ackEliciting inFlight sentSize status now =>
    cases hs
    exact sendPacket_outcome h ackEliciting inFlight sentSize
  | ackReceived id ranges ackDelay status now => exact ackReceived_outcome h hlate hover hs
  | lossDetectionTimeout id status now =>
    cases hs
    exact timeout_outcome h
  | spaceDiscarded id status now =>
    cases hs
    exact discard_outcome h

/-! ## Exact counters -/

theorem load_eq_tally (l : List SentPacket) :
    load l = ⟨((l.filter SentPacket.outstanding).map SentPacket.sentSize).sum,
      ((l.filter SentPacket.outstanding).filter SentPacket.ackEliciting).length⟩ := by
  induction l with
  | nil => rfl
  | cons p l ih =>
    rw [load_cons, ih, SentPacket.cost, filter_cons]
    split
    · rw [filter_cons, map_cons, sum_cons, SentPacket.size]
      refine InFlight.ext rfl ?_
      dsimp only [add_ackEliciting]
      split
      · rw [length_cons, Nat.add_comm]
      · exact Nat.zero_add _
    · exact zero_add _

/-- With exact marks, the outstanding packets of the queue are the unresolved ones of all that were sent. -/
theorem filter_outstanding {space : PacketNumSpace} (h : Counted True space) :
    space.sent.filter SentPacket.outstanding = unresolved space := by
  have hremoved : space.removed.filter
      (fun p => p.inFlight && !acknowledged space p.pktNum && p.timeLost.isNone) = [] := by
    refine filter_eq_nil_iff.mpr fun p hp hopen => ?_
    rw [Bool.and_eq_true, Bool.and_eq_true, Bool.not_eq_true', Option.isNone_iff_eq_none] at hopen
    rcases h.removed_done p hp with hsome | hsome
    · rw [h.acked p (mem_append_left _ hp) hsome] at hopen
      exact absurd hopen.1.2 (by decide)
    rw [hopen.2] at hsome
    cases hsome
  rw [unresolved, filter_append, hremoved, nil_append]
  refine filter_congr fun p hp => ?_
  have hmark : p.timeAcked.isNone = !acknowledged space p.pktNum := by
    cases hacked : p.timeAcked with
    | none =>
      refine (Bool.not_eq_true' _).mpr (Bool.not_eq_true _ ▸ fun hack => ?_) |>.symm
      have := h.heard trivial p hp hack
      rw [hacked] at this
      cases this
    | some t =>
      rw [h.acked p (mem_append_right _ hp) (by rw [hacked]; rfl)]
      rfl
  rw [SentPacket.outstanding, hmark]

theorem Inv.exact (h : Inv True s) :
    s.recovery.inFlight.bytes = s.spaces.total (fun space => ((unresolved space).map SentPacket.sentSize).sum) ∧
      ∀ e ∈ s.spaces, e.2.inFlight.ackEliciting = ((unresolved e.2).filter SentPacket.ackEliciting).length := by
  have hload : ∀ e ∈ s.spaces, load e.2.sent = ⟨((unresolved e.2).map SentPacket.sentSize).sum,
      ((unresolved e.2).filter SentPacket.ackEliciting).length⟩ := by
    intro e he
    rw [load_eq_tally, filter_outstanding (h.counted e he)]
  refine ⟨?_, fun e he => ?_⟩
  · rw [h.path, PacketNumSpaceMap.totalLoad, OrdMap.total, OrdMap.total]
    have hsum : ∀ es : List (Nat × PacketNumSpace), (∀ e ∈ es, e ∈ s.spaces) →
        (es.map fun e => load e.2.sent).sum.bytes =
          (es.map fun e => ((unresolved e.2).map SentPacket.sentSize).sum).sum := by
      intro es hes
      induction es with
      | nil => rfl
      | cons e es ih =>
        rw [map_cons, sum_cons, map_cons, sum_cons, add_bytes,
          ih fun e he => hes e (mem_cons_of_mem _ he), hload e (hes e mem_cons_self)]
    exact hsum _ fun e he => he
  · rw [(h.counted e he).inFlight_eq, hload e he]

/-- In every run in which ACKs are for sent packets and none of them is late, the bytes in flight of the path and the
number of ack-eliciting packets in flight of each space are those of the packets neither acknowledged nor lost. -/
theorem in_flight_exact (conf : RecoveryConfig) (extra : Nat) (calls : List RecoveryCall) (s : PathRecovery)
    (hok : Along step (fun s c => OverSent s c ∧ NotLate s c) (new conf extra) calls)
    (hr : run step (new conf extra) calls = some s) :
    s.recovery.inFlight.bytes = s.spaces.total (fun space => ((unresolved space).map SentPacket.sentSize).sum) ∧
      ∀ e ∈ s.spaces, e.2.inFlight.ackEliciting = ((unresolved e.2).filter SentPacket.ackEliciting).length :=
  Inv.exact (run_invariant (fun _ _ _ h hok hs => (step_outcome h hok.2 (fun _ => hok.1) hs).inv)
    (inv_new True conf extra) hok hr)

/-- Two packets, of which the first is acknowledged. -/
theorem in_flight_exact_two : ∃ s, run step (new .default 0)
      [.packetSent .data true true 100 ⟨true, true, true⟩ 0, .packetSent .data true true 200 ⟨true, true, true⟩ 0,
        .ackReceived .data (RangeSet.empty.insert ⟨0, 1⟩) 0 ⟨true, true, true⟩ 1000] = some s ∧
    s.spaces.total (fun space => ((unresolved space).map SentPacket.sentSize).sum) = 200 := by
  refine exists_run (fun s => s.recovery.inFlight.bytes == 200) (by decide +kernel) fun s hs hbytes => ?_
  refine (in_flight_exact .default 0 _ s ?_ hs).1.symm.trans (beq_iff_eq.mp hbytes)
  refine .cons ⟨trivial, trivial⟩ rfl (.cons ⟨trivial, trivial⟩ rfl ⟨⟨?_, ?_⟩, fun _ _ => trivial⟩)
  · intro space hget n hn
    cases hget
    have hlt : n < 1 := (RangeSet.mem_insert.mp hn).elim (fun hn => absurd hn RangeSet.not_mem_empty) And.right
    exact hlt.trans (by decide)
  intro space hget
  cases hget
  exact fun p hp _ _ _ => Option.isNone_iff_eq_none.mp
    (all_eq_true (p := fun p : SentPacket => p.timeLost.isNone) |>.mp (by decide +kernel) p hp)

def fourSent : List RecoveryCall := replicate 4 (.packetSent .data true true 100 ⟨true, true, true⟩ 0)

/-- Packet 0 is declared lost when 1, 2 and 3 are acknowledged, and packet 4 is sent. -/
def lossThenSend : List RecoveryCall :=
  [.ackReceived .data (RangeSet.empty.insert ⟨1, 4⟩) 0 ⟨true, true, true⟩ 1000,
    .packetSent .data true true 100 ⟨true, true, true⟩ 1500]

/-- The ACK for packet 0, which was declared lost, arrives when packet 4 is in flight, which is then missing from the
counters. -/
theorem late_ack_counts_twice : ∃ s, run step (new .default 0) (fourSent ++ lossThenSend ++
      [.ackReceived .data (RangeSet.empty.insert ⟨0, 1⟩) 0 ⟨true, true, true⟩ 1600]) = some s ∧
    s.recovery.inFlight.bytes = 0 ∧
      s.spaces.total (fun space => ((unresolved space).map SentPacket.sentSize).sum) = 100 := by
  refine ⟨_, rfl, ?_⟩
  decide +kernel

end PathRecovery

end MoqQuic.L3.Tquic
