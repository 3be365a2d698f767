import MoqQuic.L2Machine.Tquic.PacketNum
import MoqQuic.L3Protocol.Tquic.Accounting

/-!
# ACK frames for packets that were not sent (`connection/connection.rs`, `connection/recovery.rs`)

`recv_frame` checks that the delay of an ACK frame can be scaled and hands the
ranges to `on_ack_received`. Neither compares them with the numbers that were
sent, so the largest acknowledged number of the space can get beyond the next
one to send. The length of packet numbers, among others, is computed from it.

Results:
* `unsent_refused_iff`: over every run, ACKs of unsent packets are refused, and
  what follows from it for the largest acknowledged number and the packet number
  length holds, exactly if each ACK is for sent packets or has a delay that
  overflows.
* `unsent_accepted`: an ACK before anything was sent.
-/
namespace MoqQuic.L3.Tquic
open LTS L2.Tquic.Space PacketNumSpaceMap PacketNumSpace Option
open L2.Tquic (Error Range RangeSet packetNumLen rfcPacketNumLen rfcPacketNumLen_le)

namespace PathRecovery

/-- `exponent` is the `ack_delay_exponent` of the peer. The flags that the frame sets are part of `status`.
mirrors connection.rs:722-766 -/
def recvAckFrame (exponent : Nat) (s : PathRecovery) (id : SpaceId) (ranges : RangeSet) (ackDelay : Nat)
    (status : HandshakeStatus) (now : Nat) : Option (Except Error PathRecovery) :=
  if ackDelay * 2 ^ exponent > u64Max then some (.error .frameEncodingError)
  else (s.recovery.onAckReceived ranges (ackDelay * 2 ^ exponent) id s.spaces status now).map fun
    | .ok (_, recovery, spaces) => .ok ⟨recovery, spaces⟩
    | .error e => .error e

/-- The delay of an ACK is the one of the frame here. -/
def stepFrame (exponent : Nat) (s : PathRecovery) : RecoveryCall → Option PathRecovery
  | .ackReceived id ranges ackDelay status now =>
    (s.recvAckFrame exponent id ranges ackDelay status now).map fun
      | .ok s' => s'
      | .error _ => s
  | c => step s c

/-! ## What is to hold -/

/-- The largest number that was sent and acknowledged. -/
def trueLargestAcked (space : PacketNumSpace) : Option Nat :=
  ((List.range space.nextPktNum).filter (acknowledged space)).getLast?

/-- An ACK of a number that was not sent in its space is refused, and the largest acknowledged number stays. -/
def RefusesUnsent (exponent : Nat) (s : PathRecovery) : RecoveryCall → Prop
  | .ackReceived id ranges ackDelay status now => ∀ space, s.spaces.get id = some space →
      (∃ n ∈ ranges, space.nextPktNum ≤ n) →
      (∃ e, s.recvAckFrame exponent id ranges ackDelay status now = some (.error e)) ∧
        ∀ s', stepFrame exponent s (.ackReceived id ranges ackDelay status now) = some s' →
          (s'.spaces.get id).map PacketNumSpace.largestAckedPkt = some space.largestAckedPkt
  | _ => True

/-- The largest acknowledged number of every space was sent, if it is known, and the number of the next packet is sent
in enough bytes. -/
def NumbersFit (s : PathRecovery) : Prop :=
  ∀ e ∈ s.spaces, (∀ n, e.2.getLargestAckedPkt = some n → n < e.2.nextPktNum) ∧
    rfcPacketNumLen e.2.nextPktNum (trueLargestAcked e.2) ≤ packetNumLen e.2.nextPktNum e.2.getLargestAckedPkt

/-- The ACK is for sent packets, or its delay overflows. -/
def SentOrOverflow (exponent : Nat) (s : PathRecovery) : RecoveryCall → Prop
  | .ackReceived id ranges ackDelay _ _ => u64Max < ackDelay * 2 ^ exponent ∨
      ∀ space, s.spaces.get id = some space → ∀ n ∈ ranges, n < space.nextPktNum
  | _ => True

/-! ## The largest acknowledged number -/

/-- The largest acknowledged number is one that was sent and acknowledged. -/
def Sound (space : PacketNumSpace) : Prop :=
  ∀ n, space.getLargestAckedPkt = some n → n < space.nextPktNum ∧ acknowledged space n = true

section Sound

variable {space space' : PacketNumSpace}

theorem le_trueLargestAcked {n : Nat} (hlt : n < space.nextPktNum) (hack : acknowledged space n = true) :
    ∃ m, trueLargestAcked space = some m ∧ n ≤ m := by
  have hmem := List.mem_filter.mpr ⟨List.mem_range.mpr hlt, hack⟩
  have hsorted : ((List.range space.nextPktNum).filter (acknowledged space)).Pairwise (· < ·) :=
    List.pairwise_lt_range.filter _
  rw [trueLargestAcked]
  cases hlast : ((List.range space.nextPktNum).filter (acknowledged space)).getLast? with
  | none =>
    rw [List.getLast?_eq_none_iff.mp hlast] at hmem
    exact absurd hmem List.not_mem_nil
  | some m =>
    refine ⟨m, rfl, ?_⟩
    obtain ⟨front, hfront⟩ := List.getLast?_eq_some_iff.mp hlast
    rw [hfront] at hmem hsorted
    rcases List.mem_append.mp hmem with hn | hn
    · exact ((List.pairwise_append.mp hsorted).2.2 n hn m (List.mem_singleton_self m)).le
    · exact (List.mem_singleton.mp hn).le

/-- The next packet number is sent in enough bytes. -/
theorem Sound.len_le (h : Sound space) : rfcPacketNumLen space.nextPktNum (trueLargestAcked space) ≤
    packetNumLen space.nextPktNum space.getLargestAckedPkt :=
  rfcPacketNumLen_le fun n hn => le_trueLargestAcked (h n hn).1 (h n hn).2

/-- Sending a packet and the rest of recovery do not touch the largest number. -/
theorem Sound.of_eq (h : Sound space) (hlargest : space'.largestAckedPkt = space.largestAckedPkt)
    (hacks : space'.acks = space.acks) (hnext : space.nextPktNum ≤ space'.nextPktNum) : Sound space' := by
  intro n hn
  rw [PacketNumSpace.getLargestAckedPkt, hlargest] at hn
  obtain ⟨hlt, hack⟩ := h n hn
  exact ⟨hlt.trans_le hnext, by rw [acknowledged, hacks]; exact hack⟩

/-- The largest number after an ACK for sent packets. -/
theorem Sound.acked (h : Sound space) {ranges : RangeSet} {largest : Nat} (hmax : ranges.max = some largest)
    (hsent : ∀ n ∈ ranges, n < space.nextPktNum)
    (hlargest : space'.largestAckedPkt = (space.updateLargestAcked largest).largestAckedPkt)
    (hacks : space'.acks = ranges :: space.acks) (hnext : space'.nextPktNum = space.nextPktNum) : Sound space' := by
  have hin : largest ∈ ranges := (RangeSet.max_eq_some hmax).1
  have hack (n : Nat) (hn : n ∈ ranges ∨ acknowledged space n = true) : acknowledged space' n = true := by
    rw [acknowledged, hacks, List.any_cons, Bool.or_eq_true, RangeSet.contains_iff]
    exact hn
  intro n hn
  obtain ⟨rfl, -⟩ := getLargestAckedPkt_eq_some.mp hn
  rw [hnext, hlargest]
  rcases space.updateLargestAcked_or largest with heq | ⟨heq, hold⟩
  · rw [heq]
    exact ⟨hsent largest hin, hack largest (.inl hin)⟩
  rw [heq]
  obtain ⟨hlt, hacked⟩ := h _ (getLargestAckedPkt_eq_some.mpr ⟨rfl, hold⟩)
  exact ⟨hlt, hack _ (.inr hacked)⟩

/-! ## Steps -/

/-- Every space is sound. -/
def AllSound (s : PathRecovery) : Prop := ∀ e ∈ s.spaces, Sound e.2

variable {s s' : PathRecovery} {id : SpaceId}

theorem allSound_new (conf : RecoveryConfig) (extra : Nat) : AllSound (new conf extra) := by
  intro e he n hn
  rw [mem_new he] at hn
  cases hn

theorem AllSound.set (h : AllSound s) (hget : s.spaces.get id = some space) (hs : Sound space') (r : Recovery) :
    AllSound ⟨r, s.spaces.set id space'⟩ := by
  intro e he
  rcases (mem_set hget).mp he with rfl | ⟨he, -⟩
  · exact hs
  · exact h e he

theorem AllSound.numbersFit (h : AllSound s) : NumbersFit s := fun e he =>
  ⟨fun n hn => (h e he n hn).1, (h e he).len_le⟩

theorem AllSound.get (h : AllSound s) (hget : s.spaces.get id = some space) : Sound space :=
  h _ (mem_of_get hget)

/-- What an ACK does to the numbers of the space, if it is not refused. -/
theorem onAckReceived_numbers {r : Recovery} {ranges : RangeSet} {ackDelay : Nat} {status : HandshakeStatus}
    {now : Nat} {res : Except Error ((Nat × Nat) × Recovery × PacketNumSpaceMap)} {spaces : PacketNumSpaceMap}
    (hget : spaces.get id = some space) (h : r.onAckReceived ranges ackDelay id spaces status now = some res) :
    ∃ largest lost r' space', ranges.max = some largest ∧ res = .ok (lost, r', spaces.set id space') ∧
      space'.largestAckedPkt = (space.updateLargestAcked largest).largestAckedPkt ∧
      space'.acks = ranges :: space.acks ∧ space'.nextPktNum = space.nextPktNum := by
  unfold Recovery.onAckReceived at h
  rw [hget] at h
  obtain ⟨largest, hmax, rfl⟩ := map_eq_some_iff.mp h
  have hnumbers : (r.detectAckedPackets ranges (space.updateLargestAcked largest) now).2.1.largestAckedPkt =
        (space.updateLargestAcked largest).largestAckedPkt ∧
      (r.detectAckedPackets ranges (space.updateLargestAcked largest) now).2.1.acks = ranges :: space.acks ∧
      (r.detectAckedPackets ranges (space.updateLargestAcked largest) now).2.1.nextPktNum = space.nextPktNum :=
    ⟨rfl, rfl, rfl⟩
  generalize r.detectAckedPackets ranges (space.updateLargestAcked largest) now = detected at *
  obtain ⟨r', space', newly, sample⟩ := detected
  dsimp only at hnumbers ⊢
  split
  · exact ⟨largest, (0, 0), r', space', hmax, rfl, hnumbers⟩
  -- loss detection and draining leave the numbers
  exact ⟨largest, _, _, _, hmax, rfl, hnumbers⟩

variable {c : RecoveryCall}

/-- A call that is not an ACK keeps the numbers sound. -/
theorem AllSound.step (h : AllSound s) (hs : step s c = some s')
    (hc : ∀ id ranges ackDelay status now, c ≠ .ackReceived id ranges ackDelay status now) : AllSound s' := by
  cases c with
  | ackReceived id ranges ackDelay status now => exact absurd rfl (hc id ranges ackDelay status now)
  | packetSent id ackEliciting inFlight sentSize status now =>
    cases hs
    unfold sendPacket
    cases hget : s.spaces.get id with
    | none => exact h
    | some space =>
      dsimp only
      rw [Recovery.onPacketSent, get_set_self hget]
      dsimp only
      cases inFlight with
      | true =>
        rw [if_pos rfl, set_set]
        refine h.set hget ?_ _
        exact (h.get hget).of_eq rfl rfl (Nat.le_succ _)
      | false =>
        rw [if_neg Bool.false_ne_true, set_set]
        refine h.set hget ?_ _
        exact (h.get hget).of_eq rfl rfl (Nat.le_succ _)
  | lossDetectionTimeout id status now =>
    cases hs
    unfold Recovery.onLossDetectionTimeout
    generalize Recovery.getLossTimeAndSpace id s.spaces = found
    obtain ⟨lossTime, sid⟩ := found
    dsimp only
    cases hget : s.spaces.get sid with
    | none => exact h
    | some space =>
      dsimp only
      split
      · refine h.set hget ?_ _
        exact (h.get hget).of_eq rfl rfl le_rfl
      generalize s.recovery.probedSpace id s.spaces status now = probed
      cases hget' : s.spaces.get probed with
      | none => exact h
      | some space' =>
        refine h.set hget' ?_ _
        exact (h.get hget').of_eq rfl rfl le_rfl
  | spaceDiscarded id status now =>
    cases hs
    unfold Recovery.onPktNumSpaceDiscarded
    cases hget : s.spaces.get id with
    | none => exact h
    | some space =>
      refine h.set hget ?_ _
      exact (h.get hget).of_eq rfl rfl le_rfl

/-! ## ACK frames -/

variable {exponent ackDelay now : Nat} {ranges : RangeSet} {status : HandshakeStatus}

/-- Without an overflow, the frame is accepted whatever numbers it has. -/
theorem recvAckFrame_ok (hget : s.spaces.get id = some space) (hdelay : ¬ ackDelay * 2 ^ exponent > u64Max)
    {res : Except Error PathRecovery} (h : s.recvAckFrame exponent id ranges ackDelay status now = some res) :
    ∃ largest r' space', ranges.max = some largest ∧ res = .ok ⟨r', s.spaces.set id space'⟩ ∧
      space'.largestAckedPkt = (space.updateLargestAcked largest).largestAckedPkt ∧
      space'.acks = ranges :: space.acks ∧ space'.nextPktNum = space.nextPktNum := by
  rw [recvAckFrame, if_neg hdelay] at h
  obtain ⟨res', hres', rfl⟩ := map_eq_some_iff.mp h
  obtain ⟨largest, lost, r', space', hmax, rfl, hnumbers⟩ := onAckReceived_numbers hget hres'
  exact ⟨largest, r', space', hmax, rfl, hnumbers⟩

theorem recvAckFrame_overflow (hdelay : ackDelay * 2 ^ exponent > u64Max) :
    s.recvAckFrame exponent id ranges ackDelay status now = some (.error .frameEncodingError) :=
  if_pos hdelay

theorem recvAckFrame_no_space (hget : s.spaces.get id = none) {res : Except Error PathRecovery}
    (h : s.recvAckFrame exponent id ranges ackDelay status now = some res) : ∃ e, res = .error e := by
  rw [recvAckFrame] at h
  split at h
  · cases h
    exact ⟨_, rfl⟩
  rw [Recovery.onAckReceived, hget] at h
  cases h
  exact ⟨_, rfl⟩

theorem AllSound.stepFrame (h : AllSound s) (hok : SentOrOverflow exponent s c)
    (hs : stepFrame exponent s c = some s') : AllSound s' := by
  cases c with
  | ackReceived id ranges ackDelay status now =>
    obtain ⟨res, hres, rfl⟩ := map_eq_some_iff.mp hs
    by_cases hdelay : ackDelay * 2 ^ exponent > u64Max
    · rw [recvAckFrame_overflow hdelay] at hres
      cases hres
      exact h
    cases hget : s.spaces.get id with
    | none =>
      obtain ⟨e, rfl⟩ := recvAckFrame_no_space hget hres
      exact h
    | some space =>
      obtain ⟨largest, r', space', hmax, rfl, hlargest, hacks, hnext⟩ := recvAckFrame_ok hget hdelay hres
      exact h.set hget ((h.get hget).acked hmax (hok.resolve_left hdelay space hget) hlargest hacks hnext) r'
  | packetSent | lossDetectionTimeout | spaceDiscarded =>
    rw [PathRecovery.stepFrame] at hs
    · exact h.step hs fun _ _ _ _ _ hc => by cases hc
    · exact fun _ _ _ _ _ hc => by cases hc

/-- Nothing but an overflow of the delay refuses a frame. -/
theorem sentOrOverflow_of_refuses (h : RefusesUnsent exponent s c) : SentOrOverflow exponent s c := by
  cases c with
  | ackReceived id ranges ackDelay status now =>
    by_cases hdelay : ackDelay * 2 ^ exponent > u64Max
    · exact .inl hdelay
    refine .inr fun space hget n hn => ?_
    by_contra hge
    obtain ⟨⟨e, he⟩, -⟩ := h space hget ⟨n, hn, Nat.le_of_not_lt hge⟩
    obtain ⟨largest, r', space', -, hres, -⟩ := recvAckFrame_ok hget hdelay he
    cases hres
  | packetSent | lossDetectionTimeout | spaceDiscarded => exact trivial

theorem refuses_of_sentOrOverflow (h : SentOrOverflow exponent s c) : RefusesUnsent exponent s c := by
  cases c with
  | ackReceived id ranges ackDelay status now =>
    intro space hget ⟨n, hn, hge⟩
    have hdelay := h.resolve_right fun hsent => absurd (hsent space hget n hn) (Nat.not_lt.mpr hge)
    have hres := @recvAckFrame_overflow s id exponent ackDelay now ranges status hdelay
    refine ⟨⟨_, hres⟩, fun s' hs => ?_⟩
    rw [PathRecovery.stepFrame, hres] at hs
    cases hs
    rw [hget]
    rfl
  | packetSent | lossDetectionTimeout | spaceDiscarded => exact trivial

/-- Over every run: ACKs of unsent packets are refused, the largest acknowledged number is below the next one and the
packet number length suffices, exactly if each ACK is for sent packets or has a delay that overflows. -/
theorem unsent_refused_iff (conf : RecoveryConfig) (extra exponent : Nat) (calls : List RecoveryCall) :
    Along (stepFrame exponent)
        (fun s c => RefusesUnsent exponent s c ∧ ∀ s', stepFrame exponent s c = some s' → NumbersFit s')
        (new conf extra) calls ↔
      Along (stepFrame exponent) (SentOrOverflow exponent) (new conf extra) calls := by
  constructor
  · exact Along.of_invariant (fun _ _ (_ : True) h => sentOrOverflow_of_refuses h.1) (fun _ _ _ _ _ _ => trivial)
      trivial
  refine Along.of_invariant (fun s c h hok => ⟨refuses_of_sentOrOverflow hok, fun s' hs => ?_⟩)
    (fun _ _ _ h hok hs => AllSound.stepFrame h hok hs) (allSound_new conf extra)
  exact (h.stepFrame hok hs).numbersFit

/-- Before any packet is sent, an ACK of packet 5 is accepted. -/
theorem unsent_accepted : ∃ s,
    (new .default 0).recvAckFrame 3 .data (RangeSet.empty.insert ⟨5, 6⟩) 0 ⟨true, true, true⟩ 1000 = some (.ok s) ∧
      (s.spaces.get .data).map (fun space => (space.nextPktNum, space.getLargestAckedPkt)) = some (0, some 5) :=
  ⟨_, rfl, by decide +kernel⟩

end Sound

end PathRecovery

end MoqQuic.L3.Tquic
