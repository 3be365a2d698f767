import Mathlib.Order.Nat
import MoqQuic.L2Machine.Tquic.RangeSet

/-!
# Packet number spaces (`connection/space.rs`)

A space keeps the packets that were sent in it until they are acknowledged or
declared lost, and two counters over those in flight. The path keeps the same two
counters over all its spaces. They are modelled as one value `InFlight`, of
which space and path have a copy each, since every place that changes one of them
changes the other in the same way.

Times are in nanoseconds. The frames of a packet, the fields for received packets
that concern ACK generation, and the buffers of multipath are left out. Two fields
of `PacketNumSpace` are not in the source: `removed` has the packets that were
taken out of the queue, and `acks` the ACK ranges that were processed.

Results:
* `load`: what a list of packets contributes to the counters; `load_cons`,
  `load_append`, and `remove_cost` for a packet that leaves.
-/
namespace MoqQuic.L2.Tquic.Space
open List OrdMap

def u64Max : Nat := 2 ^ 64 - 1

/-! ## Counters -/

/-- `bytes_in_flight` and `ack_eliciting_in_flight`. -/
@[ext] structure InFlight where
  bytes : Nat
  ackEliciting : Nat
  deriving DecidableEq

namespace InFlight

instance : Zero InFlight := ⟨⟨0, 0⟩⟩

instance : Add InFlight := ⟨fun a b => ⟨a.bytes + b.bytes, a.ackEliciting + b.ackEliciting⟩⟩

@[simp] theorem add_bytes (a b : InFlight) : (a + b).bytes = a.bytes + b.bytes := rfl

@[simp] theorem add_ackEliciting (a b : InFlight) : (a + b).ackEliciting = a.ackEliciting + b.ackEliciting := rfl

instance : AddCommMonoid InFlight where
  add_assoc a b c := InFlight.ext (Nat.add_assoc ..) (Nat.add_assoc ..)
  zero_add a := InFlight.ext (Nat.zero_add _) (Nat.zero_add _)
  add_zero a := InFlight.ext (Nat.add_zero _) (Nat.add_zero _)
  add_comm a b := InFlight.ext (Nat.add_comm ..) (Nat.add_comm ..)
  nsmul := nsmulRec

end InFlight

/-! ## Packets -/

/-- mirrors space.rs:338-384 -/
structure SentPacket where
  pktNum : Nat
  timeSent : Nat
  timeAcked : Option Nat
  timeLost : Option Nat
  ackEliciting : Bool
  inFlight : Bool
  sentSize : Nat
  deriving DecidableEq

namespace SentPacket

/-- In flight, and neither acknowledged nor declared lost. -/
def outstanding (p : SentPacket) : Bool := p.inFlight && p.timeAcked.isNone && p.timeLost.isNone

/-- What the packet adds to the counters when it is sent. -/
def size (p : SentPacket) : InFlight := ⟨p.sentSize, if p.ackEliciting then 1 else 0⟩

/-- What the packet has in the counters. -/
def cost (p : SentPacket) : InFlight := if p.outstanding then p.size else 0

end SentPacket

/-- The counters after a packet has left, which is done in the same way when it is acknowledged
(mirrors recovery.rs:349-360), declared lost (464-475) and discarded (820-827). -/
def InFlight.remove (c : InFlight) (p : SentPacket) : InFlight :=
  if p.inFlight then ⟨c.bytes - p.sentSize, if p.ackEliciting then c.ackEliciting - 1 else c.ackEliciting⟩ else c

/-- What the packets of a list have in the counters. -/
def load (l : List SentPacket) : InFlight := (l.map SentPacket.cost).sum

section Load

variable {p : SentPacket} {l l' : List SentPacket} {c : InFlight}

@[simp] theorem load_nil : load [] = 0 := rfl

@[simp] theorem load_cons : load (p :: l) = p.cost + load l := sum_cons

@[simp] theorem load_append : load (l ++ l') = load l + load l' := by
  rw [load, map_append, sum_append]
  rfl

theorem load_eq_zero (h : ∀ p ∈ l, p.outstanding = false) : load l = 0 := by
  induction l with
  | nil => rfl
  | cons p l ih =>
    rw [load_cons, ih fun p hp => h p (mem_cons_of_mem _ hp), SentPacket.cost, h p mem_cons_self]
    rfl

/-- A packet that leaves takes its part of the counters with it, if it was not taken out before. -/
theorem remove_cost (h : p.inFlight = true → p.outstanding = true) : (p.cost + c).remove p = c := by
  rw [InFlight.remove]
  split
  · next hp =>
    rw [SentPacket.cost, h hp]
    refine InFlight.ext ?_ ?_
    · exact Nat.add_sub_cancel_left ..
    dsimp only [InFlight.add_ackEliciting, if_true, SentPacket.size]
    split <;> simp
  · next hp =>
    have hno : p.outstanding = false := by simp [SentPacket.outstanding, hp]
    rw [SentPacket.cost, hno]
    exact zero_add c

theorem ackEliciting_pos_iff : 0 < (load l).ackEliciting ↔ ∃ p ∈ l, p.outstanding = true ∧ p.ackEliciting = true := by
  induction l with
  | nil => exact ⟨fun h => absurd h (lt_irrefl 0), fun ⟨_, hp, _⟩ => absurd hp not_mem_nil⟩
  | cons q l ih =>
    have hq : 0 < q.cost.ackEliciting ↔ q.outstanding = true ∧ q.ackEliciting = true := by
      rw [SentPacket.cost]
      split
      · next ho =>
        rw [SentPacket.size]
        split
        · next ha => exact ⟨fun _ => ⟨ho, ha⟩, fun _ => Nat.one_pos⟩
        · next ha => exact ⟨fun h => absurd h (lt_irrefl 0), fun h => absurd h.2 ha⟩
      · next ho => exact ⟨fun h => absurd h (lt_irrefl 0), fun h => absurd h.1 ho⟩
    rw [load_cons, InFlight.add_ackEliciting, Nat.add_pos_iff_pos_or_pos, hq, ih, exists_mem_cons_iff]

end Load

/-! ## Spaces -/

/-- mirrors space.rs:36-48 -/
inductive SpaceId where
  | initial
  | handshake
  | data
  | dataExt (i : Nat)
  deriving DecidableEq

namespace SpaceId

/-- The key of the space in the map. mirrors space.rs:247-254 -/
def key : SpaceId → Nat
  | initial => 0
  | handshake => 1
  | data => 2
  | dataExt i => i

/-- mirrors space.rs:175 -/
def isData (id : SpaceId) : Bool := id ≠ initial ∧ id ≠ handshake

end SpaceId

/-- mirrors space.rs:64-145 -/
structure PacketNumSpace where
  nextPktNum : Nat
  sent : List SentPacket
  timeOfLastSentAckElicitingPkt : Option Nat
  lossTime : Option Nat
  largestAckedPkt : Nat
  lossProbes : Nat
  inFlight : InFlight
  removed : List SentPacket
  acks : List RangeSet

namespace PacketNumSpace

/-- mirrors space.rs:148-177 -/
def new : PacketNumSpace where
  nextPktNum := 0
  sent := []
  timeOfLastSentAckElicitingPkt := none
  lossTime := none
  largestAckedPkt := u64Max
  lossProbes := 0
  inFlight := 0
  removed := []
  acks := []

/-- mirrors space.rs:216-222 -/
def getLargestAckedPkt (s : PacketNumSpace) : Option Nat :=
  if s.largestAckedPkt ≠ u64Max then some s.largestAckedPkt else none

theorem getLargestAckedPkt_eq_some {s : PacketNumSpace} {n : Nat} :
    s.getLargestAckedPkt = some n ↔ s.largestAckedPkt = n ∧ n ≠ u64Max := by
  rw [getLargestAckedPkt]
  split
  · next hne =>
    rw [Option.some_inj]
    exact ⟨fun h => ⟨h, h ▸ hne⟩, And.left⟩
  · next heq =>
    rw [not_not] at heq
    exact ⟨fun h => absurd h (by simp), fun h => absurd (h.1 ▸ heq) h.2⟩

/-- mirrors recovery.rs:244-249 -/
def updateLargestAcked (s : PacketNumSpace) (largest : Nat) : PacketNumSpace :=
  { s with largestAckedPkt := if s.largestAckedPkt = u64Max then largest else max s.largestAckedPkt largest }

/-- The largest number is the one of the ACK or the one before it. -/
theorem updateLargestAcked_or (s : PacketNumSpace) (largest : Nat) :
    (s.updateLargestAcked largest).largestAckedPkt = largest ∨
      (s.updateLargestAcked largest).largestAckedPkt = s.largestAckedPkt ∧ s.largestAckedPkt ≠ u64Max := by
  rw [updateLargestAcked]
  split
  · exact .inl rfl
  rename_i hne
  rcases le_total largest s.largestAckedPkt with hle | hle
  · exact .inr ⟨max_eq_left hle, hne⟩
  · exact .inl (max_eq_right hle)

end PacketNumSpace

/-- mirrors space.rs:226-232; a space stays in the map once it is there. -/
abbrev PacketNumSpaceMap := OrdMap Nat PacketNumSpace

namespace PacketNumSpaceMap

/-- The three spaces of every connection and `extra` further ones. mirrors space.rs:235-244, 272-279 -/
def new (extra : Nat) : PacketNumSpaceMap :=
  ⟨(List.range (3 + extra)).map fun k => (k, PacketNumSpace.new), pairwise_map.mpr pairwise_lt_range⟩

def get (m : PacketNumSpaceMap) (id : SpaceId) : Option PacketNumSpace := m.find id.key

/-- The effect of a change through `get_mut`. -/
def set (m : PacketNumSpaceMap) (id : SpaceId) (s : PacketNumSpace) : PacketNumSpaceMap := m.modify id.key fun _ => s

/-- What all packets of all spaces have in the counters. -/
def totalLoad (m : PacketNumSpaceMap) : InFlight := m.total fun s => load s.sent

variable {m : PacketNumSpaceMap} {id : SpaceId} {s s' : PacketNumSpace} {e : Nat × PacketNumSpace}

theorem mem_new {extra : Nat} (h : e ∈ new extra) : e.2 = PacketNumSpace.new := by
  obtain ⟨k, -, rfl⟩ := mem_map.mp h
  rfl

theorem totalLoad_new (extra : Nat) : (new extra).totalLoad = 0 := by
  rw [totalLoad, OrdMap.total, new, map_map]
  exact sum_eq_zero fun x hx => by
    obtain ⟨k, -, rfl⟩ := mem_map.mp hx
    rfl

theorem mem_of_get (h : m.get id = some s) : (id.key, s) ∈ m := find_eq_some.mp h

/-- The space at `id` is replaced and the others stay. -/
theorem mem_set (h : m.get id = some s) : e ∈ m.set id s' ↔ e = (id.key, s') ∨ e ∈ m ∧ e.1 ≠ id.key := by
  rw [set, mem_modify]
  exact or_congr_left ⟨fun ⟨_, _, he⟩ => he, fun he => ⟨s, mem_of_get h, he⟩⟩

theorem get_set_self (h : m.get id = some s) : (m.set id s').get id = some s' :=
  find_eq_some.mpr ((mem_set h).mpr (.inl rfl))

theorem set_set : (m.set id s).set id s' = m.set id s' := modify_modify m id.key (fun _ => s) fun _ => s'

/-- Something ack-eliciting is counted if one of the spaces has it. -/
theorem totalLoad_pos_iff : 0 < m.totalLoad.ackEliciting ↔ ∃ e ∈ m, 0 < (load e.2.sent).ackEliciting := by
  have hlist : ∀ es : List (Nat × PacketNumSpace),
      0 < (es.map fun e => load e.2.sent).sum.ackEliciting ↔ ∃ e ∈ es, 0 < (load e.2.sent).ackEliciting := by
    intro es
    induction es with
    | nil => exact ⟨fun h => absurd h (lt_irrefl 0), fun ⟨_, he, _⟩ => absurd he not_mem_nil⟩
    | cons e es ih =>
      rw [map_cons, sum_cons, InFlight.add_ackEliciting, Nat.add_pos_iff_pos_or_pos, ih, exists_mem_cons_iff]
  exact hlist m.entries

/-- What the other spaces have in the counters. -/
theorem totalLoad_split (h : m.get id = some s) :
    ∃ x, m.totalLoad = load s.sent + x ∧ ∀ s', (m.set id s').totalLoad = load s'.sent + x := by
  have hset : ∀ s', (m.set id s').totalLoad + load s.sent = m.totalLoad + load s'.sent := fun s' =>
    total_modify (fun s : PacketNumSpace => load s.sent) (fun _ => s') (mem_of_get h)
  have hnil := hset { s with sent := [] }
  rw [load_nil, add_zero] at hnil
  refine ⟨(m.set id { s with sent := [] }).totalLoad, by rw [← hnil, add_comm], fun s' => ?_⟩
  have hs' := hset s'
  rw [← hnil, add_right_comm] at hs'
  have hcancel : (m.set id s').totalLoad = (m.set id { s with sent := [] }).totalLoad + load s'.sent :=
    InFlight.ext (Nat.add_right_cancel (congrArg InFlight.bytes hs'))
      (Nat.add_right_cancel (congrArg InFlight.ackEliciting hs'))
  rw [hcancel, add_comm]

end PacketNumSpaceMap

end MoqQuic.L2.Tquic.Space
