import MoqQuic.L2Machine.Ackhandler.History

/-!
# Packet number spaces, ACK frames and lost packets

What `sentPacketHandler` keeps for each packet number space
(`packet_number_generator.go`, `sent_packet_handler.go:35-61`), the ACK frame it
is handed (`internal/wire/ack_frame.go`), and its record of lost packets
(`lost_packet_tracker.go`). The random draws of the generator are arguments.
-/
namespace MoqQuic.L2.Ackhandler

/-- mirrors packet_number_generator.go:16-47 -/
inductive PacketNumberGenerator
  | sequential (next : Int)
  | skipping (period maxPeriod next nextToSkip : Int)
  deriving DecidableEq, Repr

namespace PacketNumberGenerator

/-- mirrors packet_number_generator.go:80-84; `draw` is the number `Int31n` is
reduced from -/
def generateNewSkip (period maxPeriod next : Int) (draw : Nat) : PacketNumberGenerator :=
  .skipping (min (2 * period) maxPeriod) maxPeriod next (next + 3 + (draw : Int) % (2 * period))

/-- mirrors packet_number_generator.go:26-28 and :61-66 -/
def peek : PacketNumberGenerator → Int
  | .sequential next => next
  | .skipping _ _ next nextToSkip => if next = nextToSkip then next + 1 else next

/-- mirrors packet_number_generator.go:30-34 and :68-78 -/
def pop (draw : Nat) : PacketNumberGenerator → Bool × Int × PacketNumberGenerator
  | .sequential next => (false, next, .sequential (next + 1))
  | .skipping period maxPeriod next nextToSkip =>
    if next = nextToSkip then (true, next + 1, generateNewSkip period maxPeriod (next + 2) draw)
    else (false, next, .skipping period maxPeriod (next + 1) nextToSkip)

end PacketNumberGenerator

/-- mirrors sent_packet_handler.go:35-44 -/
structure PacketNumberSpace where
  history : SentPacketHistory := {}
  pns : PacketNumberGenerator
  lossTime : Int := 0
  lastAckElicitingPacketTime : Int := 0
  largestAcked : Int := invalidPacketNumber
  largestSent : Int := invalidPacketNumber
  deriving DecidableEq, Repr

/-- mirrors sent_packet_handler.go:46-59 -/
def newPacketNumberSpace (initialPN : Int) (isAppData : Bool) (draw : Nat) : PacketNumberSpace :=
  { pns := if isAppData then
      .generateNewSkip skipPacketInitialPeriod skipPacketMaxPeriod initialPN draw
    else .sequential initialPN }

structure AckRange where
  smallest : Int
  largest : Int
  deriving DecidableEq, Repr

/-- The ranges come with the largest numbers first; they are valid one by one, and do not touch.
mirrors ack_frame.go:232-259 -/
def validateAckRanges : List AckRange → Bool
  | [] => false
  | [r] => r.smallest ≤ r.largest
  | r :: r' :: rs => r.smallest ≤ r.largest && r'.smallest < r.smallest && r'.largest + 1 < r.smallest &&
      validateAckRanges (r' :: rs)

/-- An ACK frame as the frame parser hands it on, that is with valid ranges.
mirrors ack_frame.go:16-21 and :93-95 -/
structure AckFrame where
  ackRanges : List AckRange
  delayTime : Int := 0
  ect0 : Nat := 0
  ect1 : Nat := 0
  ecnce : Nat := 0
  valid : validateAckRanges ackRanges = true

namespace AckFrame

/-- mirrors ack_frame.go:262-264 -/
def largestAcked (ack : AckFrame) : Int := (ack.ackRanges.head?.map (·.largest)).getD 0

/-- mirrors ack_frame.go:267-269 -/
def lowestAcked (ack : AckFrame) : Int := (ack.ackRanges.getLast?.map (·.smallest)).getD 0

/-- mirrors ack_frame.go:228-230 -/
def hasMissingRanges (ack : AckFrame) : Bool := 1 < ack.ackRanges.length

/-- `sort.Search` finds the first range that does not start above `p`.
mirrors ack_frame.go:272-282 -/
def acksPacket (ack : AckFrame) (p : Int) : Bool :=
  if p < ack.lowestAcked ∨ p > ack.largestAcked then false
  else ((ack.ackRanges.find? fun r => p ≥ r.smallest).map fun r => decide (p ≤ r.largest)).getD false

end AckFrame

/-- The lost packets of the application-data space: number and send time, oldest first.
mirrors lost_packet_tracker.go:11-28 -/
abbrev LostPacketTracker := List (Int × Int)

abbrev maxLostPackets : Nat := 64

namespace LostPacketTracker

/-- mirrors lost_packet_tracker.go:30-38 -/
def add (t : LostPacketTracker) (pn sendTime : Int) : LostPacketTracker :=
  (if t.length = maxLostPackets then t.tail else t) ++ [(pn, sendTime)]

/-- mirrors lost_packet_tracker.go:43-47 -/
def delete (t : LostPacketTracker) (pn : Int) : LostPacketTracker := t.filter fun e => e.1 ≠ pn

/-- mirrors lost_packet_tracker.go:59-73 -/
def deleteBefore (t : LostPacketTracker) (ti : Int) : LostPacketTracker := t.dropWhile fun e => e.2 < ti

end LostPacketTracker

end MoqQuic.L2.Ackhandler
