import MoqQuic.Core.LTS
import MoqQuic.L2Machine.Congestion.Bbrv3
import MoqQuic.L2Machine.Tquic.Startup

/-!
# `BBRv3Sender` beside the controller it is ported from

The same events, fed to quic-go's `BBRv3Sender` and to tquic's `Bbr3`. An
acknowledgement is `begin_ack`, any number of `on_ack` and `end_ack`; a loss may
be reported inside or outside of one. The packets in flight carry what `on_sent`
has noted in them, and leave with their acknowledgement or loss.

The public methods of `BBRv3Sender` never call `updateModelAndState`, so it stays
in Startup.

Results:
* `agree_after_acks_iff`: the two agree after every acknowledgement exactly as
  long as `Bbr3` has no reason to leave Startup.
* `diverge_after_six_seconds`: the first acknowledgement after a silence of six
  seconds takes `Bbr3` to ProbeRTT.
-/
namespace MoqQuic.L4.Bbrv3Port

open L2.Congestion L2.Tquic

/-- Both controllers, and the packets in flight. -/
structure Pair where
  go : Bbrv3.Sender
  rust : Bbr3
  inFlight : List SentPacket

inductive Event
  | sent (now : Int) (pktNum size : Nat)
  | beginAck (now : Int)
  | onAck (now : Int) (pktNum : Nat)
  | endAck
  | lost (now : Int) (pktNum : Nat) (inPersistentCongestion : Bool)
  deriving DecidableEq, Repr

/-- The calls of an acknowledgement. -/
def Event.ack (now : Int) (pktNums : List Nat) : List Event :=
  .beginAck now :: pktNums.map (.onAck now) ++ [.endAck]

/-- Whose packets both controllers count. -/
def Pair.sent (s : Pair) (now : Int) (pktNum size : Nat) : Pair :=
  let sent := s.rust.onSent now { pktNum, timeSent := now, sentSize := size }
  { go := s.go.onPacketSent now s.rust.bytesInFlight pktNum size true
    rust := sent.1
    inFlight := s.inFlight ++ [sent.2] }

def Pair.onAck (s : Pair) (now : Int) (p : SentPacket) : Pair :=
  { go := s.go.onPacketAcked p.pktNum p.sentSize s.rust.bytesInFlight now
    rust := (s.rust.onAck { p with timeAcked := some now }).1
    inFlight := s.inFlight.erase p }

def Pair.lost (s : Pair) (now : Int) (p : SentPacket) (persistent : Bool) : Pair :=
  { go := s.go.onCongestionEvent p.pktNum p.sentSize s.rust.bytesInFlight
    rust := s.rust.onCongestionEvent now p persistent p.sentSize
    inFlight := s.inFlight.erase p }

/-- `none` when the packet is not in flight, or `Bbr3` panics. -/
def Pair.step (s : Pair) : Event → Option Pair
  | .sent now pktNum size => some (s.sent now pktNum size)
  | .beginAck now => some { s with rust := s.rust.beginAck now }
  | .onAck now pktNum => (s.inFlight.find? (·.pktNum = pktNum)).map (s.onAck now ·)
  | .endAck => s.rust.endAck.map fun rust => { s with rust }
  | .lost now pktNum persistent => (s.inFlight.find? (·.pktNum = pktNum)).map (s.lost now · persistent)

/-- Both are created with the windows of `NewBBRv3Sender`. -/
def Pair.new (maxDatagramSize initialRtt : Nat) (now : Int) (draws : Nat → Nat × Nat) : Pair :=
  { go := Bbrv3.Sender.new maxDatagramSize now
    rust := Bbr3.new (Bbr3Config.fromWindows 4 80 initialRtt maxDatagramSize) now draws
    inFlight := [] }

/-- The state of the port with the same name. -/
def port : State → Bbrv3.State
  | .startup => .startup
  | .drain => .drain
  | .probeBwDown => .probeBwDown
  | .probeBwCruise => .probeBwCruise
  | .probeBwRefill => .probeBwRefill
  | .probeBwUp => .probeBwUp
  | .probeRTT => .probeRtt

def Pair.Agree (s : Pair) : Prop :=
  s.go.state = port s.rust.state ∧ s.go.isFilledPipe = s.rust.isFilledPipe

/-! ## Both in Startup -/

/-- Both are as they were created. -/
structure Pair.InStartup (s : Pair) : Prop where
  go : s.go.InStartup
  rust : s.rust.InStartup

/-- While the port is in Startup, agreement means that the original is. -/
theorem agree_iff {s : Pair} (hgo : s.go.InStartup) : s.Agree ↔ s.rust.InStartup := by
  unfold Pair.Agree
  rw [hgo.state, hgo.isFilledPipe]
  constructor
  · rintro ⟨hs, hf⟩
    refine ⟨?_, hf.symm⟩
    cases hst : s.rust.state <;> rw [hst] at hs <;> first | rfl | cases hs
  rintro ⟨hs, hf⟩
  rw [hs, hf]
  exact ⟨rfl, rfl⟩

/-- An event other than the end of an acknowledgement. -/
theorem inStartup_step {s s' : Pair} {l : Event} (hi : s.InStartup) (hl : l ≠ .endAck)
    (hs : s.step l = some s') : s'.InStartup := by
  cases l with
  | sent now pktNum size =>
    cases hs
    exact ⟨hi.go.onPacketSent now s.rust.bytesInFlight pktNum size true, hi.rust.onSent now _⟩
  | beginAck now =>
    cases hs
    exact ⟨hi.go, hi.rust.beginAck now⟩
  | onAck now pktNum =>
    obtain ⟨p, -, rfl⟩ := Option.map_eq_some_iff.mp hs
    exact ⟨hi.go.onPacketAcked p.pktNum p.sentSize s.rust.bytesInFlight now, hi.rust.onAck _⟩
  | endAck => exact (hl rfl).elim
  | lost now pktNum persistent =>
    obtain ⟨p, -, rfl⟩ := Option.map_eq_some_iff.mp hs
    exact ⟨hi.go.onCongestionEvent p.pktNum p.sentSize s.rust.bytesInFlight,
      hi.rust.onCongestionEvent now p persistent p.sentSize⟩

theorem endAck_step {s s' : Pair} (hi : s.InStartup) (hs : s.step .endAck = some s') :
    s'.go.InStartup ∧ (s'.rust.InStartup ↔ ¬ s.rust.LeavesStartup) := by
  obtain ⟨rust, hr, rfl⟩ := Option.map_eq_some_iff.mp hs
  exact ⟨hi.go, Bbr3.endAck_inStartup_iff hi.rust hr⟩

/-- The two controllers agree after every acknowledgement of a run exactly when at none of them `Bbr3` leaves
Startup. -/
theorem agree_after_acks_iff (maxDatagramSize initialRtt : Nat) (now : Int) (draws : Nat → Nat × Nat)
    (ls : List Event) (s : Pair)
    (hrun : LTS.run Pair.step (Pair.new maxDatagramSize initialRtt now draws) ls = some s) :
    LTS.Ensures Pair.step (fun l s' => l = .endAck → s'.Agree) (Pair.new maxDatagramSize initialRtt now draws) ls ↔
      LTS.Along Pair.step (fun s l => l = .endAck → ¬ s.rust.LeavesStartup)
        (Pair.new maxDatagramSize initialRtt now draws) ls := by
  have hnew : (Pair.new maxDatagramSize initialRtt now draws).InStartup :=
    ⟨Bbrv3.Sender.inStartup_new _ _, Bbr3.inStartup_new _ _ _⟩
  refine LTS.ensures_iff_along (fun s l s' hi hs => ?_) (fun s l s' hi hok hs => ?_) hnew hrun
  · by_cases hl : l = .endAck
    · subst hl
      obtain ⟨hgo, hiff⟩ := endAck_step hi hs
      rw [agree_iff hgo, hiff]
    · exact ⟨fun _ h => (hl h).elim, fun _ h => (hl h).elim⟩
  by_cases hl : l = .endAck
  · subst hl
    obtain ⟨hgo, hiff⟩ := endAck_step hi hs
    exact ⟨hgo, hiff.mpr (hok rfl)⟩
  · exact inStartup_step hi hl hs

/-- One packet, acknowledged after twenty milliseconds. -/
theorem agree_after_acks_iff_first_ack : ∃ s, LTS.run Pair.step (Pair.new 1200 333000000 0 fun _ => (0, 0))
      (.sent 0 0 1200 :: Event.ack 20000000 [0]) = some s ∧ s.Agree ∧
    (LTS.Ensures Pair.step (fun l s' => l = .endAck → s'.Agree) (Pair.new 1200 333000000 0 fun _ => (0, 0))
        (.sent 0 0 1200 :: Event.ack 20000000 [0]) ↔
      LTS.Along Pair.step (fun s l => l = .endAck → ¬ s.rust.LeavesStartup)
        (Pair.new 1200 333000000 0 fun _ => (0, 0)) (.sent 0 0 1200 :: Event.ack 20000000 [0])) :=
  ⟨_, rfl, ⟨rfl, rfl⟩, agree_after_acks_iff 1200 333000000 0 (fun _ => (0, 0)) _ _ rfl⟩

/-- One packet, acknowledged after six seconds: the estimate of the minimum RTT has expired. -/
theorem diverge_after_six_seconds : ∃ s, LTS.run Pair.step (Pair.new 1200 333000000 0 fun _ => (0, 0))
      (.sent 0 0 1200 :: Event.ack 6000000000 [0]) = some s ∧
    s.rust.state = .probeRTT ∧ s.go.state = .startup ∧ ¬ s.Agree :=
  ⟨_, rfl, rfl, rfl, fun h => by cases h.1⟩

end MoqQuic.L4.Bbrv3Port
