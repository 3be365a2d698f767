import MoqQuic.Core.LTS

/-!
# When an ACK is sent (`connection.rs`)

A receiver acknowledges a 1-RTT packet at once if it is out of order, and otherwise
within the delay that it announced. `try_schedule_ack_frame` compares the packet with
the largest ack-eliciting one, but `recv_packet` has put the packet's own number there
already, so that a gap is never seen. The timer runs for the delay of the peer.

Results:
* `prompt_iff`: ACKs are in time exactly if there is no gap when the timer is used, and
  the timer is early enough.
* `gap_waits`: both defects.
-/
namespace MoqQuic.L2.Tquic
open LTS List

structure AckConf where
  ackElicitingThreshold : Nat
  localMaxAckDelay : Nat
  peerMaxAckDelay : Nat

/-- The part of a packet number space that ACKs depend on. `received` and `eliciting`, the numbers of all packets and of
the ack-eliciting ones, are not in the source. -/
structure AckSpace where
  needSendAck : Bool := false
  ackElicitingPktsSinceLastSentAck : Nat := 0
  largestRxAckElicitingPktNum : Nat := 0
  ackTimer : Option Nat := none
  received : List Nat := []
  eliciting : List Nat := []

/-- A packet that was received at `time` and is processed at `now`. -/
structure RxPacket where
  pktNum : Nat
  ackEliciting : Bool
  time : Nat
  now : Nat

inductive AckEvent where
  | packet (p : RxPacket)
  | ackSent
  | ackLost
  | timeout (now : Nat)

namespace AckSpace

/-- In the application space. mirrors :1373-1431 -/
def tryScheduleAckFrame (conf : AckConf) (s : AckSpace) (p : RxPacket) : AckSpace :=
  if p.ackEliciting = false ∨ s.needSendAck then s
  else
    let s := { s with ackElicitingPktsSinceLastSentAck := s.ackElicitingPktsSinceLastSentAck + 1 }
    if s.ackElicitingPktsSinceLastSentAck ≥ conf.ackElicitingThreshold then
      { s with needSendAck := true, ackTimer := none }
    else if p.pktNum < s.largestRxAckElicitingPktNum ∨ p.pktNum > s.largestRxAckElicitingPktNum + 1 then
      { s with needSendAck := true, ackTimer := none }
    else if s.ackTimer.isNone then { s with ackTimer := some (p.now + conf.peerMaxAckDelay) }
    else s

/-- mirrors :650-668 -/
def recvPacket (conf : AckConf) (s : AckSpace) (p : RxPacket) : AckSpace :=
  let s := { s with received := p.pktNum :: s.received }
  let s := if p.ackEliciting then
      { s with
        largestRxAckElicitingPktNum := max s.largestRxAckElicitingPktNum p.pktNum
        eliciting := p.pktNum :: s.eliciting }
    else s
  s.tryScheduleAckFrame conf p

/-- mirrors :2184-2185, 2822, 3302-3309 -/
def step (conf : AckConf) (s : AckSpace) : AckEvent → AckSpace
  | .packet p => s.recvPacket conf p
  | .ackSent => if s.needSendAck then { s with needSendAck := false, ackElicitingPktsSinceLastSentAck := 0 } else s
  | .ackLost => { s with needSendAck := true }
  | .timeout now => if s.ackTimer.any (· ≤ now) then { s with needSendAck := true, ackTimer := none } else s

/-- A number between the largest ack-eliciting one and `n` is missing. -/
def Gap (s : AckSpace) (n : Nat) : Prop :=
  ∃ m ∈ s.eliciting, (∀ k ∈ s.eliciting, k ≤ m) ∧ ∃ x, m < x ∧ x < n ∧ x ∉ s.received

/-- After an ack-eliciting packet the ACK is requested if it is out of order, and is otherwise requested or due within
the announced delay. -/
def Prompt (conf : AckConf) (s : AckSpace) : AckEvent → Prop
  | .packet p => p.ackEliciting = true →
    ((∃ m ∈ s.eliciting, p.pktNum < m) ∨ s.Gap p.pktNum → (s.recvPacket conf p).needSendAck = true) ∧
    ((s.recvPacket conf p).needSendAck = true ∨
      ∃ t, (s.recvPacket conf p).ackTimer = some t ∧ t ≤ p.time + conf.localMaxAckDelay)
  | _ => True

/-- If neither an ACK is due already, nor the threshold is reached, nor a later packet was received: there is no gap,
and the timer that runs, or else the delay of the peer, ends in time. -/
def InTime (conf : AckConf) (s : AckSpace) : AckEvent → Prop
  | .packet p => p.ackEliciting = true → s.needSendAck = false →
    s.ackElicitingPktsSinceLastSentAck + 1 < conf.ackElicitingThreshold → (∀ m ∈ s.eliciting, m ≤ p.pktNum) →
    ¬ s.Gap p.pktNum ∧ s.ackTimer.getD (p.now + conf.peerMaxAckDelay) ≤ p.time + conf.localMaxAckDelay
  | _ => True

def Largest (s : AckSpace) : Prop :=
  (∀ m ∈ s.eliciting, m ≤ s.largestRxAckElicitingPktNum) ∧
    (s.largestRxAckElicitingPktNum = 0 ∨ s.largestRxAckElicitingPktNum ∈ s.eliciting)

variable {conf : AckConf} {s : AckSpace}

theorem tryScheduleAckFrame_largest (p : RxPacket) (h : s.Largest) : (s.tryScheduleAckFrame conf p).Largest := by
  unfold tryScheduleAckFrame
  dsimp only
  repeat
    split
    · exact h
  exact h

theorem Largest.step (h : s.Largest) (e : AckEvent) : (s.step conf e).Largest := by
  cases e with
  | packet p =>
    apply tryScheduleAckFrame_largest
    split
    · refine ⟨forall_mem_cons.mpr ⟨Nat.le_max_right _ _, fun m hm => ?_⟩, ?_⟩
      · exact Nat.le_trans (h.1 m hm) (Nat.le_max_left _ _)
      rcases Nat.le_total s.largestRxAckElicitingPktNum p.pktNum with hle | hle
      · rw [Nat.max_eq_right hle]
        exact .inr mem_cons_self
      · rw [Nat.max_eq_left hle]
        exact h.2.imp id (mem_cons_of_mem _)
    · exact h
  | ackLost => exact h
  | ackSent | timeout now =>
    unfold AckSpace.step
    dsimp only
    split <;> exact h

theorem Largest.inTime (h : s.Largest) (e : AckEvent) : s.Prompt conf e ↔ s.InTime conf e := by
  cases e with
  | packet p =>
    refine forall_congr' fun hel => ?_
    simp only [recvPacket, tryScheduleAckFrame, hel, if_true, Bool.true_eq_false, false_or]
    by_cases hdue : s.needSendAck = true ∨ conf.ackElicitingThreshold ≤ s.ackElicitingPktsSinceLastSentAck + 1
    · grind
    by_cases hlate : p.pktNum < s.largestRxAckElicitingPktNum
    · -- the packet that was received before and is later
      have hmem := h.2.resolve_left (by omega)
      grind
    -- `largest_rx_ack_eliciting_pkt_num` is the packet's own number, so that the timer is used
    have hmax : max s.largestRxAckElicitingPktNum p.pktNum = p.pktNum := by omega
    have hnone : ∀ m ∈ s.eliciting, m ≤ p.pktNum := fun m hm => by
      have := h.1 m hm
      omega
    obtain ⟨hneed, hcount⟩ := not_or.mp hdue
    cases htimer : s.ackTimer <;> simp [hneed, hcount, hmax] <;> grind
  | ackSent | ackLost | timeout now => exact Iff.rfl

/-- Along any events, every ACK is prompt exactly if every packet is in time. -/
theorem prompt_iff (conf : AckConf) (events : List AckEvent) :
    Along (fun s e => some (step conf s e)) (Prompt conf) {} events ↔
      Along (fun s e => some (step conf s e)) (InTime conf) {} events := by
  have hnew : Largest {} := ⟨fun m hm => absurd hm not_mem_nil, .inl rfl⟩
  refine Along.iff_of_invariant (fun _ e h => h.inTime e) (fun s e s' h _ hs => ?_) hnew
  exact Option.some.inj hs ▸ h.step e

/-- Packet 5 waits for the timer although 2, 3 and 4 are missing. With a peer whose delay is longer, packet 0 waits for
longer than announced. -/
theorem gap_waits :
    ¬ Along (fun s e => some (step ⟨2, 25, 25⟩ s e)) (Prompt ⟨2, 25, 25⟩) {} [.packet ⟨0, true, 0, 0⟩,
        .packet ⟨1, true, 5, 5⟩, .ackSent, .packet ⟨5, true, 10, 10⟩] ∧
      ¬ Along (fun s e => some (step ⟨2, 25, 1000⟩ s e)) (Prompt ⟨2, 25, 1000⟩) {} [.packet ⟨0, true, 0, 0⟩] := by
  constructor
  · intro h
    have hprompt := (((h.2 _ rfl).2 _ rfl).2 _ rfl).1 rfl
    have hneed := hprompt.1 (.inr ⟨1, by decide, by decide, 2, by decide, by decide, by decide⟩)
    exact absurd hneed (by decide)
  · intro h
    obtain hneed | ⟨t, ht, hle⟩ := (h.1 rfl).2
    · exact absurd hneed (by decide)
    · cases ht
      exact absurd hle (by decide)

end AckSpace
end MoqQuic.L2.Tquic
