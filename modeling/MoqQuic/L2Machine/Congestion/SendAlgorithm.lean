import Mathlib.Logic.Function.Basic
import Mathlib.Logic.Relation

/-!
# The congestion controller's interface

`internal/congestion/interface.go`: the methods through which
`sentPacketHandler` drives a controller, as a record of functions on the
controller's state. `HasPacingBudget` may change the state (it does in
`BBRv1Sender`). A controller that reads the clock gets the reading as an
argument.

* `KeepsSendTimes`: the controller files a send time under each packet number
  it is told about, removes it when that number is acknowledged, and touches
  it nowhere else. Both BBR senders are of this kind.
-/
namespace MoqQuic.L2.Congestion

variable {C : Type}

/-- mirrors interface.go:9-30 -/
structure SendAlgorithm (C : Type) where
  timeUntilSend : C → (bytesInFlight : Nat) → (clock : Int) → Int
  hasPacingBudget : C → (now : Int) → Bool × C
  onPacketSent : C → (sentTime : Int) → (bytesInFlight : Nat) → (packetNumber : Int) → (bytes : Nat) →
    (isRetransmittable : Bool) → C
  canSend : C → (bytesInFlight : Nat) → Bool
  maybeExitSlowStart : C → C
  onPacketAcked : C → (number : Int) → (ackedBytes : Nat) → (priorInFlight : Nat) → (eventTime : Int) → C
  onCongestionEvent : C → (number : Int) → (lostBytes : Nat) → (priorInFlight : Nat) → C
  onRetransmissionTimeout : C → (packetsRetransmitted : Bool) → (clock : Int) → C
  setMaxDatagramSize : C → Nat → C
  /-- A `CubicSender` is replaced by a new one when the path changes. -/
  newCubicSender : Option ((initialMaxDatagramSize : Nat) → C)

/-- What the handler may call between two sends or acknowledgements. -/
inductive Relay (A : SendAlgorithm C) : C → C → Prop
  | onCongestionEvent (c : C) (pn : Int) (lost prior : Nat) : Relay A c (A.onCongestionEvent c pn lost prior)
  | maybeExitSlowStart (c : C) : Relay A c (A.maybeExitSlowStart c)

/-- Any number of such calls. -/
abbrev Relayed (A : SendAlgorithm C) : C → C → Prop := Relation.ReflTransGen (Relay A)

/-- `times c pn` is the send time filed under `pn`. -/
structure KeepsSendTimes (A : SendAlgorithm C) (times : C → Int → Option Int) : Prop where
  onPacketSent : ∀ c t inFlight pn n retransmittable,
    times (A.onPacketSent c t inFlight pn n retransmittable) = Function.update (times c) pn (some t)
  onPacketAcked : ∀ c pn n prior t, times (A.onPacketAcked c pn n prior t) = Function.update (times c) pn none
  onCongestionEvent : ∀ c pn lost prior, times (A.onCongestionEvent c pn lost prior) = times c
  maybeExitSlowStart : ∀ c, times (A.maybeExitSlowStart c) = times c
  hasPacingBudget : ∀ c now, times (A.hasPacingBudget c now).2 = times c
  setMaxDatagramSize : ∀ c n, times (A.setMaxDatagramSize c n) = times c
  onRetransmissionTimeout : ∀ c clock, times (A.onRetransmissionTimeout c true clock) = fun _ => none
  newCubicSender : A.newCubicSender = none

variable {A : SendAlgorithm C} {times : C → Int → Option Int}

theorem KeepsSendTimes.relayed (hk : KeepsSendTimes A times) {c c' : C} (hr : Relayed A c c') :
    times c' = times c := by
  induction hr with
  | refl => rfl
  | tail _ hcall ih =>
    cases hcall with
    | onCongestionEvent pn lost prior => rw [hk.onCongestionEvent, ih]
    | maybeExitSlowStart => rw [hk.maybeExitSlowStart, ih]

end MoqQuic.L2.Congestion
