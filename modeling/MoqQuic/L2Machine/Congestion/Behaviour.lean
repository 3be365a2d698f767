import MoqQuic.L2Machine.Congestion.SendAlgorithm

/-!
# What can be observed of a congestion controller

Two controllers behave alike from a point in time on if, after every sequence of
events that are not earlier, they give the same window and the same answers.

* `Simulates.sameBehaviour`: a relation that every event keeps and that fixes the
  answers.
-/
namespace MoqQuic.L2.Congestion

variable {C W : Type}

/-- The calls of the interface that change a controller. -/
inductive Event
  | onPacketSent (sentTime : Int) (bytesInFlight : Nat) (packetNumber : Int) (bytes : Nat) (isRetransmittable : Bool)
  | onPacketAcked (number : Int) (ackedBytes priorInFlight : Nat) (eventTime : Int)
  | onCongestionEvent (number : Int) (lostBytes priorInFlight : Nat)
  | maybeExitSlowStart
  | hasPacingBudget (now : Int)
  | onRetransmissionTimeout (packetsRetransmitted : Bool) (clock : Int)
  | setMaxDatagramSize (maxDatagramSize : Nat)

def Event.time : Event → Option Int
  | .onPacketSent sentTime _ _ _ _ => some sentTime
  | .onPacketAcked _ _ _ eventTime => some eventTime
  | .hasPacingBudget now => some now
  | .onRetransmissionTimeout _ clock => some clock
  | .onCongestionEvent _ _ _ | .maybeExitSlowStart | .setMaxDatagramSize _ => none

/-- The events come in the order of their times, none before `t`. -/
def Later : Int → List Event → Prop
  | _, [] => True
  | t, e :: es => (∀ t' ∈ e.time, t ≤ t') ∧ Later (e.time.getD t) es

def SendAlgorithm.apply (A : SendAlgorithm C) (c : C) : Event → C
  | .onPacketSent t inFlight pn n r => A.onPacketSent c t inFlight pn n r
  | .onPacketAcked pn n prior t => A.onPacketAcked c pn n prior t
  | .onCongestionEvent pn lost prior => A.onCongestionEvent c pn lost prior
  | .maybeExitSlowStart => A.maybeExitSlowStart c
  | .hasPacingBudget now => (A.hasPacingBudget c now).2
  | .onRetransmissionTimeout r clock => A.onRetransmissionTimeout c r clock
  | .setMaxDatagramSize size => A.setMaxDatagramSize c size

/-- The controller after a sequence of events. -/
def SendAlgorithm.after (A : SendAlgorithm C) (c : C) (es : List Event) : C := es.foldl A.apply c

/-- The same answers at one point; `window` is `GetCongestionWindow`. -/
structure Agree (A : SendAlgorithm C) (window : C → W) (c c' : C) : Prop where
  window : window c = window c'
  canSend : ∀ bytesInFlight, A.canSend c bytesInFlight = A.canSend c' bytesInFlight
  timeUntilSend : ∀ bytesInFlight clock, A.timeUntilSend c bytesInFlight clock = A.timeUntilSend c' bytesInFlight clock

/-- The same answers from the time `t` on. -/
structure SameBehaviour (A : SendAlgorithm C) (window : C → W) (t : Int) (c c' : C) : Prop where
  agree : ∀ es, Later t es → Agree A window (A.after c es) (A.after c' es)
  hasPacingBudget : ∀ es now, Later t (es ++ [.hasPacingBudget now]) →
    (A.hasPacingBudget (A.after c es) now).1 = (A.hasPacingBudget (A.after c' es) now).1

/-- `R t` relates controllers that agree, and every event at a time from `t` on leads to related ones. -/
structure Simulates (A : SendAlgorithm C) (window : C → W) (R : Int → C → C → Prop) : Prop where
  agree : ∀ {t c c'}, R t c c' → Agree A window c c'
  hasPacingBudget : ∀ {t c c' now}, R t c c' → t ≤ now → (A.hasPacingBudget c now).1 = (A.hasPacingBudget c' now).1
  apply : ∀ {t c c'} e, R t c c' → (∀ t' ∈ e.time, t ≤ t') → R (e.time.getD t) (A.apply c e) (A.apply c' e)

theorem Simulates.sameBehaviour {A : SendAlgorithm C} {window : C → W} {R : Int → C → C → Prop}
    (h : Simulates A window R) {t : Int} {c c' : C} (hr : R t c c') : SameBehaviour A window t c c' := by
  constructor
  · intro es
    induction es generalizing t c c' with
    | nil => exact fun _ => h.agree hr
    | cons e es ih => exact fun hl => ih (h.apply e hr hl.1) hl.2
  intro es now
  induction es generalizing t c c' with
  | nil => exact fun hl => h.hasPacingBudget hr (hl.1 now rfl)
  | cons e es ih => exact fun hl => ih (h.apply e hr hl.1) hl.2

end MoqQuic.L2.Congestion
