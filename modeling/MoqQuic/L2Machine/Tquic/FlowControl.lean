import MoqQuic.Core.LTS
import MoqQuic.L2Machine.Tquic.DeliveryRate
import MoqQuic.L2Machine.Tquic.RecvBuf

/-!
# tquic: receive windows that tune themselves (`connection/flowcontrol.rs`)

Before a MAX_DATA or MAX_STREAM_DATA frame is written, a window that was used up
within two round-trip times is doubled, up to `max_window`; the limit moves
after the frame, unless writing it fails. The window of the connection is also
raised to a multiple of that of a stream. Offsets are `u64` and wrap.

A window above `max_window`, from the configuration or raised there, is cut down
to `max_window` by the doubling, and the next frame takes the limit back. The
documentation says that tuning never decreases the window.

Result:
* `limits_never_shrink_iff`: no call lowers the window or the limit, exactly if
  every doubling finds the window at most at `max_window`, and nothing wraps.

Line numbers without a file are those of `flowcontrol.rs`.
-/
namespace MoqQuic.L2.Tquic
open LTS

/-- mirrors :36-64 -/
structure TunedFlowControl extends FlowControl where
  maxWindow : Nat
  lastUpdated : Option Int
  deriving DecidableEq

inductive FlowCall where
  | increaseRecvOff (delta : Nat)
  | increaseReadOff (delta : Nat)
  | autotuneWindow (now : Int) (srtt : Nat)
  | ensureWindowLowerBound (minWindow : Nat)
  | updateMaxData (now : Int)

namespace TunedFlowControl

/-- mirrors :67-74 -/
def new (window maxWindow : Nat) : TunedFlowControl := { FlowControl.new window with maxWindow, lastUpdated := none }

variable (f : TunedFlowControl)

/-- mirrors :116-119 -/
def updateMaxData (now : Int) : TunedFlowControl :=
  { f with maxData := f.maxDataNext % 2 ^ 64, lastUpdated := some now }

/-- The last update is less than two round-trip times ago. -/
def usedUp (now : Int) (srtt : Nat) : Bool :=
  f.lastUpdated.any fun t => durationSince now t < srtt * 2

/-- mirrors :124-130 -/
def autotuneWindow (now : Int) (srtt : Nat) : TunedFlowControl :=
  if f.usedUp now srtt then { f with window := min (f.window * 2 % 2 ^ 64) f.maxWindow } else f

/-- mirrors :134-136 -/
def ensureWindowLowerBound (minWindow : Nat) : TunedFlowControl :=
  { f with window := max f.window minWindow }

/-- Data is only received up to the limit, and only read once it has been received. -/
def step : FlowCall → Option TunedFlowControl
  | .increaseRecvOff delta =>
    if f.recvOff + delta ≤ f.maxData then some { f with toFlowControl := f.increaseRecvOff delta } else none
  | .increaseReadOff delta =>
    if f.readOff + delta ≤ f.recvOff then some { f with toFlowControl := f.increaseReadOff delta } else none
  | .autotuneWindow now srtt => some (f.autotuneWindow now srtt)
  | .ensureWindowLowerBound minWindow => if minWindow < 2 ^ 64 then some (f.ensureWindowLowerBound minWindow) else none
  | .updateMaxData now => some (f.updateMaxData now)

/-- The call lowers neither the window nor the limit, and what has been read or received stays below the limit. -/
def NeverShrinks (c : FlowCall) : Prop :=
  ∀ f', f.step c = some f' →
    f.window ≤ f'.window ∧ f.maxData ≤ f'.maxData ∧ f'.readOff ≤ f'.maxData ∧ f'.recvOff ≤ f'.maxData

/-- A doubling finds the window at most at its maximum, and neither it nor the new limit wraps. -/
def Roomy : FlowCall → Prop
  | .autotuneWindow now srtt => f.usedUp now srtt = true → f.window ≤ f.maxWindow ∧ f.window < 2 ^ 63
  | .updateMaxData _ => f.maxDataNext < 2 ^ 64
  | _ => True

def Inv : Prop :=
  f.readOff ≤ f.recvOff ∧ f.recvOff ≤ f.maxData ∧ f.maxData ≤ f.maxDataNext ∧ f.maxData < 2 ^ 64 ∧ f.window < 2 ^ 64

variable {f f' : TunedFlowControl} {c : FlowCall}

/-- One call: it lowers nothing exactly if it is `Roomy`, and then keeps the invariant. -/
theorem Inv.step (h : f.Inv) (hs : f.step c = some f') :
    (f.window ≤ f'.window ∧ f.maxData ≤ f'.maxData ∧ f'.readOff ≤ f'.maxData ∧ f'.recvOff ≤ f'.maxData ↔ f.Roomy c) ∧
      (f.Roomy c → f'.Inv) := by
  cases c with
  | increaseRecvOff delta =>
    obtain ⟨hle, hs⟩ := Option.ite_none_right_eq_some.mp hs
    cases hs
    simp only [Inv, Roomy, FlowControl.increaseRecvOff, FlowControl.maxDataNext, iff_true, true_implies] at h ⊢
    omega
  | increaseReadOff delta =>
    obtain ⟨hle, hs⟩ := Option.ite_none_right_eq_some.mp hs
    cases hs
    simp only [Inv, Roomy, FlowControl.increaseReadOff, FlowControl.maxDataNext, iff_true, true_implies] at h ⊢
    omega
  | autotuneWindow now srtt =>
    cases hs
    -- above 2^63 the doubled window wraps to less than the window
    cases hused : f.usedUp now srtt <;>
      simp only [Inv, Roomy, autotuneWindow, FlowControl.maxDataNext, hused, if_true, Bool.false_eq_true, if_false,
        true_implies, false_implies, iff_true] at h ⊢ <;> omega
  | ensureWindowLowerBound minWindow =>
    obtain ⟨hmin, hs⟩ := Option.ite_none_right_eq_some.mp hs
    cases hs
    simp only [Inv, Roomy, ensureWindowLowerBound, FlowControl.maxDataNext, iff_true, true_implies] at h ⊢
    omega
  | updateMaxData now =>
    cases hs
    simp only [Inv, Roomy, updateMaxData, FlowControl.maxDataNext] at h ⊢
    omega

/-- The window and the limit never decrease, and the limit stays above what has been received and read, exactly if
the window is at most at its maximum whenever it is doubled, and nothing wraps. -/
theorem limits_never_shrink_iff (window maxWindow : Nat) (hw : window < 2 ^ 64) (calls : List FlowCall) :
    Along step NeverShrinks (new window maxWindow) calls ↔ Along step Roomy (new window maxWindow) calls := by
  have hnew : (new window maxWindow).Inv := ⟨le_rfl, Nat.zero_le _, Nat.le_add_left _ _, hw, hw⟩
  refine Along.iff_of_invariant (fun f c h => ⟨fun hn => ?_, fun hroom f' hs => (h.step hs).1.mpr hroom⟩)
    (fun f c f' h hroom hs => (h.step hs).2 hroom) hnew
  cases hs : f.step c with
  | none => cases c <;> trivial
  | some f' => exact (h.step hs).1.mp (hn f' hs)

/-- A window that is doubled after it was used up in less than two round-trip times. -/
theorem limits_never_shrink_doubled : Along step NeverShrinks (new 10 40)
    [.increaseRecvOff 8, .increaseReadOff 8, .updateMaxData 0, .autotuneWindow 5 10, .updateMaxData 5] := by
  refine (limits_never_shrink_iff 10 40 (by decide) _).mpr ?_
  exact .cons trivial rfl (.cons trivial rfl (.cons (show _ < 2 ^ 64 by decide) rfl (.cons (fun _ => by decide) rfl
    (.cons (show _ < 2 ^ 64 by decide) rfl trivial))))

/-- A window above its maximum is cut in half, and the next MAX_DATA frame takes half of the limit back. -/
theorem window_above_max_shrinks : (run step (new 10 5) [.updateMaxData 0, .autotuneWindow 0 1, .updateMaxData 0]).map
        (fun f => (f.window, f.maxData)) = some (5, 5) ∧
      ¬ Along step NeverShrinks (new 10 5) [.updateMaxData 0, .autotuneWindow 0 1, .updateMaxData 0] := by
  refine ⟨rfl, fun h => ?_⟩
  have hshrinks := ((h.2 _ rfl).1 _ rfl).1
  exact absurd hshrinks (by decide)

end TunedFlowControl

end MoqQuic.L2.Tquic
