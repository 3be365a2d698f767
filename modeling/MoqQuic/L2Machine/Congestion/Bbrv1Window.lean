import MoqQuic.L2Machine.Congestion.Bbrv1
import MoqQuic.L2Machine.Congestion.Behaviour
import Mathlib.Algebra.Order.Ring.Int
import Mathlib.Data.List.Induction
import Mathlib.Data.List.TakeWhile

/-!
# The delivery-rate window of `BBRv1Sender`

`ackinfo` holds the acknowledgements of about the last minimum RTT, and
`delivered` their bytes. `update_lastbandwidth_filter` cuts the list behind the
last expired entry, but subtracts from `delivered` only what has expired. The two
agree as long as the entries stand in the order of their times: then the expired
ones come first.

Results:
* `filter_append_takeWhile`: expired entries that come first are what is cut off.
* `cutsExpired`: one update of the filter.
* `window_run`: over whole runs, the sum is exact, the entries are in order, and
  every update removes exactly what has expired.
-/
namespace MoqQuic.L2.Congestion.Bbrv1

open L2 L2.Congestion List

/-- If `p` holds of everything before an element of which it holds, what follows the last such element is all
that `p` does not hold of. -/
theorem filter_append_takeWhile {α : Type} {p : α → Bool} {l : List α} (h : l.Pairwise fun x y => p y → p x) :
    l.filter p ++ (l.reverse.takeWhile fun x => !p x).reverse = l := by
  induction l using List.reverseRecOn with
  | nil => rfl
  | append_singleton l x ih =>
    obtain ⟨hl, -, hx⟩ := pairwise_append.mp h
    by_cases hp : p x
    · have hall : l.filter p = l := filter_eq_self.mpr fun y hy => hx y hy x (by simp) hp
      simp [hp, hall]
    · simp [hp, ← append_assoc, ih hl]

namespace Sender

/-- `delivered` is the sum of the entries, which stand in the order of their times. -/
structure Windowed (b : Sender) : Prop where
  delivered : b.delivered = ((b.ackinfo.map (·.ackedBytes)).sum : Nat)
  sorted : b.ackinfo.Pairwise fun e e' => e.recordTime ≤ e'.recordTime

theorem Windowed.congr {b b' : Sender} (h : b.Windowed) (hs : SameRecords b b') : b'.Windowed := by
  constructor
  · rw [hs.delivered, hs.ackinfo]
    exact h.delivered
  rw [hs.ackinfo]
  exact h.sorted

/-- The update of the filter at `t` takes away the entries older than the minimum RTT, keeps the others and
leaves their sum. -/
structure CutsExpired (b : Sender) (t : Int) : Prop where
  kept : ∀ e ∈ (b.updateLastbandwidthFilter t).2.ackinfo,
    t - e.recordTime ≤ (b.updateLastbandwidthFilter t).2.lastNewMinRTT
  removed : ∃ removed, b.ackinfo = removed ++ (b.updateLastbandwidthFilter t).2.ackinfo ∧
    ∀ e ∈ removed, ¬ t - e.recordTime ≤ (b.updateLastbandwidthFilter t).2.lastNewMinRTT
  windowed : (b.updateLastbandwidthFilter t).2.Windowed

theorem cutsExpired {b : Sender} (h : b.Windowed) (t : Int) : b.CutsExpired t := by
  set expired : AckInfo → Bool := fun e => t - e.recordTime > b.lastNewMinRTT with hexpired
  have hfirst : b.ackinfo.Pairwise fun e e' => expired e' → expired e := by
    refine h.sorted.imp fun {e e'} hle he' => ?_
    simp only [hexpired, decide_eq_true_eq] at he' ⊢
    omega
  have hsplit := filter_append_takeWhile hfirst
  set kept := (b.ackinfo.reverse.takeWhile fun e => !expired e).reverse with hkept
  have hinfo : (b.updateLastbandwidthFilter t).2.ackinfo = kept := rfl
  have hsum : (b.updateLastbandwidthFilter t).2.delivered =
      b.delivered - (((b.ackinfo.filter expired).map (·.ackedBytes)).sum : Nat) := rfl
  refine ⟨?_, ⟨b.ackinfo.filter expired, ?_, ?_⟩, ?_, ?_⟩
  · intro e he
    rw [hinfo, hkept, mem_reverse] at he
    have hnot := mem_takeWhile_imp he
    simp only [hexpired, Bool.not_eq_true', decide_eq_false_iff_not, not_lt] at hnot
    exact hnot
  · exact hsplit.symm
  · intro e he
    have hexp := (mem_filter.mp he).2
    simp only [hexpired, decide_eq_true_eq] at hexp
    exact not_le.mpr hexp
  · have hbytes : b.delivered = (((b.ackinfo.filter expired).map (·.ackedBytes)).sum : Nat) +
        ((kept.map (·.ackedBytes)).sum : Nat) := by
      rw [h.delivered, ← Nat.cast_add, ← sum_append, ← map_append, hsplit]
    rw [hsum, hinfo]
    omega
  have hsorted := h.sorted
  rw [← hsplit] at hsorted
  exact (pairwise_append.mp hsorted).2.1

/-! ## Calls -/

/-- The sender and the time with which a call updates the filter, if it does. -/
def filterUpdate (b : Sender) : Event → Option (Sender × Int)
  | .onPacketAcked number ackedBytes _ eventTime =>
    let b := b.recordAck number ackedBytes eventTime
    if b.state = .probeRtt then none else some (b, eventTime)
  | .hasPacingBudget now =>
    let b := b.mayExitProbeRTT now
    if b.state = .probeRtt then none else some (b, now)
  | _ => none

/-- The entries of a sender to which the acknowledgements at `times` were reported. -/
structure Recorded (times : List Int) (b : Sender) : Prop extends b.Windowed where
  recordTime : ∀ e ∈ b.ackinfo, e.recordTime ∈ times

theorem recorded_new (times : List Int) (size : Nat) (created : Int) : Recorded times (.new size created) :=
  ⟨⟨rfl, List.Pairwise.nil⟩, fun _ he => absurd he not_mem_nil⟩

namespace Recorded

variable {times : List Int} {b b' : Sender} (h : Recorded times b)
include h

theorem congr (hs : SameRecords b b') : Recorded times b' := by
  refine ⟨h.toWindowed.congr hs, ?_⟩
  rw [hs.ackinfo]
  exact h.recordTime

theorem mono {times' : List Int} (hsub : times ⊆ times') : Recorded times' b :=
  ⟨h.toWindowed, fun e he => hsub (h.recordTime e he)⟩

theorem updateLastbandwidthFilter (t : Int) : Recorded times (b.updateLastbandwidthFilter t).2 := by
  have hcut := cutsExpired h.toWindowed t
  obtain ⟨removed, hsplit, -⟩ := hcut.removed
  refine ⟨hcut.windowed, fun e he => h.recordTime e ?_⟩
  rw [hsplit]
  exact mem_append_right _ he

/-- The new entry goes to the end, where it belongs if no acknowledgement was later. -/
theorem recordAck {t : Int} (ht : ∀ x ∈ times, x ≤ t) (pn : Int) (n : Nat) :
    Recorded (times ++ [t]) (b.recordAck pn n t) := by
  unfold Sender.recordAck
  dsimp only
  set c := ({ b with sentTimes := Function.update b.sentTimes pn none }.mayExitProbeRTT t).noteSample (b.rtt pn t) t
  have hc : Recorded times c := by
    have hb : Recorded times { b with sentTimes := Function.update b.sentTimes pn none } :=
      ⟨⟨h.delivered, h.sorted⟩, h.recordTime⟩
    exact hb.congr ((sameRecords_mayExitProbeRTT _ t).trans (sameRecords_noteSample _ _ t))
  refine ⟨⟨?_, ?_⟩, ?_⟩
  · simp [hc.delivered]
  · refine pairwise_append.mpr ⟨hc.sorted, pairwise_singleton _ _, ?_⟩
    intro e he e' he'
    rw [mem_singleton.mp he']
    exact ht _ (hc.recordTime e he)
  exact forall_mem_append.mpr ⟨fun e he => mem_append_left _ (hc.recordTime e he), forall_mem_singleton.mpr (by simp)⟩

theorem onPacketAcked {t : Int} (ht : ∀ x ∈ times, x ≤ t) (pn : Int) (n prior : Nat) :
    Recorded (times ++ [t]) (b.onPacketAcked pn n prior t) := by
  have hack := h.recordAck ht pn n
  obtain ⟨-, heq⟩ | ⟨-, hsame⟩ := sameRecords_onPacketAcked b pn n prior t
  · rw [heq]
    exact hack
  · exact (hack.updateLastbandwidthFilter t).congr hsame

theorem hasPacingBudget (now : Int) : Recorded times (b.hasPacingBudget now).2 := by
  have hexit := h.congr (sameRecords_mayExitProbeRTT b now)
  unfold Sender.hasPacingBudget
  dsimp only
  split
  · exact hexit
  · exact hexit.updateLastbandwidthFilter now

end Recorded

end Sender

/-! ## Runs -/

open Sender

/-- The times at which acknowledgements are reported. -/
def ackTimes (es : List Event) : List Int :=
  es.filterMap fun
    | .onPacketAcked _ _ _ eventTime => some eventTime
    | _ => none

/-- Acknowledgements are reported in the order of their times; nothing is asked of the other calls. -/
def AcksInOrder (es : List Event) : Prop := (ackTimes es).Pairwise (· ≤ ·)

instance (es : List Event) : Decidable (AcksInOrder es) := inferInstanceAs (Decidable (List.Pairwise _ _))

theorem ackTimes_append (es es' : List Event) : ackTimes (es ++ es') = ackTimes es ++ ackTimes es' :=
  filterMap_append

theorem AcksInOrder.left {es es' : List Event} (h : AcksInOrder (es ++ es')) : AcksInOrder es := by
  unfold AcksInOrder at h
  rw [ackTimes_append] at h
  exact (pairwise_append.mp h).1

theorem AcksInOrder.le {es rest : List Event} {pn t : Int} {n prior : Nat}
    (h : AcksInOrder (es ++ .onPacketAcked pn n prior t :: rest)) : ∀ x ∈ ackTimes es, x ≤ t := by
  unfold AcksInOrder at h
  rw [ackTimes_append] at h
  exact fun x hx => (pairwise_append.mp h).2.2 x hx t (mem_cons_self ..)

theorem Sender.Recorded.apply {b : Sender} {es : List Event} {e : Event} (h : Recorded (ackTimes es) b)
    (horder : AcksInOrder (es ++ [e])) : Recorded (ackTimes (es ++ [e])) (algorithm.apply b e) := by
  rw [ackTimes_append]
  have hmore : ackTimes es ⊆ ackTimes es ++ ackTimes [e] := subset_append_left _ _
  cases e with
  | onPacketAcked pn n prior t => exact h.onPacketAcked horder.le pn n prior
  | hasPacingBudget now => exact (h.hasPacingBudget now).mono hmore
  | onPacketSent t inFlight pn n r => exact ⟨⟨h.delivered, h.sorted⟩, (h.mono hmore).recordTime⟩
  | onCongestionEvent pn lost prior | maybeExitSlowStart => exact h.mono hmore
  | onRetransmissionTimeout r clock =>
    cases r with
    | false => exact h.mono hmore
    | true => exact (recorded_new _ b.maxDatagramSize clock).congr ⟨rfl, rfl, rfl⟩
  | setMaxDatagramSize size => exact (h.mono hmore).congr ⟨rfl, rfl, rfl⟩

theorem recorded_after (size : Nat) (created : Int) {es : List Event} (horder : AcksInOrder es) :
    Recorded (ackTimes es) (algorithm.after (.new size created) es) := by
  induction es using List.reverseRecOn with
  | nil => exact recorded_new _ size created
  | append_singleton es e ih =>
    unfold SendAlgorithm.after
    rw [foldl_append, foldl_cons, foldl_nil]
    exact (ih horder.left).apply horder

/-- After the update of the filter a call leaves the window as it is. -/
theorem sameRecords_filterUpdate {b before : Sender} {e : Event} {t : Int} (hf : b.filterUpdate e = some (before, t)) :
    SameRecords (before.updateLastbandwidthFilter t).2 (algorithm.apply b e) := by
  cases e with
  | onPacketAcked pn n prior t' =>
    obtain ⟨hstate, hf⟩ := Option.ite_none_left_eq_some.mp hf
    cases hf
    exact ((sameRecords_onPacketAcked b pn n prior t).resolve_left fun h => hstate h.1).2
  | hasPacingBudget now =>
    obtain ⟨hstate, hf⟩ := Option.ite_none_left_eq_some.mp hf
    cases hf
    simp only [SendAlgorithm.apply, algorithm, Sender.hasPacingBudget, if_neg hstate]
    exact .refl _
  | _ => cases hf

/-- What a call hands to the filter is recorded as well. -/
theorem Sender.Recorded.filterUpdate {b before : Sender} {es rest : List Event} {e : Event} {t : Int}
    (h : Recorded (ackTimes es) b) (horder : AcksInOrder (es ++ e :: rest))
    (hf : b.filterUpdate e = some (before, t)) : before.Windowed := by
  cases e with
  | onPacketAcked pn n prior t' =>
    unfold Sender.filterUpdate at hf
    rw [Option.ite_none_left_eq_some] at hf
    cases hf.2
    exact (h.recordAck horder.le pn n).toWindowed
  | hasPacingBudget now =>
    unfold Sender.filterUpdate at hf
    rw [Option.ite_none_left_eq_some] at hf
    cases hf.2
    exact h.toWindowed.congr (sameRecords_mayExitProbeRTT b t)
  | _ => cases hf

/-- In every run that reports acknowledgements in order, `delivered` is the sum of the entries of the window and
so not negative, the entries are in the order of their times, and a call that updates the filter takes away exactly
the entries older than the minimum RTT. -/
theorem window_run (size : Nat) (created : Int) (es : List Event) (horder : AcksInOrder es) :
    (algorithm.after (.new size created) es).Windowed ∧
    0 ≤ (algorithm.after (.new size created) es).delivered ∧
    ∀ past e rest before t, es = past ++ e :: rest →
      (algorithm.after (.new size created) past).filterUpdate e = some (before, t) →
      before.Windowed ∧ before.CutsExpired t ∧
        SameRecords (before.updateLastbandwidthFilter t).2 (algorithm.after (.new size created) (past ++ [e])) := by
  have hrec := recorded_after size created horder
  refine ⟨hrec.toWindowed, ?_, ?_⟩
  · rw [hrec.delivered]
    exact Int.natCast_nonneg _
  intro past e rest before t hes hf
  subst hes
  have hwin := (recorded_after size created horder.left).filterUpdate horder hf
  refine ⟨hwin, cutsExpired hwin t, ?_⟩
  rw [SendAlgorithm.after, foldl_append]
  exact sameRecords_filterUpdate hf

/-- Two acknowledgements; the second brings the minimum RTT down to a millisecond, and the first is cut off. -/
def shrinking : List Event :=
  [.onPacketAcked 0 1200 0 0, .onPacketSent 4000000 1200 1 1200 true, .onPacketAcked 1 1300 1200 5000000]

theorem window_run_shrinking : AcksInOrder shrinking ∧ (algorithm.after (.new 1252 0) shrinking).Windowed ∧
    (algorithm.after (.new 1252 0) shrinking).ackinfo = [⟨1300, 5000000⟩] :=
  ⟨by decide, (window_run 1252 0 shrinking (by decide)).1, by decide +kernel⟩

end MoqQuic.L2.Congestion.Bbrv1
