import MoqQuic.L2Machine.Congestion.Bbrv1MinRtt
import MoqQuic.L2Machine.Congestion.Bbrv3
import MoqQuic.L2Machine.Congestion.Behaviour
import Mathlib.Tactic.Ring

/-!
# What `OnRetransmissionTimeout(true)` leaves of a BBR sender

Both senders replace themselves by a new one with their own datagram size.
`BBRv3Sender` keeps its minimum RTT, `BBRv1Sender` the minimum, its time and the
start of the last PROBE_RTT. Whether this can be told from a new sender depends on
what the kept fields are read for.

Results:
* `Bbrv3.sameBehaviour_reset_iff`: the minimum RTT is never read in Startup; only the
  datagram size counts.
* `Bbrv1.sameBehaviour_reset_iff`: the minimum RTT and the time at which the next
  PROBE_RTT may start count as well.
-/
namespace MoqQuic.L2.Congestion

namespace Bbrv3

open Sender

/-- What the window and the pace depend on in Startup. -/
structure Pace where
  cwnd : Nat
  minCwnd : Nat
  maxDatagramSize : Nat
  pacingRate : Nat
  initTime : Int

def Sender.pace (b : Sender) : Pace := ⟨b.cwnd, b.minCwnd, b.maxDatagramSize, b.pacingRate, b.initTime⟩

theorem pace_onPacketAcked (b : Sender) (pn : Int) (n prior : Nat) (t : Int) :
    (b.onPacketAcked pn n prior t).pace = b.pace := by
  unfold Sender.onPacketAcked Sender.updateMinRtt Sender.filterMin Sender.filterProbe
  dsimp only
  split
  · split <;> split <;> rfl
  · rfl

theorem pace_onCongestionEvent (b : Sender) (pn : Int) (lost prior : Nat) :
    (b.onCongestionEvent pn lost prior).pace = b.pace := by
  unfold Sender.onCongestionEvent Sender.countLossEvent Sender.checkStartupHighLoss
  dsimp only
  repeat' split
  all_goals rfl

theorem pace_onPacketSent (b : Sender) (t : Int) (inFlight : Nat) (pn : Int) (n : Nat) (r : Bool) :
    (b.onPacketSent t inFlight pn n r).pace = { b.pace with
      initTime := if b.pace.pacingRate > 0 ∧ n > 0 then
        addTime t ((n * 1000000000 / b.pace.pacingRate : Nat) : Int) else b.pace.initTime } := by
  unfold Sender.onPacketSent
  by_cases hc : b.pacingRate > 0 ∧ n > 0 <;> simp [pace, hc]

/-- Senders in Startup with the same window and the same pace. -/
structure Alike (b b' : Sender) : Prop where
  inStartup : b.InStartup
  inStartup' : b'.InStartup
  pace : b.pace = b'.pace

theorem Alike.onRetransmissionTimeout {b b' : Sender} (h : Alike b b') (r : Bool) (clock : Int) :
    Alike (b.onRetransmissionTimeout r clock) (b'.onRetransmissionTimeout r clock) := by
  cases r with
  | false => exact h
  | true =>
    refine ⟨h.inStartup.onRetransmissionTimeout true clock, h.inStartup'.onRetransmissionTimeout true clock, ?_⟩
    exact congrArg (fun p : Pace => (Sender.new p.maxDatagramSize clock).pace) h.pace

theorem simulates_alike : Simulates algorithm (fun b => (b.getCongestionWindow : Int)) fun _ => Alike where
  agree {_ b b'} h := by
    obtain ⟨hcwnd, hmin, -, hrate, htime⟩ := Pace.mk.inj h.pace
    constructor
    · simp only [getCongestionWindow, hcwnd, hmin]
    · intro n
      simp only [algorithm, canSend, hcwnd]
    · intro n clock
      simp only [algorithm, timeUntilSend, hrate, htime]
  hasPacingBudget h _ := by simp [algorithm, hasPacingBudget]
  apply {_ b b'} e h _ := by
    cases e with
    | onPacketSent t inFlight pn n r =>
      have hsent := pace_onPacketSent b t inFlight pn n r
      rw [h.pace, ← pace_onPacketSent b' t inFlight pn n r] at hsent
      exact ⟨h.inStartup.onPacketSent t inFlight pn n r, h.inStartup'.onPacketSent t inFlight pn n r, hsent⟩
    | onPacketAcked pn n prior t =>
      have hacked := pace_onPacketAcked b pn n prior t
      rw [h.pace, ← pace_onPacketAcked b' pn n prior t] at hacked
      exact ⟨h.inStartup.onPacketAcked pn n prior t, h.inStartup'.onPacketAcked pn n prior t, hacked⟩
    | onCongestionEvent pn lost prior =>
      have hlost := pace_onCongestionEvent b pn lost prior
      rw [h.pace, ← pace_onCongestionEvent b' pn lost prior] at hlost
      exact ⟨h.inStartup.onCongestionEvent pn lost prior, h.inStartup'.onCongestionEvent pn lost prior, hlost⟩
    | maybeExitSlowStart | hasPacingBudget now => exact h
    | onRetransmissionTimeout r clock => exact h.onRetransmissionTimeout r clock
    | setMaxDatagramSize size =>
      refine ⟨{ h.inStartup with }, { h.inStartup' with }, ?_⟩
      exact congrArg (fun p : Pace => { p with maxDatagramSize := size }) h.pace

/-- A sender that was reset cannot be told from a new one exactly if its datagram size is the new one's. -/
theorem sameBehaviour_reset_iff (b : Sender) (size : Nat) (clock : Int) :
    SameBehaviour algorithm (fun b => (b.getCongestionWindow : Int)) clock (b.onRetransmissionTimeout true clock)
      (.new size clock) ↔ b.maxDatagramSize = size := by
  constructor
  · intro h
    have hwindow : ((max (80 * b.maxDatagramSize) (4 * b.maxDatagramSize) : Nat) : Int) =
        (max (80 * size) (4 * size) : Nat) := (h.agree [] trivial).window
    omega
  rintro rfl
  have hb : (b.onRetransmissionTimeout true clock).InStartup := ⟨rfl, rfl, rfl⟩
  exact simulates_alike.sameBehaviour ⟨hb, inStartup_new _ _, rfl⟩

end Bbrv3

namespace Bbrv1

open Sender

/-! ## The two times -/

/-- The sender with other times of its minimum RTT and of its PROBE_RTT. -/
def Sender.withTimes (b : Sender) (lastNewMinRTTTime lastProbeRTTStart : Int) : Sender :=
  { b with lastNewMinRTTTime, lastProbeRTTStart }

section WithTimes

variable (b : Sender) (T P : Int)

theorem recover_withTimes : (b.withTimes T P).recover = b.recover.withTimes T P := by
  unfold Sender.recover Sender.exitRecover
  cases hrec : b.inRecovery with
  | false => simp [withTimes, hrec]
  | true => cases hstate : b.state <;> simp [withTimes, hrec, hstate]

theorem cycleGain_withTimes : (b.withTimes T P).cycleGain = b.cycleGain.withTimes T P := by
  unfold Sender.cycleGain
  rw [apply_ite (withTimes · T P)]
  rfl

theorem checkStartup_withTimes : (b.withTimes T P).checkStartup = b.checkStartup.withTimes T P := by
  have hnote : (b.withTimes T P).noteGrowth = b.noteGrowth.withTimes T P := by
    unfold Sender.noteGrowth
    rw [apply_ite (withTimes · T P)]
    rfl
  rw [Sender.checkStartup, Sender.checkStartup, hnote]
  unfold Sender.leaveStartup
  rw [apply_ite (withTimes · T P)]
  rfl

theorem endRound_withTimes (rate t : Int) : (b.withTimes T P).endRound rate t = (b.endRound rate t).withTimes T P := by
  have hround : ({ (((b.withTimes T P).recover.nextRound rate).cycleGain) with
      roundStartTime := t }.updateMaxbandwidthFilter.checkStartup) =
      ({ (b.recover.nextRound rate).cycleGain with
        roundStartTime := t }.updateMaxbandwidthFilter.checkStartup).withTimes T P := by
    rw [recover_withTimes, ← checkStartup_withTimes]
    exact congrArg (fun c : Sender => { c with roundStartTime := t }.updateMaxbandwidthFilter.checkStartup)
      (cycleGain_withTimes (b.recover.nextRound rate) T P)
  rw [Sender.endRound, Sender.endRound, hround]
  exact (apply_ite (withTimes · T P) _ _ _).symm

theorem drained_withTimes (prior : Nat) : (b.withTimes T P).drained prior = (b.drained prior).withTimes T P := by
  unfold Sender.drained
  rw [apply_ite (withTimes · T P)]
  rfl

theorem raise_withTimes (rate : Int) (prior : Nat) :
    (b.withTimes T P).raise rate prior = (b.raise rate prior).withTimes T P := by
  unfold Sender.raise
  rw [apply_ite (withTimes · T P)]
  rfl

end WithTimes

/-! ## Senders that differ in the two times -/

/-- The later of the two times is the same, and in PROBE_RTT its start is. -/
structure Alike (now : Int) (b b' : Sender) : Prop where
  same : b' = b.withTimes b'.lastNewMinRTTTime b'.lastProbeRTTStart
  starts : max b.lastNewMinRTTTime b.lastProbeRTTStart = max b'.lastNewMinRTTTime b'.lastProbeRTTStart
  le : max b.lastNewMinRTTTime b.lastProbeRTTStart ≤ now
  probe : b.state = .probeRtt → b.lastProbeRTTStart = b'.lastProbeRTTStart

namespace Alike

variable {b b' : Sender} {now t : Int} (h : Alike now b b')
include h

theorem mono (ht : now ≤ t) : Alike t b b' := { h with le := h.le.trans ht }

/-- What does not depend on the two times is the same. -/
theorem eq_of {X : Type} (f : Sender → X) (hf : ∀ T P, f (b.withTimes T P) = f b) : f b' = f b :=
  (congrArg f h.same).trans (hf _ _)

/-- A part that commutes with `withTimes`. -/
theorem congr {c c' : Sender} (hk : KeepsRtt b c) (hc : c' = c.withTimes b'.lastNewMinRTTTime b'.lastProbeRTTStart) :
    Alike now c c' := by
  subst hc
  constructor
  · rfl
  · rw [hk.lastNewMinRTTTime, hk.lastProbeRTTStart]
    exact h.starts
  · rw [hk.lastNewMinRTTTime, hk.lastProbeRTTStart]
    exact h.le
  intro hstate
  rw [hk.lastProbeRTTStart]
  exact h.probe (hk.probeRtt.mp hstate)

theorem startsProbeRTT_iff : b.StartsProbeRTT t ↔ b'.StartsProbeRTT t := by
  have := h.starts
  unfold StartsProbeRTT
  omega

theorem mayExitProbeRTT (t : Int) : Alike now (b.mayExitProbeRTT t) (b'.mayExitProbeRTT t) := by
  have hstate := h.eq_of Sender.state fun _ _ => rfl
  unfold Sender.mayExitProbeRTT
  by_cases hexit : b.state = .probeRtt ∧ t - b.lastProbeRTTStart ≥ 200 * millisecond
  · rw [if_pos hexit, if_pos (by rw [hstate, ← h.probe hexit.1]; exact hexit)]
    exact ⟨congrArg Sender.entryProbeBW h.same, h.starts, h.le, fun hp => nomatch hp⟩
  rw [if_neg hexit, if_neg]
  · exact h
  rintro ⟨hp, hge⟩
  rw [hstate] at hp
  exact hexit ⟨hp, (h.probe hp).symm ▸ hge⟩

/-- A new minimum RTT sets its time in both. -/
theorem noteSample (ht : now ≤ t) (rtt : Int) : Alike t (b.noteSample rtt t) (b'.noteSample rtt t) := by
  have hmin := h.eq_of Sender.lastNewMinRTT fun _ _ => rfl
  have hle := h.le
  have hstarts := h.starts
  unfold Sender.noteSample
  rw [hmin]
  split
  · refine ⟨congrArg (fun c : Sender => { c with lastNewMinRTT := rtt, lastNewMinRTTTime := t }) h.same, ?_, ?_,
      h.probe⟩
    · show max t b.lastProbeRTTStart = max t b'.lastProbeRTTStart
      omega
    show max t b.lastProbeRTTStart ≤ t
    omega
  · exact h.mono ht

theorem recordAck (ht : now ≤ t) (pn : Int) (n : Nat) : Alike t (b.recordAck pn n t) (b'.recordAck pn n t) := by
  have hrtt := h.eq_of (fun c => c.rtt pn t) fun _ _ => rfl
  have hforget : Alike now { b with sentTimes := Function.update b.sentTimes pn none }
      { b' with sentTimes := Function.update b'.sentTimes pn none } :=
    { h with same := congrArg (fun c : Sender => { c with sentTimes := Function.update c.sentTimes pn none }) h.same }
  have hnote := (hforget.mayExitProbeRTT t).noteSample ht (b.rtt pn t)
  rw [Sender.recordAck, Sender.recordAck, hrtt]
  exact hnote.congr ⟨rfl, rfl, rfl, rfl, Iff.rfl, fun _ hb => hb⟩ (congrArg (fun c : Sender => { c with
      delivered := c.delivered + n, ackinfo := c.ackinfo ++ [AckInfo.mk n t] }) hnote.same)

omit h in
theorem mayStartProbeRTT (h : Alike t b b') : Alike t (b.mayStartProbeRTT t) (b'.mayStartProbeRTT t) := by
  have hle := h.le
  have hstarts := h.starts
  unfold Sender.mayStartProbeRTT
  by_cases hs : b.StartsProbeRTT t
  · rw [if_pos hs, if_pos (h.startsProbeRTT_iff.mp hs)]
    refine ⟨congrArg (fun c : Sender => { c with
      state := .probeRtt, pacingGain := 1000, cwndGain := 1000, lastNewMinRTT := 10 * second
      lastProbeRTTStart := t }) h.same, ?_, ?_, fun _ => rfl⟩
    · show max b.lastNewMinRTTTime t = max b'.lastNewMinRTTTime t
      omega
    show max b.lastNewMinRTTTime t ≤ t
    omega
  · rw [if_neg hs, if_neg (fun hs' => hs (h.startsProbeRTT_iff.mpr hs'))]
    exact h

theorem drained (prior : Nat) : Alike now (b.drained prior) (b'.drained prior) :=
  h.congr (keepsRtt_drained b prior) ((congrArg (Sender.drained · prior) h.same).trans (drained_withTimes _ _ _ _))

theorem raise (rate : Int) (prior : Nat) : Alike now (b.raise rate prior) (b'.raise rate prior) :=
  h.congr (keepsRtt_raise b rate prior)
    ((congrArg (Sender.raise · rate prior) h.same).trans (raise_withTimes _ _ _ _ _))

theorem onPacketAcked (ht : now ≤ t) (pn : Int) (n prior : Nat) :
    Alike t (b.onPacketAcked pn n prior t) (b'.onPacketAcked pn n prior t) := by
  have hrec := h.recordAck ht pn n
  have hstate := hrec.eq_of Sender.state fun _ _ => rfl
  have hrate := hrec.eq_of (fun c => (c.updateLastbandwidthFilter t).1) fun _ _ => rfl
  have hfilter := hrec.congr (keepsRtt_updateLastbandwidthFilter _ t)
      (congrArg (fun c : Sender => (c.updateLastbandwidthFilter t).2) hrec.same)
  unfold Sender.onPacketAcked
  dsimp only
  rw [hstate, hrate]
  split
  · exact hrec
  apply mayStartProbeRTT
  apply raise
  apply drained
  exact hfilter.congr (keepsRtt_endRound _ _ _)
    ((congrArg (Sender.endRound · _ t) hfilter.same).trans (endRound_withTimes _ _ _ _ _))

theorem hasPacingBudget (t : Int) : (b.hasPacingBudget t).1 = (b'.hasPacingBudget t).1 ∧
    Alike now (b.hasPacingBudget t).2 (b'.hasPacingBudget t).2 := by
  have hexit := h.mayExitProbeRTT t
  have hstate := hexit.eq_of Sender.state fun _ _ => rfl
  unfold Sender.hasPacingBudget
  dsimp only
  rw [hstate]
  split
  · exact ⟨rfl, hexit⟩
  constructor
  · exact (hexit.eq_of (fun c => decide ((c.updateLastbandwidthFilter t).1 * 1000 < c.maxBandwidth * c.pacingGain))
      fun _ _ => rfl).symm
  exact hexit.congr (keepsRtt_updateLastbandwidthFilter _ t)
    (congrArg (fun c : Sender => (c.updateLastbandwidthFilter t).2) hexit.same)

theorem onRetransmissionTimeout (ht : now ≤ t) (r : Bool) :
    Alike t (b.onRetransmissionTimeout r t) (b'.onRetransmissionTimeout r t) := by
  cases r with
  | false => exact h.mono ht
  | true =>
    exact ⟨congrArg (fun c : Sender => c.onRetransmissionTimeout true t) h.same, h.starts, h.le.trans ht,
      fun hp => nomatch hp⟩

end Alike

theorem simulates_alike : Simulates algorithm cwnd Alike where
  agree {_ b b'} h := by
    have hcwnd : b'.cwnd = b.cwnd := h.eq_of Sender.cwnd fun _ _ => rfl
    refine ⟨hcwnd.symm, fun n => ?_, fun _ _ => (h.eq_of Sender.nextSendTime fun _ _ => rfl).symm⟩
    simp only [algorithm, canSend, hcwnd]
  hasPacingBudget {_ _ _ t} h _ := (h.hasPacingBudget t).1
  apply {now b b'} e h ht := by
    cases e with
    | onPacketSent t inFlight pn n r =>
      exact (h.mono (ht t rfl)).congr ⟨rfl, rfl, rfl, rfl, Iff.rfl, fun _ hb => hb⟩
        (congrArg (fun c : Sender => c.onPacketSent t inFlight pn n r) h.same)
    | onPacketAcked pn n prior t => exact h.onPacketAcked (ht t rfl) pn n prior
    | onCongestionEvent pn lost prior | maybeExitSlowStart => exact h
    | hasPacingBudget t => exact (h.hasPacingBudget t).2.mono (ht t rfl)
    | onRetransmissionTimeout r clock => exact h.onRetransmissionTimeout (ht clock rfl) r
    | setMaxDatagramSize size =>
      exact { h with same := congrArg (fun c : Sender => { c with maxDatagramSize := size }) h.same }

/-! ## Telling a sender from a new one -/

/-- A new sender with a minimum RTT, its time and the start of PROBE_RTT from before. -/
def Sender.reset (size : Nat) (clock m T P : Int) : Sender :=
  { Sender.new size clock with lastNewMinRTT := m, lastNewMinRTTTime := T, lastProbeRTTStart := P }

theorem onRetransmissionTimeout_eq_reset (b : Sender) (clock : Int) : b.onRetransmissionTimeout true clock =
    reset b.maxDatagramSize clock b.lastNewMinRTT b.lastNewMinRTTTime b.lastProbeRTTStart := rfl

theorem new_eq_reset (size : Nat) (clock : Int) : Sender.new size clock = reset size clock (10 * second) clock 0 := rfl

/-- A packet that is acknowledged in the nanosecond in which it is sent, so that it gives no RTT. -/
def instantAck (N : Nat) (t : Int) : List Event := [.onPacketSent t 0 0 0 true, .onPacketAcked 0 N 0 t]

/-- What the first acknowledgement after a reset finds, after it has been recorded. -/
structure FirstRound (size : Nat) (clock m T P : Int) (c : Sender) : Prop where
  state : c.state = .startup
  inRecovery : c.inRecovery = false
  round : c.round = 0
  startupLastBwGrow25Round : c.startupLastBwGrow25Round = 0
  cwndGain : c.cwndGain = 2890
  pacingGain : c.pacingGain = 2890
  lastNewMinRTT : c.lastNewMinRTT = m
  lastNewMinRTTTime : c.lastNewMinRTTTime = T
  lastProbeRTTStart : c.lastProbeRTTStart = P
  maxDatagramSize : c.maxDatagramSize = size
  roundStartTime : c.roundStartTime = clock
  maxBandwidth : c.maxBandwidth = (minBdp * size * second).tdiv (10 * second)

section Distinguish

variable {size : Nat} {clock m T P t : Int} {N : Nat}

/-- An acknowledgement without a sample, outside PROBE_RTT. -/
theorem recordAck_no_sample {b : Sender} {pn : Int} (hstate : b.state ≠ .probeRtt) (hrtt : b.rtt pn t ≤ 0) :
    b.recordAck pn N t = { b with
      sentTimes := Function.update b.sentTimes pn none
      delivered := b.delivered + N
      ackinfo := b.ackinfo ++ [{ ackedBytes := N, recordTime := t }] } := by
  have hexit : { b with sentTimes := Function.update b.sentTimes pn none }.mayExitProbeRTT t =
      { b with sentTimes := Function.update b.sentTimes pn none } := if_neg fun h => hstate h.1
  have hnote : ∀ c : Sender, c.noteSample (b.rtt pn t) t = c := fun c => if_neg fun h => absurd h.2 (not_lt.mpr hrtt)
  rw [Sender.recordAck, hexit, hnote]

theorem after_instantAck (size : Nat) (clock T P : Int) (N : Nat) (t : Int) (hm : 0 < m) :
    ∃ c, FirstRound size clock m T P c ∧
    algorithm.after (reset size clock m T P) (instantAck N t) =
      (c.endRound ((N * second).tdiv m) t).adjust ((N * second).tdiv m) 0 t := by
  have hrtt : ((reset size clock m T P).onPacketSent t 0 0 0 true).rtt 0 t ≤ 0 := by
    simp [Sender.rtt, Sender.onPacketSent]
  have hstate : ((reset size clock m T P).onPacketSent t 0 0 0 true).state ≠ .probeRtt := nofun
  have hrec := recordAck_no_sample (N := N) hstate hrtt
  set b := ((reset size clock m T P).onPacketSent t 0 0 0 true).recordAck 0 N t with hb
  have hrate : b.updateLastbandwidthFilter t = ((N * second).tdiv m, b) := by
    rw [hrec]
    simp [Sender.updateLastbandwidthFilter, reset, Sender.onPacketSent, Sender.new, hm.le]
  refine ⟨b, ?_, ?_⟩
  · rw [hrec]
    constructor <;> rfl
  have hout : ¬ b.state = .probeRtt := by
    rw [hrec]
    exact hstate
  show ((reset size clock m T P).onPacketSent t 0 0 0 true).onPacketAcked 0 N 0 t = _
  unfold Sender.onPacketAcked
  rw [← hb, if_neg hout, hrate]

variable {c : Sender}

/-- The first round does not end Startup. -/
theorem FirstRound.endRound (h : FirstRound size clock m T P c) (rate t : Int) :
    (c.endRound rate t).state = .startup ∧ (c.endRound rate t).inRecovery = false ∧
      (c.endRound rate t).cwndGain = 2890 := by
  rw [Sender.endRound]
  split
  · have hrec : c.recover = c := if_neg (by simp [h.inRecovery])
    have hcycle : (c.nextRound rate).cycleGain = c.nextRound rate := if_neg (by simp [Sender.nextRound, h.state])
    rw [hrec, hcycle, Sender.checkStartup]
    set d := { c.nextRound rate with roundStartTime := t }.updateMaxbandwidthFilter with hd
    have hd1 : d.round = 1 := congrArg (· + 1) h.round
    have hgrow : d.noteGrowth.state = .startup ∧ d.noteGrowth.inRecovery = false ∧ d.noteGrowth.cwndGain = 2890 ∧
        d.noteGrowth.round = 1 := by
      unfold Sender.noteGrowth
      split <;> exact ⟨h.state, h.inRecovery, h.cwndGain, hd1⟩
    have hstay : d.noteGrowth.leaveStartup = d.noteGrowth := by
      apply if_neg
      omega
    rw [hstay]
    exact ⟨hgrow.1, hgrow.2.1, hgrow.2.2.1⟩
  · exact ⟨h.state, h.inRecovery, h.cwndGain⟩

/-- Outside DRAIN the bandwidth is raised to the delivery rate. -/
theorem le_raise_maxBandwidth (hstate : c.state = .startup) (hrec : c.inRecovery = false) (rate : Int) (prior : Nat) :
    rate ≤ (c.raise rate prior).maxBandwidth := by
  unfold Sender.raise
  dsimp only
  split
  · exact le_max_left _ _
  rename_i hnot
  by_contra hlt
  exact hnot ⟨.inl (not_le.mp hlt), by simp [hstate], by simp [hrec]⟩

theorem raise_state (b : Sender) (rate : Int) (prior : Nat) : (b.raise rate prior).state = b.state ∧
    (b.raise rate prior).cwndGain = b.cwndGain ∧ (b.raise rate prior).pacingGain = b.pacingGain := by
  unfold Sender.raise
  dsimp only
  split <;> exact ⟨rfl, rfl, rfl⟩

theorem FirstRound.adjust (h : FirstRound size clock m T P c) (rate t : Int) :
    (c.endRound rate t).adjust rate 0 t = ((c.endRound rate t).raise rate 0).mayStartProbeRTT t := by
  have hdrained : (c.endRound rate t).drained 0 = c.endRound rate t := if_neg (by simp [(h.endRound rate t).1])
  rw [Sender.adjust, hdrained]

theorem FirstRound.raise_startsProbeRTT_iff (h : FirstRound size clock m T P c) (rate t : Int) :
    ((c.endRound rate t).raise rate 0).StartsProbeRTT t ↔ (reset size clock m T P).StartsProbeRTT t := by
  have hkeep := (keepsRtt_endRound c rate t).trans (keepsRtt_raise _ rate 0)
  unfold StartsProbeRTT
  rw [hkeep.lastNewMinRTTTime, hkeep.lastProbeRTTStart, h.lastNewMinRTTTime, h.lastProbeRTTStart]
  rfl

/-- If the acknowledgement starts PROBE_RTT, the window is the small one. -/
theorem cwnd_starts (hm : 0 < m) (hs : (reset size clock m T P).StartsProbeRTT t) :
    (algorithm.after (reset size clock m T P) (instantAck N t)).cwnd = 4 * size := by
  obtain ⟨c, hc, heq⟩ := after_instantAck size clock T P N t hm
  have hkeep := (keepsRtt_endRound c ((N * second).tdiv m) t).trans (keepsRtt_raise _ ((N * second).tdiv m) 0)
  rw [heq, hc.adjust]
  unfold Sender.mayStartProbeRTT
  rw [if_pos ((hc.raise_startsProbeRTT_iff _ _).mpr hs)]
  unfold Sender.cwnd
  show 4 * (((c.endRound ((N * second).tdiv m) t).raise ((N * second).tdiv m) 0).maxDatagramSize : Int) = 4 * size
  rw [hkeep.maxDatagramSize, hc.maxDatagramSize]

/-- If not, it makes room for the bytes that were acknowledged. -/
theorem le_cwnd_not_starts (hm : 0 < m) (hs : ¬ (reset size clock m T P).StartsProbeRTT t) :
    ((N * second).tdiv m * m * 2890).tdiv (1000 * second) ≤
      (algorithm.after (reset size clock m T P) (instantAck N t)).cwnd := by
  obtain ⟨c, hc, heq⟩ := after_instantAck size clock T P N t hm
  obtain ⟨hstate, hrec, hgain⟩ := hc.endRound ((N * second).tdiv m) t
  have hkeep := (keepsRtt_endRound c ((N * second).tdiv m) t).trans (keepsRtt_raise _ ((N * second).tdiv m) 0)
  have hle := le_raise_maxBandwidth hstate hrec ((N * second).tdiv m) 0
  obtain ⟨hstate', hgain', -⟩ := raise_state (c.endRound ((N * second).tdiv m) t) ((N * second).tdiv m) 0
  rw [heq, hc.adjust]
  unfold Sender.mayStartProbeRTT
  rw [if_neg fun h => hs ((hc.raise_startsProbeRTT_iff _ _).mp h), cwnd_eq_windowFor (by simp [hstate', hstate])]
  unfold windowFor
  rw [hkeep.lastNewMinRTT, hc.lastNewMinRTT, hgain', hgain]
  apply Int.tdiv_le_tdiv (by decide)
  exact mul_le_mul_of_nonneg_right ((mul_le_mul_of_nonneg_right hle hm.le).trans (le_max_left _ _)) (by decide)

/-- At the time of the reset the round does not end, and the delivery rate becomes the bandwidth. -/
theorem maxBandwidth_not_starts (hm : 0 < m) (hs : ¬ (reset size clock m T P).StartsProbeRTT clock)
    (hrate : (minBdp * size * second).tdiv (10 * second) < (N * second).tdiv m) :
    (algorithm.after (reset size clock m T P) (instantAck N clock)).maxBandwidth =
        max ((N * second).tdiv m) ((minBdp * size * second).tdiv m) ∧
      (algorithm.after (reset size clock m T P) (instantAck N clock)).pacingGain = 2890 := by
  obtain ⟨c, hc, heq⟩ := after_instantAck size clock T P N clock hm
  have hround : c.endRound ((N * second).tdiv m) clock = c := by
    apply if_neg
    rw [hc.roundStartTime, hc.lastNewMinRTT]
    omega
  have hraise : c.raise ((N * second).tdiv m) 0 =
      { c with maxBandwidth := max ((N * second).tdiv m) c.minMaxbandwidth } := by
    apply if_pos
    rw [hc.maxBandwidth]
    exact ⟨.inl hrate, by simp [hc.state], by simp [hc.inRecovery]⟩
  have hstarts := hc.raise_startsProbeRTT_iff ((N * second).tdiv m) clock
  rw [heq, hc.adjust]
  rw [hround] at hstarts ⊢
  unfold Sender.mayStartProbeRTT
  rw [if_neg fun h => hs (hstarts.mp h), hraise]
  refine ⟨?_, hc.pacingGain⟩
  unfold Sender.minMaxbandwidth
  rw [hc.maxDatagramSize, hc.lastNewMinRTT]

theorem later_instantAck (ht : clock ≤ t) : Later clock (instantAck N t) := by
  simp [instantAck, Later, Event.time, ht]

/-- A sender that starts PROBE_RTT at a time at which one with the ten seconds does not. -/
theorem not_agree_of_starts {T' P' : Int} (hm : 0 < m) (hs : (reset size clock m T P).StartsProbeRTT t)
    (hs' : ¬ (reset size clock (10 * second) T' P').StartsProbeRTT t) :
    (algorithm.after (reset size clock m T P) (instantAck (10 * (size + 1)) t)).cwnd <
      (algorithm.after (reset size clock (10 * second) T' P') (instantAck (10 * (size + 1)) t)).cwnd := by
  rw [cwnd_starts hm hs]
  refine lt_of_lt_of_le ?_ (le_cwnd_not_starts (by decide) hs')
  have hrate : (((10 * (size + 1) : Nat) : Int) * second).tdiv (10 * second) = size + 1 := by
    simp only [second]
    rw [Int.tdiv_eq_ediv_of_nonneg (by omega)]
    omega
  rw [hrate]
  simp only [second]
  rw [Int.tdiv_eq_ediv_of_nonneg (by omega)]
  omega

/-- The delivery rate over less than ten seconds is larger, if enough bytes were delivered. -/
theorem lt_rate (hm : 0 < m) (hlt : m < 10 * second) (K : Nat) (hK : 10 ^ 10 ≤ K) :
    (K : Int) < (((10 * K : Nat) : Int) * second).tdiv m := by
  have hle : ((K : Int) + 1) * m ≤ ((10 * K : Nat) : Int) * second := by
    simp only [second] at hlt ⊢
    have h1 : ((K : Int) + 1) * m ≤ ((K : Int) + 1) * (10 * 1000000000 - 1) :=
      mul_le_mul_of_nonneg_left (by omega) (by omega)
    push_cast
    omega
  have hdiv : (K : Int) + 1 ≤ (((10 * K : Nat) : Int) * second) / m := (Int.le_ediv_iff_mul_le hm).mpr hle
  rw [Int.tdiv_eq_ediv_of_nonneg (by simp only [second]; omega)]
  omega

/-- A packet large enough to tell two pacing rates apart. -/
theorem nextSendTime_ne {b b' : Sender} (hgain : b.pacingGain = 2890) (hgain' : b'.pacingGain = 2890)
    (hpos : 0 < b.maxBandwidth) (hlt : b.maxBandwidth < b'.maxBandwidth) (clock : Int) : ∃ bytes : Nat,
    (b.onPacketSent clock 0 1 bytes true).nextSendTime ≠ (b'.onPacketSent clock 0 1 bytes true).nextSendTime := by
  refine ⟨(2890 * b.maxBandwidth * b'.maxBandwidth).toNat, ?_⟩
  have hnonneg : 0 ≤ 2890 * b.maxBandwidth * b'.maxBandwidth :=
    mul_nonneg (by omega) (by omega)
  unfold Sender.onPacketSent
  rw [hgain, hgain', Int.toNat_of_nonneg hnonneg]
  have h1 : 2890 * b.maxBandwidth * b'.maxBandwidth * second * 1000 =
      b'.maxBandwidth * (second * 1000) * (((2890 : Nat) : Int) * b.maxBandwidth) := by
    push_cast
    ring
  have h2 : 2890 * b.maxBandwidth * b'.maxBandwidth * second * 1000 =
      b.maxBandwidth * (second * 1000) * (((2890 : Nat) : Int) * b'.maxBandwidth) := by
    push_cast
    ring
  nth_rewrite 1 [h1]
  rw [h2, Int.mul_tdiv_cancel _ (by push_cast; omega), Int.mul_tdiv_cancel _ (by push_cast; omega)]
  simp only [second]
  omega

/-- The window right after a reset depends on the datagram size alone. -/
theorem cwnd_reset (hle : m ≤ 10 * second) :
    (reset size clock m T P).cwnd = (minBdp * size * second * 2890).tdiv (1000 * second) := by
  have hbdp : ((minBdp * size * second : Int).tdiv (10 * second)) * m ≤ minBdp * size * second := by
    have hnonneg : (0 : Int) ≤ minBdp * size * second := by simp only [second, minBdp]; omega
    have hq : (0 : Int) ≤ (minBdp * size * second : Int).tdiv (10 * second) := Int.tdiv_nonneg hnonneg (by decide)
    calc ((minBdp * size * second : Int).tdiv (10 * second)) * m
        ≤ ((minBdp * size * second : Int).tdiv (10 * second)) * (10 * second) := mul_le_mul_of_nonneg_left hle hq
      _ ≤ minBdp * size * second := by
        rw [Int.tdiv_eq_ediv_of_nonneg hnonneg]
        exact Int.ediv_mul_le _ (by decide)
  show ((max (((minBdp * size * second : Int).tdiv (10 * second)) * m) (minBdp * size * second)) * 2890).tdiv
    (1000 * second) = _
  rw [max_eq_right hbdp]

theorem size_eq_of_cwnd {size' : Nat} (h : (minBdp * size * second * 2890 : Int).tdiv (1000 * second) =
    (minBdp * size' * second * 2890 : Int).tdiv (1000 * second)) : size = size' := by
  simp only [second, minBdp] at h
  rw [Int.tdiv_eq_ediv_of_nonneg (by omega), Int.tdiv_eq_ediv_of_nonneg (by omega)] at h
  omega

/-- A minimum RTT below ten seconds shows in the pace after the first acknowledgement. -/
theorem rtt_eq_of_sameBehaviour (hm : 0 < m) (hle : m ≤ 10 * second)
    (h : SameBehaviour algorithm Sender.cwnd clock (reset size clock m T P) (reset size clock (10 * second) clock 0)) :
    m = 10 * second := by
  by_contra hne
  have hlt : m < 10 * second := lt_of_le_of_ne hle hne
  have hs' : ¬ (reset size clock (10 * second) clock 0).StartsProbeRTT clock := by
    rintro ⟨hs, -⟩
    replace hs : clock - clock ≥ 10 * second := hs
    simp [second] at hs
  by_cases hs : (reset size clock m T P).StartsProbeRTT clock
  · have hwindow := (h.agree (instantAck (10 * (size + 1)) clock) (later_instantAck (le_refl clock))).window
    exact (not_agree_of_starts hm hs hs').ne hwindow
  -- both stay in Startup, with different delivery rates
  have hK : 10 ^ 10 ≤ 10 ^ 10 * (size + 1) := by omega
  have hrate := lt_rate hm hlt (10 ^ 10 * (size + 1)) hK
  have hrate' : (((10 * (10 ^ 10 * (size + 1)) : Nat) : Int) * second).tdiv (10 * second) =
      ((10 ^ 10 * (size + 1) : Nat) : Int) := by
    simp only [second]
    rw [Int.tdiv_eq_ediv_of_nonneg (by omega)]
    omega
  have hmin : (minBdp * size * second : Int).tdiv (10 * second) < ((10 ^ 10 * (size + 1) : Nat) : Int) := by
    simp only [second, minBdp]
    rw [Int.tdiv_eq_ediv_of_nonneg (by omega)]
    omega
  obtain ⟨hbw, hgain⟩ := maxBandwidth_not_starts hm hs (hmin.trans hrate)
  obtain ⟨hbw', hgain'⟩ := maxBandwidth_not_starts (by decide) hs' (by rw [hrate']; exact hmin)
  rw [hrate', max_eq_left hmin.le] at hbw'
  obtain ⟨bytes, hbytes⟩ := nextSendTime_ne hgain' hgain (by rw [hbw']; omega)
    (by rw [hbw', hbw]; exact hrate.trans_le (le_max_left _ _)) clock
  have hlater : Later clock (instantAck (10 * (10 ^ 10 * (size + 1))) clock ++
      [.onPacketSent clock 0 1 bytes true]) := by
    simp [instantAck, Later, Event.time]
  exact hbytes ((h.agree _ hlater).timeUntilSend 0 0).symm

/-- The time at which the next PROBE_RTT may start shows in the window at that time. -/
theorem times_eq_of_sameBehaviour (hclock : 0 ≤ clock) (h : SameBehaviour algorithm Sender.cwnd clock
    (reset size clock (10 * second) T P) (reset size clock (10 * second) clock 0)) : max T P = clock := by
  by_contra hne
  have hiff : ∀ T P t : Int, (reset size clock (10 * second) T P).StartsProbeRTT t ↔
      t - T ≥ 10 * second ∧ t - P ≥ 10 * second := fun _ _ _ => Iff.rfl
  set t := max (min (max T P + 10 * second) (clock + 10 * second)) clock with ht
  have hpos : 0 < 10 * second := by decide
  have hwindow := (h.agree (instantAck (10 * (size + 1)) t) (later_instantAck (show clock ≤ t by omega))).window
  by_cases hlt : max T P < clock
  · refine (not_agree_of_starts hpos ((hiff T P t).mpr ?_) (mt (hiff clock 0 t).mp ?_)).ne hwindow
    · omega
    · omega
  refine (not_agree_of_starts hpos ((hiff clock 0 t).mpr ?_) (mt (hiff T P t).mp ?_)).ne hwindow.symm
  · omega
  · omega

end Distinguish

/-- A sender that was reset cannot be told from a new one exactly if its datagram size is the new one's, it has no
minimum RTT, and its next PROBE_RTT may start no earlier and no later. -/
theorem sameBehaviour_reset_iff {b : Sender} (hpos : 0 < b.lastNewMinRTT) (hle : b.lastNewMinRTT ≤ 10 * second)
    (size : Nat) {clock : Int} (hclock : 0 ≤ clock) :
    SameBehaviour algorithm Sender.cwnd clock (b.onRetransmissionTimeout true clock) (.new size clock) ↔
      b.maxDatagramSize = size ∧ b.lastNewMinRTT = 10 * second ∧
        max b.lastNewMinRTTTime b.lastProbeRTTStart = clock := by
  rw [onRetransmissionTimeout_eq_reset, new_eq_reset]
  constructor
  · intro h
    have hwindow := (h.agree [] trivial).window
    have hsize : b.maxDatagramSize = size := by
      apply size_eq_of_cwnd
      rw [← cwnd_reset hle, ← cwnd_reset le_rfl]
      exact hwindow
    subst hsize
    have hmin := rtt_eq_of_sameBehaviour hpos hle h
    rw [hmin] at h
    exact ⟨rfl, hmin, times_eq_of_sameBehaviour hclock h⟩
  rintro ⟨rfl, hmin, hmax⟩
  rw [hmin]
  apply simulates_alike.sameBehaviour
  refine ⟨rfl, ?_, hmax.le, fun hp => nomatch hp⟩
  exact hmax.trans (max_eq_left hclock).symm

end Bbrv1

end MoqQuic.L2.Congestion
