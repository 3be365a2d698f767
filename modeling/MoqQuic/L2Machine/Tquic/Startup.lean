import MoqQuic.L2Machine.Tquic.Bbr3

/-!
# tquic: leaving Startup

When a `Bbr3` in Startup leaves it, or considers the pipe filled, in terms of its
state before the call.

* `onSent`, `beginAck`, `onAck` and `onCongestionEvent` do not (`InStartup.*`).
* `endAck_inStartup_iff`: `endAck` does exactly when `LeavesStartup` holds: a
  third round without much growth, too many losses in recovery, or a minimum RTT
  that is older than five seconds.
-/
namespace MoqQuic.L2.Tquic.Bbr3
open Option

/-- In Startup, with the pipe not filled. -/
structure InStartup (b : Bbr3) : Prop where
  state : b.state = .startup
  isFilledPipe : b.isFilledPipe = false

/-- The state of the machine and of the pipe estimate. -/
def mode (b : Bbr3) : State × Bool := (b.state, b.isFilledPipe)

theorem isFilledPipe_congr {b b' : Bbr3} (h : b'.mode = b.mode) : b'.isFilledPipe = b.isFilledPipe :=
  congrArg Prod.snd h

theorem inStartup_congr {b b' : Bbr3} (h : b'.mode = b.mode) : b'.InStartup ↔ b.InStartup := by
  obtain ⟨hs, hf⟩ := Prod.mk.inj h
  constructor
  · exact fun hb => ⟨hs.symm.trans hb.state, hf.symm.trans hb.isFilledPipe⟩
  · exact fun hb => ⟨hs.trans hb.state, hf.trans hb.isFilledPipe⟩

theorem inStartup_new (config : Bbr3Config) (now : Int) (draws : Nat → Nat × Nat) :
    (new config now draws).InStartup := ⟨rfl, rfl⟩

/-! ## Functions that leave the machine alone -/

@[simp] theorem mode_ite (p : Prop) [Decidable p] (b b' : Bbr3) :
    (if p then b else b').mode = if p then b.mode else b'.mode := apply_ite _ p b b'

variable (b : Bbr3)

@[simp] theorem mode_updateGains : b.updateGains.mode = b.mode := by
  unfold updateGains
  split <;> rfl

theorem mode_bdpMultiple (bw gain : Nat) : (b.bdpMultiple bw gain).2.mode = b.mode := by
  unfold bdpMultiple
  split <;> rfl

theorem mode_inflight (gain : Nat) : (b.inflight gain).2.mode = b.mode := mode_bdpMultiple b b.maxBw gain

theorem mode_probeRttCwnd : b.probeRttCwnd.2.mode = b.mode := mode_bdpMultiple b b.bw b.cwndGain

@[simp] theorem mode_updateMaxInflight : b.updateMaxInflight.mode = b.mode := mode_bdpMultiple b b.maxBw b.cwndGain

theorem mode_setPacingRateWithGain (gain : Nat) : (b.setPacingRateWithGain gain).mode = b.mode :=
  (mode_ite ..).trans (ite_self _)

@[simp] theorem mode_modulateCwndForRecovery (n : Nat) : (b.modulateCwndForRecovery n).mode = b.mode := by
  unfold modulateCwndForRecovery
  simp only
  split <;> split <;> rfl

@[simp] theorem mode_growCwnd : b.growCwnd.mode = b.mode := by
  unfold growCwnd
  split
  · rfl
  · split <;> rfl

@[simp] theorem mode_boundCwndForProbeRtt : b.boundCwndForProbeRtt.mode = b.mode := by
  unfold boundCwndForProbeRtt
  split
  · exact mode_probeRttCwnd b
  · rfl

@[simp] theorem mode_boundCwndForModel : b.boundCwndForModel.mode = b.mode := rfl

theorem mode_setCwnd : b.setCwnd.mode = b.mode := by simp [setCwnd]

theorem mode_advanceLatestDeliverySignals : b.advanceLatestDeliverySignals.mode = b.mode :=
  (mode_ite ..).trans (ite_self _)

theorem mode_cutInflightHi : b.cutInflightHi.mode = b.mode := (mode_ite ..).trans (ite_self _)

variable {b}

theorem mode_setSendQuantum {b' : Bbr3} (h : b.setSendQuantum = some b') : b'.mode = b.mode := by
  unfold setSendQuantum at h
  split at h
  · cases h
  cases h
  rfl

theorem mode_updateControlParameters {b' : Bbr3} (h : b.updateControlParameters = some b') : b'.mode = b.mode := by
  obtain ⟨b1, h1, h⟩ := bind_eq_some_iff.mp h
  cases h
  rw [mode_setCwnd, mode_setSendQuantum h1]
  exact mode_setPacingRateWithGain b b.pacingGain

/-! ## The calls between acknowledgements -/

namespace InStartup

variable (hb : b.InStartup)
include hb

theorem handleInflightTooHigh (now : Int) : (b.handleInflightTooHigh now).InStartup := by
  have hc := (inStartup_congr (mode_cutInflightHi b)).mpr hb
  unfold Bbr3.handleInflightTooHigh
  rw [if_neg (by rw [hc.state]; decide)]
  exact hc

theorem handleLostPacket (now : Int) (packet : SentPacket) : (b.handleLostPacket now packet).InStartup := by
  have hn : (b.noteLost packet).InStartup := { hb with }
  unfold Bbr3.handleLostPacket
  split
  · exact hb
  simp only
  split
  · refine handleInflightTooHigh ?_ now
    exact { hn with }
  · exact hn

theorem onCongestionEvent (now : Int) (packet : SentPacket) (persistent : Bool) (n : Nat) :
    (b.onCongestionEvent now packet persistent n).InStartup := by
  have hc : (b.countLostBytes n).InStartup := { hb with }
  have hl := hc.handleLostPacket now packet
  unfold Bbr3.onCongestionEvent
  simp only
  split
  · exact { hl with }
  split
  · exact { hl with }
  · exact hl

theorem handleRestartFromIdle (now : Int) (n : Nat) : (b.handleRestartFromIdle now n).InStartup := by
  have hprobe : b.isInAProbeBwState = false := by rw [isInAProbeBwState, hb.state]
  unfold Bbr3.handleRestartFromIdle
  split
  · show (if b.isInAProbeBwState then _ else if b.state = .probeRTT then _ else _ : Bbr3).InStartup
    rw [hprobe, if_neg Bool.false_ne_true, if_neg (by rw [hb.state]; decide)]
    exact { hb with }
  · exact hb

theorem onSent (now : Int) (packet : SentPacket) : (b.onSent now packet).1.InStartup := by
  unfold Bbr3.onSent
  simp only
  generalize (b.deliveryRateEstimator.onPacketSent packet b.bytesInFlight b.bytesLostInTotal).1 = e
  have he : ({ b with deliveryRateEstimator := e } : Bbr3).InStartup := { hb with }
  have hr := he.handleRestartFromIdle now b.bytesInFlight
  exact { hr with }

theorem beginAck (now : Int) : (b.beginAck now).InStartup := { hb with }

theorem onAck (packet : SentPacket) : (b.onAck packet).1.InStartup := { hb with }

end InStartup

/-! ## Before the check

`LeavesStartup` is stated for the controller as `end_ack` finds it; only the rate sample is taken first. -/

/-- The bandwidth estimate after the rate sample has been taken into account. -/
def maxBwAfter (b : Bbr3) : Nat :=
  let rate := b.deliveryRateEstimator.rateSample.deliveryRate
  if rate ≥ b.maxBw ∨ !b.isAppLimited then max b.maxBwFilter0 (max rate b.maxBwFilter1) else b.maxBw

/-- The third round in a row, not limited by the application, without a growth by a quarter. -/
def Plateau (b : Bbr3) : Prop :=
  b.ackState.packetDelivered ≥ b.nextRoundDelivered ∧ b.deliveryRateEstimator.rateSample.isAppLimited = false ∧
    b.maxBwAfter < b.fullBw * (100 + fullBwGrowthRate) / 100 ∧ b.fullBwCount + 1 ≥ fullBwCountThreshold

/-- The end of a round in recovery with at least six losses, above two percent of the data in flight. -/
def HighLoss (b : Bbr3) : Prop :=
  b.deliveryRateEstimator.rateSample.priorDelivered ≥ b.lossRoundDelivered ∧
    (b.inRecovery = true ∧ b.sentInRecovery b.ackState.lastAckPacketSentTime = true) ∧
    b.countLossEvent.lossEventsInRound ≥ fullLossCount ∧ b.isInflightTooHigh = true

/-- The minimum RTT has not been refreshed for more than five seconds, and the connection was not idle. -/
def ProbeRttDue (b : Bbr3) : Prop :=
  durationSince b.ackState.now b.probeRttMinStamp > probeRttInterval ∧ b.idleRestart = false

def LeavesStartup (b : Bbr3) : Prop :=
  ∃ e, b.deliveryRateEstimator.generateRateSample = some e ∧
    (Plateau { b with deliveryRateEstimator := e } ∨ HighLoss { b with deliveryRateEstimator := e } ∨
      ProbeRttDue b)

/-- Nothing that the check of Startup reads is changed. -/
structure SameCheck (b b' : Bbr3) : Prop where
  state : b'.state = b.state := by rfl
  isFilledPipe : b'.isFilledPipe = b.isFilledPipe := by rfl
  fullBw : b'.fullBw = b.fullBw := by rfl
  fullBwCount : b'.fullBwCount = b.fullBwCount := by rfl
  lossEventsInRound : b'.lossEventsInRound = b.lossEventsInRound := by rfl
  ackState : b'.ackState = b.ackState := by rfl
  probeRttMinStamp : b'.probeRttMinStamp = b.probeRttMinStamp := by rfl
  idleRestart : b'.idleRestart = b.idleRestart := by rfl
  deliveryRateEstimator : b'.deliveryRateEstimator = b.deliveryRateEstimator := by rfl
  isRoundStart : b'.isRoundStart = b.isRoundStart := by rfl
  maxBw : b'.maxBw = b.maxBw := by rfl
  lossRoundStart : b'.lossRoundStart = b.lossRoundStart := by rfl
  inRecovery : b'.inRecovery = b.inRecovery := by rfl

theorem SameCheck.trans (h : SameCheck b b') (h' : SameCheck b' b'') : SameCheck b b'' :=
  ⟨h'.state.trans h.state, h'.isFilledPipe.trans h.isFilledPipe, h'.fullBw.trans h.fullBw,
    h'.fullBwCount.trans h.fullBwCount, h'.lossEventsInRound.trans h.lossEventsInRound,
    h'.ackState.trans h.ackState, h'.probeRttMinStamp.trans h.probeRttMinStamp,
    h'.idleRestart.trans h.idleRestart, h'.deliveryRateEstimator.trans h.deliveryRateEstimator,
    h'.isRoundStart.trans h.isRoundStart, h'.maxBw.trans h.maxBw, h'.lossRoundStart.trans h.lossRoundStart,
    h'.inRecovery.trans h.inRecovery⟩

/-- The values the check of Startup finds. -/
def prepared (b : Bbr3) : Bbr3 :=
  { b with
    isRoundStart := b.ackState.packetDelivered ≥ b.nextRoundDelivered
    maxBw := b.maxBwAfter
    lossRoundStart := b.deliveryRateEstimator.rateSample.priorDelivered ≥ b.lossRoundDelivered
    inRecovery := b.inRecovery && b.sentInRecovery b.ackState.lastAckPacketSentTime }

theorem exitRecoveryIfOver_spec (b : Bbr3) :
    SameCheck { b with inRecovery := b.inRecovery && b.sentInRecovery b.ackState.lastAckPacketSentTime }
      b.exitRecoveryIfOver ∧
    b.exitRecoveryIfOver.nextRoundDelivered = b.nextRoundDelivered ∧
    b.exitRecoveryIfOver.lossRoundDelivered = b.lossRoundDelivered ∧
    b.exitRecoveryIfOver.maxBwAfter = b.maxBwAfter := by
  unfold exitRecoveryIfOver
  cases hr : b.inRecovery with
  | false => exact ⟨{ inRecovery := hr }, rfl, rfl, rfl⟩
  | true =>
    cases b.sentInRecovery b.ackState.lastAckPacketSentTime with
    | false => exact ⟨{}, rfl, rfl, rfl⟩
    | true => exact ⟨{ inRecovery := hr }, rfl, rfl, rfl⟩

theorem updateLatestDeliverySignals_spec (b : Bbr3) :
    SameCheck
      { b with lossRoundStart := b.deliveryRateEstimator.rateSample.priorDelivered ≥ b.lossRoundDelivered }
      b.updateLatestDeliverySignals ∧
    b.updateLatestDeliverySignals.nextRoundDelivered = b.nextRoundDelivered ∧
    b.updateLatestDeliverySignals.maxBwAfter = b.maxBwAfter := by
  unfold updateLatestDeliverySignals
  simp only
  split
  · next h => exact ⟨{ lossRoundStart := (decide_eq_true h).symm }, rfl, rfl⟩
  · next h => exact ⟨{ lossRoundStart := (decide_eq_false h).symm }, rfl, rfl⟩

theorem updateRound_spec (b : Bbr3) :
    SameCheck { b with isRoundStart := b.ackState.packetDelivered ≥ b.nextRoundDelivered } b.updateRound ∧
    b.updateRound.maxBwAfter = b.maxBwAfter := by
  unfold updateRound
  split
  · next h => exact ⟨{ isRoundStart := (decide_eq_true h).symm }, rfl⟩
  · next h => exact ⟨{ isRoundStart := (decide_eq_false h).symm }, rfl⟩

/-- The estimate of `maxBwAfter` is the one `update_max_bw` makes. -/
theorem updateMaxBw_spec (b : Bbr3) :
    SameCheck { b with isRoundStart := b.ackState.packetDelivered ≥ b.nextRoundDelivered, maxBw := b.maxBwAfter }
      b.updateMaxBw := by
  obtain ⟨hs, hmax⟩ := updateRound_spec b
  have hrate : b.updateRound.deliveryRateEstimator = b.deliveryRateEstimator := hs.deliveryRateEstimator
  rw [maxBwAfter, hrate] at hmax
  unfold updateMaxBw
  dsimp only
  split
  · next hc => exact { hs with maxBw := by rw [← hmax, if_pos hc] }
  · next hc => exact { hs with maxBw := by rw [← hmax, if_neg hc] }

theorem sameCheck_adaptLowerBoundsFromCongestion (b : Bbr3) : SameCheck b b.adaptLowerBoundsFromCongestion := by
  unfold adaptLowerBoundsFromCongestion
  split
  · exact {}
  · split <;> exact {}

theorem SameCheck.setLossInRound (h : SameCheck b b') (l : Bool) : SameCheck b { b' with lossInRound := l } :=
  { h with }

theorem SameCheck.refl (b : Bbr3) : SameCheck b b := {}

theorem sameCheck_updateAckAggregation (b : Bbr3) (now : Int) : SameCheck b (b.updateAckAggregation now) := by
  unfold updateAckAggregation
  split
  · simp only
    split <;> exact {}
  · exact {}

/-- After the estimate of the bandwidth, the congestion signals change nothing that counts. -/
theorem sameCheck_updateCongestionSignals (b : Bbr3) : SameCheck b.updateMaxBw b.updateCongestionSignals := by
  unfold updateCongestionSignals
  generalize b.updateMaxBw = b1
  have h1 : SameCheck b1 (if b1.ackState.lost > 0 then { b1 with lossInRound := true } else b1) := by
    split
    · exact (SameCheck.refl b1).setLossInRound true
    · exact SameCheck.refl b1
  simp only
  generalize (if b1.ackState.lost > 0 then { b1 with lossInRound := true } else b1) = b2 at h1
  split
  · exact h1
  · exact (h1.trans (sameCheck_adaptLowerBoundsFromCongestion b2)).setLossInRound true

theorem sameCheck_prepared (b : Bbr3) (now : Int) : SameCheck b.prepared
    (b.exitRecoveryIfOver.updateLatestDeliverySignals.updateCongestionSignals.updateAckAggregation now) := by
  obtain ⟨h1, hnext1, hlrd1, hmax1⟩ := exitRecoveryIfOver_spec b
  generalize b.exitRecoveryIfOver = b1 at h1 hnext1 hlrd1 hmax1
  obtain ⟨h2, hnext2, hmax2⟩ := updateLatestDeliverySignals_spec b1
  generalize b1.updateLatestDeliverySignals = b2 at h2 hnext2 hmax2
  have h12 : SameCheck { b.prepared with isRoundStart := b.isRoundStart, maxBw := b.maxBw } b2 := by
    refine SameCheck.trans ?_ h2
    exact { h1 with lossRoundStart := by rw [h1.deliveryRateEstimator, hlrd1]; rfl }
  have hprep : SameCheck b.prepared b2.updateMaxBw := by
    refine SameCheck.trans ?_ (updateMaxBw_spec b2)
    exact { h12 with
      isRoundStart := by rw [h12.ackState, hnext2, hnext1]; rfl
      maxBw := hmax2.trans hmax1 }
  exact (hprep.trans (sameCheck_updateCongestionSignals b2)).trans (sameCheck_updateAckAggregation _ now)

/-! ## The check -/

/-- What decides on ProbeRTT, and the state, are the same. -/
structure SameProbe (b b' : Bbr3) : Prop where
  state : b'.state = b.state := by rfl
  ackState : b'.ackState = b.ackState := by rfl
  probeRttMinStamp : b'.probeRttMinStamp = b.probeRttMinStamp := by rfl
  idleRestart : b'.idleRestart = b.idleRestart := by rfl

theorem SameProbe.trans (h : SameProbe b b') (h' : SameProbe b' b'') : SameProbe b b'' :=
  ⟨h'.state.trans h.state, h'.ackState.trans h.ackState, h'.probeRttMinStamp.trans h.probeRttMinStamp,
    h'.idleRestart.trans h.idleRestart⟩

theorem checkStartupFullBandwidth_spec {b : Bbr3} (hf : b.isFilledPipe = false) :
    SameProbe b b.checkStartupFullBandwidth ∧ (b.checkStartupFullBandwidth.lossRoundStart = b.lossRoundStart ∧
      b.checkStartupFullBandwidth.inRecovery = b.inRecovery ∧
      b.checkStartupFullBandwidth.lossEventsInRound = b.lossEventsInRound) ∧
    (b.checkStartupFullBandwidth.isFilledPipe = true ↔ b.isRoundStart = true ∧
      b.deliveryRateEstimator.rateSample.isAppLimited = false ∧
      b.maxBw < b.fullBw * (100 + fullBwGrowthRate) / 100 ∧ b.fullBwCount + 1 ≥ fullBwCountThreshold) := by
  unfold checkStartupFullBandwidth
  split
  · rename_i h
    refine ⟨{}, ⟨rfl, rfl, rfl⟩, ?_⟩
    simp only [hf, Bool.false_or, Bool.or_eq_true, Bool.not_eq_eq_eq_not, Bool.not_true] at h
    rw [hf]
    constructor
    · exact fun hc => by cases hc
    rintro ⟨hround, happ, -⟩
    rcases h with h | h
    · rw [h] at hround
      cases hround
    rw [h] at happ
    cases happ
  rename_i h
  simp only [hf, Bool.false_or, Bool.or_eq_true, Bool.not_eq_eq_eq_not, Bool.not_true, not_or,
    Bool.not_eq_false, Bool.not_eq_true] at h
  split
  · refine ⟨{}, ⟨rfl, rfl, rfl⟩, ?_⟩
    rw [hf]
    constructor
    · exact fun hc => by cases hc
    rintro ⟨-, -, hlt, -⟩
    omega
  rename_i hgrow
  simp only
  split
  · rename_i hcount
    exact ⟨{}, ⟨rfl, rfl, rfl⟩, fun _ => ⟨h.1, h.2, Nat.lt_of_not_le hgrow, hcount⟩,
      fun _ => rfl⟩
  rename_i hcount
  refine ⟨{}, ⟨rfl, rfl, rfl⟩, ?_⟩
  rw [hf]
  constructor
  · exact fun hc => by cases hc
  · exact fun hc => (hcount hc.2.2.2).elim

theorem sameProbe_inflight (b : Bbr3) (gain : Nat) : SameProbe b (b.inflight gain).2 := by
  have hbdp : SameProbe b (b.bdpMultiple b.maxBw gain).2 := by
    unfold bdpMultiple
    split <;> exact {}
  unfold inflight
  exact { hbdp with }

theorem handleQueueTooHighInStartup_spec (b : Bbr3) :
    SameProbe b b.handleQueueTooHighInStartup ∧ b.handleQueueTooHighInStartup.isFilledPipe = true := by
  have hp := sameProbe_inflight { b with isFilledPipe := true } 100
  have hs := mode_inflight { b with isFilledPipe := true } 100
  unfold handleQueueTooHighInStartup
  exact ⟨{ hp with }, isFilledPipe_congr hs⟩

theorem countLossEvent_spec (b : Bbr3) : SameProbe b b.countLossEvent ∧
    b.countLossEvent.isFilledPipe = b.isFilledPipe ∧ b.countLossEvent.lossRoundStart = b.lossRoundStart ∧
    b.countLossEvent.inRecovery = b.inRecovery := by
  unfold countLossEvent
  split <;> exact ⟨{}, rfl, rfl, rfl⟩

theorem checkStartupHighLoss_spec (b : Bbr3) : SameProbe b b.checkStartupHighLoss ∧
    (b.checkStartupHighLoss.isFilledPipe = true ↔ b.isFilledPipe = true ∨ (b.lossRoundStart = true ∧
      b.inRecovery = true ∧ b.countLossEvent.lossEventsInRound ≥ fullLossCount ∧
      b.isInflightTooHigh = true)) := by
  obtain ⟨hs, hf, hl, hr⟩ := countLossEvent_spec b
  have htoo : b.isInflightTooHigh = b.countLossEvent.isInflightTooHigh := by
    unfold isInflightTooHigh
    rw [hs.ackState]
  unfold checkStartupHighLoss
  rw [htoo, ← hf, ← hl, ← hr]
  generalize b.countLossEvent = b1 at hs
  simp only
  by_cases hc : (b1.lossRoundStart && b1.inRecovery && decide (b1.lossEventsInRound ≥ fullLossCount) &&
      b1.isInflightTooHigh) = true
  · obtain ⟨hq, hqf⟩ := handleQueueTooHighInStartup_spec b1
    rw [if_pos hc]
    simp only [Bool.and_eq_true, decide_eq_true_eq] at hc
    have hs2 := hs.trans hq
    split
    · exact ⟨{ hs2 with },
        fun _ => Or.inr ⟨hc.1.1.1, hc.1.1.2, hc.1.2, hc.2⟩, fun _ => hqf⟩
    · exact ⟨hs2, fun _ => Or.inr ⟨hc.1.1.1, hc.1.1.2, hc.1.2, hc.2⟩, fun _ => hqf⟩
  rw [if_neg hc]
  simp only [Bool.and_eq_true, decide_eq_true_eq] at hc
  have hiff : b1.isFilledPipe = true ↔ b1.isFilledPipe = true ∨ (b1.lossRoundStart = true ∧
      b1.inRecovery = true ∧ b1.lossEventsInRound ≥ fullLossCount ∧ b1.isInflightTooHigh = true) :=
    ⟨Or.inl, fun h => h.elim id fun h => (hc ⟨⟨⟨h.1, h.2.1⟩, h.2.2.1⟩, h.2.2.2⟩).elim⟩
  split
  · exact ⟨{ hs with }, hiff⟩
  · exact ⟨hs, hiff⟩

/-- The check marks the pipe as filled in the two cases, and does nothing that matters otherwise. -/
theorem checkStartupDone_spec {b p : Bbr3} (hp : SameCheck b.prepared p) (hb : b.InStartup) :
    (Plateau b ∨ HighLoss b → p.checkStartupDone.isFilledPipe = true) ∧
      (¬ (Plateau b ∨ HighLoss b) → p.checkStartupDone.InStartup ∧ SameProbe p p.checkStartupDone) := by
  have hstate := hp.state.trans hb.state
  obtain ⟨hs1, ⟨hl1, hr1, he1⟩, hf1⟩ := checkStartupFullBandwidth_spec (hp.isFilledPipe.trans hb.isFilledPipe)
  unfold checkStartupDone
  generalize p.checkStartupFullBandwidth = p1 at hs1 hl1 hr1 he1 hf1
  obtain ⟨hs2, hf2⟩ := checkStartupHighLoss_spec p1
  have hack : p1.ackState = b.ackState := hs1.ackState.trans hp.ackState
  have hcount : p1.countLossEvent.lossEventsInRound = b.countLossEvent.lossEventsInRound := by
    have hev : p1.lossEventsInRound = b.lossEventsInRound := he1.trans hp.lossEventsInRound
    unfold countLossEvent
    rw [hack, hev]
    split
    · rfl
    · exact hev
  have htoo : p1.isInflightTooHigh = b.isInflightTooHigh := by
    unfold isInflightTooHigh
    rw [hack]
  generalize p1.checkStartupHighLoss = p2 at hs2 hf2
  -- the pipe is filled afterwards in the two cases
  have hfilled : p2.isFilledPipe = true ↔ Plateau b ∨ HighLoss b := by
    rw [hf2, hf1, hl1, hr1, hcount, htoo, hp.isRoundStart, hp.deliveryRateEstimator, hp.maxBw, hp.fullBw,
      hp.fullBwCount, hp.lossRoundStart, hp.inRecovery]
    simp only [prepared, decide_eq_true_eq, Bool.and_eq_true, Plateau, HighLoss]
  have hs := hs1.trans hs2
  constructor
  · intro h
    rw [if_pos ⟨hs.state.trans hstate, hfilled.mpr h⟩]
    exact (isFilledPipe_congr (mode_updateGains { p2 with state := .drain })).trans (hfilled.mpr h)
  intro h
  rw [← hfilled, Bool.not_eq_true] at h
  rw [if_neg (by rw [h]; exact fun hc => Bool.false_ne_true hc.2)]
  exact ⟨⟨hs.state.trans hstate, h⟩, hs⟩

/-! ## After the check -/

@[simp] theorem isFilledPipe_ite (p : Prop) [Decidable p] (b b' : Bbr3) :
    (if p then b else b').isFilledPipe = if p then b.isFilledPipe else b'.isFilledPipe := apply_ite _ p b b'

section

variable (b : Bbr3) (now : Int)

@[simp] theorem isFilledPipe_startRound : b.startRound.isFilledPipe = b.isFilledPipe := rfl

@[simp] theorem isFilledPipe_resetLowerBounds : b.resetLowerBounds.isFilledPipe = b.isFilledPipe := rfl

@[simp] theorem isFilledPipe_startProbeBwCruise : b.startProbeBwCruise.isFilledPipe = b.isFilledPipe := rfl

@[simp] theorem isFilledPipe_startProbeBwDown : (b.startProbeBwDown now).isFilledPipe = b.isFilledPipe := rfl

@[simp] theorem isFilledPipe_inflight (gain : Nat) : (b.inflight gain).2.isFilledPipe = b.isFilledPipe :=
  isFilledPipe_congr (mode_inflight b gain)

@[simp] theorem isFilledPipe_handleInflightTooHigh :
    (b.handleInflightTooHigh now).isFilledPipe = b.isFilledPipe := by
  have hcut : b.cutInflightHi.isFilledPipe = b.isFilledPipe := isFilledPipe_congr (mode_cutInflightHi b)
  simp [handleInflightTooHigh, hcut]

@[simp] theorem isFilledPipe_checkInflightTooHigh :
    (b.checkInflightTooHigh now).2.isFilledPipe = b.isFilledPipe := by
  unfold checkInflightTooHigh
  split <;> simp

@[simp] theorem isFilledPipe_adaptAckPhase : b.adaptAckPhase.isFilledPipe = b.isFilledPipe := by
  simp [adaptAckPhase, advanceMaxBwFilter]

@[simp] theorem isFilledPipe_probeInflightHiUpward (limited : Bool) :
    (b.probeInflightHiUpward limited).isFilledPipe = b.isFilledPipe := by
  simp [probeInflightHiUpward, raiseInflightHiSlope]

@[simp] theorem isFilledPipe_adaptUpperBounds : (b.adaptUpperBounds now).isFilledPipe = b.isFilledPipe := by
  simp [adaptUpperBounds, raiseUpperBounds]

@[simp] theorem isFilledPipe_checkDrain (n : Nat) : (b.checkDrain now n).isFilledPipe = b.isFilledPipe := by
  simp [checkDrain]

theorem updateMinRtt_spec : (b.updateMinRtt now).mode = b.mode ∧ (b.updateMinRtt now).idleRestart = b.idleRestart ∧
    (b.updateMinRtt now).probeRttExpired = decide (durationSince now b.probeRttMinStamp > probeRttInterval) := by
  unfold updateMinRtt
  simp only
  split <;> split <;> exact ⟨rfl, rfl, rfl⟩

@[simp] theorem isFilledPipe_exitProbeRtt : (b.exitProbeRtt now).isFilledPipe = b.isFilledPipe := by
  unfold exitProbeRtt
  simp only
  split
  · simp
  · rfl

@[simp] theorem isFilledPipe_checkProbeRttDone : (b.checkProbeRttDone now).isFilledPipe = b.isFilledPipe := by
  unfold checkProbeRttDone
  split <;> simp [restoreCwnd]

@[simp] theorem isFilledPipe_awaitProbeRttRound : (b.awaitProbeRttRound now).isFilledPipe = b.isFilledPipe := by
  simp [awaitProbeRttRound]

@[simp] theorem isFilledPipe_checkTimeToCruise (n : Nat) : (b.checkTimeToCruise n).2.isFilledPipe = b.isFilledPipe := by
  unfold checkTimeToCruise
  split <;> simp

end

variable {now : Int} {n : Nat}

theorem isFilledPipe_checkTimeToProbeBw {b : Bbr3} {r : Bool × Bbr3} (h : b.checkTimeToProbeBw now = some r) :
    r.2.isFilledPipe = b.isFilledPipe := by
  obtain ⟨elapsed, -, h⟩ := bind_eq_some_iff.mp h
  split at h <;> exact some.inj h ▸ rfl

theorem isFilledPipe_probeBwPhase (h : b.probeBwPhase now n = some b') : b'.isFilledPipe = b.isFilledPipe := by
  unfold probeBwPhase at h
  split at h
  · obtain ⟨r, hr, h⟩ := bind_eq_some_iff.mp h
    rw [← isFilledPipe_checkTimeToProbeBw hr]
    split at h <;> simp [← some.inj h]
  · obtain ⟨r, hr, rfl⟩ := map_eq_some_iff.mp h
    exact isFilledPipe_checkTimeToProbeBw hr
  · simp [← some.inj h, startProbeBwUp, raiseInflightHiSlope]
  · obtain ⟨elapsed, -, h⟩ := bind_eq_some_iff.mp h
    split at h <;> simp [← some.inj h]
  · rw [← some.inj h]

theorem isFilledPipe_updateProbeBwCyclePhase (h : b.updateProbeBwCyclePhase now n = some b') :
    b'.isFilledPipe = b.isFilledPipe := by
  unfold updateProbeBwCyclePhase at h
  split at h
  · rw [← some.inj h]
  · rw [isFilledPipe_probeBwPhase h, isFilledPipe_adaptUpperBounds]

theorem mode_awaitProbeRttCwnd (h : b.awaitProbeRttCwnd now n = some b') : b'.mode = b.mode := by
  unfold awaitProbeRttCwnd at h
  simp only at h
  split at h
  · obtain ⟨t, -, rfl⟩ := map_eq_some_iff.mp h
    exact mode_probeRttCwnd b
  cases h
  exact mode_probeRttCwnd b

theorem isFilledPipe_handleProbeRtt (h : b.handleProbeRtt now n = some b') : b'.isFilledPipe = b.isFilledPipe := by
  have hm : b.markConnectionAppLimited.isFilledPipe = b.isFilledPipe := rfl
  unfold handleProbeRtt at h
  simp only at h
  split at h
  · rw [← some.inj h, isFilledPipe_awaitProbeRttRound, hm]
  · exact (isFilledPipe_congr (mode_awaitProbeRttCwnd h)).trans hm

theorem enterProbeRttIfDue_spec (b : Bbr3) : b.enterProbeRttIfDue.isFilledPipe = b.isFilledPipe ∧
    if b.state ≠ .probeRTT ∧ b.probeRttExpired ∧ !b.idleRestart then
      b.enterProbeRttIfDue.state = .probeRTT ∧ b.enterProbeRttIfDue.probeRttDoneStamp = none
    else b.enterProbeRttIfDue = b := by
  unfold enterProbeRttIfDue
  split
  · obtain ⟨hstate, hfilled⟩ := Prod.mk.inj (mode_updateGains { b with state := .probeRTT })
    exact ⟨hfilled, hstate, rfl⟩
  · exact ⟨rfl, rfl⟩

theorem isFilledPipe_checkProbeRtt (h : b.checkProbeRtt now n = some b') : b'.isFilledPipe = b.isFilledPipe := by
  obtain ⟨b2, h2, h⟩ := bind_eq_some_iff.mp h
  have he := (enterProbeRttIfDue_spec b).1
  have hb2 : b2.isFilledPipe = b.isFilledPipe := by
    rw [← he]
    split at h2
    · exact isFilledPipe_handleProbeRtt h2
    · rw [← some.inj h2]
  rw [← some.inj h, ← hb2]
  split <;> rfl

/-- In Startup the check leads to ProbeRTT, and not out of it again, or does nothing. -/
theorem checkProbeRtt_inStartup_iff (hb : b.InStartup) (h : b.checkProbeRtt now n = some b') :
    b'.InStartup ↔ ¬ (b.probeRttExpired = true ∧ b.idleRestart = false) := by
  have hfilled := isFilledPipe_checkProbeRtt h
  obtain ⟨b2, h2, h⟩ := bind_eq_some_iff.mp h
  have hidle : b'.state = b2.state := by
    cases h
    split <;> rfl
  obtain ⟨-, he⟩ := enterProbeRttIfDue_spec b
  split at he
  · rename_i hdue
    -- the stamp was just cleared, so the end of ProbeRTT is not due
    rw [if_pos he.1] at h2
    have hm : b.enterProbeRttIfDue.markConnectionAppLimited.probeRttDoneStamp.isSome = false := by
      rw [markConnectionAppLimited, he.2]
      rfl
    unfold handleProbeRtt at h2
    rw [if_neg (by rw [hm]; exact Bool.false_ne_true)] at h2
    have hprobe : b'.state = .probeRTT := by
      rw [hidle, ← he.1]
      exact congrArg Prod.fst (mode_awaitProbeRttCwnd h2)
    constructor
    · intro hs
      rw [hs.state] at hprobe
      cases hprobe
    · intro hn
      exact (hn ⟨hdue.2.1, by simpa using hdue.2.2⟩).elim
  rename_i hdue
  rw [he, if_neg (by rw [hb.state]; decide)] at h2
  rw [← some.inj h2] at hidle
  constructor
  · rintro - ⟨hexp, hrestart⟩
    exact hdue ⟨by rw [hb.state]; decide, hexp, by rw [hrestart]; rfl⟩
  · exact fun _ => ⟨hidle.trans hb.state, hfilled.trans hb.isFilledPipe⟩

theorem InStartup.checkDrain {b : Bbr3} (hb : b.InStartup) (now : Int) (n : Nat) : b.checkDrain now n = b := by
  unfold Bbr3.checkDrain
  rw [if_neg (by rw [hb.state]; decide)]

theorem InStartup.updateProbeBwCyclePhase {b : Bbr3} (hb : b.InStartup) (now : Int) (n : Nat) :
    b.updateProbeBwCyclePhase now n = some b := by
  unfold Bbr3.updateProbeBwCyclePhase
  rw [hb.isFilledPipe]
  rfl

/-! ## `end_ack` -/

theorem updateModelAndState_cases (h : b.updateModelAndState now n = some b') : ∃ c d,
    ((b.updateLatestDeliverySignals.updateCongestionSignals.updateAckAggregation
      now).checkStartupDone.checkDrain now n).updateProbeBwCyclePhase now n = some c ∧
    (c.updateMinRtt now).checkProbeRtt now n = some d ∧ b'.mode = d.mode := by
  obtain ⟨c, hc, h⟩ := bind_eq_some_iff.mp h
  obtain ⟨d, hd, h⟩ := bind_eq_some_iff.mp h
  refine ⟨c, d, hc, hd, ?_⟩
  cases h
  exact mode_advanceLatestDeliverySignals d

theorem endAck_cases (h : b.endAck = some b') : ∃ e p c d,
    b.deliveryRateEstimator.generateRateSample = some e ∧ SameCheck (prepared { b with deliveryRateEstimator := e }) p ∧
    (p.checkStartupDone.checkDrain b.ackState.now b.bytesInFlight).updateProbeBwCyclePhase b.ackState.now
      b.bytesInFlight = some c ∧
    (c.updateMinRtt b.ackState.now).checkProbeRtt b.ackState.now b.bytesInFlight = some d ∧
    b'.mode = d.mode := by
  obtain ⟨e, he, h⟩ := bind_eq_some_iff.mp h
  have hp := sameCheck_prepared { b with deliveryRateEstimator := e } b.ackState.now
  have hack : ({ b with deliveryRateEstimator := e } : Bbr3).exitRecoveryIfOver.ackState = b.ackState :=
    (exitRecoveryIfOver_spec { b with deliveryRateEstimator := e }).1.ackState
  simp only [hack] at h
  obtain ⟨b2, h2, h⟩ := bind_eq_some_iff.mp h
  obtain ⟨c, d, hc, hd, hs⟩ := updateModelAndState_cases h2
  exact ⟨e, _, c, d, he, hp, hc, hd, by rw [mode_updateControlParameters h, mode_updateGains, hs]⟩

/-- `end_ack` leaves Startup, or finds the pipe filled, exactly when `LeavesStartup` holds before. -/
theorem endAck_inStartup_iff (hb : b.InStartup) (h : b.endAck = some b') : b'.InStartup ↔ ¬ LeavesStartup b := by
  obtain ⟨e, p, c, d, he, hp, hc, hd, hs⟩ := endAck_cases h
  rw [inStartup_congr hs]
  have hb0 : ({ b with deliveryRateEstimator := e } : Bbr3).InStartup := { hb with }
  obtain ⟨hleave, hstay⟩ := checkStartupDone_spec hp hb0
  obtain ⟨hmin, hidle, hexp⟩ := updateMinRtt_spec c b.ackState.now
  by_cases hq : Plateau { b with deliveryRateEstimator := e } ∨ HighLoss { b with deliveryRateEstimator := e }
  · -- from then on the pipe counts as filled
    have hfilled : d.isFilledPipe = true := by
      rw [isFilledPipe_checkProbeRtt hd, isFilledPipe_congr hmin, isFilledPipe_updateProbeBwCyclePhase hc,
        isFilledPipe_checkDrain]
      exact hleave hq
    constructor
    · intro hd'
      rw [hd'.isFilledPipe] at hfilled
      cases hfilled
    · intro hn
      exact (hn ⟨e, he, hq.elim Or.inl fun hl => Or.inr (Or.inl hl)⟩).elim
  -- the phases of Drain and ProbeBW are passed over
  obtain ⟨hs1, hsame⟩ := hstay hq
  have hcp : c = p.checkStartupDone := by
    rw [hs1.checkDrain, hs1.updateProbeBwCyclePhase] at hc
    exact (some.inj hc).symm
  have hc1 : (c.updateMinRtt b.ackState.now).InStartup := by
    rw [inStartup_congr hmin, hcp]
    exact hs1
  have hstamp : c.probeRttMinStamp = b.probeRttMinStamp := by
    rw [hcp, hsame.probeRttMinStamp]
    exact hp.probeRttMinStamp
  have hrestart : c.idleRestart = b.idleRestart := by
    rw [hcp, hsame.idleRestart]
    exact hp.idleRestart
  rw [checkProbeRtt_inStartup_iff hc1 hd, hexp, hidle, hstamp, hrestart, decide_eq_true_eq]
  refine not_congr ⟨fun hdue => ⟨e, he, Or.inr (Or.inr hdue)⟩, ?_⟩
  rintro ⟨e', he', hcase⟩
  cases he.symm.trans he'
  rcases hcase with hl | hl | hdue
  · exact (hq (Or.inl hl)).elim
  · exact (hq (Or.inr hl)).elim
  · exact hdue

end MoqQuic.L2.Tquic.Bbr3
