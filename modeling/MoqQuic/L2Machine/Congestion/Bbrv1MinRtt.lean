import MoqQuic.Core.LTS
import MoqQuic.L2Machine.Congestion.Bbrv1

/-!
# The minimum RTT of `BBRv1Sender`

`lastNewMinRTT` is ten seconds until the first acknowledgement, and again while
PROBE_RTT looks for a new minimum. PROBE_RTT is left 200 ms after it began, by
the next acknowledgement or by the next `HasPacingBudget`; nothing asks whether
a sample was taken in it. If none was, the sender goes on in PROBE_BW with the ten
seconds.

A `Planner` is a sender with the positive RTTs it measured and the time of the
last call.

Results:
* `KeepsRtt.*`: which steps of `OnPacketAcked` leave the minimum RTT alone.
* `onPacketAcked_rtt`: what one acknowledgement does to it.
* `planned_iff`: the sender plans with a sample exactly as long as no PROBE_RTT is
  left without one.
-/
namespace MoqQuic.L2.Congestion.Bbrv1

open L2 Sender

namespace Sender

/-! ## What each part of a call does to the minimum -/

theorem le_foldl_max (l : List Int) (init : Int) : init ≤ l.foldl max init ∧ ∀ x ∈ l, x ≤ l.foldl max init := by
  induction l generalizing init with
  | nil => simp
  | cons y l ih =>
    obtain ⟨hinit, hmem⟩ := ih (max init y)
    exact ⟨(le_max_left _ _).trans hinit, List.forall_mem_cons.mpr ⟨(le_max_right _ _).trans hinit, hmem⟩⟩

theorem minMaxbandwidth_nonneg {b : Sender} (h : 0 < b.lastNewMinRTT) : 0 ≤ b.minMaxbandwidth :=
  Int.tdiv_nonneg (by simp [second]) h.le

/-- The minimum RTT, its times and the datagram size are the same, the sender is in PROBE_RTT as before, and the
bandwidth stays non-negative. -/
structure KeepsRtt (b b' : Sender) : Prop where
  lastNewMinRTT : b'.lastNewMinRTT = b.lastNewMinRTT
  lastNewMinRTTTime : b'.lastNewMinRTTTime = b.lastNewMinRTTTime
  lastProbeRTTStart : b'.lastProbeRTTStart = b.lastProbeRTTStart
  maxDatagramSize : b'.maxDatagramSize = b.maxDatagramSize
  probeRtt : b'.state = .probeRtt ↔ b.state = .probeRtt
  bandwidth : 0 < b.lastNewMinRTT → 0 ≤ b.maxBandwidth → 0 ≤ b'.maxBandwidth

theorem KeepsRtt.refl (b : Sender) : KeepsRtt b b := ⟨rfl, rfl, rfl, rfl, Iff.rfl, fun _ hb => hb⟩

theorem KeepsRtt.trans {b b' b'' : Sender} (h : KeepsRtt b b') (h' : KeepsRtt b' b'') : KeepsRtt b b'' :=
  ⟨h'.lastNewMinRTT.trans h.lastNewMinRTT, h'.lastNewMinRTTTime.trans h.lastNewMinRTTTime,
    h'.lastProbeRTTStart.trans h.lastProbeRTTStart, h'.maxDatagramSize.trans h.maxDatagramSize,
    h'.probeRtt.trans h.probeRtt,
    fun hpos hb => h'.bandwidth (h.lastNewMinRTT ▸ hpos) (h.bandwidth hpos hb)⟩

variable (b : Sender)
include b

theorem keepsRtt_exitRecover : KeepsRtt b b.exitRecover := by
  unfold exitRecover
  split <;> exact ⟨rfl, rfl, rfl, rfl, Iff.rfl, fun _ hb => hb⟩

theorem keepsRtt_checkStartup : KeepsRtt b b.checkStartup := by
  have hnote : KeepsRtt b b.noteGrowth := by
    unfold noteGrowth
    split <;> exact ⟨rfl, rfl, rfl, rfl, Iff.rfl, fun _ hb => hb⟩
  rw [checkStartup]
  refine hnote.trans ?_
  unfold leaveStartup
  split
  · rename_i h
    exact ⟨rfl, rfl, rfl, rfl, by simp [h.1], fun _ hb => hb⟩
  · exact .refl _

theorem keepsRtt_endRound (rate t : Int) : KeepsRtt b (b.endRound rate t) := by
  rw [endRound]
  split
  · have hrecover : KeepsRtt b b.recover := by
      unfold recover
      split
      · exact keepsRtt_exitRecover b
      · exact .refl b
    have hround : KeepsRtt b.recover (b.recover.nextRound rate) :=
      ⟨rfl, rfl, rfl, rfl, Iff.rfl, fun _ hb => hb⟩
    have hcycle : KeepsRtt (b.recover.nextRound rate) (b.recover.nextRound rate).cycleGain := by
      unfold cycleGain
      split <;> exact ⟨rfl, rfl, rfl, rfl, Iff.rfl, fun _ hb => hb⟩
    have hfilter : KeepsRtt (b.recover.nextRound rate).cycleGain
        { (b.recover.nextRound rate).cycleGain with roundStartTime := t }.updateMaxbandwidthFilter := by
      refine ⟨rfl, rfl, rfl, rfl, Iff.rfl, fun hpos _ => ?_⟩
      exact (minMaxbandwidth_nonneg hpos).trans (le_foldl_max _ _).1
    exact hrecover.trans (hround.trans (hcycle.trans (hfilter.trans (keepsRtt_checkStartup _))))
  · exact .refl b

theorem keepsRtt_drained (prior : Nat) : KeepsRtt b (b.drained prior) := by
  unfold drained
  split
  · rename_i hdrain
    exact ⟨rfl, rfl, rfl, rfl, by simp [entryProbeBW, hdrain.1], fun _ hb => hb⟩
  · exact .refl b

theorem keepsRtt_raise (rate : Int) (prior : Nat) : KeepsRtt b (b.raise rate prior) := by
  unfold raise
  dsimp only
  split
  · exact ⟨rfl, rfl, rfl, rfl, Iff.rfl, fun hpos _ => (minMaxbandwidth_nonneg hpos).trans (le_max_right _ _)⟩
  · exact .refl b

theorem keepsRtt_updateLastbandwidthFilter (t : Int) : KeepsRtt b (b.updateLastbandwidthFilter t).2 :=
  ⟨rfl, rfl, rfl, rfl, Iff.rfl, fun _ hb => hb⟩

theorem keepsRtt_hasPacingBudget (now : Int) : KeepsRtt (b.mayExitProbeRTT now) (b.hasPacingBudget now).2 := by
  unfold hasPacingBudget
  dsimp only
  split
  · exact .refl _
  · exact keepsRtt_updateLastbandwidthFilter _ now

theorem adjust_rtt (rate : Int) (prior : Nat) (t : Int) :
    b.StartsProbeRTT t ∧ (b.adjust rate prior t).state = .probeRtt ∧
        (b.adjust rate prior t).lastNewMinRTT = 10 * second ∧
        (0 < b.lastNewMinRTT → 0 ≤ b.maxBandwidth → 0 ≤ (b.adjust rate prior t).maxBandwidth) ∨
      ¬ b.StartsProbeRTT t ∧ KeepsRtt b (b.adjust rate prior t) := by
  have hkeep := (keepsRtt_drained b prior).trans (keepsRtt_raise _ rate prior)
  have hstarts : ((b.drained prior).raise rate prior).StartsProbeRTT t ↔ b.StartsProbeRTT t := by
    unfold StartsProbeRTT
    rw [hkeep.lastNewMinRTTTime, hkeep.lastProbeRTTStart]
  rw [adjust]
  unfold mayStartProbeRTT
  split
  · exact .inl ⟨hstarts.mp ‹_›, rfl, rfl, hkeep.bandwidth⟩
  · exact .inr ⟨mt hstarts.mpr ‹_›, hkeep⟩

/-- PROBE_RTT ends by time alone. -/
theorem mayExitProbeRTT_rtt (t : Int) : (b.mayExitProbeRTT t).lastNewMinRTT = b.lastNewMinRTT ∧
    (b.mayExitProbeRTT t).lastNewMinRTTTime = b.lastNewMinRTTTime ∧
    (b.mayExitProbeRTT t).lastProbeRTTStart = b.lastProbeRTTStart ∧
    (b.mayExitProbeRTT t).maxBandwidth = b.maxBandwidth ∧ ((b.mayExitProbeRTT t).state = .probeRtt ↔
      b.state = .probeRtt ∧ t - b.lastProbeRTTStart < 200 * millisecond) := by
  unfold mayExitProbeRTT
  split
  · refine ⟨rfl, rfl, rfl, rfl, ?_⟩
    have : ¬ t - b.lastProbeRTTStart < 200 * millisecond := by omega
    simp [entryProbeBW, this]
  rename_i h
  refine ⟨rfl, rfl, rfl, rfl, ?_⟩
  constructor
  · intro hs
    exact ⟨hs, not_le.mp fun hge => h ⟨hs, hge⟩⟩
  · exact fun hs => hs.1

theorem recordAck_rtt (pn : Int) (n : Nat) (t : Int) : (b.recordAck pn n t).lastProbeRTTStart = b.lastProbeRTTStart ∧
    (b.recordAck pn n t).maxBandwidth = b.maxBandwidth ∧
    ((b.recordAck pn n t).state = .probeRtt ↔ b.state = .probeRtt ∧ t - b.lastProbeRTTStart < 200 * millisecond) ∧
    (0 < b.rtt pn t ∧ b.rtt pn t < b.lastNewMinRTT ∧ (b.recordAck pn n t).lastNewMinRTT = b.rtt pn t ∨
      ¬ (0 < b.rtt pn t ∧ b.rtt pn t < b.lastNewMinRTT) ∧ (b.recordAck pn n t).lastNewMinRTT = b.lastNewMinRTT ∧
        (b.recordAck pn n t).lastNewMinRTTTime = b.lastNewMinRTTTime) := by
  obtain ⟨hmin, htime, hstart, hbw, hstate⟩ :=
    mayExitProbeRTT_rtt { b with sentTimes := Function.update b.sentTimes pn none } t
  unfold recordAck noteSample
  dsimp only at hmin htime hstart hbw hstate ⊢
  rw [hmin]
  split
  · rename_i h
    exact ⟨hstart, hbw, hstate, .inl ⟨h.2, h.1, rfl⟩⟩
  rename_i h
  exact ⟨hstart, hbw, hstate, .inr ⟨fun hr => h ⟨hr.2, hr.1⟩, hmin, htime⟩⟩

/-- An acknowledgement records its sample; if that leaves the sender outside PROBE_RTT, it may start it. -/
theorem onPacketAcked_rtt (pn : Int) (n prior : Nat) (t : Int) :
    (b.recordAck pn n t).state = .probeRtt ∧ b.onPacketAcked pn n prior t = b.recordAck pn n t ∨
    (b.recordAck pn n t).state ≠ .probeRtt ∧
      ((b.recordAck pn n t).StartsProbeRTT t ∧ (b.onPacketAcked pn n prior t).state = .probeRtt ∧
          (b.onPacketAcked pn n prior t).lastNewMinRTT = 10 * second ∧
          (0 < (b.recordAck pn n t).lastNewMinRTT → 0 ≤ b.maxBandwidth →
            0 ≤ (b.onPacketAcked pn n prior t).maxBandwidth) ∨
        ¬ (b.recordAck pn n t).StartsProbeRTT t ∧ KeepsRtt (b.recordAck pn n t) (b.onPacketAcked pn n prior t)) := by
  unfold onPacketAcked
  dsimp only
  split
  · rename_i h
    exact .inl ⟨h, rfl⟩
  rename_i h
  refine .inr ⟨h, ?_⟩
  set updated := (b.recordAck pn n t).updateLastbandwidthFilter t with hupdated
  have hround : KeepsRtt (b.recordAck pn n t) (updated.2.endRound updated.1 t) :=
    (keepsRtt_updateLastbandwidthFilter _ t).trans (keepsRtt_endRound _ _ _)
  have hadjust := adjust_rtt (updated.2.endRound updated.1 t) updated.1 prior t
  unfold StartsProbeRTT at hadjust ⊢
  rw [hround.lastNewMinRTTTime, hround.lastProbeRTTStart] at hadjust
  obtain ⟨hstarts, hstate, hmin, hbw⟩ | ⟨hstarts, hkeep⟩ := hadjust
  · refine .inl ⟨hstarts, hstate, hmin, fun hpos hb => ?_⟩
    rw [← (recordAck_rtt b pn n t).2.1] at hb
    exact hbw (hround.lastNewMinRTT ▸ hpos) (hround.bandwidth hpos hb)
  · exact .inr ⟨hstarts, hround.trans hkeep⟩

omit b

/-- The window for a bandwidth and a given RTT. -/
def windowFor (b : Sender) (rtt : Int) : Int :=
  (max (b.maxBandwidth * rtt) (minBdp * b.maxDatagramSize * second) * b.cwndGain).tdiv (1000 * second)

theorem cwnd_eq_windowFor {b : Sender} (h : b.state ≠ .probeRtt) : b.cwnd = b.windowFor b.lastNewMinRTT :=
  if_neg h

theorem windowFor_mono {b : Sender} (hb : 0 ≤ b.maxBandwidth) {r r' : Int} (h : r ≤ r') :
    b.windowFor r ≤ b.windowFor r' := by
  have hgain : 0 ≤ (b.cwndGain : Int) := by omega
  apply Int.tdiv_le_tdiv (by decide)
  gcongr

end Sender

/-! ## Runs -/

/-- A sender with the positive RTTs its acknowledgements measured and the time of the last call. -/
structure Planner where
  sender : Sender
  now : Int
  samples : List Int := []

inductive Call
  | onPacketSent (sentTime : Int) (bytesInFlight : Nat) (packetNumber : Int) (bytes : Nat) (isRetransmittable : Bool)
  | onPacketAcked (number : Int) (ackedBytes priorInFlight : Nat) (eventTime : Int)
  | hasPacingBudget (now : Int)
  | canSend (bytesInFlight : Nat)

/-- The samples after one more RTT was computed. -/
def taken (rtt : Int) (samples : List Int) : List Int := if 0 < rtt then rtt :: samples else samples

theorem mem_taken {rtt x : Int} {samples : List Int} : x ∈ taken rtt samples ↔ 0 < rtt ∧ x = rtt ∨ x ∈ samples := by
  unfold taken
  split
  · rename_i h
    simp [h]
  rename_i h
  simp [h]

namespace Planner

def new (initialMaxDatagramSize : Nat) (created : Int) : Planner :=
  { sender := .new initialMaxDatagramSize created, now := created }

variable (e : Planner)

/-- Calls that go back in time are refused. -/
def step : Call → Option Planner
  | .onPacketSent sentTime bytesInFlight packetNumber bytes isRetransmittable =>
    if e.now ≤ sentTime then
      some { e with
        sender := e.sender.onPacketSent sentTime bytesInFlight packetNumber bytes isRetransmittable
        now := sentTime }
    else none
  | .onPacketAcked number ackedBytes priorInFlight eventTime =>
    if e.now ≤ eventTime then
      some {
        sender := e.sender.onPacketAcked number ackedBytes priorInFlight eventTime
        now := eventTime
        samples := taken (e.sender.rtt number eventTime) e.samples }
    else none
  | .hasPacingBudget now =>
    if e.now ≤ now then some { e with sender := (e.sender.hasPacingBudget now).2, now } else none
  | .canSend _ => some e

/-- Some sample was below ten seconds. -/
def Sampled : Prop := ∃ x ∈ e.samples, x < 10 * second

instance : Decidable e.Sampled := inferInstanceAs (Decidable (∃ x ∈ e.samples, x < 10 * second))

def largest : Int := e.samples.foldl max 0

/-- From the first sample on and outside PROBE_RTT, the minimum RTT is a sample, and a window that
`CanSend` grants is one for the largest sample. -/
def Planned : Prop :=
  e.Sampled → e.sender.state ≠ .probeRtt → e.sender.lastNewMinRTT ∈ e.samples ∧
    ∀ bytesInFlight : Nat, e.sender.canSend bytesInFlight → bytesInFlight < e.sender.windowFor e.largest

/-- PROBE_RTT has seen no sample yet that is at most ten seconds. -/
def Stale : Prop :=
  e.Sampled ∧ e.sender.state = .probeRtt ∧ e.sender.lastNewMinRTT = 10 * second ∧ 10 * second ∉ e.samples

/-- The call does not end a PROBE_RTT without a sample: it comes before 200 ms have passed, brings the
sample itself, or starts PROBE_RTT over. -/
def Fresh : Call → Prop
  | .onPacketAcked number _ _ eventTime =>
    e.Stale → eventTime - e.sender.lastProbeRTTStart < 200 * millisecond ∨
      (0 < e.sender.rtt number eventTime ∧ e.sender.rtt number eventTime ≤ 10 * second) ∨
      e.sender.StartsProbeRTT eventTime
  | .hasPacingBudget now => e.Stale → now - e.sender.lastProbeRTTStart < 200 * millisecond
  | _ => True

instance : Decidable e.Stale := inferInstanceAs (Decidable (_ ∧ _))

instance : (c : Call) → Decidable (e.Fresh c)
  | .onPacketAcked .. => inferInstanceAs (Decidable (_ → _))
  | .hasPacingBudget _ => inferInstanceAs (Decidable (_ → _))
  | .onPacketSent .. => inferInstanceAs (Decidable True)
  | .canSend _ => inferInstanceAs (Decidable True)

/-! ## The invariant -/

/-- The minimum RTT of the sender `b` with the samples so far. -/
structure Inv (b : Sender) (samples : List Int) : Prop where
  rtt_pos : 0 < b.lastNewMinRTT
  rtt_le : b.lastNewMinRTT ≤ 10 * second
  bandwidth : 0 ≤ b.maxBandwidth
  unsampled : (∀ x ∈ samples, 10 * second ≤ x) → b.lastNewMinRTT = 10 * second
  source : b.lastNewMinRTT = 10 * second ∨ b.lastNewMinRTT ∈ samples
  planned : (∃ x ∈ samples, x < 10 * second) → b.state ≠ .probeRtt → b.lastNewMinRTT ∈ samples

theorem inv_new (size : Nat) (created : Int) : Inv (.new size created) [] := by
  have hrtt : (Sender.new size created).lastNewMinRTT = 10 * second := rfl
  refine ⟨by rw [hrtt]; decide, hrtt.le, ?_, fun _ => hrtt, .inl hrtt, by simp⟩
  unfold Sender.new
  dsimp only
  apply minMaxbandwidth_nonneg
  simp [second]

variable {e : Planner}

theorem Inv.toPlanned (h : Inv e.sender e.samples) : e.Planned := by
  intro hsampled hstate
  have hmem := h.planned hsampled hstate
  refine ⟨hmem, fun n hn => ?_⟩
  have hlt := of_decide_eq_true hn
  rw [cwnd_eq_windowFor hstate] at hlt
  exact hlt.trans_le (windowFor_mono h.bandwidth ((le_foldl_max _ _).2 _ hmem))

theorem Inv.congr {b b' : Sender} {samples : List Int} (h : Inv b samples) (hk : b.KeepsRtt b') : Inv b' samples where
  rtt_pos := hk.lastNewMinRTT ▸ h.rtt_pos
  rtt_le := hk.lastNewMinRTT ▸ h.rtt_le
  bandwidth := hk.bandwidth h.rtt_pos h.bandwidth
  unsampled hs := hk.lastNewMinRTT ▸ h.unsampled hs
  source := hk.lastNewMinRTT ▸ h.source
  planned hs hstate := hk.lastNewMinRTT ▸ h.planned hs fun hp => hstate (hk.probeRtt.mpr hp)

section

variable (h : Inv e.sender e.samples)
include h

theorem Inv.hasPacingBudget {now : Int} (hok : e.Fresh (.hasPacingBudget now)) :
    Inv (e.sender.hasPacingBudget now).2 e.samples := by
  obtain ⟨hmin, -, -, hbw, hstate⟩ := e.sender.mayExitProbeRTT_rtt now
  refine Inv.congr ⟨?_, ?_, ?_, ?_, ?_, ?_⟩ (keepsRtt_hasPacingBudget e.sender now)
  · rw [hmin]
    exact h.rtt_pos
  · rw [hmin]
    exact h.rtt_le
  · rw [hbw]
    exact h.bandwidth
  · rw [hmin]
    exact h.unsampled
  · rw [hmin]
    exact h.source
  intro hsampled hout
  rw [hmin]
  by_cases hprobe : e.sender.state = .probeRtt
  · by_contra hmem
    have hten := h.source.resolve_right hmem
    exact hout (hstate.mpr ⟨hprobe, hok ⟨hsampled, hprobe, hten, hten ▸ hmem⟩⟩)
  · exact h.planned hsampled hprobe

theorem Inv.recordAck_pos (pn : Int) (n : Nat) (t : Int) : 0 < (e.sender.recordAck pn n t).lastNewMinRTT := by
  obtain ⟨-, -, -, ⟨hpos, -, hrtt⟩ | ⟨-, hrtt, -⟩⟩ := e.sender.recordAck_rtt pn n t
  · rwa [hrtt]
  rw [hrtt]
  exact h.rtt_pos

/-- An acknowledgement that does not start PROBE_RTT. -/
theorem Inv.recordAck {pn t : Int} {n prior : Nat} (hok : e.Fresh (.onPacketAcked pn n prior t))
    (hstarts : (e.sender.recordAck pn n t).state ≠ .probeRtt → ¬ (e.sender.recordAck pn n t).StartsProbeRTT t) :
    Inv (e.sender.recordAck pn n t) (taken (e.sender.rtt pn t) e.samples) := by
  obtain ⟨hstart, hbw, hstate, ⟨hpos, hlt, hrtt⟩ | ⟨hnot, hrtt, htime⟩⟩ := e.sender.recordAck_rtt pn n t
  · have hmem : e.sender.rtt pn t ∈ taken (e.sender.rtt pn t) e.samples := mem_taken.mpr (.inl ⟨hpos, rfl⟩)
    have hten := h.rtt_le
    constructor
    · rwa [hrtt]
    · omega
    · rw [hbw]
      exact h.bandwidth
    · intro hall
      have := hall _ hmem
      omega
    · rw [hrtt]
      exact .inr hmem
    · intro _ _
      rwa [hrtt]
  have hmono : e.sender.lastNewMinRTT ∈ e.samples → e.sender.lastNewMinRTT ∈ taken (e.sender.rtt pn t) e.samples :=
    fun hm => mem_taken.mpr (.inr hm)
  constructor
  · rw [hrtt]
    exact h.rtt_pos
  · rw [hrtt]
    exact h.rtt_le
  · rw [hbw]
    exact h.bandwidth
  · intro hall
    rw [hrtt]
    exact h.unsampled fun x hx => hall x (mem_taken.mpr (.inr hx))
  · rw [hrtt]
    exact h.source.imp_right hmono
  intro hsampled hout
  rw [hrtt]
  -- the sample that makes the list sampled is an old one
  have hold : e.Sampled := by
    by_contra hnone
    have hten := h.unsampled fun x hx => not_lt.mp fun hlt => hnone ⟨x, hx, hlt⟩
    obtain ⟨x, hx, hlt⟩ := hsampled
    obtain ⟨hpos, rfl⟩ | hx := mem_taken.mp hx
    · exact hnot ⟨hpos, hten ▸ hlt⟩
    · exact hnone ⟨x, hx, hlt⟩
  by_cases hprobe : e.sender.state = .probeRtt
  · by_contra hmem
    have hten := h.source.resolve_right fun hm => hmem (hmono hm)
    have hstale : e.Stale := ⟨hold, hprobe, hten, fun hm => hmem (hmono (hten ▸ hm))⟩
    obtain hearly | ⟨hpos, hle⟩ | hagain := hok hstale
    · exact hout (hstate.mpr ⟨hprobe, hearly⟩)
    · have heq : e.sender.lastNewMinRTT = e.sender.rtt pn t := by omega
      exact hmem (mem_taken.mpr (.inl ⟨hpos, heq⟩))
    apply hstarts hout
    unfold Sender.StartsProbeRTT
    rwa [htime, hstart]
  · exact hmono (h.planned hold hprobe)

theorem Inv.onPacketAcked {pn t : Int} {n prior : Nat} (hok : e.Fresh (.onPacketAcked pn n prior t)) :
    Inv (e.sender.onPacketAcked pn n prior t) (taken (e.sender.rtt pn t) e.samples) := by
  obtain ⟨hin, heq⟩ | ⟨hout, ⟨hstarts, hstate, hrtt, hbw⟩ | ⟨hstarts, hkeep⟩⟩ :=
    e.sender.onPacketAcked_rtt pn n prior t
  · rw [heq]
    exact h.recordAck hok fun hout => absurd hin hout
  · refine ⟨by rw [hrtt]; decide, hrtt.le, hbw (h.recordAck_pos pn n t) h.bandwidth, fun _ => hrtt, .inl hrtt, ?_⟩
    exact fun _ hout => absurd hstate hout
  · exact (h.recordAck hok fun _ => hstarts).congr hkeep

theorem Inv.step {e' : Planner} {c : Call} (hok : e.Fresh c)
    (hs : e.step c = some e') : Inv e'.sender e'.samples := by
  cases c with
  | onPacketSent t inFlight pn bytes r =>
    simp only [Planner.step] at hs
    split at hs
    · cases hs
      exact h.congr ⟨rfl, rfl, rfl, rfl, Iff.rfl, fun _ hb => hb⟩
    · cases hs
  | onPacketAcked pn n prior t =>
    simp only [Planner.step] at hs
    split at hs
    · cases hs
      exact h.onPacketAcked hok
    · cases hs
  | hasPacingBudget now =>
    simp only [Planner.step] at hs
    split at hs
    · cases hs
      exact h.hasPacingBudget hok
    · cases hs
  | canSend n =>
    cases hs
    exact h

end

/-- A call that ends a PROBE_RTT without a sample leaves the placeholder in use. -/
theorem fresh_of_planned {e' : Planner} {c : Call} (hs : e.step c = some e') (hp : e'.Planned) : e.Fresh c := by
  cases c with
  | onPacketSent t inFlight pn bytes r => trivial
  | onPacketAcked pn n prior t =>
    simp only [Planner.step] at hs
    split at hs
    · cases hs
      rintro ⟨⟨x, hx, hlt⟩, hprobe, hten, hnone⟩
      by_contra hbad
      simp only [not_or, not_lt, not_and, not_le] at hbad
      obtain ⟨hlate, hbig, hagain⟩ := hbad
      obtain ⟨hstart, -, hstate, ⟨hpos, hless, -⟩ | ⟨-, hrtt, htime⟩⟩ := e.sender.recordAck_rtt pn n t
      · omega
      obtain ⟨hin, -⟩ | ⟨-, ⟨hstarts, -⟩ | ⟨-, hkeep⟩⟩ := e.sender.onPacketAcked_rtt pn n prior t
      · have := (hstate.mp hin).2
        omega
      · unfold Sender.StartsProbeRTT at hstarts hagain
        rw [htime, hstart] at hstarts
        exact hagain hstarts
      have hout : (e.sender.onPacketAcked pn n prior t).state ≠ .probeRtt := by
        intro hin
        have := (hstate.mp (hkeep.probeRtt.mp hin)).2
        omega
      have hmem := (hp ⟨x, mem_taken.mpr (.inr hx), hlt⟩ hout).1
      simp only [hkeep.lastNewMinRTT, hrtt, hten, mem_taken] at hmem
      obtain ⟨hpos, heq⟩ | hmem := hmem
      · omega
      · exact hnone hmem
    · cases hs
  | hasPacingBudget now =>
    simp only [Planner.step] at hs
    split at hs
    · cases hs
      rintro ⟨hsampled, hprobe, hten, hnone⟩
      by_contra hlate
      obtain ⟨hmin, -, -, -, hstate⟩ := e.sender.mayExitProbeRTT_rtt now
      have hkeep := e.sender.keepsRtt_hasPacingBudget now
      have hout : (e.sender.hasPacingBudget now).2.state ≠ .probeRtt := by
        intro hin
        exact hlate (hstate.mp (hkeep.probeRtt.mp hin)).2
      have hmem := (hp hsampled hout).1
      simp only [hkeep.lastNewMinRTT, hmin, hten] at hmem
      exact hnone hmem
    · cases hs
  | canSend n => trivial

/-- In every run, the sender plans with an RTT it measured exactly as long as no call ends a PROBE_RTT that saw no
sample. -/
theorem planned_iff (size : Nat) (created : Int) {cs : List Call} {e : Planner}
    (hr : LTS.run step (new size created) cs = some e) :
    LTS.Ensures step (fun _ e => e.Planned) (new size created) cs ↔ LTS.Along step Fresh (new size created) cs := by
  have hpost : ∀ (e : Planner) (c : Call) (e' : Planner), Inv e.sender e.samples → e.step c = some e' →
      (e'.Planned ↔ e.Fresh c) := by
    intro e c e' h hs
    exact ⟨fresh_of_planned hs, fun hok => (h.step hok hs).toPlanned⟩
  exact LTS.ensures_iff_along hpost (fun _ _ _ h hok hs => h.step hok hs) (inv_new size created) hr

/-- A sample of 1 ms; eleven seconds later a second one, which starts PROBE_RTT. -/
def quietPath : List Call :=
  [.onPacketSent 1000000 0 0 1200 true, .onPacketAcked 0 1200 1200 2000000,
    .onPacketSent 11000000000 0 1 1200 true, .onPacketAcked 1 1200 1200 11001000000]

/-- A sample of 2 ms within the next 200 ms. -/
def sampledProbe : List Call :=
  quietPath ++ [.onPacketSent 11050000000 0 2 1200 true, .onPacketAcked 2 1200 1200 11052000000,
    .hasPacingBudget 11201000000]

theorem planned_iff_sampledProbe : LTS.Ensures step (fun _ e => e.Planned) (new 1200 0) sampledProbe ∧
      ∃ e, LTS.run step (new 1200 0) sampledProbe = some e ∧ e.sender.lastNewMinRTT = 2000000 := by
  refine ⟨(planned_iff 1200 0 rfl).mpr ?_, _, rfl, by decide +kernel⟩
  repeat apply LTS.Along.cons (by decide +kernel) rfl
  trivial

/-- The sender asks for its pacing budget 200 ms later and before the next sample: it plans with ten seconds,
and a window of 500 megabytes is open, where one for its samples has 76800 bytes. -/
theorem placeholder_in_use : ∃ e, LTS.run step (new 1200 0) (quietPath ++ [.hasPacingBudget 11201000000]) = some e ∧
      e.samples = [1000000, 1000000] ∧ e.sender.state = .probeBw ∧ e.sender.lastNewMinRTT = 10 * second ∧
      e.sender.canSend 500000000 = true ∧ e.sender.windowFor e.largest = 76800 := by
  refine ⟨_, rfl, ?_⟩
  decide +kernel

end Planner

end MoqQuic.L2.Congestion.Bbrv1
