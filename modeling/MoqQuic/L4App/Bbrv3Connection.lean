import MoqQuic.L4App.SendTimes

/-!
# A connection with a `BBRv3Sender`

What `sentPacketHandler` makes of a `BBRv3Sender`, over whole runs.

Results:
* `inStartup_run`: the sender stays in Startup, with the pipe not filled.
* `never_paced`: `TimeUntilSend` gives the time at which the last packet is paid
  for at the pacing rate, but `HasPacingBudget` grants the budget at once, so that
  `SendMode` never answers `SendPacingLimited`.
* `burst_at_one_time`: packets released at one point in time.
-/
namespace MoqQuic.L4.Bbrv3Connection

open L2 L2.Ackhandler L2.Congestion L2.Congestion.Bbrv3 L3.Quic
  MoqQuic.L3.Quic.Handler MoqQuic.L4.SendTimes

variable {E : Type} {ecn : EcnHandler E}

/-- A handler that begins with a new sender. -/
abbrev newHandler (initialPN : Int) (initialMaxDatagramSize : Nat) (rttStats : RTTStats) (validated : Bool)
    (ecnTracker : Option E) (ignore : Bool) (pers : Perspective) (draw : Nat) (now : Int) :
    Handler Sender E :=
  newSentPacketHandler initialPN rttStats validated ecnTracker ignore pers
    (Sender.new initialMaxDatagramSize now) draw

/-! ## Startup -/

theorem preserves_inStartup : Preserves Sender.algorithm Sender.InStartup where
  onPacketSent _ t inFlight pn n r hb := hb.onPacketSent t inFlight pn n r
  onPacketAcked _ pn n prior t hb := hb.onPacketAcked pn n prior t
  onCongestionEvent _ pn lost prior hb := hb.onCongestionEvent pn lost prior
  maybeExitSlowStart _ hb := hb
  hasPacingBudget _ _ hb := hb
  setMaxDatagramSize _ _ hb := { hb with }
  onRetransmissionTimeout _ clock hb := hb.onRetransmissionTimeout true clock
  newCubicSender := rfl

/-- In every run the histories stay consecutive and the sender stays in Startup. -/
theorem inStartup_run {h h' : Handler Sender E} {ls : List L3.Quic.Call} (hw : Wf h) (hb : h.congestion.InStartup)
    (hrun : LTS.run (Handler.step Sender.algorithm ecn) h ls = some h') : Wf h' ∧ h'.congestion.InStartup :=
  preserves_inStartup.run hw hb hrun

/-! ## Pacing -/

/-- Until a packet of `n` bytes sent at `s` is paid for at the pacing rate, there is no budget, and the handler
does not allow anything to be sent. -/
def Paced (h : Handler Sender E) (s : Int) (n : Nat) : Prop :=
  ∀ now, s ≤ now → (now - s) * h.congestion.pacingRate < n * second →
    h.congestion.hasPacingBudget now = false ∧ (h.sendMode Sender.algorithm now).1 ≠ .any

theorem hasPacingBudget_true (b : Sender) (now : Int) : b.hasPacingBudget now = true := by
  unfold Sender.hasPacingBudget
  split <;> rfl

/-- The answer of `SendMode` does not depend on the time. -/
theorem sendMode_time (h : Handler Sender E) (now now' : Int) :
    (h.sendMode Sender.algorithm now).1 = (h.sendMode Sender.algorithm now').1 := by
  have hbudget : ∀ t, (Sender.algorithm.hasPacingBudget h.congestion t).1 = true :=
    fun t => hasPacingBudget_true h.congestion t
  unfold Handler.sendMode
  simp only [hbudget]
  split
  · rfl
  split
  · rfl
  split
  · rfl
  split
  · rfl
  · split <;> rfl

theorem initTime_onPacketSent {b : Sender} (hrate : 0 < b.pacingRate) (t : Int) (inFlight : Nat) (pn : Int)
    {n : Nat} (hn : 0 < n) (r : Bool) :
    (b.onPacketSent t inFlight pn n r).initTime = addTime t ((n * 1000000000 / b.pacingRate : Nat) : Int) := by
  unfold Sender.onPacketSent
  rw [if_pos ⟨hrate, hn⟩]

theorem pacingRate_onPacketSent (b : Sender) (t : Int) (inFlight : Nat) (pn : Int) (n : Nat) (r : Bool) :
    (b.onPacketSent t inFlight pn n r).pacingRate = b.pacingRate := by
  unfold Sender.onPacketSent
  simp only
  split <;> rfl

/-- In no run is a packet paced: the handler may send right away, although `TimeUntilSend` gives the time at
which the packet is paid for. -/
theorem never_paced (ecn : EcnHandler E) (initialPN : Int) (size : Nat) (rttStats : RTTStats)
    (validated : Bool) (ecnTracker : Option E) (ignore : Bool) (pers : Perspective) (draw : Nat) (now : Int)
    (ls : List L3.Quic.Call) (a : SentArgs) (h h' : Handler Sender E)
    (hrun : LTS.run (Handler.step Sender.algorithm ecn)
      (newHandler initialPN size rttStats validated ecnTracker ignore pers draw now) ls = some h)
    (hs : h.step Sender.algorithm ecn (.sentPacket a) = some h') (hprobe : a.isPathProbePacket = false)
    (hsize : 0 < a.size) (hrate : 0 < h'.congestion.pacingRate) :
    ¬ Paced h' a.t a.size ∧ (∀ clock, h'.timeUntilSend Sender.algorithm clock =
        addTime a.t ((a.size * 1000000000 / h'.congestion.pacingRate : Nat) : Int)) ∧
      ∀ t t', (h'.sendMode Sender.algorithm t).1 = (h'.sendMode Sender.algorithm t').1 := by
  have hw : Wf h := (inStartup_run (wf_newSentPacketHandler _ _ _ _ _ _ _ _) (Sender.inStartup_new size now) hrun).1
  have hsend : Sends Sender.algorithm a h h' := by
    replace hs : h.sentPacket Sender.algorithm ecn a = some h' := hs
    unfold Handler.sentPacket at hs
    rw [if_neg (by rw [hprobe]; exact Bool.false_ne_true)] at hs
    exact sentRegular_spec hw hs
  obtain ⟨inFlight, hc⟩ := hsend.congestion
  replace hc : h'.congestion = h.congestion.onPacketSent a.t inFlight a.pn a.size a.packet.isAckEliciting := hc
  have hrate' : h'.congestion.pacingRate = h.congestion.pacingRate := by
    rw [hc, pacingRate_onPacketSent]
  refine ⟨fun hpaced => ?_, fun clock => ?_, sendMode_time h'⟩
  · -- at the time of the send itself there is a budget
    have hpos : (0 : Int) < a.size * 1000000000 := by omega
    have hnow := (hpaced a.t le_rfl (by rw [Int.sub_self, Int.zero_mul]; exact hpos)).1
    rw [hasPacingBudget_true] at hnow
    cases hnow
  show (if h'.congestion.pacingRate = 0 then clock else h'.congestion.initTime) = _
  rw [if_neg (by omega), hrate', hc]
  exact initTime_onPacketSent (by omega) _ _ _ hsize _

/-- A packet of 1200 bytes, for which the rate of a new sender asks 4512 nanoseconds. -/
theorem never_paced_first_packet : ∃ h',
    clientV3.step Sender.algorithm noECN (.sentPacket (ping 5 0 .initial)) = some h' ∧
    ¬ Paced h' 5 1200 ∧ (∀ clock, h'.timeUntilSend Sender.algorithm clock =
      addTime 5 ((1200 * 1000000000 / h'.congestion.pacingRate : Nat) : Int)) ∧
    ∀ t t', (h'.sendMode Sender.algorithm t).1 = (h'.sendMode Sender.algorithm t').1 :=
  ⟨_, rfl, never_paced noECN 0 1200 {} true none false .client 1000 0 [] (ping 5 0 .initial) _ _
    rfl rfl rfl (by decide) (by decide)⟩

/-- Three packets are released in the same nanosecond, each with `SendAny`, before the first is paid for. -/
theorem burst_at_one_time : ∃ h1 h2 h3,
    clientV3.step Sender.algorithm noECN (.sentPacket (ping 5 0 .initial)) = some h1 ∧
    h1.step Sender.algorithm noECN (.sentPacket (ping 5 1 .initial)) = some h2 ∧
    h2.step Sender.algorithm noECN (.sentPacket (ping 5 2 .initial)) = some h3 ∧
    (clientV3.sendMode Sender.algorithm 5).1 = .any ∧ (h1.sendMode Sender.algorithm 5).1 = .any ∧
    (h2.sendMode Sender.algorithm 5).1 = .any ∧ h1.congestion.pacingRate = 265920000 ∧
    h3.congestion.pacingRate = 265920000 ∧ h1.timeUntilSend Sender.algorithm 5 = 4517 ∧
    h1.congestion.hasPacingBudget 5 = true :=
  ⟨_, _, _, rfl, rfl, rfl, rfl, rfl, rfl, rfl, rfl, rfl, rfl⟩

end MoqQuic.L4.Bbrv3Connection
