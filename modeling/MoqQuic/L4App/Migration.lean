import MoqQuic.L2Machine.Congestion.Reset
import MoqQuic.L4App.Bbrv3Connection

/-!
# Path migration with a BBR sender

`MigratedPath` replaces a `CubicSender` by a new one. A BBR sender is reset by
`OnRetransmissionTimeout(true)` instead, which gets no datagram size and, in
`BBRv1Sender`, keeps the minimum RTT on purpose.

Results:
* `preserves_rttBounded`: the minimum RTT of a `BBRv1Sender` stays positive and at
  most ten seconds.
* `migration_forgets_iff`: what has to hold before the migration for the sender to
  behave like a new one afterwards.
* `old_path_remembered`: otherwise it does not.
-/
namespace MoqQuic.L4.Migration

open L2 L2.Ackhandler L2.Congestion L3.Quic L3.Quic.Handler
  MoqQuic.L4.SendTimes

variable {E : Type}

/-- `GetCongestionWindow`. -/
def window : (v : BBR) → v.Sender → Int
  | .v1 => Bbrv1.Sender.cwnd
  | .v3 => fun b => Bbrv3.Sender.getCongestionWindow b

/-- The datagram size is the one of the new path. A `BBRv1Sender` has taken no RTT sample, and the time from which
its next PROBE_RTT is counted is that of the migration. -/
def Blank : (v : BBR) → v.Sender → (initialMaxDatagramSize : Nat) → (clock : Int) → Prop
  | .v1 => fun (b : Bbrv1.Sender) size clock =>
    b.maxDatagramSize = size ∧ b.lastNewMinRTT = 10 * second ∧ max b.lastNewMinRTTTime b.lastProbeRTTStart = clock
  | .v3 => fun (b : Bbrv3.Sender) size _ => b.maxDatagramSize = size

/-- A handler that begins with a new sender. -/
abbrev newHandler (v : BBR) (initialPN : Int) (initialMaxDatagramSize : Nat) (rttStats : RTTStats)
    (validated : Bool) (ecnTracker : Option E) (ignore : Bool) (pers : Perspective) (draw : Nat) (now : Int) :
    Handler v.Sender E :=
  newSentPacketHandler initialPN rttStats validated ecnTracker ignore pers (v.newSender initialMaxDatagramSize now) draw

/-! ## The minimum RTT of `BBRv1Sender` -/

def RttBounded (b : Bbrv1.Sender) : Prop := 0 < b.lastNewMinRTT ∧ b.lastNewMinRTT ≤ 10 * second

theorem rttBounded_new (size : Nat) (now : Int) : RttBounded (.new size now) :=
  ⟨show 0 < 10 * second by decide, le_rfl⟩

theorem RttBounded.of_eq {b b' : Bbrv1.Sender} (h : RttBounded b) (heq : b'.lastNewMinRTT = b.lastNewMinRTT) :
    RttBounded b' := by
  unfold RttBounded
  rw [heq]
  exact h

theorem RttBounded.onPacketAcked {b : Bbrv1.Sender} (h : RttBounded b) (pn : Int) (n prior : Nat) (t : Int) :
    RttBounded (b.onPacketAcked pn n prior t) := by
  have hrec : RttBounded (b.recordAck pn n t) := by
    obtain ⟨-, -, -, ⟨hpos, hlt, heq⟩ | ⟨-, heq, -⟩⟩ := b.recordAck_rtt pn n t
    · unfold RttBounded
      rw [heq]
      exact ⟨hpos, hlt.le.trans h.2⟩
    · exact h.of_eq heq
  obtain ⟨-, heq⟩ | ⟨-, ⟨-, -, heq, -⟩ | ⟨-, hkeep⟩⟩ := b.onPacketAcked_rtt pn n prior t
  · rw [heq]
    exact hrec
  · unfold RttBounded
    rw [heq]
    decide
  · exact hrec.of_eq hkeep.lastNewMinRTT

theorem preserves_rttBounded : Preserves Bbrv1.Sender.algorithm RttBounded where
  onPacketSent _ _ _ _ _ _ hb := hb
  onPacketAcked _ pn n prior t hb := hb.onPacketAcked pn n prior t
  onCongestionEvent _ _ _ _ hb := hb
  maybeExitSlowStart _ hb := hb
  hasPacingBudget b now hb :=
    hb.of_eq ((b.keepsRtt_hasPacingBudget now).lastNewMinRTT.trans (b.mayExitProbeRTT_rtt now).1)
  setMaxDatagramSize _ _ hb := hb
  onRetransmissionTimeout _ _ hb := hb
  newCubicSender := rfl

/-! ## The migration -/

/-- Nothing is reported to the controller before it is reset that changes its datagram size. -/
theorem relayed_v3 {c c' : Bbrv3.Sender} (hr : Relayed Bbrv3.Sender.algorithm c c') :
    c'.maxDatagramSize = c.maxDatagramSize := by
  induction hr with
  | refl => rfl
  | tail _ hcall ih =>
    cases hcall with
    | onCongestionEvent pn lost prior =>
      exact (congrArg Bbrv3.Pace.maxDatagramSize (Bbrv3.pace_onCongestionEvent _ pn lost prior)).trans ih
    | maybeExitSlowStart => exact ih

theorem relayed_v1 {c c' : Bbrv1.Sender} (hr : Relayed Bbrv1.Sender.algorithm c c') : c' = c := by
  induction hr with
  | refl => rfl
  | tail _ hcall ih => cases hcall <;> exact ih

/-- In every reachable state, the sender that a migration leaves behaves like a new one exactly if the state before
the migration was blank. -/
theorem migration_forgets_iff (v : BBR) (ecn : EcnHandler E) (initialPN : Int) (size0 : Nat) (rttStats : RTTStats)
    (validated : Bool) (ecnTracker : Option E) (ignore : Bool) (pers : Perspective) (draw : Nat) (created : Int)
    (ls : List Call) (h h' : Handler v.Sender E) (now : Int) (size : Nat) (clock : Int) (hclock : 0 ≤ clock)
    (hrun : LTS.run (Handler.step v.algorithm ecn)
      (newHandler v initialPN size0 rttStats validated ecnTracker ignore pers draw created) ls = some h)
    (hs : h.step v.algorithm ecn (.migratedPath now size clock) = some h') :
    SameBehaviour v.algorithm (window v) clock h'.congestion (v.newSender size clock) ↔
      Blank v h.congestion size clock := by
  replace hs : h.migratedPath v.algorithm now size clock = some h' := hs
  have hw0 := wf_newSentPacketHandler initialPN rttStats validated ecnTracker ignore pers
    (v.newSender size0 created) draw
  cases v with
  | v1 =>
    obtain ⟨hw, hb⟩ := preserves_rttBounded.run hw0 (rttBounded_new size0 created) hrun
    obtain ⟨c, hr, heq⟩ := (migratedPath_spec hw hs).congestion rfl
    rw [heq, relayed_v1 hr]
    exact Bbrv1.sameBehaviour_reset_iff hb.1 hb.2 size hclock
  | v3 =>
    have hw := (Bbrv3Connection.preserves_inStartup.run hw0 (Bbrv3.Sender.inStartup_new size0 created) hrun).1
    obtain ⟨c, hr, heq⟩ := (migratedPath_spec hw hs).congestion rfl
    rw [heq]
    refine (Bbrv3.sameBehaviour_reset_iff c size clock).trans ?_
    rw [relayed_v3 hr]
    exact Iff.rfl

/-- A client with a new sender and 1200-byte datagrams. -/
abbrev client (v : BBR) : Handler v.Sender Unit := newHandler v 0 1200 {} true none false .client 1000 0

/-- A packet that is acknowledged after 50 ms. -/
def firstPath : List Call :=
  [.sentPacket (ping 1000000 0 .initial), .receivedAck ackZero .initial 51000000]

/-- The minimum RTT that a `BBRv3Sender` keeps does not show. -/
theorem migration_forgets_iff_v3 : ∃ h h',
    LTS.run (Handler.step BBR.v3.algorithm noECN) (client .v3) firstPath = some h ∧
    h.step BBR.v3.algorithm noECN (.migratedPath 100000000 1200 100000000) = some h' ∧
    Bbrv3.Sender.minRtt h'.congestion = 50000000 ∧
    SameBehaviour BBR.v3.algorithm (window .v3) 100000000 h'.congestion (BBR.v3.newSender 1200 100000000) :=
  ⟨_, _, rfl, rfl, rfl, (migration_forgets_iff .v3 noECN 0 1200 {} true none false .client 1000 0
    firstPath _ _ 100000000 1200 100000000 (by decide) rfl rfl).mpr rfl⟩

/-- On the new path the RTT is 200 ms; two packets of 100000 bytes are acknowledged 80 ms apart. -/
def secondPath : List Event :=
  [.onPacketSent 100000000 0 1 100000 true, .onPacketSent 180000000 100000 2 100000 true,
    .onPacketAcked 1 100000 200000 300000000, .onPacketAcked 2 100000 100000 380000000]

/-- `BBRv1Sender` counts the bytes of one minimum RTT of the old path and opens half the window of a new sender.
`BBRv3Sender` opens the window for the larger datagrams of the old path. -/
theorem old_path_remembered :
    (∃ h h', LTS.run (Handler.step BBR.v1.algorithm noECN) (client .v1) firstPath = some h ∧
      h.step BBR.v1.algorithm noECN (.migratedPath 100000000 1200 100000000) = some h' ∧
      Later 100000000 secondPath ∧
      window .v1 (BBR.v1.algorithm.after h'.congestion secondPath) = 289000 ∧
      window .v1 (BBR.v1.algorithm.after (BBR.v1.newSender 1200 100000000) secondPath) = 578000) ∧
    (∃ h h', LTS.run (Handler.step BBR.v3.algorithm noECN) (client .v3)
        [.setMaxDatagramSize 1400] = some h ∧
      h.step BBR.v3.algorithm noECN (.migratedPath 100000000 1200 100000000) = some h' ∧
      window .v3 h'.congestion = 112000 ∧ window .v3 (BBR.v3.newSender 1200 100000000) = 96000) := by
  refine ⟨⟨_, _, rfl, rfl, ?_, ?_, ?_⟩, _, _, rfl, rfl, rfl, rfl⟩
  · simp [secondPath, Later, Event.time]
  · decide +kernel
  · decide +kernel

end MoqQuic.L4.Migration
