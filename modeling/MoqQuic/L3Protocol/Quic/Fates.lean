import MoqQuic.L3Protocol.Quic.Flight

/-!
# The fates of frames and path probes

What the handlers of frames are told, over whole runs. A frame of a packet is
identified by its handler and a number, so a frame that is sent once is a label
that occurs once among the labels of all sends.

* `callbacks_le_sent`: a frame's handler is called at most as often as the frame
  was sent.
* `migrated_probes_iff`: `MigratedPath` clears the path probes exactly when there
  are two of them at most.
-/
namespace MoqQuic.L3.Quic

open L2 L2.Ackhandler L2.Congestion Multiset
open Callback (onLost onAcked)

variable {C E : Type}

/-! ## Callbacks -/

theorem count_callbacks (cs : List Callback) (hd f : Nat) : cs.count (.onAcked hd f) + cs.count (.onLost hd f) =
      (↑(cs.filterMap Callback.label) : Multiset Label).count (hd, f) := by
  induction cs with
  | nil => rfl
  | cons c cs ih =>
    cases c with
    | onAcked hd' f' =>
      have heq : (onAcked hd' f' = .onAcked hd f) = ((hd, f) = (hd', f')) := by
        simp only [onAcked.injEq, Prod.mk.injEq, eq_comm]
      rw [List.filterMap_cons_some (show (onAcked hd' f').label = some (hd', f') from rfl),
        ← cons_coe, count_cons, ← ih]
      simp only [List.count_cons, beq_iff_eq, heq, reduceCtorEq, if_false]
      omega
    | onLost hd' f' =>
      have heq : (onLost hd' f' = .onLost hd f) = ((hd, f) = (hd', f')) := by
        simp only [onLost.injEq, Prod.mk.injEq, eq_comm]
      rw [List.filterMap_cons_some (show (onLost hd' f').label = some (hd', f') from rfl),
        ← cons_coe, count_cons, ← ih]
      simp only [List.count_cons, beq_iff_eq, heq, reduceCtorEq, if_false]
      omega
    | ignorePacketsBelow pn =>
      rw [List.filterMap_cons_none (show (Callback.ignorePacketsBelow pn).label = none from rfl), ← ih]
      simp

namespace Handler

variable {A : SendAlgorithm C} {ecn : EcnHandler E} {sent m : Multiset Label} {b hd f : Nat} {h h' : Handler C E}

/-- The frames' books over a run; the count of bytes is left out. -/
theorem Books.run {calls : List Call} {sent : Multiset Label} {h : Handler C E} (hb : Books False sent h b m)
    (hr : LTS.run (Handler.step A ecn) h calls = some h') : Books False (sent + sentLabels calls) h' b m := by
  induction calls generalizing sent h with
  | nil =>
    cases hr
    simpa [sentLabels] using hb
  | cons c calls ih =>
    obtain ⟨h1, h1s, hr⟩ := LTS.run_cons.mp hr
    have hb1 := ih (hb.step (fun _ _ _ hf => hf.elim) h1s) hr
    rwa [add_assoc, show c.labels + sentLabels calls = sentLabels (c :: calls) by simp [sentLabels]] at hb1

/-- A handler that is told about frames sent once is not told twice. -/
theorem Books.not_both (hb : Books False sent h b m) (hn : sent.Nodup)
    (ha : onAcked hd f ∈ h.callbacks) : onLost hd f ∉ h.callbacks := by
  intro hl
  have hle : h.fired ≤ sent := le_trans (le_trans (le_add_right _ _) (le_add_right _ _)) hb.frames
  have hone := nodup_iff_count_le_one.mp (nodup_of_le hle hn) (hd, f)
  have hsum := count_callbacks h.callbacks hd f
  have h1 := List.count_pos_iff.mpr ha
  have h2 := List.count_pos_iff.mpr hl
  rw [fired] at hone
  omega

theorem mem_fired (ha : onAcked hd f ∈ h.callbacks) : (hd, f) ∈ h.fired :=
  mem_coe.mpr (List.mem_filterMap.mpr ⟨_, ha, rfl⟩)

theorem mem_fired_lost (ha : onLost hd f ∈ h.callbacks) : (hd, f) ∈ h.fired :=
  mem_coe.mpr (List.mem_filterMap.mpr ⟨_, ha, rfl⟩)

/-- Frames still held, or on their way, are not reported yet. -/
theorem Books.not_fired (hb : Books False sent h b m) (hn : sent.Nodup) {x : Label} (hx : x ∈ h.held + m) :
    x ∉ h.fired := by
  intro hf
  have hnd := nodup_of_le hb.frames hn
  rw [add_assoc] at hnd
  exact disjoint_left.mp (nodup_add.mp hnd).2.2 hf hx

end Handler

section Run

variable (A : SendAlgorithm C) (ecn : EcnHandler E) (initialPN : Int) (rttStats : RTTStats) (validated : Bool)
  (ecnTracker : Option E) (ignore : Bool) (pers : Perspective) (congestion : C) (draw : Nat)

theorem books_run {calls : List Call} {h : Handler C E} (hr : LTS.run (Handler.step A ecn)
      (newSentPacketHandler initialPN rttStats validated ecnTracker ignore pers congestion draw) calls = some h) :
    h.Books False (sentLabels calls) 0 0 := by
  have hb := (books_newSentPacketHandler False initialPN rttStats validated ecnTracker ignore pers congestion
    draw).run hr
  rwa [zero_add] at hb

/-- The handler of a frame is called, with `OnAcked` and `OnLost` taken together, at most once for each
time the frame was sent. -/
theorem callbacks_le_sent {calls : List Call} {h : Handler C E} (hr : LTS.run (Handler.step A ecn)
      (newSentPacketHandler initialPN rttStats validated ecnTracker ignore pers congestion draw) calls = some h)
    (hd f : Nat) :
    h.callbacks.count (.onAcked hd f) + h.callbacks.count (.onLost hd f) ≤ (sentLabels calls).count (hd, f) := by
  have hb := books_run A ecn initialPN rttStats validated ecnTracker ignore pers congestion draw hr
  have hle := le_trans (le_trans (le_add_right _ _) (le_add_right _ _)) hb.frames
  rw [count_callbacks]
  exact count_le_of_le _ hle

/-- The packet is requeued as a probe and acknowledged after all: its frame is lost, once. -/
theorem callbacks_le_sent_late : ∃ h, LTS.run (Handler.step idle noECN) client
      [.sentPacket (ping 1 0 .initial), .queueProbePacket .initial, .receivedAck ackZero .initial 3] = some h ∧
    h.callbacks = [.onLost 0 0] ∧
    h.callbacks.count (.onAcked 0 0) + h.callbacks.count (.onLost 0 0) ≤
      (sentLabels [.sentPacket (ping 1 0 .initial), .queueProbePacket .initial,
        .receivedAck ackZero .initial 3]).count (0, 0) :=
  ⟨_, rfl, rfl, callbacks_le_sent idle noECN 0 {} true none false .client () 1000 rfl 0 0⟩

/-- If no frame is sent twice, a frame is acknowledged, lost, or held by a packet in a history, and never two of
them. -/
theorem fates_disjoint {calls : List Call} {h : Handler C E} (hn : (sentLabels calls).Nodup)
    (hr : LTS.run (Handler.step A ecn)
      (newSentPacketHandler initialPN rttStats validated ecnTracker ignore pers congestion draw) calls = some h)
    (hd f : Nat) : (onAcked hd f ∈ h.callbacks → onLost hd f ∉ h.callbacks ∧ (hd, f) ∉ h.held) ∧
      (onLost hd f ∈ h.callbacks → (hd, f) ∉ h.held) := by
  have hb := books_run A ecn initialPN rttStats validated ecnTracker ignore pers congestion draw hr
  have hheld (hx : (hd, f) ∈ h.held) := hb.not_fired hn (mem_add.mpr (.inl hx))
  exact ⟨fun ha => ⟨hb.not_both hn ha, fun hx => hheld hx (Handler.mem_fired ha)⟩,
    fun hl hx => hheld hx (Handler.mem_fired_lost hl)⟩

theorem fates_disjoint_late : ∃ h, LTS.run (Handler.step idle noECN) client
    [.sentPacket (ping 1 0 .initial), .queueProbePacket .initial] = some h ∧ (0, 0) ∉ h.held := by
  have hn : (sentLabels [.sentPacket (ping 1 0 .initial), .queueProbePacket .initial]).Nodup := by decide
  exact ⟨_, rfl, (fates_disjoint idle noECN 0 {} true none false .client () 1000 hn rfl 0 0).2 (by decide)⟩

/-! ## Migrations -/

theorem sentLabels_append (calls later : List Call) :
    sentLabels (calls ++ later) = sentLabels calls + sentLabels later := by
  simp [sentLabels]

/-- What a migration after `calls` should do: no path probe is outstanding afterwards, and the frames of those
before are never reported, whatever is called later. -/
structure ClearsProbes (A : SendAlgorithm C) (ecn : EcnHandler E) (calls : List Call) (h h' : Handler C E) :
    Prop where
  cleared : h'.appDataPackets.history.hasOutstandingPathProbes = false
  silent : ∀ later h'', (sentLabels (calls ++ later)).Nodup → LTS.run (Handler.step A ecn) h' later = some h'' →
    ∀ e ∈ h.appDataPackets.history.pathProbePackets, ∀ hd f, (hd, f) ∈ e.2.labels →
      onAcked hd f ∉ h''.callbacks ∧ onLost hd f ∉ h''.callbacks

/-- `MigratedPath` removes the path probes while it ranges over them, which clears two of them at most. -/
theorem migrated_probes_iff (now : Int) (size : Nat) (clock : Int) {calls : List Call} {h h' : Handler C E}
    (hr : LTS.run (Handler.step A ecn)
      (newSentPacketHandler initialPN rttStats validated ecnTracker ignore pers congestion draw) calls = some h)
    (hs : h.migratedPath A now size clock = some h') :
    ClearsProbes A ecn calls h h' ↔ h.appDataPackets.history.pathProbePackets.length ≤ 2 := by
  have hb := books_run A ecn initialPN rttStats validated ecnTracker ignore pers congestion draw hr
  obtain ⟨y, hb', hpr, hy⟩ := hb.migratedPath hs
  have hiff := (hb.sound .appData _ rfl).removeRangedPathProbes
  rw [← hpr] at hiff
  refine Iff.trans ⟨fun hc => ?_, fun hnil => ⟨?_, ?_⟩⟩ hiff
  · have hcleared := hc.cleared
    simpa [SentPacketHistory.hasOutstandingPathProbes] using hcleared
  · rw [SentPacketHistory.hasOutstandingPathProbes, hnil]
    rfl
  intro later h'' hn hl e he hd f hx
  -- the frames of the probes are on their way for ever
  rw [sentLabels_append] at hn
  rw [hnil, weight_nil, zero_add] at hy
  have hmem : (hd, f) ∈ h''.held + (0 + y) := by
    rw [zero_add, ← hy]
    exact mem_add.mpr (Or.inr (mem_weight he hx))
  have hno := (hb'.run hl).not_fired hn hmem
  exact ⟨fun ha => hno (Handler.mem_fired ha), fun ha => hno (Handler.mem_fired_lost ha)⟩

end Run

/-- A path probe with one frame, whose number is also that of the packet. -/
def probe (t : Int) (pn : Nat) : Handler.SentArgs := { ping t pn .oneRTT with isPathProbePacket := true }

theorem migrated_probes_iff_two : ∃ h h', LTS.run (Handler.step idle noECN) client
      [.sentPacket (probe 1 0), .sentPacket (probe 2 1)] = some h ∧
    h.migratedPath idle 3 1200 3 = some h' ∧
    ClearsProbes idle noECN [.sentPacket (probe 1 0), .sentPacket (probe 2 1)] h h' :=
  ⟨_, _, rfl, rfl, (migrated_probes_iff idle noECN 0 {} true none false .client () 1000 3 1200 3 rfl rfl).mpr
    (by decide)⟩

/-- Of three path probes the second one stays, and its frame is reported lost on the new path. -/
theorem second_probe_outlives_migration : ∃ h h' h'', LTS.run (Handler.step idle noECN) client
      [.sentPacket (probe 1 0), .sentPacket (probe 2 1), .sentPacket (probe 3 2)] = some h ∧
    h.migratedPath idle 4 1200 4 = some h' ∧
    h'.appDataPackets.history.hasOutstandingPathProbes = true ∧
    LTS.run (Handler.step idle noECN) h'
      [.dropPackets .handshake 5, .onLossDetectionTimeout 2000000000 0] = some h'' ∧ h''.callbacks = [.onLost 0 1] :=
  ⟨_, _, _, rfl, rfl, rfl, rfl, rfl⟩

end MoqQuic.L3.Quic
