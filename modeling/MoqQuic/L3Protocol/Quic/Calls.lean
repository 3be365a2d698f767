import MoqQuic.Core.LTS
import MoqQuic.L2Machine.Ackhandler.AckRanges
import MoqQuic.L3Protocol.Quic.Effects

/-!
# What a call does

The remaining methods of `sentPacketHandler`, and all of them together.

* `sentRegular_spec`, `sentPathProbe_spec`: the packet is added at the end of
  its space; only a regular packet is reported to the controller.
* `newlyAcked_eq`: the search takes the packets of the window that the frame
  acknowledges, so its error is never reported.
* `receivedAck_spec`: `OnPacketAcked` is called, in ascending order, for
  newly acknowledged packets of the frame's own space that count in flight, and
  these are no longer tracked.
* `step_cases`: every call is one of these, a migration, or takes packets away
  in one of the ways that `Leaves` lists.
-/
namespace MoqQuic.L3.Quic

open L2 L2.Ackhandler L2.Congestion Option SentPacketHistory List

variable {C E : Type}

namespace Handler

variable {h h' : Handler C E} {A : SendAlgorithm C} {ecn : EcnHandler E} {enc : EncryptionLevel}
  {gone : Space → Int → Packet → Prop}

/-! ## Sending -/

variable {a : SentArgs} {l : List (Int × Packet)}

/-- A path probe does not count in flight. -/
theorem SentArgs.packet_probe (ha : a.isPathProbePacket = true) : a.packet.includedInBytesInFlight = false := by
  simp [SentArgs.packet, ha]

/-- What the send of a path probe does: a placeholder is tracked. -/
structure SendsProbe (a : SentArgs) (h h' : Handler C E) : Prop where
  wf : Wf h'
  congestion : h'.congestion = h.congestion
  tracked : ∀ s, h'.tracked s = if s = a.encLevel.space then
    h.tracked s ++ [((a.pn : Int), SentPacketHistory.probePlaceholder)] else h.tracked s

theorem sentPathProbe_spec (hw : Wf h) (ha : a.isPathProbePacket = true) (hs : h.sentPathProbe a = some h') :
    SendsProbe a h h' := by
  obtain ⟨sp, hsp, hs⟩ := bind_eq_some_iff.mp hs
  obtain ⟨history, hh, hs⟩ := bind_eq_some_iff.mp hs
  rw [getPacketNumberSpace_eq] at hsp
  obtain ⟨hc, ht, hpr⟩ := sentPathProbePacket_spec (hw _ sp hsp).1 (Int.natCast_nonneg a.pn) hh
  cases hs
  refine ⟨?_, congestion_setSpace _ _ _, fun s => ?_⟩
  · refine wf_setSpace (h := h) hw a.encLevel hc ?_
    rw [hpr]
    exact forall_mem_append.mpr ⟨(hw _ sp hsp).2, forall_mem_singleton.mpr (SentArgs.packet_probe ha)⟩
  show (h.setSpace a.encLevel _).tracked s = _
  rw [tracked_setSpace]
  split
  · rename_i he
    rw [he, tracked_of_space hsp, ← ht]
  · rfl

/-- What a send that is reported to the controller does. -/
structure Sends (A : SendAlgorithm C) (a : SentArgs) (h h' : Handler C E) : Prop where
  wf : Wf h'
  congestion : ∃ inFlight, h'.congestion =
    A.onPacketSent h.congestion a.t inFlight a.pn a.size a.packet.isAckEliciting
  tracked : ∀ s, h'.tracked s = if s = a.encLevel.space then h.tracked s ++ [((a.pn : Int), a.packet)]
    else h.tracked s

theorem recordSent_spec (hw : Wf h) (hs : h.recordSent A ecn a = some h') : Sends A a h h' := by
  obtain ⟨sp, hsp, hs⟩ := bind_eq_some_iff.mp hs
  obtain ⟨ecnTracker, -, hs⟩ := bind_eq_some_iff.mp hs
  obtain ⟨history, hh, hs⟩ := bind_eq_some_iff.mp hs
  rw [getPacketNumberSpace_eq] at hsp
  obtain ⟨hc, ht, hpr⟩ := sentPacket_spec (hw _ sp hsp).1 (Int.natCast_nonneg a.pn) hh
  cases hs
  refine ⟨?_, ⟨_, rfl⟩, fun s => ?_⟩
  · refine wf_setSpace (h := h) hw a.encLevel hc (fun e he => ?_)
    exact (hw _ sp hsp).2 e (by rw [← hpr]; exact he)
  show (h.setSpace a.encLevel _).tracked s = _
  rw [tracked_setSpace]
  split
  · rename_i he
    rw [he, tracked_of_space hsp, ← ht]
  · rfl

theorem sentRegular_spec (hw : Wf h) (hs : sentRegular A ecn h a = some h') : Sends A a h h' := by
  obtain ⟨h1, h1s, hs⟩ := bind_eq_some_iff.mp hs
  obtain ⟨hw1, hc1, ht1⟩ := recordSent_spec hw h1s
  have hq : Quiet h1 h' := by
    cases hs
    split
    · exact Quiet.refl _
    · exact quiet_setLossDetectionTimer _ _
  exact ⟨hq.wf hw1, by rw [hq.congestion]; exact hc1, fun s => by rw [hq.tracked, ht1]⟩

/-! ## Retries and migrations -/

theorem resetForRetry_spec {now : Int} {draw : Nat} (hw : Wf h) (hs : h.resetForRetry now draw = some h') :
    Keeps A (fun s _ _ => s = .initial ∨ s = .appData) h h' := by
  obtain ⟨initial, -, hs⟩ := bind_eq_some_iff.mp hs
  obtain ⟨h1, h1s, hs⟩ := bind_eq_some_iff.mp hs
  obtain ⟨h2, h2s, hs⟩ := bind_eq_some_iff.mp hs
  have hq0 : Quiet h { h with bytesInFlight := 0 } := ⟨rfl, rfl, rfl, rfl⟩
  have hq := (hq0.trans (quiet_requeueAll h1s)).trans (quiet_requeueAll h2s)
  cases hs
  -- first the Initial space is replaced, then that of the application data
  have hk1 : Keeps A (fun s _ _ => s = .initial) h2
      { h2 with initialPackets := some (newPacketNumberSpace initial.pns.peek false draw) } :=
    keeps_of_space (hq.wf hw) .initial rfl (fun s hne => by cases s <;> first | rfl | exact absurd rfl hne)
      (fun sp hsp => by rw [← some.inj hsp]; rfl)
  refine (hq.keeps hw).trans ((hk1.mono fun _ _ _ _ hs => Or.inl hs).trans ?_)
  refine Keeps.mono (keeps_of_space hk1.wf .appData rfl ?_ ?_) fun _ _ _ _ hs => Or.inr hs
  · intro s hne
    cases s <;> first | rfl | exact absurd rfl hne
  intro sp hsp
  cases hsp
  rfl

/-- Packets of the application data are taken away, among them all of the list. -/
theorem loseAll_spec (hw : Wf h) (hs : loseAll l h = some h') :
    Keeps A (fun s _ _ => s = .appData) h h' ∧ ∀ e ∈ h'.tracked .appData, ∀ x ∈ l, e.1 ≠ x.1 := by
  induction l generalizing h with
  | nil =>
    rw [← some.inj hs]
    exact ⟨.refl hw, fun _ _ x hx => by cases hx⟩
  | cons e l ih =>
    obtain ⟨pn, p⟩ := e
    obtain ⟨history, hd, hs⟩ := bind_eq_some_iff.mp hs
    obtain ⟨hc, ht, hpr⟩ := declareLost_spec (hw .appData _ rfl).1 hd
    have hk : Keeps A (fun s q _ => s = EncryptionLevel.oneRTT.space ∧ q = pn) h
        (h.setSpace .oneRTT { h.appDataPackets with history }) := keeps_remove hw rfl hc ht hpr
    -- once the head is gone, the rest neither brings it back nor keeps one of its own
    have rest : ∀ {h2 : Handler C E}, Quiet (h.setSpace .oneRTT { h.appDataPackets with history }) h2 →
        loseAll l h2 = some h' → Keeps A (fun s _ _ => s = .appData) h h' ∧
          ∀ e ∈ h'.tracked .appData, ∀ x ∈ (pn, p) :: l, e.1 ≠ x.1 := by
      intro h2 hq h2s
      obtain ⟨hk2, hrem⟩ := ih (hq.wf hk.wf) h2s
      refine ⟨(hk.mono fun _ _ _ _ hs => hs.1).trans ((hq.keeps hk.wf).trans hk2), fun e he => ?_⟩
      have hm := hk2.sub _ he
      rw [hq.tracked, tracked_setSpace] at hm
      replace hm : e ∈ history.tracked := hm
      rw [ht, mem_filter_ne] at hm
      exact forall_mem_cons.mpr ⟨hm.2, hrem e he⟩
    split at hs
    · exact rest (Quiet.refl _) hs
    obtain ⟨h1, h1s, hs⟩ := bind_eq_some_iff.mp hs
    obtain ⟨h2, h2s, hs⟩ := bind_eq_some_iff.mp hs
    have hq2 : Quiet h1 h2 := by
      split at h2s
      · exact quiet_queueFrames h2s
      rw [← some.inj h2s]
      exact Quiet.refl h1
    exact rest ((quiet_removeFromBytesInFlight h1s).trans hq2) hs

/-- A migration takes all packets of the application data away and resets the controller. -/
structure Migrates (A : SendAlgorithm C) (clock : Int) (h h' : Handler C E) : Prop where
  wf : Wf h'
  sub : ∀ s, h'.tracked s ⊆ h.tracked s
  appData : h'.tracked .appData = []
  congestion : A.newCubicSender = none →
    ∃ c, Relayed A h.congestion c ∧ h'.congestion = A.onRetransmissionTimeout c true clock

theorem migratedPath_spec {now : Int} {size : Nat} {clock : Int} (hw : Wf h)
    (hs : h.migratedPath A now size clock = some h') : Migrates A clock h h' := by
  obtain ⟨h1, h1s, hs⟩ := bind_eq_some_iff.mp hs
  obtain ⟨hk1, hrem⟩ : Keeps A (fun s _ _ => s = .appData)
      { h with rttStats := h.rttStats.resetForPathMigration } h1 ∧ _ := loseAll_spec hw h1s
  have hp : ProbesOnly h1 { h1 with appDataPackets := { h1.appDataPackets with
      history := h1.appDataPackets.history.removeRangedPathProbes } } :=
    ⟨rfl, rfl, ⟨_, removeProbes_subset _ _ _ _, rfl⟩, rfl, rfl⟩
  have hkp : Keeps A (fun s _ _ => s = .appData) h1 _ := hp.keeps hk1.wf
  have hk2 := hk1.trans hkp
  cases hs
  refine ⟨hk2.wf, hk2.sub, ?_, fun hcubic => ⟨h1.congestion, hk1.relayed, ?_⟩⟩
  · refine eq_nil_iff_forall_not_mem.mpr fun e he => ?_
    have h1e : e ∈ h1.tracked .appData := hkp.sub _ he
    exact hrem e h1e e (hk1.sub _ h1e) rfl
  · simp only [setLossDetectionTimer, hcubic]

/-! ## Acknowledgements -/

variable {history : SentPacketHistory} {ack : AckFrame} {pn : Int} {p : Packet} {elicits : Bool}

/-- Only ranges below the number are passed, as long as there is another one. -/
theorem advance_spec {ranges : List AckRange} {x : AckRange} (hx : x ∈ ranges) (hle : pn ≤ x.largest) :
    ∃ passed r rs, ranges = passed ++ r :: rs ∧ advance pn ranges = r :: rs ∧ pn ≤ r.largest ∧
      ∀ y ∈ passed, y.largest < pn := by
  induction ranges with
  | nil => cases hx
  | cons y ranges ih =>
    cases ranges with
    | nil =>
      rw [mem_singleton.mp hx] at hle
      exact ⟨[], y, [], rfl, rfl, hle, fun _ hy => by cases hy⟩
    | cons y' ys =>
      unfold advance
      split
      · rename_i hlt
        obtain ⟨passed, r, rs, heq, hadv, hr, hpassed⟩ := ih <| (mem_cons.mp hx).resolve_left fun heq => by
          rw [heq] at hle
          omega
        exact ⟨y :: passed, r, rs, by rw [heq]; rfl, hadv, hr, forall_mem_cons.mpr ⟨hlt, hpassed⟩⟩
      · rename_i hlt
        exact ⟨[], y, y' :: ys, rfl, rfl, not_lt.mp hlt, fun _ hy => by cases hy⟩

/-- The search takes the packets that the frame acknowledges, in their order, and no others. The ranges that are
left are those in which a later number can lie. -/
theorem scanAcked_eq {ranges : List AckRange} (s : Scan) (hsort : l.Pairwise fun e e' => e.1 < e'.1)
    (hsub : List.Sublist ranges ack.ackRanges.reverse)
    (hleft : ∀ e ∈ l, ∀ r ∈ ack.ackRanges, e.1 ≤ r.largest → r ∈ ranges) :
    scanAcked ack l ranges s = (l.filter fun e => ack.acksPacket e.1).foldl (fun s e => s.take e.1 e.2) s := by
  induction l generalizing ranges s with
  | nil => rfl
  | cons x l ih =>
    obtain ⟨pn, p⟩ := x
    obtain ⟨hhead, hsort'⟩ := pairwise_cons.mp hsort
    obtain ⟨hnow, hleft'⟩ := forall_mem_cons.mp hleft
    unfold scanAcked
    split
    · rename_i hlo
      rw [filter_cons_of_neg (by simp [AckFrame.acksPacket, hlo]), ih s hsort' hsub hleft']
    rename_i hlo
    split
    · rename_i hhi
      rw [filter_eq_nil_iff.mpr]
      · rfl
      refine forall_mem_cons.mpr ⟨by simp [AckFrame.acksPacket, hhi], fun e he => ?_⟩
      simp [AckFrame.acksPacket, hhi.trans (hhead e he)]
    rename_i hhi
    split
    · -- the range of the largest number is never passed
      obtain ⟨top, htop, heq⟩ := ack.exists_largest
      have hle : pn ≤ top.largest := by omega
      obtain ⟨passed, r, rs, rfl, hadv, hpr, hpassed⟩ := advance_spec (hnow top htop hle) hle
      have hstay : ∀ {y : AckRange}, y ∈ passed ++ r :: rs → pn ≤ y.largest → y ∈ r :: rs := fun hy hle =>
        (mem_append.mp hy).resolve_left fun hp => not_lt.mpr hle (hpassed _ hp)
      have hsub' := (sublist_append_right passed (r :: rs)).trans hsub
      have hih : ∀ s, scanAcked ack l (r :: rs) s = _ := fun s => ih s hsort' hsub' fun e he y hy hle =>
        hstay (hleft' e he y hy hle) ((hhead e he).le.trans hle)
      rw [hadv]
      simp only [not_lt.mpr hpr, if_false]
      split
      · -- the number lies between the ranges passed and the next one
        rename_i hsm
        rw [hih, filter_cons_of_neg]
        rw [ack.acksPacket_iff]
        rintro ⟨y, hy, hlo', hhi'⟩
        rcases mem_cons.mp (hstay (hnow y hy hhi') hhi') with rfl | hy'
        · omega
        have := (pairwise_cons.mp ((pairwise_reverse.mpr ack.descending.apart).sublist hsub')).1 y hy'
        omega
      · rename_i hsm
        rw [hih, filter_cons_of_pos, foldl_cons]
        exact (ack.acksPacket_iff pn).mpr ⟨r, mem_reverse.mp (hsub'.subset mem_cons_self), by omega, hpr⟩
    · rename_i hmiss
      rw [filter_cons, if_pos (AckFrame.acksPacket_of_not_hasMissingRanges hmiss hlo hhi), foldl_cons,
        ih _ hsort' hsub hleft']

theorem newlyAcked_eq (history : SentPacketHistory) (ack : AckFrame) : newlyAcked history ack =
    (history.tracked.filter fun e => ack.acksPacket e.1).foldl (fun s e => s.take e.1 e.2) { history } :=
  scanAcked_eq _ history.tracked_pairwise (List.Sublist.refl _) fun _ _ _ hr _ => mem_reverse.mpr hr

/-- Where a newly acknowledged packet comes from: it is tracked, or it is the path probe behind a
tracked placeholder. -/
def FoundIn (history : SentPacketHistory) (e : Int × Packet) : Prop :=
  e ∈ history.tracked ∨ (∃ p, (e.1, p) ∈ history.tracked ∧ p.isPathProbePacket = true) ∧
    ∃ q, (q, e.2) ∈ history.pathProbePackets

/-- The state of the search, compared with the history it began with. -/
structure ScanOk (history : SentPacketHistory) (s : Scan) : Prop where
  tracked : s.history.tracked = history.tracked
  consecutive : s.history.Consecutive ↔ history.Consecutive
  probes : s.history.pathProbePackets ⊆ history.pathProbePackets
  skipped : s.history.skippedPackets = history.skippedPackets
  found : ∀ e ∈ s.acked, FoundIn history e
  sorted : s.acked.Pairwise fun e e' => e.1 < e'.1
  error : s.error = none

theorem sorted_append (hl : l.Pairwise fun e e' => e.1 < e'.1)
    (hlt : ∀ e ∈ l, e.1 < pn) (p : Packet) : (l ++ [(pn, p)]).Pairwise fun e e' => e.1 < e'.1 := by
  refine pairwise_append.mpr ⟨hl, pairwise_singleton _ _, fun e he e' he' => ?_⟩
  rw [mem_singleton.mp he']
  exact hlt e he

theorem ScanOk.take {s : Scan} (hok : ScanOk history s)
    (hm : (pn, p) ∈ history.tracked) (hlt : ∀ e ∈ s.acked, e.1 < pn) :
    ScanOk history (s.take pn p) ∧ ∀ e ∈ (s.take pn p).acked, e.1 ≤ pn := by
  have hle : ∀ q, ∀ e ∈ s.acked ++ [(pn, q)], e.1 ≤ pn := fun q =>
    forall_mem_append.mpr ⟨fun e hm' => Int.le_of_lt (hlt e hm'), forall_mem_singleton.mpr (Int.le_refl pn)⟩
  unfold Scan.take
  split
  · rename_i hprobe
    obtain ⟨ht, hc, hsub, hskip, hfrom⟩ := removePathProbe_spec s.history pn
    split
    · rename_i probe history' hr
      rw [hr] at ht hc hsub hskip hfrom
      refine ⟨⟨ht.trans hok.tracked, hc.trans hok.consecutive, fun e he => hok.probes (hsub he),
        hskip.trans hok.skipped, ?_, sorted_append hok.sorted hlt probe, hok.error⟩, hle probe⟩
      obtain ⟨q, hq⟩ := hfrom probe rfl
      exact forall_mem_append.mpr ⟨hok.found, forall_mem_singleton.mpr (.inr ⟨⟨p, hm, hprobe⟩, q, hok.probes hq⟩)⟩
    rename_i history' hr
    rw [hr] at ht hc hsub hskip
    exact ⟨⟨ht.trans hok.tracked, hc.trans hok.consecutive, fun e he => hok.probes (hsub he),
      hskip.trans hok.skipped, hok.found, hok.sorted, hok.error⟩, fun e he => Int.le_of_lt (hlt e he)⟩
  exact ⟨{ hok with
    found := forall_mem_append.mpr ⟨hok.found, forall_mem_singleton.mpr (.inl hm)⟩
    sorted := sorted_append hok.sorted hlt p }, hle p⟩

/-- Along the search, with the packets still to be looked at above those found. -/
theorem ScanOk.foldl_take {s : Scan} (hok : ScanOk history s)
    (hsub : l ⊆ history.tracked) (hsort : l.Pairwise (fun e e' => e.1 < e'.1))
    (hlt : ∀ e ∈ s.acked, ∀ x ∈ l, e.1 < x.1) : ScanOk history (l.foldl (fun s e => s.take e.1 e.2) s) := by
  induction l generalizing s with
  | nil => exact hok
  | cons x l ih =>
    obtain ⟨hhead, hsort'⟩ := pairwise_cons.mp hsort
    obtain ⟨hx, hsub'⟩ := cons_subset.mp hsub
    obtain ⟨hok', hle⟩ := hok.take hx fun e he => hlt e he _ mem_cons_self
    exact ih hok' hsub' hsort' fun e he y hy => Int.lt_of_le_of_lt (hle e he) (hhead y hy)

theorem newlyAcked_ok (history : SentPacketHistory) (ack : AckFrame) : ScanOk history (newlyAcked history ack) := by
  have hok : ScanOk history { history } :=
    ⟨rfl, Iff.rfl, fun _ he => he, rfl, (fun e he => by cases he), List.Pairwise.nil, rfl⟩
  rw [newlyAcked_eq]
  exact hok.foldl_take filter_sublist.subset (history.tracked_pairwise.sublist filter_sublist) fun e he => by cases he

/-- The numbers of `l` are taken from one space, and nothing else of interest changes. -/
structure Removes (enc : EncryptionLevel) (l : List (Int × Packet)) (h h' : Handler C E) : Prop where
  wf : Wf h'
  tracked : ∀ s e, e ∈ h'.tracked s ↔ e ∈ h.tracked s ∧ (s = enc.space → ∀ x ∈ l, e.1 ≠ x.1)
  congestion : h'.congestion = h.congestion
  rttStats : h'.rttStats = h.rttStats
  largestAckedTime : h'.largestAckedTime = h.largestAckedTime
  thresholds : ∀ sp, h.getPacketNumberSpace enc = some sp →
    ∃ sp', h'.getPacketNumberSpace enc = some sp' ∧ SameThresholds sp sp'

namespace Removes

variable {l l' : List (Int × Packet)}

theorem trans (h1 : Removes enc l h h') (h2 : Removes enc l' h' h'') : Removes enc (l ++ l') h h'' where
  wf := h2.wf
  tracked s e := by rw [h2.tracked, h1.tracked, forall_mem_append, and_assoc, ← forall_and]
  congestion := h2.congestion.trans h1.congestion
  rttStats := h2.rttStats.trans h1.rttStats
  largestAckedTime := h2.largestAckedTime.trans h1.largestAckedTime
  thresholds sp hsp := by
    obtain ⟨sp1, hsp1, hth1⟩ := h1.thresholds sp hsp
    obtain ⟨sp2, hsp2, hth2⟩ := h2.thresholds sp1 hsp1
    exact ⟨sp2, hsp2, hth2.1.trans hth1.1, hth2.2.trans hth1.2⟩

theorem of_quiet (hw : Wf h) (hq : Quiet h h') : Removes enc [] h h' := { hq with
  wf := hq.wf hw
  tracked := fun s e => by
    rw [hq.tracked]
    simp
  thresholds := fun sp hsp => ⟨sp, by rw [hq.getPacketNumberSpace, hsp], rfl, rfl⟩ }

/-- The history of the space is replaced by one without the numbers of `l`. -/
theorem of_history (hw : Wf h) {sp : PacketNumberSpace} (hsp : h.getPacketNumberSpace enc = some sp)
    (hc : history.Consecutive) (hpr : history.pathProbePackets ⊆ sp.history.pathProbePackets)
    (hskip : history.skippedPackets = sp.history.skippedPackets)
    (ht : ∀ e, e ∈ history.tracked ↔ e ∈ sp.history.tracked ∧ ∀ x ∈ l, e.1 ≠ x.1) :
    Removes enc l h (h.setSpace enc { sp with history }) := by
  have hspace := space_of_get hsp
  refine ⟨wf_setSpace hw enc hc fun e he => (hw _ sp hspace).2 e (hpr he), fun s e => ?_,
    congestion_setSpace .., rttStats_setSpace .., largestAckedTime_setSpace .., fun sp' hsp' => ?_⟩
  · rw [tracked_setSpace]
    split
    · rename_i he
      rw [ht, he, tracked_of_space hspace]
      simp
    · rename_i he
      simp [he]
  · cases hsp.symm.trans hsp'
    exact ⟨_, getPacketNumberSpace_setSpace .., rfl, hskip⟩

end Removes

/-- Every packet found is removed, without an error. -/
theorem removeAcked_spec {r : Except AckError Unit} (hw : Wf h)
    (hmem : (∀ e ∈ l, ∃ p, (e.1, p) ∈ h.tracked enc.space)) (hsort : l.Pairwise (fun e e' => e.1 < e'.1))
    (hs : removeAcked enc l h = some (r, h')) : r = .ok () ∧ Removes enc l h h' := by
  induction l generalizing h r with
  | nil =>
    cases hs
    exact ⟨rfl, .of_quiet hw (.refl _)⟩
  | cons x l ih =>
    obtain ⟨pn, p⟩ := x
    obtain ⟨hhead, hsort'⟩ := pairwise_cons.mp hsort
    obtain ⟨sp, hsp, hs⟩ := bind_eq_some_iff.mp hs
    obtain ⟨r', hr, hs⟩ := bind_eq_some_iff.mp hs
    -- the callbacks come first
    generalize hh0 : ({ h with callbacks := _ } : Handler C E) = h0 at hsp hs
    have hq0 : Quiet h h0 := by rw [← hh0]; exact ⟨rfl, rfl, rfl, rfl⟩
    have hspace := space_of_get hsp
    obtain ⟨q, hq⟩ := hmem _ mem_cons_self
    rw [← hq0.tracked, tracked_of_space hspace] at hq
    obtain ⟨history, rfl⟩ := remove_tracked hq hr
    obtain ⟨hc, ht, hpr⟩ := remove_spec (hq0.wf hw _ sp hspace).1 hr
    have hone : Removes enc [(pn, p)] h (h0.setSpace enc { sp with history }) :=
      (Removes.of_quiet hw hq0).trans (.of_history (hq0.wf hw) hsp hc (fun _ he => hpr ▸ he)
        (remove_skippedPackets hr) fun e => by
          rw [ht, mem_filter_ne, forall_mem_singleton])
    obtain ⟨hr', hrem⟩ := ih hone.wf (fun e he => by
      obtain ⟨q', hq'⟩ := hmem e (mem_cons_of_mem _ he)
      refine ⟨q', (hone.tracked _ _).mpr ⟨hq', fun _ => ?_⟩⟩
      exact forall_mem_singleton.mpr (Int.ne_of_gt (hhead e he))) hsort' hs
    exact ⟨hr', hone.trans hrem⟩

/-- What the search and the removal leave behind, with and without an error. -/
theorem detectAndRemoveAckedPackets_spec (A : SendAlgorithm C) (gone : Space → Int → Packet → Prop)
    {r : Except AckError (List (Int × Packet) × Bool)} (hw : Wf h)
    (hs : h.detectAndRemoveAckedPackets ack enc = some (r, h')) :
    match r with
    | .error _ => Keeps A gone h h'
    | .ok (acked, hasAckEliciting) => ∃ sp, h.getPacketNumberSpace enc = some sp ∧
        acked = (newlyAcked sp.history ack).acked ∧
        hasAckEliciting = (newlyAcked sp.history ack).hasAckEliciting ∧ Removes enc acked h h' := by
  unfold detectAndRemoveAckedPackets at hs
  split at hs
  · cases hs
    exact .refl hw
  obtain ⟨sp, hsp, hs⟩ := bind_eq_some_iff.mp hs
  split at hs
  · cases hs
    exact .refl hw
  have hok := newlyAcked_ok sp.history ack
  have hspace := space_of_get hsp
  simp only at hs
  obtain ⟨scan, hscan⟩ : ∃ scan, newlyAcked sp.history ack = scan := ⟨_, rfl⟩
  rw [hscan] at hs hok
  -- the path probes found are already removed
  have hk : ∀ gone, Keeps A gone h (h.setSpace enc { sp with history := scan.history }) := fun _ =>
    keeps_setSpace_same hw hsp (hok.consecutive.mpr (hw _ sp hspace).1) hok.probes hok.tracked
  have hq : Quiet (h.setSpace enc { sp with history := scan.history })
      { h.setSpace enc { sp with history := scan.history } with ackedPackets := scan.acked } :=
    ⟨rfl, rfl, rfl, rfl⟩
  split at hs
  · rename_i herr
    rw [hok.error] at herr
    cases herr
  obtain ⟨⟨r', h1⟩, h1s, hs⟩ := bind_eq_some_iff.mp hs
  have hfirst : Removes enc [] h
      { h.setSpace enc { sp with history := scan.history } with ackedPackets := scan.acked } :=
    (Removes.of_history (l := []) hw hsp (hok.consecutive.mpr (hw _ sp hspace).1) hok.probes hok.skipped
      (fun e => by rw [hok.tracked]; simp)).trans (.of_quiet (hk gone).wf hq)
  obtain ⟨rfl, hrem⟩ := removeAcked_spec hfirst.wf (fun e he => by
    rcases hok.found e he with hm | ⟨⟨p, hm, -⟩, -⟩
    · exact ⟨e.2, (hfirst.tracked _ _).mpr ⟨by rwa [tracked_of_space hspace], by simp⟩⟩
    · exact ⟨p, (hfirst.tracked _ _).mpr ⟨by rwa [tracked_of_space hspace], by simp⟩⟩) hok.sorted h1s
  cases hs
  exact ⟨sp, hsp, by rw [hscan], by rw [hscan], hfirst.trans hrem⟩

/-- The calls of `OnPacketAcked` for the packets of a list. -/
def ackAll (A : SendAlgorithm C) (priorInFlight : Nat) (rcvTime : Int) (acked : List (Int × Packet)) (c : C) : C :=
  acked.foldl (fun c e => if e.2.includedInBytesInFlight then
    A.onPacketAcked c e.1 e.2.length priorInFlight rcvTime else c) c

theorem ackAll_cons (prior : Nat) (t : Int) (e : Int × Packet) (l : List (Int × Packet)) (c : C) :
    ackAll A prior t (e :: l) c = ackAll A prior t l (if e.2.includedInBytesInFlight then
      A.onPacketAcked c e.1 e.2.length prior t else c) := rfl

variable {rcvTime : Int} {prior : Nat}

theorem ackPackets_spec
    (hs : ackPackets A prior rcvTime l h = some h') : h'.space = h.space ∧
      h'.congestion = ackAll A prior rcvTime l h.congestion ∧ h'.callbacks = h.callbacks := by
  induction l generalizing h with
  | nil =>
    cases hs
    exact ⟨rfl, rfl, rfl⟩
  | cons e l ih =>
    obtain ⟨h1, h1s, hs⟩ := bind_eq_some_iff.mp hs
    cases removeFromBytesInFlight_some h1s
    exact ih hs

theorem keeps_updateRTTOnAck (hw : Wf h) (rcvTime : Int) (acked : List (Int × Packet)) (elicits : Bool) :
    Keeps A gone h (h.updateRTTOnAck A ack enc rcvTime acked elicits) := by
  refine ⟨hw, fun _ _ he => he, fun _ _ he => Or.inl he, ?_⟩
  show Relayed A h.congestion (if _ then _ else _)
  split
  · exact Relation.ReflTransGen.single (.maybeExitSlowStart _)
  · exact Relation.ReflTransGen.refl

theorem informECN_spec (hw : Wf h) (largestAcked : Int) (acked : List (Int × Packet)) (prior : Nat) :
    Keeps A gone h (h.informECN A ecn ack enc largestAcked acked prior) ∧
      (h.informECN A ecn ack enc largestAcked acked prior).space = h.space ∧
      (h.informECN A ecn ack enc largestAcked acked prior).rttStats = h.rttStats := by
  unfold informECN
  split
  · split
    · refine ⟨⟨hw, fun _ _ he => he, fun _ _ he => Or.inl he, ?_⟩, rfl, rfl⟩
      show Relayed A h.congestion (if _ then _ else _)
      split
      · exact Relation.ReflTransGen.single (.onCongestionEvent _ _ _ _)
      · exact Relation.ReflTransGen.refl
    · exact ⟨.refl hw, rfl, rfl⟩
  · exact ⟨.refl hw, rfl, rfl⟩

/-- The packets that meet a loss threshold after the RTT has been updated with the packets `acked`. -/
def LostAfter (h : Handler C E) (ack : AckFrame) (enc : EncryptionLevel) (rcvTime : Int)
    (acked : List (Int × Packet)) (hasAckEliciting : Bool) (sp : PacketNumberSpace) (s : Space) (pn : Int)
    (p : Packet) : Prop :=
  let largestAcked := max sp.largestAcked ack.largestAcked
  s = enc.space ∧ pn ≤ largestAcked ∧ packetLost { sp with largestAcked }
    (lossDelay (h.rttOnAck ack enc rcvTime acked hasAckEliciting).1) rcvTime pn p

variable {acked : List (Int × Packet)} {sp : PacketNumberSpace}

theorem processAcked_spec {b : Bool} (hw : Wf h) (hsp : h.getPacketNumberSpace enc = some sp)
    (hs : processAcked A ecn h ack enc rcvTime prior acked elicits = some (b, h')) :
    ∃ h1, Keeps A (h.LostAfter ack enc rcvTime acked elicits sp) h h1 ∧ h'.space = h1.space ∧
      h'.congestion = ackAll A prior rcvTime acked h1.congestion := by
  obtain ⟨sp1, hsp1, hs⟩ := bind_eq_some_iff.mp hs
  obtain ⟨h4, h4s, hs⟩ := bind_eq_some_iff.mp hs
  obtain ⟨h5, h5s, hs⟩ := bind_eq_some_iff.mp hs
  obtain ⟨h6, h6s, hs⟩ := bind_eq_some_iff.mp hs
  have hk1 : Keeps A (h.LostAfter ack enc rcvTime acked elicits sp) h
      (h.updateRTTOnAck A ack enc rcvTime acked elicits) := keeps_updateRTTOnAck hw rcvTime acked elicits
  have hget : (h.updateRTTOnAck A ack enc rcvTime acked elicits).getPacketNumberSpace enc =
      h.getPacketNumberSpace enc := by cases enc <;> rfl
  have hrtt : (h.updateRTTOnAck A ack enc rcvTime acked elicits).rttStats =
      (h.rttOnAck ack enc rcvTime acked elicits).1 := rfl
  rw [hget, hsp] at hsp1
  cases hsp1
  generalize h.updateRTTOnAck A ack enc rcvTime acked elicits = h1 at h4s hk1 hget hrtt
  obtain ⟨hk2, hspace2, hrtt2⟩ : Keeps A (h.LostAfter ack enc rcvTime acked elicits sp) h1
      (h1.informECN A ecn ack enc sp.largestAcked acked prior) ∧ _ :=
    informECN_spec hk1.wf sp.largestAcked acked prior
  generalize h1.informECN A ecn ack enc sp.largestAcked acked prior = h2 at h4s hk2 hspace2 hrtt2
  have hget2 : h2.getPacketNumberSpace enc = some sp := by
    rw [getPacketNumberSpace_eq, hspace2, ← getPacketNumberSpace_eq, hget, hsp]
  have hcons := (hk2.wf enc.space sp (space_of_get hget2)).1
  have hk4 : Keeps A (h.LostAfter ack enc rcvTime acked elicits sp) h2 h4 := by
    have hk3 : Keeps A (h.LostAfter ack enc rcvTime acked elicits sp) h2
        (h2.setSpace enc { sp with largestAcked := max sp.largestAcked ack.largestAcked }) :=
      keeps_setSpace_same hk2.wf hget2 hcons (fun _ he => he) rfl
    refine hk3.trans ((detectLostPackets_spec hk3.wf (getPacketNumberSpace_setSpace h2 enc _) h4s).mono ?_)
    rintro s pn p - ⟨hsq, hle, hlost⟩
    rw [rttStats_setSpace, hrtt2, hrtt] at hlost
    exact ⟨hsq, hle, hlost⟩
  have hk5 : Keeps A (h.LostAfter ack enc rcvTime acked elicits sp) h4 h5 := by
    split at h5s
    · exact (probesOnly_detectLostPathProbes h5s).keeps hk4.wf
    cases h5s
    exact .refl hk4.wf
  obtain ⟨hspace6, hc6, -⟩ := ackPackets_spec h6s
  -- what is left of the method are the lost packets, the counters and the timer
  have hlast : h'.space = h6.space ∧ h'.congestion = h6.congestion := by
    cases hs
    split <;> exact ⟨rfl, rfl⟩
  exact ⟨h5, hk1.trans (hk2.trans (hk4.trans hk5)), hlast.1.trans hspace6, hlast.2.trans hc6⟩

/-- What an ACK frame does whose packets `acked` are newly acknowledged. -/
structure Acks (A : SendAlgorithm C) (ack : AckFrame) (enc : EncryptionLevel) (rcvTime : Int)
    (sp : PacketNumberSpace) (acked : List (Int × Packet)) (h h' : Handler C E) : Prop where
  wf : Wf h'
  space : h.getPacketNumberSpace enc = some sp
  acked_eq : acked = (newlyAcked sp.history ack).acked
  congestion : ∃ prior c, Relayed A h.congestion c ∧ h'.congestion = ackAll A prior rcvTime acked c
  sub : ∀ s, h'.tracked s ⊆ h.tracked s
  inFlight : ∀ e ∈ acked, e.2.includedInBytesInFlight = true → e ∈ h.tracked enc.space
  sorted : acked.Pairwise fun e e' => e.1 < e'.1
  removed : ∀ e ∈ h'.tracked enc.space, ∀ x ∈ acked, e.1 ≠ x.1
  kept : ∀ s e, e ∈ h.tracked s → e ∈ h'.tracked s ∨ (s = enc.space ∧ ∃ x ∈ acked, e.1 = x.1) ∨
    h.LostAfter ack enc rcvTime acked (newlyAcked sp.history ack).hasAckEliciting sp s e.1 e.2

/-- What is acknowledged under the number of a regular packet is that packet. -/
theorem Acks.eq_of_tracked (ha : Acks A ack enc rcvTime sp acked h h') {e : Int × Packet} (he : e ∈ acked)
    (hp : (e.1, p) ∈ h.tracked enc.space) (hprobe : p.isPathProbePacket = false) : e.2 = p := by
  rw [ha.acked_eq] at he
  have hspace := space_of_get ha.space
  rcases (newlyAcked_ok sp.history ack).found e he with hm | ⟨⟨q, hm, hq⟩, -⟩
  · rw [← tracked_of_space hspace] at hm
    exact tracked_inj hm hp
  rw [← tracked_of_space hspace] at hm
  rw [tracked_inj hm hp, hprobe] at hq
  cases hq

theorem rttOnAck_congr (hr : h'.rttStats = h.rttStats) (ht : h'.largestAckedTime = h.largestAckedTime) :
    h'.rttOnAck ack enc rcvTime acked elicits = h.rttOnAck ack enc rcvTime acked elicits := by
  unfold rttOnAck rttAfter
  rw [hr, ht]

/-- The loss thresholds are those of the state before the packets were removed. -/
theorem LostAfter.of_removes {h1 h2 : Handler C E} {sp' : PacketNumberSpace} {s : Space} (hq : Quiet h h1)
    (hrem : Removes enc acked h1 h2) (hth : SameThresholds sp sp')
    (hl : h2.LostAfter ack enc rcvTime acked elicits sp' s pn p) :
    h.LostAfter ack enc rcvTime acked elicits sp s pn p := by
  obtain ⟨hsq, hle, hlost⟩ := hl
  rw [rttOnAck_congr (hrem.rttStats.trans hq.rttStats) (hrem.largestAckedTime.trans hq.largestAckedTime)] at hlost
  rw [hth.1] at hle hlost
  have hth' : SameThresholds { sp with largestAcked := max sp.largestAcked ack.largestAcked }
      { sp' with largestAcked := max sp.largestAcked ack.largestAcked } := ⟨rfl, hth.2⟩
  rw [hth'.packetLost] at hlost
  exact ⟨hsq, hle, hlost⟩

theorem acks_of_removes {h1 h2 : Handler C E} {b : Bool} (hw : Wf h) (hq : Quiet h h1)
    (hsp : h.getPacketNumberSpace enc = some sp) (hacked : acked = (newlyAcked sp.history ack).acked)
    (helicits : elicits = (newlyAcked sp.history ack).hasAckEliciting) (hrem : Removes enc acked h1 h2)
    (hs : processAcked A ecn h2 ack enc rcvTime prior acked elicits = some (b, h')) :
    Acks A ack enc rcvTime sp acked h h' := by
  have hspace := space_of_get hsp
  have hok := newlyAcked_ok sp.history ack
  obtain ⟨sp', hsp', hth⟩ := hrem.thresholds sp (by rw [hq.getPacketNumberSpace, hsp])
  obtain ⟨h3, hk, hspace3, hc3⟩ := processAcked_spec hrem.wf hsp' hs
  have htr3 : ∀ s, h'.tracked s = h3.tracked s := fun s => by rw [tracked, hspace3, tracked]
  have htr2 : ∀ s e, e ∈ h2.tracked s ↔ e ∈ h.tracked s ∧ (s = enc.space → ∀ x ∈ acked, e.1 ≠ x.1) :=
    fun s e => by rw [hrem.tracked, hq.tracked]
  refine ⟨fun s sq hsq => hk.wf s sq (by rw [← hspace3, hsq]), hsp, hacked,
    ⟨prior, h3.congestion, ?_, hc3⟩, fun s e he => ?_, fun e he hin => ?_, by rw [hacked]; exact hok.sorted,
    fun e he => ?_, fun s e he => ?_⟩
  · rw [← hq.congestion, ← hrem.congestion]
    exact hk.relayed
  · rw [htr3] at he
    exact ((htr2 s e).mp (hk.sub s he)).1
  · -- a path probe does not count in flight, so the packet itself is tracked
    rw [hacked] at he
    rcases hok.found e he with hm | ⟨-, q, hprobe⟩
    · rw [tracked_of_space hspace]
      exact hm
    rw [(hw _ sp hspace).2 _ hprobe] at hin
    cases hin
  · rw [htr3] at he
    exact ((htr2 _ e).mp (hk.sub _ he)).2 rfl
  by_cases hin : s = enc.space ∧ ∃ x ∈ acked, e.1 = x.1
  · exact Or.inr (Or.inl hin)
  have hm : e ∈ h2.tracked s := (htr2 s e).mpr ⟨he, fun hsq x hx hne => hin ⟨hsq, x, hx, hne⟩⟩
  rcases hk.kept s e hm with hm' | hlost
  · left
    rwa [htr3]
  rw [← helicits]
  exact Or.inr (Or.inr (LostAfter.of_removes hq hrem hth hlost))

/-- `ReceivedAck` acknowledges packets of its own space, or changes nothing that counts here. -/
theorem receivedAck_spec {r : Except AckError Bool} (hw : Wf h)
    (hs : h.receivedAck A ecn ack enc rcvTime = some (r, h')) :
    Keeps A (fun _ _ _ => False) h h' ∨ ∃ sp acked, Acks A ack enc rcvTime sp acked h h' := by
  obtain ⟨sp0, hsp0, hs⟩ := bind_eq_some_iff.mp hs
  split at hs
  · cases hs
    exact Or.inl (.refl hw)
  obtain ⟨⟨r', h1⟩, h1s, hs⟩ := bind_eq_some_iff.mp hs
  have hq := (idle_completeAddressValidation h enc rcvTime).toQuiet
  have hspec := detectAndRemoveAckedPackets_spec A (fun _ _ _ => False) (hq.wf hw) h1s
  split at hs
  · rename_i heq
    cases heq
    cases hs
    exact Or.inl ((hq.keeps hw).trans hspec)
  · rename_i heq
    cases heq
    cases hs
    obtain ⟨sp, -, -, -, hrem⟩ := hspec
    -- nothing is newly acknowledged, so nothing was removed
    refine Or.inl ((hq.keeps hw).trans ⟨hrem.wf, fun s e he => ((hrem.tracked s e).mp he).1,
      fun s e he => Or.inl ((hrem.tracked s e).mpr ⟨he, fun _ x hx => by cases hx⟩), ?_⟩)
    rw [hrem.congestion]
  rename_i acked elicits h2 _ heq
  cases heq
  obtain ⟨⟨b, h3⟩, h3s, hs⟩ := bind_eq_some_iff.mp hs
  cases hs
  obtain ⟨sp, hsp, hacked, helicits, hrem⟩ := hspec
  rw [hq.getPacketNumberSpace] at hsp
  exact Or.inr ⟨sp, acked, acks_of_removes hw hq hsp hacked helicits hrem h3s⟩

/-! ## All calls -/

/-- The packets that a call other than `ReceivedAck` may stop tracking. -/
def Leaves (h : Handler C E) : Call → Space → Int → Packet → Prop
  | .onLossDetectionTimeout now _ => h.TimedOut now
  | .queueProbePacket enc => fun s pn _ => s = enc.space ∧ ∃ sp p,
      h.getPacketNumberSpace enc = some sp ∧ sp.history.firstOutstanding = some (pn, p)
  | .dropPackets enc _ => fun s _ p => Dropped enc s p
  | .resetForRetry _ _ => fun s _ _ => s = .initial ∨ s = .appData
  | _ => fun _ _ _ => False

/-- The controller is asked for its budget, or told the datagram size. -/
inductive Adjust (A : SendAlgorithm C) : C → C → Prop
  | refl (c : C) : Adjust A c c
  | hasPacingBudget (c : C) (now : Int) : Adjust A c (A.hasPacingBudget c now).2
  | setMaxDatagramSize (c : C) (size : Nat) : Adjust A c (A.setMaxDatagramSize c size)

/-- What a call can do to the packets and the controller. -/
inductive Effect (A : SendAlgorithm C) (h h' : Handler C E) : Call → Prop
  | keeps {l : Call} (hk : Keeps A (h.Leaves l) h h') : Effect A h h' l
  | sends {a : SentArgs} (ha : a.isPathProbePacket = false) (hs : Sends A a h h') : Effect A h h' (.sentPacket a)
  | sendsProbe {a : SentArgs} (hs : SendsProbe a h h') : Effect A h h' (.sentPacket a)
  | acks {ack : AckFrame} {enc : EncryptionLevel} {rcvTime : Int} {sp : PacketNumberSpace}
      {acked : List (Int × Packet)} (ha : Acks A ack enc rcvTime sp acked h h') :
      Effect A h h' (.receivedAck ack enc rcvTime)
  | migrates {now clock : Int} {size : Nat} (hm : Migrates A clock h h') :
      Effect A h h' (.migratedPath now size clock)
  | adjusts {l : Call} (hspace : h'.space = h.space) (ha : Adjust A h.congestion h'.congestion) : Effect A h h' l

theorem step_cases {l : Call} (hw : Wf h) (hs : h.step A ecn l = some h') : Effect A h h' l := by
  cases l with
  | sentPacket a =>
    replace hs : h.sentPacket A ecn a = some h' := hs
    unfold sentPacket at hs
    split at hs
    · rename_i ha
      exact .sendsProbe (sentPathProbe_spec hw ha hs)
    rename_i ha
    exact .sends (by simpa using ha) (sentRegular_spec hw hs)
  | receivedAck ack enc rcvTime =>
    obtain ⟨⟨r, h1⟩, h1s, rfl⟩ := map_eq_some_iff.mp hs
    rcases receivedAck_spec hw h1s with hk | ⟨sp, acked, ha⟩
    · exact .keeps (hk.mono fun _ _ _ _ hf => hf.elim)
    · exact .acks ha
  | receivedBytes n t =>
    cases hs
    exact .keeps ((idle_receivedBytes h n t).keeps hw)
  | receivedPacket enc t =>
    cases hs
    exact .keeps ((idle_receivedPacket h enc t).keeps hw)
  | dropPackets enc now => exact .keeps (dropPackets_spec hw hs)
  | resetForRetry now draw => exact .keeps (resetForRetry_spec hw hs)
  | sendMode now =>
    cases hs
    obtain heq | heq := h.sendMode_cases A now <;> rw [heq]
    · exact .adjusts rfl (.refl _)
    · exact .adjusts rfl (.hasPacingBudget _ now)
  | setMaxDatagramSize size =>
    cases hs
    exact .adjusts rfl (.setMaxDatagramSize _ size)
  | queueProbePacket enc =>
    obtain ⟨⟨b, h1⟩, h1s, rfl⟩ := map_eq_some_iff.mp hs
    exact .keeps (queueProbePacket_spec hw h1s)
  | ecnMode short =>
    cases hs
    exact .keeps ((idle_ecnMode ecn h short).keeps hw)
  | popPacketNumber enc draw =>
    obtain ⟨⟨pn, h1⟩, h1s, rfl⟩ := map_eq_some_iff.mp hs
    exact .keeps (popPacketNumber_spec hw h1s)
  | onLossDetectionTimeout now draw =>
    obtain ⟨⟨err, h1⟩, h1s, rfl⟩ := map_eq_some_iff.mp hs
    exact .keeps (onLossDetectionTimeout_spec hw h1s)
  | migratedPath now size clock => exact .migrates (migratedPath_spec hw hs)
  | setMaxAckDelay mad | setInitialRTT t =>
    cases hs
    exact .adjusts rfl (.refl _)

/-- The invariant of the histories holds after every call. -/
theorem Effect.wf {l : Call} (he : Effect A h h' l) (hw : Wf h) : Wf h' := by
  cases he with
  | keeps hk => exact hk.wf
  | sends _ hs | sendsProbe hs => exact hs.wf
  | acks ha => exact ha.wf
  | migrates hm => exact hm.wf
  | adjusts hspace _ => exact fun s sp hsp => hw s sp (by rw [← hspace, hsp])

/-- A property that no method of the controller destroys. -/
structure Preserves (A : SendAlgorithm C) (P : C → Prop) : Prop where
  onPacketSent : ∀ c t inFlight pn n r, P c → P (A.onPacketSent c t inFlight pn n r)
  onPacketAcked : ∀ c pn n prior t, P c → P (A.onPacketAcked c pn n prior t)
  onCongestionEvent : ∀ c pn lost prior, P c → P (A.onCongestionEvent c pn lost prior)
  maybeExitSlowStart : ∀ c, P c → P (A.maybeExitSlowStart c)
  hasPacingBudget : ∀ c now, P c → P (A.hasPacingBudget c now).2
  setMaxDatagramSize : ∀ c size, P c → P (A.setMaxDatagramSize c size)
  onRetransmissionTimeout : ∀ c clock, P c → P (A.onRetransmissionTimeout c true clock)
  newCubicSender : A.newCubicSender = none

variable {P : C → Prop}

theorem Preserves.relayed (hp : Preserves A P) {c c' : C} (hr : Relayed A c c') (hc : P c) : P c' := by
  induction hr with
  | refl => exact hc
  | tail _ hcall ih =>
    cases hcall with
    | onCongestionEvent pn lost prior => exact hp.onCongestionEvent _ pn lost prior ih
    | maybeExitSlowStart => exact hp.maybeExitSlowStart _ ih

theorem Preserves.ackAll (hp : Preserves A P) (prior : Nat) (t : Int)
    (acked : List (Int × Packet)) {c : C} (hc : P c) : P (ackAll A prior t acked c) := by
  induction acked generalizing c with
  | nil => exact hc
  | cons e acked ih =>
    rw [ackAll_cons]
    refine ih ?_
    split
    · exact hp.onPacketAcked _ _ _ _ _ hc
    · exact hc

theorem Preserves.adjust (hp : Preserves A P) {c c' : C} (ha : Adjust A c c') (hc : P c) : P c' := by
  cases ha with
  | refl => exact hc
  | hasPacingBudget now => exact hp.hasPacingBudget c now hc
  | setMaxDatagramSize size => exact hp.setMaxDatagramSize c size hc

theorem Effect.preserves {l : Call} (he : Effect A h h' l) (hp : Preserves A P) (hc : P h.congestion) :
    P h'.congestion := by
  cases he with
  | keeps hk => exact hp.relayed hk.relayed hc
  | sends _ hs =>
    obtain ⟨inFlight, heq⟩ := hs.congestion
    rw [heq]
    exact hp.onPacketSent _ _ _ _ _ _ hc
  | sendsProbe hs => rwa [hs.congestion]
  | acks ha =>
    obtain ⟨prior, c, hr, heq⟩ := ha.congestion
    rw [heq]
    exact hp.ackAll _ _ _ (hp.relayed hr hc)
  | migrates hm =>
    obtain ⟨c, hr, heq⟩ := hm.congestion hp.newCubicSender
    rw [heq]
    exact hp.onRetransmissionTimeout _ _ (hp.relayed hr hc)
  | adjusts _ ha => exact hp.adjust ha hc

/-- What the controller preserves holds in every run of the handler. -/
theorem Preserves.run (hp : Preserves A P) {ls : List Call} (hw : Wf h) (hc : P h.congestion)
    (hrun : LTS.run (Handler.step A ecn) h ls = some h') : Wf h' ∧ P h'.congestion := by
  have hstep : ∀ (h : Handler C E) l h', Wf h ∧ P h.congestion → True → h.step A ecn l = some h' →
      Wf h' ∧ P h'.congestion := by
    intro h l h' hi _ hs
    have he := step_cases hi.1 hs
    exact ⟨he.wf hi.1, he.preserves hp hi.2⟩
  exact LTS.run_invariant hstep ⟨hw, hc⟩ (LTS.along_true _ _) hrun

end Handler

section

variable (initialPN : Int) (rttStats : RTTStats) (validated : Bool) (ecnTracker : Option E) (ignore : Bool)
  (pers : Perspective) (c : C) (draw : Nat)

/-- A new handler tracks nothing. -/
theorem wf_newSentPacketHandler :
    (newSentPacketHandler initialPN rttStats validated ecnTracker ignore pers c draw).Wf := by
  intro s sp hs
  cases s <;> cases hs <;>
    exact ⟨consecutive_new, fun e he => by cases he⟩

theorem tracked_newSentPacketHandler (s : Space) :
    (newSentPacketHandler initialPN rttStats validated ecnTracker ignore pers c draw).tracked s = [] := by
  cases s <;> rfl

end

/-! ## Packets of small connections -/

/-- An ECN tracker that marks nothing. -/
def noECN : EcnHandler Unit where
  sentPacket e _ _ := some e
  mode e := (.non, e)
  handleNewlyAcked e _ _ _ _ := (false, e)
  lostPacket e _ := e

/-- An ACK of packet 0. -/
def ackZero : AckFrame := { ackRanges := [⟨0, 0⟩], valid := rfl }

/-- A packet of 1200 bytes with one frame, whose number is also that of the packet. -/
def ping (t : Int) (pn : Nat) (encLevel : EncryptionLevel) : Handler.SentArgs :=
  { t, pn, encLevel, size := 1200, frames := [{ frame := pn, handler := some 0 }] }

end MoqQuic.L3.Quic
