import MoqQuic.L3Protocol.Quic.Fates

/-!
# Acknowledgements of path probes

A path probe is recorded twice: the packet in `pathProbePackets`, and an empty
placeholder in the window that `ReceivedAck` searches. The placeholder has the
send time zero, so `detectLostPackets` takes it for lost as soon as a later packet
is acknowledged. From then on an ACK of the probe is not recognised, although
the probe is outstanding until its own timer fires.

* `newlyAcked_takes`: the search takes every acknowledged packet of the window.
* `probe_recognised_iff`: an accepted ACK of an outstanding probe removes the
  probe and reports its frames exactly when the placeholder is in the window. The
  one exception is a probe without frames to report, which may be removed by its
  timer in the same call.
-/
namespace MoqQuic.L3.Quic

open L2 L2.Ackhandler L2.Congestion List Option SentPacketHistory
open Callback (onAcked)
open SentPacketHistory (probePlaceholder)

variable {C E : Type}

namespace Handler

/-! ## The search is complete -/

variable {history : SentPacketHistory} {ack : AckFrame} {pn : Int} {e : Int × Packet}

/-- An acknowledged packet of the window is taken: what holds before (`P`) is turned into `Q`, which the rest of
the search keeps. -/
theorem newlyAcked_takes {P Q : Scan → Prop} {q : Packet} (hm : (pn, q) ∈ history.tracked)
    (hc : ack.acksPacket pn = true) (hstart : P { history })
    (hbefore : ∀ s pn' p, (pn', p) ∈ history.tracked → pn' ≠ pn → P s → P (s.take pn' p))
    (htake : ∀ s, P s → Q (s.take pn q))
    (hafter : ∀ s pn' p, (pn', p) ∈ history.tracked → pn' ≠ pn → Q s → Q (s.take pn' p)) :
    Q (newlyAcked history ack) := by
  obtain ⟨l, l', heq⟩ := append_of_mem (mem_filter (p := fun e => ack.acksPacket e.1).mpr ⟨hm, hc⟩)
  have hsub : l ++ (pn, q) :: l' ⊆ history.tracked := heq ▸ filter_sublist.subset
  have hsort : (l ++ (pn, q) :: l').Pairwise fun e e' => e.1 < e'.1 :=
    heq ▸ history.tracked_pairwise.sublist filter_sublist
  obtain ⟨-, hsort', hlt⟩ := pairwise_append.mp hsort
  rw [newlyAcked_eq, heq, foldl_append, foldl_cons]
  refine foldlRecOn _ _ (htake _ (foldlRecOn _ _ hstart fun s hP x hx => ?_)) fun s hQ x hx => ?_
  · exact hbefore s _ _ (hsub (mem_append_left _ hx)) (Int.ne_of_lt (hlt x hx _ mem_cons_self)) hP
  · exact hafter s _ _ (hsub (mem_append_right _ (mem_cons_of_mem _ hx)))
      (Int.ne_of_gt ((pairwise_cons.mp hsort').1 x hx)) hQ

theorem acked_subset_take (s : Scan) (pn : Int) (p : Packet) : s.acked ⊆ (s.take pn p).acked := by
  unfold Scan.take
  split
  · split
    · exact subset_append_left _ _
    · exact fun _ he => he
  · exact subset_append_left _ _

/-- Only the probe of the number is removed. -/
theorem probes_take {s : Scan} (hs : s.history.Sound) (pn : Int) (p : Packet) :
    List.Sublist (s.take pn p).history.pathProbePackets s.history.pathProbePackets ∧
      ∀ x ∈ s.history.pathProbePackets, x.1 ≠ pn → x ∈ (s.take pn p).history.pathProbePackets := by
  unfold Scan.take
  split
  · rcases hs.removePathProbe pn with ⟨hnone, heq, -⟩ | ⟨q, hsome, -, heq⟩
    · rw [show s.history.removePathProbe pn = (none, s.history) from Prod.ext hnone heq]
      exact ⟨List.Sublist.refl _, fun x hx _ => hx⟩
    rw [show s.history.removePathProbe pn = (some q, _) from Prod.ext hsome heq]
    exact ⟨filter_sublist, fun x hx hne => mem_filter_ne.mpr ⟨hx, hne⟩⟩
  · exact ⟨List.Sublist.refl _, fun x hx _ => hx⟩

/-- The placeholder stands for the probe. -/
theorem newlyAcked_probe (hs : history.Sound) (he : e ∈ history.pathProbePackets)
    (hm : (e.1, probePlaceholder) ∈ history.tracked) (hc : ack.acksPacket e.1 = true) :
    e ∈ (newlyAcked history ack).acked ∧ ∀ p, (e.1, p) ∉ (newlyAcked history ack).history.pathProbePackets := by
  refine (newlyAcked_takes (P := fun s => ScanBooks history s ∧ e ∈ s.history.pathProbePackets)
    (Q := fun s => ScanBooks history s ∧ e ∈ s.acked ∧ ∀ p, (e.1, p) ∉ s.history.pathProbePackets)
    hm hc ⟨.start hs, he⟩ ?_ ?_ ?_).2
  · intro s pn' p hm' hne hP
    exact ⟨hP.1.take hs hm', (probes_take hP.1.sound pn' p).2 e hP.2 hne.symm⟩
  · intro s hP
    refine ⟨hP.1.take hs hm, ?_⟩
    rcases hP.1.sound.removePathProbe e.1 with ⟨-, -, hno⟩ | ⟨q, hsome, hmq, heq⟩
    · exact absurd rfl (hno e hP.2)
    have hq : e = (e.1, q) := by rw [← eq_of_sorted hP.1.sound.probes_sorted hP.2 hmq]
    have htake : s.take e.1 probePlaceholder = { s with
        history := (s.history.removePathProbe e.1).2, acked := s.acked ++ [(e.1, q)] } := by
      unfold Scan.take
      rw [if_pos (show probePlaceholder.isPathProbePacket = true from rfl),
        show s.history.removePathProbe e.1 = (some q, _) from Prod.ext hsome rfl]
    rw [htake, heq]
    refine ⟨mem_append_right _ (by rw [← hq]; exact mem_singleton_self e), fun p hp => ?_⟩
    exact (mem_filter_ne.mp hp).2 rfl
  · intro s pn' p hm' hne hQ
    refine ⟨hQ.1.take hs hm', acked_subset_take s pn' p hQ.2.1, fun q hq => hQ.2.2 q ?_⟩
    exact (probes_take hQ.1.sound pn' p).1.subset hq

/-- Without a placeholder the probe stays. -/
theorem newlyAcked_keeps (hs : history.Sound) (he : e ∈ history.pathProbePackets)
    (hm : ∀ p, (e.1, p) ∉ history.tracked) : e ∈ (newlyAcked history ack).history.pathProbePackets := by
  rw [newlyAcked_eq]
  refine (foldlRecOn (motive := fun s => ScanBooks history s ∧ e ∈ s.history.pathProbePackets) _ _ ⟨.start hs, he⟩
    fun s hP x hx => ?_).2
  have hm' := mem_of_mem_filter hx
  refine ⟨hP.1.take hs hm', (probes_take hP.1.sound x.1 x.2).2 e hP.2 fun heq => ?_⟩
  exact hm x.2 (by rw [heq]; exact hm')

/-- A packet of the window that the frame newly acknowledges: a regular one, or the placeholder of an outstanding
probe. -/
def NewlyAcks (history : SentPacketHistory) (ack : AckFrame) : Prop :=
  ∃ x ∈ history.tracked, ack.acksPacket x.1 = true ∧
    (x.2.isPathProbePacket = true → ∃ p, (x.1, p) ∈ history.pathProbePackets)

theorem acksPacket_of_newlyAcked : ∀ x ∈ (newlyAcked history ack).acked, ack.acksPacket x.1 = true := by
  rw [newlyAcked_eq]
  refine foldlRecOn (motive := fun s : Scan => ∀ x ∈ s.acked, ack.acksPacket x.1 = true) _ _
    (fun x hx => by cases hx) fun s hP e he x hx => ?_
  obtain ⟨pn, p⟩ := e
  have hc : ack.acksPacket pn = true := (mem_filter.mp he).2
  unfold Scan.take at hx
  split at hx
  · split at hx
    · exact forall_mem_append.mpr ⟨hP, forall_mem_singleton.mpr hc⟩ x hx
    · exact hP x hx
  exact forall_mem_append.mpr ⟨hP, forall_mem_singleton.mpr hc⟩ x hx

/-- The search finds something exactly when there is something. -/
theorem newlyAcked_ne_nil (hs : history.Sound) :
    (newlyAcked history ack).acked ≠ [] ↔ NewlyAcks history ack := by
  constructor
  · intro hne
    obtain ⟨x, hx⟩ := exists_mem_of_ne_nil _ hne
    have hc := acksPacket_of_newlyAcked x hx
    have hok := newlyAcked_books hs ack
    rcases hok.found x hx with ⟨hm, hp⟩ | ⟨hp, -, hm⟩
    · exact ⟨x, hm, hc, fun hp' => by rw [hp] at hp'; cases hp'⟩
    · exact ⟨_, hm, hc, fun _ => ⟨x.2, hok.outstanding x hx hp⟩⟩
  rintro ⟨x, hm, hc, hprobe⟩
  cases hp : x.2.isPathProbePacket with
  | true =>
    obtain ⟨p, hpm⟩ := hprobe hp
    have hx : x = (x.1, probePlaceholder) := by rw [← hs.placeholder x hm hp]
    exact ne_nil_of_mem (newlyAcked_probe (e := (x.1, p)) hs hpm (by rw [← hx]; exact hm) hc).1
  | false =>
    refine ne_nil_of_mem (newlyAcked_takes (P := fun _ => True) (Q := fun s => x ∈ s.acked)
      (show (x.1, x.2) ∈ _ from hm) hc trivial (fun _ _ _ _ _ _ => trivial) ?_ ?_)
    · intro s _
      unfold Scan.take
      rw [if_neg (by rw [hp]; simp)]
      exact mem_append_right _ (mem_singleton_self x)
    · exact fun s pn' p _ _ hQ => acked_subset_take s pn' p hQ

/-! ## What happens to the probes in the rest of the call -/

theorem mem_frameCallbacks (call : Nat → Nat → Callback) {p : Packet} {hd f : Nat} (hm : (hd, f) ∈ p.labels) :
    call hd f ∈ frameCallbacks call p := by
  obtain ⟨fr, hfr, hl⟩ := mem_filterMap.mp (Multiset.mem_coe.mp hm)
  obtain ⟨hd', hh, heq⟩ := map_eq_some_iff.mp hl
  cases heq
  exact mem_filterMap.mpr ⟨fr, hfr, by rw [hh]; rfl⟩

/-- The outstanding probes stay, and what was reported stays reported. -/
structure Follows (h h' : Handler C E) : Prop where
  probes : h'.appDataPackets.history.pathProbePackets = h.appDataPackets.history.pathProbePackets
  callbacks : h.callbacks ⊆ h'.callbacks

variable {h h' h'' : Handler C E} {A : SendAlgorithm C} {ecn : EcnHandler E} {enc : EncryptionLevel}
  {sp sp' : PacketNumberSpace} {p : Packet}

theorem Follows.refl (h : Handler C E) : Follows h h := ⟨rfl, fun _ hc => hc⟩

theorem Follows.trans (h1 : Follows h h') (h2 : Follows h' h'') : Follows h h'' :=
  ⟨h2.probes.trans h1.probes, fun _ hc => h2.callbacks (h1.callbacks hc)⟩

theorem SameBooks.follows (hs : SameBooks h h') : Follows h h' := by
  refine ⟨?_, by rw [hs.callbacks]; exact fun _ hc => hc⟩
  rw [show h'.appDataPackets = h.appDataPackets from some.inj (congrFun hs.space .appData)]

theorem follows_setSpace (hsp : h.getPacketNumberSpace enc = some sp)
    (hp : sp'.history.pathProbePackets = sp.history.pathProbePackets) : Follows h (h.setSpace enc sp') := by
  refine ⟨?_, by rw [callbacks_setSpace]; exact fun _ hc => hc⟩
  cases enc with
  | initial | handshake => rfl
  | zeroRTT | oneRTT =>
    rw [show h.appDataPackets = sp from some.inj hsp]
    exact hp

theorem follows_removeFromBytesInFlight (hs : h.removeFromBytesInFlight p = some h') : Follows h h' := by
  rw [removeFromBytesInFlight_some hs]
  exact ⟨rfl, fun _ hc => hc⟩

theorem follows_queueFrames (hs : h.queueFramesForRetransmission p = some h') : Follows h h' := by
  rw [queueFrames_some hs]
  exact ⟨rfl, subset_append_left _ _⟩

variable {prior : Nat}

theorem follows_reportLost (hs : reportLost A ecn enc prior pn p h = some h') : Follows h h' := by
  unfold reportLost at hs
  split at hs
  · obtain ⟨h1, h1s, hs⟩ := bind_eq_some_iff.mp hs
    obtain ⟨h2, h2s, hs⟩ := bind_eq_some_iff.mp hs
    have hf := (follows_removeFromBytesInFlight h1s).trans (follows_queueFrames h2s)
    cases hs
    exact hf.trans ⟨rfl, fun _ hc => hc⟩
  · cases hs
    exact .refl h

theorem follows_losePacket (hw : Wf h) (hs : losePacket A ecn enc prior pn p h = some h') : Follows h h' := by
  obtain ⟨sp, hsp, hs⟩ := bind_eq_some_iff.mp hs
  obtain ⟨history, hd, hs⟩ := bind_eq_some_iff.mp hs
  have hc := (hw enc.space sp (space_of_get hsp)).1
  have hset : Follows h (h.setSpace enc { sp with history }) :=
    follows_setSpace hsp (declareLost_spec hc hd).2.2
  have hlost : ∀ lostPackets, Follows (h.setSpace enc { sp with history })
      { h.setSpace enc { sp with history } with lostPackets } := fun _ => ⟨rfl, fun _ hc => hc⟩
  exact hset.trans ((hlost _).trans (follows_reportLost hs))

variable {now rcvTime : Int} {l : List (Int × Packet)}

theorem follows_detectLost {delay : Int} (hw : Wf h)
    (hs : detectLost A ecn enc delay now prior l h = some h') : Follows h h' := by
  induction l generalizing h with
  | nil =>
    rw [← some.inj hs]
    exact .refl h
  | cons x l ih =>
    obtain ⟨sp, hsp, hs⟩ := bind_eq_some_iff.mp hs
    split at hs
    · rw [← some.inj hs]
      exact .refl h
    split at hs
    · obtain ⟨h1, h1s, hs⟩ := bind_eq_some_iff.mp hs
      exact (follows_losePacket hw h1s).trans (ih (losePacket_spec hw hsp h1s).1.wf hs)
    have hspace := hw enc.space sp (space_of_get hsp)
    have hset : ∀ lossTime, Follows h (h.setSpace enc { sp with lossTime }) := fun _ =>
      follows_setSpace hsp rfl
    have hwset : ∀ lossTime, Wf (h.setSpace enc { sp with lossTime }) := fun _ =>
      wf_setSpace hw enc hspace.1 hspace.2
    exact (hset _).trans (ih (hwset _) hs)

theorem follows_detectLostPackets (hw : Wf h) (hs : detectLostPackets A ecn h now enc = some h') : Follows h h' := by
  obtain ⟨sp, hsp, hs⟩ := bind_eq_some_iff.mp hs
  have hspace := hw enc.space sp (space_of_get hsp)
  have hset : Follows h (h.setSpace enc { sp with lossTime := 0 }) := follows_setSpace hsp rfl
  exact hset.trans (follows_detectLost (wf_setSpace hw enc hspace.1 hspace.2) hs)

/-- All packets found are reported as acknowledged. -/
theorem removeAcked_reports {r : Except AckError Unit} (hw : Wf h)
    (hs : removeAcked enc l h = some (r, h')) :
    Follows h h' ∧ (r = .ok () → ∀ e ∈ l, ∀ hd f, (hd, f) ∈ e.2.labels → onAcked hd f ∈ h'.callbacks) := by
  induction l generalizing h r with
  | nil =>
    cases hs
    exact ⟨.refl _, fun _ e he => by cases he⟩
  | cons x l ih =>
    obtain ⟨pn, p⟩ := x
    obtain ⟨sp, hsp, hs⟩ := bind_eq_some_iff.mp hs
    obtain ⟨r', hr, hs⟩ := bind_eq_some_iff.mp hs
    -- the callbacks come first
    generalize hh0 : ({ h with callbacks := _ } : Handler C E) = h0 at hsp hs
    have hf0 : Follows h h0 := by
      rw [← hh0]
      exact ⟨rfl, fun _ hc => mem_append_left _ (mem_append_left _ hc)⟩
    have hw0 : Wf h0 := by rw [← hh0]; exact hw
    have hacked : ∀ hd f, (hd, f) ∈ p.labels → onAcked hd f ∈ h0.callbacks := by
      intro hd f hm
      rw [← hh0]
      exact mem_append_right _ (mem_frameCallbacks .onAcked hm)
    cases r' with
    | error err =>
      cases hs
      exact ⟨hf0, fun hr => by cases hr⟩
    | ok history =>
      have hspace := hw0 enc.space sp (space_of_get hsp)
      obtain ⟨hc, -, hpr⟩ := remove_spec hspace.1 hr
      have hset : Follows h0 (h0.setSpace enc { sp with history }) := follows_setSpace hsp hpr
      have hw1 : Wf (h0.setSpace enc { sp with history }) :=
        wf_setSpace hw0 enc hc fun e he => hspace.2 e (by rw [← hpr]; exact he)
      obtain ⟨hf, hall⟩ := ih hw1 hs
      refine ⟨hf0.trans (hset.trans hf), fun hok => forall_mem_cons.mpr ⟨fun hd f hm => ?_, hall hok⟩⟩
      exact (hset.trans hf).callbacks (hacked hd f hm)

/-- Probes are lost by their numbers. -/
theorem loseProbes_spec (hsound : h.appDataPackets.history.Sound)
    (hs : loseProbes l h = some h') : (∀ x, x ∈ h'.appDataPackets.history.pathProbePackets ↔
      x ∈ h.appDataPackets.history.pathProbePackets ∧ ∀ y ∈ l, x.1 ≠ y.1) ∧
    h.callbacks ⊆ h'.callbacks ∧ ∀ hd f, onAcked hd f ∈ h'.callbacks → onAcked hd f ∈ h.callbacks := by
  induction l generalizing h with
  | nil =>
    cases hs
    exact ⟨fun x => by simp, fun _ hc => hc, fun _ _ hc => hc⟩
  | cons y l ih =>
    obtain ⟨pn, p⟩ := y
    unfold loseProbes at hs
    split at hs
    · cases hs
    -- the probe, if it is still there, is the only one with its number
    have hrem : (h.appDataPackets.history.removePathProbe pn).2.Sound ∧ ∀ x,
        x ∈ (h.appDataPackets.history.removePathProbe pn).2.pathProbePackets ↔
          x ∈ h.appDataPackets.history.pathProbePackets ∧ x.1 ≠ pn := by
      rcases hsound.removePathProbe pn with ⟨-, heq, hno⟩ | ⟨q, -, -, heq⟩
      · rw [heq]
        exact ⟨hsound, fun x => ⟨fun hx => ⟨hx, hno x hx⟩, fun hx => hx.1⟩⟩
      rw [heq]
      exact ⟨hsound.withProbes filter_sublist, fun x => mem_filter_ne⟩
    obtain ⟨hpr, hsub, hcb⟩ := ih hrem.1 hs
    refine ⟨fun x => ?_, fun c hc => hsub (mem_append_left _ hc), fun hd f hc => ?_⟩
    · rw [hpr, forall_mem_cons, ← and_assoc]
      exact and_congr_left fun _ => hrem.2 x
    rcases mem_append.mp (hcb hd f hc) with hc' | hc'
    · exact hc'
    obtain ⟨f', -, hf'⟩ := mem_filterMap.mp hc'
    obtain ⟨hd', -, heq⟩ := map_eq_some_iff.mp hf'
    cases heq

/-- The probes whose time is up are removed. -/
theorem detectLostPathProbes_spec (hsound : h.appDataPackets.history.Sound)
    (hs : h.detectLostPathProbes now = some h') :
    (∀ x, x ∈ h'.appDataPackets.history.pathProbePackets ↔
      x ∈ h.appDataPackets.history.pathProbePackets ∧ ¬ x.2.sendTime ≤ now - pathProbePacketLossTimeout) ∧
    h.callbacks ⊆ h'.callbacks ∧ ∀ hd f, onAcked hd f ∈ h'.callbacks → onAcked hd f ∈ h.callbacks := by
  obtain ⟨hpr, hsub, hcb⟩ := loseProbes_spec hsound hs
  refine ⟨fun x => ?_, hsub, hcb⟩
  rw [hpr]
  refine and_congr_right fun hx => ⟨fun hno hle => ?_, fun hlt y hy heq => ?_⟩
  · exact hno x (mem_filter.mpr ⟨hx, by simpa using hle⟩) rfl
  obtain ⟨hy, hle⟩ := mem_filter.mp hy
  have hxy : x.2 = y.2 := eq_of_sorted hsound.probes_sorted hx (by rw [heq]; exact hy)
  rw [← hxy] at hle
  exact hlt (by simpa using hle)

/-- The packets found leave the history and are reported. -/
theorem detectAndRemove_course {b : Nat} {acked : List (Int × Packet)} {elicits : Bool} (hb : Books False sent h b m)
    (hs : h.detectAndRemoveAckedPackets ack .oneRTT = some (.ok (acked, elicits), h')) :
    acked = (newlyAcked h.appDataPackets.history ack).acked ∧
      h'.appDataPackets.history.pathProbePackets =
        (newlyAcked h.appDataPackets.history ack).history.pathProbePackets ∧
      ∀ e ∈ (newlyAcked h.appDataPackets.history ack).acked, ∀ hd f, (hd, f) ∈ e.2.labels →
        onAcked hd f ∈ h'.callbacks := by
  unfold detectAndRemoveAckedPackets at hs
  split at hs
  · cases hs
  obtain ⟨sp, hsp, hs⟩ := bind_eq_some_iff.mp hs
  cases hsp
  split at hs
  · cases hs
  have hsound := (newlyAcked_books (hb.sound .appData _ rfl) ack).sound
  simp only at hs
  generalize newlyAcked h.appDataPackets.history ack = scan at hs hsound
  split at hs
  · cases hs
  obtain ⟨⟨r', h1⟩, h1s, hs⟩ := bind_eq_some_iff.mp hs
  have hw : Wf { h.setSpace .oneRTT { h.appDataPackets with history := scan.history } with
      ackedPackets := scan.acked } :=
    Sound.wf (hb.sound.setSpace hsound : (h.setSpace .oneRTT
      { h.appDataPackets with history := scan.history }).Sound)
  obtain ⟨hf, hall⟩ := removeAcked_reports hw h1s
  cases r' with
  | error e => cases hs
  | ok =>
    cases hs
    exact ⟨rfl, hf.probes, hall rfl⟩

theorem processAcked_course {b : Nat} {acked : List (Int × Packet)} {elicits r : Bool}
    (hb : Books False sent h b m) (henc : enc = .oneRTT)
    (hs : processAcked A ecn h ack enc rcvTime prior acked elicits = some (r, h')) :
    ∃ h4 h5 : Handler C E, ∃ b, Follows h h4 ∧ Books False sent h4 b m ∧
      h4.detectLostPathProbes rcvTime = some h5 ∧ Follows h5 h' ∧ h'.callbacks = h5.callbacks := by
  obtain ⟨h2, h4, h5, h6, sp, n, hsame, hsp, h4s, h5s, h6s, hlast⟩ := Books.processAcked_steps hs
  have hb3 : Books False sent (h2.setSpace enc { sp with largestAcked := n }) b m := (hb.same hsame).updateSpace hsp rfl
  have hf3 : Follows h2 (h2.setSpace enc { sp with largestAcked := n }) := follows_setSpace hsp rfl
  have hf4 := follows_detectLostPackets hb3.sound.wf h4s
  rw [if_pos henc] at h5s
  obtain ⟨hspace6, -, hcb6⟩ := ackPackets_spec h6s
  have happ := some.inj ((congrFun hlast.space .appData).trans (congrFun hspace6 .appData))
  have hcb := hlast.callbacks.trans hcb6
  exact ⟨h4, h5, b, hsame.follows.trans (hf3.trans hf4), hb3.detectLostPackets h4s, h5s,
    ⟨by rw [happ], by rw [hcb]; exact fun _ hc => hc⟩, hcb⟩

/-- The course of an ACK that is accepted: the packets found are removed and reported (`h1`), and if there are any,
lost packets are looked for (`h4`) and then lost path probes (`h5`). -/
theorem receivedAck_course {r : Bool} (hb : Books False sent h 0 m) (henc : enc = .oneRTT)
    (hs : h.receivedAck A ecn ack enc rcvTime = some (.ok r, h')) :
    ∃ h1 : Handler C E,
      h1.appDataPackets.history.pathProbePackets =
        (newlyAcked h.appDataPackets.history ack).history.pathProbePackets ∧
      (∀ e ∈ (newlyAcked h.appDataPackets.history ack).acked, ∀ hd f, (hd, f) ∈ e.2.labels →
        onAcked hd f ∈ h1.callbacks) ∧
      ((newlyAcked h.appDataPackets.history ack).acked = [] ∧ h' = h1 ∨
        (newlyAcked h.appDataPackets.history ack).acked ≠ [] ∧ ∃ h4 h5 : Handler C E, ∃ b, Follows h1 h4 ∧
          Books False sent h4 b m ∧ h4.detectLostPathProbes rcvTime = some h5 ∧ Follows h5 h' ∧
          h'.callbacks = h5.callbacks) := by
  obtain ⟨sp0, hsp0, hs⟩ := bind_eq_some_iff.mp hs
  split at hs
  · cases hs
  obtain ⟨⟨r', h1⟩, h1s, hs⟩ := bind_eq_some_iff.mp hs
  have hsame := (idle_completeAddressValidation h enc rcvTime).toSameBooks
  have hb0 := hb.same hsame
  have happ := some.inj (congrFun hsame.space .appData)
  generalize h.completeAddressValidation enc rcvTime = h0 at h1s hs hb0 happ
  have hb1 := hb0.detectAndRemoveAckedPackets h1s
  split at hs
  · cases hs
  · rename_i heq
    cases heq
    rw [henc] at h1s
    obtain ⟨hacked, hpr, hcb⟩ := detectAndRemove_course hb0 h1s
    rw [happ] at hacked hpr hcb
    cases hs
    exact ⟨_, hpr, hcb, Or.inl ⟨hacked.symm, rfl⟩⟩
  rename_i acked elicits h2 hne heq
  cases heq
  rw [henc] at h1s
  obtain ⟨hacked, hpr, hcb⟩ := detectAndRemove_course hb0 h1s
  rw [happ] at hacked hpr hcb
  obtain ⟨⟨b', h3⟩, h3s, hs⟩ := bind_eq_some_iff.mp hs
  cases hs
  refine ⟨_, hpr, hcb, Or.inr ⟨?_, processAcked_course hb1 henc h3s⟩⟩
  rw [← hacked]
  exact hne

/-! ## Recognised acknowledgements -/

/-- What the acknowledgement of an outstanding path probe should do: the probe is removed, and all its frames are
reported as acknowledged, none as lost. -/
structure Recognised (h' : Handler C E) (e : Int × Packet) : Prop where
  removed : ∀ p, (e.1, p) ∉ h'.appDataPackets.history.pathProbePackets
  acked : ∀ hd f, (hd, f) ∈ e.2.labels → onAcked hd f ∈ h'.callbacks
  not_lost : ∀ hd f, (hd, f) ∈ e.2.labels → Callback.onLost hd f ∉ h'.callbacks

/-- The probe has no frame to report, and its time is up while other packets are acknowledged. -/
def RemovedByTimer (h : Handler C E) (ack : AckFrame) (rcvTime : Int) (e : Int × Packet) : Prop :=
  e.2.labels = 0 ∧ e.2.sendTime ≤ rcvTime - pathProbePacketLossTimeout ∧ NewlyAcks h.appDataPackets.history ack

variable {sent m : Multiset Label} {rcvTime : Int} {r : Bool}

theorem held_of_probe {x : Label} (he : e ∈ h.appDataPackets.history.pathProbePackets) (hx : x ∈ e.2.labels) :
    x ∈ h.held := by
  exact Multiset.mem_add.mpr (Or.inr (Multiset.mem_add.mpr (Or.inr (mem_weight he hx))))

section

variable (hb : Books False sent h 0 m) (hs : h.receivedAck A ecn ack .oneRTT rcvTime = some (.ok r, h'))
  (he : e ∈ h.appDataPackets.history.pathProbePackets)
include hb hs he

theorem Books.recognised_of_placeholder (hn : sent.Nodup) (hc : ack.acksPacket e.1 = true)
    (hm : (e.1, probePlaceholder) ∈ h.tracked .appData) : Recognised h' e := by
  have hb' := hb.receivedAck hs
  obtain ⟨h1, hpr, hcb, hcase⟩ := receivedAck_course hb rfl hs
  obtain ⟨hacked, hgone⟩ := newlyAcked_probe (hb.sound .appData _ rfl) he hm hc
  -- the rest of the call keeps the reports and brings no probe back
  have hrest : h1.callbacks ⊆ h'.callbacks ∧ h'.appDataPackets.history.pathProbePackets ⊆
      h1.appDataPackets.history.pathProbePackets := by
    rcases hcase with ⟨-, rfl⟩ | ⟨-, h4, h5, b, hf4, hb4, h5s, hf5, -⟩
    · exact ⟨fun _ hc => hc, fun _ hp => hp⟩
    obtain ⟨hpr5, hsub5, -⟩ := detectLostPathProbes_spec (hb4.sound .appData _ rfl) h5s
    refine ⟨fun c hc => hf5.callbacks (hsub5 (hf4.callbacks hc)), fun x hx => ?_⟩
    rw [hf5.probes] at hx
    rw [← hf4.probes]
    exact ((hpr5 x).mp hx).1
  have hreport : ∀ hd f, (hd, f) ∈ e.2.labels → onAcked hd f ∈ h'.callbacks := fun hd f hx =>
    hrest.1 (hcb e hacked hd f hx)
  refine ⟨fun p hp => hgone p ?_, hreport, fun hd f hx => hb'.not_both hn (hreport hd f hx)⟩
  rw [← hpr]
  exact hrest.2 hp

/-- A probe that stays in the search stays outstanding, unless its time is up; then its frames are not reported as
acknowledged. -/
theorem Books.placeholder_of_recognised (hn : sent.Nodup) (hr : Recognised h' e) :
    (e.1, probePlaceholder) ∈ h.tracked .appData ∨ RemovedByTimer h ack rcvTime e := by
  have hsound := hb.sound .appData _ rfl
  obtain ⟨h1, hpr, -, hcase⟩ := receivedAck_course hb rfl hs
  by_cases hm : (e.1, probePlaceholder) ∈ h.tracked .appData
  · exact Or.inl hm
  right
  have hno : ∀ p, (e.1, p) ∉ h.appDataPackets.history.tracked := fun p hp => by
    rw [hsound.slot e he p hp] at hp
    exact hm hp
  have hkeep : e ∈ h1.appDataPackets.history.pathProbePackets := by
    rw [hpr]
    exact newlyAcked_keeps hsound he hno
  rcases hcase with ⟨-, rfl⟩ | ⟨hne, h4, h5, b, hf4, hb4, h5s, hf5, hcb5⟩
  · exact absurd hkeep (hr.removed e.2)
  rw [← hf4.probes] at hkeep
  obtain ⟨hpr5, -, hcb⟩ := detectLostPathProbes_spec (hb4.sound .appData _ rfl) h5s
  refine ⟨?_, ?_, (newlyAcked_ne_nil hsound).mp hne⟩
  · -- a frame of the probe is held until its time is up, and not acknowledged then
    by_contra hlabels
    obtain ⟨⟨hd, f⟩, hx⟩ := Multiset.exists_mem_of_ne_zero hlabels
    have hack := hr.acked hd f hx
    rw [hcb5] at hack
    refine hb4.not_fired hn (Multiset.mem_add.mpr (Or.inl (held_of_probe hkeep hx))) ?_
    exact mem_fired (hcb hd f hack)
  by_contra hlt
  have hx := (hpr5 e).mpr ⟨hkeep, hlt⟩
  rw [← hf5.probes] at hx
  exact hr.removed e.2 hx

/-- A probe whose time is up is removed by the timer if it was not acknowledged. -/
theorem Books.recognised_of_timer (ht : RemovedByTimer h ack rcvTime e) : Recognised h' e := by
  obtain ⟨hlabels, hle, hnew⟩ := ht
  have hsound := hb.sound .appData _ rfl
  obtain ⟨h1, hpr, -, hcase⟩ := receivedAck_course hb rfl hs
  refine ⟨fun p hp => ?_, fun hd f hx => ?_, fun hd f hx => ?_⟩
  · rcases hcase with ⟨hnil, -⟩ | ⟨-, h4, h5, b, hf4, hb4, h5s, hf5, -⟩
    · exact (newlyAcked_ne_nil hsound).mpr hnew hnil
    obtain ⟨hpr5, -, -⟩ := detectLostPathProbes_spec (hb4.sound .appData _ rfl) h5s
    rw [hf5.probes] at hp
    obtain ⟨hp4, hlt⟩ := (hpr5 _).mp hp
    rw [hf4.probes, hpr] at hp4
    -- the probe with the number is the one from before
    have hpe : p = e.2 := eq_of_sorted hsound.probes_sorted ((newlyAcked_books hsound ack).probes hp4) he
    rw [hpe] at hlt
    exact hlt hle
  · rw [hlabels] at hx
    cases Multiset.notMem_zero _ hx
  · rw [hlabels] at hx
    cases Multiset.notMem_zero _ hx

end

end Handler

section Run

variable (A : SendAlgorithm C) (ecn : EcnHandler E) (initialPN : Int) (rttStats : RTTStats) (validated : Bool)
  (ecnTracker : Option E) (ignore : Bool) (pers : Perspective) (congestion : C) (draw : Nat)

/-- In a run in which every frame is sent once: the ACK of an outstanding path probe is recognised exactly when its
placeholder has not been declared lost. -/
theorem probe_recognised_iff (ack : AckFrame) (rcvTime : Int) {calls : List Call} {h h' : Handler C E} {r : Bool}
    {e : Int × Packet} (hn : (sentLabels calls).Nodup) (hr : LTS.run (Handler.step A ecn)
      (newSentPacketHandler initialPN rttStats validated ecnTracker ignore pers congestion draw) calls = some h)
    (hs : h.receivedAck A ecn ack .oneRTT rcvTime = some (.ok r, h'))
    (he : e ∈ h.appDataPackets.history.pathProbePackets) (hc : ack.acksPacket e.1 = true) :
    h'.Recognised e ↔ (e.1, probePlaceholder) ∈ h.tracked .appData ∨
      h.RemovedByTimer ack rcvTime e := by
  have hb := books_run A ecn initialPN rttStats validated ecnTracker ignore pers congestion draw hr
  refine ⟨hb.placeholder_of_recognised hs he hn, fun hcond => ?_⟩
  rcases hcond with hm | ht
  · exact hb.recognised_of_placeholder hs he hn hc hm
  · exact hb.recognised_of_timer hs he ht

end Run

/-- A probe is sent after 50 ms, a packet after 90 ms. -/
def probing : List Call := [.sentPacket (probe 50000000 0), .sentPacket (ping 90000000 1 .oneRTT)]

/-- An ACK of the packets 0 and 1. -/
def ackBoth : AckFrame := { ackRanges := [⟨0, 1⟩], valid := rfl }

/-- An ACK of packet 1. -/
def ackOne : AckFrame := { ackRanges := [⟨1, 1⟩], valid := rfl }

theorem probe_recognised_iff_both : ∃ h h', LTS.run (Handler.step idle noECN) client probing = some h ∧
    h.receivedAck idle noECN ackBoth .oneRTT 100000000 = some (.ok true, h') ∧
    h'.Recognised (0, (probe 50000000 0).packet) := by
  refine ⟨_, _, rfl, rfl, (probe_recognised_iff idle noECN 0 {} true none false .client () 1000 ackBoth 100000000
    (show (sentLabels probing).Nodup by decide) rfl rfl ?_ rfl).mpr (Or.inl ?_)⟩
  · exact mem_singleton_self _
  · exact mem_cons_self

/-- The packet is acknowledged first: its ACK takes the placeholder of the probe for lost. The ACK of the probe,
70 ms after it was sent, is not recognised, and the frame of the probe is reported as lost in the end. -/
theorem probe_ack_not_recognised : ∃ h h' h'', LTS.run (Handler.step idle noECN) client
      (probing ++ [.receivedAck ackOne .oneRTT 100000000]) = some h ∧
    h.appDataPackets.history.pathProbePackets = [(0, (probe 50000000 0).packet)] ∧
    h.receivedAck idle noECN ackBoth .oneRTT 120000000 = some (.ok false, h') ∧
    h'.appDataPackets.history.pathProbePackets = [(0, (probe 50000000 0).packet)] ∧
    LTS.run (Handler.step idle noECN) h'
      [.dropPackets .handshake 130000000, .onLossDetectionTimeout 2000000000 0] = some h'' ∧
    h''.callbacks = [.onAcked 0 1, .onLost 0 0] :=
  ⟨_, _, _, rfl, rfl, rfl, rfl, rfl, rfl⟩

end MoqQuic.L3.Quic
