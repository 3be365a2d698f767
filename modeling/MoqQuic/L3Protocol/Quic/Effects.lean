import MoqQuic.L2Machine.Ackhandler.Accounts
import MoqQuic.L3Protocol.Quic.SentPacketHandler

/-!
# What the handler's methods do to the packets and the controller

For everything that is said about `sentPacketHandler` and its congestion
controller, two things of the state count: the packets each packet number space
tracks, and the state of the controller. This file says once for each method
what it does to them.

* `Quiet`: neither changes.
* `Keeps gone`: no packet is added, a packet that is no longer tracked meets
  `gone`, and the controller is told about congestion at most.
* `detectLostPackets_spec`, `onLossDetectionTimeout_spec`,
  `queueProbePacket_spec`, `dropPackets_spec`: which packets a loss, a timeout,
  a probe and a dropped space take away.
-/
namespace MoqQuic.L3.Quic

open L2 L2.Ackhandler L2.Congestion

/-- The packet number spaces. -/
inductive Space
  | initial
  | handshake
  | appData
  deriving DecidableEq, Repr

end MoqQuic.L3.Quic

/-- The space in which the packets of a level are numbered. -/
def MoqQuic.L2.EncryptionLevel.space : EncryptionLevel → MoqQuic.L3.Quic.Space
  | .initial => .initial
  | .handshake => .handshake
  | .zeroRTT | .oneRTT => .appData

namespace MoqQuic.L3.Quic

open L2 L2.Ackhandler L2.Congestion

variable {C E : Type}

/-- The frame a handler is told about. -/
def Callback.label : Callback → Option Label
  | .onAcked hd f => some (hd, f)
  | .onLost hd f => some (hd, f)
  | .ignorePacketsBelow _ => none

namespace Handler
open SentPacketHistory List
open Option

section Space

variable (h : Handler C E) (enc : EncryptionLevel) (sp : PacketNumberSpace)

def space : Space → Option PacketNumberSpace
  | .initial => h.initialPackets
  | .handshake => h.handshakePackets
  | .appData => some h.appDataPackets

/-- The packets of a space that were sent and neither acknowledged, declared lost nor dropped. -/
def tracked (s : Space) : List (Int × Packet) :=
  ((h.space s).map fun sp => sp.history.tracked).getD []

theorem tracked_pairwise (s : Space) : (h.tracked s).Pairwise fun e e' => e.1 < e'.1 := by
  unfold tracked
  cases h.space s with
  | none => exact List.Pairwise.nil
  | some sp => exact sp.history.tracked_pairwise

theorem getPacketNumberSpace_eq : h.getPacketNumberSpace enc = h.space enc.space := by
  cases enc <;> rfl

theorem space_setSpace : (h.setSpace enc sp).space = Function.update h.space enc.space (some sp) := by
  funext s
  cases enc <;> cases s <;> rfl

theorem getPacketNumberSpace_setSpace : (h.setSpace enc sp).getPacketNumberSpace enc = some sp := by
  rw [getPacketNumberSpace_eq, space_setSpace, Function.update_self]

@[simp] theorem congestion_setSpace : (h.setSpace enc sp).congestion = h.congestion := by
  cases enc <;> rfl

@[simp] theorem rttStats_setSpace : (h.setSpace enc sp).rttStats = h.rttStats := by
  cases enc <;> rfl

@[simp] theorem largestAckedTime_setSpace : (h.setSpace enc sp).largestAckedTime = h.largestAckedTime := by
  cases enc <;> rfl

theorem tracked_setSpace (s : Space) :
    (h.setSpace enc sp).tracked s = if s = enc.space then sp.history.tracked else h.tracked s := by
  unfold tracked
  rw [space_setSpace]
  split
  · rename_i he
    rw [he, Function.update_self]
    rfl
  · rename_i he
    rw [Function.update_of_ne he]

end Space

/-- Numbers are consecutive in every space, and path probes are not counted in flight. -/
def Wf (h : Handler C E) : Prop :=
  ∀ s sp, h.space s = some sp → sp.history.Consecutive ∧
    ∀ e ∈ sp.history.pathProbePackets, e.2.includedInBytesInFlight = false

variable {h h' h'' : Handler C E} {enc : EncryptionLevel} {sp sp' : PacketNumberSpace} {pn now : Int} {p : Packet}
  {l : List (Int × Packet)} {A : SendAlgorithm C} {ecn : EcnHandler E} {gone gone' : Space → Int → Packet → Prop}
  {prior draw : Nat} {err : Option String}

theorem space_of_get {o : Option PacketNumberSpace} (hsp : h.getPacketNumberSpace enc = o) : h.space enc.space = o :=
  (getPacketNumberSpace_eq h enc).symm.trans hsp

theorem tracked_of_space {s : Space} (hs : h.space s = some sp) : h.tracked s = sp.history.tracked := by
  rw [tracked, hs]; rfl

theorem wf_setSpace (hw : Wf h) (enc : EncryptionLevel) (hc : sp.history.Consecutive)
    (hp : ∀ e ∈ sp.history.pathProbePackets, e.2.includedInBytesInFlight = false) : Wf (h.setSpace enc sp) := by
  intro s sp' hs
  rw [space_setSpace] at hs
  by_cases he : s = enc.space
  · rw [he, Function.update_self] at hs
    cases hs
    exact ⟨hc, hp⟩
  · rw [Function.update_of_ne he] at hs
    exact hw s sp' hs

/-- A number is tracked at most once in a space. -/
theorem tracked_inj {s : Space} {p q : Packet} (hp : (pn, p) ∈ h.tracked s) (hq : (pn, q) ∈ h.tracked s) : p = q := by
  unfold tracked at hp hq
  cases hs : h.space s with
  | none => rw [hs] at hp; cases hp
  | some sp =>
    rw [hs] at hp hq
    exact Window.entries_inj hp hq

/-! ## Steps that leave packets and controller alone -/

/-- Neither the packet number spaces nor the controller change. -/
structure Quiet (h h' : Handler C E) : Prop where
  space : h'.space = h.space
  congestion : h'.congestion = h.congestion
  rttStats : h'.rttStats = h.rttStats
  largestAckedTime : h'.largestAckedTime = h.largestAckedTime

/-- Nothing changes that is booked. -/
structure SameBooks (h h' : Handler C E) : Prop where
  space : h'.space = h.space
  bytesInFlight : h'.bytesInFlight = h.bytesInFlight
  callbacks : h'.callbacks = h.callbacks

/-- Both at once. -/
structure Idle (h h' : Handler C E) : Prop extends Quiet h h', SameBooks h h'

theorem Quiet.refl (h : Handler C E) : Quiet h h := ⟨rfl, rfl, rfl, rfl⟩

theorem SameBooks.refl (h : Handler C E) : SameBooks h h := ⟨rfl, rfl, rfl⟩

theorem Idle.refl (h : Handler C E) : Idle h h := ⟨.refl h, rfl, rfl⟩

theorem SameBooks.trans (h1 : SameBooks h h') (h2 : SameBooks h' h'') : SameBooks h h'' :=
  ⟨h2.space.trans h1.space, h2.bytesInFlight.trans h1.bytesInFlight, h2.callbacks.trans h1.callbacks⟩

theorem Quiet.trans (h1 : Quiet h h') (h2 : Quiet h' h'') : Quiet h h'' :=
  ⟨h2.space.trans h1.space, h2.congestion.trans h1.congestion, h2.rttStats.trans h1.rttStats,
    h2.largestAckedTime.trans h1.largestAckedTime⟩

theorem Quiet.tracked (hq : Quiet h h') (s : Space) : h'.tracked s = h.tracked s := by
  rw [Handler.tracked, hq.space, Handler.tracked]

theorem Quiet.wf (hq : Quiet h h') (hw : Wf h) : Wf h' := by
  intro s sp hs
  rw [hq.space] at hs
  exact hw s sp hs

theorem quiet_setLossDetectionTimer (h : Handler C E) (now : Int) : Quiet h (h.setLossDetectionTimer now) :=
  ⟨rfl, rfl, rfl, rfl⟩

/-- The count after a packet was taken from it. -/
theorem removeFromBytesInFlight_eq (h : Handler C E) (p : Packet) : h.removeFromBytesInFlight p =
      if p.flight ≤ h.bytesInFlight then some { h with bytesInFlight := h.bytesInFlight - p.flight }
      else none := by
  unfold removeFromBytesInFlight Packet.flight
  cases hin : p.includedInBytesInFlight with
  | false => simp
  | true =>
    simp only [if_true]
    split
    · rw [if_neg (by omega)]
    · rw [if_pos (by omega)]

theorem removeFromBytesInFlight_some (hs : h.removeFromBytesInFlight p = some h') :
    h' = { h with bytesInFlight := h.bytesInFlight - p.flight } := by
  rw [removeFromBytesInFlight_eq] at hs
  split at hs
  · exact (some.inj hs).symm
  · cases hs

theorem quiet_removeFromBytesInFlight (hs : h.removeFromBytesInFlight p = some h') : Quiet h h' := by
  rw [removeFromBytesInFlight_some hs]
  exact ⟨rfl, rfl, rfl, rfl⟩

theorem removeAll_some (hs : h.removeAllFromBytesInFlight l = some h') :
    h' = { h with bytesInFlight := h.bytesInFlight - weight Packet.flight l } := by
  induction l generalizing h with
  | nil => exact (some.inj hs).symm
  | cons e l ih =>
    unfold removeAllFromBytesInFlight at hs
    obtain ⟨h1, h1s, hs⟩ := bind_eq_some_iff.mp hs
    rw [ih hs, removeFromBytesInFlight_some h1s, weight_cons]
    simp only [Nat.sub_sub]

theorem quiet_removeAllFromBytesInFlight (hs : h.removeAllFromBytesInFlight l = some h') : Quiet h h' := by
  rw [removeAll_some hs]
  exact ⟨rfl, rfl, rfl, rfl⟩

theorem queueFrames_some (hs : h.queueFramesForRetransmission p = some h') :
    h' = { h with callbacks := h.callbacks ++ frameCallbacks .onLost p } := by
  unfold queueFramesForRetransmission at hs
  split at hs
  · cases hs
  · exact (some.inj hs).symm

theorem quiet_queueFrames (hs : h.queueFramesForRetransmission p = some h') : Quiet h h' := by
  rw [queueFrames_some hs]
  exact ⟨rfl, rfl, rfl, rfl⟩

/-- The handlers called for a packet's frames are those of its labels. -/
theorem label_frameCallbacks (call : Nat → Nat → Callback) (hc : ∀ hd f, (call hd f).label = some (hd, f))
    (p : Packet) : (↑((frameCallbacks call p).filterMap Callback.label) : Multiset Label) = p.labels := by
  unfold frameCallbacks Packet.labels
  rw [filterMap_filterMap]
  congr 1
  refine filterMap_congr fun f _ => ?_
  cases hf : f.handler with
  | none => simp [Frame.label, hf]
  | some hd => simp [Frame.label, hf, hc]

theorem requeueAll_some (hs : h.requeueAll l = some h') :
    ∃ cs : List Callback, h' = { h with callbacks := h.callbacks ++ cs } ∧ (↑(cs.filterMap Callback.label) :
      Multiset Label) = weight Packet.labels l := by
  induction l generalizing h with
  | nil =>
    cases hs
    exact ⟨[], by simp, rfl⟩
  | cons e l ih =>
    unfold requeueAll at hs
    rw [foldlM_cons] at hs
    obtain ⟨h1, h1s, hs⟩ := bind_eq_some_iff.mp hs
    obtain ⟨cs, rfl, hcs⟩ := ih hs
    split at h1s
    · cases queueFrames_some h1s
      refine ⟨frameCallbacks .onLost e.2 ++ cs, by simp only [append_assoc], ?_⟩
      rw [filterMap_append, ← Multiset.coe_add, hcs, weight_cons, label_frameCallbacks .onLost (fun _ _ => rfl)]
    rename_i hne
    cases h1s
    refine ⟨cs, rfl, ?_⟩
    rw [hcs, weight_cons, Packet.labels_of_not_isAckEliciting (by simpa using hne), zero_add]

theorem quiet_requeueAll (hs : h.requeueAll l = some h') : Quiet h h' := by
  obtain ⟨cs, rfl, -⟩ := requeueAll_some hs
  exact ⟨rfl, rfl, rfl, rfl⟩

/-- At most the controller's budget is asked for. -/
theorem sendMode_cases (A : SendAlgorithm C) (h : Handler C E) (now : Int) : (h.sendMode A now).2 = h ∨
    (h.sendMode A now).2 = { h with congestion := (A.hasPacingBudget h.congestion now).2 } := by
  unfold sendMode
  simp only
  repeat' split
  all_goals first | exact .inl rfl | exact .inr rfl

theorem idle_receivedBytes (h : Handler C E) (n : Nat) (t : Int) : Idle h (h.receivedBytes n t) := by
  unfold receivedBytes
  simp only
  split <;> exact ⟨⟨rfl, rfl, rfl, rfl⟩, rfl, rfl⟩

theorem idle_receivedPacket (h : Handler C E) (enc : EncryptionLevel) (t : Int) : Idle h (h.receivedPacket enc t) := by
  unfold receivedPacket
  split <;> exact ⟨⟨rfl, rfl, rfl, rfl⟩, rfl, rfl⟩

theorem idle_completeAddressValidation (h : Handler C E) (enc : EncryptionLevel) (t : Int) :
    Idle h (h.completeAddressValidation enc t) := by
  unfold completeAddressValidation
  split <;> exact ⟨⟨rfl, rfl, rfl, rfl⟩, rfl, rfl⟩

theorem idle_ecnMode (ecn : EcnHandler E) (h : Handler C E) (short : Bool) : Idle h (h.ecnMode ecn short).2 := by
  unfold ecnMode
  split
  · exact .refl h
  split <;> exact ⟨⟨rfl, rfl, rfl, rfl⟩, rfl, rfl⟩

/-! ## Steps that take packets away -/

/-- No packet is added, one that is taken away meets `gone`, and the controller is told about
congestion at most. -/
structure Keeps (A : SendAlgorithm C) (gone : Space → Int → Packet → Prop) (h h' : Handler C E) : Prop where
  wf : Wf h'
  sub : ∀ s, h'.tracked s ⊆ h.tracked s
  kept : ∀ s e, e ∈ h.tracked s → e ∈ h'.tracked s ∨ gone s e.1 e.2
  relayed : Relayed A h.congestion h'.congestion

theorem Quiet.keeps (hq : Quiet h h') (hw : Wf h) : Keeps A gone h h' where
  wf := hq.wf hw
  sub s e he := by rwa [hq.tracked] at he
  kept s e he := by left; rwa [hq.tracked]
  relayed := by rw [hq.congestion]

theorem Keeps.refl (hw : Wf h) : Keeps A gone h h :=
  (Quiet.refl h).keeps hw

theorem Keeps.trans (h1 : Keeps A gone h h') (h2 : Keeps A gone h' h'') : Keeps A gone h h'' where
  wf := h2.wf
  sub s e he := h1.sub s (h2.sub s he)
  kept s e he := by
    rcases h1.kept s e he with hm | hg
    · exact h2.kept s e hm
    · exact Or.inr hg
  relayed := h1.relayed.trans h2.relayed

theorem Keeps.mono (hk : Keeps A gone h h')
    (hg : ∀ s pn p, (pn, p) ∈ h.tracked s → gone s pn p → gone' s pn p) : Keeps A gone' h h' :=
  { hk with kept := fun s e he => (hk.kept s e he).imp_right fun hgone => hg s e.1 e.2 he hgone }

section

variable (hw : Wf h) (hs : h.getPacketNumberSpace enc = some sp) (hc : sp'.history.Consecutive)
  (hpr : sp'.history.pathProbePackets ⊆ sp.history.pathProbePackets)
include hw hs hc hpr

/-- A space is replaced by one with the same or fewer packets. -/
theorem keeps_setSpace (hsub : sp'.history.tracked ⊆ sp.history.tracked)
    (hk : ∀ e ∈ sp.history.tracked, e ∈ sp'.history.tracked ∨ gone enc.space e.1 e.2) :
    Keeps A gone h (h.setSpace enc sp') := by
  rw [getPacketNumberSpace_eq] at hs
  refine ⟨wf_setSpace hw enc hc fun e hm => (hw _ sp hs).2 e (hpr hm), ?_, ?_, by
    rw [congestion_setSpace]⟩
  · intro s e hm
    rw [tracked_setSpace] at hm
    split at hm
    · rename_i he
      rw [he, tracked_of_space hs]
      exact hsub hm
    · exact hm
  intro s e hm
  rw [tracked_setSpace]
  split
  · rename_i he
    rw [he, tracked_of_space hs] at hm
    rw [he]
    exact hk e hm
  · exact Or.inl hm

/-- A space is replaced by one with the same packets. -/
theorem keeps_setSpace_same (ht : sp'.history.tracked = sp.history.tracked) : Keeps A gone h (h.setSpace enc sp') :=
  keeps_setSpace hw hs hc hpr (by rw [ht]; exact fun _ hm => hm) (fun e hm => by left; rwa [ht])

end

theorem mem_filter_ne {e : Int × Packet} : e ∈ l.filter (fun e => e.1 ≠ pn) ↔ e ∈ l ∧ e.1 ≠ pn := by
  simp [List.mem_filter]

/-- One number of a space is taken from its history. -/
theorem keeps_remove (hw : Wf h) {history : SentPacketHistory} (hs : h.getPacketNumberSpace enc = some sp)
    (hc : history.Consecutive) (ht : history.tracked = sp.history.tracked.filter (fun e => e.1 ≠ pn))
    (hpr : history.pathProbePackets = sp.history.pathProbePackets) :
    Keeps A (fun s q _ => s = enc.space ∧ q = pn) h (h.setSpace enc { sp with history }) := by
  refine keeps_setSpace hw hs hc (fun e hm => by rwa [hpr] at hm) (fun e hm => ?_) (fun e hm => ?_)
  · rw [ht] at hm
    exact (mem_filter_ne.mp hm).1
  rw [ht, mem_filter_ne]
  by_cases he : e.1 = pn
  · exact Or.inr ⟨rfl, he⟩
  · exact Or.inl ⟨hm, he⟩

/-- What the two loss thresholds depend on. -/
def SameThresholds (sp sp' : PacketNumberSpace) : Prop :=
  sp'.largestAcked = sp.largestAcked ∧ sp'.history.skippedPackets = sp.history.skippedPackets

theorem SameThresholds.packetLost (ht : SameThresholds sp sp') (delay now pn : Int) (p : Packet) :
    packetLost sp' delay now pn p = packetLost sp delay now pn p := by
  unfold Handler.packetLost SentPacketHistory.difference
  rw [ht.1, ht.2]

theorem Quiet.getPacketNumberSpace (hq : Quiet h h') (enc : EncryptionLevel) :
    h'.getPacketNumberSpace enc = h.getPacketNumberSpace enc := by
  rw [getPacketNumberSpace_eq, getPacketNumberSpace_eq, hq.space]

/-- Nothing is taken away by a report. -/
theorem reportLost_spec (hw : Wf h) (hs : reportLost A ecn enc prior pn p h = some h') :
    Keeps A gone h h' ∧ h'.space = h.space := by
  unfold reportLost at hs
  split at hs
  · obtain ⟨h1, h1s, hs⟩ := bind_eq_some_iff.mp hs
    obtain ⟨h2, h2s, hs⟩ := bind_eq_some_iff.mp hs
    have hq := (quiet_removeFromBytesInFlight h1s).trans (quiet_queueFrames h2s)
    have hk : Keeps A gone h2 h' := by
      cases hs
      refine ⟨hq.wf hw, fun _ _ he => he, fun _ _ he => Or.inl he, ?_⟩
      split
      · exact Relation.ReflTransGen.refl
      · exact Relation.ReflTransGen.single (.onCongestionEvent _ _ _ _)
    refine ⟨(hq.keeps hw).trans hk, ?_⟩
    rw [← hq.space, ← some.inj hs]
    rfl
  · cases hs
    exact ⟨.refl hw, rfl⟩

theorem keeps_declareLost {history : SentPacketHistory} (hw : Wf h) (hsp : h.getPacketNumberSpace enc = some sp)
    (hd : sp.history.declareLost pn = some history) :
    Keeps A (fun s q _ => s = enc.space ∧ q = pn) h (h.setSpace enc { sp with history }) := by
  obtain ⟨hc, ht, hpr⟩ :=
    declareLost_spec (hw enc.space sp (space_of_get hsp)).1 hd
  exact keeps_remove hw hsp hc ht hpr

/-- Exactly the packet itself is taken away. -/
theorem losePacket_spec (hw : Wf h) (hsp : h.getPacketNumberSpace enc = some sp)
    (hs : losePacket A ecn enc prior pn p h = some h') :
    Keeps A (fun s q _ => s = enc.space ∧ q = pn) h h' ∧
      ∃ sp', h'.getPacketNumberSpace enc = some sp' ∧ SameThresholds sp sp' := by
  obtain ⟨sp1, hsp1, hs⟩ := bind_eq_some_iff.mp hs
  cases hsp.symm.trans hsp1
  obtain ⟨history, hd, hs⟩ := bind_eq_some_iff.mp hs
  have hk := keeps_declareLost (A := A) hw hsp hd
  have hq : ∀ lostPackets, Quiet (h.setSpace enc { sp with history })
      { h.setSpace enc { sp with history } with lostPackets } := fun _ => ⟨rfl, rfl, rfl, rfl⟩
  obtain ⟨hk', hsp'⟩ := reportLost_spec ((hq _).wf hk.wf) hs
  refine ⟨hk.trans (((hq _).keeps hk.wf).trans hk'), { sp with history }, ?_, rfl,
    declareLost_skippedPackets hd⟩
  rw [getPacketNumberSpace_eq, hsp', (hq _).space, ← getPacketNumberSpace_eq, getPacketNumberSpace_setSpace]

/-- The loop takes away exactly the packets, up to the largest acknowledged, that meet a threshold. -/
theorem detectLost_spec {delay now : Int}
    {sp : PacketNumberSpace} (hw : Wf h) (hsp : h.getPacketNumberSpace enc = some sp)
    (hs : detectLost A ecn enc delay now prior l h = some h') :
    Keeps A (fun s pn _ => s = enc.space ∧ ∃ p, (pn, p) ∈ l ∧ pn ≤ sp.largestAcked ∧ packetLost sp delay now pn
      p) h h' := by
  induction l generalizing h sp with
  | nil =>
    rw [← some.inj hs]
    exact .refl hw
  | cons e l ih =>
    obtain ⟨pn, p⟩ := e
    obtain ⟨sp1, hsp1, hs⟩ := bind_eq_some_iff.mp hs
    cases hsp.symm.trans hsp1
    split at hs
    · -- the break above the largest acknowledged number
      rw [← some.inj hs]
      exact .refl hw
    rename_i hle
    -- the thresholds do not change on the way, so the rest of the list is judged alike
    have rest : ∀ {h1 : Handler C E} {sp1 : PacketNumberSpace}, Wf h1 → SameThresholds sp sp1 →
        h1.getPacketNumberSpace enc = some sp1 → detectLost A ecn enc delay now prior l h1 = some h' →
        Keeps A (fun s q _ => s = enc.space ∧ ∃ p', (q, p') ∈ (pn, p) :: l ∧ q ≤ sp.largestAcked ∧
          packetLost sp delay now q p') h1 h' := by
      intro h1 sp1 hw1 hth hsp1 hs1
      refine (ih hw1 hsp1 hs1).mono ?_
      rintro s q _ - ⟨hsq, p', hm, hq, hlost⟩
      rw [hth.packetLost] at hlost
      exact ⟨hsq, p', List.mem_cons_of_mem _ hm, by rw [← hth.1]; exact hq, hlost⟩
    split at hs
    · rename_i hlost
      obtain ⟨h1, h1s, hs⟩ := bind_eq_some_iff.mp hs
      obtain ⟨hk, sp1, hsp1, hth⟩ := losePacket_spec hw hsp h1s
      refine (hk.mono ?_).trans (rest hk.wf hth hsp1 hs)
      rintro s q _ - ⟨hsq, rfl⟩
      exact ⟨hsq, p, List.mem_cons_self, Int.not_lt.mp hle, hlost⟩
    have hc := hw enc.space sp (space_of_get hsp)
    have hk : ∀ lossTime, Keeps A (fun s q _ => s = enc.space ∧ ∃ p', (q, p') ∈ (pn, p) :: l ∧
        q ≤ sp.largestAcked ∧ packetLost sp delay now q p') h (h.setSpace enc { sp with lossTime }) :=
      fun _ => keeps_setSpace_same hw hsp hc.1 (fun _ hm => hm) rfl
    refine (hk _).trans (rest (hk _).wf ?_ (getPacketNumberSpace_setSpace h enc _) hs)
    exact ⟨rfl, rfl⟩

theorem detectLostPackets_spec (hw : Wf h) (hsp : h.getPacketNumberSpace enc = some sp)
    (hs : detectLostPackets A ecn h now enc = some h') :
    Keeps A (fun s pn p => s = enc.space ∧ pn ≤ sp.largestAcked ∧
      packetLost sp (lossDelay h.rttStats) now pn p) h h' := by
  obtain ⟨sp1, hsp1, hs⟩ := bind_eq_some_iff.mp hs
  cases hsp.symm.trans hsp1
  have hspace := space_of_get hsp
  have hk : Keeps A (fun s pn p => s = enc.space ∧ pn ≤ sp.largestAcked ∧
      packetLost sp (lossDelay h.rttStats) now pn p) h (h.setSpace enc { sp with lossTime := 0 }) :=
    keeps_setSpace_same hw hsp (hw _ _ hspace).1 (fun _ hm => hm) rfl
  refine hk.trans ((detectLost_spec hk.wf (getPacketNumberSpace_setSpace h enc _) hs).mono ?_)
  rintro s pn p hm ⟨rfl, p', hp', hle, hlost⟩
  -- the packet judged and the packet tracked have one number, so they are the same
  have hpp : p = p' := tracked_inj (hk.sub _ hm) (by rw [tracked_of_space hspace]; exact hp')
  rw [hpp]
  exact ⟨rfl, hle, hlost⟩

/-- Only path probes are removed. -/
structure ProbesOnly (h h' : Handler C E) : Prop where
  initialPackets : h'.initialPackets = h.initialPackets
  handshakePackets : h'.handshakePackets = h.handshakePackets
  appDataPackets : ∃ probes, probes ⊆ h.appDataPackets.history.pathProbePackets ∧
    h'.appDataPackets = { h.appDataPackets with
      history := { h.appDataPackets.history with pathProbePackets := probes } }
  congestion : h'.congestion = h.congestion
  rttStats : h'.rttStats = h.rttStats

theorem ProbesOnly.refl (h : Handler C E) : ProbesOnly h h :=
  ⟨rfl, rfl, ⟨_, fun _ hm => hm, rfl⟩, rfl, rfl⟩

theorem ProbesOnly.keeps (hp : ProbesOnly h h') (hw : Wf h) : Keeps A gone h h' := by
  obtain ⟨probes, hsub, happ⟩ := hp.appDataPackets
  have htr : ∀ s, h'.tracked s = h.tracked s := by
    intro s
    unfold tracked
    cases s with
    | initial => simp only [space, hp.initialPackets]
    | handshake => simp only [space, hp.handshakePackets]
    | appData => simp only [space, happ]; rfl
  refine ⟨?_, fun s e he => by rwa [htr] at he, fun s e he => by left; rwa [htr], by rw [hp.congestion]⟩
  intro s sp hs
  cases s with
  | initial => exact hw .initial sp (by rw [← hs]; exact hp.initialPackets.symm)
  | handshake => exact hw .handshake sp (by rw [← hs]; exact hp.handshakePackets.symm)
  | appData =>
    have hsp := some.inj hs
    rw [happ] at hsp
    rw [← hsp]
    have hw' := hw .appData h.appDataPackets rfl
    exact ⟨hw'.1, fun e he => hw'.2 e (hsub he)⟩

theorem ProbesOnly.getLossTimeAndSpace (hp : ProbesOnly h h') : h'.getLossTimeAndSpace = h.getLossTimeAndSpace := by
  obtain ⟨probes, -, happ⟩ := hp.appDataPackets
  unfold Handler.getLossTimeAndSpace
  rw [hp.initialPackets, hp.handshakePackets, happ]

theorem ProbesOnly.sameThresholds (hp : ProbesOnly h h') (hs : h'.getPacketNumberSpace enc = some sp') :
    ∃ sp, h.getPacketNumberSpace enc = some sp ∧ SameThresholds sp sp' := by
  obtain ⟨probes, -, happ⟩ := hp.appDataPackets
  cases enc with
  | initial => exact ⟨sp', by rw [← hs]; exact hp.initialPackets.symm, rfl, rfl⟩
  | handshake => exact ⟨sp', by rw [← hs]; exact hp.handshakePackets.symm, rfl, rfl⟩
  | zeroRTT | oneRTT =>
    have hsp := some.inj hs
    rw [happ] at hsp
    exact ⟨h.appDataPackets, rfl, by rw [← hsp], by rw [← hsp]⟩

theorem probesOnly_loseProbes (hs : loseProbes l h = some h') :
    ProbesOnly h h' := by
  induction l generalizing h with
  | nil =>
    rw [← some.inj hs]
    exact ProbesOnly.refl h
  | cons e l ih =>
    unfold loseProbes at hs
    split at hs
    · cases hs
    obtain ⟨hi, hh, ⟨probes, hsub, happ⟩, hc, hr⟩ := ih hs
    -- `RemovePathProbe` changes nothing but the list of probes
    have hrem : (h.appDataPackets.history.removePathProbe e.1).2 = { h.appDataPackets.history with
        pathProbePackets := (h.appDataPackets.history.removePathProbe e.1).2.pathProbePackets } := by
      unfold SentPacketHistory.removePathProbe
      split <;> rfl
    refine ⟨hi, hh, ⟨probes, fun x hx => ?_, ?_⟩, hc, hr⟩
    · exact (removePathProbe_spec _ _).2.2.1 (hsub hx)
    · rw [happ, hrem]

theorem probesOnly_detectLostPathProbes (hs : h.detectLostPathProbes now = some h') : ProbesOnly h h' :=
  probesOnly_loseProbes hs

/-- The first outstanding packet, if there is one, is taken away. -/
theorem queueProbePacket_spec {queued : Bool} (hw : Wf h) (hs : h.queueProbePacket enc = some (queued, h')) :
    Keeps A (fun s pn _ => s = enc.space ∧ ∃ sp p, h.getPacketNumberSpace enc = some sp ∧
      sp.history.firstOutstanding = some (pn, p)) h h' := by
  obtain ⟨sp, hsp, hs⟩ := bind_eq_some_iff.mp hs
  split at hs
  · cases hs
    exact .refl hw
  rename_i pn p hfirst
  obtain ⟨history, hd, hs⟩ := bind_eq_some_iff.mp hs
  obtain ⟨h1, h1s, hs⟩ := bind_eq_some_iff.mp hs
  obtain ⟨h2, h2s, hs⟩ := bind_eq_some_iff.mp hs
  cases hs
  have hk := keeps_declareLost (A := A) hw hsp hd
  have hq := (quiet_removeFromBytesInFlight h1s).trans (quiet_queueFrames h2s)
  refine (hk.trans (hq.keeps hk.wf)).mono ?_
  rintro s q _ - ⟨hsq, rfl⟩
  exact ⟨hsq, sp, p, hsp, hfirst⟩

/-! ## Packet numbers and timeouts -/

theorem popPacketNumber_spec (hw : Wf h) (hs : h.popPacketNumber enc draw = some (pn, h')) : Keeps A gone h h' := by
  obtain ⟨sp, hsp, hs⟩ := bind_eq_some_iff.mp hs
  obtain ⟨history, hh, hs⟩ := bind_eq_some_iff.mp hs
  have hc := hw enc.space sp (space_of_get hsp)
  cases hs
  split at hh
  · obtain ⟨hc', ht, hpr⟩ := skippedPacket_spec hc.1 hh
    exact keeps_setSpace_same hw hsp hc' (fun e hm => by rwa [hpr] at hm) ht
  cases hh
  exact keeps_setSpace_same hw hsp hc.1 (fun _ hm => hm) rfl

/-- Only the counters of the probes change, or packet numbers are skipped as well. -/
theorem onPTO_cases (hs : h.onPTO now draw = some (err, h')) : ∃ ptoCount numProbesToSend ptoMode,
    h' = { h with ptoCount, numProbesToSend, ptoMode } ∨ ∃ pn h1 history,
      { h with ptoCount, numProbesToSend }.popPacketNumber .oneRTT draw = some (pn, h1) ∧
      h1.appDataPackets.history.skippedPacket pn = some history ∧
      h' = { h1.setSpace .oneRTT { h1.appDataPackets with history } with ptoMode } := by
  unfold onPTO ptoFired at hs
  split at hs
  · -- nothing in flight: only the counters and the mode change
    simp only at hs
    repeat' split at hs
    all_goals
      cases hs
      exact ⟨_, _, _, .inl rfl⟩
  simp only at hs
  split at hs
  · cases hs
    exact ⟨_, _, _, .inl rfl⟩
  obtain ⟨enc, -, hs⟩ := bind_eq_some_iff.mp hs
  obtain ⟨ps, -, hs⟩ := bind_eq_some_iff.mp hs
  split at hs
  · cases hs
    exact ⟨_, _, _, .inl rfl⟩
  split at hs
  case h_3 =>
    obtain ⟨⟨pn, h1⟩, h1s, hs⟩ := bind_eq_some_iff.mp hs
    obtain ⟨history, hh, hs⟩ := bind_eq_some_iff.mp hs
    cases hs
    exact ⟨_, _, _, .inr ⟨pn, h1, history, h1s, hh, rfl⟩⟩
  all_goals
    cases hs
    exact ⟨_, _, _, .inl rfl⟩

theorem onPTO_spec (hw : Wf h) (hs : h.onPTO now draw = some (err, h')) : Keeps A gone h h' := by
  obtain ⟨ptoCount, numProbesToSend, _, rfl | ⟨pn, h1, history, h1s, hh, rfl⟩⟩ := onPTO_cases hs
  · exact Quiet.keeps ⟨rfl, rfl, rfl, rfl⟩ hw
  have hq : Quiet h { h with ptoCount, numProbesToSend } := ⟨rfl, rfl, rfl, rfl⟩
  have hk1 : Keeps A gone h h1 := (hq.keeps hw).trans (popPacketNumber_spec (hq.wf hw) h1s)
  obtain ⟨hc, ht, hpr⟩ := skippedPacket_spec (hk1.wf .appData _ rfl).1 hh
  have hk2 : Keeps A gone h1 (h1.setSpace .oneRTT { h1.appDataPackets with history }) :=
    keeps_setSpace_same hk1.wf rfl hc (fun e hm => by rwa [hpr] at hm) ht
  exact hk1.trans (hk2.trans (Quiet.keeps ⟨rfl, rfl, rfl, rfl⟩ hk2.wf))

/-- The packets that meet a loss threshold when the timer fires at `now`. -/
def TimedOut (h : Handler C E) (now : Int) (s : Space) (pn : Int) (p : Packet) : Prop :=
  let (lossTime, enc) := h.getLossTimeAndSpace
  lossTime ≠ 0 ∧ s = enc.space ∧ ∃ sp, h.getPacketNumberSpace enc = some sp ∧
    pn ≤ sp.largestAcked ∧ packetLost sp (lossDelay h.rttStats) now pn p

theorem onLossDetectionTimeout_spec (hw : Wf h) (hs : h.onLossDetectionTimeout A ecn now draw = some (err, h')) :
    Keeps A (h.TimedOut now) h h' := by
  obtain ⟨h1, h1s, hs⟩ := bind_eq_some_iff.mp hs
  obtain ⟨⟨err', h2⟩, h2s, hs⟩ := bind_eq_some_iff.mp hs
  cases hs
  have hp : ProbesOnly h h1 := by
    split at h1s
    · exact probesOnly_detectLostPathProbes h1s
    cases h1s
    exact ProbesOnly.refl h
  have hk1 : Keeps A (h.TimedOut now) h h1 := hp.keeps hw
  have hk2 : Keeps A (h.TimedOut now) h1 h2 := by
    split at h2s
    · rename_i hne
      obtain ⟨h3, h3s, heq⟩ := map_eq_some_iff.mp h2s
      cases heq
      obtain ⟨sp', hsp', -⟩ := bind_eq_some_iff.mp h3s
      refine (detectLostPackets_spec hk1.wf hsp' h3s).mono ?_
      rintro s pn p - ⟨hsq, hle, hlost⟩
      obtain ⟨sp, hsp, hth⟩ := hp.sameThresholds hsp'
      rw [hp.getLossTimeAndSpace] at hne hsq hsp
      rw [hth.packetLost, hp.rttStats] at hlost
      rw [hth.1] at hle
      exact ⟨hne, hsq, sp, hsp, hle, hlost⟩
    · exact onPTO_spec hk1.wf h2s
  exact hk1.trans (hk2.trans ((quiet_setLossDetectionTimer h2 now).keeps hk2.wf))

/-! ## Dropped spaces -/

theorem quiet_afterDrop (h : Handler C E) (now : Int) : Quiet h (h.afterDrop now) := ⟨rfl, rfl, rfl, rfl⟩

/-- A step that touches one space only, and takes packets from it. -/
theorem keeps_of_space (hw : Wf h) (s : Space) (hc : h'.congestion = h.congestion)
    (hother : ∀ s', s' ≠ s → h'.space s' = h.space s') (hs : ∀ sp, h'.space s = some sp → sp.history = {}) :
    Keeps A (fun s' _ _ => s' = s) h h' := by
  have htr : ∀ s', s' ≠ s → h'.tracked s' = h.tracked s' := fun s' hne => by
    rw [tracked, hother s' hne, tracked]
  have hnil : h'.tracked s = [] := by
    unfold tracked
    cases hsp : h'.space s with
    | none => rfl
    | some sp =>
      show sp.history.tracked = []
      rw [hs sp hsp]
      rfl
  refine ⟨fun s' sp hsp => ?_, fun s' e he => ?_, fun s' e he => ?_, by rw [hc]⟩
  · by_cases hne : s' = s
    · rw [hne] at hsp
      rw [hs sp hsp]
      exact ⟨consecutive_new, fun e he => by cases he⟩
    · rw [hother s' hne] at hsp
      exact hw s' sp hsp
  · by_cases hne : s' = s
    · rw [hne, hnil] at he
      cases he
    · rwa [htr s' hne] at he
  by_cases hne : s' = s
  · exact Or.inr hne
  left
  rwa [htr s' hne]

/-- The 0-RTT packets at the front of the list are taken away. -/
theorem drop0RTT_spec (hw : Wf h) (hs : drop0RTT l h = some h') :
    Keeps A (fun s pn _ => s = .appData ∧ ∃ p, (pn, p) ∈ l ∧ p.encryptionLevel = some .zeroRTT) h h' := by
  induction l generalizing h with
  | nil =>
    rw [← some.inj hs]
    exact .refl hw
  | cons e l ih =>
    obtain ⟨pn, p⟩ := e
    unfold drop0RTT at hs
    split at hs
    · rw [← some.inj hs]
      exact .refl hw
    rename_i henc
    rw [not_not] at henc
    obtain ⟨h1, h1s, hs⟩ := bind_eq_some_iff.mp hs
    have hq := quiet_removeFromBytesInFlight h1s
    have rest : ∀ {h2 : Handler C E}, Wf h2 → drop0RTT l h2 = some h' →
        Keeps A (fun s q _ => s = .appData ∧ ∃ p', (q, p') ∈ (pn, p) :: l ∧
          p'.encryptionLevel = some .zeroRTT) h2 h' := fun hw2 h2s => by
      refine (ih hw2 h2s).mono ?_
      rintro s q _ - ⟨hsq, p', hm, hp'⟩
      exact ⟨hsq, p', List.mem_cons_of_mem _ hm, hp'⟩
    obtain ⟨r, hr, hs⟩ := bind_eq_some_iff.mp hs
    have hw1 := hq.wf hw
    refine (hq.keeps hw).trans ?_
    cases r with
    | error _ => exact rest hw1 hs
    | ok history =>
      obtain ⟨hc, ht, hpr⟩ := remove_spec (hw1 .appData _ rfl).1 hr
      have hk : Keeps A (fun s q _ => s = EncryptionLevel.oneRTT.space ∧ q = pn) h1
          (h1.setSpace .oneRTT { h1.appDataPackets with history }) := keeps_remove hw1 rfl hc ht hpr
      refine (hk.mono ?_).trans (rest hk.wf hs)
      rintro s q _ - ⟨hsq, rfl⟩
      exact ⟨hsq, p, List.mem_cons_self, henc⟩

/-- The packets of a dropped level. -/
def Dropped (enc : EncryptionLevel) (s : Space) (p : Packet) : Prop :=
  s = enc.space ∧ (enc = .zeroRTT → p.encryptionLevel = some .zeroRTT)

theorem dropPackets_spec (hw : Wf h) (hs : h.dropPackets enc now = some h') :
    Keeps A (fun s _ p => Dropped enc s p) h h' := by
  cases enc with
  | initial =>
    unfold dropPackets at hs
    simp only at hs
    split at hs
    · cases hs
      exact .refl hw
    obtain ⟨h1, h1s, hs⟩ := bind_eq_some_iff.mp hs
    have hq := quiet_removeAllFromBytesInFlight h1s
    have hk : Keeps A (fun s _ _ => s = .initial) h1 { h1 with initialPackets := none } :=
      keeps_of_space (hq.wf hw) .initial rfl (fun s hne => by cases s <;> first | rfl | exact absurd rfl hne)
        (fun sp hsp => by cases hsp)
    cases hs
    refine (hq.keeps hw).trans (((hk.trans ((quiet_afterDrop _ now).keeps hk.wf))).mono ?_)
    exact fun s _ _ _ hs => ⟨hs, fun he => by cases he⟩
  | handshake =>
    unfold dropPackets at hs
    simp only at hs
    have hq0 : Quiet h (if h.perspective = .client then { h with peerCompletedAddressValidation := true }
        else h) := by
      split
      · exact ⟨rfl, rfl, rfl, rfl⟩
      · exact Quiet.refl h
    refine (hq0.keeps hw).trans ?_
    split at hs
    · cases hs
      exact .refl (hq0.wf hw)
    obtain ⟨h1, h1s, hs⟩ := bind_eq_some_iff.mp hs
    have hq := quiet_removeAllFromBytesInFlight h1s
    have hk : Keeps A (fun s _ _ => s = .handshake) h1
        { h1 with handshakeConfirmed := true, handshakePackets := none } :=
      keeps_of_space (hq.wf (hq0.wf hw)) .handshake rfl
        (fun s hne => by cases s <;> first | rfl | exact absurd rfl hne) (fun sp hsp => by cases hsp)
    cases hs
    refine (hq.keeps (hq0.wf hw)).trans (((hk.trans ((quiet_afterDrop _ now).keeps hk.wf))).mono ?_)
    exact fun s _ _ _ hs => ⟨hs, fun he => by cases he⟩
  | zeroRTT =>
    obtain ⟨h1, h1s, hs⟩ := bind_eq_some_iff.mp hs
    cases hs
    have hk := drop0RTT_spec (A := A) hw h1s
    refine (hk.trans ((quiet_afterDrop h1 now).keeps hk.wf)).mono ?_
    rintro s pn p hm ⟨rfl, p', hp', henc⟩
    rw [tracked_inj hm hp']
    exact ⟨rfl, fun _ => henc⟩
  | oneRTT => cases hs

end Handler

end MoqQuic.L3.Quic
