import Mathlib.Algebra.Order.Group.Multiset
import Mathlib.Algebra.Order.Ring.Int
import MoqQuic.L2Machine.Ackhandler.History

/-!
# What a sent packet history accounts for

Two things of a packet are accounted for elsewhere: its length, which counts in
flight as long as the packet is tracked, and the frames whose handlers are to be
told about its fate, once. Both are a weight of the packet, summed over the
packets a history holds.

A path probe is held twice: the packet in `pathProbePackets`, and a placeholder
that weighs nothing in the window.

* `Sound`: what is true of every history a handler builds.
* `Sheds`: an operation takes one packet out of the window; `sheds_remove`,
  `sheds_declareLost`.
* `removeProbes_eq_nil`, `second_mem_removeProbes`: the loop that removes the
  path probes it ranges over clears one or two of them; of three or more, the
  second one stays.
-/
namespace MoqQuic.L2.Ackhandler
open Option
open List (pairwise_cons mem_cons mem_append mem_singleton forall_mem_append forall_mem_singleton)

/-- The total weight of some packets. -/
def weight {M : Type} [AddCommMonoid M] (w : Packet → M) (l : List (Int × Packet)) : M :=
  (l.map fun e => w e.2).sum

variable {l : List (Int × Packet)} {p : Packet}

section Weight

variable {M : Type} [AddCommMonoid M] (w : Packet → M)

@[simp] theorem weight_nil : weight w [] = 0 := rfl

@[simp] theorem weight_cons (e : Int × Packet) (l : List (Int × Packet)) :
    weight w (e :: l) = w e.2 + weight w l := by
  simp [weight]

@[simp] theorem weight_append (l l' : List (Int × Packet)) : weight w (l ++ l') = weight w l + weight w l' := by
  simp [weight]

/-- In a list without a second packet of the number, the packet is the difference. -/
theorem weight_filter_ne (hl : l.Pairwise fun e e' => e.1 < e'.1) {pn : Int}
    (hm : (pn, p) ∈ l) : weight w l = weight w (l.filter fun e => e.1 ≠ pn) + w p := by
  induction l with
  | nil => cases hm
  | cons e l ih =>
    obtain ⟨hhead, hl'⟩ := pairwise_cons.mp hl
    rcases mem_cons.mp hm with rfl | hm'
    · have hkeep : l.filter (fun e => e.1 ≠ pn) = l :=
        List.filter_eq_self.mpr fun e he => by simpa using Int.ne_of_gt (hhead e he)
      rw [List.filter_cons_of_neg (by simp), hkeep, weight_cons, add_comm]
    · have hne : e.1 ≠ pn := Int.ne_of_lt (hhead _ hm')
      rw [List.filter_cons_of_pos (by simpa using hne), weight_cons, weight_cons, ih hl' hm', add_assoc]

theorem weight_sublist {l l' : List (Int × Packet)} (hs : List.Sublist l l') : ∃ y, weight w l' = weight w l + y := by
  induction hs with
  | slnil => exact ⟨0, by simp⟩
  | cons e _ ih =>
    obtain ⟨y, hy⟩ := ih
    exact ⟨w e.2 + y, by rw [weight_cons, hy]; ac_rfl⟩
  | cons_cons e _ ih =>
    obtain ⟨y, hy⟩ := ih
    exact ⟨y, by rw [weight_cons, weight_cons, hy]; ac_rfl⟩

/-- A number stands in a sorted list once. -/
theorem eq_of_sorted (hl : l.Pairwise fun e e' => e.1 < e'.1) {pn : Int}
    {p q : Packet} (hp : (pn, p) ∈ l) (hq : (pn, q) ∈ l) : p = q := by
  induction l with
  | nil => cases hp
  | cons e l ih =>
    obtain ⟨hhead, hl'⟩ := pairwise_cons.mp hl
    rcases mem_cons.mp hp with rfl | hp' <;> rcases mem_cons.mp hq with hq' | hq'
    · exact (Prod.mk.inj hq').2.symm
    · exact absurd (hhead _ hq') (Int.lt_irrefl _)
    · rw [← hq'] at hhead
      exact absurd (hhead _ hp') (Int.lt_irrefl _)
    · exact ih hl' hp' hq'

end Weight

theorem mem_weight {α : Type} {w : Packet → Multiset α} {e : Int × Packet} (he : e ∈ l)
    {x : α} (hx : x ∈ w e.2) : x ∈ weight w l := by
  induction l with
  | nil => cases he
  | cons e' l ih =>
    rcases mem_cons.mp he with rfl | he'
    · exact Multiset.mem_add.mpr (Or.inl hx)
    · exact Multiset.mem_add.mpr (Or.inr (ih he'))

/-- What a packet counts in flight. -/
def Packet.flight (p : Packet) : Nat := if p.includedInBytesInFlight then p.length else 0

/-- A frame of a packet with the handler that is told about it, once. -/
abbrev Label := Nat × Nat

def Frame.label (f : Frame) : Option Label := f.handler.map fun hd => (hd, f.frame)

/-- The frames whose handlers are told about a packet's fate. -/
def Packet.labels (p : Packet) : Multiset Label :=
  ↑((p.frames ++ p.streamFrames).filterMap Frame.label)

theorem Packet.labels_of_not_isAckEliciting (hp : p.isAckEliciting = false) : p.labels = 0 := by
  unfold isAckEliciting at hp
  simp only [Bool.or_eq_false_iff, Bool.not_eq_false', List.isEmpty_iff] at hp
  simp [labels, hp]

/-- The labels of the stream frames come last. -/
theorem Packet.labels_eq (p : Packet) :
    p.labels = ↑(p.streamFrames.filterMap Frame.label) + { p with streamFrames := [] }.labels := by
  rw [labels, labels, List.filterMap_append, ← Multiset.coe_add, List.append_nil, add_comm]

/-- Whether a packet that is not a path probe counts in flight is decided when it is sent. -/
def Packet.Counted (p : Packet) : Prop :=
  p.includedInBytesInFlight = (!p.isPathProbePacket && p.isAckEliciting)

theorem Packet.Counted.flight_eq_zero (hc : p.Counted)
    (hp : (!p.isPathProbePacket && p.isAckEliciting) = false) : p.flight = 0 := by
  rw [Packet.flight, hc, hp]
  rfl

namespace SentPacketHistory

@[simp] theorem flight_probePlaceholder : probePlaceholder.flight = 0 := rfl

@[simp] theorem labels_probePlaceholder : probePlaceholder.labels = 0 := rfl

/-- The bytes of the packets that count in flight. -/
def flight (h : SentPacketHistory) : Nat := weight Packet.flight h.tracked

/-- The frames whose handlers are still to be told. -/
def held (h : SentPacketHistory) : Multiset Label :=
  weight Packet.labels h.tracked + weight Packet.labels h.pathProbePackets

/-- What holds of every history that is built by its operations. -/
structure Sound (h : SentPacketHistory) : Prop where
  consecutive : h.Consecutive
  counted : ∀ e ∈ h.tracked, e.2.Counted
  placeholder : ∀ e ∈ h.tracked, e.2.isPathProbePacket = true → e.2 = probePlaceholder
  probes : ∀ e ∈ h.pathProbePackets, e.2.isPathProbePacket = true ∧ e.2.Counted
  probes_sorted : h.pathProbePackets.Pairwise fun e e' => e.1 < e'.1
  probes_le : ∀ e ∈ h.pathProbePackets, 0 ≤ e.1 ∧ e.1 ≤ h.highestPacketNumber
  /-- The number of a path probe is tracked for its placeholder only. -/
  slot : ∀ e ∈ h.pathProbePackets, ∀ p, (e.1, p) ∈ h.tracked → p = probePlaceholder

theorem sound_new : Sound {} where
  consecutive := consecutive_new
  counted e he := by cases he
  placeholder e he := by cases he
  probes e he := by cases he
  probes_sorted := List.Pairwise.nil
  probes_le e he := by cases he
  slot e he := by cases he

variable {h h' : SentPacketHistory} {pn : Int} {p : Packet}

/-- Path probes do not count in flight. -/
theorem Sound.flight_eq (hs : h.Sound) : h.flight = weight Packet.flight (h.tracked ++ h.pathProbePackets) := by
  have hzero : ∀ l ⊆ h.pathProbePackets, weight Packet.flight l = 0 := by
    intro l
    induction l with
    | nil => exact fun _ => rfl
    | cons e l ih =>
      intro hsub
      obtain ⟨hm, hsub'⟩ := List.cons_subset.mp hsub
      obtain ⟨hprobe, hc⟩ := hs.probes e hm
      rw [weight_cons, ih hsub', hc.flight_eq_zero (by rw [hprobe]; rfl)]
  rw [weight_append, hzero _ (fun _ he => he), add_zero]
  rfl

theorem mem_of_firstOutstanding (hf : h.firstOutstanding = some (pn, p)) : (pn, p) ∈ h.tracked := by
  obtain ⟨-, hf⟩ := ite_none_right_eq_some.mp hf
  exact List.mem_of_find?_eq_some hf

/-- The window and the probes lose packets at most. -/
theorem Sound.shrink (hs : h.Sound) (hc : h'.Consecutive) (ht : h'.tracked ⊆ h.tracked)
    (hp : List.Sublist h'.pathProbePackets h.pathProbePackets)
    (hhi : h.highestPacketNumber ≤ h'.highestPacketNumber) : h'.Sound where
  consecutive := hc
  counted e he := hs.counted e (ht he)
  placeholder e he := hs.placeholder e (ht he)
  probes e he := hs.probes e (hp.subset he)
  probes_sorted := hs.probes_sorted.sublist hp
  probes_le e he := by
    obtain ⟨hlo, hle⟩ := hs.probes_le e (hp.subset he)
    exact ⟨hlo, by omega⟩
  slot e he p hm := hs.slot e (hp.subset he) p (ht hm)

/-! ## Sending -/

/-- A number that may be used next lies above all path probes. -/
theorem Sound.checkSequential (hs : h.Sound) (hc : h.checkSequentialPacketNumberUse pn = some h') :
    (∀ e ∈ h.pathProbePackets, e.1 < pn) ∧ h'.highestPacketNumber = pn := by
  unfold checkSequentialPacketNumberUse at hc
  split at hc
  · cases hc
  rename_i hseq
  cases hc
  refine ⟨fun e he => ?_, rfl⟩
  obtain ⟨hlo, hle⟩ := hs.probes_le e he
  have hpn : pn = h.highestPacketNumber + 1 := by
    by_contra hne
    exact hseq ⟨by show h.highestPacketNumber ≠ -1; omega, hne⟩
  omega

theorem Sound.skippedPacket (hs : h.Sound) (hk : h.skippedPacket pn = some h') :
    h'.Sound ∧ h'.flight = h.flight ∧ h'.held = h.held := by
  obtain ⟨hc, ht, hp⟩ := skippedPacket_spec hs.consecutive hk
  obtain ⟨h1, h1s, hk⟩ := bind_eq_some_iff.mp hk
  obtain ⟨hlt, hhi⟩ := hs.checkSequential h1s
  have hhi' : h'.highestPacketNumber = pn := some.inj hk ▸ hhi
  refine ⟨⟨hc, by rw [ht]; exact hs.counted, by rw [ht]; exact hs.placeholder, by rw [hp]; exact hs.probes,
    by rw [hp]; exact hs.probes_sorted, fun e he => ?_, by rw [ht, hp]; exact hs.slot⟩, ?_, ?_⟩
  · rw [hp] at he
    exact ⟨(hs.probes_le e he).1, hhi' ▸ (hlt e he).le⟩
  · rw [flight, ht, flight]
  · rw [held, ht, hp, held]

theorem Sound.sentPacket (hs : h.Sound) (hpn : 0 ≤ pn) (hp : p.Counted) (hprobe : p.isPathProbePacket = false)
    (hk : h.sentPacket pn p = some h') :
    h'.Sound ∧ h'.flight = h.flight + p.flight ∧ h'.held = h.held + p.labels := by
  obtain ⟨hc, ht, hpr⟩ := sentPacket_spec hs.consecutive hpn hk
  obtain ⟨h1, h1s, hk⟩ := bind_eq_some_iff.mp hk
  obtain ⟨hlt, hhi⟩ := hs.checkSequential h1s
  have hhi' : h'.highestPacketNumber = pn := some.inj hk ▸ hhi
  refine ⟨⟨hc, ?_, ?_, by rw [hpr]; exact hs.probes, by rw [hpr]; exact hs.probes_sorted, fun e he => ?_,
    fun e he q hq => ?_⟩, ?_, ?_⟩
  · rw [ht]
    exact forall_mem_append.mpr ⟨hs.counted, forall_mem_singleton.mpr hp⟩
  · rw [ht]
    exact forall_mem_append.mpr ⟨hs.placeholder, forall_mem_singleton.mpr (by simp [hprobe])⟩
  · rw [hpr] at he
    exact ⟨(hs.probes_le e he).1, hhi' ▸ (hlt e he).le⟩
  · rw [hpr] at he
    rw [ht] at hq
    rcases mem_append.mp hq with hm | hm
    · exact hs.slot e he q hm
    -- the new number is none of a path probe
    have hne := hlt e he
    have heq : e.1 = pn := congrArg Prod.fst (mem_singleton.mp hm)
    omega
  · simp [flight, ht]
  · simp only [held, ht, hpr, weight_append, weight_cons, weight_nil, add_zero]
    ac_rfl

theorem Sound.sentPathProbePacket (hs : h.Sound) (hpn : 0 ≤ pn) (hp : p.Counted)
    (hprobe : p.isPathProbePacket = true) (hk : h.sentPathProbePacket pn p = some h') :
    h'.Sound ∧ h'.flight = h.flight ∧ h'.held = h.held + p.labels := by
  obtain ⟨hc, ht, hpr⟩ := sentPathProbePacket_spec hs.consecutive hpn hk
  obtain ⟨h1, h1s, hk⟩ := bind_eq_some_iff.mp hk
  obtain ⟨hlt, hhi⟩ := hs.checkSequential h1s
  have hhi' : h'.highestPacketNumber = pn := some.inj hk ▸ hhi
  -- no packet of the window has the new number, since that lies at its end
  have hfresh : ∀ q, (pn, q) ∉ h.tracked := fun q hq => by
    have hsort := tracked_pairwise h'
    rw [ht] at hsort
    exact absurd ((List.pairwise_append.mp hsort).2.2 _ hq _ (List.mem_singleton_self _)) (by simp)
  refine ⟨⟨hc, ?_, ?_, ?_, ?_, ?_, fun e he q hq => ?_⟩, ?_, ?_⟩
  · rw [ht]
    exact forall_mem_append.mpr ⟨hs.counted, forall_mem_singleton.mpr rfl⟩
  · rw [ht]
    exact forall_mem_append.mpr ⟨hs.placeholder, forall_mem_singleton.mpr fun _ => rfl⟩
  · rw [hpr]
    exact forall_mem_append.mpr ⟨hs.probes, forall_mem_singleton.mpr ⟨hprobe, hp⟩⟩
  · rw [hpr]
    refine List.pairwise_append.mpr ⟨hs.probes_sorted, List.pairwise_singleton _ _, fun e he e' he' => ?_⟩
    rw [mem_singleton.mp he']
    exact hlt e he
  · rw [hpr, hhi']
    exact forall_mem_append.mpr ⟨fun e hm => ⟨(hs.probes_le e hm).1, Int.le_of_lt (hlt e hm)⟩,
      forall_mem_singleton.mpr ⟨hpn, le_rfl⟩⟩
  · rw [hpr] at he
    rw [ht] at hq
    rcases mem_append.mp he with hm | hm <;> rcases mem_append.mp hq with hm' | hm'
    · exact hs.slot e hm q hm'
    · exact (Prod.mk.inj (mem_singleton.mp hm')).2
    · rw [mem_singleton.mp hm] at hm'
      exact absurd hm' (hfresh q)
    · exact (Prod.mk.inj (mem_singleton.mp hm')).2
  · simp [flight, ht]
  · simp only [held, ht, hpr, weight_append, weight_cons, weight_nil, labels_probePlaceholder, add_zero]
    ac_rfl

/-! ## Packets that leave the window -/

/-- The packet of one number leaves the window, and that is all. -/
structure Sheds (h : SentPacketHistory) (pn : Int) (h' : SentPacketHistory) : Prop where
  consecutive : h'.Consecutive
  tracked : h'.tracked = h.tracked.filter (fun e => e.1 ≠ pn)
  probes : h'.pathProbePackets = h.pathProbePackets
  highest : h'.highestPacketNumber = h.highestPacketNumber

theorem clear_highestPacketNumber {idx : Nat} (hs : h.clear idx = some h') :
    h'.highestPacketNumber = h.highestPacketNumber := by
  obtain ⟨q, -, hs⟩ := bind_eq_some_iff.mp hs
  split at hs
  · cases hs
  · rw [← some.inj hs]

theorem sheds_declareLost (hc : h.Consecutive) (hs : h.declareLost pn = some h') : Sheds h pn h' := by
  obtain ⟨hc', ht, hp⟩ := declareLost_spec hc hs
  refine ⟨hc', ht, hp, ?_⟩
  unfold declareLost at hs
  split at hs
  · rw [← some.inj hs]
  obtain ⟨h1, h1s, hs⟩ := bind_eq_some_iff.mp hs
  rw [← some.inj hs, ← clear_highestPacketNumber h1s]
  split <;> rfl

theorem sheds_remove (hc : h.Consecutive) (hs : h.remove pn = some (.ok h')) : Sheds h pn h' := by
  obtain ⟨hc', ht, hp⟩ := remove_spec hc hs
  refine ⟨hc', ht, hp, ?_⟩
  unfold remove at hs
  split at hs
  · cases hs
  obtain ⟨h1, h1s, hs⟩ := bind_eq_some_iff.mp hs
  rw [← clear_highestPacketNumber h1s]
  simp only at hs
  split at hs <;> split at hs
  · cases hs
  · rw [← Except.ok.inj (some.inj hs)]
  · cases hs
  · rw [← Except.ok.inj (some.inj hs)]
    rfl

theorem Sheds.sound (hk : Sheds h pn h') (hs : h.Sound) : h'.Sound :=
  hs.shrink hk.consecutive (by rw [hk.tracked]; exact List.filter_sublist.subset)
    (by rw [hk.probes]) (by rw [hk.highest])

theorem Sheds.flight (hk : Sheds h pn h') (hm : (pn, p) ∈ h.tracked) : h.flight = h'.flight + p.flight := by
  rw [SentPacketHistory.flight, weight_filter_ne _ h.tracked_pairwise hm, ← hk.tracked]
  rfl

theorem Sheds.held (hk : Sheds h pn h') (hm : (pn, p) ∈ h.tracked) : h.held = h'.held + p.labels := by
  rw [SentPacketHistory.held, weight_filter_ne _ h.tracked_pairwise hm, ← hk.tracked, ← hk.probes, add_right_comm]
  rfl

/-! ## Path probes that leave -/

/-- The first entry with the number is the only one. -/
theorem eraseIdx_eq_filter (hl : l.Pairwise fun e e' => e.1 < e'.1)
    {i : Nat} (hi : l.findIdx? (fun e => e.1 == pn) = some i) :
    (∃ p, l[i]? = some (pn, p)) ∧ l.eraseIdx i = l.filter (fun e => e.1 ≠ pn) := by
  induction l generalizing i with
  | nil => cases hi
  | cons e l ih =>
    obtain ⟨hhead, hl'⟩ := pairwise_cons.mp hl
    rw [List.findIdx?_cons] at hi
    split at hi
    · rename_i he
      have heq : e.1 = pn := by simpa using he
      have hkeep : l.filter (fun e => e.1 ≠ pn) = l :=
        List.filter_eq_self.mpr fun x hx => by simpa using Int.ne_of_gt (heq ▸ hhead x hx)
      cases hi
      exact ⟨⟨e.2, by rw [← heq]; rfl⟩, by rw [List.eraseIdx_cons_zero, List.filter_cons_of_neg (by simp [heq]), hkeep]⟩
    rename_i he
    have hne : e.1 ≠ pn := by simpa using he
    obtain ⟨i', hi', rfl⟩ := map_eq_some_iff.mp hi
    obtain ⟨hget, herase⟩ := ih hl' hi'
    exact ⟨hget, by rw [List.eraseIdx_cons_succ, herase, List.filter_cons_of_pos (by simpa using hne)]⟩

/-- What `RemovePathProbe` does to a sound history. -/
theorem Sound.removePathProbe (hs : h.Sound) (pn : Int) :
    ((h.removePathProbe pn).1 = none ∧ (h.removePathProbe pn).2 = h ∧ ∀ e ∈ h.pathProbePackets, e.1 ≠ pn) ∨
      ∃ p, (h.removePathProbe pn).1 = some p ∧ (pn, p) ∈ h.pathProbePackets ∧ (h.removePathProbe pn).2 =
          { h with pathProbePackets := h.pathProbePackets.filter fun e => e.1 ≠ pn } := by
  unfold SentPacketHistory.removePathProbe
  cases hidx : h.pathProbePackets.findIdx? (fun e => e.1 == pn) with
  | none =>
    left
    refine ⟨rfl, rfl, fun e he => ?_⟩
    simpa using List.findIdx?_eq_none_iff.mp hidx e he
  | some i =>
    right
    obtain ⟨⟨p, hget⟩, herase⟩ := eraseIdx_eq_filter hs.probes_sorted hidx
    refine ⟨p, by simp [hget], List.mem_of_getElem? hget, ?_⟩
    simp only [herase]

/-- Fewer probes. -/
theorem Sound.withProbes (hs : h.Sound) {probes : List (Int × Packet)}
    (hp : List.Sublist probes h.pathProbePackets) : Sound { h with pathProbePackets := probes } :=
  hs.shrink hs.consecutive (fun _ he => he) hp le_rfl

/-- A probe is taken from the list. -/
theorem Sound.held_without (hs : h.Sound) (hm : (pn, p) ∈ h.pathProbePackets) :
    h.held = held { h with pathProbePackets := h.pathProbePackets.filter fun e => e.1 ≠ pn } + p.labels := by
  rw [held, weight_filter_ne _ hs.probes_sorted hm, ← add_assoc]
  rfl

/-! ## The loop that removes what it ranges over -/

theorem removeProbes_sublist (fuel i live : Nat) (array : List (Int × Packet)) (hlive : live ≤ array.length) :
    List.Sublist (removeProbes fuel i live array) (array.take live) := by
  induction fuel generalizing i live array with
  | zero => exact List.Sublist.refl _
  | succ fuel ih =>
    unfold removeProbes
    split
    · exact List.Sublist.refl _
    split
    · exact ih _ _ _ hlive
    rename_i idx hidx
    -- the first `live - 1` slots hold what is left
    have hlt : idx < (array.take live).length := (List.findIdx?_eq_some_iff_getElem.mp hidx).1
    have hlen : ((array.take live).eraseIdx idx).length = live - 1 := by
      rw [List.length_eraseIdx_of_lt hlt, List.length_take, Nat.min_eq_left hlive]
    refine (ih _ _ _ (by rw [List.length_append, hlen]; omega)).trans ?_
    rw [List.take_append_of_le_length (by omega)]
    exact (List.take_sublist _ _).trans (List.eraseIdx_sublist _ _)

/-- Two probes at most are all removed. -/
theorem removeProbes_eq_nil {probes : List (Int × Packet)} (hlen : probes.length ≤ 2) :
    removeProbes probes.length 0 probes.length probes = [] := by
  cases probes with
  | nil => rfl
  | cons e l =>
    cases l with
    | nil => simp [removeProbes]
    | cons e' l' =>
      have hnil : l' = [] := List.length_eq_zero_iff.mp (by simpa using hlen)
      simp [hnil, removeProbes, List.findIdx?_cons]

/-- Once the loop has passed the slot of a probe, only that number could bring it back to it. -/
theorem mem_removeProbes {e : Int × Packet} (fuel i live : Nat) (tail : List (Int × Packet))
    (hne : ∀ x ∈ tail, x.1 ≠ e.1) : e ∈ removeProbes fuel (i + 1) (live + 1) (e :: tail) := by
  induction fuel generalizing i live tail with
  | zero => exact List.mem_cons_self
  | succ fuel ih =>
    unfold removeProbes
    split
    · exact List.mem_cons_self
    rename_i pn p hget
    have hpn : e.1 ≠ pn := fun heq => hne (pn, p) (List.mem_of_getElem? hget) heq.symm
    rw [List.take_succ_cons, List.findIdx?_cons, if_neg (by simpa using hpn)]
    split
    · exact ih _ _ _ hne
    rename_i idx hidx
    obtain ⟨k, hk, rfl⟩ := map_eq_some_iff.mp hidx
    obtain ⟨hlt, -⟩ := List.findIdx?_eq_some_iff_getElem.mp hk
    obtain ⟨live', rfl⟩ : ∃ live', live = live' + 1 := ⟨live - 1, by rw [List.length_take] at hlt; omega⟩
    refine ih (i + 1) live' _ fun x hx => ?_
    rcases mem_append.mp hx with hx' | hx'
    · exact hne x (List.take_subset _ _ ((List.eraseIdx_sublist _ _).subset hx'))
    · exact hne x (List.drop_subset _ _ hx')

/-- Of three probes or more, the second one stays: its slot is passed while the first is removed. -/
theorem second_mem_removeProbes {a b c : Int × Packet} {rest : List (Int × Packet)}
    (hl : (a :: b :: c :: rest).Pairwise fun e e' => e.1 < e'.1) :
    b ∈ removeProbes (a :: b :: c :: rest).length 0 (a :: b :: c :: rest).length (a :: b :: c :: rest) := by
  obtain ⟨-, hl'⟩ := pairwise_cons.mp hl
  obtain ⟨hb, -⟩ := pairwise_cons.mp hl'
  have hfirst : ((a :: b :: c :: rest).take (a :: b :: c :: rest).length).findIdx? (fun e => e.1 == a.1) =
      some 0 := by
    simp [List.findIdx?_cons]
  -- the last slot of the array still holds the last probe
  have hlast : (a :: b :: c :: rest).drop (rest.length + 2) = (c :: rest).drop rest.length := rfl
  have hstep : removeProbes (a :: b :: c :: rest).length 0 (a :: b :: c :: rest).length (a :: b :: c :: rest) =
      removeProbes (rest.length + 2) 1 (rest.length + 2) (b :: (c :: rest ++ (c :: rest).drop rest.length)) := by
    conv => lhs; rw [show (a :: b :: c :: rest).length = rest.length + 2 + 1 from rfl, removeProbes]
    simp only [List.getElem?_cons_zero]
    rw [show rest.length + 2 + 1 = (a :: b :: c :: rest).length from rfl, hfirst]
    simp only [List.take_length]
    rfl
  rw [hstep]
  refine mem_removeProbes (rest.length + 2) 0 (rest.length + 1) _ fun x hx => ?_
  have hmem : x ∈ c :: rest := by
    rcases mem_append.mp hx with hx' | hx'
    · exact hx'
    · exact List.drop_subset _ _ hx'
  exact Int.ne_of_gt (hb x hmem)

/-- The probes are cleared exactly when there are two of them at most. -/
theorem Sound.removeRangedPathProbes (hs : h.Sound) :
    h.removeRangedPathProbes.pathProbePackets = [] ↔ h.pathProbePackets.length ≤ 2 := by
  constructor
  · intro hnil
    by_contra hlen
    obtain ⟨a, b, c, rest, heq⟩ : ∃ a b c rest, h.pathProbePackets = a :: b :: c :: rest := by
      match hp : h.pathProbePackets, hlen with
      | a :: b :: c :: rest, _ => exact ⟨a, b, c, rest, rfl⟩
      | [], hlen => exact absurd (by simp) hlen
      | [_], hlen => exact absurd (by simp) hlen
      | [_, _], hlen => exact absurd (by simp) hlen
    have hb := second_mem_removeProbes (heq ▸ hs.probes_sorted)
    rw [← heq] at hb
    rw [show removeProbes _ 0 _ h.pathProbePackets = [] from hnil] at hb
    cases hb
  · exact removeProbes_eq_nil

end SentPacketHistory

end MoqQuic.L2.Ackhandler
