import MoqQuic.Core.Window
import MoqQuic.L2Machine.Protocol

/-!
# Sent packet history

Model of `internal/ackhandler/packet.go` and `sent_packet_history.go`: one
history per packet number space, a slice of packet pointers that starts at
`firstPacketNumber` and in which a packet that was skipped, acknowledged or
declared lost is a nil pointer. The slice is a sparse window (`Window`). A
panic, also the one of a nil dereference, is `none`.

Results:
* `sentPacket_spec`, `sentPathProbePacket_spec`, `skippedPacket_spec`,
  `remove_spec`, `declareLost_spec`: what each operation does to the packets
  that are tracked, and that numbers stay consecutive (`Consecutive`).

Line numbers without a file are those of `sent_packet_history.go`.
-/
namespace MoqQuic.L2.Ackhandler

open Window Option

/-- A frame and the handler to be told about its fate, if there is one.
mirrors frame.go:13-21 -/
structure Frame where
  frame : Nat
  handler : Option Nat
  deriving DecidableEq, Repr

/-- The default values are those of `getPacket`; no encryption level is Go's zero value.
mirrors packet.go:16-28 -/
structure Packet where
  sendTime : Int := 0
  streamFrames : List Frame := []
  frames : List Frame := []
  largestAcked : Int := 0
  length : Nat := 0
  encryptionLevel : Option EncryptionLevel := none
  isPathMTUProbePacket : Bool := false
  includedInBytesInFlight : Bool := false
  isPathProbePacket : Bool := false
  deriving DecidableEq, Repr

/-- mirrors packet.go:34-36 -/
def Packet.isAckEliciting (p : Packet) : Bool := !p.streamFrames.isEmpty || !p.frames.isEmpty

/-- mirrors packet.go:30-32 -/
def Packet.outstanding (p : Packet) : Bool :=
  !p.isPathMTUProbePacket && !p.isPathProbePacket && p.isAckEliciting

abbrev maxSkippedPackets : Nat := 4

/-- mirrors :13-36 -/
structure SentPacketHistory where
  packets : List (Option Packet) := []
  pathProbePackets : List (Int × Packet) := []
  skippedPackets : List Int := []
  numOutstanding : Nat := 0
  firstPacketNumber : Int := invalidPacketNumber
  highestPacketNumber : Int := invalidPacketNumber
  deriving DecidableEq, Repr

namespace SentPacketHistory

variable (h : SentPacketHistory)

/-- mirrors :38-48 -/
def checkSequentialPacketNumberUse (pn : Int) : Option SentPacketHistory :=
  if h.highestPacketNumber ≠ invalidPacketNumber ∧ pn ≠ h.highestPacketNumber + 1 then none
  else some { h with highestPacketNumber := pn
                     firstPacketNumber := if h.packets.isEmpty then pn else h.firstPacketNumber }

/-- mirrors :50-59 -/
def skippedPacket (pn : Int) : Option SentPacketHistory := do
  let h ← h.checkSequentialPacketNumberUse pn
  let packets := if h.packets.isEmpty then h.packets else h.packets ++ [none]
  let skipped := if h.skippedPackets.length = maxSkippedPackets then h.skippedPackets.tail
    else h.skippedPackets
  return { h with packets, skippedPackets := skipped ++ [pn] }

/-- mirrors :61-67 -/
def sentPacket (pn : Int) (p : Packet) : Option SentPacketHistory := do
  let h ← h.checkSequentialPacketNumberUse pn
  return { h with packets := h.packets ++ [some p]
                  numOutstanding := h.numOutstanding + if p.outstanding then 1 else 0 }

/-- What stands in the history for a path probe packet. -/
def probePlaceholder : Packet := { isPathProbePacket := true }

/-- mirrors :69-73 -/
def sentPathProbePacket (pn : Int) (p : Packet) : Option SentPacketHistory := do
  let h ← h.checkSequentialPacketNumberUse pn
  return { h with packets := h.packets ++ [some probePlaceholder]
                  pathProbePackets := h.pathProbePackets ++ [(pn, p)] }

/-- The packets `Packets` iterates over: every packet that was sent and neither acknowledged, declared
lost nor dropped, with its number. mirrors :75-89 -/
def tracked : List (Int × Packet) :=
  entries h.firstPacketNumber h.packets

def hasOutstandingPackets : Bool := 0 < h.numOutstanding

def hasOutstandingPathProbes : Bool := !h.pathProbePackets.isEmpty

/-- mirrors :102-112 -/
def firstOutstanding : Option (Int × Packet) :=
  if h.hasOutstandingPackets then h.tracked.find? fun e => e.2.outstanding else none

def len : Nat := h.packets.length

/-- mirrors :195-207 -/
def getIndex (pn : Int) : Option Nat :=
  if h.packets.isEmpty ∨ pn < h.firstPacketNumber then none
  else
    let index := (pn - h.firstPacketNumber).toNat
    if index > h.packets.length - 1 then none else some index

/-- mirrors :218-228 -/
def cleanupStart : SentPacketHistory :=
  let w := trim h.firstPacketNumber h.packets
  { h with packets := w.2, firstPacketNumber := if w.2.isEmpty then invalidPacketNumber else w.1 }

/-- Replace the packet in a slot by nil and count it out of the outstanding ones; a nil slot is
dereferenced. mirrors :147-154 and :242-249 -/
def clear (idx : Nat) : Option SentPacketHistory := do
  let p ← (h.packets[idx]?).join
  if p.outstanding ∧ h.numOutstanding = 0 then none
  else some { h with packets := h.packets.set idx none
                     numOutstanding := h.numOutstanding - if p.outstanding then 1 else 0 }

/-- mirrors :142-171 -/
def remove (pn : Int) : Option (Except String SentPacketHistory) :=
  match h.getIndex pn with
  | none => some (.error s!"packet {pn} not found in sent packet history")
  | some idx => do
    let h ← h.clear idx
    let hasPacketBefore := (h.packets.take idx).any Option.isSome
    let h := if hasPacketBefore then h else h.cleanupStart
    if h.packets.head? = some none then none else some (.ok h)

/-- mirrors :237-253 -/
def declareLost (pn : Int) : Option SentPacketHistory :=
  match h.getIndex pn with
  | none => some h
  | some idx => do
    let h ← h.clear idx
    return if idx = 0 then h.cleanupStart else h

/-- The probe packet with the number, and the history without it.
mirrors :176-192 -/
def removePathProbe (pn : Int) : Option Packet × SentPacketHistory :=
  match h.pathProbePackets.findIdx? (fun e => e.1 == pn) with
  | none => (none, h)
  | some idx => ((h.pathProbePackets[idx]?).map (·.2),
      { h with pathProbePackets := h.pathProbePackets.eraseIdx idx })

/-- A loop that removes the path probes while it ranges over them. It ranges over the array with
which it began, in which each removal moves the later probes of the first `live` slots one to the
front. -/
def removeProbes : (fuel i live : Nat) → List (Int × Packet) → List (Int × Packet)
  | 0, _, live, array => array.take live
  | fuel + 1, i, live, array =>
    match array[i]? with
    | none => array.take live
    | some (pn, _) =>
      match (array.take live).findIdx? (fun e => e.1 == pn) with
      | none => removeProbes fuel (i + 1) live array
      | some idx =>
        let moved := (array.take live).eraseIdx idx ++ array.drop (live - 1)
        removeProbes fuel (i + 1) (live - 1) moved

/-- mirrors sent_packet_handler.go:1134-1136 -/
def removeRangedPathProbes : SentPacketHistory :=
  let probes := h.pathProbePackets
  { h with pathProbePackets := removeProbes probes.length 0 probes.length probes }

/-- mirrors :260-274 -/
def difference (a b : Int) : Int :=
  match h.skippedPackets with
  | [] => a - b
  | first :: rest =>
    if a < first ∨ b > (first :: rest).getLast (by simp) then a - b
    else a - b - (first :: rest).countP fun p => p > b ∧ p < a

/-! ## What the operations do to the tracked packets -/

/-- The window ends at the highest number used. -/
def Consecutive : Prop :=
  h.packets ≠ [] → 0 ≤ h.highestPacketNumber ∧ h.firstPacketNumber + h.packets.length = h.highestPacketNumber + 1

theorem consecutive_new : Consecutive {} := fun h => absurd rfl h

variable {h h' : SentPacketHistory} {pn : Int} {p : Packet}

section Consecutive

variable (hc : h.Consecutive)
include hc

/-- After the check the next slot of the window is that of `pn`. -/
theorem checkSequentialPacketNumberUse_spec (hs : h.checkSequentialPacketNumberUse pn = some h') :
    h'.packets = h.packets ∧ h'.pathProbePackets = h.pathProbePackets ∧ h'.tracked = h.tracked ∧
      h'.highestPacketNumber = pn ∧ h'.firstPacketNumber + h'.packets.length = pn ∧
      (h.packets ≠ [] → 0 ≤ pn) := by
  unfold checkSequentialPacketNumberUse at hs
  split at hs
  · cases hs
  rename_i hseq
  cases hs
  cases hp : h.packets with
  | nil => simp [tracked, hp]
  | cons o l =>
    obtain ⟨hhi, hend⟩ := hc (by simp [hp])
    have hpn : pn = h.highestPacketNumber + 1 := by
      by_contra hne
      exact hseq ⟨by show h.highestPacketNumber ≠ -1; omega, hne⟩
    rw [hp] at hend
    refine ⟨rfl, rfl, by simp [tracked, hp], rfl, ?_, fun _ => by omega⟩
    simp only [List.isEmpty_cons, Bool.false_eq_true, if_false]
    omega

theorem skippedPacket_spec (hs : h.skippedPacket pn = some h') :
    h'.Consecutive ∧ h'.tracked = h.tracked ∧ h'.pathProbePackets = h.pathProbePackets := by
  obtain ⟨h1, h1s, hs⟩ := bind_eq_some_iff.mp hs
  obtain ⟨hp, hpr, ht, hhi, hend, hpn⟩ := checkSequentialPacketNumberUse_spec hc h1s
  cases hs
  cases hl : h1.packets with
  | nil => exact ⟨fun hne => absurd rfl hne, by simpa [tracked, hl] using ht, hpr⟩
  | cons o l =>
    rw [hl] at hend
    refine ⟨fun _ => ⟨?_, ?_⟩, ?_, hpr⟩
    · simpa [hhi] using hpn (by rw [← hp, hl]; simp)
    · simp only [hhi, List.isEmpty_cons, Bool.false_eq_true, if_false, List.length_append,
        List.length_cons, List.length_nil] at hend ⊢
      omega
    rw [← ht]
    simp only [tracked, hl, List.isEmpty_cons, Bool.false_eq_true, if_false, entries_append]
    exact List.append_nil _

/-- Appending a slot with a packet, as both kinds of sends do it. -/
theorem tracked_append (hs : h.checkSequentialPacketNumberUse pn = some h') (hpn : 0 ≤ pn) (h'' : SentPacketHistory)
    (p : Packet) (hpk : h''.packets = h'.packets ++ [some p]) (hf : h''.firstPacketNumber = h'.firstPacketNumber)
    (hhi : h''.highestPacketNumber = h'.highestPacketNumber) :
    h''.Consecutive ∧ h''.tracked = h.tracked ++ [(pn, p)] := by
  obtain ⟨-, -, ht, hpn', hend, -⟩ := checkSequentialPacketNumberUse_spec hc hs
  refine ⟨fun _ => ⟨by omega, ?_⟩, ?_⟩
  · rw [hpk, hf, hhi, hpn', List.length_append, List.length_singleton]
    omega
  rw [← ht, tracked, hpk, hf, entries_append, hend]
  rfl

theorem sentPacket_spec (hpn : 0 ≤ pn) (hs : h.sentPacket pn p = some h') :
    h'.Consecutive ∧ h'.tracked = h.tracked ++ [(pn, p)] ∧ h'.pathProbePackets = h.pathProbePackets := by
  obtain ⟨h1, h1s, hs⟩ := bind_eq_some_iff.mp hs
  obtain ⟨hc', ht⟩ := tracked_append hc h1s hpn h' p
    (by rw [← some.inj hs]) (by rw [← some.inj hs]) (by rw [← some.inj hs])
  refine ⟨hc', ht, ?_⟩
  cases hs
  exact (checkSequentialPacketNumberUse_spec hc h1s).2.1

theorem sentPathProbePacket_spec (hpn : 0 ≤ pn) (hs : h.sentPathProbePacket pn p = some h') :
    h'.Consecutive ∧ h'.tracked = h.tracked ++ [(pn, probePlaceholder)] ∧
      h'.pathProbePackets = h.pathProbePackets ++ [(pn, p)] := by
  obtain ⟨h1, h1s, hs⟩ := bind_eq_some_iff.mp hs
  obtain ⟨hc', ht⟩ := tracked_append hc h1s hpn h' probePlaceholder
    (by rw [← some.inj hs]) (by rw [← some.inj hs]) (by rw [← some.inj hs])
  refine ⟨hc', ht, ?_⟩
  rw [← some.inj hs, ← (checkSequentialPacketNumberUse_spec hc h1s).2.1]

theorem cleanupStart_spec : h.cleanupStart.Consecutive ∧ h.cleanupStart.tracked = h.tracked := by
  have hend := trim_end h.firstPacketNumber h.packets
  have hent := entries_trim h.firstPacketNumber h.packets
  unfold cleanupStart tracked Consecutive
  simp only
  cases hw : (trim h.firstPacketNumber h.packets).2 with
  | nil =>
    rw [hw] at hent
    exact ⟨fun hne => absurd rfl hne, hent⟩
  | cons o l =>
    rw [hw] at hend hent
    refine ⟨fun _ => ?_, hent⟩
    have hne : h.packets ≠ [] := by
      intro hnil
      rw [hnil] at hw
      cases hw
    obtain ⟨hhi, hlast⟩ := hc hne
    refine ⟨hhi, ?_⟩
    rw [if_neg (by simp)]
    omega

/-- Clearing the slot of `pn` takes `pn` from the tracked packets. -/
theorem clear_spec {idx : Nat} (hi : h.getIndex pn = some idx) (hs : h.clear idx = some h') :
    h'.Consecutive ∧ h'.tracked = h.tracked.filter (fun e => e.1 ≠ pn) ∧
      h'.pathProbePackets = h.pathProbePackets := by
  obtain ⟨q, hq, hs⟩ := bind_eq_some_iff.mp hs
  split at hs
  · cases hs
  have hidx : h.firstPacketNumber + idx = pn := by
    unfold getIndex at hi
    split at hi
    · cases hi
    simp only at hi
    split at hi
    · cases hi
    · rw [← some.inj hi]; omega
  cases hs
  refine ⟨fun hne => ?_, ?_, rfl⟩
  · have hne' : h.packets ≠ [] := by
      intro hnil
      exact hne (by simp [hnil])
    simpa using hc hne'
  · simp only [tracked, entries_set_none, hidx]

theorem remove_spec (hs : h.remove pn = some (.ok h')) :
    h'.Consecutive ∧ h'.tracked = h.tracked.filter (fun e => e.1 ≠ pn) ∧
      h'.pathProbePackets = h.pathProbePackets := by
  unfold remove at hs
  split at hs
  · cases hs
  rename_i idx hi
  obtain ⟨h1, h1s, hs⟩ := bind_eq_some_iff.mp hs
  obtain ⟨hc1, ht1, hp1⟩ := clear_spec hc hi h1s
  have last : ∀ h2 : SentPacketHistory, (if h2.packets.head? = some none then none
      else some (Except.ok (ε := String) h2)) = some (.ok h') → h2 = h' := fun h2 h2s => by
    split at h2s
    · cases h2s
    · exact Except.ok.inj (some.inj h2s)
  simp only at hs
  split at hs
  · rw [← last _ hs]
    exact ⟨hc1, ht1, hp1⟩
  rw [← last _ hs]
  obtain ⟨hc2, ht2⟩ := cleanupStart_spec hc1
  exact ⟨hc2, ht2.trans ht1, hp1⟩

end Consecutive

/-- A number outside the window is not tracked. -/
theorem tracked_filter_of_getIndex_none (hi : h.getIndex pn = none) :
    h.tracked.filter (fun e => e.1 ≠ pn) = h.tracked := by
  refine List.filter_eq_self.mpr fun e he => ?_
  obtain ⟨hlo, hlt⟩ := le_of_mem_entries he
  have hne : e.1 ≠ pn := by
    rintro rfl
    unfold getIndex at hi
    split at hi
    · rename_i hor
      rcases hor with hemp | hlt'
      · rw [List.isEmpty_iff] at hemp
        rw [hemp, List.length_nil] at hlt
        omega
      · omega
    simp only at hi
    split at hi
    · omega
    · cases hi
  simpa using hne

theorem declareLost_spec (hc : h.Consecutive) (hs : h.declareLost pn = some h') :
    h'.Consecutive ∧ h'.tracked = h.tracked.filter (fun e => e.1 ≠ pn) ∧
      h'.pathProbePackets = h.pathProbePackets := by
  unfold declareLost at hs
  split at hs
  · rename_i hi
    cases hs
    exact ⟨hc, (tracked_filter_of_getIndex_none hi).symm, rfl⟩
  rename_i idx hi
  obtain ⟨h1, h1s, hs⟩ := bind_eq_some_iff.mp hs
  obtain ⟨hc1, ht1, hp1⟩ := clear_spec hc hi h1s
  cases hs
  split
  · obtain ⟨hc2, ht2⟩ := cleanupStart_spec hc1
    exact ⟨hc2, ht2.trans ht1, hp1⟩
  · exact ⟨hc1, ht1, hp1⟩

theorem clear_skippedPackets {idx : Nat} (hs : h.clear idx = some h') : h'.skippedPackets = h.skippedPackets := by
  obtain ⟨q, -, hs⟩ := bind_eq_some_iff.mp hs
  split at hs
  · cases hs
  · rw [← some.inj hs]

theorem declareLost_skippedPackets (hs : h.declareLost pn = some h') : h'.skippedPackets = h.skippedPackets := by
  unfold declareLost at hs
  split at hs
  · rw [← some.inj hs]
  obtain ⟨h1, h1s, hs⟩ := bind_eq_some_iff.mp hs
  rw [← some.inj hs, ← clear_skippedPackets h1s]
  split <;> rfl

theorem remove_skippedPackets (hs : h.remove pn = some (.ok h')) : h'.skippedPackets = h.skippedPackets := by
  unfold remove at hs
  split at hs
  · cases hs
  obtain ⟨h1, h1s, hs⟩ := bind_eq_some_iff.mp hs
  rw [← clear_skippedPackets h1s]
  simp only at hs
  split at hs
  · split at hs
    · cases hs
    · rw [← Except.ok.inj (some.inj hs)]
  split at hs
  · cases hs
  rw [← Except.ok.inj (some.inj hs)]
  rfl

/-- Removing a packet that is tracked does not fail. -/
theorem remove_tracked {r : Except String SentPacketHistory} (hm : (pn, p) ∈ h.tracked)
    (hs : h.remove pn = some r) : ∃ h', r = .ok h' := by
  cases r with
  | ok h' => exact ⟨h', rfl⟩
  | error e =>
    unfold remove at hs
    split at hs
    · rename_i hi
      have hne := List.filter_eq_self.mp (tracked_filter_of_getIndex_none hi) _ hm
      simp at hne
    obtain ⟨h1, -, hs⟩ := bind_eq_some_iff.mp hs
    simp only at hs
    split at hs <;> split at hs <;> cases hs

theorem tracked_pairwise (h : SentPacketHistory) : h.tracked.Pairwise fun e e' => e.1 < e'.1 :=
  entries_pairwise _ _

/-- Removing a path probe leaves the window alone and only takes probes away. -/
theorem removePathProbe_spec (h : SentPacketHistory) (pn : Int) : (h.removePathProbe pn).2.tracked = h.tracked ∧
      ((h.removePathProbe pn).2.Consecutive ↔ h.Consecutive) ∧
      (h.removePathProbe pn).2.pathProbePackets ⊆ h.pathProbePackets ∧
      (h.removePathProbe pn).2.skippedPackets = h.skippedPackets ∧
      (∀ p, (h.removePathProbe pn).1 = some p → ∃ q, (q, p) ∈ h.pathProbePackets) := by
  unfold removePathProbe
  split
  · exact ⟨rfl, Iff.rfl, fun _ hx => hx, rfl, fun p hp => by cases hp⟩
  refine ⟨rfl, Iff.rfl, (List.eraseIdx_sublist _ _).subset, rfl, fun p hp => ?_⟩
  obtain ⟨e, he, rfl⟩ := map_eq_some_iff.mp hp
  exact ⟨e.1, List.mem_of_getElem? he⟩

theorem removeProbes_subset (fuel i live : Nat) (array : List (Int × Packet)) :
    removeProbes fuel i live array ⊆ array := by
  induction fuel generalizing i live array with
  | zero => exact List.take_subset _ _
  | succ fuel ih =>
    unfold removeProbes
    split
    · exact List.take_subset _ _
    split
    · exact ih _ _ _
    refine fun e he => ?_
    rcases List.mem_append.mp (ih _ _ _ he) with hm | hm
    · exact List.take_subset _ _ ((List.eraseIdx_sublist _ _).subset hm)
    · exact List.drop_subset _ _ hm

end SentPacketHistory

end MoqQuic.L2.Ackhandler
