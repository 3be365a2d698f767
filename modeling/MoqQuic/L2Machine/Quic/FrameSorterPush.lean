import Mathlib.Algebra.Order.Group.Multiset
import MoqQuic.L2Machine.Quic.FrameSorter

/-!
# What `push` does to a frame sorter (`frame_sorter.go`)

`Shape` relates the three fields of a sorter: the gaps are the offsets below
`maxByteCount` that were neither read nor lie in a queued frame, and queued
frames do not overlap.

Results:
* `push_cases`: a frame that ends below `maxByteCount` never makes `push`
  panic. It is a duplicate and everything in it is known, or it comes to the
  final step `store` with a part of the frame that is exactly what takes the
  place of the queued frames in it, and with the gaps without the frame
  (`Placed`).
* `push_panics`: any other frame makes it panic, unless it is empty.
-/
namespace MoqQuic.L2.Quic
open Reader (Bytes)
open NewFrame (cutAtStart trimStartGap)
open Chunks List OrdMap
open Interval (Separated Meets separated_append separated_cons covers_append covers_cons)

variable {C : Type} {r : Replacement C}

abbrev FrameSorterEntry.len (e : FrameSorterEntry C) : Nat := e.data.length

open FrameSorterEntry (len)

/-- The callbacks of the queued frames. -/
def pending (queue : FrameQueue C) : Multiset C := queue.total fun e => (e.doneCb.toList : Multiset C)

theorem pending_erase {queue : FrameQueue C} {pos : Nat} {e : FrameSorterEntry C} (h : (pos, e) ∈ queue) :
    pending queue = (e.doneCb.toList : Multiset C) + pending (queue.erase pos) :=
  total_erase _ h

/-! ## The searches -/

section Search

variable {gaps : List ByteInterval} {offset : Nat} {inGap : Bool}

theorem findStartGap_eq_some {r : GapElement} (h : findStartGap offset gaps = some (r, inGap)) :
    gaps = r.before ++ r.gap :: r.after ∧ (∀ g ∈ r.before, g.stop < offset) ∧
      (inGap = true ∧ r.gap.start ≤ offset ∧ offset ≤ r.gap.stop ∨ inGap = false ∧ offset < r.gap.start) := by
  induction gaps generalizing r with
  | nil => cases h
  | cons gap gaps ih =>
    unfold findStartGap at h
    split at h
    · next hin =>
      cases h
      exact ⟨rfl, fun g hg => absurd hg not_mem_nil, .inl ⟨rfl, hin⟩⟩
    split at h
    · next hlt =>
      cases h
      exact ⟨rfl, fun g hg => absurd hg not_mem_nil, .inr ⟨rfl, hlt⟩⟩
    obtain ⟨⟨r', b⟩, hr', heq⟩ := Option.map_eq_some_iff.mp h
    cases heq
    obtain ⟨rfl, hbefore, hat⟩ := ih hr'
    refine ⟨rfl, forall_mem_cons.mpr ⟨?_, hbefore⟩, hat⟩
    omega

theorem exists_findStartGap {g : ByteInterval} (hg : g ∈ gaps) (hle : offset ≤ g.stop) :
    ∃ r inGap, findStartGap offset gaps = some (r, inGap) := by
  induction gaps with
  | nil => exact absurd hg not_mem_nil
  | cons gap gaps ih =>
    unfold findStartGap
    split
    · exact ⟨_, _, rfl⟩
    split
    · exact ⟨_, _, rfl⟩
    rcases mem_cons.mp hg with rfl | hg
    · omega
    obtain ⟨r, inGap, hr⟩ := ih hg
    rw [hr]
    exact ⟨_, _, rfl⟩

/-- The gap before the first one is found only if the offset is below the first one. -/
theorem lt_of_findEndGap_eq_none {gap : ByteInterval} (h : findEndGap offset (gap :: gaps) = some (none, inGap)) :
    offset < gap.start ∧ inGap = false := by
  unfold findEndGap at h
  split at h
  · cases h
  split at h
  · cases h
    exact ⟨‹_›, rfl⟩
  · obtain ⟨⟨_ | r, b⟩, -, heq⟩ := Option.map_eq_some_iff.mp h <;> cases heq

theorem findEndGap_eq_some {r : GapElement} (hs : Separated gaps)
    (h : findEndGap offset gaps = some (some r, inGap)) :
    gaps = r.before ++ r.gap :: r.after ∧ r.gap.start ≤ offset ∧ (∀ g ∈ r.after, offset < g.start) ∧
      (inGap = true ↔ offset < r.gap.stop) := by
  induction gaps generalizing r with
  | nil => cases h
  | cons gap gaps ih =>
    obtain ⟨-, hafter, htail⟩ := separated_cons.mp hs
    unfold findEndGap at h
    split at h
    · next hin =>
      cases h
      exact ⟨rfl, hin.1, fun g hg => Nat.lt_trans hin.2 (hafter g hg), by simp [hin.2]⟩
    split at h
    · cases h
    rename_i hin hlt
    obtain ⟨⟨r', b⟩, hr', heq⟩ := Option.map_eq_some_iff.mp h
    cases r' with
    | none =>
      -- the next gap begins behind the offset, so this one is the last before it
      cases heq
      cases gaps with
      | nil => cases hr'
      | cons next gaps =>
        obtain ⟨hnext, hfalse⟩ := lt_of_findEndGap_eq_none hr'
        obtain ⟨hpos, hrest, -⟩ := separated_cons.mp htail
        refine ⟨rfl, Nat.not_lt.mp hlt, forall_mem_cons.mpr ⟨hnext, fun g hg => ?_⟩, ?_⟩
        · have := hrest g hg
          omega
        rw [hfalse]
        simp only [Bool.false_eq_true, false_iff]
        omega
    | some r' =>
      cases heq
      obtain ⟨heq, hat⟩ := ih htail hr'
      exact ⟨congrArg (gap :: ·) heq, hat⟩

theorem exists_findEndGap {g : ByteInterval} (hg : g ∈ gaps) (hlt : offset < g.stop) :
    ∃ r inGap, findEndGap offset gaps = some (r, inGap) := by
  induction gaps with
  | nil => exact absurd hg not_mem_nil
  | cons gap gaps ih =>
    unfold findEndGap
    split
    · exact ⟨_, _, rfl⟩
    split
    · exact ⟨_, _, rfl⟩
    rcases mem_cons.mp hg with rfl | hg
    · omega
    obtain ⟨r, inGap, hr⟩ := ih hg
    rw [hr]
    cases r <;> exact ⟨_, _, rfl⟩

theorem findEndGap_eq_none (hs : Separated gaps) (hle : ∀ g ∈ gaps, g.stop ≤ offset) :
    findEndGap offset gaps = none := by
  induction gaps with
  | nil => rfl
  | cons gap gaps ih =>
    obtain ⟨hpos, -, htail⟩ := separated_cons.mp hs
    obtain ⟨hgap, hgaps⟩ := forall_mem_cons.mp hle
    unfold findEndGap
    rw [if_neg (by omega), if_neg (by omega), ih htail hgaps]
    rfl

end Search

/-! ## Loops over queued frames -/

section Loops

variable {queue : FrameQueue C} {pos stop turns : Nat} {replaced : Bool}

theorem without_nothing (queue : FrameQueue C) (pos : Nat) : Without queue (fun k => pos ≤ k ∧ k < pos) queue :=
  (Without.refl queue).congr fun e _ => iff_of_false id (by omega)

theorem deleteConsecutiveLoop_spec (hv : Valid len queue) (ht : queue.size ≤ turns) :
    ∃ c, Chain len queue pos c ∧ (∀ e, (c, e) ∉ queue) ∧
      Without queue (fun k => pos ≤ k ∧ k < c) (deleteConsecutiveLoop turns queue pos).1 ∧
      pending queue = ((deleteConsecutiveLoop turns queue pos).2 : Multiset C) +
        pending (deleteConsecutiveLoop turns queue pos).1 := by
  induction turns generalizing queue pos with
  | zero =>
    exact ⟨pos, .nil pos, fun e => not_mem_of_size_le_zero ht _, without_nothing queue pos, (zero_add _).symm⟩
  | succ turns ih =>
    unfold deleteConsecutiveLoop
    cases hfind : queue.find pos with
    | none => exact ⟨pos, .nil pos, find_eq_none.mp hfind, without_nothing queue pos, (zero_add _).symm⟩
    | some e =>
      have he := find_eq_some.mp hfind
      have hsize : (queue.erase pos).size < queue.size := size_erase_lt he
      have hv' : Valid len (queue.erase pos) := without_erase.valid hv
      obtain ⟨c, hchain, hno, hwithout, hpending⟩ := @ih (queue.erase pos) (pos + e.data.length) hv' (by omega)
      have hle := hchain.le
      have hpos : 0 < e.data.length := hv.pos _ he
      refine ⟨c, .cons he (hchain.mono fun e he => (mem_erase.mp he).1), fun e' he' => ?_,
        hwithout.of_erase hv he hle, ?_⟩
      · exact hno e' (mem_erase.mpr ⟨he', by dsimp only; omega⟩)
      · rw [pending_erase he, hpending, ← Multiset.coe_add, add_assoc]

/-- A row of frames is removed, and the callbacks that run are theirs. -/
theorem deleteConsecutive_spec (hv : Valid len queue) (pos : Nat) :
    ∃ c, Chain len queue pos c ∧ (∀ e, (c, e) ∉ queue) ∧
      Without queue (fun k => pos ≤ k ∧ k < c) (deleteConsecutive queue pos).1 ∧
      pending queue = ((deleteConsecutive queue pos).2 : Multiset C) + pending (deleteConsecutive queue pos).1 :=
  deleteConsecutiveLoop_spec hv (Nat.le_refl queue.size)

theorem replaceLoop_eq_none (h : replaceLoop stop turns queue pos replaced = none) :
    replaced = false ∧ ∃ e, (pos, e) ∈ queue ∧ stop ≤ pos + e.data.length := by
  induction turns generalizing queue pos replaced with
  | zero => cases h
  | succ turns ih =>
    unfold replaceLoop at h
    cases hfind : queue.find pos with
    | none =>
      rw [hfind] at h
      cases h
    | some e =>
      rw [hfind] at h
      dsimp only at h
      split at h
      · -- the next turns have replaced a frame, and do not take the new one for a duplicate
        obtain ⟨habs, -⟩ := ih (Option.map_eq_none_iff.mp h)
        cases habs
      split at h
      · next hlong hfalse => exact ⟨hfalse, e, find_eq_some.mp hfind, by omega⟩
      · cases h

/-- The frames up to `r.pos` are removed; either no frame is queued there, or one that reaches behind the new one. -/
structure Replaces (queue : FrameQueue C) (pos stop : Nat) (replaced : Bool) (r : Replacement C) : Prop where
  chain : Chain len queue pos r.pos
  pos_le : r.pos ≤ stop
  without : Without queue (fun k => pos ≤ k ∧ k < r.pos) r.queue
  pending_eq : pending queue = (r.called : Multiset C) + pending r.queue
  replaced_iff : r.hasReplacedAtLeastOne = true ↔ replaced = true ∨ pos < r.pos
  next : r.cut = false ∧ (∀ e, (r.pos, e) ∉ queue) ∨
    r.cut = true ∧ r.hasReplacedAtLeastOne = true ∧ ∃ e, (r.pos, e) ∈ queue ∧ stop < r.pos + e.data.length

theorem replaces_nothing (hpos : pos ≤ stop) (hno : ∀ e, (pos, e) ∉ queue) :
    Replaces queue pos stop replaced ⟨queue, [], pos, replaced, false⟩ where
  chain := .nil pos
  pos_le := hpos
  without := without_nothing queue pos
  pending_eq := (zero_add _).symm
  replaced_iff := by simp
  next := .inl ⟨rfl, hno⟩

variable (hv : Valid len queue)
include hv

/-- A frame that was removed before the rest. -/
theorem Replaces.cons {e : FrameSorterEntry C} (he : (pos, e) ∈ queue)
    (h : Replaces (queue.erase pos) (pos + e.data.length) stop true r) :
    Replaces queue pos stop replaced { r with called := e.doneCb.toList ++ r.called } := by
  have hle := h.chain.le
  have hlen : 0 < e.data.length := hv.pos _ he
  have hne : r.pos ≠ pos := by omega
  refine ⟨.cons he (h.chain.mono fun e he => (mem_erase.mp he).1), h.pos_le, h.without.of_erase hv he hle, ?_, ?_, ?_⟩
  · rw [pending_erase he, h.pending_eq, ← Multiset.coe_add, add_assoc]
  · have hreplaced := h.replaced_iff.mpr (.inl rfl)
    exact iff_of_true hreplaced (.inr (by dsimp only; omega))
  refine h.next.imp (fun ⟨hcut, hno⟩ => ⟨hcut, fun e' he' => ?_⟩) fun ⟨hcut, hrep, e', he', hlt⟩ => ?_
  · exact hno e' (mem_erase.mpr ⟨he', hne⟩)
  · exact ⟨hcut, hrep, e', (mem_erase.mp he').1, hlt⟩

theorem replaceLoop_spec (ht : queue.size ≤ turns) (hpos : pos ≤ stop)
    (h : replaceLoop stop turns queue pos replaced = some r) : Replaces queue pos stop replaced r := by
  induction turns generalizing queue pos replaced r with
  | zero =>
    cases h
    exact replaces_nothing hpos fun e => not_mem_of_size_le_zero ht _
  | succ turns ih =>
    unfold replaceLoop at h
    cases hfind : queue.find pos with
    | none =>
      rw [hfind] at h
      cases h
      exact replaces_nothing hpos (find_eq_none.mp hfind)
    | some e =>
      have he := find_eq_some.mp hfind
      rw [hfind] at h
      dsimp only at h
      split at h
      · next hshort =>
        obtain ⟨r', hr', rfl⟩ := Option.map_eq_some_iff.mp h
        have hsize : (queue.erase pos).size < queue.size := size_erase_lt he
        exact .cons hv he (ih (without_erase.valid hv) (by omega) (by omega) hr')
      rename_i hlong
      split at h
      · cases h
      rename_i hrep
      -- a longer frame, or one of the same length: `replaced` is set, so only a longer one comes here
      cases h
      have hrep : replaced = true := by simpa using hrep
      refine ⟨.nil pos, hpos, without_nothing queue pos, (zero_add _).symm, by simp, .inr ⟨rfl, hrep, e, he, ?_⟩⟩
      have : pos + e.data.length ≠ stop := fun heq => hlong (.inr ⟨hrep, heq⟩)
      dsimp only
      omega

/-- From `p` to `stop` nothing is queued before the first gap, and everything behind it but the gaps. -/
def Alternates (queue : FrameQueue C) (gaps : List ByteInterval) (p stop : Nat) : Prop :=
  ∀ x, p ≤ x → x < stop → (Covers len queue x ↔ ¬ Interval.Covers gaps x ∧ ∃ g ∈ gaps, g.stop ≤ x)

/-- In a queue from which some frames are gone, `deleteConsecutive` empties the covered stretch that begins at `pos`. -/
theorem without_deleteConsecutive {q : FrameQueue C} {D : Nat → Prop} {c : Nat} (hq : Without queue D q)
    (hle : pos ≤ c) (hcov : ∀ x, pos ≤ x → x < c → Covers len queue x)
    (hc : ¬ Covers len queue c) (hbound : ∀ e ∈ queue, e.1 < pos → e.1 + e.2.len ≤ pos)
    (hD : ∀ k, pos ≤ k → k < c → ¬ D k) :
    Without queue (fun k => D k ∨ pos ≤ k ∧ k < c) (deleteConsecutive q pos).1 := by
  obtain ⟨c', hchain, hno, hwithout, -⟩ := deleteConsecutive_spec (hq.valid hv) pos
  suffices c' = c from this ▸ hq.trans hwithout
  have hle' := hchain.le
  rcases Nat.lt_trichotomy c' c with hlt | heq | hgt
  · -- the frame over `c'` is in `q`, so the row of frames goes on there
    exfalso
    obtain ⟨e, he, hes, het⟩ := hcov c' hle' hlt
    have hpos : pos ≤ e.1 := by
      by_contra hbefore
      have := hbound e he (by omega)
      omega
    have heq : e ∈ q := (hq e).mpr ⟨he, hD e.1 hpos (by omega)⟩
    rcases Nat.lt_or_eq_of_le hle' with hlt' | hstart
    · exact hchain.not_covers (hq.valid hv) hlt' hno ⟨e, heq, hes, het⟩
    have hkey : e.1 = c' := by omega
    exact hno e.2 (hkey ▸ heq)
  · exact heq
  · exact absurd (hq.covers (hchain.covers ⟨hle, hgt⟩)) hc

theorem pending_removeGaps {endGapStart : Nat} {between : List ByteInterval} :
    pending queue = ((removeGaps endGapStart between queue).2.2 : Multiset C) +
      pending (removeGaps endGapStart between queue).2.1 := by
  induction between generalizing queue with
  | nil => exact (zero_add _).symm
  | cons gap gaps ih =>
    unfold removeGaps
    split
    · obtain ⟨c, -, -, hwithout, hpending⟩ := deleteConsecutive_spec hv gap.stop
      rw [hpending, ih (hwithout.valid hv), ← Multiset.coe_add, add_assoc]
    · exact (zero_add _).symm

omit hv in
/-- The rest of the gaps from `c` on, which is in one of them. -/
theorem Alternates.tail {gap : ByteInterval} {gaps : List ByteInterval} {p c : Nat}
    (h : Alternates queue (gap :: gaps) p stop) (hp : p ≤ c) (hc : gap.stop ≤ c)
    (hnext : c = stop ∨ Interval.Covers gaps c) : Alternates queue gaps c stop := by
  intro x hx hlt
  rw [h x (hp.trans hx) hlt, covers_cons]
  constructor
  · rintro ⟨hout, -⟩
    obtain ⟨g, hg, hle, -⟩ := hnext.resolve_left (by omega)
    refine ⟨fun hin => hout (.inr hin), g, hg, ?_⟩
    by_contra hshort
    exact hout (.inr ⟨g, hg, by omega, by omega⟩)
  · rintro ⟨hout, g, hg, hle⟩
    exact ⟨fun hin => hin.elim (by omega) hout, g, mem_cons_of_mem _ hg, hle⟩

/-- The loop removes all gaps and empties the queue from `p` to `endGap`. -/
theorem removeGaps_spec {q : FrameQueue C} {D : Nat → Prop} {endGapStart p : Nat} {between : List ByteInterval}
    (hq : Without queue D q) (hs : Separated between) (hlast : ∀ g ∈ between, g.stop < endGapStart)
    (hend : ¬ Covers len queue endGapStart) (halt : Alternates queue between p endGapStart)
    (hpD : ∀ k, p ≤ k → k < endGapStart → ¬ D k) (hple : ∀ g ∈ between, p ≤ g.start) :
    (removeGaps endGapStart between q).1 = [] ∧
      Without queue (fun k => D k ∨ p ≤ k ∧ k < endGapStart) (removeGaps endGapStart between q).2.1 := by
  induction between generalizing q D p with
  | nil =>
    refine ⟨rfl, hq.congr fun e he => ⟨.inl, fun h => h.resolve_right fun ⟨hle, hlt⟩ => ?_⟩⟩
    obtain ⟨-, g, hg, -⟩ := (halt e.1 hle hlt).mp (hv.covers_start he)
    exact not_mem_nil hg
  | cons gap gaps ih =>
    obtain ⟨hpos, hafter, htail⟩ := separated_cons.mp hs
    have hgapEnd := hlast gap mem_cons_self
    have hpgap := hple gap mem_cons_self
    -- the covered stretch behind the gap ends at the next gap
    obtain ⟨c, hlt, hle, hc, hfirst, hnext⟩ : ∃ c, gap.stop < c ∧ c ≤ endGapStart ∧ ¬ Covers len queue c ∧
        (∀ g ∈ gaps, c ≤ g.start) ∧ (c = endGapStart ∨ Interval.Covers gaps c) := by
      cases gaps with
      | nil => exact ⟨endGapStart, hgapEnd, le_rfl, hend, fun g hg => absurd hg not_mem_nil, .inl rfl⟩
      | cons next gaps =>
        have hlt := hafter next mem_cons_self
        have hnextEnd := hlast next (by simp)
        have hnextPos := (separated_cons.mp htail).1
        have hin := Interval.covers_start htail mem_cons_self
        refine ⟨next.start, hlt, by omega, fun hcov => ?_, fun g hg => htail.start_le hg, .inr hin⟩
        exact ((halt next.start (by omega) (by omega)).mp hcov).1 (covers_cons.mpr (.inr hin))
    have hbound : ∀ e ∈ queue, e.1 < gap.stop → e.1 + e.2.len ≤ gap.stop := by
      intro e he hbefore
      by_contra hover
      exact ((halt (gap.stop - 1) (by omega) (by omega)).mp ⟨e, he, by omega, by omega⟩).1
        (covers_cons.mpr (.inl ⟨by omega, by omega⟩))
    have hD : ∀ k, gap.stop ≤ k → k < c → ¬ D k := fun k hk hkc => hpD k (by omega) (by omega)
    have hcov : ∀ x, gap.stop ≤ x → x < c → Covers len queue x := by
      intro x hx hxc
      refine (halt x (by omega) (by omega)).mpr ⟨fun hin => ?_, gap, mem_cons_self, hx⟩
      rcases covers_cons.mp hin with hin | ⟨g, hg, hin⟩
      · omega
      · exact Nat.not_lt.mpr (hfirst g hg) (Nat.lt_of_le_of_lt hin.1 hxc)
    have hd := without_deleteConsecutive hv hq hlt.le hcov hc hbound hD
    have hpD' : ∀ k, c ≤ k → k < endGapStart → ¬ (D k ∨ gap.stop ≤ k ∧ k < c) := by
      rintro k hk hklt (hDk | ⟨-, hkc⟩)
      · exact hpD k (by omega) hklt hDk
      · omega
    obtain ⟨hnil, hrest⟩ := ih hd htail (fun g hg => hlast g (mem_cons_of_mem _ hg))
      (halt.tail (by omega) hlt.le hnext) hpD' hfirst
    unfold removeGaps
    rw [if_pos hgapEnd]
    refine ⟨hnil, hrest.congr fun e he => ?_⟩
    -- no frame begins in the gap or between `p` and the gap
    have hnone : p ≤ e.1 → e.1 < endGapStart → gap.stop ≤ e.1 := by
      intro hpe hlte
      obtain ⟨-, g, hg, hle'⟩ := (halt e.1 hpe hlte).mp (hv.covers_start he)
      exact (hs.stop_le hg).trans hle'
    constructor
    · rintro ((h | h) | h)
      · exact .inl h
      · exact .inr ⟨by omega, by omega⟩
      · exact .inr ⟨by omega, h.2⟩
    rintro (h | h)
    · exact .inl (.inl h)
    have := hnone h.1 h.2
    by_cases hkc : e.1 < c
    · exact .inl (.inr ⟨this, hkc⟩)
    · exact .inr ⟨by omega, h.2⟩

end Loops

/-! ## The shape of a sorter -/

namespace FrameSorter

def InGap (s : FrameSorter C) (x : Nat) : Prop := Interval.Covers s.gaps x

def Queued (s : FrameSorter C) (x : Nat) : Prop := Covers len s.queue x

structure Shape (s : FrameSorter C) : Prop where
  separated : Separated s.gaps
  valid : Valid len s.queue
  unread : ∀ e ∈ s.queue, s.readPos ≤ e.1
  tiles : ∀ x, s.InGap x ↔ x < maxByteCount ∧ s.readPos ≤ x ∧ ¬ s.Queued x
  top : s.InGap (maxByteCount - 1)

namespace Shape

variable {s : FrameSorter C} {x : Nat} {g : ByteInterval}

variable (h : s.Shape)
include h

theorem not_queued (hx : s.InGap x) : ¬ s.Queued x := ((h.tiles x).mp hx).2.2

theorem queued (hlt : x < maxByteCount) (hread : s.readPos ≤ x) (hx : ¬ s.InGap x) : s.Queued x := by
  by_contra hno
  exact hx ((h.tiles x).mpr ⟨hlt, hread, hno⟩)

theorem inGap_start (hg : g ∈ s.gaps) : s.InGap g.start := Interval.covers_start h.separated hg

theorem readPos_le_start (hg : g ∈ s.gaps) : s.readPos ≤ g.start :=
  ((h.tiles _).mp (h.inGap_start hg)).2.1

theorem stop_le (hg : g ∈ s.gaps) : g.stop ≤ maxByteCount := by
  have hpos := h.separated.1 g hg
  have hlast : s.InGap (g.stop - 1) := ⟨g, hg, by omega, by omega⟩
  have := ((h.tiles _).mp hlast).1
  omega

/-- One gap reaches up to the end of all offsets. -/
theorem exists_last : ∃ g ∈ s.gaps, g.stop = maxByteCount := by
  obtain ⟨g, hg, hin⟩ := h.top
  have hle := h.stop_le hg
  have hlt := hin.2
  exact ⟨g, hg, by omega⟩

theorem key_not_mem (hg : g ∈ s.gaps) {e : Nat × FrameSorterEntry C} (he : e ∈ s.queue) :
    ¬ (g.start ≤ e.1 ∧ e.1 < g.stop) :=
  fun hin => h.not_queued ⟨g, hg, hin⟩ (h.valid.covers_start he)

/-- No queued frame lies across a position in a gap or at its end. -/
theorem stop_le_of_gap (hg : g ∈ s.gaps) (hx : g.start ≤ x) (hx' : x ≤ g.stop) {e : Nat × FrameSorterEntry C}
    (he : e ∈ s.queue) (hlt : e.1 < x) : e.1 + e.2.len ≤ x := by
  have hout := h.key_not_mem hg he
  have hbefore : e.1 < g.start := by omega
  have := h.valid.stop_le_of_lt he (.inl (h.not_queued (h.inGap_start hg))) hbefore
  omega

end Shape

/-! ## Where the frame starts -/

/-- A frame that starts at `offset` belongs to the gap `start.gap`, in which or before which it starts. -/
structure StartsAt (s : FrameSorter C) (offset : Nat) (start : GapElement) (startsInGap : Bool) : Prop where
  gaps_eq : s.gaps = start.before ++ start.gap :: start.after
  before : ∀ g ∈ start.before, g.stop < offset
  inGap : startsInGap = true ∧ start.gap.start ≤ offset ∧ offset ≤ start.gap.stop ∨
    startsInGap = false ∧ offset < start.gap.start

/-- The frame starts at or before the gap, inside it, or right behind it. -/
def Place (s : FrameSorter C) (stop : Nat) (gap : ByteInterval) (r : Replacement C) (f : NewFrame) : Prop :=
  f.start ≤ gap.start ∧ f.stop = stop ∧ Without s.queue (fun k => f.start ≤ k ∧ k < gap.start) r.queue ∨
    (gap.start < f.start ∧ f.start < gap.stop ∧ f.stop = stop ∧ r.hasReplacedAtLeastOne = false ∧
      Without s.queue (fun _ => False) r.queue) ∨
    (f.start = gap.stop ∧ r.hasReplacedAtLeastOne = true ∧ gap.stop < r.pos ∧ r.pos ≤ stop ∧
      (∀ x, gap.stop ≤ x → x < r.pos → s.Queued x) ∧
      Without s.queue (fun k => gap.stop ≤ k ∧ k < r.pos) r.queue ∧
      (f.stop = stop ∧ ¬ s.Queued r.pos ∨ f.stop = r.pos ∧ ∃ e, (r.pos, e) ∈ s.queue ∧ stop < r.pos + e.data.length))

/-- What comes out of the loop over the queued frames and of the cut at the start. -/
structure Started (s : FrameSorter C) (data : Bytes) (offset stop : Nat) (gap : ByteInterval) (r : Replacement C)
    (f : NewFrame) : Prop where
  le_start : offset ≤ f.start
  lt : f.start < f.stop
  stop_le : f.stop ≤ stop
  data_eq : f.data = (data.drop (f.start - offset)).take (f.stop - f.start)
  known : ∀ x, offset ≤ x → x < f.start → ¬ s.InGap x
  bound : ∀ e ∈ s.queue, e.1 < f.start → e.1 + e.2.len ≤ f.start
  unread : s.readPos ≤ f.start
  pending_eq : pending s.queue = (r.called : Multiset C) + pending r.queue
  place : Place s stop gap r f

/-- The cut at the start gives such a frame. -/
def Starts (s : FrameSorter C) (data : Bytes) (offset stop : Nat) (gap : ByteInterval) (startsInGap : Bool)
    (r : Replacement C) : Prop :=
  ∃ f, cutAtStart ⟨offset, stop, data, false⟩ gap startsInGap r = .ok f ∧ s.Started data offset stop gap r f

section Start

variable {s : FrameSorter C} {data : Bytes} {offset stop x : Nat} {start : GapElement} {startsInGap : Bool}
  {r : Replacement C}

theorem cutStart_eq_ok {f : NewFrame} {pos : Nat} (hle : f.start ≤ pos) (hlen : pos ≤ f.start + f.data.length) :
    f.cutStart pos = (.ok { f with start := pos, data := f.data.drop (pos - f.start), wasCut := true } :
      Except (PushError C) NewFrame) :=
  if_pos ⟨hle, by omega⟩

theorem cutStop_eq_ok {f : NewFrame} {pos : Nat} (hle : f.start ≤ pos) (hlen : pos ≤ f.start + f.data.length) :
    f.cutStop pos = (.ok { f with stop := pos, data := f.data.take (pos - f.start), wasCut := true } :
      Except (PushError C) NewFrame) :=
  if_pos ⟨hle, by omega⟩

/-- The frame is not cut. -/
theorem started_whole {gap : ByteInterval} (hstop : stop = offset + data.length) (hpos : offset < stop)
    (hbound : ∀ e ∈ s.queue, e.1 < offset → e.1 + e.2.len ≤ offset) (hread : s.readPos ≤ offset)
    (hpending : pending s.queue = (r.called : Multiset C) + pending r.queue)
    (hplace : Place s stop gap r ⟨offset, stop, data, false⟩) :
    s.Started data offset stop gap r ⟨offset, stop, data, false⟩ where
  le_start := le_rfl
  lt := hpos
  stop_le := le_rfl
  data_eq := by
    dsimp only
    rw [Nat.sub_self, drop_zero, take_of_length_le (by omega)]
  known := fun x hx hlt => absurd hx hlt.not_ge
  bound := hbound
  unread := hread
  pending_eq := hpending
  place := hplace

variable (hat : s.StartsAt offset start startsInGap)
include hat

theorem StartsAt.gap_mem : start.gap ∈ s.gaps := by
  rw [hat.gaps_eq]
  exact mem_append_right _ mem_cons_self

/-- From the start of the frame on, gaps are `start.gap` and the later ones. -/
theorem StartsAt.inGap_iff (hx : offset ≤ x) :
    s.InGap x ↔ (start.gap.start ≤ x ∧ x < start.gap.stop) ∨ Interval.Covers start.after x := by
  rw [InGap, hat.gaps_eq, covers_append, covers_cons]
  refine or_iff_right ?_
  rintro ⟨g, hg, hin⟩
  have := hat.before g hg
  have := hin.2
  omega

variable (h : s.Shape)
include h

theorem StartsAt.gap_lt : start.gap.start < start.gap.stop := h.separated.1 start.gap hat.gap_mem

theorem StartsAt.separated : Separated (start.gap :: start.after) := by
  have hs := h.separated
  rw [hat.gaps_eq, separated_append] at hs
  exact hs.2.1

theorem StartsAt.stop_lt : ∀ g ∈ start.after, start.gap.stop < g.start := (separated_cons.mp (hat.separated h)).2.1

theorem StartsAt.not_inGap_of_lt (hx : offset ≤ x) (hlt : x < start.gap.start) : ¬ s.InGap x := by
  rw [hat.inGap_iff hx]
  rintro (hin | ⟨g, hg, hin⟩)
  · omega
  have := hat.stop_lt h g hg
  have := hat.gap_lt h
  have := hin.1
  omega

theorem StartsAt.offset_le : offset ≤ start.gap.stop := by
  have := hat.gap_lt h
  rcases hat.inGap with ⟨-, -, hle⟩ | ⟨-, hlt⟩ <;> omega

variable (hstop : stop = offset + data.length) (hr : Replaces s.queue offset stop false r)
include hstop hr

/-- The frame starts before the gap: queued frames up to the gap are replaced, or the frame is cut to the gap. -/
theorem started_before (hno : startsInGap = false) (hlt : offset < start.gap.start) (hreach : start.gap.start < stop)
    (hmax : stop < maxByteCount) :
    s.Starts data offset stop start.gap startsInGap r := by
  have hgapStart := h.not_queued (h.inGap_start hat.gap_mem)
  have hpos : r.pos ≤ start.gap.start := by
    by_contra hgt
    exact hgapStart (hr.chain.covers ⟨by omega, by omega⟩)
  -- a frame at `r.pos` that reaches behind the new one would lie over the gap
  obtain ⟨hcut, hend⟩ : r.cut = false ∧ ∀ e, (r.pos, e) ∉ s.queue := by
    refine hr.next.resolve_right ?_
    rintro ⟨-, -, e, he, hover⟩
    exact hgapStart ⟨(r.pos, e), he, hpos, Nat.lt_trans hreach hover⟩
  rcases Nat.lt_or_eq_of_le hr.chain.le with hreplaced | hnone
  · have hrep := hr.replaced_iff.mpr (.inr hreplaced)
    obtain ⟨e, he⟩ : ∃ e, (offset, e) ∈ s.queue := by
      cases hr.chain with
      | nil => omega
      | cons hv _ => exact ⟨_, hv⟩
    have hposEq : r.pos = start.gap.start := by
      have hread := h.unread _ he
      rcases Nat.lt_or_eq_of_le hpos with hbefore | heq
      · exfalso
        refine hr.chain.not_covers h.valid hreplaced hend ?_
        exact h.queued (by omega) (by dsimp only at hread; omega) (hat.not_inGap_of_lt h (by omega) hbefore)
      · exact heq
    refine ⟨⟨offset, stop, data, false⟩, by simp [cutAtStart, hcut, hrep]; rfl, ?_⟩
    exact started_whole hstop (by omega) (fun e' he' => h.valid.stop_le_of_lt he' (.inr ⟨e, he⟩)) (h.unread _ he)
      hr.pending_eq (.inl ⟨hlt.le, rfl, hposEq ▸ hr.without⟩)
  have hrep : r.hasReplacedAtLeastOne = false := by
    rw [← Bool.not_eq_true, hr.replaced_iff]
    simp [hnone]
  refine ⟨⟨start.gap.start, stop, data.drop (start.gap.start - offset), true⟩, ?_, ?_⟩
  · simp only [cutAtStart, hcut, hrep, hno, and_self, if_true, Bool.false_eq_true, if_false, pure_bind]
    exact cutStart_eq_ok hlt.le (by dsimp only; omega)
  exact {
    le_start := hlt.le
    lt := hreach
    stop_le := le_rfl
    data_eq := by
      dsimp only
      rw [take_of_length_le]
      rw [length_drop]
      omega
    known := fun x hx hlt => hat.not_inGap_of_lt h hx hlt
    bound := fun e' he' => h.valid.stop_le_of_lt he' (.inl hgapStart)
    unread := h.readPos_le_start hat.gap_mem
    pending_eq := hr.pending_eq
    place := .inl ⟨le_rfl, rfl, hr.without.congr fun e _ => by dsimp only; omega⟩ }

/-- The frame starts in the gap. -/
theorem started_inside (hyes : startsInGap = true) (hle : start.gap.start ≤ offset) (hlt : offset < start.gap.stop)
    (hpos : offset < stop) :
    s.Starts data offset stop start.gap startsInGap r := by
  have hin : s.InGap offset := ⟨start.gap, hat.gap_mem, hle, hlt⟩
  have hposEq : r.pos = offset := by
    rcases Nat.lt_or_eq_of_le hr.chain.le with hgt | heq
    · exact absurd (hr.chain.covers ⟨le_rfl, hgt⟩) (h.not_queued hin)
    · exact heq.symm
  have hrep : r.hasReplacedAtLeastOne = false := by
    rw [← Bool.not_eq_true, hr.replaced_iff]
    simp [hposEq]
  have hcut : r.cut = false := by
    rcases hr.next with ⟨hcut, -⟩ | ⟨-, habs, -⟩
    · exact hcut
    rw [hrep] at habs
    cases habs
  refine ⟨⟨offset, stop, data, false⟩, by simp [cutAtStart, hcut, hyes]; rfl, ?_⟩
  refine started_whole hstop hpos (fun e' he' => h.valid.stop_le_of_lt he' (.inl (h.not_queued hin)))
    ((h.tiles _).mp hin).2.1 hr.pending_eq ?_
  have hsame := hr.without
  rw [hposEq] at hsame
  rcases Nat.lt_or_eq_of_le hle with hinside | hfirst
  · refine .inr (.inl ⟨hinside, hlt, rfl, hrep, hsame.congr fun e _ => iff_of_false (by omega) id⟩)
  refine .inl ⟨Nat.le_of_eq hfirst.symm, rfl, ?_⟩
  rw [hfirst]
  exact hsame

/-- The frame starts where the gap ends. There a queued frame starts as well, and it is shorter than the new one. -/
theorem started_behind (hyes : startsInGap = true) (heq : offset = start.gap.stop) (hpos : offset < stop)
    (hmax : stop < maxByteCount) :
    s.Starts data offset stop start.gap startsInGap r := by
  have hgap := hat.gap_lt h
  have hread := h.readPos_le_start hat.gap_mem
  have hbound : ∀ e ∈ s.queue, e.1 < offset → e.1 + e.2.len ≤ offset := fun e he hlt =>
    h.stop_le_of_gap hat.gap_mem (by omega) (Nat.le_of_eq heq) he hlt
  have hout : ¬ s.InGap offset := by
    rw [hat.inGap_iff le_rfl]
    rintro (hin | ⟨g, hg, hin⟩)
    · omega
    have := hat.stop_lt h g hg
    have := hin.1
    omega
  obtain ⟨e, he⟩ := Valid.mem_of_covers_of_boundary (h.queued (by omega) (by omega) hout) hbound
  have hgt : offset < r.pos := by
    rcases Nat.lt_or_eq_of_le hr.chain.le with hgt | hpos
    · exact hgt
    rcases hr.next with ⟨-, hno⟩ | ⟨-, hrep, -⟩
    · exact absurd he (hpos ▸ hno e)
    · simpa [hpos] using hr.replaced_iff.mp hrep
  have hrep := hr.replaced_iff.mpr (.inr hgt)
  have hposLe := hr.pos_le
  have hcov : ∀ x, start.gap.stop ≤ x → x < r.pos → s.Queued x := fun x hx hlt =>
    hr.chain.covers ⟨heq ▸ hx, hlt⟩
  rcases hr.next with ⟨hcut, hno⟩ | ⟨hcut, -, e', he', hover⟩
  · refine ⟨⟨offset, stop, data, false⟩, by simp [cutAtStart, hcut, hyes]; rfl, ?_⟩
    exact started_whole hstop hpos hbound (h.unread _ he) hr.pending_eq (.inr (.inr ⟨heq, hrep, heq ▸ hgt, hposLe, hcov,
      heq ▸ hr.without, .inl ⟨rfl, hr.chain.not_covers h.valid hgt hno⟩⟩))
  refine ⟨⟨offset, r.pos, data.take (r.pos - offset), true⟩, ?_, ?_⟩
  · have hok := cutStop_eq_ok (C := C) (f := ⟨offset, stop, data, false⟩) hgt.le (by dsimp only; omega)
    simp only [cutAtStart, hcut, hyes, if_true, hok, Bool.true_eq_false, false_and, if_false]
    rfl
  exact {
    le_start := le_rfl
    lt := hgt
    stop_le := hposLe
    data_eq := by simp
    known := fun x hx hlt => absurd hx hlt.not_ge
    bound := hbound
    unread := h.unread _ he
    pending_eq := hr.pending_eq
    place := .inr (.inr ⟨heq, hrep, heq ▸ hgt, hposLe, hcov, heq ▸ hr.without, .inr ⟨rfl, e', he', hover⟩⟩) }

/-- The start of a frame that is not below its gap. -/
theorem exists_started (hreach : start.gap.start < stop) (hpos : offset < stop) (hmax : stop < maxByteCount) :
    s.Starts data offset stop start.gap startsInGap r := by
  rcases hat.inGap with ⟨hyes, hle, hle'⟩ | ⟨hno, hlt⟩
  · rcases Nat.lt_or_eq_of_le hle' with hlt | heq
    · exact started_inside hat h hstop hr hyes hle hlt hpos
    · exact started_behind hat h hstop hr hyes heq hpos hmax
  · exact started_before hat h hstop hr hno hlt hreach hmax

end Start

/-! ## Where the frame ends -/

/-- A part of the frame has taken the place of the queued frames in it, and the frame is cut out of the gaps. What
`store` adds to the queue is still missing. -/
structure Placed (s : FrameSorter C) (data : Bytes) (offset stop : Nat) (queue : FrameQueue C)
    (gaps : List ByteInterval) (f : NewFrame) (called : List C) : Prop where
  le_start : offset ≤ f.start
  lt : f.start < f.stop
  stop_le : f.stop ≤ stop
  data_eq : f.data = (data.drop (f.start - offset)).take (f.stop - f.start)
  unread : s.readPos ≤ f.start
  known : ∀ x, offset ≤ x → x < stop → ¬ (f.start ≤ x ∧ x < f.stop) → ¬ s.InGap x
  whole : Whole len s.queue f.start f.stop
  without : Without s.queue (fun k => f.start ≤ k ∧ k < f.stop) queue
  separated : Separated gaps
  covers_gaps : ∀ x, Interval.Covers gaps x ↔ s.InGap x ∧ ¬ (f.start ≤ x ∧ x < f.stop)
  pending_eq : pending s.queue = (called : Multiset C) + pending queue

def Stores (s : FrameSorter C) (data : Bytes) (offset stop : Nat) (doneCb : Option C)
    (result : Except (PushError C) (FrameSorter C × List C)) : Prop :=
  ∃ queue gaps f called, result = store { s with queue := queue, gaps := gaps } f doneCb called ∧
    s.Placed data offset stop queue gaps f called

/-- What is left when `startGap` and the gaps between are removed. -/
abbrev removeAcross (start found : GapElement) (between : List ByteInterval) (r : Replacement C) :=
  removeGaps found.gap.start between (deleteConsecutive r.queue start.gap.stop).1

section End

variable {s : FrameSorter C} {data : Bytes} {offset stop : Nat} {start : GapElement} {f' : NewFrame}
  {startsInGap endsInGap : Bool} {r : Replacement C} {f : NewFrame} {gap : ByteInterval}

theorem Started.length_data (hf : s.Started data offset stop gap r f) (hstop : stop = offset + data.length) :
    f.start + f.data.length = f.stop := by
  have h1 := hf.le_start
  have h2 := hf.lt
  have h3 := hf.stop_le
  rw [hf.data_eq, length_take, length_drop]
  omega

/-- The frame is cut where the gap ends, if it reaches that far. -/
theorem cutToEndGap_spec (hlt : f.start < gap.stop) (hlen : f.start + f.data.length = f.stop)
    (hends : endsInGap = true ↔ f.stop < gap.stop) :
    ∃ f', (f.cutToEndGap gap endsInGap : Except (PushError C) NewFrame) = .ok f' ∧ f'.start = f.start ∧
      f'.stop = min f.stop gap.stop ∧ f'.data = f.data.take (f'.stop - f'.start) := by
  rw [NewFrame.cutToEndGap]
  split
  · next hcut =>
    rw [cutStop_eq_ok hlt.le (by omega)]
    exact ⟨_, rfl, rfl, by dsimp only; omega, rfl⟩
  rename_i hcut
  have hle : f.stop ≤ gap.stop := by
    by_contra hgt
    have hno : endsInGap = false := by
      rw [← Bool.not_eq_true, hends]
      omega
    exact hcut ⟨hno, by omega, by omega⟩
  refine ⟨f, rfl, rfl, by omega, ?_⟩
  rw [take_of_length_le (by omega)]

theorem take_of_take (hf : s.Started data offset stop gap r f) (hstart : f'.start = f.start)
    (hle : f'.stop ≤ f.stop) (hdata : f'.data = f.data.take (f'.stop - f'.start)) :
    f'.data = (data.drop (f'.start - offset)).take (f'.stop - f'.start) := by
  rw [hdata, hf.data_eq, take_take, hstart]
  congr 1
  omega

theorem pending_across (start found : GapElement) (between : List ByteInterval)
    (hf : s.Started data offset stop gap r f) (hvalid : Valid len r.queue) :
    pending s.queue = ((r.called ++ ((deleteConsecutive r.queue start.gap.stop).2 ++
        (removeAcross start found between r).2.2) : List C) : Multiset C) +
      pending (removeAcross start found between r).2.1 := by
  obtain ⟨c, -, -, hwithout, hpending⟩ := deleteConsecutive_spec hvalid start.gap.stop
  rw [hf.pending_eq, hpending, pending_removeGaps (hwithout.valid hvalid), ← Multiset.coe_add, ← Multiset.coe_add,
    add_assoc, add_assoc]

theorem meets_singleton {a b : Nat} (ha : a ≤ gap.stop) (hb : gap.start ≤ b) (hab : a < b) :
    Meets [gap] gap gap a b where
  first_mem := mem_singleton.mpr rfl
  last_mem := mem_singleton.mpr rfl
  first := fun _ hk => .inl (mem_singleton.mp hk)
  last := fun _ hk => .inl (mem_singleton.mp hk)
  le_stop := ha
  start_le := hb
  lt := hab

theorem pushSame_eq {doneCb : Option C}
    (hcut : f.cutToEndGap start.gap endsInGap = (.ok f' : Except (PushError C) NewFrame))
    (hremains : (f.trimStartGap start.gap r.hasReplacedAtLeastOne).1 ++
      (if f'.stop ≠ start.gap.stop ∧ (f.trimStartGap start.gap r.hasReplacedAtLeastOne).2 = true then
        [⟨f'.stop, start.gap.stop⟩] else []) = Interval.remains start.gap start.gap f'.start f'.stop) :
    s.pushSame start endsInGap r f doneCb = store { s with
      queue := r.queue
      gaps := start.before ++ (Interval.remains start.gap start.gap f'.start f'.stop ++ start.after) }
      f' doneCb r.called := by
  rw [← hremains, pushSame]
  simp only [hcut]
  rfl

variable (hat : s.StartsAt offset start startsInGap) (h : s.Shape)
  (hf : s.Started data offset stop start.gap r f)
include hat h hf

/-- What is left of the gaps `m`, which the frame meets, makes up the new gaps. -/
theorem Started.placed {m after : List ByteInterval} {last : ByteInterval} {queue : FrameQueue C}
    {called : List C} (hgaps : s.gaps = start.before ++ (m ++ after)) (hafter : ∀ g ∈ after, stop < g.start)
    (hmeets : Meets m start.gap last f'.start f'.stop) (hstart : f'.start = f.start) (hle : f'.stop ≤ f.stop)
    (hdata : f'.data = f.data.take (f'.stop - f'.start)) (hknown : ∀ x, f'.stop ≤ x → x < stop → ¬ s.InGap x)
    (hbound : ∀ e ∈ s.queue, e.1 < f'.stop → e.1 + e.2.len ≤ f'.stop)
    (hwithout : Without s.queue (fun k => f'.start ≤ k ∧ k < f'.stop) queue)
    (hpending : pending s.queue = (called : Multiset C) + pending queue) :
    s.Placed data offset stop queue (start.before ++ (Interval.remains start.gap last f'.start f'.stop ++ after)) f'
      called := by
  have hoffset := hf.le_start
  have hstop := hf.stop_le
  have hsep := h.separated
  rw [hgaps] at hsep
  exact {
    le_start := hstart ▸ hoffset
    lt := hmeets.lt
    stop_le := Nat.le_trans hle hstop
    data_eq := take_of_take hf hstart hle hdata
    unread := hstart ▸ hf.unread
    known := fun x hx hxs hout => by
      rcases Nat.lt_or_ge x f.start with hlo | hhi
      · exact hf.known x hx hlo
      · exact hknown x (by omega) hxs
    whole := fun e he => ⟨hstart ▸ hf.bound e he, hbound e he⟩
    without := hwithout
    separated := hsep.cut hmeets
    covers_gaps := fun x => by
      rw [InGap, hgaps]
      refine Interval.covers_cut hmeets (fun k hk => ?_) fun k hk => ?_
      · have := hat.before k hk
        omega
      have := hafter k hk
      omega
    pending_eq := hpending }

/-- The frame ends in the gap, or behind it and before the next one: it is cut out of this gap. -/
theorem pushSame_spec (hstop : stop = offset + data.length) (hmax : stop < maxByteCount)
    (hreach : start.gap.start < stop) (hafter : ∀ g ∈ start.after, stop < g.start)
    (hends : endsInGap = true ↔ stop < start.gap.stop) (doneCb : Option C) :
    s.Stores data offset stop doneCb (s.pushSame start endsInGap r f doneCb) := by
  have hgap := hat.gap_lt h
  have hlen := hf.length_data hstop
  have hpos := hf.lt
  have hoffset := hf.le_start
  -- behind the gap and below `stop` there is no gap
  have hbehind : ∀ x, offset ≤ x → start.gap.stop ≤ x → x ≤ stop → ¬ s.InGap x := by
    intro x hx hgx hxs
    rw [hat.inGap_iff hx]
    rintro (hin | ⟨g, hg, hin⟩)
    · omega
    have := hafter g hg
    have := hin.1
    omega
  -- the frame starts before the gap or in it
  have hinside (hlt : f.start < start.gap.stop) (hfs : f.stop = stop)
      (hplace : f.start ≤ start.gap.start ∨ start.gap.start < f.start ∧ r.hasReplacedAtLeastOne = false)
      (hw : Without s.queue (fun k => f.start ≤ k ∧ k < start.gap.start) r.queue) :
      s.Stores data offset stop doneCb (s.pushSame start endsInGap r f doneCb) := by
    rw [← hfs] at hends
    obtain ⟨f', hcut, hstart, hstop', hdata⟩ := cutToEndGap_spec (C := C) hlt hlen hends
    refine ⟨_, _, f', _, pushSame_eq hcut ?_, hf.placed hat h hat.gaps_eq hafter
      (meets_singleton (by omega) (by omega) (by omega)) hstart (by omega) hdata ?_ ?_ ?_ hf.pending_eq⟩
    · rcases hplace with hle | ⟨hlt, hrep⟩
      · have hno : ¬ start.gap.start < f'.start := by omega
        rw [trimStartGap, if_pos hle, Interval.remains, if_neg hno]
        by_cases hall : start.gap.stop ≤ f.stop
        · have hno' : ¬ f'.stop < start.gap.stop := by omega
          simp [hall, hno']
        have hsame : f'.stop = f.stop := by omega
        simp [hall, hsame, Nat.not_le.mp hall]
      rw [trimStartGap, if_neg (Nat.not_le.mpr hlt), if_pos hrep, Interval.remains, hstart, if_pos hlt]
      congr 1
      by_cases hall : f'.stop = start.gap.stop
      · simp [hall]
      have hyes : f'.stop < start.gap.stop := by omega
      simp [hall, hyes]
    · exact fun x hx hxs => hbehind x (by omega) (by omega) (by omega)
    · exact fun e he hlt => h.stop_le_of_gap hat.gap_mem (by omega) (by omega) he hlt
    refine hw.congr fun e he => ?_
    have := h.key_not_mem hat.gap_mem he
    omega
  rcases hf.place with ⟨hle, hfs, hw⟩ | ⟨hlt, hlt', hfs, hrep, hw⟩ | ⟨heq, hrep, hlt, hle, hcov, hw, hend⟩
  · exact hinside (by omega) hfs (.inl hle) hw
  · exact hinside hlt' hfs (.inr ⟨hlt, hrep⟩) (hw.congr fun e _ => iff_of_false id (by omega))
  -- queued frames reach beyond `stop` from the end of the gap on, so the loop ended at one of them
  obtain ⟨hfs, e, he, hover⟩ : f.stop = r.pos ∧ ∃ e, (r.pos, e) ∈ s.queue ∧ stop < r.pos + e.data.length := by
    refine hend.resolve_left fun hleft =>
      hleft.2 (h.queued (by omega) ?_ (hbehind r.pos (by omega) (by omega) hle))
    have := h.readPos_le_start hat.gap_mem
    omega
  have hcut : f.cutToEndGap start.gap endsInGap = (.ok f : Except (PushError C) NewFrame) :=
    if_neg fun hc => hc.2.1 heq
  refine ⟨_, _, f, _, pushSame_eq hcut ?_, hf.placed hat h hat.gaps_eq hafter
    (meets_singleton (by omega) (by omega) (by omega)) rfl le_rfl ?_ ?_ ?_ ?_ hf.pending_eq⟩
  · have hyes : start.gap.start < f.start := by omega
    have hno : ¬ f.stop < start.gap.stop := by omega
    rw [trimStartGap, if_neg (Nat.not_le.mpr hyes), Interval.remains, if_pos hyes, if_neg hno, heq]
    simp [hrep]
  · rw [take_of_length_le (by omega)]
  · intro x hx hxs
    exact hbehind x (by omega) (by omega) (by omega)
  · intro e' he' hlt'
    exact hfs ▸ h.valid.stop_le_of_lt he' (.inr ⟨e, he⟩) (hfs ▸ hlt')
  · rw [heq, hfs]
    exact hw

/-- The gaps that a frame meets if it ends at a later gap than it starts. -/
structure EndsAt (s : FrameSorter C) (stop : Nat) (start found : GapElement) (between : List ByteInterval)
    (endsInGap : Bool) : Prop where
  after_eq : start.after = between ++ found.gap :: found.after
  start_le : found.gap.start ≤ stop
  after : ∀ g ∈ found.after, stop < g.start
  inGap : endsInGap = true ↔ stop < found.gap.stop

section Across

variable {found : GapElement} {between : List ByteInterval} {x : Nat}
  (hend : s.EndsAt stop start found between endsInGap)
omit h hf
include hend

theorem EndsAt.gap_mem : found.gap ∈ s.gaps := by
  rw [hat.gaps_eq, hend.after_eq]
  simp

/-- Between the start of the frame and `endGap` the gaps are `startGap` and those between. -/
theorem EndsAt.inGap_iff (hx : offset ≤ x) (hlt : x < found.gap.start) :
    s.InGap x ↔ Interval.Covers (start.gap :: between) x := by
  rw [hat.inGap_iff hx, hend.after_eq, covers_append, covers_cons, covers_cons, ← or_assoc]
  refine or_iff_left ?_
  rintro (hin | ⟨g, hg, hin⟩)
  · omega
  have := hend.after g hg
  have := hend.start_le
  have := hin.1
  omega

include h

theorem EndsAt.separated : Separated (start.gap :: between) ∧ (∀ g ∈ start.gap :: between, g.stop < found.gap.start) ∧
      found.gap.start < found.gap.stop := by
  have hs := h.separated
  rw [hat.gaps_eq, hend.after_eq, ← cons_append, separated_append, separated_append] at hs
  obtain ⟨-, ⟨hm, hf, hmf⟩, -⟩ := hs
  exact ⟨hm, fun g hg => hmf g hg found.gap mem_cons_self, (separated_cons.mp hf).1⟩

theorem EndsAt.not_queued (hx : Interval.Covers (start.gap :: between) x) : ¬ s.Queued x := by
  refine h.not_queued ?_
  rw [InGap, hat.gaps_eq, hend.after_eq, ← cons_append, covers_append, covers_append]
  exact .inr (.inl hx)

theorem EndsAt.alternates (hmax : stop < maxByteCount) :
    Alternates s.queue (start.gap :: between) start.gap.start found.gap.start := by
  intro x hx hlt
  constructor
  · intro hq
    have hout := fun hin => hend.not_queued hat h hin hq
    refine ⟨hout, start.gap, mem_cons_self, ?_⟩
    by_contra hshort
    exact hout (covers_cons.mpr (.inl ⟨hx, by omega⟩))
  rintro ⟨hout, g, hg, hle⟩
  have hstop := hend.start_le
  have hread := h.readPos_le_start hat.gap_mem
  have hfirst := ((hend.separated hat h).1.stop_le hg).trans hle
  have hoffset := hat.offset_le h
  refine h.queued (by omega) (by omega) ?_
  rwa [hend.inGap_iff hat (by omega) hlt]

theorem EndsAt.meets {a b : Nat} (ha : a ≤ start.gap.stop) (hb : found.gap.start ≤ b) :
    Meets ((start.gap :: between) ++ [found.gap]) start.gap found.gap a b := by
  obtain ⟨hsep, hlast, -⟩ := hend.separated hat h
  obtain ⟨-, hafter, -⟩ := separated_cons.mp hsep
  have hgapEnd := hlast start.gap mem_cons_self
  refine ⟨by simp, by simp, fun k hk => ?_, fun k hk => ?_, ha, hb, by omega⟩
  · rcases mem_append.mp hk with hk | hk
    · rcases mem_cons.mp hk with rfl | hk
      · exact .inl rfl
      have := hafter k hk
      exact .inr (by omega)
    · rw [mem_singleton.mp hk]
      exact .inr (by omega)
  rcases mem_append.mp hk with hk | hk
  · have := hlast k hk
    exact .inr (by omega)
  · exact .inl (mem_singleton.mp hk)

include hf

/-- All queued frames between the start of the new frame and `endGap` are removed, and all gaps between. -/
theorem EndsAt.without (hmax : stop < maxByteCount) :
    f.stop = stop ∧ (removeAcross start found between r).1 = [] ∧
      Without s.queue (fun k => f.start ≤ k ∧ k < found.gap.start) (removeAcross start found between r).2.1 := by
  obtain ⟨hsep, hlast, hpos'⟩ := hend.separated hat h
  have hendStart := h.not_queued (h.inGap_start (hend.gap_mem hat))
  have hgap := hat.gap_lt h
  have hgapEnd := hlast start.gap mem_cons_self
  have hstopLe := hend.start_le
  have halt := hend.alternates hat h hmax
  -- `startGap` is removed like the gaps between, if no queued frame was replaced behind it
  have hremove : ∀ {D : Nat → Prop}, Without s.queue D r.queue → (∀ k, start.gap.start ≤ k → ¬ D k) →
      (removeAcross start found between r).1 = [] ∧
        Without s.queue (fun k => D k ∨ start.gap.start ≤ k ∧ k < found.gap.start)
          (removeAcross start found between r).2.1 := by
    intro D hq hD
    have hspec := removeGaps_spec h.valid hq hsep hlast hendStart halt (fun k hk _ => hD k hk)
      fun g hg => hsep.start_le hg
    rw [removeGaps, if_pos hgapEnd] at hspec
    exact hspec
  rcases hf.place with ⟨hle, hfs, hw⟩ | ⟨hlt, hlt', hfs, -, hw⟩ | ⟨heq, -, hlt, hle, hcov, hw, hat'⟩
  · obtain ⟨hnil, hwithout⟩ := hremove hw fun k hk => by omega
    exact ⟨hfs, hnil, hwithout.congr fun e he => by omega⟩
  · obtain ⟨hnil, hwithout⟩ := hremove hw fun k hk => id
    refine ⟨hfs, hnil, hwithout.congr fun e he => ?_⟩
    have := h.key_not_mem hat.gap_mem he
    constructor
    · rintro (habs | hin)
      · exact habs.elim
      · exact ⟨by omega, hin.2⟩
    · exact fun hin => .inr ⟨by omega, hin.2⟩
  -- the loop has removed everything up to the next gap already
  have hposLe : r.pos ≤ found.gap.start := by
    by_contra hgt
    exact hendStart (hcov _ (by omega) (by omega))
  obtain ⟨hfs, hno⟩ : f.stop = stop ∧ ¬ s.Queued r.pos := by
    refine hat'.resolve_right ?_
    rintro ⟨-, e, he, hover⟩
    exact hendStart ⟨(r.pos, e), he, hposLe, Nat.lt_of_le_of_lt hstopLe hover⟩
  have hnothing : Without r.queue (fun _ => False) (deleteConsecutive r.queue start.gap.stop).1 := by
    obtain ⟨c, hchain, -, hwithout, -⟩ := deleteConsecutive_spec (hw.valid h.valid) start.gap.stop
    cases hchain with
    | nil => exact hwithout.congr fun e _ => iff_of_false (by omega) id
    | cons hv _ => exact absurd ⟨le_rfl, hlt⟩ ((hw _).mp hv).2
  have hoffset := hat.offset_le h
  obtain ⟨-, hafter, htail⟩ := separated_cons.mp hsep
  have hfirst : ∀ g ∈ between, r.pos ≤ g.start := by
    intro g hg
    by_contra hgt
    have := hafter g hg
    exact hend.not_queued hat h (covers_cons.mpr (.inr (Interval.covers_start htail hg)))
      (hcov _ (by omega) (by omega))
  -- `r.pos` is in one of the gaps between, or in `endGap`
  have hnext : r.pos = found.gap.start ∨ Interval.Covers between r.pos := by
    refine (Nat.eq_or_lt_of_le hposLe).imp_right fun hbefore => ?_
    have hread := h.readPos_le_start hat.gap_mem
    have hin : s.InGap r.pos := (h.tiles _).mpr ⟨by omega, by omega, hno⟩
    rw [hend.inGap_iff hat (by omega) hbefore, covers_cons] at hin
    exact hin.resolve_left (by omega)
  obtain ⟨hnil, hwithout⟩ := removeGaps_spec h.valid (hw.trans hnothing) htail
    (fun g hg => hlast g (mem_cons_of_mem _ hg)) hendStart (halt.tail (by omega) hlt.le hnext)
    (fun k hk _ hD => hD.elim (fun hin => Nat.not_lt.mpr hk hin.2) id) hfirst
  refine ⟨hfs, hnil, hwithout.congr fun e he => ?_⟩
  constructor
  · rintro ((hin | habs) | hin)
    · exact ⟨by omega, by omega⟩
    · exact habs.elim
    · exact ⟨by omega, hin.2⟩
  intro hin
  by_cases hbefore : e.1 < r.pos
  · exact .inl (.inl ⟨by omega, hbefore⟩)
  · exact .inr ⟨by omega, hin.2⟩

/-- The frame ends in or behind a later gap: all gaps from the first to the last are cut. -/
theorem pushAcross_spec (hstop : stop = offset + data.length) (hmax : stop < maxByteCount) (doneCb : Option C) :
    s.Stores data offset stop doneCb (s.pushAcross start found between endsInGap r f doneCb) := by
  obtain ⟨hsep, hlast, hpos⟩ := hend.separated hat h
  obtain ⟨hfs, hnil, hwithout⟩ := hend.without hat h hf hmax
  have hgapEnd := hlast start.gap mem_cons_self
  have hgap := hat.gap_lt h
  have hstopLe := hend.start_le
  have hle : f.start ≤ start.gap.stop := by
    rcases hf.place with hp | hp | hp <;> omega
  have hends := hend.inGap
  rw [← hfs] at hends
  have hltEnd : f.start < found.gap.stop := by omega
  obtain ⟨f', hcut, hstart, hstop', hdata⟩ := cutToEndGap_spec (C := C) hltEnd (hf.length_data hstop) hends
  have hmem := hend.gap_mem hat
  have hgaps : s.gaps = start.before ++ (((start.gap :: between) ++ [found.gap]) ++ found.after) := by
    rw [hat.gaps_eq, hend.after_eq]
    simp
  have hleft : (f.trimStartGap start.gap r.hasReplacedAtLeastOne).1 =
      if start.gap.start < f.start then [⟨start.gap.start, f.start⟩] else [] := by
    rcases hf.place with ⟨hle, -⟩ | ⟨hlt, -, -, hrep, -⟩ | ⟨heq, hrep, -⟩
    · rw [trimStartGap, if_pos hle, if_pos (show start.gap.stop ≤ f.stop by omega),
        if_neg (Nat.not_lt.mpr hle)]
    · rw [trimStartGap, if_neg (Nat.not_le.mpr hlt), if_pos hrep, if_pos hlt]
    have hlt : start.gap.start < f.start := by omega
    rw [trimStartGap, if_neg (Nat.not_le.mpr hlt), if_pos hlt, heq]
    simp [hrep]
  have hright : (if f'.stop = found.gap.stop then [] else [(⟨f'.stop, found.gap.stop⟩ : ByteInterval)]) =
      if f'.stop < found.gap.stop then [⟨f'.stop, found.gap.stop⟩] else [] := by
    by_cases hall : f'.stop = found.gap.stop
    · simp [hall]
    have hlt : f'.stop < found.gap.stop := by omega
    simp [hall, hlt]
  have hvalid : Valid len r.queue := by
    rcases hf.place with ⟨-, -, hw⟩ | ⟨-, -, -, -, hw⟩ | ⟨-, -, -, -, -, hw, -⟩ <;> exact hw.valid h.valid
  refine ⟨_, _, f', _, ?_, hf.placed hat h hgaps hend.after (hend.meets hat h (by omega) (by omega)) hstart (by omega)
    hdata ?_ ?_ ?_ (pending_across start found between hf hvalid)⟩
  · rw [pushAcross]
    simp only [hcut, hnil, hleft, append_nil, Interval.remains, hstart, ← hright]
    rfl
  · intro x hx hxs
    have hoffset := hat.offset_le h
    rw [hat.inGap_iff (by omega), hend.after_eq, covers_append, covers_cons]
    rintro (hin | ⟨g, hg, hin⟩ | hin | ⟨g, hg, hin⟩)
    · omega
    · have := hlast g (mem_cons_of_mem _ hg)
      have := hin.2
      omega
    · omega
    have := hend.after g hg
    have := hin.1
    omega
  · exact fun e he hlt => h.stop_le_of_gap hmem (by omega) (by omega) he hlt
  refine hwithout.congr fun e he => ?_
  have hno := h.key_not_mem hmem he
  omega

end Across

end End

/-! ## `push` -/

section Push

variable {s : FrameSorter C} {data : Bytes} {offset : Nat} {doneCb : Option C}

/-- The frame is a duplicate. -/
def Known (s : FrameSorter C) (data : Bytes) (offset : Nat) : Prop :=
  ∀ x, offset ≤ x → x < offset + data.length → ¬ s.InGap x

/-- The part of `push` that puts the frame into its place. -/
theorem push_found (h : s.Shape) {start found : GapElement} {startsInGap endsInGap : Bool}
    (hat : s.StartsAt offset start startsInGap) (hne : data.length ≠ 0) (hmax : offset + data.length < maxByteCount)
    (hfound : findEndGap (offset + data.length) (start.gap :: start.after) = some (some found, endsInGap))
    (hreach : start.gap.start < offset + data.length)
    (hr : replaceLoop (offset + data.length) s.queue.size s.queue offset false = some r) :
    s.Stores data offset (offset + data.length) doneCb (do
      let f ← cutAtStart ⟨offset, offset + data.length, data, false⟩ start.gap startsInGap r
      match found.before with
      | [] => s.pushSame start endsInGap r f doneCb
      | _ :: between => s.pushAcross start found between endsInGap r f doneCb) := by
  have hspec := replaceLoop_spec h.valid le_rfl (Nat.le_add_right _ _) hr
  obtain ⟨f, hcut, hf⟩ := exists_started hat h rfl hspec hreach (by omega) hmax
  rw [hcut]
  obtain ⟨heq, hle, hafter, hin⟩ := findEndGap_eq_some (hat.separated h) hfound
  obtain ⟨before, gap, after⟩ := found
  cases before with
  | nil =>
    obtain ⟨rfl, rfl⟩ := List.cons.inj heq
    exact pushSame_spec hat h hf rfl hmax hreach hafter hin doneCb
  | cons first between =>
    obtain ⟨rfl, hafterEq⟩ := List.cons.inj heq
    exact pushAcross_spec hat h hf ⟨hafterEq, hle, hafter, hin⟩ rfl hmax doneCb

theorem push_cases (h : s.Shape) (hne : data.length ≠ 0) (hmax : offset + data.length < maxByteCount)
    (doneCb : Option C) :
    (s.push data offset doneCb = .error .duplicateStreamData ∧ s.Known data offset) ∨
    s.Stores data offset (offset + data.length) doneCb (s.push data offset doneCb) := by
  obtain ⟨last, hlast, hlastStop⟩ := h.exists_last
  rw [push, if_neg hne]
  dsimp only
  split
  · next hnil =>
    rw [hnil] at hlast
    exact absurd hlast not_mem_nil
  rename_i front rest hgaps
  have hfront : ∀ g ∈ s.gaps, front.start ≤ g.start := by
    have hs := h.separated
    rw [hgaps] at hs ⊢
    exact fun g hg => hs.start_le hg
  split
  · next hearly =>
    refine .inl ⟨rfl, ?_⟩
    rintro x - hx ⟨g, hg, hin⟩
    have := hfront g hg
    have := hin.1
    omega
  rename_i hlate
  obtain ⟨start, startsInGap, hstart⟩ := exists_findStartGap hlast (show offset ≤ last.stop by omega)
  obtain ⟨hgapsEq, hbefore, hin⟩ := findStartGap_eq_some hstart
  have hat : s.StartsAt offset start startsInGap := ⟨hgapsEq, hbefore, hin⟩
  have hlast' : last ∈ start.gap :: start.after := by
    rw [hgapsEq] at hlast
    refine (mem_append.mp hlast).resolve_left fun hl => ?_
    have := hbefore last hl
    omega
  obtain ⟨found, endsInGap, hfound⟩ :=
    exists_findEndGap hlast' (show offset + data.length < last.stop by omega)
  simp only [hstart, hfound]
  cases found with
  | none =>
    obtain ⟨hbelow, -⟩ := lt_of_findEndGap_eq_none hfound
    cases hprev : start.before.getLast? with
    | none =>
      -- the first gap begins at or before the end of the frame
      rw [List.getLast?_eq_none_iff.mp hprev, nil_append] at hgapsEq
      rw [hgaps] at hgapsEq
      obtain ⟨rfl, -⟩ := List.cons.inj hgapsEq
      omega
    | some prev =>
      have hs := h.separated
      rw [hgapsEq, separated_append] at hs
      have hlt := hs.2.2 prev (mem_of_getLast? hprev) start.gap mem_cons_self
      have hpos := hs.1.1 prev (mem_of_getLast? hprev)
      have hpos' := hat.gap_lt h
      dsimp only
      rw [if_pos ⟨by omega, by omega⟩]
      exact .inl ⟨rfl, fun x hx hxs => hat.not_inGap_of_lt h hx (by omega)⟩
  | some found =>
    dsimp only
    split
    · next hdup =>
      exact .inl ⟨rfl, fun x hx hxs => hat.not_inGap_of_lt h hx (by omega)⟩
    rename_i hdup
    have hreach : start.gap.start < offset + data.length := by
      by_contra hbelow
      obtain ⟨-, hle, -, -⟩ := findEndGap_eq_some (hat.separated h) hfound
      have hpos := hat.gap_lt h
      by_cases hnil : found.before = []
      · exact hdup (.inl ⟨hnil, by omega⟩)
      · exact hdup (.inr ⟨hnil, by omega, by omega⟩)
    cases hr : replaceLoop (offset + data.length) s.queue.size s.queue offset false with
    | none =>
      obtain ⟨-, e, he, hlong⟩ := replaceLoop_eq_none hr
      refine .inl ⟨rfl, fun x hx hxs hin => h.not_queued hin ⟨(offset, e), he, hx, ?_⟩⟩
      exact Nat.lt_of_lt_of_le hxs hlong
    | some r => exact .inr (push_found h hat hne hmax hfound hreach hr)

theorem push_panics (h : s.Shape) (hne : data.length ≠ 0) (hmax : maxByteCount ≤ offset + data.length)
    (doneCb : Option C) : s.push data offset doneCb = .error .panic := by
  rw [push, if_neg hne]
  split
  · rfl
  rename_i front rest hgaps
  have hfront : front ∈ s.gaps := by
    rw [hgaps]
    exact mem_cons_self
  have hpos := h.separated.1 front hfront
  have hle := h.stop_le hfront
  rw [if_neg (by omega)]
  cases hstart : findStartGap offset s.gaps with
  | none => rfl
  | some r =>
    obtain ⟨start, startsInGap⟩ := r
    obtain ⟨hgapsEq, -, -⟩ := findStartGap_eq_some hstart
    have hs := h.separated
    rw [hgapsEq, separated_append] at hs
    have hnone : findEndGap (offset + data.length) (start.gap :: start.after) = none := by
      refine findEndGap_eq_none hs.2.1 fun g hg => ?_
      have := h.stop_le (hgapsEq ▸ mem_append_right _ hg)
      omega
    simp only [hnone]

end Push

end FrameSorter

end MoqQuic.L2.Quic
