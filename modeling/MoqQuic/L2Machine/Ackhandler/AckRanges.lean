import MoqQuic.L2Machine.Ackhandler.Space

/-!
# ACK ranges

What `validateAckRanges` accepts is a list of non-empty ranges, highest first,
with a gap between any two of them. So a packet number lies in one range at most,
and the first range that does not start above it is the only candidate.

* `acksPacket_iff`: `AcksPacket` is membership in one of the ranges.
-/
namespace MoqQuic.L2.Ackhandler
open List

def AckRange.Contains (r : AckRange) (p : Int) : Prop := r.smallest ≤ p ∧ p ≤ r.largest

/-- Descending, disjoint and not adjacent. -/
structure Descending (l : List AckRange) : Prop where
  nonempty : ∀ r ∈ l, r.smallest ≤ r.largest
  apart : l.Pairwise fun r r' => r'.largest + 1 < r.smallest

variable {l : List AckRange}

theorem Descending.tail {r : AckRange} (hl : Descending (r :: l)) : Descending l :=
  ⟨fun r' hr' => hl.nonempty r' (mem_cons_of_mem _ hr'), (pairwise_cons.mp hl.apart).2⟩

theorem descending_of_validate {l : List AckRange} (h : validateAckRanges l = true) : Descending l := by
  induction l with
  | nil => cases h
  | cons r l ih =>
    cases l with
    | nil =>
      refine ⟨fun r' hr' => ?_, pairwise_singleton _ _⟩
      rw [mem_singleton.mp hr']
      simpa [validateAckRanges] using h
    | cons r' l =>
      simp only [validateAckRanges, Bool.and_eq_true, decide_eq_true_eq] at h
      obtain ⟨⟨⟨hr, -⟩, hgap⟩, hrest⟩ := h
      have hl := ih hrest
      refine ⟨forall_mem_cons.mpr ⟨hr, hl.nonempty⟩, pairwise_cons.mpr ⟨fun x hx => ?_, hl.apart⟩⟩
      rcases mem_cons.mp hx with rfl | hx'
      · exact hgap
      -- the ranges in between are not empty
      have h1 := hl.nonempty r' mem_cons_self
      have h2 := (pairwise_cons.mp hl.apart).1 x hx'
      omega

/-- The range with the number is the first one that does not start above it. -/
theorem Descending.find_eq (hl : Descending l) {r : AckRange} (hr : r ∈ l) {p : Int} (hp : r.Contains p) :
    l.find? (fun r => p ≥ r.smallest) = some r := by
  induction l with
  | nil => cases hr
  | cons x l ih =>
    rcases mem_cons.mp hr with rfl | hr'
    · rw [List.find?_cons_of_pos (by simpa using hp.1)]
    have hgap := (pairwise_cons.mp hl.apart).1 r hr'
    rw [List.find?_cons_of_neg (by have := hp.2; simp; omega)]
    exact ih hl.tail hr'

/-- All numbers lie between the start of the last range and the end of the first one. -/
theorem Descending.between (hl : Descending l) {r : AckRange} (hr : r ∈ l) :
    (l.getLast?.map (·.smallest)).getD 0 ≤ r.smallest ∧ r.largest ≤ (l.head?.map (·.largest)).getD 0 := by
  constructor
  · obtain ⟨init, z, rfl⟩ : ∃ init z, l = init ++ [z] :=
      ⟨l.dropLast, l.getLast (ne_nil_of_mem hr), (dropLast_append_getLast _).symm⟩
    rw [List.getLast?_append, List.getLast?_singleton]
    rcases mem_append.mp hr with hr' | hr'
    · have hgap := (pairwise_append.mp hl.apart).2.2 r hr' z (mem_singleton_self z)
      have hz := hl.nonempty z (mem_append_right _ (mem_singleton_self z))
      show z.smallest ≤ r.smallest
      omega
    · rw [mem_singleton.mp hr']
      exact le_rfl
  cases l with
  | nil => cases hr
  | cons x l =>
    show r.largest ≤ x.largest
    rcases mem_cons.mp hr with rfl | hr'
    · exact le_rfl
    have hgap := (pairwise_cons.mp hl.apart).1 r hr'
    have hx := hl.nonempty x mem_cons_self
    omega

namespace AckFrame

variable (ack : AckFrame)

theorem descending : Descending ack.ackRanges := descending_of_validate ack.valid

theorem exists_largest : ∃ r ∈ ack.ackRanges, r.largest = ack.largestAcked := by
  obtain ⟨_ | ⟨r, ranges⟩, delay, ect0, ect1, ecnce, valid⟩ := ack
  · cases valid
  · exact ⟨r, mem_cons_self, rfl⟩

theorem acksPacket_iff (p : Int) : ack.acksPacket p = true ↔ ∃ r ∈ ack.ackRanges, r.Contains p := by
  constructor
  · intro h
    unfold acksPacket at h
    split at h
    · cases h
    cases hf : ack.ackRanges.find? (fun r => p ≥ r.smallest) with
    | none => rw [hf] at h; cases h
    | some r =>
      rw [hf] at h
      have hsm := List.find?_some hf
      exact ⟨r, mem_of_find?_eq_some hf, by simpa using hsm, by simpa using h⟩
  rintro ⟨r, hr, hp⟩
  obtain ⟨hlo, hhi⟩ := ack.descending.between hr
  have hin : ¬(p < ack.lowestAcked ∨ p > ack.largestAcked) := by
    have h1 := hp.1
    have h2 := hp.2
    unfold lowestAcked largestAcked
    omega
  rw [acksPacket, if_neg hin, ack.descending.find_eq hr hp]
  simpa using hp.2

variable {ack}

/-- Without missing ranges there is one range, from the lowest to the largest number. -/
theorem acksPacket_of_not_hasMissingRanges {pn : Int} (hm : ¬ ack.hasMissingRanges = true)
    (hlo : ¬ pn < ack.lowestAcked) (hhi : ¬ pn > ack.largestAcked) : ack.acksPacket pn = true := by
  obtain ⟨ranges, delay, ect0, ect1, ecnce, valid⟩ := ack
  match ranges, valid with
  | [], valid => cases valid
  | [r], _ =>
    refine (acksPacket_iff _ pn).mpr ⟨r, mem_singleton_self r, ?_, ?_⟩
    · simpa [lowestAcked] using hlo
    · simpa [largestAcked] using hhi
  | r :: r' :: rs, _ => simp [hasMissingRanges] at hm

end AckFrame

end MoqQuic.L2.Ackhandler
