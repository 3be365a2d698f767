import Mathlib.Data.List.Pairwise
import Mathlib.Order.Lattice

/-!
# Lists of separated intervals

A set of points is kept as the list of its maximal intervals, in ascending
order: the intervals are not empty, and any two of them have a point between
them that is in neither. `Separated` says so, and `Covers` is the set.

A part of such a list may be replaced by other separated intervals as long as
they stay within what they replace (`Separated.replace`). To cut the points from
`a` up to `b` out of the set, the intervals that these points meet are replaced
by what is left of the first and of the last one (`Separated.cut`, `covers_cut`).
-/
namespace MoqQuic
open List

/-- The points from `start` up to `stop`, without `stop` itself. -/
structure Interval (α : Type) where
  start : α
  stop : α
  deriving DecidableEq

namespace Interval

variable {α : Type} [LinearOrder α]

instance : Membership α (Interval α) := ⟨fun i x => i.start ≤ x ∧ x < i.stop⟩

theorem mem_def {i : Interval α} {x : α} : x ∈ i ↔ i.start ≤ x ∧ x < i.stop := Iff.rfl

def Covers (l : List (Interval α)) (x : α) : Prop := ∃ i ∈ l, x ∈ i

def Separated (l : List (Interval α)) : Prop :=
  (∀ i ∈ l, i.start < i.stop) ∧ l.Pairwise fun i j => i.stop < j.start

variable {l l' m m' : List (Interval α)} {i j : Interval α} {x : α}

@[simp] theorem not_covers_nil : ¬ Covers [] x := fun ⟨_, hi, _⟩ => not_mem_nil hi

@[simp] theorem covers_cons : Covers (i :: l) x ↔ (i.start ≤ x ∧ x < i.stop) ∨ Covers l x := by
  simp only [Covers, mem_cons, or_and_right, exists_or, exists_eq_left, mem_def]

@[simp] theorem covers_append : Covers (l ++ m) x ↔ Covers l x ∨ Covers m x := by
  simp only [Covers, mem_append, or_and_right, exists_or]

theorem covers_start (h : Separated l) (hi : i ∈ l) : Covers l i.start := ⟨i, hi, le_rfl, h.1 i hi⟩

theorem separated_nil : Separated ([] : List (Interval α)) := ⟨fun _ hi => absurd hi not_mem_nil, .nil⟩

theorem separated_cons : Separated (i :: l) ↔ i.start < i.stop ∧ (∀ j ∈ l, i.stop < j.start) ∧ Separated l := by
  simp only [Separated, forall_mem_cons, pairwise_cons]
  exact ⟨fun ⟨⟨hi, hl⟩, hil, hp⟩ => ⟨hi, hil, hl, hp⟩, fun ⟨hi, hil, hl, hp⟩ => ⟨⟨hi, hl⟩, hil, hp⟩⟩

theorem Separated.start_le (h : Separated (i :: l)) (hj : j ∈ i :: l) : i.start ≤ j.start := by
  rcases mem_cons.mp hj with rfl | hj
  · exact le_rfl
  · exact ((separated_cons.mp h).1.trans ((separated_cons.mp h).2.1 j hj)).le

theorem Separated.stop_le (h : Separated (i :: l)) (hj : j ∈ i :: l) : i.stop ≤ j.stop := by
  rcases mem_cons.mp hj with rfl | hj
  · exact le_rfl
  · exact (((separated_cons.mp h).2.1 j hj).trans (h.1 j (mem_cons_of_mem i hj))).le

theorem separated_append : Separated (l ++ m) ↔ Separated l ∧ Separated m ∧ ∀ i ∈ l, ∀ j ∈ m, i.stop < j.start := by
  simp only [Separated, forall_mem_append, pairwise_append]
  exact ⟨fun ⟨⟨hl, hm⟩, pl, pm, hlm⟩ => ⟨⟨hl, pl⟩, ⟨hm, pm⟩, hlm⟩,
    fun ⟨⟨hl, pl⟩, ⟨hm, pm⟩, hlm⟩ => ⟨⟨hl, hm⟩, pl, pm, hlm⟩⟩

/-- Intervals take the place of others within which they lie. -/
theorem Separated.replace (h : Separated (l ++ (m ++ l'))) (hm' : Separated m')
    (hstart : ∀ i ∈ m', ∃ j ∈ m, j.start ≤ i.start) (hstop : ∀ i ∈ m', ∃ j ∈ m, i.stop ≤ j.stop) :
    Separated (l ++ (m' ++ l')) := by
  simp only [separated_append, forall_mem_append] at h ⊢
  obtain ⟨hl, ⟨-, hl', hml'⟩, hlml'⟩ := h
  refine ⟨hl, ⟨hm', hl', fun i hi j hj => ?_⟩, fun i hi => ⟨fun j hj => ?_, (hlml' i hi).2⟩⟩
  · obtain ⟨k, hk, hle⟩ := hstop i hi
    exact lt_of_le_of_lt hle (hml' k hk j hj)
  obtain ⟨k, hk, hle⟩ := hstart j hj
  exact lt_of_lt_of_le ((hlml' i hi).1 k hk) hle

/-! ## Cutting points out -/

/-- What is left of the first and of the last interval without the points from `a` up to `b`. -/
def remains (i j : Interval α) (a b : α) : List (Interval α) :=
  (if i.start < a then [⟨i.start, a⟩] else []) ++ (if b < j.stop then [⟨b, j.stop⟩] else [])

/-- The intervals `m` are those that the points from `a` up to `b` meet; `i` is the first and `j` the last. -/
structure Meets (m : List (Interval α)) (i j : Interval α) (a b : α) : Prop where
  first_mem : i ∈ m
  last_mem : j ∈ m
  first : ∀ k ∈ m, k = i ∨ a ≤ k.start
  last : ∀ k ∈ m, k = j ∨ k.stop ≤ b
  le_stop : a ≤ i.stop
  start_le : j.start ≤ b
  lt : a < b

variable {a b : α}

theorem mem_remains {k : Interval α} (h : k ∈ remains i j a b) :
    k = ⟨i.start, a⟩ ∧ i.start < a ∨ k = ⟨b, j.stop⟩ ∧ b < j.stop := by
  rw [remains, mem_append] at h
  rcases h with h | h <;> split at h
  · exact .inl ⟨mem_singleton.mp h, ‹_›⟩
  · exact absurd h not_mem_nil
  · exact .inr ⟨mem_singleton.mp h, ‹_›⟩
  · exact absurd h not_mem_nil

theorem separated_remains (hab : a < b) : Separated (remains i j a b) := by
  have hpiece : ∀ c d : α, Separated (if c < d then [(⟨c, d⟩ : Interval α)] else []) := by
    intro c d
    split
    · exact separated_cons.mpr ⟨‹_›, fun _ h => absurd h not_mem_nil, separated_nil⟩
    · exact separated_nil
  refine separated_append.mpr ⟨hpiece i.start a, hpiece b j.stop, fun k hk k' hk' => ?_⟩
  split at hk <;> split at hk' <;> simp_all

theorem covers_remains (h : Meets m i j a b) : Covers (remains i j a b) x ↔ Covers m x ∧ ¬ (a ≤ x ∧ x < b) := by
  constructor
  · rintro ⟨k, hk, hx⟩
    rcases mem_remains hk with ⟨rfl, -⟩ | ⟨rfl, -⟩
    · exact ⟨⟨i, h.first_mem, hx.1, lt_of_lt_of_le hx.2 h.le_stop⟩, fun hab => absurd hx.2 (not_lt_of_ge hab.1)⟩
    · exact ⟨⟨j, h.last_mem, le_trans h.start_le hx.1, hx.2⟩, fun hab => absurd hab.2 (not_lt_of_ge hx.1)⟩
  rintro ⟨⟨k, hk, hx⟩, hab⟩
  rw [remains, covers_append]
  rcases lt_or_ge x a with hxa | hxa
  · -- before `a` only the first interval has points
    obtain rfl : k = i := (h.first k hk).resolve_right fun hle => not_lt_of_ge (le_trans hle hx.1) hxa
    refine .inl ?_
    rw [if_pos (lt_of_le_of_lt hx.1 hxa), covers_cons]
    exact .inl ⟨hx.1, hxa⟩
  have hxb : b ≤ x := not_lt.mp fun hlt => hab ⟨hxa, hlt⟩
  obtain rfl : k = j := (h.last k hk).resolve_right fun hle => not_lt_of_ge (le_trans hle hxb) hx.2
  refine .inr ?_
  rw [if_pos (lt_of_le_of_lt hxb hx.2), covers_cons]
  exact .inl ⟨hxb, hx.2⟩

theorem Separated.cut (hs : Separated (l ++ (m ++ l'))) (h : Meets m i j a b) :
    Separated (l ++ (remains i j a b ++ l')) := by
  refine hs.replace (separated_remains h.lt) (fun k hk => ?_) fun k hk => ?_
  · rcases mem_remains hk with ⟨rfl, -⟩ | ⟨rfl, -⟩
    · exact ⟨i, h.first_mem, le_rfl⟩
    · exact ⟨j, h.last_mem, h.start_le⟩
  rcases mem_remains hk with ⟨rfl, -⟩ | ⟨rfl, -⟩
  · exact ⟨i, h.first_mem, h.le_stop⟩
  · exact ⟨j, h.last_mem, le_rfl⟩

theorem covers_cut (h : Meets m i j a b) (hl : ∀ k ∈ l, k.stop ≤ a) (hl' : ∀ k ∈ l', b ≤ k.start) :
    Covers (l ++ (remains i j a b ++ l')) x ↔ Covers (l ++ (m ++ l')) x ∧ ¬ (a ≤ x ∧ x < b) := by
  have hbefore : Covers l x → ¬ (a ≤ x ∧ x < b) := fun ⟨k, hk, hx⟩ hab =>
    absurd (lt_of_lt_of_le hx.2 (hl k hk)) (not_lt_of_ge hab.1)
  have hafter : Covers l' x → ¬ (a ≤ x ∧ x < b) := fun ⟨k, hk, hx⟩ hab =>
    absurd hab.2 (not_lt_of_ge (le_trans (hl' k hk) hx.1))
  simp only [covers_append, covers_remains h]
  constructor
  · rintro (hx | ⟨hx, hout⟩ | hx)
    · exact ⟨.inl hx, hbefore hx⟩
    · exact ⟨.inr (.inl hx), hout⟩
    · exact ⟨.inr (.inr hx), hafter hx⟩
  rintro ⟨hx | hx | hx, hout⟩
  · exact .inl hx
  · exact .inr (.inl ⟨hx, hout⟩)
  · exact .inr (.inr hx)

end Interval

end MoqQuic
