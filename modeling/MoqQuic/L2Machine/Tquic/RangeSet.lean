import Mathlib.Data.Set.Basic
import Mathlib.Order.Interval.Set.Defs
import Mathlib.Order.Nat
import MoqQuic.Core.OrdMap

/-!
# Sets of numbers kept as ranges (`ranges.rs`)

A `RangeSet` is a B-tree map from the start of a range to its end. `insert`
merges what overlaps or touches the new range, so two stored ranges always
have a gap between them; `remove` cuts. That no two ranges touch is what makes
`ack_off` and the comparison with a single range say what they are meant to
say, and is part of the type.

The capacity is left out. The sets modelled here are made by `default()`, and
hold fewer ranges than `usize::MAX`. Numbers are below `u64::MAX`, so that the
`elem + 1` of `remove_until` is exact.

Results:
* `mem_insert`, `mem_remove`, `mem_removeElem`: the operations are union and
  difference of sets.
* `ext_of_mem`: a set is its members, since no two ranges touch.
* `popMin_eq_some`: the smallest range goes, everything else stays.
* `run_refines`: after any calls the map holds the set that the calls
  describe, and `filter` finds the first gap in a range.
-/
namespace MoqQuic.L2.Tquic

/-- `[start, stop)`. -/
structure Range where
  start : Nat
  stop : Nat
  deriving DecidableEq

namespace Range

instance : Membership Nat Range := ⟨fun r x => r.start ≤ x ∧ x < r.stop⟩

theorem mem_def {r : Range} {x : Nat} : x ∈ r ↔ r.start ≤ x ∧ x < r.stop := Iff.rfl

def isEmpty (r : Range) : Prop := r.stop ≤ r.start

instance (r : Range) : Decidable r.isEmpty := Nat.decLe ..

instance (r : Range) (x : Nat) : Decidable (x ∈ r) := inferInstanceAs (Decidable (r.start ≤ x ∧ x < r.stop))

end Range

/-! ## The map of ranges -/

/-- Start of a range to its end. -/
abbrev RangeMap := OrdMap Nat Nat

namespace RangeMap
open OrdMap

variable (m : RangeMap)

def Covers (x : Nat) : Prop := ∃ e ∈ m, e.1 ≤ x ∧ x < e.2

/-- No range is empty and no two touch. -/
def Canonical : Prop := ∀ e ∈ m, e.1 < e.2 ∧ ∀ e' ∈ m, e.1 < e'.1 → e.2 < e'.1

/-- Remove the ranges that start in `[start, stop]` and stretch `stop` over them. Each turn removes a range, so
the size of the map bounds the turns. -/
def absorb : Nat → RangeMap → Nat → Nat → RangeMap × Nat
  | 0, m, _, stop => (m, stop)
  | n + 1, m, start, stop =>
    match m.nextTo start with
    | some r => if r.1 > stop then (m, stop) else absorb n (m.erase r.1) start (max r.2 stop)
    | none => (m, stop)

def insertMerged (start stop : Nat) : RangeMap :=
  let merged := absorb m.size m start stop
  merged.1.insert start merged.2

/-- mirrors ranges.rs:44-78 -/
def insert (r : Range) : RangeMap :=
  if r.isEmpty then m
  else match m.prevTo r.start with
    | some p =>
      if p.2 ≥ r.stop then m
      else if p.2 ≥ r.start then insertMerged (m.erase p.1) p.1 r.stop
      else insertMerged m r.start r.stop
    | none => insertMerged m r.start r.stop

/-- Cut the ranges that start in `[start, stop]`. -/
def cut : Nat → RangeMap → Nat → Nat → RangeMap
  | 0, m, _, _ => m
  | n + 1, m, start, stop =>
    match m.nextTo start with
    | some r =>
      if r.1 > stop then m
      else if r.2 > stop then (m.erase r.1).insert stop r.2
      else cut n (m.erase r.1) start stop
    | none => m

/-- mirrors ranges.rs:87-126 -/
def remove (r : Range) : RangeMap :=
  if m.entries = [] ∨ r.isEmpty then m
  else match m.prevTo r.start with
    | some p =>
      if p.2 > r.start then
        let m := m.erase p.1
        let m := if p.1 < r.start then m.insert p.1 r.start else m
        let m := if p.2 > r.stop then m.insert r.stop p.2 else m
        if p.2 ≥ r.stop then m else cut m.size m r.start r.stop
      else cut m.size m r.start r.stop
    | none => cut m.size m r.start r.stop

variable {m : RangeMap} {start stop x : Nat} {e : Nat × Nat}

theorem covers_erase (he : e ∈ m) : m.Covers x ↔ (e.1 ≤ x ∧ x < e.2) ∨ Covers (m.erase e.1) x := by
  constructor
  · rintro ⟨a, ha, hx⟩
    by_cases hk : a.1 = e.1
    · exact .inl (eq_of_key_eq ha he hk ▸ hx)
    · exact .inr ⟨a, mem_erase.mpr ⟨ha, hk⟩, hx⟩
  rintro (hx | ⟨a, ha, hx⟩)
  · exact ⟨e, he, hx⟩
  · exact ⟨a, (mem_erase.mp ha).1, hx⟩

/-- A range whose start is not yet a key adds exactly its numbers. -/
theorem covers_insert (hnew : ∀ e ∈ m, e.1 ≠ start) :
    Covers (OrdMap.insert m start stop) x ↔ m.Covers x ∨ start ≤ x ∧ x < stop := by
  constructor
  · rintro ⟨a, ha, hx⟩
    rcases mem_insert.mp ha with rfl | ⟨ha, -⟩
    · exact .inr hx
    · exact .inl ⟨a, ha, hx⟩
  rintro (⟨a, ha, hx⟩ | hx)
  · exact ⟨a, mem_insert.mpr (.inr ⟨ha, hnew a ha⟩), hx⟩
  · exact ⟨(start, stop), mem_insert.mpr (.inl rfl), hx⟩

theorem Canonical.apart {p : Nat × Nat} (hm : m.Canonical) (he : e ∈ m) (hp : p ∈ m) :
    e = p ∨ e.2 < p.1 ∨ p.2 < e.1 := by
  rcases Nat.lt_trichotomy e.1 p.1 with hlt | hkey | hgt
  · exact .inr (.inl ((hm e he).2 p hp hlt))
  · exact .inl (eq_of_key_eq he hp hkey)
  · exact .inr (.inr ((hm p hp).2 e he hgt))

theorem Canonical.erase (hm : m.Canonical) (k : Nat) : Canonical (m.erase k) := by
  intro e he
  have hcan := hm e (mem_erase.mp he).1
  exact ⟨hcan.1, fun e' he' => hcan.2 e' (mem_erase.mp he').1⟩

/-- A range that touches no stored one can be added. -/
theorem Canonical.insert (hm : m.Canonical) (hlt : start < stop) (hbefore : ∀ e ∈ m, e.1 < start → e.2 < start)
    (hafter : ∀ e ∈ m, start ≤ e.1 → stop < e.1) : Canonical (OrdMap.insert m start stop) := by
  intro e he
  rcases mem_insert.mp he with rfl | ⟨he, hne⟩
  · refine ⟨hlt, fun e' he' hkey => ?_⟩
    rcases mem_insert.mp he' with rfl | ⟨he', -⟩
    · omega
    · exact hafter e' he' hkey.le
  refine ⟨(hm e he).1, fun e' he' hkey => ?_⟩
  rcases mem_insert.mp he' with rfl | ⟨he', -⟩
  · exact hbefore e he hkey
  · exact (hm e he).2 e' he' hkey

/-! ## Insertion is union -/

/-- The ranges that are left start before `start` or after the stretched end, and nothing is lost. -/
theorem absorb_spec (start : Nat) (n : Nat) (m : RangeMap) (stop : Nat) (hsize : m.size ≤ n) :
    stop ≤ (absorb n m start stop).2 ∧ (∀ e, e ∈ (absorb n m start stop).1 ↔ e ∈ m ∧ (e.1 < start ∨ (absorb n m
      start stop).2 < e.1)) ∧ ∀ x, (Covers (absorb n m start stop).1 x ∨ start ≤ x ∧ x < (absorb n m start
      stop).2 ↔ m.Covers x ∨ start ≤ x ∧ x < stop) := by
  induction n generalizing m stop with
  | zero =>
    have hempty := not_mem_of_size_le_zero hsize
    exact ⟨le_rfl, fun e => ⟨fun he => absurd he (hempty e), And.left⟩, fun x => Iff.rfl⟩
  | succ n ih =>
    unfold absorb
    cases hnext : m.nextTo start with
    | none =>
      have hall := nextTo_eq_none.mp hnext
      exact ⟨le_rfl, fun e => ⟨fun he => ⟨he, .inl (hall e he)⟩, And.left⟩, fun x => Iff.rfl⟩
    | some r =>
      obtain ⟨hr, hstart, hfirst⟩ := nextTo_eq_some hnext
      dsimp only
      split
      · next hgt =>
        refine ⟨le_rfl, fun e => ⟨fun he => ⟨he, ?_⟩, And.left⟩, fun x => Iff.rfl⟩
        rcases Nat.lt_or_ge e.1 start with hlt | hge
        · exact .inl hlt
        · exact .inr (lt_of_lt_of_le hgt (hfirst e he hge))
      rename_i hle
      have hsmaller : (OrdMap.erase m r.1).size ≤ n := by
        have := size_erase_lt hr
        omega
      obtain ⟨hstop, hmem, hcov⟩ := ih (m.erase r.1) (max r.2 stop) hsmaller
      refine ⟨by omega, fun e => ?_, fun x => ?_⟩
      · rw [hmem e, mem_erase]
        constructor
        · rintro ⟨⟨he, -⟩, h⟩
          exact ⟨he, h⟩
        rintro ⟨he, h⟩
        exact ⟨⟨he, by omega⟩, h⟩
      rw [hcov x, covers_erase hr]
      constructor
      · rintro (h | h)
        · exact .inl (.inr h)
        by_cases hx : x < stop
        · exact .inr ⟨h.1, hx⟩
        · exact .inl (.inl ⟨by omega, by omega⟩)
      rintro ((h | h) | h)
      · exact .inr ⟨by omega, by omega⟩
      · exact .inl h
      · exact .inr ⟨h.1, by omega⟩

theorem insertMerged_spec (hm : m.Canonical) (hlt : start < stop) (hbefore : ∀ e ∈ m, e.1 < start → e.2 < start) :
    Canonical (insertMerged m start stop) ∧
      ∀ x, Covers (insertMerged m start stop) x ↔ m.Covers x ∨ start ≤ x ∧ x < stop := by
  obtain ⟨hstop, hmem, hcov⟩ := absorb_spec start m.size m stop le_rfl
  have hafter : ∀ e ∈ (absorb m.size m start stop).1, start ≤ e.1 → (absorb m.size m start stop).2 < e.1 := by
    intro e he hge
    exact ((hmem e).mp he).2.resolve_left (by omega)
  constructor
  · refine Canonical.insert (fun e he => ?_) (by omega) (fun e he => hbefore e ((hmem e).mp he).1) hafter
    have hcan := hm e ((hmem e).mp he).1
    exact ⟨hcan.1, fun e' he' => hcan.2 e' ((hmem e').mp he').1⟩
  intro x
  rw [← hcov x]
  refine covers_insert fun e he hk => ?_
  have := hafter e he (le_of_eq hk.symm)
  omega

theorem insert_spec (hm : m.Canonical) (r : Range) :
    Canonical (insert m r) ∧ ∀ x, Covers (insert m r) x ↔ m.Covers x ∨ x ∈ r := by
  unfold insert
  split
  · next hempty =>
    refine ⟨hm, fun x => ⟨.inl, fun h => h.resolve_right fun hx => ?_⟩⟩
    rw [Range.isEmpty] at hempty
    rw [Range.mem_def] at hx
    omega
  next hne =>
  rw [Range.isEmpty] at hne
  cases hprev : m.prevTo r.start with
  | none =>
    have hall := prevTo_eq_none.mp hprev
    refine insertMerged_spec hm (by omega) fun e he hlt => ?_
    have := hall e he
    omega
  | some p =>
    obtain ⟨hp, hple, hlast⟩ := prevTo_eq_some hprev
    dsimp only
    split
    · next hcovered =>
      refine ⟨hm, fun x => ⟨.inl, fun h => h.elim id fun hx => ⟨p, hp, ?_⟩⟩⟩
      rw [Range.mem_def] at hx
      omega
    rename_i hcovered
    split
    · next htouch =>
      -- the preceding range goes into the new one
      obtain ⟨hcan, hcov⟩ := insertMerged_spec (hm.erase p.1) (show p.1 < r.stop by omega) fun e he hlt =>
        (hm e (mem_erase.mp he).1).2 p hp hlt
      refine ⟨hcan, fun x => ?_⟩
      rw [hcov x, covers_erase hp, Range.mem_def]
      constructor
      · rintro (h | h)
        · exact .inl (.inr h)
        by_cases hx : x < p.2
        · exact .inl (.inl ⟨h.1, hx⟩)
        · exact .inr ⟨by omega, h.2⟩
      rintro ((h | h) | h)
      · exact .inr ⟨h.1, by omega⟩
      · exact .inl h
      · exact .inr ⟨by omega, h.2⟩
    · next htouch =>
      refine insertMerged_spec hm (by omega) fun e he hlt => ?_
      have := hlast e he hlt.le
      have := (hm p hp).1
      rcases hm.apart he hp with rfl | h <;> omega

/-! ## Removal is difference -/

/-- What starts in `[start, stop]` goes, except for the rest of a range that reaches beyond `stop`. -/
theorem mem_cut (hlt : start < stop) (n : Nat) (m : RangeMap) (hsize : m.size ≤ n) (hm : m.Canonical) (e) :
    (e ∈ cut n m start stop ↔ e ∈ m ∧ (e.1 < start ∨ stop < e.1) ∨
      ∃ r ∈ m, start ≤ r.1 ∧ r.1 ≤ stop ∧ stop < r.2 ∧ e = (stop, r.2)) := by
  induction n generalizing m e with
  | zero =>
    have hempty := not_mem_of_size_le_zero hsize
    constructor
    · exact fun he => absurd he (hempty e)
    rintro (⟨he, -⟩ | ⟨r, hr, -⟩)
    · exact absurd he (hempty e)
    · exact absurd hr (hempty r)
  | succ n ih =>
    unfold cut
    cases hnext : m.nextTo start with
    | none =>
      have hall := nextTo_eq_none.mp hnext
      constructor
      · exact fun he => .inl ⟨he, .inl (hall e he)⟩
      rintro (⟨he, -⟩ | ⟨r, hr, hge, -⟩)
      · exact he
      have := hall r hr
      omega
    | some r =>
      obtain ⟨hr, hstart, hfirst⟩ := nextTo_eq_some hnext
      dsimp only
      split
      · next hgt =>
        constructor
        · intro he
          refine .inl ⟨he, ?_⟩
          have := hfirst e he
          omega
        rintro (⟨he, -⟩ | ⟨a, ha, hge, hle, -⟩)
        · exact he
        have := hfirst a ha hge
        omega
      rename_i hle
      split
      · next hover =>
        -- `r` reaches beyond `stop`, so every later range starts after it
        have hlater : ∀ a ∈ m, start ≤ a.1 → a.1 ≠ r.1 → stop < a.1 := by
          intro a ha hge hne
          have := hfirst a ha hge
          have := (hm r hr).2 a ha (by omega)
          omega
        rw [mem_insert, mem_erase]
        constructor
        · rintro (rfl | ⟨⟨he, hne⟩, -⟩)
          · exact .inr ⟨r, hr, hstart, by omega, hover, rfl⟩
          refine .inl ⟨he, ?_⟩
          rcases Nat.lt_or_ge e.1 start with h | h
          · exact .inl h
          · exact .inr (hlater e he h hne)
        rintro (⟨he, h⟩ | ⟨a, ha, hge, hle', hover', rfl⟩)
        · exact .inr ⟨⟨he, by omega⟩, by omega⟩
        left
        by_cases hk : a.1 = r.1
        · rw [eq_of_key_eq ha hr hk]
        have := hlater a ha hge hk
        omega
      · next hunder =>
        have hsmaller : (OrdMap.erase m r.1).size ≤ n := by
          have := size_erase_lt hr
          omega
        rw [ih (m.erase r.1) hsmaller (hm.erase r.1) e]
        constructor
        · rintro (⟨he, h⟩ | ⟨a, ha, h⟩)
          · exact .inl ⟨(mem_erase.mp he).1, h⟩
          · exact .inr ⟨a, (mem_erase.mp ha).1, h⟩
        rintro (⟨he, h⟩ | ⟨a, ha, hge, hle', hover', heq⟩)
        · exact .inl ⟨mem_erase.mpr ⟨he, by omega⟩, h⟩
        refine .inr ⟨a, mem_erase.mpr ⟨ha, fun hk => ?_⟩, hge, hle', hover', heq⟩
        rw [eq_of_key_eq ha hr hk] at hover'
        omega

/-- `cut` on a map none of whose ranges reaches over `start`. -/
theorem cut_spec (hm : m.Canonical) (hlt : start < stop) (hbefore : ∀ e ∈ m, e.1 < start → e.2 ≤ start) :
    Canonical (cut m.size m start stop) ∧
      ∀ x, Covers (cut m.size m start stop) x ↔ m.Covers x ∧ ¬ (start ≤ x ∧ x < stop) := by
  have hmem := mem_cut hlt m.size m le_rfl hm
  constructor
  · intro e he
    rcases (hmem e).mp he with ⟨he, hside⟩ | ⟨r, hr, hge, hle, hover, rfl⟩
    · refine ⟨(hm e he).1, fun e' he' hkey => ?_⟩
      rcases (hmem e').mp he' with ⟨he', -⟩ | ⟨r, hr, hge, hle, hover, rfl⟩
      · exact (hm e he).2 e' he' hkey
      have := hbefore e he
      omega
    refine ⟨hover, fun e' he' hkey => ?_⟩
    rcases (hmem e').mp he' with ⟨he', -⟩ | ⟨r', -, -, -, -, rfl⟩
    · exact (hm r hr).2 e' he' (by dsimp only at hkey; omega)
    · omega
  intro x
  constructor
  · rintro ⟨e, he, hx⟩
    rcases (hmem e).mp he with ⟨he, hside⟩ | ⟨r, hr, hge, hle, hover, rfl⟩
    · refine ⟨⟨e, he, hx⟩, ?_⟩
      have := hbefore e he
      omega
    · exact ⟨⟨r, hr, by omega⟩, by omega⟩
  rintro ⟨⟨e, he, hx⟩, hout⟩
  by_cases hside : e.1 < start ∨ stop < e.1
  · exact ⟨e, (hmem e).mpr (.inl ⟨he, hside⟩), hx⟩
  refine ⟨(stop, e.2), (hmem _).mpr (.inr ⟨e, he, by omega, by omega, by omega, rfl⟩), ?_⟩
  omega

/-- The range that starts at or before `start` and reaches over it is shortened to what lies before `start`. -/
theorem trim_spec {p : Nat × Nat} (hm : m.Canonical) (hp : p ∈ m) (hple : p.1 ≤ start) (hover : start < p.2) :
    let m' := if p.1 < start then (OrdMap.erase m p.1).insert p.1 start else OrdMap.erase m p.1
    Canonical m' ∧ (∀ e ∈ m', e.1 < start ∧ e.2 ≤ start ∨ p.2 < e.1) ∧
      ∀ x, Covers m' x ↔ m.Covers x ∧ ¬ (start ≤ x ∧ x < p.2) := by
  have hother : ∀ e ∈ OrdMap.erase m p.1, e.1 < e.2 ∧ (e.2 < p.1 ∨ p.2 < e.1) := by
    intro e he
    obtain ⟨he, hne⟩ := mem_erase.mp he
    exact ⟨(hm e he).1, (hm.apart he hp).resolve_left fun h => hne (h ▸ rfl)⟩
  have hcov : ∀ x, m.Covers x ∧ ¬ (start ≤ x ∧ x < p.2) ↔ Covers (OrdMap.erase m p.1) x ∨ p.1 ≤ x ∧ x < start := by
    intro x
    rw [covers_erase hp]
    constructor
    · rintro ⟨h | h, hout⟩
      · exact .inr ⟨h.1, by omega⟩
      · exact .inl h
    rintro (⟨e, he, hx⟩ | h)
    · refine ⟨.inr ⟨e, he, hx⟩, ?_⟩
      have := hother e he
      omega
    · exact ⟨.inl ⟨h.1, by omega⟩, by omega⟩
  split
  · next hlt =>
    refine ⟨(hm.erase p.1).insert hlt ?_ ?_, fun e he => ?_, fun x => ?_⟩
    · intro e he hlt'
      have := hother e he
      omega
    · intro e he hge
      have := hother e he
      omega
    · rcases mem_insert.mp he with rfl | ⟨he, -⟩
      · exact .inl ⟨hlt, le_rfl⟩
      have := hother e he
      omega
    · rw [hcov x]
      exact covers_insert fun e he => (mem_erase.mp he).2
  · next hge =>
    refine ⟨hm.erase p.1, fun e he => ?_, fun x => ?_⟩
    · have := hother e he
      omega
    rw [hcov x]
    exact ⟨.inl, fun h => h.resolve_right (by omega)⟩

theorem remove_spec (hm : m.Canonical) (r : Range) :
    Canonical (remove m r) ∧ ∀ x, Covers (remove m r) x ↔ m.Covers x ∧ x ∉ r := by
  simp only [Range.mem_def]
  unfold remove
  split
  · next htrivial =>
    refine ⟨hm, fun x => ⟨fun h => ⟨h, ?_⟩, And.left⟩⟩
    rcases htrivial with hnil | hempty
    · obtain ⟨e, he, -⟩ := h
      rw [mem_def, hnil] at he
      exact absurd he List.not_mem_nil
    · rw [Range.isEmpty] at hempty
      omega
  next hne =>
  have hlt : r.start < r.stop := Nat.lt_of_not_le fun h => hne (.inr h)
  cases hprev : m.prevTo r.start with
  | none =>
    refine cut_spec hm hlt fun e he hlt' => ?_
    have := prevTo_eq_none.mp hprev e he
    omega
  | some p =>
    obtain ⟨hp, hple, hlast⟩ := prevTo_eq_some hprev
    dsimp only
    split
    · next hover =>
      obtain ⟨hcan, hside, hcov⟩ := trim_spec hm hp hple hover
      generalize (if p.1 < r.start then (OrdMap.erase m p.1).insert p.1 r.start else OrdMap.erase m p.1) = trimmed
        at hcan hside hcov ⊢
      by_cases hwide : p.2 > r.stop
      · rw [if_pos hwide, if_pos hwide.le]
        have hnew : ∀ e ∈ trimmed, e.1 ≠ r.stop := by
          intro e he
          have := hside e he
          omega
        refine ⟨Canonical.insert hcan hwide ?_ ?_, fun x => ?_⟩
        · intro e he hlt'
          have := hside e he
          omega
        · intro e he hge
          have := hside e he
          omega
        rw [covers_insert hnew, hcov x]
        constructor
        · rintro (⟨h, hout⟩ | h)
          · exact ⟨h, by omega⟩
          · exact ⟨⟨p, hp, by omega⟩, by omega⟩
        rintro ⟨h, hout⟩
        by_cases hx : r.stop ≤ x ∧ x < p.2
        · exact .inr hx
        · exact .inl ⟨h, by omega⟩
      split
      · next hexact =>
        refine ⟨hcan, fun x => ?_⟩
        rw [hcov x, show p.2 = r.stop by omega]
      rename_i hshort
      obtain ⟨hcan', hcov'⟩ := cut_spec hcan hlt fun e he hlt' => by have := hside e he; omega
      refine ⟨hcan', fun x => ?_⟩
      rw [hcov' x, hcov x]
      exact ⟨fun h => ⟨h.1.1, h.2⟩, fun h => ⟨⟨h.1, by omega⟩, h.2⟩⟩
    · next hunder =>
      refine cut_spec hm hlt fun e he hlt' => ?_
      have := hlast e he hlt'.le
      have := (hm p hp).1
      rcases hm.apart he hp with rfl | h <;> omega

/-- The ranges of a canonical map are the longest that it covers. -/
theorem Canonical.mem_iff (hm : m.Canonical) (e : Nat × Nat) : e ∈ m ↔ e.1 < e.2 ∧
    (∀ x, e.1 ≤ x → x < e.2 → m.Covers x) ∧ ¬ m.Covers e.2 ∧ (e.1 = 0 ∨ ¬ m.Covers (e.1 - 1)) := by
  constructor
  · intro he
    have hlt := (hm e he).1
    refine ⟨hlt, fun x hle hx => ⟨e, he, hle, hx⟩, ?_, ?_⟩
    · rintro ⟨f, hf, hle, hx⟩
      rcases hm.apart he hf with rfl | h <;> omega
    by_cases hzero : e.1 = 0
    · exact .inl hzero
    right
    rintro ⟨f, hf, hle, hx⟩
    have := (hm f hf).2 e he (by omega)
    omega
  rintro ⟨hlt, hcovers, hend, hstart⟩
  obtain ⟨f, hf, hle, hx⟩ := hcovers e.1 le_rfl hlt
  have hfirst : f.1 = e.1 := by
    by_contra hne
    rcases hstart with hzero | hstart
    · omega
    · exact hstart ⟨f, hf, by omega, by omega⟩
  have hlast : f.2 = e.2 := by
    rcases Nat.lt_trichotomy f.2 e.2 with hef | hef | hef
    · -- the number behind `f` is covered, by a range that touches `f`
      obtain ⟨g, hg, hgle, hgx⟩ := hcovers f.2 (by omega) hef
      rcases hm.apart hf hg with rfl | h <;> omega
    · exact hef
    · exact absurd ⟨f, hf, by omega, hef⟩ hend
  exact (Prod.ext hfirst hlast : f = e) ▸ hf

end RangeMap

/-! ## The set -/

structure RangeSet where
  set : RangeMap
  canonical : set.Canonical

namespace RangeSet

instance : DecidableEq RangeSet := fun s s' =>
  decidable_of_iff (s.set = s'.set) ⟨fun h => by cases s; cases s'; congr, fun h => h ▸ rfl⟩

instance : Membership Nat RangeSet := ⟨fun s x => s.set.Covers x⟩

def empty : RangeSet := ⟨OrdMap.empty, fun _ he => absurd he OrdMap.not_mem_empty⟩

variable (s : RangeSet)

/-- `iter`: the ranges in ascending order. -/
def ranges : List Range := s.set.entries.map fun e => ⟨e.1, e.2⟩

def insert (s : RangeSet) (r : Range) : RangeSet := ⟨s.set.insert r, (RangeMap.insert_spec s.canonical r).1⟩

def remove (s : RangeSet) (r : Range) : RangeSet := ⟨s.set.remove r, (RangeMap.remove_spec s.canonical r).1⟩

/-- mirrors ranges.rs:129-131 -/
def removeElem (x : Nat) : RangeSet := s.remove ⟨x, x + 1⟩

def isEmpty (s : RangeSet) : Bool := s.set.entries.isEmpty

/-- mirrors ranges.rs:260-263 -/
def peekMin : Option Range := s.ranges.head?

/-- mirrors ranges.rs:189-191 -/
def min : Option Nat := s.peekMin.map Range.start

/-- mirrors ranges.rs:195-197 -/
def max : Option Nat := s.ranges.getLast?.map fun r => r.stop - 1

/-- mirrors ranges.rs:266-270 -/
def popMin : Option (Range × RangeSet) :=
  s.peekMin.map fun r => (r, ⟨s.set.erase r.start, s.canonical.erase r.start⟩)

/-- mirrors ranges.rs:245-257 -/
def contains (x : Nat) : Bool :=
  (s.set.prevTo x).any (fun p => p.1 ≤ x ∧ x < p.2) || (s.set.nextTo x).any fun n => n.1 ≤ x ∧ x < n.2

/-- One range that starts at or before `elem`: what lies behind `elem` is put back. -/
def cutUntil (elem : Nat) (s : RangeSet) (e : Nat × Nat) : RangeSet :=
  let s : RangeSet := ⟨s.set.erase e.1, s.canonical.erase e.1⟩
  if e.2 > elem + 1 then s.insert ⟨elem + 1, e.2⟩ else s

/-- mirrors ranges.rs:134-149 -/
def removeUntil (elem : Nat) : RangeSet :=
  (s.set.entries.filter (·.1 ≤ elem)).foldl (cutUntil elem) s

/-- `next_after` a number is `next_to` the one behind it. mirrors ranges.rs:157-181 -/
def filter (r : Range) : Option Range :=
  if s.isEmpty then some r
  else
    let stop := (s.set.nextTo (r.start + 1)).elim r.stop fun n => if n.1 < r.stop then n.1 else r.stop
    match s.set.prevTo r.start with
    | some p => if p.2 ≥ r.stop then none else some ⟨if p.2 > r.start then p.2 else r.start, stop⟩
    | none => some ⟨r.start, stop⟩

/-- Comparison with a range: it is the only one. mirrors ranges.rs:282-288 -/
def eqRange (r : Range) : Bool := s.set.size == 1 && s.peekMin == some r

variable {s : RangeSet} {r : Range} {x : Nat}

theorem mem_def : x ∈ s ↔ s.set.Covers x := Iff.rfl

theorem mem_iff_ranges : x ∈ s ↔ ∃ r ∈ s.ranges, x ∈ r := by
  constructor
  · rintro ⟨e, he, hx⟩
    exact ⟨⟨e.1, e.2⟩, List.mem_map_of_mem he, hx⟩
  rintro ⟨r, hr, hx⟩
  obtain ⟨e, he, rfl⟩ := List.mem_map.mp hr
  exact ⟨e, he, hx⟩

@[simp] theorem not_mem_empty : x ∉ empty := fun ⟨_, he, _⟩ => absurd he OrdMap.not_mem_empty

@[simp] theorem mem_insert : x ∈ s.insert r ↔ x ∈ s ∨ x ∈ r := (RangeMap.insert_spec s.canonical r).2 x

@[simp] theorem mem_remove : x ∈ s.remove r ↔ x ∈ s ∧ x ∉ r := (RangeMap.remove_spec s.canonical r).2 x

theorem mem_removeElem {y : Nat} : x ∈ s.removeElem y ↔ x ∈ s ∧ x ≠ y := by
  rw [removeElem, mem_remove, Range.mem_def]
  dsimp only
  exact and_congr_right fun _ => by omega

/-- A set is its members. -/
theorem ext_of_mem {s' : RangeSet} (h : ∀ x, x ∈ s ↔ x ∈ s') : s = s' := by
  have hset : s.set = s'.set := OrdMap.ext_of_mem fun e => by
    have hcovers : ∀ x, s.set.Covers x ↔ s'.set.Covers x := h
    simp only [s.canonical.mem_iff, s'.canonical.mem_iff, hcovers]
  cases s
  cases s'
  cases hset
  rfl

/-- The ranges in ascending order leave gaps between them. -/
theorem pairwise_ranges (s : RangeSet) : s.ranges.Pairwise fun a b => a.stop < b.start := by
  rw [ranges, List.pairwise_map]
  exact s.set.ordered.imp_of_mem fun ha hb hlt => (s.canonical _ ha).2 _ hb hlt

theorem start_lt_stop (hr : r ∈ s.ranges) : r.start < r.stop := by
  obtain ⟨e, he, rfl⟩ := List.mem_map.mp hr
  exact (s.canonical e he).1

theorem contains_iff : s.contains x = true ↔ x ∈ s := by
  rw [contains, Bool.or_eq_true, Option.any_eq_true, Option.any_eq_true]
  constructor
  · rintro (⟨p, hp, hx⟩ | ⟨n, hn, hx⟩)
    · exact ⟨p, (OrdMap.prevTo_eq_some hp).1, of_decide_eq_true hx⟩
    · exact ⟨n, (OrdMap.nextTo_eq_some hn).1, of_decide_eq_true hx⟩
  rintro ⟨e, he, hle, hlt⟩
  left
  cases hprev : s.set.prevTo x with
  | none => exact absurd (OrdMap.prevTo_eq_none.mp hprev e he) (by omega)
  | some p =>
    obtain ⟨hp, hple, hlast⟩ := OrdMap.prevTo_eq_some hprev
    have := hlast e he hle
    have := (s.canonical p hp).1
    -- a later start would lie beyond the range that holds `x`
    rcases s.canonical.apart hp he with rfl | h
    · exact ⟨p, rfl, decide_eq_true ⟨hle, hlt⟩⟩
    · omega

theorem isEmpty_iff : s.isEmpty = true ↔ ∀ x, x ∉ s := by
  rw [isEmpty, List.isEmpty_iff]
  constructor
  · rintro hnil x ⟨e, he, -⟩
    rw [OrdMap.mem_def, hnil] at he
    exact List.not_mem_nil he
  · intro h
    refine List.eq_nil_iff_forall_not_mem.mpr fun e he => h e.1 ⟨e, he, le_rfl, (s.canonical e he).1⟩

/-- The first range holds the smallest number. -/
theorem peekMin_eq_some (h : s.peekMin = some r) :
    r.start < r.stop ∧ (∀ x ∈ r, x ∈ s) ∧ r.stop ∉ s ∧ ∀ x ∈ s, r.start ≤ x := by
  obtain ⟨rs, hrs⟩ := List.head?_eq_some_iff.mp h
  have hgap : ∀ r' ∈ rs, r.stop < r'.start := by
    have := s.pairwise_ranges
    rw [hrs] at this
    exact (List.pairwise_cons.mp this).1
  have hr : r ∈ s.ranges := hrs ▸ List.mem_cons_self
  have hlt := start_lt_stop hr
  refine ⟨hlt, fun x hx => mem_iff_ranges.mpr ⟨r, hr, hx⟩, fun hstop => ?_, fun x hx => ?_⟩
  · obtain ⟨r', hr', hx⟩ := mem_iff_ranges.mp hstop
    rw [Range.mem_def] at hx
    rcases List.mem_cons.mp (hrs ▸ hr') with rfl | hr'
    · omega
    have := hgap r' hr'
    omega
  obtain ⟨r', hr', hx⟩ := mem_iff_ranges.mp hx
  rw [Range.mem_def] at hx
  rcases List.mem_cons.mp (hrs ▸ hr') with rfl | hr'
  · exact hx.1
  have := hgap r' hr'
  omega

theorem peekMin_eq_none : s.peekMin = none ↔ ∀ x, x ∉ s := by
  rw [← isEmpty_iff, peekMin, List.head?_eq_none_iff, ranges, List.map_eq_nil_iff, isEmpty, List.isEmpty_iff]

theorem covers_erase_iff {e : Nat × Nat} (he : e ∈ s.set) :
    RangeMap.Covers (s.set.erase e.1) x ↔ x ∈ s ∧ ¬ (e.1 ≤ x ∧ x < e.2) := by
  rw [mem_def, RangeMap.covers_erase he]
  constructor
  · rintro ⟨a, ha, hx⟩
    refine ⟨.inr ⟨a, ha, hx⟩, fun hr => ?_⟩
    obtain ⟨ha, hne⟩ := OrdMap.mem_erase.mp ha
    rcases s.canonical.apart ha he with rfl | h
    · exact hne rfl
    · omega
  rintro ⟨h | h, hout⟩
  · exact absurd h hout
  · exact h

theorem popMin_eq_some {s' : RangeSet} (h : s.popMin = some (r, s')) :
    s.peekMin = some r ∧ ∀ x, x ∈ s' ↔ x ∈ s ∧ x ∉ r := by
  obtain ⟨r', hr', heq⟩ := Option.map_eq_some_iff.mp h
  obtain ⟨rfl, rfl⟩ := Prod.mk.inj heq
  refine ⟨hr', fun x => ?_⟩
  have hmem : (r'.start, r'.stop) ∈ s.set := by
    obtain ⟨e, he, heq⟩ := List.mem_map.mp (List.mem_of_head? hr')
    rw [← heq]
    exact he
  exact covers_erase_iff hmem

theorem eqRange_iff_of_eq (h : s.eqRange r = true) : ∀ x, x ∈ s ↔ x ∈ r := by
  rw [eqRange, Bool.and_eq_true, beq_iff_eq, beq_iff_eq] at h
  obtain ⟨hsize, hmin⟩ := h
  obtain ⟨rs, hrs⟩ := List.head?_eq_some_iff.mp hmin
  have hnil : rs = [] := by
    have hlen := congrArg List.length hrs
    rw [ranges, List.length_map, List.length_cons] at hlen
    rw [OrdMap.size] at hsize
    exact List.eq_nil_of_length_eq_zero (by omega)
  intro x
  rw [mem_iff_ranges, hrs, hnil]
  simp

/-- The largest number. -/
theorem max_eq_some {y : Nat} (h : s.max = some y) : y ∈ s ∧ ∀ x ∈ s, x ≤ y := by
  obtain ⟨r, hr, rfl⟩ := Option.map_eq_some_iff.mp h
  obtain ⟨rs, hrs⟩ := List.getLast?_eq_some_iff.mp hr
  have hmem : r ∈ s.ranges := hrs ▸ List.mem_append_right rs (List.mem_singleton_self r)
  have hlt := start_lt_stop hmem
  have hgap : ∀ r' ∈ rs, r'.stop < r.start := by
    have := s.pairwise_ranges
    rw [hrs] at this
    exact fun r' hr' => (List.pairwise_append.mp this).2.2 r' hr' r (List.mem_singleton_self r)
  refine ⟨mem_iff_ranges.mpr ⟨r, hmem, by rw [Range.mem_def]; omega⟩, fun x hx => ?_⟩
  obtain ⟨r', hr', hx⟩ := mem_iff_ranges.mp hx
  rw [Range.mem_def] at hx
  rcases List.mem_append.mp (hrs ▸ hr') with hr' | hr'
  · have := hgap r' hr'
    omega
  rw [List.mem_singleton.mp hr'] at hx
  omega

/-! ## Runs -/

theorem mem_cutUntil {elem : Nat} {e : Nat × Nat} (he : e ∈ s.set) (hle : e.1 ≤ elem) :
    x ∈ cutUntil elem s e ↔ x ∈ s ∧ (elem < x ∨ ¬ (e.1 ≤ x ∧ x < e.2)) := by
  have hin : e.1 ≤ x → x < e.2 → x ∈ s := fun h h' => ⟨e, he, h, h'⟩
  unfold cutUntil
  dsimp only
  split
  · rw [mem_insert, mem_def, covers_erase_iff he, Range.mem_def]
    dsimp only
    constructor
    · rintro (⟨h, hout⟩ | h)
      · exact ⟨h, .inr hout⟩
      · exact ⟨hin (by omega) h.2, .inl (by omega)⟩
    rintro ⟨h, hout⟩
    by_cases hx : e.1 ≤ x ∧ x < e.2
    · exact .inr (by omega)
    · exact .inl ⟨h, hx⟩
  · rw [mem_def, covers_erase_iff he]
    exact and_congr_right fun _ => by omega

/-- The induction is on the ranges still to be cut, which are stored as they were. -/
theorem mem_foldl_cutUntil {elem : Nat} {l : List (Nat × Nat)} (hl : ∀ e ∈ l, e ∈ s.set ∧ e.1 ≤ elem)
    (hsort : l.Pairwise fun a b => a.1 < b.1) :
    x ∈ l.foldl (cutUntil elem) s ↔ x ∈ s ∧ (elem < x ∨ ∀ e ∈ l, ¬ (e.1 ≤ x ∧ x < e.2)) := by
  induction l generalizing s with
  | nil => simp
  | cons e l ih =>
    obtain ⟨⟨he, hle⟩, hl⟩ := List.forall_mem_cons.mp hl
    obtain ⟨hhead, hsort⟩ := List.pairwise_cons.mp hsort
    have hcut := fun x => mem_cutUntil (x := x) he hle
    have hstored : ∀ a ∈ l, a ∈ (cutUntil elem s e).set ∧ a.1 ≤ elem := by
      intro a ha
      refine ⟨?_, (hl a ha).2⟩
      obtain ⟨hlt, hcov, hstop, hstart⟩ := (s.canonical.mem_iff a).mp (hl a ha).1
      have hgap := (s.canonical e he).2 a (hl a ha).1 (hhead a ha)
      refine ((cutUntil elem s e).canonical.mem_iff a).mpr ⟨hlt, fun x hx hx' => ?_, fun h => ?_, ?_⟩
      · exact (hcut x).mpr ⟨hcov x hx hx', .inr (by omega)⟩
      · exact hstop ((hcut _).mp h).1
      · exact hstart.imp_right fun hno h => hno ((hcut _).mp h).1
    rw [List.foldl_cons, ih hstored hsort, hcut x, List.forall_mem_cons]
    tauto

theorem mem_removeUntil {elem : Nat} : x ∈ s.removeUntil elem ↔ x ∈ s ∧ elem < x := by
  have hl : ∀ e ∈ s.set.entries.filter (·.1 ≤ elem), e ∈ s.set ∧ e.1 ≤ elem := fun e he => by
    simpa [OrdMap.mem_def] using he
  rw [removeUntil, mem_foldl_cutUntil hl (s.set.ordered.filter _)]
  refine and_congr_right fun ⟨e, he, hle, hlt⟩ => or_iff_left_of_imp fun hnone => ?_
  by_contra hx
  exact hnone e (by simpa using ⟨he, by omega⟩) ⟨hle, hlt⟩

/-- `q` is the first stretch of numbers of `r` that are missing. -/
structure FirstGap (s : RangeSet) (r q : Range) : Prop where
  lt : q.start < q.stop
  missing : ∀ x ∈ q, x ∈ r ∧ x ∉ s
  before : ∀ x ∈ r, x < q.start → x ∈ s
  behind : q.stop = r.stop ∨ q.stop ∈ s

theorem filter_spec (hr : r.start < r.stop) : match s.filter r with
    | none => ∀ x ∈ r, x ∈ s
    | some q => s.FirstGap r q := by
  -- no range starts behind the start of `r` and before the end of the gap
  obtain ⟨stop, heq, hlt, hle, hnext, hbehind⟩ : ∃ stop, (s.set.nextTo (r.start + 1)).elim r.stop
      (fun n => if n.1 < r.stop then n.1 else r.stop) = stop ∧ r.start < stop ∧ stop ≤ r.stop ∧
      (∀ e ∈ s.set, r.start < e.1 → stop ≤ e.1) ∧ (stop = r.stop ∨ ∃ e ∈ s.set, e.1 = stop) := by
    refine ⟨_, rfl, ?_⟩
    cases hn : s.set.nextTo (r.start + 1) with
    | none =>
      have hall := OrdMap.nextTo_eq_none.mp hn
      exact ⟨hr, le_rfl, fun e he hlt => absurd (hall e he) (by omega), .inl rfl⟩
    | some n =>
      obtain ⟨hmem, hgt, hfirst⟩ := OrdMap.nextTo_eq_some hn
      dsimp only [Option.elim]
      split
      · exact ⟨hgt, by omega, hfirst, .inr ⟨n, hmem, rfl⟩⟩
      · exact ⟨hr, le_rfl, fun e he hlt => by have := hfirst e he hlt; omega, .inl rfl⟩
  have hbehind' : stop = r.stop ∨ stop ∈ s := hbehind.imp_right fun ⟨e, he, hkey⟩ =>
    ⟨e, he, hkey.le, hkey ▸ (s.canonical e he).1⟩
  unfold filter
  dsimp only
  rw [heq]
  by_cases hempty : s.isEmpty
  · have hno := isEmpty_iff.mp hempty
    rw [if_pos hempty]
    exact ⟨hr, fun x hx => ⟨hx, hno x⟩, fun x hx hlt => absurd hx.1 (by omega), .inl rfl⟩
  rw [if_neg hempty]
  cases hp : s.set.prevTo r.start with
  | none =>
    have hall := OrdMap.prevTo_eq_none.mp hp
    refine ⟨hlt, fun x hx => ⟨⟨hx.1, hx.2.trans_le hle⟩, ?_⟩, fun x hx hlt => absurd hx.1 hlt.not_ge, hbehind'⟩
    rintro ⟨e, he, hex, -⟩
    exact (hnext e he (hall e he)).not_gt (hex.trans_lt hx.2)
  | some p =>
    obtain ⟨hmem, hple, hlast⟩ := OrdMap.prevTo_eq_some hp
    dsimp only
    by_cases hcovered : p.2 ≥ r.stop
    · rw [if_pos hcovered]
      exact fun x hx => ⟨p, hmem, hple.trans hx.1, hx.2.trans_le hcovered⟩
    have hmax : (if p.2 > r.start then p.2 else r.start) = Max.max p.2 r.start := by
      split <;> omega
    have hgap : p.2 < stop := by
      rcases hbehind with rfl | ⟨e, he, rfl⟩
      · omega
      · exact (s.canonical p hmem).2 e he (by omega)
    rw [if_neg hcovered, hmax]
    refine ⟨max_lt hgap hlt, fun x hx => ?_, fun x hx hlt => ?_, hbehind'⟩
    · obtain ⟨hpx, hrx⟩ := max_le_iff.mp hx.1
      refine ⟨⟨hrx, hx.2.trans_le hle⟩, ?_⟩
      rintro ⟨e, he, hex, hxe⟩
      have hes : e.1 ≤ r.start := not_lt.mp fun h => (hnext e he h).not_gt (hex.trans_lt hx.2)
      have := hlast e he hes
      have := (s.canonical p hmem).1
      rcases s.canonical.apart he hmem with rfl | h <;> omega
    · rcases lt_max_iff.mp hlt with h | h
      · exact ⟨p, hmem, hple.trans hx.1, h⟩
      · exact absurd hx.1 h.not_ge

/-- One call; `pop_min` on an empty set does nothing. -/
inductive Op where
  | insert (r : Range)
  | remove (r : Range)
  | removeUntil (elem : Nat)
  | popMin

namespace Op

def apply (s : RangeSet) : Op → RangeSet
  | insert r => s.insert r
  | remove r => s.remove r
  | removeUntil elem => s.removeUntil elem
  | popMin => s.popMin.elim s Prod.snd

/-- What the call does to the set of numbers. `pop_min` leaves what lies behind the first gap. -/
def denote (S : Set Nat) : Op → Set Nat
  | insert r => S ∪ {x | x ∈ r}
  | remove r => S \ {x | x ∈ r}
  | removeUntil elem => S \ Set.Iic elem
  | popMin => {x ∈ S | ∃ y ∉ S, y < x ∧ ∃ z ∈ S, z < y}

theorem mem_apply (op : Op) : x ∈ op.apply s ↔ x ∈ op.denote {x | x ∈ s} := by
  cases op with
  | insert r => exact mem_insert
  | remove r => exact mem_remove
  | removeUntil elem => exact mem_removeUntil.trans (by simp [denote])
  | popMin =>
    rw [apply]
    cases hpop : s.popMin with
    | none =>
      have hno := peekMin_eq_none.mp (Option.map_eq_none_iff.mp hpop)
      exact ⟨fun h => absurd h (hno x), fun h => h.1⟩
    | some p =>
      obtain ⟨hpeek, hrest⟩ := popMin_eq_some hpop
      obtain ⟨hlt, hin, hstop, hfirst⟩ := peekMin_eq_some hpeek
      refine (hrest x).trans (and_congr_right fun hx => ⟨fun hout => ?_, ?_⟩)
      · refine ⟨p.1.stop, hstop, ?_, p.1.start, hin _ ⟨le_rfl, hlt⟩, hlt⟩
        have hge : p.1.stop ≤ x := not_lt.mp fun h => hout ⟨hfirst x hx, h⟩
        exact hge.lt_of_ne fun heq => hstop (heq ▸ hx)
      · rintro ⟨y, hy, hyx, z, hz, hzy⟩ hxr
        exact hy (hin y ⟨(hfirst z hz).trans hzy.le, hyx.trans hxr.2⟩)

theorem mem_foldl_apply (ops : List Op) {S : Set Nat} (hS : ∀ x, x ∈ s ↔ x ∈ S) :
    x ∈ ops.foldl apply s ↔ x ∈ ops.foldl denote S := by
  induction ops generalizing s S with
  | nil => exact hS x
  | cons op ops ih =>
    have : {x | x ∈ s} = S := Set.ext hS
    exact ih fun y => this ▸ op.mem_apply

end Op

/-- After any calls the map holds the set that the calls describe. -/
theorem run_refines (ops : List Op) : let s := ops.foldl Op.apply empty
    (∀ a ∈ s.ranges, a.start < a.stop) ∧ (s.ranges.Pairwise fun a b => a.stop < b.start) ∧
      (∀ x, x ∈ ops.foldl Op.denote ∅ ↔ ∃ a ∈ s.ranges, x ∈ a) ∧
      (∀ x, s.contains x = true ↔ x ∈ ops.foldl Op.denote ∅) ∧ ∀ r : Range, r.start < r.stop →
        (s.filter r = none ↔ ∀ x ∈ r, x ∈ s) ∧ ∀ q, s.filter r = some q → s.FirstGap r q := by
  intro s
  have hmem : ∀ x, x ∈ s ↔ x ∈ ops.foldl Op.denote ∅ := fun x => Op.mem_foldl_apply ops fun _ => by simp
  refine ⟨fun a => start_lt_stop, s.pairwise_ranges, fun x => (hmem x).symm.trans mem_iff_ranges,
    fun x => contains_iff.trans (hmem x), fun r hr => ?_⟩
  have hspec := filter_spec (s := s) hr
  cases hf : s.filter r with
  | none =>
    rw [hf] at hspec
    exact ⟨⟨fun _ => hspec, fun _ => rfl⟩, fun q hq => nomatch hq⟩
  | some q =>
    rw [hf] at hspec
    refine ⟨⟨(nomatch ·), fun hall => ?_⟩, fun q' hq => Option.some.inj hq ▸ hspec⟩
    have hgap := hspec.missing q.start ⟨le_rfl, hspec.lt⟩
    exact absurd (hall _ hgap.1) hgap.2

end RangeSet

end MoqQuic.L2.Tquic
