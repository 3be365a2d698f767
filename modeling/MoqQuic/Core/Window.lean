import Mathlib.Data.List.Basic
import Mathlib.Data.List.Pairwise

/-!
# Sparse windows

A window is a list of optional entries together with the number of its first
slot; slot `i` of a window that starts at `n` has the number `n + i`.

* `entries` lists the occupied slots with their numbers, `trim` drops the free
  slots at the front.
* Appending a slot, freeing one and trimming are described by what they do to
  `entries`; the numbers in it are strictly increasing.
-/
namespace MoqQuic.Window
open List

variable {α : Type}

/-- The occupied slots with their numbers, in order. -/
def entries : Int → List (Option α) → List (Int × α)
  | _, [] => []
  | n, none :: l => entries (n + 1) l
  | n, some a :: l => (n, a) :: entries (n + 1) l

/-- Drop the free slots at the front. -/
def trim : Int → List (Option α) → Int × List (Option α)
  | n, [] => (n, [])
  | n, none :: l => trim (n + 1) l
  | n, some a :: l => (n, some a :: l)

variable (n : Int) (l : List (Option α))

@[simp] theorem entries_nil : entries n ([] : List (Option α)) = [] := rfl

theorem entries_append (m : List (Option α)) : entries n (l ++ m) = entries n l ++ entries (n + l.length) m := by
  induction l generalizing n with
  | nil => simp
  | cons o l ih =>
    have hn : n + 1 + (l.length : Int) = n + ((o :: l).length : Int) := by
      rw [length_cons]; omega
    cases o with
    | none => rw [cons_append, entries, entries, ih, hn]
    | some a => rw [cons_append, entries, entries, ih, hn, cons_append]

theorem entries_trim : entries (trim n l).1 (trim n l).2 = entries n l := by
  fun_induction trim n l with
  | case1 n => rfl
  | case2 n l ih => rw [ih, entries]
  | case3 n a l => rfl

/-- Trimming moves the start by as much as it shortens the window. -/
theorem trim_end : (trim n l).1 + (trim n l).2.length = n + l.length := by
  fun_induction trim n l with
  | case1 n => rfl
  | case2 n l ih => rw [ih, length_cons]; omega
  | case3 n a l => rfl

variable {l : List (Option α)}

theorem mem_entries {n k : Int} {a : α} : (k, a) ∈ entries n l ↔ ∃ i : Nat, l[i]? = some (some a) ∧ k = n + i := by
  induction l generalizing n with
  | nil => simp
  | cons o l ih =>
    constructor
    · intro hm
      cases o with
      | none =>
        obtain ⟨i, hi, hk⟩ := ih.mp hm
        exact ⟨i + 1, by simpa using hi, by omega⟩
      | some b =>
        rcases mem_cons.mp hm with he | hm
        · obtain ⟨rfl, rfl⟩ := Prod.mk.inj he
          exact ⟨0, rfl, by omega⟩
        obtain ⟨i, hi, hk⟩ := ih.mp hm
        exact ⟨i + 1, by simpa using hi, by omega⟩
    rintro ⟨i, hi, hk⟩
    cases i with
    | zero =>
      have ho : o = some a := by simpa using hi
      have hkn : k = n := by omega
      rw [ho, hkn]
      exact mem_cons_self
    | succ i =>
      have hm : (k, a) ∈ entries (n + 1) l := ih.mpr ⟨i, by simpa using hi, by omega⟩
      cases o with
      | none => exact hm
      | some b => exact mem_cons_of_mem _ hm

/-- A number has at most one entry. -/
theorem entries_inj {n k : Int} {a b : α} (ha : (k, a) ∈ entries n l) (hb : (k, b) ∈ entries n l) : a = b := by
  obtain ⟨i, hi, hki⟩ := mem_entries.mp ha
  obtain ⟨j, hj, hkj⟩ := mem_entries.mp hb
  have hij : i = j := by omega
  rw [hij, hj] at hi
  exact (Option.some.inj (Option.some.inj hi)).symm

theorem le_of_mem_entries {n : Int} {e : Int × α} (h : e ∈ entries n l) : n ≤ e.1 ∧ e.1 < n + l.length := by
  obtain ⟨i, hi, hk⟩ := mem_entries.mp h
  have hlt := (List.getElem?_eq_some_iff.mp hi).1
  omega

/-- The numbers of the occupied slots are strictly increasing. -/
theorem entries_pairwise (l : List (Option α)) : (entries n l).Pairwise fun e e' => e.1 < e'.1 := by
  induction l generalizing n with
  | nil => exact List.Pairwise.nil
  | cons o l ih =>
    cases o with
    | none => exact ih (n + 1)
    | some a =>
      refine List.Pairwise.cons (fun e he => ?_) (ih (n + 1))
      have := (le_of_mem_entries he).1
      omega

/-- Freeing slot `i` takes exactly the number `n + i` from the window. -/
theorem entries_set_none (l : List (Option α)) (i : Nat) :
    entries n (l.set i none) = (entries n l).filter fun e => e.1 ≠ n + i := by
  induction l generalizing n i with
  | nil => rfl
  | cons o l ih =>
    have later : ∀ e ∈ entries (n + 1) l, e.1 ≠ n := fun e he => by
      have := (le_of_mem_entries he).1
      omega
    cases i with
    | zero =>
      have hrest : (entries (n + 1) l).filter (fun e => e.1 ≠ n + (0 : Nat)) = entries (n + 1) l :=
        filter_eq_self.mpr fun e he => by simpa using later e he
      cases o with
      | none => rw [set_cons_zero, entries, hrest]
      | some a => rw [set_cons_zero, entries, entries, filter_cons_of_neg (by simp), hrest]
    | succ i =>
      have hi : n + 1 + (i : Int) = n + ((i + 1 : Nat) : Int) := by omega
      cases o with
      | none => rw [set_cons_succ, entries, entries, ih, hi]
      | some a =>
        have ha : n ≠ n + ((i + 1 : Nat) : Int) := by omega
        rw [set_cons_succ, entries, entries, ih, hi, filter_cons_of_pos (by simpa using ha)]

end MoqQuic.Window
