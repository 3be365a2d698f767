import Mathlib.Algebra.BigOperators.Group.List.Basic
import Mathlib.Algebra.Order.BigOperators.Group.List
import Mathlib.Algebra.Order.Group.Nat
import Mathlib.Data.List.Pairwise
import Mathlib.Data.List.Sort
import Mathlib.Order.Basic

/-!
# Maps ordered by their keys

An ordered map is the list of its entries in ascending order of the keys, each
key once. The order is part of the type, so every operation comes with the
proof that it keeps it.

The operations are known by their entries (`mem_insert`, `mem_erase`,
`mem_modify`) and the searches by what they find: the entry of a key (`find`),
the last entry at or before a key (`prevTo`) and the first at or after it
(`nextTo`). `total` adds up a measure of the values; `total_insert`,
`total_erase` and `total_modify` say how it changes.
-/
namespace MoqQuic
open List Function

structure OrdMap (K V : Type) [LinearOrder K] where
  entries : List (K × V)
  ordered : entries.Pairwise fun a b => a.1 < b.1

namespace OrdMap

variable {K V : Type} [LinearOrder K]

instance [DecidableEq V] : DecidableEq (OrdMap K V) := fun m m' =>
  decidable_of_iff (m.entries = m'.entries) ⟨fun h => by cases m; cases m'; congr, fun h => h ▸ rfl⟩

instance : Membership (K × V) (OrdMap K V) := ⟨fun m e => e ∈ m.entries⟩

def empty : OrdMap K V := ⟨[], .nil⟩

variable {m : OrdMap K V} {k : K} {v : V} {e e' : K × V}

theorem mem_def : e ∈ m ↔ e ∈ m.entries := Iff.rfl

@[simp] theorem not_mem_empty : e ∉ (empty : OrdMap K V) := not_mem_nil

/-- An ordered map has at most one entry for a key. -/
theorem eq_of_key_eq (he : e ∈ m) (he' : e' ∈ m) (h : e.1 = e'.1) : e = e' := by
  by_contra hne
  have hkeys := m.ordered.imp ne_of_lt
  have : Std.Symm fun a b : K × V => a.1 ≠ b.1 := ⟨fun _ _ h => h.symm⟩
  exact hkeys.forall he he' hne h

/-- A map is its entries. -/
theorem ext_of_mem {m' : OrdMap K V} (h : ∀ e, e ∈ m ↔ e ∈ m') : m = m' := by
  have hentries := List.Pairwise.eq_of_mem_iff m.ordered m'.ordered h
  cases m
  cases m'
  cases hentries
  rfl

/-! ## Insertion and removal -/

def insertList (k : K) (v : V) : List (K × V) → List (K × V)
  | [] => [(k, v)]
  | e :: es => if k < e.1 then (k, v) :: e :: es else if e.1 < k then e :: insertList k v es else (k, v) :: es

theorem mem_insertList {es : List (K × V)} (h : es.Pairwise fun a b => a.1 < b.1) :
    e ∈ insertList k v es ↔ e = (k, v) ∨ e ∈ es ∧ e.1 ≠ k := by
  induction es with
  | nil => simp [insertList]
  | cons a es ih =>
    obtain ⟨hhead, htail⟩ := pairwise_cons.mp h
    unfold insertList
    split
    · next hk =>
      -- every stored key is above the new one
      have hne : ∀ e ∈ a :: es, e.1 ≠ k :=
        forall_mem_cons.mpr ⟨ne_of_gt hk, fun e he => ne_of_gt (hk.trans (hhead e he))⟩
      rw [mem_cons]
      exact or_congr_right ⟨fun he => ⟨he, hne e he⟩, And.left⟩
    rename_i hk
    split
    · next hak =>
      rw [mem_cons, ih htail, mem_cons]
      have : a.1 ≠ k := ne_of_lt hak
      constructor
      · rintro (rfl | rfl | ⟨he, hne⟩)
        · exact .inr ⟨.inl rfl, this⟩
        · exact .inl rfl
        · exact .inr ⟨.inr he, hne⟩
      rintro (rfl | ⟨rfl | he, hne⟩)
      · exact .inr (.inl rfl)
      · exact .inl rfl
      · exact .inr (.inr ⟨he, hne⟩)
    rename_i hak
    have hak : a.1 = k := le_antisymm (not_lt.mp hk) (not_lt.mp hak)
    have hne : ∀ e ∈ es, e.1 ≠ k := fun e he => hak ▸ ne_of_gt (hhead e he)
    rw [mem_cons, mem_cons]
    constructor
    · rintro (rfl | he)
      · exact .inl rfl
      · exact .inr ⟨.inr he, hne e he⟩
    rintro (rfl | ⟨rfl | he, h'⟩)
    · exact .inl rfl
    · exact absurd hak h'
    · exact .inr he

theorem pairwise_insertList {es : List (K × V)} (h : es.Pairwise fun a b => a.1 < b.1) :
    (insertList k v es).Pairwise fun a b => a.1 < b.1 := by
  induction es with
  | nil => exact pairwise_singleton _ _
  | cons a es ih =>
    obtain ⟨hhead, htail⟩ := pairwise_cons.mp h
    unfold insertList
    split
    · next hk =>
      exact pairwise_cons.mpr ⟨forall_mem_cons.mpr ⟨hk, fun e he => hk.trans (hhead e he)⟩, h⟩
    rename_i hk
    split
    · next hak =>
      refine pairwise_cons.mpr ⟨fun e he => ?_, ih htail⟩
      rcases (mem_insertList htail).mp he with rfl | ⟨he, -⟩
      · exact hak
      · exact hhead e he
    · next hak =>
      have hak : a.1 = k := le_antisymm (not_lt.mp hk) (not_lt.mp hak)
      exact pairwise_cons.mpr ⟨fun e he => hak ▸ hhead e he, htail⟩

def insert (m : OrdMap K V) (k : K) (v : V) : OrdMap K V :=
  ⟨insertList k v m.entries, pairwise_insertList m.ordered⟩

def erase (m : OrdMap K V) (k : K) : OrdMap K V :=
  ⟨m.entries.filter fun e => e.1 ≠ k, m.ordered.filter _⟩

@[simp] theorem mem_insert : e ∈ m.insert k v ↔ e = (k, v) ∨ e ∈ m ∧ e.1 ≠ k := mem_insertList m.ordered

@[simp] theorem mem_erase : e ∈ m.erase k ↔ e ∈ m ∧ e.1 ≠ k := by
  rw [mem_def, erase, mem_filter, decide_eq_true_eq]
  exact Iff.rfl

/-! ## Searches -/

/-- The entries at or after a key. -/
def rangeFrom (m : OrdMap K V) (k : K) : List (K × V) := m.entries.filter fun e => k ≤ e.1

/-- The last entry at or before a key. -/
def prevTo (m : OrdMap K V) (k : K) : Option (K × V) := (m.entries.filter fun e => e.1 ≤ k).getLast?

/-- The first entry at or after a key. -/
def nextTo (m : OrdMap K V) (k : K) : Option (K × V) := (m.rangeFrom k).head?

theorem mem_rangeFrom : e ∈ m.rangeFrom k ↔ e ∈ m ∧ k ≤ e.1 := by
  rw [rangeFrom, mem_filter, decide_eq_true_eq]
  exact Iff.rfl

theorem prevTo_eq_some (h : m.prevTo k = some e) : e ∈ m ∧ e.1 ≤ k ∧ ∀ e' ∈ m, e'.1 ≤ k → e'.1 ≤ e.1 := by
  obtain ⟨es, hes⟩ := List.getLast?_eq_some_iff.mp h
  have hmem : ∀ e', e' ∈ m ∧ e'.1 ≤ k ↔ e' ∈ es ++ [e] := by
    intro e'
    rw [← hes, mem_filter, decide_eq_true_eq]
    exact Iff.rfl
  have hlast : ∀ e' ∈ es, e'.1 < e.1 := by
    have hord := m.ordered.filter fun e => e.1 ≤ k
    rw [hes] at hord
    exact fun e' he' => (pairwise_append.mp hord).2.2 e' he' e (mem_singleton_self e)
  obtain ⟨he, hk⟩ := (hmem e).mpr (mem_append_right es (mem_singleton_self e))
  refine ⟨he, hk, fun e' he' hk' => ?_⟩
  rcases mem_append.mp ((hmem e').mp ⟨he', hk'⟩) with h | h
  · exact le_of_lt (hlast e' h)
  · rw [mem_singleton.mp h]

theorem prevTo_eq_none : m.prevTo k = none ↔ ∀ e ∈ m, k < e.1 := by
  rw [prevTo, List.getLast?_eq_none_iff, filter_eq_nil_iff]
  simp only [decide_eq_true_eq, not_le]
  exact Iff.rfl

theorem nextTo_eq_some (h : m.nextTo k = some e) : e ∈ m ∧ k ≤ e.1 ∧ ∀ e' ∈ m, k ≤ e'.1 → e.1 ≤ e'.1 := by
  obtain ⟨es, hes⟩ := List.head?_eq_some_iff.mp h
  have hfirst : ∀ e' ∈ es, e.1 < e'.1 := by
    have hord := m.ordered.filter fun e => k ≤ e.1
    rw [← rangeFrom, hes] at hord
    exact (pairwise_cons.mp hord).1
  obtain ⟨he, hk⟩ := mem_rangeFrom.mp (hes ▸ mem_cons_self : e ∈ m.rangeFrom k)
  refine ⟨he, hk, fun e' he' hk' => ?_⟩
  have hmem := mem_rangeFrom.mpr ⟨he', hk'⟩
  rw [hes] at hmem
  rcases mem_cons.mp hmem with rfl | h
  · exact le_rfl
  · exact le_of_lt (hfirst e' h)

theorem nextTo_eq_none : m.nextTo k = none ↔ ∀ e ∈ m, e.1 < k := by
  rw [nextTo, List.head?_eq_none_iff, rangeFrom, filter_eq_nil_iff]
  simp only [decide_eq_true_eq, not_le]
  exact Iff.rfl

/-! ## Lookup and change of one value -/

def find (m : OrdMap K V) (k : K) : Option V := (m.entries.find? fun e => e.1 = k).map Prod.snd

theorem find_eq_some : m.find k = some v ↔ (k, v) ∈ m := by
  rw [find, Option.map_eq_some_iff]
  constructor
  · rintro ⟨⟨k', v'⟩, he, rfl⟩
    obtain rfl : k' = k := by simpa using List.find?_some he
    exact mem_of_find?_eq_some he
  intro hmem
  cases hf : m.entries.find? fun e => e.1 = k with
  | none => exact absurd (decide_eq_true rfl) (List.find?_eq_none.mp hf (k, v) hmem)
  | some e =>
    have hkey : e.1 = k := by simpa using List.find?_some hf
    exact ⟨e, rfl, congrArg Prod.snd (eq_of_key_eq (mem_of_find?_eq_some hf) hmem hkey)⟩

theorem find_eq_none : m.find k = none ↔ ∀ v, (k, v) ∉ m := by
  rw [Option.eq_none_iff_forall_ne_some]
  exact forall_congr' fun v => not_congr find_eq_some

/-- Change the value of a key; nothing happens if there is none. -/
def modify (m : OrdMap K V) (k : K) (f : V → V) : OrdMap K V :=
  ⟨m.entries.map fun e => if e.1 = k then (e.1, f e.2) else e, pairwise_map.mpr (m.ordered.imp fun {a b} h => by
    split <;> split <;> exact h)⟩

theorem mem_modify {f : V → V} : e ∈ m.modify k f ↔ (∃ v, (k, v) ∈ m ∧ e = (k, f v)) ∨ e ∈ m ∧ e.1 ≠ k := by
  rw [mem_def, modify, mem_map]
  constructor
  · rintro ⟨a, ha, rfl⟩
    split
    · next hk => exact .inl ⟨a.2, hk ▸ ha, by rw [hk]⟩
    · next hk => exact .inr ⟨ha, hk⟩
  rintro (⟨v, hv, rfl⟩ | ⟨he, hk⟩)
  · exact ⟨_, hv, if_pos rfl⟩
  · exact ⟨e, he, if_neg hk⟩

theorem find_modify {f : V → V} (k' : K) : (m.modify k f).find k' = if k' = k then (m.find k).map f else m.find k' := by
  refine Option.ext fun v => ?_
  rw [find_eq_some, mem_modify]
  split
  · next hk =>
    rw [hk, Option.map_eq_some_iff]
    simp [find_eq_some, eq_comm (a := v)]
  · next hk => simp [hk, find_eq_some]

theorem find_insert (k' : K) : (m.insert k v).find k' = if k' = k then some v else m.find k' := by
  refine Option.ext fun v' => ?_
  rw [find_eq_some, mem_insert]
  split
  · next hk => simp [hk, eq_comm]
  · next hk => simp [hk, find_eq_some]

theorem find_erase (k' : K) : (m.erase k).find k' = if k' = k then none else m.find k' := by
  refine Option.ext fun v' => ?_
  rw [find_eq_some, mem_erase]
  split
  · next hk => simp [hk]
  · next hk => simp [hk, find_eq_some]

section Forall

variable {p : K → V → Prop}

theorem forall_find_insert : (∀ k' v', (m.insert k v).find k' = some v' → p k' v') ↔
    p k v ∧ ∀ k' v', k' ≠ k → m.find k' = some v' → p k' v' := by
  simp only [find_insert]
  grind

theorem forall_find_erase : (∀ k' v', (m.erase k).find k' = some v' → p k' v') ↔
    ∀ k' v', k' ≠ k → m.find k' = some v' → p k' v' := by
  simp only [find_erase]
  grind

theorem forall_find_modify {f : V → V} : (∀ k' v', (m.modify k f).find k' = some v' → p k' v') ↔
    (∀ v, m.find k = some v → p k (f v)) ∧ ∀ k' v', k' ≠ k → m.find k' = some v' → p k' v' := by
  simp only [find_modify]
  cases m.find k <;> grind

end Forall

theorem modify_modify (m : OrdMap K V) (k : K) (f g : V → V) :
    (m.modify k f).modify k g = m.modify k fun v => g (f v) := by
  rw [modify, modify, modify]
  congr 1
  rw [map_map]
  refine map_congr_left fun e _ => ?_
  rw [comp_apply]
  by_cases hk : e.1 = k
  · rw [if_pos hk, if_pos hk, if_pos hk]
  · rw [if_neg hk, if_neg hk, if_neg hk]

theorem modify_id (m : OrdMap K V) (k : K) : (m.modify k fun v => v) = m := by
  obtain ⟨es, hord⟩ := m
  rw [modify]
  congr 1
  exact map_id'' (fun e => by split <;> rfl) es

/-! ## Counts and sums -/

theorem nodup_entries (m : OrdMap K V) : m.entries.Nodup := m.ordered.imp fun h heq => h.ne (congrArg Prod.fst heq)

/-- The order aside, a new key is put in front. -/
theorem perm_insert (h : m.find k = none) : (m.insert k v).entries.Perm ((k, v) :: m.entries) := by
  have hnodup : ((k, v) :: m.entries).Nodup := nodup_cons.mpr ⟨find_eq_none.mp h v, nodup_entries m⟩
  refine (perm_ext_iff_of_nodup (nodup_entries _) hnodup).mpr fun e => ?_
  rw [mem_cons]
  refine mem_insert.trans (or_congr_right ?_)
  exact and_iff_left_of_imp fun he hk => find_eq_none.mp h e.2 (hk ▸ he)

theorem perm_erase (h : (k, v) ∈ m) : m.entries.Perm ((k, v) :: (m.erase k).entries) := by
  have hgone : (k, v) ∉ m.erase k := fun hv => (mem_erase.mp hv).2 rfl
  refine (perm_ext_iff_of_nodup (nodup_entries _) (nodup_cons.mpr ⟨hgone, nodup_entries _⟩)).mpr fun e => ?_
  rw [mem_cons]
  constructor
  · intro he
    by_cases hk : e.1 = k
    · exact .inl (eq_of_key_eq he h hk)
    · exact .inr (mem_erase.mpr ⟨he, hk⟩)
  · rintro (rfl | he)
    · exact h
    · exact (mem_erase.mp he).1

def keys (m : OrdMap K V) : List K := m.entries.map Prod.fst

theorem mem_keys : k ∈ m.keys ↔ ∃ v, m.find k = some v := by simp [keys, find_eq_some, mem_def]

theorem perm_keys_insert (h : k ∉ m.keys) : (m.insert k v).keys.Perm (k :: m.keys) :=
  (perm_insert (Option.eq_none_iff_forall_ne_some.mpr fun v hv => h (mem_keys.mpr ⟨v, hv⟩))).map Prod.fst

theorem keys_modify (m : OrdMap K V) (k : K) (f : V → V) : (m.modify k f).keys = m.keys := by
  rw [keys, keys, modify, map_map]
  exact map_congr_left fun e _ => by rw [comp_apply]; split <;> rfl

/-- The sum of a measure of the values. -/
def total {M : Type} [AddCommMonoid M] (f : V → M) (m : OrdMap K V) : M := (m.entries.map fun e => f e.2).sum

theorem total_modify {M : Type} [AddCommMonoid M] (f : V → M) (g : V → V) (h : (k, v) ∈ m) :
    (m.modify k g).total f + f v = m.total f + f (g v) := by
  obtain ⟨es, hord⟩ := m
  rw [total, total, modify, map_map]
  induction es with
  | nil => exact absurd h not_mem_nil
  | cons a es ih =>
    obtain ⟨hhead, htail⟩ := pairwise_cons.mp hord
    rw [map_cons, sum_cons, map_cons, sum_cons]
    by_cases hk : a.1 = k
    · -- the key does not occur again
      have hsame : es.map ((fun e => f e.2) ∘ fun e => if e.1 = k then (e.1, g e.2) else e) =
          es.map fun e => f e.2 := by
        refine map_congr_left fun e he => ?_
        rw [comp_apply, if_neg fun h => absurd (hk.trans h.symm) (ne_of_lt (hhead e he))]
      obtain rfl : a = (k, v) := by
        rcases mem_cons.mp h with h | h
        · exact h.symm
        · exact absurd hk (ne_of_lt (hhead _ h))
      rw [hsame, comp_apply, if_pos rfl]
      rw [add_comm, add_comm (f (g v)), ← add_assoc]
    have h' : (k, v) ∈ es := by
      rcases mem_cons.mp h with h | h
      · exact absurd (congrArg Prod.fst h).symm hk
      · exact h
    rw [comp_apply, if_neg hk, add_assoc, ih htail h', add_assoc]

theorem total_modify_eq {M : Type} [AddCommMonoid M] {f : V → M} {g : V → V}
    (h : ∀ v, m.find k = some v → f (g v) = f v) : (m.modify k g).total f = m.total f := by
  rw [total, total, modify, map_map]
  refine congrArg sum (map_congr_left fun e he => ?_)
  rw [comp_apply]
  split
  · next hk => exact h e.2 (find_eq_some.mpr (hk ▸ he))
  · rfl

theorem total_insert {M : Type} [AddCommMonoid M] (f : V → M) (h : m.find k = none) :
    (m.insert k v).total f = f v + m.total f :=
  ((perm_insert h).map fun e : K × V => f e.2).sum_eq.trans sum_cons

theorem total_erase {M : Type} [AddCommMonoid M] (f : V → M) (h : (k, v) ∈ m) :
    m.total f = f v + (m.erase k).total f :=
  ((perm_erase h).map fun e : K × V => f e.2).sum_eq.trans sum_cons

theorem total_le_total {f g : V → Nat} (h : ∀ e ∈ m, f e.2 ≤ g e.2) : m.total f ≤ m.total g := by
  exact sum_le_sum fun e he => h e he

/-! ## Size -/

def size (m : OrdMap K V) : Nat := m.entries.length

theorem not_mem_of_size_le_zero (h : m.size ≤ 0) (e : K × V) : e ∉ m := by
  rw [mem_def, eq_nil_of_length_eq_zero (Nat.le_zero.mp h)]
  exact not_mem_nil

theorem size_erase_lt (he : e ∈ m) : (m.erase e.1).size < m.size := by
  refine length_filter_lt_length_iff_exists.mpr ⟨e, he, ?_⟩
  simp

end OrdMap

end MoqQuic
