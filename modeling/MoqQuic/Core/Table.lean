import Mathlib.Data.Finmap

/-!
# Hash tables and heaps

A hash table is a `Finmap` whose values do not depend on the key. Mathlib has
lookup, insert and erase of one key; here are the update of a stored value in
place and the removal of a list of keys, by what they make of a lookup.

A heap is the list of all objects that were allocated, and a reference is a
position in it. Reading a field through a reference is `Option.bind` or
`Option.map` of the lookup.
-/
namespace MoqQuic

variable {K V : Type} [DecidableEq K]

abbrev Table (K V : Type) := Finmap fun _ : K => V

namespace Table

/-- Replace the value at `k` by its image under `f`, if there is one. -/
def modify (t : Table K V) (k : K) (f : V → V) : Table K V :=
  match t.lookup k with
  | some v => t.insert k (f v)
  | none => t

def eraseAll (t : Table K V) (ks : List K) : Table K V := ks.foldl (fun t k => t.erase k) t

def insertAll (t : Table K V) (ks : List K) (v : V) : Table K V := ks.foldl (fun t k => t.insert k v) t

variable {t : Table K V} {k k' : K} {f : V → V} {v : V}

theorem lookup_insert_eq (t : Table K V) (k k' : K) (v : V) :
    (t.insert k v).lookup k' = if k' = k then some v else t.lookup k' := by
  split
  · next h => rw [h, Finmap.lookup_insert]
  · next h => rw [Finmap.lookup_insert_of_ne _ h]

theorem insert_of_lookup (h : t.lookup k = some v) : t.insert k v = t := by
  refine Finmap.ext_lookup fun k' => ?_
  rw [lookup_insert_eq]
  split
  · next hk => rw [hk, h]
  · rfl

theorem lookup_erase_eq (t : Table K V) (k k' : K) :
    (t.erase k).lookup k' = if k' = k then none else t.lookup k' := by
  split
  · next h => rw [h, Finmap.lookup_erase]
  · next h => rw [Finmap.lookup_erase_ne h]

theorem lookup_modify (t : Table K V) (k k' : K) (f : V → V) :
    (t.modify k f).lookup k' = if k' = k then (t.lookup k').map f else t.lookup k' := by
  unfold modify
  split
  · next v hv =>
    rw [lookup_insert_eq]
    split
    · next h => rw [h, hv]; rfl
    · rfl
  · next hn =>
    split
    · next h => rw [h, hn]; rfl
    · rfl

theorem lookup_modify_of_lookup (h : t.lookup k = some v) (k' : K) (f : V → V) :
    (t.modify k f).lookup k' = if k' = k then some (f v) else t.lookup k' := by
  rw [lookup_modify]
  split
  · next hk => rw [hk, h]; rfl
  · rfl

/-- A value after `modify` is the image of the one before, or it is untouched. -/
theorem lookup_modify_eq_some (h : (t.modify k f).lookup k' = some v) :
    ∃ u, t.lookup k' = some u ∧ (k' = k ∧ v = f u ∨ k' ≠ k ∧ v = u) := by
  rw [lookup_modify] at h
  split at h
  · next hk =>
    obtain ⟨u, hu, rfl⟩ := Option.map_eq_some_iff.mp h
    exact ⟨u, hu, .inl ⟨hk, rfl⟩⟩
  · next hk => exact ⟨v, h, .inr ⟨hk, rfl⟩⟩

theorem mem_modify : k' ∈ t.modify k f ↔ k' ∈ t := by
  simp only [← Finmap.lookup_isSome, lookup_modify]
  split <;> simp

theorem lookup_eraseAll (ks : List K) (t : Table K V) :
    (t.eraseAll ks).lookup k = if k ∈ ks then none else t.lookup k := by
  induction ks generalizing t with
  | nil => rfl
  | cons k' ks ih =>
    refine (ih (t.erase k')).trans ?_
    rw [lookup_erase_eq]
    by_cases hk : k ∈ ks <;> by_cases hk' : k = k' <;> simp [hk, hk']

theorem lookup_insertAll (ks : List K) (t : Table K V) :
    (t.insertAll ks v).lookup k = if k ∈ ks then some v else t.lookup k := by
  induction ks generalizing t with
  | nil => rfl
  | cons k' ks ih =>
    refine (ih (t.insert k' v)).trans ?_
    rw [lookup_insert_eq]
    by_cases hk : k ∈ ks <;> by_cases hk' : k = k' <;> simp [hk, hk']

end Table

namespace Heap

variable {α β : Type} {f : α → α}

theorem bind_modify (g : α → Option β) (l : List α) (i x : Nat) :
    (l.modify i f)[x]?.bind g = if x = i then l[x]?.bind fun a => g (f a) else l[x]?.bind g := by
  rw [List.getElem?_modify]
  by_cases hx : i = x
  · cases l[x]? <;> simp [hx]
  rw [if_neg (Ne.symm hx)]
  cases l[x]? <;> simp [hx]

theorem bind_modify_of_keeps {g : α → Option β} (hg : ∀ a, g (f a) = g a) (l : List α) (i x : Nat) :
    (l.modify i f)[x]?.bind g = l[x]?.bind g := by
  simp only [bind_modify, hg, ite_self]

theorem map_modify {g : α → β} (hg : ∀ a, g (f a) = g a) (l : List α) (i x : Nat) :
    (l.modify i f)[x]?.map g = l[x]?.map g := by
  simp only [Option.map_eq_bind]
  refine bind_modify_of_keeps ?_ l i x
  exact fun a => congrArg some (hg a)

theorem getElem?_alloc (l : List α) (a : α) (x : Nat) : (l ++ [a])[x]? = if x = l.length then some a else l[x]? := by
  grind

end Heap

end MoqQuic
