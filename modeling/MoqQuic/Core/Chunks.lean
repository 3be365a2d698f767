import MoqQuic.Core.OrdMap

/-!
# Chunks of a sequence

A sequence that arrives in pieces is kept in a map from positions to values:
the chunk `(k, v)` holds the positions from `k` on, `len v` of them. `Valid`
says that no chunk is empty and no two overlap.

Where one chunk ends, another one begins or the sequence is interrupted
(`Valid.mem_of_covers_stop`); a `Chain` is a row of chunks that begin where the
one before ends. A chunk may take the place of all those that lie within it, if
none lies across its ends (`Valid.insert`, `covers_insert`).
-/
namespace MoqQuic.Chunks
open OrdMap

variable {V : Type} (len : V → Nat)

def Covers (m : OrdMap Nat V) (x : Nat) : Prop := ∃ e ∈ m, e.1 ≤ x ∧ x < e.1 + len e.2

structure Valid (m : OrdMap Nat V) : Prop where
  pos : ∀ e ∈ m, 0 < len e.2
  stop_le : ∀ e ∈ m, ∀ e' ∈ m, e.1 < e'.1 → e.1 + len e.2 ≤ e'.1

/-- The map `m'` is `m` without its chunks at the positions in `D`. -/
def Without (m : OrdMap Nat V) (D : Nat → Prop) (m' : OrdMap Nat V) : Prop := ∀ e, e ∈ m' ↔ e ∈ m ∧ ¬ D e.1

variable {len} {m m' m'' : OrdMap Nat V} {D D' : Nat → Prop} {e e' : Nat × V} {v : V} {a b k x : Nat}

theorem Without.refl (m : OrdMap Nat V) : Without m (fun _ => False) m := fun _ => by simp

theorem Without.trans (h : Without m D m') (h' : Without m' D' m'') : Without m (fun k => D k ∨ D' k) m'' := by
  intro e
  rw [h', h, not_or, and_assoc]

/-- Only the positions at which there is a chunk matter. -/
theorem Without.congr (h : Without m D m') (hD : ∀ e ∈ m, D e.1 ↔ D' e.1) : Without m D' m' := by
  intro e
  rw [h]
  exact and_congr_right fun he => not_congr (hD e he)

theorem without_erase : Without m (· = k) (m.erase k) := fun _ => mem_erase

theorem Without.valid (h : Without m D m') (hm : Valid len m) : Valid len m' where
  pos := fun e he => hm.pos e ((h e).mp he).1
  stop_le := fun e he e' he' => hm.stop_le e ((h e).mp he).1 e' ((h e').mp he').1

theorem Without.covers (h : Without m D m') (hx : Covers len m' x) : Covers len m x := by
  obtain ⟨e, he, hex⟩ := hx
  exact ⟨e, ((h e).mp he).1, hex⟩

namespace Valid

theorem covers_start (h : Valid len m) (he : e ∈ m) : Covers len m e.1 :=
  ⟨e, he, le_rfl, Nat.lt_add_of_pos_right (h.pos e he)⟩

/-- A chunk does not reach over the start of another. -/
theorem stop_le_of_lt (h : Valid len m) (he : e ∈ m) (hx : ¬ Covers len m x ∨ ∃ v, (x, v) ∈ m) (hlt : e.1 < x) :
    e.1 + len e.2 ≤ x := by
  rcases hx with hx | ⟨v, hv⟩
  · by_contra hgt
    exact hx ⟨e, he, by omega, by omega⟩
  · exact h.stop_le e he (x, v) hv hlt

/-- Where a chunk ends, the next one begins if the position is covered at all. -/
theorem mem_of_covers_stop (h : Valid len m) (he : e ∈ m) (hx : Covers len m (e.1 + len e.2)) :
    ∃ v, (e.1 + len e.2, v) ∈ m := by
  obtain ⟨e', he', hle, hlt⟩ := hx
  have hkey : e'.1 = e.1 + len e.2 := by
    rcases Nat.lt_trichotomy e'.1 e.1 with hlt' | heq | hgt
    · have := h.stop_le e' he' e he hlt'
      omega
    · obtain rfl := eq_of_key_eq he' he heq
      omega
    · have := h.stop_le e he e' he' hgt
      omega
  exact ⟨e'.2, hkey ▸ he'⟩

/-- A chunk that begins a covered stretch begins at its first position. -/
theorem mem_of_covers_of_boundary (h : Covers len m k) (hk : ∀ e ∈ m, e.1 < k → e.1 + len e.2 ≤ k) :
    ∃ v, (k, v) ∈ m := by
  obtain ⟨e, he, hle, hlt⟩ := h
  have hkey : e.1 = k := by
    rcases Nat.lt_or_eq_of_le hle with hlt' | heq
    · have := hk e he hlt'
      omega
    · exact heq
  exact ⟨e.2, hkey ▸ he⟩

end Valid

/-! ## Rows of chunks -/

/-- Chunk follows chunk from the first position to the second. -/
inductive Chain (len : V → Nat) (m : OrdMap Nat V) : Nat → Nat → Prop
  | nil (k : Nat) : Chain len m k k
  | cons {k b : Nat} {v : V} (hv : (k, v) ∈ m) (h : Chain len m (k + len v) b) : Chain len m k b

namespace Chain

theorem le (h : Chain len m a b) : a ≤ b := by
  induction h with
  | nil => exact le_rfl
  | cons _ _ ih => omega

theorem covers (h : Chain len m a b) (hx : a ≤ x ∧ x < b) : Covers len m x := by
  induction h with
  | nil => omega
  | @cons k b v hv _ ih =>
    by_cases hlt : x < k + len v
    · exact ⟨(k, v), hv, hx.1, hlt⟩
    · exact ih ⟨by omega, hx.2⟩

theorem mono (h : Chain len m' a b) (hsub : ∀ e ∈ m', e ∈ m) : Chain len m a b := by
  induction h with
  | nil => exact .nil _
  | cons hv _ ih => exact .cons (hsub _ hv) ih

/-- A row that is not empty and has no next chunk ends at a position that is not covered. -/
theorem not_covers (h : Chain len m a b) (hm : Valid len m) (hlt : a < b) (hb : ∀ v, (b, v) ∉ m) :
    ¬ Covers len m b := by
  induction h with
  | nil => omega
  | @cons k b v hv hrest ih =>
    rcases Nat.lt_or_eq_of_le hrest.le with hlt' | heq
    · exact ih hlt' hb
    intro hcov
    rw [← heq] at hcov hb
    obtain ⟨w, hw⟩ := hm.mem_of_covers_stop hv hcov
    exact hb w hw

end Chain

/-- Without the first chunk of a row and without the rest. -/
theorem Without.of_erase (hm : Valid len m) (hv : (a, v) ∈ m)
    (h : Without (m.erase a) (fun k => a + len v ≤ k ∧ k < b) m') (hb : a + len v ≤ b) :
    Without m (fun k => a ≤ k ∧ k < b) m' := by
  have hpos := hm.pos _ hv
  refine (without_erase.trans h).congr fun e he => ?_
  have hstop : a < e.1 → a + len v ≤ e.1 := hm.stop_le (a, v) hv e he
  dsimp only at hpos
  omega

/-! ## One chunk in place of others -/

/-- No chunk lies across an end of the positions from `a` up to `b`. -/
def Whole (len : V → Nat) (m : OrdMap Nat V) (a b : Nat) : Prop :=
  ∀ e ∈ m, (e.1 < a → e.1 + len e.2 ≤ a) ∧ (e.1 < b → e.1 + len e.2 ≤ b)

theorem Valid.insert (hm : Valid len m) (hw : Whole len m a b) (h : Without m (fun k => a ≤ k ∧ k < b) m')
    (hb : a + len v = b) (hab : a < b) : Valid len (m'.insert a v) where
  pos := fun e he => by
    rcases mem_insert.mp he with rfl | ⟨he, -⟩
    · dsimp only
      omega
    · exact hm.pos e ((h e).mp he).1
  stop_le := fun e he e' he' hlt => by
    rcases mem_insert.mp he with rfl | ⟨he, -⟩ <;> rcases mem_insert.mp he' with rfl | ⟨he', -⟩
    · exact absurd hlt (Nat.lt_irrefl _)
    · have := ((h e').mp he').2
      dsimp only at hlt ⊢
      omega
    · exact (hw e ((h e).mp he).1).1 hlt
    · exact hm.stop_le e ((h e).mp he).1 e' ((h e').mp he').1 hlt

theorem covers_insert (hw : Whole len m a b) (h : Without m (fun k => a ≤ k ∧ k < b) m') (hb : a + len v = b)
    (hab : a < b) : Covers len (m'.insert a v) x ↔ Covers len m x ∨ a ≤ x ∧ x < b := by
  constructor
  · rintro ⟨e, he, hex⟩
    rcases mem_insert.mp he with rfl | ⟨he, -⟩
    · exact .inr (hb ▸ hex)
    · exact .inl ⟨e, ((h e).mp he).1, hex⟩
  intro hx
  by_cases hin : a ≤ x ∧ x < b
  · exact ⟨(a, v), mem_insert.mpr (.inl rfl), hb.symm ▸ hin⟩
  obtain ⟨e, he, hex⟩ := hx.resolve_right hin
  -- a chunk with a position outside does not begin inside
  have hout : ¬ (a ≤ e.1 ∧ e.1 < b) := by
    have := (hw e he).2
    omega
  refine ⟨e, mem_insert.mpr (.inr ⟨(h e).mpr ⟨he, hout⟩, ?_⟩), hex⟩
  omega

end MoqQuic.Chunks
