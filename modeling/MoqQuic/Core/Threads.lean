import Mathlib.Data.List.Nodup
import Mathlib.Logic.Function.Basic

/-!
# Threads that share read-write locks

A thread is the list of the instructions it still has to do. An instruction takes a
lock, gives one back, or does something else (`inner`) with the memory that the threads
share, after which more instructions may come before the rest. One step is one
instruction of one thread, so a run is any interleaving.

Giving back a lock that the thread does not hold is not a step. It never comes to that
if the code is well locked. What the code takes and gives back can be computed without
running it (`flow`).

* `flow_append`: code is composed of parts that fit together.
* `WellLocked.step`, `WellLocked.enter`: a step, and the start of new code, keep the
  threads well locked.
* `WellLocked.holds_of_release`: a thread holds what it is about to give back.
-/
namespace MoqQuic.Threads
open Function Option
open Function (update)

inductive Mode
  | read
  | write
  deriving DecidableEq, Repr

/-- What an instruction does to the locks; `inner needs` is one that needs the given lock, or none, to be held. -/
inductive Kind (L : Type)
  | acquire (l : L) (mode : Mode)
  | release (l : L) (mode : Mode)
  | inner (needs : Option (L × Mode))

/-- A lock with the threads that hold it. -/
structure RWLock (T : Type) where
  writer : Option T := none
  readers : List T := []

namespace RWLock

variable {T : Type} [DecidableEq T] (lock : RWLock T)

def Holds (t : T) : Mode → Prop
  | .write => lock.writer = some t
  | .read => t ∈ lock.readers

instance (t : T) : (mode : Mode) → Decidable (lock.Holds t mode)
  | .write => inferInstanceAs (Decidable (_ = _))
  | .read => inferInstanceAs (Decidable (_ ∈ _))

/-- `none` if the thread has to wait. -/
def acquire (t : T) : Mode → Option (RWLock T)
  | .write => if lock.writer.isNone ∧ lock.readers = [] then some { lock with writer := some t } else none
  | .read => if lock.writer.isNone then some { lock with readers := t :: lock.readers } else none

def release (t : T) : Mode → RWLock T
  | .write => { lock with writer := none }
  | .read => { lock with readers := lock.readers.erase t }

end RWLock

/-- Instructions `I` over locks `L` and a shared memory `S`. -/
structure Machine (L S I : Type) where
  kind : I → Kind L
  exec : S → I → Option (S × List I)

structure Config (T L S I : Type) where
  shared : S
  locks : L → RWLock T
  code : T → List I

section Steps

variable {T L S I : Type} [DecidableEq T] [DecidableEq L]

def Config.setLock (s : Config T L S I) (l : L) (lock : RWLock T) : Config T L S I :=
  { s with locks := update s.locks l lock }

def Config.setCode (s : Config T L S I) (t : T) (c : List I) : Config T L S I :=
  { s with code := update s.code t c }

/-- One instruction of the thread `t`; `none` if it has to wait, has nothing to do, or cannot go on. -/
def Machine.step (M : Machine L S I) (s : Config T L S I) (t : T) : Option (Config T L S I) :=
  match s.code t with
  | [] => none
  | i :: c =>
    match M.kind i with
    | .acquire l mode => ((s.locks l).acquire t mode).map fun lock => (s.setLock l lock).setCode t c
    | .release l mode =>
      if (s.locks l).Holds t mode then some ((s.setLock l ((s.locks l).release t mode)).setCode t c) else none
    | .inner _ => (M.exec s.shared i).map fun r => { s with shared := r.1 }.setCode t (r.2 ++ c)

/-- A step takes away the first instruction of the thread. Only an inner one changes the memory. -/
theorem Machine.step_cases {M : Machine L S I} {s s' : Config T L S I} {t : T} (h : M.step s t = some s') :
    ∃ i c, s.code t = i :: c ∧
      ((∀ needs, M.kind i ≠ .inner needs) ∧ s'.shared = s.shared ∧ s'.code = update s.code t c ∨
        ∃ needs r, M.kind i = .inner needs ∧ M.exec s.shared i = some r ∧ s'.locks = s.locks ∧ s'.shared = r.1 ∧
          s'.code = update s.code t (r.2 ++ c)) := by
  unfold Machine.step at h
  split at h
  · cases h
  rename_i i c hcode
  refine ⟨i, c, hcode, ?_⟩
  split at h
  · rename_i hkind
    obtain ⟨lock, -, rfl⟩ := map_eq_some_iff.mp h
    exact .inl ⟨by simp [hkind], rfl, rfl⟩
  · rename_i hkind
    simp only [ite_none_right_eq_some, some.injEq] at h
    obtain ⟨-, rfl⟩ := h
    exact .inl ⟨by simp [hkind], rfl, rfl⟩
  rename_i needs hkind
  obtain ⟨r, hr, rfl⟩ := map_eq_some_iff.mp h
  exact .inr ⟨needs, r, hkind, hr, rfl, rfl, rfl⟩

end Steps

/-! ## Code -/

section Code

variable {L S I : Type} [DecidableEq L] {M : Machine L S I}

/-- What a thread holds after an instruction, if the instruction is in its place. A thread holds one lock at a time. -/
def Machine.after (M : Machine L S I) (held : Option (L × Mode)) (i : I) : Option (Option (L × Mode)) :=
  match M.kind i with
  | .acquire l mode => if held = none then some (some (l, mode)) else none
  | .release l mode => if held = some (l, mode) then some none else none
  | .inner needs => if held = needs then some held else none

def Machine.flow (M : Machine L S I) : Option (L × Mode) → List I → Option (Option (L × Mode))
  | held, [] => some held
  | held, i :: c => (M.after held i).bind (M.flow · c)

variable {i : I} {c : List I}

theorem flow_cons {held held' : Option (L × Mode)} :
    M.flow held (i :: c) = some held' ↔ ∃ h, M.after held i = some h ∧ M.flow h c = some held' :=
  bind_eq_some_iff

theorem flow_inner {needs : Option (L × Mode)} (c : List I) (hi : M.kind i = .inner needs) :
    M.flow needs (i :: c) = M.flow needs c := by
  simp [Machine.flow, Machine.after, hi]

theorem flow_append {held h held' : Option (L × Mode)} {c c' : List I} (hc : M.flow held c = some h)
    (hc' : M.flow h c' = some held') : M.flow held (c ++ c') = some held' := by
  induction c generalizing held with
  | nil =>
    cases hc
    exact hc'
  | cons i c ih =>
    obtain ⟨h', hi, hrest⟩ := flow_cons.mp hc
    exact flow_cons.mpr ⟨h', hi, ih hrest⟩

/-- Only a thread that holds nothing can have this code. -/
def Machine.Free (M : Machine L S I) (c : List I) : Prop := ∀ held, M.flow held c = some none → held = none

theorem free_nil : M.Free [] := fun _ h => some.inj h

theorem free_cons (hi : M.kind i = .inner none) : M.Free (i :: c) := by
  intro held h
  obtain ⟨h', hafter, -⟩ := flow_cons.mp h
  unfold Machine.after at hafter
  rw [hi] at hafter
  simp only [ite_none_right_eq_some] at hafter
  exact hafter.1

end Code

/-! ## Well-locked threads -/

section WellLocked

variable {T L S I : Type} [DecidableEq T] [DecidableEq L] {M : Machine L S I} {s s' : Config T L S I} {t : T}
  {mode : Mode} {i : I} {c : List I}

/-- The locks are held as `held` says. -/
structure Holding (locks : L → RWLock T) (held : T → Option (L × Mode)) : Prop where
  iff : ∀ l t mode, (locks l).Holds t mode ↔ held t = some (l, mode)
  nodup : ∀ l, (locks l).readers.Nodup

/-- Each thread's code starts from what the thread holds, and ends with nothing held. -/
def WellLocked (M : Machine L S I) (s : Config T L S I) : Prop :=
  ∃ held, Holding s.locks held ∧ ∀ t, M.flow (held t) (s.code t) = some none

section Holding

variable {locks : L → RWLock T} {held : T → Option (L × Mode)} {l : L}

/-- One thread changes what it holds of one lock. -/
theorem Holding.set (h : Holding locks held) {lock : RWLock T} {new : Option (L × Mode)}
    (hlock : ∀ t' mode, lock.Holds t' mode ↔ t' ≠ t ∧ (locks l).Holds t' mode ∨ t' = t ∧ new = some (l, mode))
    (hold : ∀ l' mode, held t = some (l', mode) → l' = l) (hnew : ∀ l' mode, new = some (l', mode) → l' = l)
    (hnodup : lock.readers.Nodup) : Holding (update locks l lock) (update held t new) := by
  refine ⟨fun l' t' mode => ?_, fun l' => ?_⟩
  · by_cases hl : l' = l
    · subst hl
      rw [update_self, hlock]
      by_cases ht : t' = t
      · subst ht
        simp [update_self]
      rw [update_of_ne ht, ← h.iff]
      simp [ht]
    rw [update_of_ne hl, h.iff]
    by_cases ht : t' = t
    · subst ht
      rw [update_self]
      exact ⟨fun heq => absurd (hold l' mode heq) hl, fun heq => absurd (hnew l' mode heq) hl⟩
    · rw [update_of_ne ht]
  by_cases hl : l' = l
  · subst hl
    rw [update_self]
    exact hnodup
  · rw [update_of_ne hl]
    exact h.nodup l'

/-- A thread that holds nothing takes a lock. -/
theorem Holding.acquire (h : Holding locks held) {lock : RWLock T} (hnone : held t = none)
    (ha : (locks l).acquire t mode = some lock) : Holding (update locks l lock) (update held t (some (l, mode))) := by
  have hfree : ∀ mode', ¬ (locks l).Holds t mode' := by
    intro mode' hm
    rw [h.iff, hnone] at hm
    cases hm
  refine h.set ?_ (by simp [hnone]) (by simp +contextual) ?_
  · intro t' mode'
    cases mode with
    | write =>
      simp only [RWLock.acquire, ite_none_right_eq_some, some.injEq] at ha
      obtain ⟨⟨hwriter, hreaders⟩, rfl⟩ := ha
      rw [isNone_iff_eq_none] at hwriter
      cases mode' with
      | write => simp [RWLock.Holds, hwriter, eq_comm]
      | read => simp [RWLock.Holds, hreaders]
    | read =>
      simp only [RWLock.acquire, ite_none_right_eq_some, some.injEq] at ha
      obtain ⟨hwriter, rfl⟩ := ha
      rw [isNone_iff_eq_none] at hwriter
      cases mode' with
      | write => simp [RWLock.Holds, hwriter]
      | read =>
        simp only [RWLock.Holds, List.mem_cons, and_true]
        by_cases ht : t' = t
        · simp [ht]
        · simp [ht]
  cases mode with
  | write =>
    simp only [RWLock.acquire, ite_none_right_eq_some, some.injEq] at ha
    obtain ⟨-, rfl⟩ := ha
    exact h.nodup l
  | read =>
    simp only [RWLock.acquire, ite_none_right_eq_some, some.injEq] at ha
    obtain ⟨-, rfl⟩ := ha
    exact List.nodup_cons.mpr ⟨hfree .read, h.nodup l⟩

theorem Holding.release (h : Holding locks held) (hheld : held t = some (l, mode)) :
    Holding (update locks l ((locks l).release t mode)) (update held t none) := by
  have hmode : ∀ mode', (locks l).Holds t mode' ↔ mode = mode' := by
    intro mode'
    rw [h.iff, hheld]
    simp
  refine h.set ?_ ?_ (by simp) ?_
  · intro t' mode'
    cases mode with
    | write =>
      have hwriter : (locks l).writer = some t := (hmode .write).mpr rfl
      have hnot : t ∉ (locks l).readers := fun hr => nomatch (hmode .read).mp hr
      cases mode' with
      | write => simp [RWLock.Holds, RWLock.release, hwriter, eq_comm]
      | read =>
        simp only [RWLock.Holds, RWLock.release, reduceCtorEq, and_false, or_false]
        exact ⟨fun hr => ⟨fun heq => hnot (heq ▸ hr), hr⟩, And.right⟩
    | read =>
      cases mode' with
      | write =>
        have hnot : (locks l).writer ≠ some t := fun hw => nomatch (hmode .write).mp hw
        simp only [RWLock.Holds, RWLock.release, reduceCtorEq, and_false, or_false]
        exact ⟨fun hw => ⟨fun heq => hnot (heq ▸ hw), hw⟩, And.right⟩
      | read => simp [RWLock.Holds, RWLock.release, (h.nodup l).mem_erase_iff]
  · intro l' mode' heq
    rw [hheld] at heq
    cases heq
    rfl
  cases mode with
  | write => exact h.nodup l
  | read => exact (h.nodup l).erase t

end Holding

omit [DecidableEq T] in
/-- The next instruction is in its place. -/
theorem WellLocked.next {held : T → Option (L × Mode)} (hflow : ∀ t, M.flow (held t) (s.code t) = some none)
    (hcode : s.code t = i :: c) : ∃ h, M.after (held t) i = some h ∧ M.flow h c = some none :=
  flow_cons.mp (hcode ▸ hflow t)

theorem flow_update {held : T → Option (L × Mode)} {code : T → List I}
    (hflow : ∀ t, M.flow (held t) (code t) = some none) {h : Option (L × Mode)}
    (hc : M.flow h c = some none) : ∀ t', M.flow (update held t h t') (update code t c t') = some none := by
  intro t'
  by_cases ht : t' = t
  · subst ht
    rw [update_self, update_self]
    exact hc
  · rw [update_of_ne ht, update_of_ne ht]
    exact hflow t'

/-- A step keeps the threads well locked if the instructions it brings leave the thread with what it held. -/
theorem WellLocked.step (h : WellLocked M s) (hs : M.step s t = some s')
    (hexec : ∀ i c needs r, s.code t = i :: c → M.kind i = .inner needs → M.exec s.shared i = some r →
      M.flow needs r.2 = some needs) : WellLocked M s' := by
  obtain ⟨held, hh, hflow⟩ := h
  unfold Machine.step at hs
  split at hs
  · cases hs
  rename_i i c hcode
  obtain ⟨h', hafter, hrest⟩ := WellLocked.next hflow hcode
  unfold Machine.after at hafter
  split at hs
  · rename_i l mode hkind
    rw [hkind] at hafter
    simp only [ite_none_right_eq_some, some.injEq] at hafter
    obtain ⟨hnone, rfl⟩ := hafter
    obtain ⟨lock, ha, rfl⟩ := map_eq_some_iff.mp hs
    exact ⟨_, hh.acquire hnone ha, flow_update hflow hrest⟩
  · rename_i l mode hkind
    rw [hkind] at hafter
    simp only [ite_none_right_eq_some, some.injEq] at hafter
    obtain ⟨hheld, rfl⟩ := hafter
    simp only [ite_none_right_eq_some, some.injEq] at hs
    obtain ⟨-, rfl⟩ := hs
    exact ⟨_, hh.release hheld, flow_update hflow hrest⟩
  rename_i needs hkind
  rw [hkind] at hafter
  simp only [ite_none_right_eq_some, some.injEq] at hafter
  obtain ⟨hneeds, rfl⟩ := hafter
  obtain ⟨r, hr, rfl⟩ := map_eq_some_iff.mp hs
  have hnew := flow_append (hexec i c needs r hcode hkind hr) (hneeds ▸ hrest)
  refine ⟨held, hh, fun t' => ?_⟩
  have := flow_update (t := t) hflow hnew t'
  rwa [← hneeds, update_eq_self] at this

/-- A thread begins with code that starts and ends with nothing held, before the rest of its code. -/
theorem WellLocked.enter (h : WellLocked M s) (hc : M.flow none c = some none)
    (hfree : M.Free (s.code t)) : WellLocked M (s.setCode t (c ++ s.code t)) := by
  obtain ⟨held, hh, hflow⟩ := h
  have hnone := hfree _ (hflow t)
  have hnew : M.flow (held t) (c ++ s.code t) = some none := by
    rw [hnone]
    exact flow_append hc (hnone ▸ hflow t)
  refine ⟨held, hh, fun t' => ?_⟩
  have := flow_update (t := t) hflow hnew t'
  rwa [update_eq_self] at this

omit [DecidableEq T] in
theorem WellLocked.not_holds (h : WellLocked M s) (hfree : M.Free (s.code t)) (l : L) (mode : Mode) :
    ¬ (s.locks l).Holds t mode := by
  obtain ⟨held, hh, hflow⟩ := h
  rw [hh.iff, hfree _ (hflow t)]
  exact nofun

omit [DecidableEq T] in
/-- A thread holds what it is about to give back. -/
theorem WellLocked.holds_of_release (h : WellLocked M s) {l : L}
    (hcode : s.code t = i :: c) (hkind : M.kind i = .release l mode) : (s.locks l).Holds t mode := by
  obtain ⟨held, hh, hflow⟩ := h
  obtain ⟨h', hafter, -⟩ := WellLocked.next hflow hcode
  unfold Machine.after at hafter
  rw [hkind] at hafter
  dsimp only at hafter
  split at hafter
  · exact (hh.iff l t mode).mpr ‹_›
  · cases hafter

end WellLocked

end MoqQuic.Threads
