import Mathlib.Data.List.Basic

/-!
# Runs of a step function

`step s l = some s'`: the action `l` is enabled in `s` and leads to `s'`.

* `run`: a list of actions taken in order.
* `Along step ok s ls`: every action of the run meets `ok` in the state in
  which it is taken.
* `run_invariant`: what every step meeting `ok` preserves holds at the end of
  every run along `ok`; `run_history_invariant` for a property of the state
  and of the actions that led to it, `Along.of_invariant` for what the
  invariant gives at every step.
* `ensures_iff_along`: what every step establishes exactly under `ok`, a run
  establishes throughout exactly along `ok`; `alongHistory_iff_along` for a
  property of each step that may speak about the actions before it.
* `Terminates step s`: no infinite run starts in `s`; `terminates_of_measure`
  by a measure that every step lowers, `not_terminates_of_loop` for a step
  that leads back.
-/
namespace MoqQuic.LTS

variable {S L : Type}

/-- Take the actions in order; `none` as soon as one is not enabled. -/
def run (step : S → L → Option S) : S → List L → Option S
  | s, [] => some s
  | s, l :: ls => (step s l).bind fun s' => run step s' ls

def Along (step : S → L → Option S) (ok : S → L → Prop) : S → List L → Prop
  | _, [] => True
  | s, l :: ls => ok s l ∧ ∀ s', step s l = some s' → Along step ok s' ls

variable {step : S → L → Option S} {ok : S → L → Prop} {Inv : S → Prop}

theorem run_cons {s s' : S} {l : L} {ls : List L} :
    run step s (l :: ls) = some s' ↔ ∃ s1, step s l = some s1 ∧ run step s1 ls = some s' :=
  Option.bind_eq_some_iff

/-- A run whose end can be evaluated. -/
theorem exists_run {s : S} {ls : List L} {Q : S → Prop} (p : S → Bool) (h : (run step s ls).any p = true)
    (hq : ∀ s', run step s ls = some s' → p s' = true → Q s') : ∃ s', run step s ls = some s' ∧ Q s' := by
  obtain ⟨s', hs, hp⟩ := (Option.any_eq_true ..).mp h
  exact ⟨s', hs, hq s' hs hp⟩

theorem Along.cons {s s1 : S} {l : L} {ls : List L} (hok : ok s l) (hs : step s l = some s1)
    (h : Along step ok s1 ls) : Along step ok s (l :: ls) := by
  refine ⟨hok, fun s' hs' => ?_⟩
  rw [hs] at hs'
  rwa [← Option.some.inj hs']

theorem Along.and {ok' : S → L → Prop} : ∀ {ls : List L} {s : S}, Along step ok s ls → Along step ok' s ls →
    Along step (fun s l => ok s l ∧ ok' s l) s ls := by
  intro ls
  induction ls with
  | nil => exact fun _ _ => trivial
  | cons l ls ih =>
    rintro s ⟨hok, hrest⟩ ⟨hok', hrest'⟩
    exact ⟨⟨hok, hok'⟩, fun s' hs' => ih (hrest s' hs') (hrest' s' hs')⟩

theorem along_true (s : S) (ls : List L) : Along step (fun _ _ => True) s ls := by
  induction ls generalizing s with
  | nil => trivial
  | cons l ls ih => exact ⟨trivial, fun s' _ => ih s'⟩

/-- The invariant may speak about the actions taken so far. -/
theorem run_history_invariant (Inv : List L → S → Prop)
    (hstep : ∀ past s l s', Inv past s → ok s l → step s l = some s' → Inv (past ++ [l]) s') {ls : List L}
    (past : List L) {s s' : S} (hi : Inv past s) (ha : Along step ok s ls) (hr : run step s ls = some s') :
    Inv (past ++ ls) s' := by
  induction ls generalizing past s s' with
  | nil =>
    rw [List.append_nil, ← Option.some.inj hr]
    exact hi
  | cons l ls ih =>
    obtain ⟨s1, h1, hr1⟩ := run_cons.mp hr
    have := ih _ (hstep past s l s1 hi ha.1 h1) (ha.2 s1 h1) hr1
    rwa [List.append_assoc] at this

theorem run_invariant (hstep : ∀ s l s', Inv s → ok s l → step s l = some s' → Inv s')
    {ls : List L} {s s' : S} (hi : Inv s) (ha : Along step ok s ls) (hr : run step s ls = some s') : Inv s' := by
  have hrun := run_history_invariant (fun _ : List L => Inv) (fun _ => hstep) [] hi ha hr
  exact hrun

/-- What an invariant and `ok` give at each step holds at every step of a run along `ok`. -/
theorem Along.of_invariant {P : S → L → Prop} (hP : ∀ s l, Inv s → ok s l → P s l)
    (hstep : ∀ s l s', Inv s → ok s l → step s l = some s' → Inv s') :
    ∀ {ls : List L} {s : S}, Inv s → Along step ok s ls → Along step P s ls := by
  intro ls
  induction ls with
  | nil => exact fun _ _ => trivial
  | cons l ls ih =>
    rintro s hi ⟨hok, hrest⟩
    exact ⟨hP s l hi hok, fun s' hs' => ih (hstep s l s' hi hok hs') (hrest s' hs')⟩

/-- If steps from `Inv` meet `P` exactly under `ok`, which keeps `Inv`, the same holds of whole runs. -/
theorem Along.iff_of_invariant {P : S → L → Prop} (hP : ∀ s l, Inv s → (P s l ↔ ok s l))
    (hstep : ∀ s l s', Inv s → ok s l → step s l = some s' → Inv s') {ls : List L} {s : S} (hi : Inv s) :
    Along step P s ls ↔ Along step ok s ls := by
  constructor
  · exact of_invariant (fun s l h hp => (hP s l h).mp hp) (fun s l s' h hp => hstep s l s' h ((hP s l h).mp hp)) hi
  · exact of_invariant (fun s l h hok => (hP s l h).mpr hok) hstep hi

/-- Every action of the run leads to a state that meets `post`. -/
def Ensures (step : S → L → Option S) (post : L → S → Prop) : S → List L → Prop
  | _, [] => True
  | s, l :: ls => ∀ s', step s l = some s' → post l s' ∧ Ensures step post s' ls

/-- If a step from `Inv` meets `post` exactly when it met `ok` before, and then keeps `Inv`, the same holds of
whole runs. -/
theorem ensures_iff_along {post : L → S → Prop} (hpost : ∀ s l s', Inv s → step s l = some s' → (post l s' ↔ ok s l))
    (hinv : ∀ s l s', Inv s → ok s l → step s l = some s' → Inv s') :
    ∀ {ls : List L} {s s' : S}, Inv s → run step s ls = some s' → (Ensures step post s ls ↔ Along step ok s ls) := by
  intro ls
  induction ls with
  | nil => exact fun _ _ => Iff.rfl
  | cons l ls ih =>
    intro s s' hi hr
    obtain ⟨s1, h1, hr1⟩ := run_cons.mp hr
    constructor
    · intro he
      obtain ⟨hp, he1⟩ := he s1 h1
      have hok := (hpost s l s1 hi h1).mp hp
      exact Along.cons hok h1 ((ih (hinv s l s1 hi hok h1) hr1).mp he1)
    rintro ⟨hok, ha⟩ s2 h2
    cases h1.symm.trans h2
    exact ⟨(hpost s l s1 hi h1).mpr hok, (ih (hinv s l s1 hi hok h1) hr1).mpr (ha s1 h1)⟩

/-- Every action of the run meets `ok`, given the actions before it and the state in which it is taken. -/
def AlongHistory (step : S → L → Option S) (ok : List L → S → L → Prop) : List L → S → List L → Prop
  | _, _, [] => True
  | past, s, l :: ls => ok past s l ∧ ∀ s', step s l = some s' → AlongHistory step ok (past ++ [l]) s' ls

/-- If `Inv` makes a property of a step equivalent to `ok`, and steps that meet `ok` keep it, then the
property holds throughout a run exactly along `ok`. -/
theorem alongHistory_iff_along {P : List L → S → L → Prop} (Inv : List L → S → Prop)
    (hiff : ∀ past s l, Inv past s → (P past s l ↔ ok s l))
    (hinv : ∀ past s l s', Inv past s → ok s l → step s l = some s' → Inv (past ++ [l]) s') :
    ∀ {ls : List L} {past : List L} {s : S}, Inv past s → (AlongHistory step P past s ls ↔ Along step ok s ls) := by
  intro ls
  induction ls with
  | nil => exact fun _ => Iff.rfl
  | cons l ls ih =>
    intro past s hi
    constructor
    · rintro ⟨hp, hrest⟩
      have hok := (hiff past s l hi).mp hp
      exact ⟨hok, fun s' hs' => (ih (hinv past s l s' hi hok hs')).mp (hrest s' hs')⟩
    · rintro ⟨hok, hrest⟩
      exact ⟨(hiff past s l hi).mpr hok, fun s' hs' => (ih (hinv past s l s' hi hok hs')).mpr (hrest s' hs')⟩

/-! ## Termination -/

def Terminates (step : S → L → Option S) (s : S) : Prop := Acc (fun s' s => ∃ l, step s l = some s') s

theorem Terminates.next {s s' : S} {l : L} (h : Terminates step s) (hs : step s l = some s') : Terminates step s' :=
  Acc.inv h ⟨l, hs⟩

theorem not_terminates_of_loop {s : S} {l : L} (hs : step s l = some s) : ¬ Terminates step s := by
  intro h
  induction h with
  | intro s _ ih => exact ih s ⟨l, hs⟩ hs

theorem terminates_of_measure {M : Type} {r : M → M → Prop} (wf : WellFounded r) (measure : S → M)
    (hstep : ∀ s l s', Inv s → step s l = some s' → Inv s' ∧ r (measure s') (measure s)) :
    ∀ {s : S}, Inv s → Terminates step s := by
  intro s
  induction hm : measure s using wf.induction generalizing s with
  | _ m ih =>
    subst hm
    refine fun hi => ⟨s, ?_⟩
    rintro s' ⟨l, hs⟩
    obtain ⟨hi', hr⟩ := hstep s l s' hi hs
    exact ih _ hr rfl hi'

end MoqQuic.LTS
