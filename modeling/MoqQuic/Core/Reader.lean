import Mathlib.Data.List.Basic

/-!
# Calls that read from a byte stream and fill in a record

A parsing method `func (m *M) Parse(r Reader) error` does three things at
once: it advances the reader, it assigns fields of `m`, and it may stop with
an error. Fields assigned before the error stay assigned and bytes read stay
read, so a caller that ignores the error goes on with both. `Act ε β α` keeps
the three apart: `β` is the record under construction, `ε` the error type,
and a run ends in a value, an error, or a panic (which no caller sees).

* `Reads p bs b a b'`: on any stream that starts with `bs`, `p` returns `a`,
  turns the record `b` into `b'` and leaves exactly the rest unread.
* `Steps p bs b q b'`: on any stream that starts with `bs`, `p` does what `q`
  does behind it.
* `Starves p bs b`: on every strict prefix of `bs`, `p` ends in an error with
  nothing left unread.
* `Reads.bind`, `Starves.bind`: both compose along the sequence of reads, so
  a format is treated field by field.
-/
namespace MoqQuic.Reader

abbrev Bytes := List UInt8

inductive Res (ε β α : Type) where
  | ok (a : α) (b : β) (rest : Bytes)
  | err (e : ε) (b : β) (rest : Bytes)
  | panic
  deriving DecidableEq

/-- A call on a reader (its unread bytes) that fills in a `β`. -/
structure Act (ε β α : Type) where
  run : β → Bytes → Res ε β α

variable {ε β γ α α' : Type}

namespace Act

instance : Monad (Act ε β) where
  pure a := ⟨fun b s => .ok a b s⟩
  bind p f := ⟨fun b s =>
    match p.run b s with
    | .ok a b' s' => (f a).run b' s'
    | .err e b' s' => .err e b' s'
    | .panic => .panic⟩

def throw (e : ε) : Act ε β α := ⟨fun b s => .err e b s⟩

/-- Assign to the record. -/
def assign (f : β → β) : Act ε β Unit := ⟨fun b s => .ok () (f b) s⟩

/-- `m.f, err = p(r); if err != nil { return err }`: a failed read hands back
the zero value, which is assigned too. -/
def field (p : Act ε β α) (zero : α) (set : α → β → β) : Act ε β Unit := ⟨fun b s =>
  match p.run b s with
  | .ok a b' s' => .ok () (set a b') s'
  | .err e b' s' => .err e (set zero b') s'
  | .panic => .panic⟩

/-- `x := zero; x.p(r)` with the error of `p` dropped: the caller goes on with
whatever `p` filled in. -/
def fill (p : Act ε γ Unit) (zero : γ) : Act ε β γ := ⟨fun b s =>
  match p.run zero s with
  | .ok _ g s' => .ok g b s'
  | .err _ g s' => .ok g b s'
  | .panic => .panic⟩

/-- `x := zero; if err := x.p(r); err != nil { return err }`. -/
def sub (p : Act ε γ Unit) (zero : γ) : Act ε β γ := ⟨fun b s =>
  match p.run zero s with
  | .ok _ g s' => .ok g b s'
  | .err e _ s' => .err e b s'
  | .panic => .panic⟩

/-- The record under construction. -/
def target : Act ε β β := ⟨fun b s => .ok b b s⟩

/-- `if err != nil { f(m); return err }` behind `p`. -/
def onErr (p : Act ε β α) (f : ε → β → β) : Act ε β α := ⟨fun b s =>
  match p.run b s with
  | .err e b' s' => .err e (f e b') s'
  | r => r⟩

/-- `for range n { p(r) }`, stopping at the first error. -/
def repeatN : Nat → Act ε β Unit → Act ε β Unit
  | 0, _ => pure ()
  | n + 1, p => do
    p
    repeatN n p

/-- `if c(m) { p(r) }`. -/
def guard (c : β → Prop) [DecidablePred c] (p : Act ε β Unit) : Act ε β Unit := ⟨fun b s =>
  if c b then p.run b s else .ok () b s⟩

end Act

open Act List

variable {p : Act ε β α} {f : α → Act ε β α'} {b b' : β} {a : α}

theorem bind_ok {s s' : Bytes} (h : p.run b s = .ok a b' s') : (p >>= f).run b s = (f a).run b' s' := by
  simp only [Bind.bind]; rw [h]

theorem bind_err {e : ε} {s s' : Bytes} (h : p.run b s = .err e b' s') : (p >>= f).run b s = .err e b' s' := by
  simp only [Bind.bind]; rw [h]

/-! ## Where a run ends -/

/-- The run returns, with a value or an error, the record `b` and the bytes
`rest` left. -/
def Res.Leaves (r : Res ε β α) (b : β) (rest : Bytes) : Prop :=
  (∃ a, r = .ok a b rest) ∨ ∃ e, r = .err e b rest

theorem fill_ok {p : Act ε γ Unit} {zero g : γ} {s rest : Bytes} (h : (Act.fill p zero).run b s = .ok g b' rest) :
    (p.run zero s).Leaves g rest := by
  simp only [Act.fill] at h
  cases hp : p.run zero s with
  | ok a g' s' =>
    rw [hp] at h
    obtain ⟨rfl, -, rfl⟩ := Res.ok.inj h
    exact Or.inl ⟨a, rfl⟩
  | err e g' s' =>
    rw [hp] at h
    obtain ⟨rfl, -, rfl⟩ := Res.ok.inj h
    exact Or.inr ⟨e, rfl⟩
  | panic => rw [hp] at h; cases h

variable {set : α → β → β} {zero : α}

theorem Res.Leaves.field {s rest : Bytes} (h : ((Act.field p zero set).run b s).Leaves b' rest) :
    (∃ e b1, p.run b s = .err e b1 rest ∧ b' = set zero b1) ∨ ∃ a b1, p.run b s = .ok a b1 rest ∧ b' = set a b1 := by
  simp only [Act.field] at h
  cases hp : p.run b s with
  | ok a b1 s1 =>
    rw [hp] at h
    rcases h with ⟨_, h⟩ | ⟨_, h⟩
    · obtain ⟨-, rfl, rfl⟩ := Res.ok.inj h
      exact Or.inr ⟨a, b1, rfl, rfl⟩
    · cases h
  | err e b1 s1 =>
    rw [hp] at h
    rcases h with ⟨_, h⟩ | ⟨_, h⟩
    · cases h
    obtain ⟨-, rfl, rfl⟩ := Res.err.inj h
    exact Or.inl ⟨e, b1, rfl, rfl⟩
  | panic => rw [hp] at h; rcases h with ⟨_, h⟩ | ⟨_, h⟩ <;> cases h

theorem Res.Leaves.field_bind {f : Unit → Act ε β α'} {s rest : Bytes}
    (h : ((Act.field p zero set >>= f).run b s).Leaves b' rest) :
    (∃ e b1, p.run b s = .err e b1 rest ∧ b' = set zero b1) ∨
    ∃ a b1 s1, p.run b s = .ok a b1 s1 ∧ ((f ()).run (set a b1) s1).Leaves b' rest := by
  cases hp : p.run b s with
  | ok a b1 s1 =>
    have hf : (Act.field p zero set).run b s = .ok () (set a b1) s1 := by
      simp only [Act.field]; rw [hp]
    rw [bind_ok hf] at h
    exact Or.inr ⟨a, b1, s1, rfl, h⟩
  | err e b1 s1 =>
    have hf : (Act.field p zero set).run b s = .err e (set zero b1) s1 := by
      simp only [Act.field]; rw [hp]
    rw [bind_err hf] at h
    rcases h with ⟨_, h⟩ | ⟨_, h⟩
    · cases h
    obtain ⟨-, rfl, rfl⟩ := Res.err.inj h
    exact Or.inl ⟨e, b1, rfl, rfl⟩
  | panic =>
    simp only [Bind.bind, Act.field] at h
    rw [hp] at h
    rcases h with ⟨_, h⟩ | ⟨_, h⟩ <;> cases h

/-- The bytes a run leaves unread, unless it panics. -/
def Res.left? : Res ε β α → Option Bytes
  | .ok _ _ rest => some rest
  | .err _ _ rest => some rest
  | .panic => none

@[simp] theorem fill_left? (p : Act ε γ Unit) (zero : γ) (b : β) (s : Bytes) :
    ((Act.fill p zero).run b s).left? = (p.run zero s).left? := by
  simp only [Act.fill]
  cases p.run zero s <;> rfl

@[simp] theorem sub_left? (p : Act ε γ Unit) (zero : γ) (b : β) (s : Bytes) :
    ((Act.sub p zero).run b s).left? = (p.run zero s).left? := by
  simp only [Act.sub]
  cases p.run zero s <;> rfl

/-- What follows the last read only computes. -/
theorem bind_left? (b : β) (s : Bytes) (hf : ∀ a b s, ((f a).run b s).left? = some s) :
    ((p >>= f).run b s).left? = (p.run b s).left? := by
  simp only [Bind.bind]
  cases p.run b s with
  | ok a b' s' => exact hf a b' s'
  | err e b' s' | panic => rfl

/-! ## Reading a whole encoding -/

def Reads (p : Act ε β α) (bs : Bytes) (b : β) (a : α) (b' : β) : Prop :=
  ∀ rest, p.run b (bs ++ rest) = .ok a b' rest

theorem Reads.pure (a : α) (b : β) : Reads (pure a : Act ε β α) [] b a b := fun _ => rfl

variable {bs cs : Bytes} {b b1 b2 : β}

theorem Reads.bind {c : α'} (hp : Reads p bs b a b1) (hf : Reads (f a) cs b1 c b2) :
    Reads (p >>= f) (bs ++ cs) b c b2 := by
  intro rest
  rw [append_assoc, bind_ok (hp (cs ++ rest))]
  exact hf rest

variable {bs : Bytes}

/-- The last action of a sequence: nothing more to read. -/
theorem Reads.bind_pure {c : α'} (hp : Reads p bs b a b1) (hf : Reads (f a) [] b1 c b2) :
    Reads (p >>= f) bs b c b2 := by
  have := Reads.bind hp hf
  rwa [append_nil] at this

theorem Reads.field (hp : Reads p bs b a b) : Reads (Act.field p zero set) bs b () (set a b) := by
  intro rest; simp only [Act.field]; rw [hp rest]

theorem Reads.fill {p : Act ε γ Unit} {zero g : γ} (b : β) (hp : Reads p bs zero () g) :
    Reads (Act.fill p zero) bs b g b := by
  intro rest; simp only [Act.fill]; rw [hp rest]

theorem Reads.sub {p : Act ε γ Unit} {zero g : γ} (b : β) (hp : Reads p bs zero () g) :
    Reads (Act.sub p zero) bs b g b := by
  intro rest; simp only [Act.sub]; rw [hp rest]

theorem Reads.onErr {f : ε → β → β} (hp : Reads p bs b a b') : Reads (Act.onErr p f) bs b a b' := by
  intro rest; simp only [Act.onErr]; rw [hp rest]

theorem Reads.assign (f : β → β) (b : β) : Reads (Act.assign f : Act ε β Unit) [] b () (f b) :=
  fun _ => rfl

theorem Reads.guard_pos {c : β → Prop} [DecidablePred c] {p : Act ε β Unit} (h : c b) (hp : Reads p bs b () b') :
    Reads (Act.guard c p) bs b () b' := by
  intro rest; simp only [Act.guard]; rw [if_pos h]; exact hp rest

theorem Reads.guard_neg {c : β → Prop} [DecidablePred c] {p : Act ε β Unit} (h : ¬ c b) :
    Reads (Act.guard c p) [] b () b := by
  intro rest; simp only [Act.guard]; rw [if_neg h]; rfl

theorem Reads.assign_bind {f : β → β} {g : Unit → Act ε β α} (hg : Reads (g ()) cs (f b) a b') :
    Reads (Act.assign f >>= g) cs b a b' := hg

/-- A loop over a list of encodings, each read by the same body: `step x` is
what the body does to the record on the encoding `enc x`. -/
theorem Reads.repeatN {ι : Type} {p : Act ε β Unit} (enc : ι → Bytes) (step : β → ι → β)
    (xs : List ι) (h : ∀ x ∈ xs, ∀ b, Reads p (enc x) b () (step b x)) :
    ∀ b, Reads (Act.repeatN xs.length p) (xs.flatMap enc) b () (xs.foldl step b) := by
  induction xs with
  | nil => intro b rest; rfl
  | cons x xs ih =>
    intro b rest
    have hx := h x mem_cons_self b (xs.flatMap enc ++ rest)
    have ht := ih (fun y hy => h y (mem_cons_of_mem _ hy)) (step b x) rest
    rw [flatMap_cons, append_assoc, foldl_cons, ← ht]
    exact bind_ok hx

/-- On a stream that starts with `bs`, `p` goes on as `q` behind it. -/
def Steps (p : Act ε β α) (bs : Bytes) (b : β) (q : Act ε β α) (b' : β) : Prop :=
  ∀ s, p.run b (bs ++ s) = q.run b' s

theorem Steps.last (hp : Reads p bs b a b1) : Steps (p >>= f) bs b (f a) b1 :=
  fun s => bind_ok (hp s)

theorem Steps.bind {q : Act ε β α'} (hp : Reads p bs b a b1) (h : Steps (f a) cs b1 q b2) :
    Steps (p >>= f) (bs ++ cs) b q b2 := by
  intro s
  rw [append_assoc, bind_ok (hp (cs ++ s))]
  exact h s

theorem Steps.reads {q : Act ε β α} (h : Steps p bs b q b1) (hq : Reads q cs b1 a b2) :
    Reads p (bs ++ cs) b a b2 := by
  intro rest
  rw [append_assoc, h (cs ++ rest)]
  exact hq rest

/-! ## Reading a cut encoding -/

def Starves (p : Act ε β α) (bs : Bytes) (b : β) : Prop :=
  ∀ pre, pre <+: bs → pre ≠ bs → ∃ e b', p.run b pre = .err e b' []

/-- Cutting `bs ++ cs`: the cut is inside `bs`, or all of `bs` is there. -/
theorem prefix_append_cases {pre : Bytes} (h : pre <+: bs ++ cs) (hne : pre ≠ bs ++ cs) :
    (pre <+: bs ∧ pre ≠ bs) ∨ ∃ pre', pre = bs ++ pre' ∧ pre' <+: cs ∧ pre' ≠ cs := by
  rcases prefix_or_prefix_of_prefix h (prefix_append bs cs) with hb | ⟨pre', rfl⟩
  · by_cases he : pre = bs
    · right
      refine ⟨[], by simp [he], nil_prefix, ?_⟩
      rintro rfl
      exact hne (by simp [he])
    · exact Or.inl ⟨hb, he⟩
  right
  refine ⟨pre', rfl, (prefix_append_right_inj bs).mp h, ?_⟩
  rintro rfl
  exact hne rfl

theorem Starves.bind (hp : Reads p bs b a b1) (hs : Starves p bs b) (hf : Starves (f a) cs b1) :
    Starves (p >>= f) (bs ++ cs) b := by
  intro pre hpre hne
  rcases prefix_append_cases hpre hne with ⟨hb, hbne⟩ | ⟨pre', rfl, hc, hcne⟩
  · obtain ⟨e, b', h⟩ := hs pre hb hbne
    exact ⟨e, b', bind_err h⟩
  rw [bind_ok (hp pre')]
  exact hf pre' hc hcne

/-- What follows a starved read is not reached. -/
theorem Starves.head (hs : Starves p bs b) : Starves (p >>= f) bs b := by
  intro pre hpre hne
  obtain ⟨e, b', h⟩ := hs pre hpre hne
  exact ⟨e, b', bind_err h⟩

theorem Starves.onErr {f : ε → β → β} (hs : Starves p bs b) : Starves (Act.onErr p f) bs b := by
  intro pre hpre hne
  obtain ⟨e, b', h⟩ := hs pre hpre hne
  exact ⟨e, f e b', by simp only [Act.onErr]; rw [h]⟩

theorem Starves.sub {p : Act ε γ Unit} {zero : γ} (b : β) (hs : Starves p bs zero) : Starves (Act.sub p zero) bs b := by
  intro pre hpre hne
  obtain ⟨e, g, h⟩ := hs pre hpre hne
  exact ⟨e, b, by simp only [Act.sub]; rw [h]⟩

theorem Starves.field (hp : Starves p bs b) : Starves (Act.field p zero set) bs b := by
  intro pre hpre hne
  obtain ⟨e, b', h⟩ := hp pre hpre hne
  exact ⟨e, set zero b', by simp only [Act.field]; rw [h]⟩

end MoqQuic.Reader
