import Mathlib.Order.Bounds.Basic
import MoqQuic.Core.LTS
import MoqQuic.L2Machine.Quic.FrameSorterPush

/-!
# Reassembly with the frame sorter (`frame_sorter.go`)

The peer sends one byte string `S` in frames that may overlap, repeat and
arrive in any order, while the application pops what has come in. A run is made
of the calls of `Push` and `Pop` on a new sorter and ends with a panic or before
the first error; what has passed through the sorter is kept beside it: the
frames that were pushed, the bytes that were popped, and the callbacks that were
run by `Push` or handed out by `Pop`. The callback of a frame is the number of
frames pushed before it.

The list of gaps always ends with a gap that reaches to `maxByteCount`.
`findEndGap` looks for a gap that the end of the frame is in or before, and
panics if there is none: a frame that ends at `maxByteCount` is taken for one
that ends behind all gaps, although such a frame is the last one that the parser
of STREAM frames lets through.

Result:
* `reassembly_iff`: after every call the sorter holds what it should (`Assembled`)
  exactly if no frame that was pushed ends at `maxByteCount` or behind it.
-/
namespace MoqQuic.L2.Quic
open LTS OrdMap List FrameSorter Option
open Reader (Bytes)
open Chunks

namespace FrameSorter

variable {C : Type} {s : FrameSorter C} {x : Nat}

theorem shape_new : (newFrameSorter : FrameSorter C).Shape where
  separated := ⟨fun g hg => by rw [mem_singleton.mp hg]; decide, pairwise_singleton _ _⟩
  valid := ⟨fun _ he => absurd he not_mem_empty, fun _ he => absurd he not_mem_empty⟩
  unread := fun _ he => absurd he not_mem_empty
  tiles := fun x => by
    have hnone : ¬ (newFrameSorter : FrameSorter C).Queued x := fun ⟨_, he, _⟩ => not_mem_empty he
    rw [InGap, newFrameSorter, Interval.covers_cons]
    simp only [Nat.zero_le, true_and, Interval.not_covers_nil, or_false]
    exact ⟨fun hx => ⟨hx, hnone⟩, fun hx => hx.1⟩
  top := ⟨_, mem_singleton.mpr rfl, Nat.zero_le _, by decide⟩

/-! ## Storing the frame -/

section Store

variable {data : Bytes} {offset stop : Nat} {queue : FrameQueue C} {gaps : List ByteInterval} {f : NewFrame}
  {called : List C} {cb : Option C}

/-- The sorter with the frame in its place. -/
def stored (s : FrameSorter C) (queue : FrameQueue C) (gaps : List ByteInterval) (f : NewFrame) (cb : Option C) :
    FrameSorter C :=
  { s with queue := queue.insert f.start ⟨f.data, cb⟩, gaps := gaps }

variable (hp : s.Placed data offset stop queue gaps f called)
include hp

theorem Placed.pending_stored :
    pending (s.stored queue gaps f cb).queue = (cb.toList : Multiset C) + pending queue := by
  refine total_insert _ (find_eq_none.mpr fun e he => ?_)
  exact ((hp.without _).mp he).2 ⟨le_rfl, hp.lt⟩

/-- `store` fails because of the gaps, or queues the frame; its callback goes into the queue or is run. -/
theorem store_cases (doneCb : Option C) :
    (∃ left called', store { s with queue := queue, gaps := gaps } f doneCb called =
      .error (.tooManyGaps left called')) ∨
    ∃ cb called', store { s with queue := queue, gaps := gaps } f doneCb called =
        .ok (s.stored queue gaps f cb, called') ∧
      pending (s.stored queue gaps f cb).queue + (called' : Multiset C) =
        (doneCb.toList : Multiset C) + pending s.queue := by
  rw [store]
  split
  · exact .inl ⟨_, _, rfl⟩
  refine .inr ⟨_, _, rfl, ?_⟩
  rw [hp.pending_stored, hp.pending_eq]
  split <;> ac_rfl

variable (hstop : stop = offset + data.length)
include hstop

theorem Placed.length_data : f.start + f.data.length = f.stop := by
  have h1 := hp.le_start
  have h2 := hp.lt
  have h3 := hp.stop_le
  rw [hp.data_eq, length_take, length_drop]
  omega

theorem Placed.queued_iff : (s.stored queue gaps f cb).Queued x ↔ s.Queued x ∨ f.start ≤ x ∧ x < f.stop :=
  covers_insert hp.whole hp.without (hp.length_data hstop) hp.lt

variable (h : s.Shape) (hmax : stop < maxByteCount)
include h hmax

theorem Placed.shape : (s.stored queue gaps f cb).Shape where
  separated := hp.separated
  valid := h.valid.insert hp.whole hp.without (hp.length_data hstop) hp.lt
  unread := fun e he => by
    rcases mem_insert.mp he with rfl | ⟨he, -⟩
    · exact hp.unread
    · exact h.unread e ((hp.without e).mp he).1
  tiles := fun x => by
    have hgaps : (s.stored queue gaps f cb).InGap x ↔ s.InGap x ∧ ¬ (f.start ≤ x ∧ x < f.stop) := hp.covers_gaps x
    rw [hgaps, h.tiles, hp.queued_iff hstop, not_or, and_assoc, and_assoc]
    rfl
  top := by
    have hle := hp.stop_le
    exact (hp.covers_gaps _).mpr ⟨h.top, by omega⟩

/-- Together with the new frame, everything that was in the frame is in the sorter. -/
theorem Placed.holds_iff :
    x < s.readPos ∨ (s.stored queue gaps f cb).Queued x ↔ (x < s.readPos ∨ s.Queued x) ∨ offset ≤ x ∧ x < stop := by
  rw [hp.queued_iff hstop]
  have hle := hp.le_start
  have hle' := hp.stop_le
  constructor
  · rintro (hx | hx | hx)
    · exact .inl (.inl hx)
    · exact .inl (.inr hx)
    · exact .inr ⟨by omega, by omega⟩
  rintro ((hx | hx) | hx)
  · exact .inl hx
  · exact .inr (.inl hx)
  by_cases hin : f.start ≤ x ∧ x < f.stop
  · exact .inr (.inr hin)
  rcases Nat.lt_or_ge x s.readPos with hlt | hge
  · exact .inl hlt
  · exact .inr (.inl (h.queued (by omega) hge (hp.known x hx.1 hx.2 hin)))

end Store

/-- What a call of `Push` that returns no error does: the frame is added to what is read or queued, with its own
data, and its callback is added to those that are queued or have been run. -/
structure Pushed (s s' : FrameSorter C) (data : Bytes) (offset : Nat) (doneCb : Option C) (called : List C) :
    Prop where
  shape : s'.Shape
  readPos_eq : s'.readPos = s.readPos
  holds_iff : ∀ x, x < s.readPos ∨ s'.Queued x ↔ (x < s.readPos ∨ s.Queued x) ∨ offset ≤ x ∧ x < offset + data.length
  entries : ∀ e ∈ s'.queue, e ∈ s.queue ∨ offset ≤ e.1 ∧ e.2.data = (data.drop (e.1 - offset)).take e.2.data.length
  pending_eq : pending s'.queue + (called : Multiset C) = (doneCb.toList : Multiset C) + pending s.queue

section Calls

variable {data : Bytes} {offset : Nat} {doneCb : Option C}

/-- A duplicate changes nothing. -/
theorem pushed_known (h : s.Shape) (hin : data.length = 0 ∨ offset + data.length < maxByteCount)
    (hknown : s.Known data offset) : Pushed s s data offset doneCb doneCb.toList where
  shape := h
  readPos_eq := rfl
  holds_iff := fun x => by
    refine ⟨.inl, fun hx => hx.elim id fun hx => ?_⟩
    rcases Nat.lt_or_ge x s.readPos with hlt | hge
    · exact .inl hlt
    · exact .inr (h.queued (by omega) hge (hknown x hx.1 hx.2))
  entries := fun e he => .inl he
  pending_eq := add_comm _ _

theorem Placed.pushed {queue : FrameQueue C} {gaps : List ByteInterval} {f : NewFrame} {called called' : List C}
    {cb : Option C} (hp : s.Placed data offset (offset + data.length) queue gaps f called) (h : s.Shape)
    (hmax : offset + data.length < maxByteCount)
    (hpending : pending (s.stored queue gaps f cb).queue + (called' : Multiset C) =
      (doneCb.toList : Multiset C) + pending s.queue) :
    Pushed s (s.stored queue gaps f cb) data offset doneCb called' where
  shape := hp.shape rfl h hmax
  readPos_eq := rfl
  holds_iff := fun x => hp.holds_iff rfl h hmax
  entries := fun e he => by
    rcases mem_insert.mp he with rfl | ⟨he, -⟩
    · have hlen := hp.length_data rfl
      have hsub : f.data.length = f.stop - f.start := by omega
      refine .inr ⟨hp.le_start, ?_⟩
      rw [hsub]
      exact hp.data_eq
    · exact .inl ((hp.without e).mp he).1
  pending_eq := hpending

/-- A frame that is empty or ends below `maxByteCount` does not make `Push` panic. -/
theorem Push_cases (h : s.Shape) (hin : data.length = 0 ∨ offset + data.length < maxByteCount) (doneCb : Option C) :
    (∃ left called, s.Push data offset doneCb = .error (.tooManyGaps left called)) ∨
    ∃ s' called, s.Push data offset doneCb = .ok (s', called) ∧ Pushed s s' data offset doneCb called := by
  by_cases hne : data.length = 0
  · have hpush : s.push data offset doneCb = .error .duplicateStreamData := by rw [push, if_pos hne]
    exact .inr ⟨s, doneCb.toList, by rw [Push, hpush], pushed_known h hin fun x hx hlt => by omega⟩
  have hmax := hin.resolve_left hne
  rcases push_cases h hne hmax doneCb with ⟨hpush, hknown⟩ | ⟨queue, gaps, f, called, hpush, hp⟩
  · exact .inr ⟨s, doneCb.toList, by rw [Push, hpush], pushed_known h hin hknown⟩
  rcases store_cases hp doneCb with ⟨left, called', hstore⟩ | ⟨cb, called', hstore, hpending⟩
  · exact .inl ⟨left, called', by rw [Push, hpush, hstore]⟩
  · exact .inr ⟨_, called', by rw [Push, hpush, hstore], hp.pushed h hmax hpending⟩

theorem Push_panics (h : s.Shape) (hout : ¬ (data.length = 0 ∨ offset + data.length < maxByteCount))
    (doneCb : Option C) : s.Push data offset doneCb = .error .panic := by
  have hpush := push_panics h (fun hne => hout (.inl hne)) (Nat.not_lt.mp fun hlt => hout (.inr hlt)) doneCb
  rw [Push, hpush]

/-! ## `Pop` -/

/-- The sorter after the frame at the read position was popped. -/
def popped (s : FrameSorter C) (e : FrameSorterEntry C) : FrameSorter C :=
  { s with queue := s.queue.erase s.readPos, readPos := s.readPos + e.data.length }

theorem pop_eq_nil (hno : s.queue.find s.readPos = none) : s.pop = some (s, ⟨s.readPos, none, none⟩) := by
  rw [pop, hno]

variable {e : FrameSorterEntry C} (he : (s.readPos, e) ∈ s.queue)
include he

theorem queued_popped_iff : s.Queued x ↔ s.readPos ≤ x ∧ x < s.readPos + e.data.length ∨ (s.popped e).Queued x := by
  constructor
  · rintro ⟨e', he', hin⟩
    by_cases hkey : e'.1 = s.readPos
    · obtain rfl := eq_of_key_eq he' he hkey
      exact .inl hin
    · exact .inr ⟨e', mem_erase.mpr ⟨he', hkey⟩, hin⟩
  rintro (hin | ⟨e', he', hin⟩)
  · exact ⟨_, he, hin⟩
  · exact ⟨e', (mem_erase.mp he').1, hin⟩

theorem holds_popped_iff : x < (s.popped e).readPos ∨ (s.popped e).Queued x ↔ x < s.readPos ∨ s.Queued x := by
  rw [queued_popped_iff he]
  have hpos : (s.popped e).readPos = s.readPos + e.data.length := rfl
  by_cases hq : (s.popped e).Queued x
  · simp [hq]
  simp only [hq, or_false]
  omega

variable (h : s.Shape)
include h

theorem unread_popped : ∀ e' ∈ (s.popped e).queue, s.readPos + e.data.length ≤ e'.1 := by
  intro e' he'
  obtain ⟨he', hkey⟩ := mem_erase.mp he'
  have hread := h.unread e' he'
  exact h.valid.stop_le (s.readPos, e) he e' he' (by dsimp only; omega)

theorem shape_popped : (s.popped e).Shape where
  separated := h.separated
  valid := without_erase.valid h.valid
  unread := unread_popped he h
  tiles := fun x => by
    have hgaps : (s.popped e).InGap x ↔ s.InGap x := Iff.rfl
    have hpos : (s.popped e).readPos = s.readPos + e.data.length := rfl
    have hnot : (s.popped e).Queued x → s.readPos + e.data.length ≤ x := fun ⟨e', he', hin⟩ =>
      Nat.le_trans (unread_popped he h e' he') hin.1
    rw [hgaps, h.tiles, queued_popped_iff he, hpos]
    by_cases hq : (s.popped e).Queued x
    · simp [hq]
    simp only [hq, or_false, not_false_eq_true, and_true]
    omega
  top := h.top

/-- `Pop` does not panic, since the first gap begins behind everything that was popped. -/
theorem pop_eq_some : s.pop = some (s.popped e, ⟨s.readPos, some e.data, e.doneCb⟩) := by
  rw [pop, find_eq_some.mpr he]
  dsimp only
  split
  · next hnil =>
    obtain ⟨g, hg, -⟩ := h.top
    rw [hnil] at hg
    exact absurd hg not_mem_nil
  rename_i front rest hgaps
  have hfront : front ∈ (s.popped e).gaps := by
    rw [show (s.popped e).gaps = front :: rest from hgaps]
    exact mem_cons_self
  have hread : s.readPos + e.data.length ≤ front.start := (shape_popped he h).readPos_le_start hfront
  have hpos := h.separated.1 front hfront
  rw [if_neg (by omega)]
  rfl

end Calls

end FrameSorter

/-! ## Runs -/

/-- A sorter and what has passed through it; after a panic there is no sorter. -/
structure Assembly where
  sorter : Option (FrameSorter Nat)
  frames : List (Nat × Nat)
  popped : Bytes
  done : List Nat

inductive SorterCall where
  | push (offset len : Nat) (hasCb : Bool)
  | pop

namespace Assembly

def new : Assembly := ⟨some FrameSorter.newFrameSorter, [], [], []⟩

/-- The number is in a frame that was pushed. -/
def Arrived (t : Assembly) (x : Nat) : Prop := ∃ f ∈ t.frames, f.1 ≤ x ∧ x < f.1 + f.2

def pushFrame (S : Bytes) (t : Assembly) (s : FrameSorter Nat) (offset len : Nat) (hasCb : Bool) : Option Assembly :=
  let frames := t.frames ++ [(offset, len)]
  match s.Push ((S.drop offset).take len) offset (if hasCb then some t.frames.length else none) with
  | .ok (s', called) => some { t with sorter := some s', frames := frames, done := t.done ++ called }
  | .error .panic => some { t with sorter := none, frames := frames }
  | .error _ => none

def popFrame (t : Assembly) (s : FrameSorter Nat) : Assembly :=
  match s.pop with
  | none => { t with sorter := none }
  | some (s', r) => { t with
    sorter := some s', popped := t.popped ++ r.data.getD [], done := t.done ++ r.doneCb.toList }

/-- A frame is a part of `S`. There is no step after a panic, and none into the error for too many gaps. -/
def step (S : Bytes) (t : Assembly) (c : SorterCall) : Option Assembly :=
  t.sorter.bind fun s =>
    match c with
    | .push offset len hasCb => if offset + len ≤ S.length then t.pushFrame S s offset len hasCb else none
    | .pop => some (t.popFrame s)

/-- What the application and the peer may rely on: nothing has panicked; what was popped is the beginning of `S`, and
if popping goes on until nothing comes, it is the longest beginning that has arrived; the gaps are what has not
arrived; the queued frames do not overlap; and no callback was run or handed out twice. -/
structure Assembled (S : Bytes) (t : Assembly) (s : FrameSorter Nat) : Prop where
  running : t.sorter = some s
  readPos_le : s.readPos ≤ S.length
  popped_eq : t.popped = S.take s.readPos
  drains : ∃ n t' s', run (step S) t (List.replicate n .pop) = some t' ∧ t'.sorter = some s' ∧
    s'.pop = some (s', ⟨s'.readPos, none, none⟩) ∧ t'.popped = S.take s'.readPos ∧
    IsGreatest {m | ∀ x < m, t.Arrived x} s'.readPos
  gaps_iff : ∀ x, s.InGap x ↔ x < maxByteCount ∧ ¬ t.Arrived x
  gaps_ne : ∀ g ∈ s.gaps, g.start < g.stop
  gaps_sorted : s.gaps.Pairwise fun g g' => g.stop < g'.start
  disjoint : s.queue.entries.Pairwise fun e e' =>
    ∀ x, ¬ ((e.1 ≤ x ∧ x < e.1 + e.2.data.length) ∧ e'.1 ≤ x ∧ x < e'.1 + e'.2.data.length)
  once : t.done.Nodup

/-! ## The invariant -/

structure Inv (S : Bytes) (t : Assembly) (s : FrameSorter Nat) : Prop where
  running : t.sorter = some s
  shape : s.Shape
  agrees : ∀ e ∈ s.queue, e.2.data = (S.drop e.1).take e.2.data.length
  popped_eq : t.popped = S.take s.readPos
  arrived : ∀ x, t.Arrived x ↔ x < s.readPos ∨ s.Queued x
  in_range : ∀ f ∈ t.frames, f.1 + f.2 ≤ S.length
  once : (pending s.queue + (t.done : Multiset Nat)).Nodup
  earlier : ∀ c ∈ pending s.queue + (t.done : Multiset Nat), c < t.frames.length

variable {S : Bytes} {t t' : Assembly} {s : FrameSorter Nat} {offset len : Nat} {hasCb : Bool}

theorem inv_new (S : Bytes) : Inv S new FrameSorter.newFrameSorter where
  running := rfl
  shape := shape_new
  agrees := fun _ he => absurd he not_mem_empty
  popped_eq := rfl
  arrived := fun x => by
    constructor
    · rintro ⟨f, hf, -⟩
      exact absurd hf not_mem_nil
    rintro (hx | ⟨e, he, -⟩)
    · exact absurd hx (Nat.not_lt_zero x)
    · exact absurd he not_mem_empty
  in_range := fun _ hf => absurd hf not_mem_nil
  once := Multiset.nodup_zero
  earlier := fun _ hc => absurd hc (Multiset.notMem_zero _)

/-- The condition under which a call does not panic. -/
def BelowMax : SorterCall → Prop
  | .push offset len _ => len = 0 ∨ offset + len < maxByteCount
  | .pop => True

instance : (c : SorterCall) → Decidable (BelowMax c)
  | .push offset len _ => inferInstanceAs (Decidable (len = 0 ∨ offset + len < maxByteCount))
  | .pop => isTrue trivial

theorem length_slice (hle : offset + len ≤ S.length) : ((S.drop offset).take len).length = len := by
  rw [length_take, length_drop]
  omega

/-- A part of a part of `S` is a part of `S`. -/
theorem slice_slice {k : Nat} {data : Bytes} (hle : offset ≤ k)
    (h : data = (((S.drop offset).take len).drop (k - offset)).take data.length) :
    data = (S.drop k).take data.length := by
  have hdrop : offset + (k - offset) = k := by omega
  have hlen := congrArg List.length h
  rw [drop_take, drop_drop, hdrop, take_take] at h
  rw [length_take, length_drop, length_take] at hlen
  rwa [Nat.min_eq_left (by omega)] at h

theorem nodup_step {p p' called : Multiset Nat} {done : List Nat} {n : Nat} {cb : Option Nat}
    (hcb : cb = some n ∨ cb = none) (heq : p' + called = (cb.toList : Multiset Nat) + p)
    (hnodup : (p + (done : Multiset Nat)).Nodup) (hlt : ∀ c ∈ p + (done : Multiset Nat), c < n) :
    (p' + ((done : Multiset Nat) + called)).Nodup ∧ ∀ c ∈ p' + ((done : Multiset Nat) + called), c < n + 1 := by
  have hsum : p' + ((done : Multiset Nat) + called) = (cb.toList : Multiset Nat) + (p + (done : Multiset Nat)) := by
    rw [add_left_comm, heq]
    ac_rfl
  rw [hsum]
  rcases hcb with rfl | rfl
  · simp only [toList_some, Multiset.coe_singleton, Multiset.singleton_add, Multiset.nodup_cons, Multiset.mem_cons]
    refine ⟨⟨fun hn => absurd (hlt n hn) (Nat.lt_irrefl n), hnodup⟩, ?_⟩
    rintro c (rfl | hc)
    · exact Nat.lt_succ_self c
    · exact Nat.lt_succ_of_lt (hlt c hc)
  · simp only [toList_none, Multiset.coe_nil, zero_add]
    exact ⟨hnodup, fun c hc => Nat.lt_succ_of_lt (hlt c hc)⟩

theorem arrived_append {x : Nat} (hf : t'.frames = t.frames ++ [(offset, len)]) :
    t'.Arrived x ↔ t.Arrived x ∨ offset ≤ x ∧ x < offset + len := by
  simp only [Arrived, hf, mem_append, mem_singleton, or_and_right, exists_or, exists_eq_left]

/-- A frame of `S` that ends below `maxByteCount` keeps the invariant. -/
theorem Inv.pushFrame (h : Inv S t s) (hle : offset + len ≤ S.length) (hmax : len = 0 ∨ offset + len < maxByteCount)
    (hs : t.pushFrame S s offset len hasCb = some t') : ∃ s', Inv S t' s' := by
  have hlen := length_slice hle
  have hin : ((S.drop offset).take len).length = 0 ∨ offset + ((S.drop offset).take len).length < maxByteCount := by
    rwa [hlen]
  rw [Assembly.pushFrame] at hs
  rcases FrameSorter.Push_cases h.shape hin (if hasCb then some t.frames.length else none) with
    ⟨left, called, hpush⟩ | ⟨s', called, hpush, hp⟩
  · rw [hpush] at hs
    cases hs
  rw [hpush] at hs
  cases hs
  have hcb : (if hasCb then some t.frames.length else none) = some t.frames.length ∨
      (if hasCb then some t.frames.length else none) = none := by
    cases hasCb <;> simp
  obtain ⟨honce, hearlier⟩ := nodup_step hcb hp.pending_eq h.once h.earlier
  refine ⟨s', rfl, hp.shape, fun e he => ?_, hp.readPos_eq ▸ h.popped_eq, fun x => ?_, ?_, ?_, ?_⟩
  · rcases hp.entries e he with he | ⟨hle, hdata⟩
    · exact h.agrees e he
    · exact slice_slice hle hdata
  · rw [arrived_append (t := t) rfl, h.arrived, hp.readPos_eq, hp.holds_iff, hlen]
  · exact forall_mem_append.mpr ⟨h.in_range, forall_mem_singleton.mpr hle⟩
  · exact honce
  · rw [← Multiset.coe_add, length_append]
    exact hearlier

theorem pushFrame_panics (h : Inv S t s) (hle : offset + len ≤ S.length)
    (hmax : ¬ (len = 0 ∨ offset + len < maxByteCount)) :
    t.pushFrame S s offset len hasCb = some { t with sorter := none, frames := t.frames ++ [(offset, len)] } := by
  have hout : ¬ (((S.drop offset).take len).length = 0 ∨
      offset + ((S.drop offset).take len).length < maxByteCount) := by
    rwa [length_slice hle]
  have hpush := FrameSorter.Push_panics h.shape hout (if hasCb then some t.frames.length else none)
  rw [Assembly.pushFrame, hpush]

/-- `Pop` changes nothing or hands out the frame at the read position. -/
theorem popFrame_cases (h : Inv S t s) : (s.queue.find s.readPos = none ∧ t.popFrame s = t) ∨
    ∃ e, (s.readPos, e) ∈ s.queue ∧ t.popFrame s = { t with
      sorter := some (s.popped e), popped := t.popped ++ e.data, done := t.done ++ e.doneCb.toList } := by
  cases hfind : s.queue.find s.readPos with
  | none =>
    refine .inl ⟨rfl, ?_⟩
    rw [popFrame, pop_eq_nil hfind]
    have := h.running
    cases t
    simp_all
  | some e =>
    have he := find_eq_some.mp hfind
    refine .inr ⟨e, he, ?_⟩
    rw [popFrame, pop_eq_some he h.shape]
    rfl

/-- The callback of the frame passes from the queue to the application. -/
theorem pending_popped {e : FrameSorterEntry Nat} (he : (s.readPos, e) ∈ s.queue) (done : List Nat) :
    pending (s.popped e).queue + ((done ++ e.doneCb.toList : List Nat) : Multiset Nat) =
      pending s.queue + (done : Multiset Nat) := by
  rw [pending_erase he, ← Multiset.coe_add, FrameSorter.popped]
  ac_rfl

variable (h : Inv S t s)
include h

theorem Inv.popped {e : FrameSorterEntry Nat} (he : (s.readPos, e) ∈ s.queue) : Inv S { t with
      sorter := some (s.popped e), popped := t.popped ++ e.data, done := t.done ++ e.doneCb.toList } (s.popped e) where
  running := rfl
  shape := shape_popped he h.shape
  agrees := fun e' he' => h.agrees e' (mem_erase.mp he').1
  popped_eq := by
    dsimp only [FrameSorter.popped]
    rw [h.popped_eq, take_add]
    exact congrArg _ (h.agrees _ he)
  arrived := fun x => by
    rw [holds_popped_iff he, ← h.arrived]
    rfl
  in_range := h.in_range
  once := by
    rw [pending_popped he]
    exact h.once
  earlier := by
    rw [pending_popped he]
    exact h.earlier

theorem Inv.popFrame : ∃ s', Inv S (t.popFrame s) s' := by
  rcases popFrame_cases h with ⟨-, heq⟩ | ⟨e, he, heq⟩
  · refine ⟨s, ?_⟩
    rw [heq]
    exact h
  · exact ⟨s.popped e, heq ▸ h.popped he⟩

/-! ## What the invariant says -/

theorem Inv.readPos_le : s.readPos ≤ S.length := by
  by_contra hgt
  obtain ⟨f, hf, hin⟩ := (h.arrived S.length).mpr (.inl (Nat.not_le.mp hgt))
  have := h.in_range f hf
  omega

/-- Nothing is popped exactly where the longest beginning ends that has arrived. -/
theorem Inv.isGreatest (hno : s.queue.find s.readPos = none) : IsGreatest {m | ∀ x < m, t.Arrived x} s.readPos := by
  refine ⟨fun x hx => (h.arrived x).mpr (.inl hx), fun m hm => ?_⟩
  by_contra hgt
  rcases (h.arrived s.readPos).mp (hm s.readPos (Nat.not_le.mp hgt)) with habs | ⟨e, he, hle, -⟩
  · exact Nat.lt_irrefl _ habs
  -- what is queued is unread, so the frame begins at the read position
  have hkey : e.1 = s.readPos := Nat.le_antisymm hle (h.shape.unread e he)
  exact find_eq_none.mp hno e.2 (hkey ▸ he)

/-- Popping comes to an end, since every frame that is popped leaves the queue. -/
theorem Inv.drains : ∃ n t' s', run (step S) t (List.replicate n .pop) = some t' ∧
    t'.sorter = some s' ∧ s'.pop = some (s', ⟨s'.readPos, none, none⟩) ∧ t'.popped = S.take s'.readPos ∧
    IsGreatest {m | ∀ x < m, t.Arrived x} s'.readPos := by
  induction hsize : s.queue.size using Nat.strong_induction_on generalizing t s with
  | _ size ih =>
    cases hfind : s.queue.find s.readPos with
    | none => exact ⟨0, t, s, rfl, h.running, pop_eq_nil hfind, h.popped_eq, h.isGreatest hfind⟩
    | some e =>
      have he := find_eq_some.mp hfind
      have hlt := hsize ▸ size_erase_lt he
      obtain ⟨n, t', s', hrun, hrest⟩ := ih _ hlt (h.popped he) rfl
      refine ⟨n + 1, t', s', ?_, hrest⟩
      refine run_cons.mpr ⟨_, ?_, hrun⟩
      rcases popFrame_cases h with ⟨hno, -⟩ | ⟨e', he', heq⟩
      · rw [hfind] at hno
        cases hno
      obtain rfl : e' = e := congrArg Prod.snd (eq_of_key_eq he' he rfl)
      rw [step, h.running, bind_some]
      exact congrArg some heq

theorem Inv.assembled : Assembled S t s := { h with
  readPos_le := h.readPos_le
  drains := h.drains
  gaps_iff := fun x => by
    rw [h.shape.tiles, h.arrived, not_or, Nat.not_lt]
  gaps_ne := h.shape.separated.1
  gaps_sorted := h.shape.separated.2
  disjoint := by
    refine s.queue.ordered.imp_of_mem fun {e e'} he he' hlt x hin => ?_
    have hstop : e.1 + e.2.data.length ≤ e'.1 := h.shape.valid.stop_le e he e' he' hlt
    omega
  once := (Multiset.nodup_add.mp h.once).2.1 }

theorem step_cases {c : SorterCall} (hs : step S t c = some t') :
    (∃ offset len hasCb, c = .push offset len hasCb ∧ offset + len ≤ S.length ∧
      t.pushFrame S s offset len hasCb = some t') ∨ c = .pop ∧ t' = t.popFrame s := by
  rw [step, h.running, bind_some] at hs
  cases c with
  | push offset len hasCb =>
    obtain ⟨hle, hs⟩ := ite_none_right_eq_some.mp hs
    exact .inl ⟨offset, len, hasCb, rfl, hle, hs⟩
  | pop => exact .inr ⟨rfl, (some.inj hs).symm⟩

theorem inv_step {c : SorterCall} (hok : BelowMax c) (hs : step S t c = some t') : ∃ s', Inv S t' s' := by
  rcases step_cases h hs with ⟨offset, len, hasCb, rfl, hle, hs⟩ | ⟨rfl, rfl⟩
  · exact h.pushFrame hle hok hs
  · exact h.popFrame

theorem sorter_eq_none {c : SorterCall} (hno : ¬ BelowMax c) (hs : step S t c = some t') : t'.sorter = none := by
  rcases step_cases h hs with ⟨offset, len, hasCb, rfl, hle, hs⟩ | ⟨rfl, rfl⟩
  · rw [pushFrame_panics h hle hno] at hs
    cases hs
    rfl
  · exact absurd trivial hno

omit h

/-- After every call the sorter has reassembled what has arrived, exactly if every frame that is pushed is empty or
ends below `maxByteCount`. -/
theorem reassembly_iff (S : Bytes) (calls : List SorterCall) (t : Assembly) (hr : run (step S) new calls = some t) :
    Ensures (step S) (fun _ t => ∃ s, Assembled S t s) new calls ↔
      Along (step S) (fun _ c => BelowMax c) new calls := by
  have hpost : ∀ t c t', (∃ s, Inv S t s) → step S t c = some t' → ((∃ s, Assembled S t' s) ↔ BelowMax c) := by
    rintro t c t' ⟨s, h⟩ hs
    constructor
    · rintro ⟨s', h'⟩
      by_contra hno
      have habs := sorter_eq_none h hno hs
      rw [h'.running] at habs
      cases habs
    intro hok
    obtain ⟨s', h'⟩ := inv_step h hok hs
    exact ⟨s', h'.assembled⟩
  exact ensures_iff_along hpost (fun t c t' ⟨s, h⟩ hok hs => inv_step h hok hs) ⟨_, inv_new S⟩ hr

/-- Three bytes in overlapping frames, the last one twice. -/
theorem reassembly_iff_three : ∃ t,
    run (step [1, 2, 3]) new [.push 1 2 true, .push 0 2 true, .pop, .push 0 3 true, .push 2 1 true, .pop] = some t ∧
      t.popped = [1, 2, 3] ∧ t.done = [1, 2, 3, 0] ∧
      Ensures (step [1, 2, 3]) (fun _ t => ∃ s, Assembled [1, 2, 3] t s) new
        [.push 1 2 true, .push 0 2 true, .pop, .push 0 3 true, .push 2 1 true, .pop] := by
  refine ⟨_, rfl, rfl, rfl, (reassembly_iff _ _ _ rfl).mpr ?_⟩
  repeat apply Along.cons (by decide) rfl
  trivial

theorem last_byte_panics (hlen : S.length = maxByteCount) :
    run (step S) new [.push (maxByteCount - 1) 1 true] =
      some { new with sorter := none, frames := [(maxByteCount - 1, 1)] } := by
  have hle : maxByteCount - 1 + 1 ≤ S.length := by
    rw [hlen]
    decide
  refine run_cons.mpr ⟨_, ?_, rfl⟩
  rw [step, (inv_new S).running, bind_some]
  dsimp only
  rw [if_pos hle]
  exact pushFrame_panics (inv_new S) hle (by decide)

/-- The last byte of a stream of the greatest length makes `Push` panic. -/
theorem push_last_byte_panics :
    ∃ t, run (step (List.replicate maxByteCount 0)) new [.push (maxByteCount - 1) 1 true] = some t ∧ t.sorter = none ∧
      ¬ Ensures (step (List.replicate maxByteCount 0)) (fun _ t => ∃ s, Assembled (List.replicate maxByteCount 0) t s)
        new [.push (maxByteCount - 1) 1 true] := by
  have hrun := last_byte_panics (length_replicate (n := maxByteCount) (a := (0 : UInt8)))
  refine ⟨_, hrun, rfl, fun hens => ?_⟩
  obtain ⟨t1, hs, ht⟩ := run_cons.mp hrun
  cases ht
  obtain ⟨⟨s, has⟩, -⟩ := hens _ hs
  cases has.running

end Assembly

end MoqQuic.L2.Quic
