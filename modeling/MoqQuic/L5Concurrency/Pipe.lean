import MoqQuic.Core.LTS
import MoqQuic.L3Protocol.Moqt.DataStream

/-!
# One writer, many pipes: `WriteObject`, `Close` and the loops around `Pipe`

`Pipe` (`groupstream.go:117-143`, `trackstream.go:109-135`) takes the lock,
waits for a broadcast whatever the state of the buffer, copies what it has not
sent yet, releases the lock, writes, and only then, without the lock, looks at
`IsEOF`. Between the copy and the look a writer can append and close, and then
the reader reports `io.EOF` with objects it never copied. It also returns the
advanced index when `Write` fails, and the loop of `PubStream.NewStream`
(`pubstream.go:68-78`) goes on with it, so bytes of a failed write are not
written again.

The atomic steps are those the lock delimits: `append` and `close` (with their
broadcast), `wait` (lock and go to sleep), `copy` (wake up with the lock, copy,
unlock), `write` or `writeFails`, `check` (the look at `IsEOF`). A reader that
is not asleep at a broadcast misses it.

Results:
* `step_cases`: the writer appends or closes, or one reader moves on.
* `step_inv`, with `run_invariant`: what every reader has written, at every point of
  every run whose `close` finds no reader with unsent objects between its copy
  and its look at the flag, and in which failed writes lose nothing if the loop
  goes on.
* `pipe_exactly_once`: in such runs every reader that ends with `io.EOF` has
  written exactly the appended objects, each once and in order.
-/
namespace MoqQuic.L5.Pipe
open LTS Reader L3.Moqt List Option

/-- Where a reader is. `eof`: its loop ended with `io.EOF`; `stopped`: with
another error. -/
inductive Pc where
  | idle
  | waiting
  | woken
  | copied (data : Bytes)
  | written
  | eof
  | stopped
  deriving DecidableEq

/-- The index fed back into `Pipe` and all bytes written so far. -/
structure Reader where
  pc : Pc := .idle
  index : Nat := 0
  out : Bytes := []
  deriving DecidableEq

/-- The loop of `PubStream.NewStream` logs an error and goes on, the one of
`RelayHandler.ProcessMOQTStream` stops.
mirrors pubstream.go:68-78 and relayhandler.go:100-111 -/
inductive Loop where
  | pub
  | relay
  deriving DecidableEq

structure St (R : Type) where
  objectsArr : List Object := []
  isEOF : Bool := false
  readers : R → Reader := fun _ => {}

inductive Label (R : Type) where
  | append (o : Object)
  | close
  | wait (r : R)
  | copy (r : R)
  | write (r : R)
  | writeFails (r : R) (k : Nat)
  | check (r : R)

/-- `ObjectCond.Broadcast()` for one reader. -/
def wake (rd : Reader) : Reader := if rd.pc = .waiting then { rd with pc := .woken } else rd

variable {R : Type} [DecidableEq R]

def St.set (s : St R) (r : R) (rd : Reader) : St R := { s with readers := Function.update s.readers r rd }

/-- One step on a stream of the kind of `st`; `loop r` is the loop reader `r` runs.
mirrors groupstream.go:117-143,171-183 and trackstream.go:109-135,176-188 -/
def step (st : Stream) (loop : R → Loop) (s : St R) : Label R → Option (St R)
  | .append o =>
    if s.isEOF then none
    else some { s with objectsArr := s.objectsArr ++ [o], readers := fun r => wake (s.readers r) }
  | .close =>
    if s.isEOF then none
    else some { s with isEOF := true, readers := fun r => wake (s.readers r) }
  | .wait r =>
    if (s.readers r).pc = .idle then some (s.set r { s.readers r with pc := .waiting }) else none
  | .copy r =>
    if (s.readers r).pc = .woken then do
      let data ← st.pipeData (s.objectsArr.drop (s.readers r).index)
      return s.set r { s.readers r with
        pc := .copied data, index := max (s.readers r).index s.objectsArr.length }
    else none
  | .write r =>
    match (s.readers r).pc with
    | .copied data => some (s.set r { s.readers r with pc := .written, out := (s.readers r).out ++ data })
    | _ => none
  | .writeFails r k =>
    match (s.readers r).pc with
    | .copied data =>
      -- the first `k` bytes went out; the index has been advanced already
      some (s.set r { s.readers r with
        pc := match loop r with | .pub => .idle | .relay => .stopped
        out := (s.readers r).out ++ data.take k })
    | _ => none
  | .check r =>
    if (s.readers r).pc = .written then
      some (s.set r { s.readers r with pc := if s.isEOF then .eof else .idle })
    else none

/-- The objects appended in a run. -/
def appended : List (Label R) → List Object
  | [] => []
  | .append o :: ls => o :: appended ls
  | _ :: ls => appended ls

/-- The reader is between its copy and its look at the flag. -/
def Pc.Between : Pc → Prop
  | .copied _ => True
  | .written => True
  | _ => False

/-- `close` finds every reader between copy and look with all objects copied;
a failed write after which the loop goes on has nonetheless put all its bytes on
the stream; objects have an encoding. -/
def Orderly (loop : R → Loop) (s : St R) : Label R → Prop
  | .append o => o.InRange
  | .close => ∀ r, (s.readers r).pc.Between → (s.readers r).index = s.objectsArr.length
  | .writeFails r k => loop r = .pub → ∀ data, (s.readers r).pc = .copied data → data.length ≤ k
  | _ => True

/-! ## What a reader has written -/

/-- The bytes of the first `n` objects. -/
def sent (st : Stream) (objs : List Object) (n : Nat) : Bytes :=
  (objs.take n).flatMap (Object.enc st.kind)

structure ReaderInv (st : Stream) (objs : List Object) (closed : Bool) (rd : Reader) : Prop where
  index_le : rd.index ≤ objs.length
  out : match rd.pc with
    | .copied data => rd.out ++ data = sent st objs rd.index
    | .stopped => True
    | _ => rd.out = sent st objs rd.index
  between : closed = true → rd.pc.Between → rd.index = objs.length
  eof : rd.pc = .eof → closed = true ∧ rd.index = objs.length

structure Inv (st : Stream) (s : St R) : Prop where
  inRange : ∀ o ∈ s.objectsArr, o.InRange
  reader : ∀ r, ReaderInv st s.objectsArr s.isEOF (s.readers r)

omit [DecidableEq R] in
theorem Inv.init (st : Stream) : Inv st ({} : St R) :=
  ⟨fun _ ho => absurd ho not_mem_nil,
    fun _ => ⟨le_rfl, rfl, fun h => (by cases h), fun h => (by cases h)⟩⟩

variable {rd : Reader}

theorem Inv.set {s : St R} (hi : Inv st s) {r : R} (h : ReaderInv st s.objectsArr s.isEOF rd) :
    Inv st (s.set r rd) := by
  refine ⟨hi.inRange, fun q => ?_⟩
  by_cases hq : q = r
  · subst hq
    simpa [St.set] using h
  · simpa [St.set, Function.update_of_ne hq] using hi.reader q

variable {objs : List Object}

theorem sent_append (o : Object) {n : Nat} (h : n ≤ objs.length) : sent st (objs ++ [o]) n = sent st objs n := by
  unfold sent
  rw [take_append_of_le_length h]

/-- A broadcast changes nothing but `waiting`. -/
theorem ReaderInv.wake {closed : Bool} (h : ReaderInv st objs closed rd) : ReaderInv st objs closed (wake rd) := by
  unfold Pipe.wake
  split
  · rename_i hw
    have hout := h.out
    rw [hw] at hout
    exact ⟨h.index_le, hout, fun _ hb => hb.elim, fun he => by cases he⟩
  · exact h

theorem ReaderInv.append (o : Object) (h : ReaderInv st objs false rd) : ReaderInv st (objs ++ [o]) false rd := by
  refine ⟨?_, ?_, fun hc => (by cases hc), fun he => ?_⟩
  · have := h.index_le
    simp only [length_append]; omega
  · rw [sent_append o h.index_le]
    exact h.out
  · exact absurd (h.eof he).1 (by decide)

theorem ReaderInv.close (h : ReaderInv st objs false rd) (hb : rd.pc.Between → rd.index = objs.length) :
    ReaderInv st objs true rd :=
  ⟨h.index_le, h.out, fun _ => hb, fun he => absurd (h.eof he).1 (by decide)⟩

/-- The copy completes what was sent so far to everything in the buffer. -/
theorem ReaderInv.copy {closed : Bool} {data : Bytes} (h : ReaderInv st objs closed rd) (hr : ∀ o ∈ objs, o.InRange)
    (hpc : rd.pc = .woken) (hd : st.pipeData (objs.drop rd.index) = some data) :
    ReaderInv st objs closed { rd with pc := .copied data, index := max rd.index objs.length } := by
  have hle := h.index_le
  have hmax := Nat.max_eq_right hle
  have hout := h.out
  rw [hpc] at hout
  rw [Stream.pipeData_eq (fun o ho => hr o (mem_of_mem_drop ho)) st] at hd
  refine ⟨?_, ?_, fun _ _ => hmax, fun he => by cases he⟩
  · show max rd.index objs.length ≤ objs.length
    omega
  show rd.out ++ data = sent st objs (max rd.index objs.length)
  rw [hmax, hout, ← some.inj hd]
  unfold sent
  rw [← flatMap_append, take_append_drop, take_length]

/-! ## Steps -/

/-- How a step moves a reader on. -/
inductive Moves (st : Stream) (loop : R → Loop) (s : St R) (r : R) : Label R → Reader → Prop
  | wait (hpc : (s.readers r).pc = .idle) : Moves st loop s r (.wait r) { s.readers r with pc := .waiting }
  | copy {data : Bytes} (hpc : (s.readers r).pc = .woken)
      (hd : st.pipeData (s.objectsArr.drop (s.readers r).index) = some data) :
      Moves st loop s r (.copy r) { s.readers r with
        pc := .copied data, index := max (s.readers r).index s.objectsArr.length }
  | write {data : Bytes} (hpc : (s.readers r).pc = .copied data) :
      Moves st loop s r (.write r) { s.readers r with pc := .written, out := (s.readers r).out ++ data }
  | writeFails {data : Bytes} {k : Nat} {pc : Pc} (hpc : (s.readers r).pc = .copied data)
      (hnext : pc = .idle ∧ loop r = .pub ∨ pc = .stopped) :
      Moves st loop s r (.writeFails r k) { s.readers r with pc, out := (s.readers r).out ++ data.take k }
  | check (hpc : (s.readers r).pc = .written) :
      Moves st loop s r (.check r) { s.readers r with pc := if s.isEOF then .eof else .idle }

variable {st : Stream} {loop : R → Loop} {s s' : St R} {l : Label R}

/-- The writer appends or closes, or one reader moves on. -/
theorem step_cases (h : step st loop s l = some s') : (∃ o, l = .append o ∧ s.isEOF = false ∧
      s' = { s with objectsArr := s.objectsArr ++ [o], readers := fun r => wake (s.readers r) }) ∨
    (l = .close ∧ s.isEOF = false ∧ s' = { s with isEOF := true, readers := fun r => wake (s.readers r) }) ∨
    ∃ r rd, Moves st loop s r l rd ∧ s' = s.set r rd := by
  cases l with
  | append o =>
    simp only [step] at h
    split at h
    · cases h
    rename_i hc
    exact Or.inl ⟨o, rfl, Bool.not_eq_true _ ▸ hc, (some.inj h).symm⟩
  | close =>
    simp only [step] at h
    split at h
    · cases h
    rename_i hc
    exact Or.inr (Or.inl ⟨rfl, Bool.not_eq_true _ ▸ hc, (some.inj h).symm⟩)
  | wait r =>
    obtain ⟨hpc, h⟩ := ite_none_right_eq_some.mp h
    exact Or.inr (Or.inr ⟨r, _, .wait hpc, (some.inj h).symm⟩)
  | copy r =>
    obtain ⟨hpc, h⟩ := ite_none_right_eq_some.mp h
    obtain ⟨data, hd, h⟩ := Option.bind_eq_some_iff.mp h
    exact Or.inr (Or.inr ⟨r, _, .copy hpc hd, (some.inj h).symm⟩)
  | write r =>
    simp only [step] at h
    split at h
    · rename_i data hpc
      exact Or.inr (Or.inr ⟨r, _, .write hpc, (some.inj h).symm⟩)
    · cases h
  | writeFails r k =>
    simp only [step] at h
    split at h
    · rename_i data hpc
      refine Or.inr (Or.inr ⟨r, _, .writeFails hpc ?_, (some.inj h).symm⟩)
      cases loop r with
      | pub => exact Or.inl ⟨rfl, rfl⟩
      | relay => exact Or.inr rfl
    · cases h
  | check r =>
    obtain ⟨hpc, h⟩ := ite_none_right_eq_some.mp h
    exact Or.inr (Or.inr ⟨r, _, .check hpc, (some.inj h).symm⟩)

omit [DecidableEq R] in
theorem Moves.readerInv {r : R} (hm : Moves st loop s r l rd) (hi : Inv st s) (hok : Orderly loop s l) :
    ReaderInv st s.objectsArr s.isEOF rd := by
  have hrd := hi.reader r
  have hout := hrd.out
  have hb := hrd.between
  cases hm with
  | wait hpc =>
    rw [hpc] at hout
    exact ⟨hrd.index_le, hout, fun _ hb => hb.elim, fun he => by cases he⟩
  | copy hpc hd => exact hrd.copy hi.inRange hpc hd
  | write hpc =>
    rw [hpc] at hout hb
    exact ⟨hrd.index_le, hout, fun hc _ => hb hc trivial, fun he => by cases he⟩
  | writeFails hpc hnext =>
    rw [hpc] at hout
    rcases hnext with ⟨rfl, hpub⟩ | rfl
    · rw [take_of_length_le (hok hpub _ hpc)]
      exact ⟨hrd.index_le, hout, fun _ hb => hb.elim, fun he => by cases he⟩
    · exact ⟨hrd.index_le, trivial, fun _ hb => hb.elim, fun he => by cases he⟩
  | check hpc =>
    rw [hpc] at hout hb
    cases hc : s.isEOF with
    | true =>
      rw [hc] at hb
      exact ⟨hrd.index_le, hout, fun _ hb => hb.elim, fun _ => ⟨rfl, hb rfl trivial⟩⟩
    | false => exact ⟨hrd.index_le, hout, fun _ hb => hb.elim, fun he => by cases he⟩

theorem step_inv (s : St R) (l : Label R) (s' : St R) (hi : Inv st s) (hok : Orderly loop s l)
    (h : step st loop s l = some s') : Inv st s' := by
  obtain ⟨o, rfl, hc, rfl⟩ | ⟨rfl, hc, rfl⟩ | ⟨r, rd, hm, rfl⟩ := step_cases h
  · refine ⟨forall_mem_append.mpr ⟨hi.inRange, forall_mem_singleton.mpr hok⟩, fun r => ?_⟩
    have hrd := hi.reader r
    rw [hc] at hrd ⊢
    exact (hrd.append o).wake
  · refine ⟨hi.inRange, fun r => ?_⟩
    have hrd := hi.reader r
    rw [hc] at hrd
    exact (hrd.close (hok r)).wake
  · exact hi.set (hm.readerInv hi hok)

/-! ## Whole runs -/

theorem step_objectsArr (h : step st loop s l = some s') : s'.objectsArr = s.objectsArr ++ appended [l] := by
  obtain ⟨o, rfl, -, rfl⟩ | ⟨rfl, -, rfl⟩ | ⟨r, rd, hm, rfl⟩ := step_cases h
  · rfl
  · exact (append_nil _).symm
  · cases hm <;> exact (append_nil _).symm

omit [DecidableEq R] in
theorem appended_cons (l : Label R) (ls : List (Label R)) : appended (l :: ls) = appended [l] ++ appended ls := by
  cases l <;> rfl

/-- The buffer holds what was appended, in order. -/
theorem run_objectsArr {ls : List (Label R)} (h : run (step st loop) s ls = some s') :
    s'.objectsArr = s.objectsArr ++ appended ls := by
  induction ls generalizing s with
  | nil =>
    cases h
    simp [appended]
  | cons l ls ih =>
    obtain ⟨s1, h1, hr⟩ := run_cons.mp h
    rw [ih hr, step_objectsArr h1, appended_cons l ls, append_assoc]

/-- In every interleaving of one writer and any readers whose steps are all
orderly, a reader whose loop ended with `io.EOF` has written the bytes of
exactly the appended objects, each once and in order. -/
theorem pipe_exactly_once {st : Stream} {loop : R → Loop} {ls : List (Label R)} {s : St R} {r : R}
    (hrun : run (step st loop) {} ls = some s) (hok : Along (step st loop) (Orderly loop) {} ls)
    (heof : (s.readers r).pc = .eof) : st.pipeData (appended ls) = some (s.readers r).out := by
  have hi : Inv st s := run_invariant step_inv (Inv.init st) hok hrun
  have hbuf : s.objectsArr = appended ls := run_objectsArr hrun
  have hout := (hi.reader r).out
  rw [heof] at hout
  have hall : (s.readers r).out = s.objectsArr.flatMap (Object.enc st.kind) := by
    rw [hout, ((hi.reader r).eof heof).2]
    unfold sent
    rw [take_length]
  rw [hall, ← hbuf, Stream.pipeData_eq hi.inRange st]

/-- Two relay readers; the second object is appended while one of them is
between copy and look, and the close comes when both are asleep again. -/
theorem pipe_exactly_once_two_readers : ∃ s, run (step (.group {}) fun _ => .relay) ({} : St Bool)
        [.wait true, .wait false, .append { id := 1 }, .copy true, .append { id := 2 }, .write true,
          .check true, .copy false, .write false, .check false, .wait true, .wait false, .close,
          .copy true, .write true, .check true] = some s ∧
      (s.readers true).pc = .eof ∧
      (Stream.group {}).pipeData [{ id := 1 }, { id := 2 }] = some (s.readers true).out := by
  refine Exists.imp (p := fun s => _ ∧ _) (fun s ⟨hrun, hpc⟩ => ⟨hrun, hpc, pipe_exactly_once hrun ?_ hpc⟩)
    ⟨_, rfl, rfl⟩
  iterate 2 apply Along.cons trivial rfl
  refine Along.cons (show Object.InRange _ from ⟨by decide, by decide⟩) rfl ?_
  apply Along.cons trivial rfl
  refine Along.cons (show Object.InRange _ from ⟨by decide, by decide⟩) rfl ?_
  iterate 7 apply Along.cons trivial rfl
  refine Along.cons (fun r hb => ?_) rfl ?_
  · cases r <;> exact hb.elim
  iterate 3 apply Along.cons trivial rfl
  trivial

/-- The second object is appended, and the stream closed, between a reader's
copy and its look at the flag: `io.EOF` after the first object. -/
theorem pipe_skips_last_object : (run (step (.group {}) fun _ => .pub) ({} : St Unit)
      [.wait (), .append { id := 1 }, .copy (), .append { id := 2 }, .close, .write (),
        .check ()]).map (fun s => ((s.readers ()).pc, (s.readers ()).out)) = some (.eof, [1, 0]) ∧
    (Stream.group {}).pipeData [{ id := 1 }, { id := 2 }] = some [1, 0, 2, 0] := by
  decide +kernel

end MoqQuic.L5.Pipe
