import Mathlib.Order.Bounds.Basic
import MoqQuic.Core.LTS
import MoqQuic.L2Machine.Tquic.RecvBuf

/-!
# Reassembly of a stream (`connection/stream.rs`)

The peer sends one byte string `S` in frames that may overlap, repeat and
arrive in any order, while the application reads. Runs are made of the calls on
the receive buffer; what has passed through it is kept beside it: the frames
that were accepted, the bytes that were read, and whether a read has reported
the end. A refused frame leaves the buffer as it is. Only the receive limit is
proved for frames with any data.

A frame is fully duplicated if everything in it was read before. `write` then
returns early, and makes an exception only for an empty frame with FIN: the
final size of a non-empty one is noted, but nothing is put into the buffer that
would make it readable.

Results:
* `reassembles`: what is read is a prefix of `S`, and after reading to the end
  it is the longest prefix that the frames cover; every `write` returns.
* `received_lt_max`: every accepted byte is below the limit, also when the data
  of the frames disagree.
* `end_reported_iff`: the end can always be reported to the application exactly
  when FIN never arrives first on a non-empty frame of which all was read.
-/
namespace MoqQuic.L2.Tquic
open LTS List RecvBuf OrdMap
open Reader (Bytes)

/-- A frame `[off, off + len)` that was accepted. -/
structure StreamFrame where
  off : Nat
  len : Nat
  fin : Bool
  deriving DecidableEq

structure Receiver where
  buf : RecvBuf
  frames : List StreamFrame
  out : Bytes
  signalled : Bool

inductive RecvCall where
  | write (offset len : Nat) (fin : Bool)
  | read (cap : Nat)
  | updateMaxData

namespace Receiver

def new (maxData : Nat) : Receiver := ⟨RecvBuf.new maxData, [], [], false⟩

variable (s : Receiver)

/-- A frame with any data; `none` if `write` does not return. -/
def recvBytes (offset : Nat) (data : Bytes) (fin : Bool) : Option Receiver :=
  (s.buf.write offset data fin).map fun
    | .ok buf => { s with buf := buf, frames := ⟨offset, data.length, fin⟩ :: s.frames }
    | .error _ => s

/-- A frame with the bytes of `S` from `offset` on; `none` if `S` has no such bytes. -/
def recvFrame (S : Bytes) (s : Receiver) (offset len : Nat) (fin : Bool) : Option Receiver :=
  if offset + len ≤ S.length then s.recvBytes offset ((S.drop offset).take len) fin else none

def readData (cap : Nat) : Receiver :=
  match s.buf.read cap with
  | (buf, .ok (got, fin)) => { s with buf := buf, out := s.out ++ got, signalled := s.signalled || fin }
  | (buf, .error _) => { s with buf := buf }

def step (S : Bytes) (s : Receiver) : RecvCall → Option Receiver
  | .write offset len fin => s.recvFrame S offset len fin
  | .read cap => some (s.readData cap)
  | .updateMaxData => some { s with buf := s.buf.updateMaxData }

/-- The number is in a frame that was accepted. -/
def Received (x : Nat) : Prop := ∃ f ∈ s.frames, f.off ≤ x ∧ x < f.off + f.len

/-! ## The limit

It holds whatever the frames carry: the data of two frames need not agree. -/

inductive AnyCall where
  | write (offset : Nat) (data : Bytes) (fin : Bool)
  | read (cap : Nat)
  | updateMaxData

def stepAny : AnyCall → Option Receiver
  | .write offset data fin => s.recvBytes offset data fin
  | .read cap => some (s.readData cap)
  | .updateMaxData => some { s with buf := s.buf.updateMaxData }

structure Within (s : Receiver) : Prop where
  shape : s.buf.Shape
  running : s.buf.shutdown = false ∧ s.buf.error = none
  received_lt : ∀ x, s.Received x → x < s.buf.recvOff
  recv_le_max : s.buf.recvOff ≤ s.buf.maxData
  max_le : s.buf.maxData ≤ s.buf.flowControl.maxDataNext

variable {S data : Bytes} {s s' : Receiver} {offset len cap : Nat} {fin : Bool}

theorem within_new (maxData : Nat) : Within (new maxData) where
  shape := RecvBuf.Shape.new maxData
  running := ⟨rfl, rfl⟩
  received_lt := fun _ ⟨_, hf, _⟩ => absurd hf not_mem_nil
  recv_le_max := Nat.zero_le _
  max_le := by simp [new, RecvBuf.new, RecvBuf.maxData, FlowControl.new, FlowControl.maxDataNext]

/-- A frame is refused and nothing changes, or it is accepted. -/
theorem recvBytes_cases (h : s.buf.Shape) (hs : s.recvBytes offset data fin = some s') :
    (∃ e, s.buf.checkFrame ⟨data, offset, fin⟩ = .error e ∧ s' = s) ∨
      ∃ buf, s.buf.checkFrame ⟨data, offset, fin⟩ = .ok () ∧ RecvBuf.Accepted s.buf ⟨data, offset, fin⟩ buf ∧
        s' = { s with buf := buf, frames := ⟨offset, data.length, fin⟩ :: s.frames } := by
  unfold recvBytes at hs
  rcases write_cases h offset data fin with ⟨e, hw, hcheck⟩ | ⟨buf, hw, hcheck, hacc⟩
  · rw [hw] at hs
    exact .inl ⟨e, hcheck, (Option.some.inj hs).symm⟩
  rw [hw] at hs
  exact .inr ⟨buf, hcheck, hacc, (Option.some.inj hs).symm⟩

theorem Within.accepted {buf : RecvBuf} (h : Within s)
    (hcheck : s.buf.checkFrame ⟨data, offset, fin⟩ = .ok ())
    (hacc : RecvBuf.Accepted s.buf ⟨data, offset, fin⟩ buf) :
    Within { s with buf := buf, frames := ⟨offset, data.length, fin⟩ :: s.frames } := by
  obtain ⟨hmaxle, -, -⟩ := checkFrame_ok hcheck
  have hmd : buf.maxData = s.buf.maxData := by rw [RecvBuf.maxData, RecvBuf.maxData, hacc.flowControl]
  have hrm := h.recv_le_max
  have hrecv := hacc.recvOff
  rw [RangeBuf.maxOff, RangeBuf.len] at hmaxle hrecv
  refine ⟨hacc.shape, ⟨hacc.shutdown.trans h.running.1, hacc.error.trans h.running.2⟩, ?_, ?_, ?_⟩
  · rintro x ⟨f, hf, hx⟩
    dsimp only
    rcases mem_cons.mp hf with rfl | hf
    · -- a frame with a byte is not empty
      rw [hrecv, if_neg (by rw [RangeBuf.isEmpty_iff, RangeBuf.maxOff, RangeBuf.len]; dsimp only at hx ⊢; omega)]
      exact hx.2.trans_le (le_max_right _ _)
    · have := h.received_lt x ⟨f, hf, hx⟩
      rw [hrecv]
      split <;> omega
  · rw [hmd, hrecv]
    split <;> omega
  · rw [hmd, hacc.flowControl]
    exact h.max_le

/-- Nothing is ready and nothing changes, or the data at the front is taken. -/
theorem readData_cases (h : Within s) (cap : Nat) : (s.buf.ready = false ∧ s.readData cap = s) ∨
    (s.buf.ready = true ∧ ∃ got buf, s.readData cap = { s with
        buf := buf, out := s.out ++ got, signalled := s.signalled || buf.isFin } ∧
      got.length ≤ cap ∧ buf.Shape ∧ RecvBuf.Taken s.buf got buf ∧ (got.length < cap → buf.ready = false) ∧
      buf.flowControl = s.buf.flowControl.increaseReadOff got.length) := by
  rcases read_spec h.shape h.running.2 cap with ⟨hready, hr⟩ | ⟨hready, got, buf, hr, hrest⟩
  · exact .inl ⟨hready, by rw [readData, hr]⟩
  · exact .inr ⟨hready, got, buf, by rw [readData, hr], hrest⟩

theorem Within.readData (h : Within s) (cap : Nat) : Within (s.readData cap) := by
  rcases readData_cases h cap with ⟨-, heq⟩ | ⟨-, got, buf, heq, -, hshape, htaken, -, hfc⟩
  · rw [heq]
    exact h
  rw [heq]
  have hrecv := htaken.recvOff
  have hmd : buf.maxData = s.buf.maxData := by rw [RecvBuf.maxData, hfc]; rfl
  refine ⟨hshape, ⟨htaken.shutdown.trans h.running.1, htaken.error.trans h.running.2⟩,
    fun x hx => (h.received_lt x hx).trans_eq hrecv.symm, hrecv.trans_le (h.recv_le_max.trans hmd.symm.le), ?_⟩
  rw [hmd, hfc]
  refine h.max_le.trans ?_
  simp only [FlowControl.maxDataNext, FlowControl.increaseReadOff]
  omega

theorem Within.updateMaxData (h : Within s) : Within { s with buf := s.buf.updateMaxData } where
  shape := h.shape.updateMaxData
  running := h.running
  received_lt := h.received_lt
  recv_le_max := h.recv_le_max.trans h.max_le
  max_le := le_rfl

theorem Within.stepAny {c : AnyCall} (h : Within s) (hs : Receiver.stepAny s c = some s') : Within s' := by
  cases c with
  | write offset data fin =>
    obtain ⟨e, -, rfl⟩ | ⟨buf, hcheck, hacc, rfl⟩ := recvBytes_cases h.shape hs
    · exact h
    · exact h.accepted hcheck hacc
  | read cap =>
    cases hs
    exact h.readData cap
  | updateMaxData =>
    cases hs
    exact h.updateMaxData

/-- In every run, whatever the frames carry, each byte that was accepted is below the limit. -/
theorem received_lt_max {calls : List AnyCall} {m x : Nat} (hr : run stepAny (new m) calls = some s)
    (hx : s.Received x) : x < s.buf.maxData := by
  have h : Within s := run_invariant (fun _ _ _ h _ hs => h.stepAny hs) (within_new m) (along_true _ calls) hr
  exact (h.received_lt x hx).trans_le h.recv_le_max

/-- The second frame is refused until the limit is raised; the third disagrees with the first. -/
theorem received_lt_max_raised : ∃ s, run stepAny (new 2) [.write 0 [1, 2] false, .write 2 [3] false, .read 2,
    .write 1 [9] false, .updateMaxData, .write 2 [3] true, .read 2] = some s ∧
      s.Received 2 ∧ 2 < s.buf.maxData :=
  exists_run (fun s => decide (⟨2, 1, true⟩ ∈ s.frames)) (by decide +kernel) fun _ hs hf =>
    have hx := ⟨_, of_decide_eq_true hf, by decide⟩
    ⟨hx, received_lt_max hs hx⟩

/-! ## Frames cut from one string -/

structure Inv (S : Bytes) (s : Receiver) : Prop extends Within s where
  agrees : s.buf.Agrees S
  out_eq : s.out = S.take s.buf.readOff
  received : ∀ x, s.Received x ↔ x < s.buf.readOff ∨ s.buf.Covers x
  recv_le : s.buf.recvOff ≤ S.length

theorem inv_new (S : Bytes) (maxData : Nat) : Inv S (new maxData) where
  toWithin := within_new maxData
  agrees := fun _ he => absurd he not_mem_empty
  out_eq := rfl
  received := fun x => by
    constructor
    · rintro ⟨f, hf, -⟩
      exact absurd hf not_mem_nil
    rintro (hx | ⟨e, he, -⟩)
    · exact absurd hx (Nat.not_lt_zero x)
    · exact absurd he not_mem_empty
  recv_le := Nat.zero_le _

theorem agrees_slice (S : Bytes) (offset len : Nat) (fin : Bool) :
    RangeBuf.Agrees S ⟨(S.drop offset).take len, offset, fin⟩ := by
  intro i v hv
  rw [List.getElem?_take, List.getElem?_drop] at hv
  split at hv
  · exact hv
  · cases hv

theorem length_slice (hle : offset + len ≤ S.length) : ((S.drop offset).take len).length = len := by
  rw [length_take, length_drop]
  omega

theorem maxOff_slice (hle : offset + len ≤ S.length) :
    RangeBuf.maxOff ⟨(S.drop offset).take len, offset, fin⟩ = offset + len := by
  rw [RangeBuf.maxOff, RangeBuf.len, length_slice hle]

theorem recvFrame_cases (h : s.buf.Shape) (hs : s.recvFrame S offset len fin = some s') : offset + len ≤ S.length ∧
      ((∃ e, s.buf.checkFrame ⟨(S.drop offset).take len, offset, fin⟩ = .error e ∧ s' = s) ∨
        ∃ buf, s.buf.checkFrame ⟨(S.drop offset).take len, offset, fin⟩ = .ok () ∧
          RecvBuf.Accepted s.buf ⟨(S.drop offset).take len, offset, fin⟩ buf ∧
          s' = { s with buf := buf, frames := ⟨offset, len, fin⟩ :: s.frames }) := by
  obtain ⟨hle, hs⟩ := Option.ite_none_right_eq_some.mp hs
  have hcases := recvBytes_cases h hs
  rw [length_slice hle] at hcases
  exact ⟨hle, hcases⟩

theorem Inv.accepted {buf : RecvBuf} (h : Inv S s) (hle : offset + len ≤ S.length)
    (hcheck : s.buf.checkFrame ⟨(S.drop offset).take len, offset, fin⟩ = .ok ())
    (hacc : RecvBuf.Accepted s.buf ⟨(S.drop offset).take len, offset, fin⟩ buf) :
    Inv S { s with buf := buf, frames := ⟨offset, len, fin⟩ :: s.frames } := by
  have hwithin := h.toWithin.accepted hcheck hacc
  rw [length_slice hle] at hwithin
  have hmax := @maxOff_slice S offset len fin hle
  have hread := hacc.readOff
  have hrl := h.recv_le
  refine ⟨hwithin, hacc.agrees S h.agrees (agrees_slice S offset len fin), ?_, fun x => ?_, ?_⟩
  · rw [hread]
    exact h.out_eq
  · have hcov := hacc.cover h.running.1 x
    rw [RangeBuf.mem_def, hmax] at hcov
    rw [hcov, hread]
    have hold := h.received x
    constructor
    · rintro ⟨f, hf, hx⟩
      rcases mem_cons.mp hf with rfl | hf
      · by_cases hxr : x < s.buf.readOff
        · exact .inl hxr
        · exact .inr (.inr ⟨hx, by omega⟩)
      rcases hold.mp ⟨f, hf, hx⟩ with hx | hx
      · exact .inl hx
      · exact .inr (.inl hx)
    intro hx
    have hcase : s.Received x ∨ offset ≤ x ∧ x < offset + len := by
      rcases hx with hx | hx | hx
      · exact .inl (hold.mpr (.inl hx))
      · exact .inl (hold.mpr (.inr hx))
      · exact .inr hx.1
    rcases hcase with ⟨f, hf, hx⟩ | hx
    · exact ⟨f, mem_cons_of_mem _ hf, hx⟩
    · exact ⟨_, mem_cons_self, hx⟩
  · rw [hacc.recvOff, hmax]
    split <;> omega

theorem Inv.readData (h : Inv S s) (cap : Nat) : Inv S (s.readData cap) := by
  have hwithin := h.toWithin.readData cap
  rcases readData_cases h.toWithin cap with ⟨-, heq⟩ | ⟨-, got, buf, heq, -, -, htaken, -, -⟩
  · rw [heq]
    exact h
  rw [heq] at hwithin ⊢
  have hread := htaken.readOff
  obtain ⟨hgot, hagrees⟩ := htaken.bytes S h.agrees
  refine ⟨hwithin, hagrees, ?_, fun x => ?_, htaken.recvOff.trans_le h.recv_le⟩
  · rw [hread, take_add, ← hgot, h.out_eq]
  · have hcov := htaken.cover x
    have hold := h.received x
    dsimp only
    rw [hcov]
    refine hold.trans ?_
    constructor
    · rintro (hx | hx)
      · exact .inl (by omega)
      by_cases hxr : x < buf.readOff
      · exact .inl hxr
      · exact .inr ⟨hx, by omega⟩
    rintro (hx | hx)
    · by_cases hxr : x < s.buf.readOff
      · exact .inl hxr
      · exact .inr (htaken.was x (by omega) hx)
    · exact .inr hx.1

variable {c : RecvCall}

theorem Inv.step (h : Inv S s) (hs : Receiver.step S s c = some s') : Inv S s' := by
  cases c with
  | write offset len fin =>
    obtain ⟨hle, ⟨e, -, rfl⟩ | ⟨buf, hcheck, hacc, rfl⟩⟩ := recvFrame_cases h.shape hs
    · exact h
    · exact h.accepted hle hcheck hacc
  | read cap =>
    cases hs
    exact h.readData cap
  | updateMaxData =>
    cases hs
    exact { h.toWithin.updateMaxData, h with }

theorem inv_run {calls : List RecvCall} {maxData : Nat} (hr : run (step S) (new maxData) calls = some s) : Inv S s :=
  run_invariant (fun _ _ _ h _ hs => h.step hs) (inv_new S maxData) (along_true _ calls) hr

/-! ## What is read -/

theorem Inv.readOff_le (h : Inv S s) : s.buf.readOff ≤ S.length := h.shape.read_le_recv.trans h.recv_le

theorem read_eq_done (h : Inv S s) (hdone : (s.buf.read cap).2 = .error .done) : s.buf.ready = false := by
  rcases read_spec h.shape h.running.2 cap with ⟨hready, -⟩ | ⟨-, got, buf, hr, -⟩
  · exact hready
  rw [hr] at hdone
  cases hdone

theorem Inv.isGreatest (h : Inv S s) (hready : s.buf.ready = false) :
    IsGreatest {n | ∀ x < n, s.Received x} s.buf.readOff := by
  refine ⟨fun x hx => (h.received x).mpr (.inl hx), fun n hn => ?_⟩
  by_contra hlt
  rcases (h.received _).mp (hn s.buf.readOff (by omega)) with hx | hx
  · exact lt_irrefl _ hx
  · exact h.shape.not_covers_readOff hready hx

/-- A read with room for more than there is leaves nothing ready. -/
theorem Inv.drained (h : Inv S s) (hcap : s.buf.recvOff - s.buf.readOff < cap) :
    (s.readData cap).buf.ready = false := by
  rcases readData_cases h.toWithin cap with ⟨hready, heq⟩ | ⟨-, got, buf, heq, -, hshape, htaken, hdone, -⟩
  · rw [heq]
    exact hready
  rw [heq]
  refine hdone ?_
  have := hshape.read_le_recv
  have := htaken.recvOff
  have := htaken.readOff
  omega

/-- In every run the bytes read are a prefix of `S`; as soon as a read returns `Done` it is the longest one that
the accepted frames cover, and some read leads there. The chunks are disjoint and the next `write` returns. -/
theorem reassembles (S : Bytes) (maxData : Nat) (calls : List RecvCall) (s : Receiver)
    (hr : run (step S) (new maxData) calls = some s) :
    (s.out = S.take s.buf.readOff ∧ s.buf.readOff ≤ S.length) ∧
    (∀ cap, (s.buf.read cap).2 = .error .done → IsGreatest {n | ∀ x < n, s.Received x} s.buf.readOff) ∧
    (∃ cap, ∀ cap', ((s.readData cap).buf.read cap').2 = .error .done) ∧
    s.buf.data.entries.Pairwise (fun a b => ∀ x ∈ a.2, x ∉ b.2) ∧
    ∀ offset len fin, offset + len ≤ S.length →
      ∃ res, ∀ n, len + 1 ≤ n → s.buf.writeWith n offset ((S.drop offset).take len) fin = some res := by
  have h := inv_run hr
  refine ⟨⟨h.out_eq, h.readOff_le⟩, fun cap hdone => h.isGreatest (read_eq_done h hdone),
    ⟨s.buf.recvOff - s.buf.readOff + 1, fun cap' => ?_⟩, ?_, fun offset len fin hle => ?_⟩
  · have hready := h.drained (Nat.lt_succ_self (s.buf.recvOff - s.buf.readOff))
    rw [RecvBuf.read, hready]
    rfl
  · refine h.shape.pairwise.imp fun {a b} hle x ha hb => ?_
    rw [RangeBuf.mem_def] at ha hb
    omega
  obtain ⟨res, hres, -⟩ := write_spec h.shape offset ((S.drop offset).take len) fin
  exact ⟨res, fun n hn => hres n (by rwa [length_slice hle])⟩

/-- Overlapping, repeated and early frames of three bytes, read in two parts. -/
theorem reassembles_three : ∃ s,
    run (step [1, 2, 3]) (new 8) [.write 2 1 false, .write 0 2 false, .read 1, .write 0 3 true, .read 8] = some s ∧
      s.out = [1, 2, 3] := by
  refine ⟨_, rfl, ?_⟩
  refine (reassembles [1, 2, 3] 8
    [.write 2 1 false, .write 0 2 false, .read 1, .write 0 3 true, .read 8] _ rfl).1.1.trans ?_
  decide

/-! ## The end of the stream -/

/-- FIN is set on frames that end at the end of `S` only, and reads have room for a byte. -/
def Admissible (S : Bytes) : RecvCall → Prop
  | .write offset len fin => fin = true → offset + len = S.length
  | .read cap => 0 < cap
  | .updateMaxData => True

instance (S : Bytes) : (c : RecvCall) → Decidable (Admissible S c)
  | .write offset len fin => inferInstanceAs (Decidable (fin = true → offset + len = S.length))
  | .read cap => inferInstanceAs (Decidable (0 < cap))
  | .updateMaxData => isTrue trivial

def stepFin (S : Bytes) (s : Receiver) (c : RecvCall) : Option Receiver :=
  if Admissible S c then step S s c else none

/-- If everything has arrived, the end was reported or further reads report it. -/
def EndReportable (S : Bytes) (s : Receiver) : Prop :=
  (∀ x < S.length, s.Received x) → (∃ f ∈ s.frames, f.fin = true) → s.signalled = true ∨
    ∃ caps : List Nat, ∃ s', run (stepFin S) s (caps.map .read) = some s' ∧ s'.signalled = true

/-- The final size does not become known by a non-empty frame of which everything was read. -/
def FinInTime (s : Receiver) : RecvCall → Prop
  | .write offset len fin => fin = true → 0 < len → s.buf.finOff = none → s.buf.readOff < offset + len
  | _ => True

structure FinInv (S : Bytes) (s : Receiver) : Prop extends Inv S s where
  fin_eq : ∀ f, s.buf.finOff = some f → f = S.length
  fin_received : (∃ f ∈ s.frames, f.fin = true) ↔ s.buf.finOff ≠ none
  not_signalled : s.buf.finOff = none → s.signalled = false
  pending : s.buf.finOff = some s.buf.readOff → s.signalled = true ∨ ∃ e, e ∈ s.buf.data

theorem finInv_new (S : Bytes) (maxData : Nat) : FinInv S (new maxData) where
  toInv := inv_new S maxData
  fin_eq := fun _ hf => by cases hf
  fin_received := ⟨fun ⟨_, hf, _⟩ => absurd hf not_mem_nil, fun hno => absurd rfl hno⟩
  not_signalled := fun _ => rfl
  pending := fun hf => by cases hf

/-- If the end is known, everything has arrived and nothing was reported, one read reports the end. -/
theorem FinInv.endReportable (h : FinInv S s) : EndReportable S s := by
  intro hall hfin
  obtain ⟨f, hf⟩ := Option.ne_none_iff_exists'.mp (h.fin_received.mp hfin)
  have hfS := h.fin_eq f hf
  have hrecv := h.shape.recv_eq_fin f hf
  have hle := h.readOff_le
  by_cases hsig : s.signalled = true
  · exact .inl hsig
  refine .inr ⟨[S.length - s.buf.readOff + 1], s.readData (S.length - s.buf.readOff + 1), ?_, ?_⟩
  · rw [map_singleton, run_cons]
    exact ⟨_, if_pos (Nat.succ_pos _), rfl⟩
  have hready : s.buf.ready = true := by
    by_contra hno
    have hno := Bool.not_eq_true _ ▸ hno
    rcases Nat.lt_or_ge s.buf.readOff S.length with hlt | hge
    · rcases (h.received _).mp (hall _ hlt) with hx | hx
      · exact lt_irrefl _ hx
      · exact h.shape.not_covers_readOff hno hx
    -- all was read, so what is left in the buffer is the empty chunk at the end
    obtain ⟨e, he⟩ := (h.pending (by rw [hf]; congr 1; omega)).resolve_left hsig
    obtain ⟨e0, he0⟩ : ∃ e0, s.buf.data.entries.head? = some e0 := by
      cases hd : s.buf.data.entries with
      | nil => rw [mem_def, hd] at he; exact absurd he not_mem_nil
      | cons a l => exact ⟨a, rfl⟩
    have hge0 := h.shape.read_le e0 (mem_of_head? he0)
    have hle0 := h.shape.le_recv e0 (mem_of_head? he0)
    have := e0.2.off_le_maxOff
    rw [ready_iff.mpr ⟨e0, he0, by omega⟩] at hno
    cases hno
  rcases readData_cases h.toWithin (S.length - s.buf.readOff + 1) with
    ⟨hno, -⟩ | ⟨-, got, buf, heq, -, hshape, htaken, hdone, -⟩
  · rw [hready] at hno
    cases hno
  have hinv := h.toInv.readData (S.length - s.buf.readOff + 1)
  have hread := htaken.readOff
  have hrl := hshape.read_le_recv
  have hrecv' := htaken.recvOff
  rw [heq] at hinv ⊢
  have hend : buf.readOff = S.length := by
    by_contra hne
    rcases (hinv.received buf.readOff).mp (hall buf.readOff (by omega)) with hx | hx
    · exact lt_irrefl _ hx
    · exact hshape.not_covers_readOff (hdone (by omega)) hx
  have hisFin : buf.isFin = true := isFin_iff.mpr (by rw [htaken.finOff, hf, hend, hfS])
  simp [hisFin]

theorem stepFin_eq_some (hs : stepFin S s c = some s') : Admissible S c ∧ step S s c = some s' := by
  unfold stepFin at hs
  split at hs
  · next hadm => exact ⟨hadm, hs⟩
  · cases hs

theorem isEmpty_slice (hle : offset + len ≤ S.length) :
    RangeBuf.isEmpty ⟨(S.drop offset).take len, offset, fin⟩ = true ↔ len = 0 := by
  rw [RangeBuf.isEmpty_iff, maxOff_slice hle]
  dsimp only
  omega

theorem FinInv.accepted {buf : RecvBuf} (h : FinInv S s) (hle : offset + len ≤ S.length)
    (hadm : fin = true → offset + len = S.length)
    (hok : fin = true → 0 < len → s.buf.finOff = none → s.buf.readOff < offset + len)
    (hcheck : s.buf.checkFrame ⟨(S.drop offset).take len, offset, fin⟩ = .ok ())
    (hacc : RecvBuf.Accepted s.buf ⟨(S.drop offset).take len, offset, fin⟩ buf) :
    FinInv S { s with buf := buf, frames := ⟨offset, len, fin⟩ :: s.frames } := by
  have hmax := @maxOff_slice S offset len fin hle
  have hfin := hacc.finOff
  rw [hmax] at hfin
  refine ⟨h.toInv.accepted hle hcheck hacc, fun f hf => ?_, ?_, fun hnone => ?_, fun hf => ?_⟩
  · rw [hfin] at hf
    split at hf
    · next hb => rw [← hadm hb]; exact (Option.some.inj hf).symm
    · exact h.fin_eq f hf
  · rw [hfin]
    split
    · next hb => exact ⟨fun _ => Option.some_ne_none _, fun _ => ⟨_, mem_cons_self, hb⟩⟩
    rename_i hb
    rw [← h.fin_received]
    constructor
    · rintro ⟨f, hf, hff⟩
      rcases mem_cons.mp hf with rfl | hf
      · exact absurd hff hb
      · exact ⟨f, hf, hff⟩
    · rintro ⟨f, hf, hff⟩
      exact ⟨f, mem_cons_of_mem _ hf, hff⟩
  · rw [hfin] at hnone
    split at hnone
    · cases hnone
    · exact h.not_signalled hnone
  dsimp only at hf ⊢
  have hread := hacc.readOff
  cases hold : s.buf.finOff with
  | some f =>
    -- the final size was known before
    have hpending : s.signalled = true ∨ ∃ e, e ∈ s.buf.data := by
      refine h.pending ?_
      rw [hold, h.fin_eq f hold, ← hread, ← hf, hfin]
      split
      · next hb => rw [hadm hb]
      · rw [hold, h.fin_eq f hold]
    exact hpending.imp_right fun ⟨e, he⟩ => hacc.keeps e he
  | none =>
    rw [hfin] at hf
    split at hf
    · next hb =>
      have hlen : len = 0 := by
        by_contra hne
        have := hok hb (by omega) hold
        have := Option.some.inj hf
        omega
      refine .inr (hacc.pending h.running.1 ?_ hb ((isEmpty_slice hle).mpr hlen))
      rw [RecvBuf.isFin, hold]
      rfl
    · rw [hold] at hf
      cases hf

theorem FinInv.readData (h : FinInv S s) (cap : Nat) : FinInv S (s.readData cap) := by
  have hinv := h.toInv.readData cap
  rcases readData_cases h.toWithin cap with ⟨-, heq⟩ | ⟨-, got, buf, heq, -, -, htaken, -, -⟩
  · rw [heq]
    exact h
  have hfin := htaken.finOff
  rw [heq] at hinv ⊢
  refine ⟨hinv, fun f hf => h.fin_eq f (hfin ▸ hf), ?_, fun hnone => ?_, fun hf => .inl ?_⟩
  · rw [hfin]
    exact h.fin_received
  · rw [h.not_signalled (hfin ▸ hnone), RecvBuf.isFin, hnone]
    rfl
  · rw [isFin_iff.mpr hf, Bool.or_true]

theorem FinInv.step (h : FinInv S s) (hok : FinInTime s c) (hs : stepFin S s c = some s') : FinInv S s' := by
  obtain ⟨hadm, hs⟩ := stepFin_eq_some hs
  cases c with
  | write offset len fin =>
    obtain ⟨hle, ⟨e, -, rfl⟩ | ⟨buf, hcheck, hacc, rfl⟩⟩ := recvFrame_cases h.shape hs
    · exact h
    · exact h.accepted hle hadm hok hcheck hacc
  | read cap =>
    cases hs
    exact h.readData cap
  | updateMaxData =>
    have hinv := h.toInv.step hs
    cases hs
    exact { hinv, h with }

/-- Without anything ready, reads change nothing. -/
theorem run_reads (hready : s.buf.ready = false) (caps : List Nat)
    (hr : run (stepFin S) s (caps.map .read) = some s') : s' = s := by
  have hread : ∀ cap, s.readData cap = s := fun cap => by rw [readData, RecvBuf.read, hready]; rfl
  induction caps with
  | nil => exact (Option.some.inj hr).symm
  | cons cap caps ih =>
    obtain ⟨s1, h1, hr⟩ := run_cons.mp hr
    obtain ⟨-, h1⟩ := stepFin_eq_some h1
    rw [Receiver.step, hread] at h1
    cases h1
    exact ih hr

/-- The late FIN on a non-empty frame is accepted, and the end stays unreported. -/
theorem FinInv.not_endReportable (h : FinInv S s) (hend : offset + len = S.length) (hlen : 0 < len)
    (hnone : s.buf.finOff = none) (hread : offset + len ≤ s.buf.readOff)
    (hs : s.recvFrame S offset len true = some s') : ¬ EndReportable S s' := by
  obtain ⟨hle, hcases⟩ := recvFrame_cases h.shape hs
  have hmax := @maxOff_slice S offset len true hle
  have hrl := h.shape.read_le_recv
  have hrS := h.recv_le
  have hrm := h.recv_le_max
  rcases hcases with ⟨e, hcheck, -⟩ | ⟨buf, -, hacc, rfl⟩
  · -- none of the checks fails
    unfold RecvBuf.checkFrame at hcheck
    rw [hmax, if_neg (by omega), hnone, if_neg (by simp), if_neg (by omega)] at hcheck
    cases hcheck
  have hempty : ∀ e, e ∉ s.buf.data := by
    intro e he
    have := h.shape.read_le e he
    have := h.shape.le_recv e he
    have := e.2.off_le_maxOff
    exact h.shape.fin_of_empty e he (by omega) hnone
  have hdata : buf.data = s.buf.data := by
    refine hacc.stays (by rw [hmax]; exact hread) ?_
    rw [← Bool.not_eq_true, isEmpty_slice hle]
    omega
  have hready : buf.ready = false := by
    rw [← Bool.not_eq_true, ready_iff]
    rintro ⟨e, he, -⟩
    exact hempty e (hdata ▸ mem_of_head? he)
  intro hreport
  have hall : ∀ x < S.length, ∃ f ∈ (⟨offset, len, true⟩ : StreamFrame) :: s.frames, f.off ≤ x ∧ x < f.off + f.len := by
    intro x hx
    obtain ⟨f, hf, hx⟩ := (h.received x).mpr (.inl (by omega))
    exact ⟨f, mem_cons_of_mem _ hf, hx⟩
  rcases hreport hall ⟨_, mem_cons_self, rfl⟩ with hsig | ⟨caps, s'', hr, hsig⟩
  · exact absurd (h.not_signalled hnone) (by rw [hsig]; decide)
  rw [run_reads (by exact hready) caps hr] at hsig
  exact absurd (h.not_signalled hnone) (by rw [hsig]; decide)

/-- In every run the end can be reported throughout exactly when FIN is never news on a frame that was read. -/
theorem end_reported_iff (S : Bytes) (maxData : Nat) (calls : List RecvCall) (s : Receiver)
    (hr : run (stepFin S) (new maxData) calls = some s) :
    Ensures (stepFin S) (fun _ s => EndReportable S s) (new maxData) calls ↔
      Along (stepFin S) FinInTime (new maxData) calls := by
  refine ensures_iff_along ?_ (fun _ _ _ h hok hs => FinInv.step h hok hs) (finInv_new S maxData) hr
  intro s c s' h hs
  refine ⟨fun hreport => ?_, fun hok => (FinInv.step h hok hs).endReportable⟩
  obtain ⟨hadm, hs⟩ := stepFin_eq_some hs
  cases c with
  | write offset len fin =>
    intro hfin hlen hnone
    by_contra hread
    rw [hfin] at hs
    exact h.not_endReportable (hadm hfin) hlen hnone (by omega) hs hreport
  | read cap | updateMaxData => trivial

/-- A frame of one byte is read and then repeated with FIN: the end is never reported. -/
theorem end_unreported : ∃ s, run (stepFin [7]) (new 8) [.write 0 1 false, .read 8, .write 0 1 true] = some s ∧
    ¬ EndReportable [7] s := by
  refine ⟨_, rfl, fun hreport => ?_⟩
  rcases hreport (fun x hx => ⟨⟨0, 1, true⟩, mem_cons_self, Nat.zero_le x, hx⟩) ⟨_, mem_cons_self, rfl⟩ with
    hsig | ⟨caps, s', hr, hsig⟩
  · exact absurd hsig (by decide)
  rw [run_reads (by decide) caps hr] at hsig
  exact absurd hsig (by decide)

/-- FIN on an empty frame after everything was read. -/
theorem end_reported_iff_empty : Ensures (stepFin [7]) (fun _ s => EndReportable [7] s) (new 8)
    [.write 0 1 false, .read 8, .write 1 0 true, .read 8] := by
  refine (end_reported_iff [7] 8 _ _ rfl).mpr ?_
  refine Along.cons (fun h => by cases h) rfl (Along.cons trivial rfl (Along.cons (fun _ h => ?_) rfl ?_))
  · exact absurd h (lt_irrefl 0)
  · exact ⟨trivial, fun _ _ => trivial⟩

end Receiver

end MoqQuic.L2.Tquic
