import MoqQuic.L2Machine.Tquic.RangeSet
import MoqQuic.L2Machine.Tquic.RecvBuf

/-!
# The send buffer of a stream (`connection/stream.rs`)

What the application writes is cut into blocks that wait in a queue until they
are acknowledged. `pos` is the index of the block from which the next byte is
read; it moves forward with reading, back with the blocks that are dropped at
the front, and to zero when data before the next byte is lost. The capacity of
the queue, the blocked offset and the shutdown flag are left out.

`read` copies a range in as many pieces as there are blocks, and it asks for
another piece until the range is complete. Both loops are written with a bound
on their turns, and `none` stands for a loop that has not ended.

Results:
* `write_spec`, `read_spec`, `ackAndDrop_spec`, `retransmit_spec`: what the four
  operations do to a buffer in `Shape`, and that they keep it.
* `read_spec` includes that `read` returns.

Line numbers without a file are those of `stream.rs`.
-/
namespace MoqQuic.L2.Tquic
open List RangeSet Option
open Reader (Bytes)

structure SendBuf where
  data : List RangeBuf
  pos : Nat
  writeOff : Nat
  unsentOff : Nat
  unackedLen : Nat
  maxData : Nat
  finOff : Option Nat
  acked : RangeSet
  retransmits : RangeSet
  error : Option Nat

namespace SendBuf

/-- mirrors :57 -/
def sendBufferSize : Nat := 4096

/-- mirrors :2415-2420 -/
def new (maxData : Nat) : SendBuf := ⟨[], 0, 0, 0, 0, maxData, none, .empty, .empty, none⟩

variable (b : SendBuf)

/-- mirrors :2880-2886 -/
def capacity : Except Error Nat :=
  match b.error with
  | some e => .error (.streamStopped e)
  | none => .ok (b.maxData - b.writeOff)

/-- The blocks for `data`, of which `len` of `dataLen` bytes were cut off before; each turn takes a byte at least,
so the number of bytes bounds the turns. mirrors :2461-2483 -/
def blocks (dataLen : Nat) (fin : Bool) : Nat → Nat → Nat → Bytes → List RangeBuf
  | 0, _, _, _ => []
  | n + 1, off, len, data =>
    if data.length > sendBufferSize then
      let chunk := data.take sendBufferSize
      let len := len + chunk.length
      ⟨chunk, off, len == dataLen && fin⟩ :: blocks dataLen fin n (off + chunk.length) len (data.drop sendBufferSize)
    else if data.isEmpty then [] else [⟨data, off, fin⟩]

/-- The final size can neither be exceeded nor be taken back. mirrors :2440-2450 -/
def exceedsFin (maxOff : Nat) (fin : Bool) : Bool :=
  b.finOff.any fun f => maxOff > f ∨ maxOff = f ∧ fin = false

/-- The number of bytes written. mirrors :2424-2488 -/
def write (data : Bytes) (fin : Bool) : Except Error (Nat × SendBuf) :=
  let maxOff := b.writeOff + data.length
  match b.capacity with
  | .error e => .error e
  | .ok capacity =>
    let fits : Bool := data.length ≤ capacity
    let data := if fits then data else data.take capacity
    let fin := fin && fits
    if b.exceedsFin maxOff fin then .error .finalSizeError
    else
      .ok (data.length, { b with
        finOff := if fin then some maxOff else b.finOff
        data := b.data ++ blocks data.length fin data.length b.writeOff 0 data
        writeOff := b.writeOff + data.length
        unackedLen := b.unackedLen + data.length })

/-- mirrors :2864-2871 -/
def sendOff : Nat := b.retransmits.min.getD b.unsentOff

/-- mirrors :2591-2593 -/
def ready : Bool := !b.data.isEmpty && b.sendOff < b.writeOff

/-- mirrors :2617-2624 -/
def ackOff : Nat :=
  match b.acked.peekMin with
  | some ⟨0, stop⟩ => stop
  | _ => 0

/-- mirrors :2494-2517 -/
def pollTransmit (maxLen : Nat) : Range × SendBuf :=
  match b.retransmits.popMin with
  | some (range, rest) =>
    let stop := min range.stop (range.start + maxLen)
    (⟨range.start, stop⟩, { b with retransmits := if stop ≠ range.stop then rest.insert ⟨stop, range.stop⟩ else rest })
  | none =>
    let stop := min b.writeOff (b.unsentOff + maxLen)
    (⟨b.unsentOff, stop⟩, { b with unsentOff := stop })

/-- The bytes at the front of `range` in the first block that has them, and the next position, counted from the
first of the blocks. mirrors :2522-2540 -/
def readRange (range : Range) : List RangeBuf → Bytes × Nat
  | [] => ([], 0)
  | segment :: rest =>
    if range.start ≥ segment.off ∧ range.start < segment.maxOff then
      let start := range.start - segment.off
      let stop := min (range.stop - segment.off) segment.len
      ((segment.data.take stop).drop start, if stop = segment.len then 1 else 0)
    else
      let found := readRange range rest
      (found.1, found.2 + 1)

/-- Copy `range` to `out`. mirrors :2564-2571 -/
def copyRange : Nat → SendBuf → Range → Bytes → Option (SendBuf × Bytes)
  | 0, b, range, out => if range.start = range.stop then some (b, out) else none
  | n + 1, b, range, out =>
    if range.start = range.stop then some (b, out)
    else
      let found := readRange range (b.data.drop b.pos)
      copyRange n { b with pos := b.pos + found.2 } ⟨range.start + found.1.length, range.stop⟩ (out ++ found.1)

/-- The condition of the loop of `read`. mirrors :2552-2556 -/
def more (cap nextOff : Nat) : Bool :=
  cap > 0 ∧ b.ready ∧ b.sendOff = nextOff ∧ b.sendOff < b.maxData

/-- mirrors :2552-2575 -/
def readLoop : Nat → SendBuf → Nat → Nat → Bytes → Option (SendBuf × Nat × Bytes)
  | 0, b, cap, nextOff, out => if b.more cap nextOff then none else some (b, nextOff, out)
  | n + 1, b, cap, nextOff, out =>
    if b.more cap nextOff then
      let polled := b.pollTransmit cap
      let rangeLen := polled.1.stop - polled.1.start
      (copyRange (n + 1) polled.2 polled.1 out).bind fun (b, out) =>
        readLoop n b (cap - rangeLen) (nextOff + rangeLen) out
    else some (b, nextOff, out)

/-- `read` into a buffer of `cap` bytes, with a bound on the turns of its loops: the bytes and whether they reach the
end of the stream. mirrors :2544-2585 -/
def readWith (fuel : Nat) (b : SendBuf) (cap : Nat) : Option (SendBuf × Bytes × Bool) :=
  (readLoop fuel b cap b.sendOff []).map fun (b, nextOff, out) => (b, out, b.finOff == some nextOff)

variable (b : SendBuf)

/-- A buffer of `cap` bytes takes at most `cap` turns (`read_spec`). -/
def read (cap : Nat) : Option (SendBuf × Bytes × Bool) := b.readWith cap cap

/-- mirrors :2596-2598 -/
def updateMaxData (maxData : Nat) : SendBuf := { b with maxData := max b.maxData maxData }

/-- Drop that many bytes at the front; the second component is the number of blocks that are gone.
mirrors :2677-2691 -/
def dropFront : Nat → List RangeBuf → List RangeBuf × Nat
  | _, [] => ([], 0)
  | toAdvance, front :: rest =>
    if toAdvance = 0 then (front :: rest, 0)
    else if front.len ≤ toAdvance then
      let dropped := dropFront (toAdvance - front.len) rest
      (dropped.1, dropped.2 + 1)
    else (front.advance toAdvance :: rest, 0)

/-- mirrors :2633-2702 -/
def ackAndDrop (off len : Nat) : SendBuf :=
  if b.data.isEmpty then { b with retransmits := .empty }
  else
    let b := { b with
      acked := b.acked.insert ⟨off, off + len⟩
      retransmits := b.retransmits.remove ⟨off, off + len⟩ }
    if off > b.ackOff then b
    else
      let toAdvance := b.ackOff - (b.writeOff - b.unackedLen)
      let dropped := dropFront toAdvance b.data
      { b with data := dropped.1, unackedLen := b.unackedLen - toAdvance, pos := b.pos - dropped.2 }

/-- Insert what of `[start, stop)` lies between the acknowledged ranges. mirrors :2725-2768 -/
def insertUnacked : List Range → Nat → Nat → RangeSet → RangeSet
  | [], start, stop, retransmits => retransmits.insert ⟨start, stop⟩
  | range :: rest, start, stop, retransmits =>
    if stop ≤ range.start then retransmits.insert ⟨start, stop⟩
    else if start ≥ range.stop then insertUnacked rest start stop retransmits
    else if start < range.start then
      if stop ≤ range.stop then retransmits.insert ⟨start, range.start⟩
      else insertUnacked rest range.stop stop (retransmits.insert ⟨start, range.start⟩)
    else
      if stop ≤ range.stop then retransmits.insert ⟨start, start⟩
      else insertUnacked rest range.stop stop retransmits

/-- mirrors :2706-2779 -/
def retransmit (off len : Nat) : SendBuf :=
  if b.data.isEmpty ∨ off + len ≤ b.ackOff then b
  else
    let lost := { b with retransmits := insertUnacked b.acked.ranges off (off + len) b.retransmits }
    if lost.sendOff < b.sendOff then { lost with pos := 0 } else lost

/-- mirrors :2851-2856 -/
def isComplete : Bool :=
  match b.finOff with
  | some f => f == 0 || b.acked.eqRange ⟨0, f⟩
  | none => false

/-! ## Blocks without gaps -/

/-- The blocks are not empty and lie next to each other from `a` to `w`. -/
def Contiguous : Nat → List RangeBuf → Nat → Prop
  | a, [], w => a = w
  | a, block :: rest, w => block.off = a ∧ a < block.maxOff ∧ Contiguous block.maxOff rest w

section Contiguous

variable {a m w : Nat} {l l' : List RangeBuf}

theorem contiguous_append : Contiguous a (l ++ l') w ↔ ∃ m, Contiguous a l m ∧ Contiguous m l' w := by
  induction l generalizing a with
  | nil =>
    constructor
    · exact fun h => ⟨a, rfl, h⟩
    rintro ⟨m, rfl, h⟩
    exact h
  | cons block rest ih =>
    constructor
    · rintro ⟨hoff, hlt, h⟩
      obtain ⟨m, h1, h2⟩ := ih.mp h
      exact ⟨m, ⟨hoff, hlt, h1⟩, h2⟩
    · rintro ⟨m, ⟨hoff, hlt, h1⟩, h2⟩
      exact ⟨hoff, hlt, ih.mpr ⟨m, h1, h2⟩⟩

theorem Contiguous.unique (h : Contiguous a l m) (h' : Contiguous a l w) : m = w := by
  induction l generalizing a with
  | nil => exact h.symm.trans h'
  | cons block rest ih => exact ih h.2.2 h'.2.2

theorem Contiguous.drop {n : Nat} (h : Contiguous a l w) (hm : Contiguous a (l.take n) m) :
    Contiguous m (l.drop n) w := by
  rw [← take_append_drop n l] at h
  obtain ⟨m', h1, h2⟩ := contiguous_append.mp h
  rw [hm.unique h1]
  exact h2

end Contiguous

/-- The first `pos` blocks end at `x` or before. -/
def PosAt (a : Nat) (data : List RangeBuf) (pos x : Nat) : Prop :=
  pos ≤ data.length ∧ ∃ m, m ≤ x ∧ Contiguous a (data.take pos) m

variable {x nextOff n off len : Nat} {S data : Bytes} {b : SendBuf}

theorem PosAt.mono {a pos y : Nat} {data : List RangeBuf} (h : PosAt a data pos x) (hxy : x ≤ y) :
    PosAt a data pos y := by
  obtain ⟨hle, m, hm, hc⟩ := h
  exact ⟨hle, m, hm.trans hxy, hc⟩

theorem PosAt.zero {a : Nat} (data : List RangeBuf) (h : a ≤ x) : PosAt a data 0 x :=
  ⟨Nat.zero_le _, a, h, rfl⟩

/-! ## Cutting into blocks -/

theorem blocks_contiguous (dataLen : Nat) (fin : Bool) (off len : Nat) (hn : data.length ≤ n) :
    Contiguous off (blocks dataLen fin n off len data) (off + data.length) := by
  induction n generalizing off len data with
  | zero =>
    show off = off + data.length
    omega
  | succ n ih =>
    rw [blocks]
    split
    · next hlong =>
      have hsize : sendBufferSize = 4096 := rfl
      have htake : (data.take sendBufferSize).length = sendBufferSize := by
        rw [length_take]
        omega
      refine ⟨rfl, ?_, ?_⟩
      · rw [RangeBuf.maxOff, RangeBuf.len, htake]
        show off < off + sendBufferSize
        omega
      have hrest := @ih (data.drop sendBufferSize) (off + sendBufferSize) (len + sendBufferSize)
        (by rw [length_drop]; omega)
      rw [length_drop, Nat.add_assoc, Nat.add_sub_cancel' (by omega)] at hrest
      rw [RangeBuf.maxOff, RangeBuf.len, htake]
      exact hrest
    split
    · next hnil => rw [isEmpty_iff.mp hnil]; rfl
    rename_i hne
    refine ⟨rfl, ?_, rfl⟩
    have := length_pos_iff.mpr fun h => hne (isEmpty_iff.mpr h)
    show off < off + data.length
    omega

theorem blocks_agrees (dataLen : Nat) (fin : Bool) (h : RangeBuf.Agrees S ⟨data, off, fin⟩) :
    ∀ block ∈ blocks dataLen fin n off len data, block.Agrees S := by
  induction n generalizing off len data with
  | zero => exact fun block hb => absurd hb not_mem_nil
  | succ n ih =>
    rw [blocks]
    split
    · next hlong =>
      have htake : (data.take sendBufferSize).length = sendBufferSize := by
        rw [length_take]
        omega
      intro block hb
      rcases mem_cons.mp hb with rfl | hb
      · exact (h.splitOff sendBufferSize).1
      refine ih ?_ block hb
      rw [htake]
      exact h.advance sendBufferSize
    split
    · exact fun block hb => absurd hb not_mem_nil
    intro block hb
    rw [mem_singleton.mp hb]
    exact h

/-! ## Copying a range -/

/-- The block with the next byte is found, and the position does not move past it. -/
theorem readRange_spec {m w : Nat} {l : List RangeBuf} (range : Range) (h : Contiguous m l w) (hm : m ≤ range.start)
    (hlt : range.start < range.stop) (hw : range.stop ≤ w) :
    0 < (readRange range l).1.length ∧ range.start + (readRange range l).1.length ≤ range.stop ∧
    PosAt m l (readRange range l).2 (range.start + (readRange range l).1.length) ∧
    ∀ S, (∀ block ∈ l, block.Agrees S) →
      (readRange range l).1 = (S.drop range.start).take (readRange range l).1.length := by
  induction l generalizing m with
  | nil =>
    have : m = w := h
    omega
  | cons segment rest ih =>
    obtain ⟨hoff, hne, hrest⟩ := h
    rw [readRange]
    split
    · next hin =>
      have hlen := segment.len_eq
      have hle : min (range.stop - segment.off) segment.len ≤ segment.len := Nat.min_le_right ..
      have hcount : ((segment.data.take (min (range.stop - segment.off) segment.len)).drop
          (range.start - segment.off)).length =
          min (range.stop - segment.off) segment.len - (range.start - segment.off) := by
        rw [length_drop, length_take, Nat.min_eq_left (show _ ≤ segment.data.length from hle)]
      dsimp only
      rw [hcount]
      refine ⟨by omega, by omega, ?_, fun S hS => ?_⟩
      · split
        · exact ⟨Nat.succ_le_succ (Nat.zero_le _), segment.maxOff, by omega, hoff, hne, rfl⟩
        · exact PosAt.zero _ (by omega)
      · rw [(hS segment mem_cons_self).take hle, drop_take, drop_drop, Nat.add_sub_cancel' hin.1]
    · next hout =>
      obtain ⟨hpos, hstop, ⟨hk, m', hm', hc⟩, hbytes⟩ := ih hrest (by omega)
      refine ⟨hpos, hstop, ⟨Nat.succ_le_succ hk, m', hm', hoff, hne, hc⟩, fun S hS => ?_⟩
      exact hbytes S fun block hb => hS block (mem_cons_of_mem _ hb)

theorem copyRange_self (n : Nat) (b : SendBuf) (x : Nat) (out : Bytes) : copyRange n b ⟨x, x⟩ out = some (b, out) := by
  cases n <;> exact if_pos rfl

/-- The whole range is copied, in as many turns as it has bytes at most. -/
theorem copyRange_spec {a w : Nat} (hc : Contiguous a b.data w) {range : Range}
    (hle : range.start ≤ range.stop) (hw : range.stop ≤ w) (hpos : PosAt a b.data b.pos range.start) :
    ∃ pos got, (∀ n out, range.stop - range.start ≤ n →
        copyRange n b range out = some ({ b with pos := pos }, out ++ got)) ∧
      got.length = range.stop - range.start ∧ PosAt a b.data pos range.stop ∧
      ∀ S, (∀ block ∈ b.data, block.Agrees S) → got = (S.drop range.start).take got.length := by
  obtain ⟨start, stop⟩ := range
  dsimp only at hle hw hpos ⊢
  induction hlen : stop - start using Nat.strong_induction_on generalizing b start with
  | _ len ih =>
    by_cases heq : start = stop
    · subst heq
      refine ⟨b.pos, [], fun n out _ => ?_, by simp [← hlen], hpos, fun _ _ => by simp⟩
      rw [copyRange_self, append_nil]
    obtain ⟨hposle, m, hm, hcm⟩ := hpos
    obtain ⟨hpiece, hpiecele, ⟨hk, m', hm', hc'⟩, hbytes⟩ :=
      readRange_spec ⟨start, stop⟩ (hc.drop hcm) hm (by dsimp only; omega) hw
    dsimp only at hpiecele hm' hbytes
    generalize hfound : readRange ⟨start, stop⟩ (b.data.drop b.pos) = found at *
    rw [length_drop] at hk
    have hposAt : PosAt a b.data (b.pos + found.2) (start + found.1.length) := by
      refine ⟨by omega, m', hm', ?_⟩
      rw [take_add]
      exact contiguous_append.mpr ⟨m, hcm, hc'⟩
    obtain ⟨pos, got, hrun, hgot, hpos', hgotS⟩ :=
      ih (stop - (start + found.1.length)) (by omega) (b := { b with pos := b.pos + found.2 }) hc
        (start + found.1.length) hpiecele hposAt rfl
    refine ⟨pos, found.1 ++ got, fun n out hn => ?_, ?_, hpos', fun S hS => ?_⟩
    · cases n with
      | zero => omega
      | succ n =>
        rw [copyRange, if_neg heq]
        rw [hfound, hrun n (out ++ found.1) (by omega), append_assoc]
    · rw [length_append, hgot]
      omega
    · rw [length_append, take_add, ← hbytes S fun block hb => hS block (mem_of_mem_drop hb), drop_drop, ← hgotS S hS]

/-! ## The invariant -/

theorem ackOff_spec (b : SendBuf) : (∀ x < b.ackOff, x ∈ b.acked) ∧ b.ackOff ∉ b.acked := by
  unfold ackOff
  split
  · next stop hmin =>
    obtain ⟨-, hin, hstop, -⟩ := peekMin_eq_some hmin
    exact ⟨fun x hx => hin x ⟨Nat.zero_le x, hx⟩, hstop⟩
  rename_i hmin
  refine ⟨fun x hx => absurd hx (Nat.not_lt_zero x), fun h0 => ?_⟩
  cases hpeek : b.acked.peekMin with
  | none => exact peekMin_eq_none.mp hpeek 0 h0
  | some r =>
    -- the first range starts at zero, which is the other case
    obtain ⟨-, -, -, hall⟩ := peekMin_eq_some hpeek
    obtain ⟨start, stop⟩ := r
    obtain rfl : start = 0 := Nat.le_zero.mp (hall 0 h0)
    exact hmin stop hpeek

structure Shape (b : SendBuf) : Prop where
  contiguous : Contiguous b.ackOff b.data b.writeOff
  unacked : b.unackedLen + b.ackOff = b.writeOff
  pos : PosAt b.ackOff b.data b.pos b.sendOff
  unsent_le : b.unsentOff ≤ b.writeOff
  write_le : b.writeOff ≤ b.maxData
  acked_lt : ∀ x ∈ b.acked, x < b.unsentOff
  lost_lt : ∀ x ∈ b.retransmits, x < b.unsentOff
  lost_unacked : ∀ x ∈ b.retransmits, x ∉ b.acked

/-- The blocks hold the bytes of `S`. -/
def Holds (S : Bytes) (b : SendBuf) : Prop := ∀ block ∈ b.data, block.Agrees S

theorem Shape.new (maxData : Nat) : (new maxData).Shape where
  contiguous := rfl
  unacked := rfl
  pos := PosAt.zero _ (Nat.zero_le _)
  unsent_le := le_rfl
  write_le := Nat.zero_le _
  acked_lt := fun _ hx => absurd hx not_mem_empty
  lost_lt := fun _ hx => absurd hx not_mem_empty
  lost_unacked := fun _ hx => absurd hx not_mem_empty

/-- What is sent next is the first lost byte, or else the first unsent one. -/
theorem sendOff_cases (b : SendBuf) : (∃ r, b.retransmits.peekMin = some r ∧ b.sendOff = r.start) ∨
      ((∀ x, x ∉ b.retransmits) ∧ b.sendOff = b.unsentOff) := by
  rw [sendOff, RangeSet.min]
  cases hmin : b.retransmits.peekMin with
  | none => exact .inr ⟨peekMin_eq_none.mp hmin, rfl⟩
  | some r => exact .inl ⟨r, rfl, rfl⟩

theorem sendOff_le_of_mem (hx : x ∈ b.retransmits) : b.sendOff ≤ x := by
  rcases b.sendOff_cases with ⟨r, hmin, heq⟩ | ⟨hnone, -⟩
  · rw [heq]
    exact (peekMin_eq_some hmin).2.2.2 x hx
  · exact absurd hx (hnone x)

theorem sendOff_mem_or (b : SendBuf) : b.sendOff ∈ b.retransmits ∨ b.sendOff = b.unsentOff := by
  rcases b.sendOff_cases with ⟨r, hmin, heq⟩ | ⟨-, heq⟩
  · obtain ⟨hlt, hin, -, -⟩ := peekMin_eq_some hmin
    exact .inl (heq ▸ hin r.start ⟨le_rfl, hlt⟩)
  · exact .inr heq

theorem ackOff_le_sendOff_of (hsent : ∀ x ∈ b.acked, x < b.unsentOff)
    (hlost : ∀ x ∈ b.retransmits, x ∉ b.acked) : b.ackOff ≤ b.sendOff := by
  by_contra hlt
  have hacked := b.ackOff_spec.1 b.sendOff (by omega)
  rcases b.sendOff_mem_or with hx | heq
  · exact hlost _ hx hacked
  · exact absurd (hsent _ hacked) (by omega)

theorem sendOff_mono {b b' : SendBuf} (h : b.sendOff ≤ b'.unsentOff)
    (hlost : ∀ x ∈ b'.retransmits, x ∈ b.retransmits) : b.sendOff ≤ b'.sendOff := by
  rcases b'.sendOff_mem_or with hx | heq
  · exact sendOff_le_of_mem (hlost _ hx)
  · omega

namespace Shape

variable {b : SendBuf}

theorem sendOff_le (h : b.Shape) : b.sendOff ≤ b.unsentOff := by
  rcases b.sendOff_mem_or with hx | heq
  · exact (h.lost_lt _ hx).le
  · exact heq.le

theorem ackOff_le_sendOff (h : b.Shape) : b.ackOff ≤ b.sendOff :=
  ackOff_le_sendOff_of h.acked_lt h.lost_unacked

/-- If no block is left, everything that was sent is acknowledged. -/
theorem mem_acked_of_nil (h : b.Shape) (hnil : b.data = []) (hx : x < b.unsentOff) : x ∈ b.acked := by
  have hc := h.contiguous
  rw [hnil] at hc
  have hle := h.unsent_le
  have heq : b.ackOff = b.writeOff := hc
  exact b.ackOff_spec.1 x (by omega)

theorem ready_iff (h : b.Shape) : b.ready = true ↔ b.sendOff < b.writeOff := by
  rw [ready, Bool.and_eq_true, decide_eq_true_iff, Bool.not_eq_true', isEmpty_eq_false_iff]
  refine ⟨And.right, fun hlt => ⟨fun hnil => ?_, hlt⟩⟩
  have hc := h.contiguous
  rw [hnil] at hc
  have heq : b.ackOff = b.writeOff := hc
  have := h.ackOff_le_sendOff
  omega

end Shape

/-! ## Reading -/

/-- What `poll_transmit` leaves: `range` is at the front of what is to be sent and is taken from it. -/
structure Polled (b : SendBuf) (maxLen : Nat) (range : Range) (b' : SendBuf) : Prop where
  same : ∃ unsent lost, b' = { b with unsentOff := unsent, retransmits := lost }
  start_eq : range.start = b.sendOff
  start_lt : range.start < range.stop
  stop_le : range.stop ≤ range.start + maxLen
  stop_le_write : range.stop ≤ b.writeOff
  unsentOff : b'.unsentOff = max b.unsentOff range.stop
  lost : ∀ x, x ∈ b'.retransmits ↔ x ∈ b.retransmits ∧ x ∉ range

theorem pollTransmit_spec (h : b.Shape) (hready : b.sendOff < b.writeOff) {maxLen : Nat}
    (hlen : 0 < maxLen) : Polled b maxLen (b.pollTransmit maxLen).1 (b.pollTransmit maxLen).2 := by
  unfold pollTransmit
  cases hpop : b.retransmits.popMin with
  | some popped =>
    obtain ⟨range, rest⟩ := popped
    obtain ⟨hmin, hrest⟩ := popMin_eq_some hpop
    obtain ⟨hlt, hin, -, -⟩ := peekMin_eq_some hmin
    have hstart : b.sendOff = range.start := by rw [sendOff, RangeSet.min, hmin]; rfl
    have hlast := h.lost_lt _ (hin (range.stop - 1) ⟨by omega, by omega⟩)
    have hwrite := h.unsent_le
    refine ⟨⟨_, _, rfl⟩, hstart.symm, by dsimp only; omega, by dsimp only; omega, by dsimp only; omega,
      by dsimp only; omega, fun x => ?_⟩
    have hx := hrest x
    rw [Range.mem_def] at hx ⊢
    dsimp only
    split
    · rw [mem_insert, hx, Range.mem_def]
      dsimp only
      constructor
      · rintro (hx | hx)
        · exact ⟨hx.1, by omega⟩
        · exact ⟨hin x ⟨by omega, by omega⟩, by omega⟩
      rintro ⟨hxm, hx⟩
      by_cases hxr : range.start ≤ x ∧ x < range.stop
      · exact .inr (by omega)
      · exact .inl ⟨hxm, hxr⟩
    · next heq =>
      have heq := not_not.mp heq
      rw [hx, heq]
  | none =>
    have hmin := map_eq_none_iff.mp hpop
    have hnone := peekMin_eq_none.mp hmin
    have hstart : b.sendOff = b.unsentOff := by rw [sendOff, RangeSet.min, hmin]; rfl
    refine ⟨⟨_, _, rfl⟩, hstart.symm, by dsimp only; omega, by dsimp only; omega, by dsimp only; omega,
      by dsimp only; omega, fun x => ?_⟩
    exact ⟨fun hx => absurd hx (hnone x), fun hx => absurd hx.1 (hnone x)⟩

namespace Polled

variable {b b' : SendBuf} {maxLen : Nat} {range : Range}

theorem stop_le_sendOff (hp : Polled b maxLen range b') : range.stop ≤ b'.sendOff := by
  rcases b'.sendOff_mem_or with hx | heq
  · have hlost := (hp.lost _).mp hx
    have hge := sendOff_le_of_mem hlost.1
    have hnot := hlost.2
    rw [Range.mem_def, hp.start_eq] at hnot
    omega
  · have := hp.unsentOff
    omega

/-- The position is behind for the time being: it is moved while the range is copied. -/
theorem shape (h : b.Shape) (hp : Polled b maxLen range b') {pos : Nat} (hpos : PosAt b.ackOff b.data pos range.stop) :
    Shape { b' with pos := pos } := by
  have hstop := hp.stop_le_sendOff
  have hlost := hp.lost
  have hunsent := hp.unsentOff
  have hwrite := hp.stop_le_write
  have hle := h.unsent_le
  obtain ⟨unsent, lost, rfl⟩ := hp.same
  dsimp only at hlost hunsent
  exact { h with
    pos := hpos.mono hstop
    unsent_le := by dsimp only; omega
    acked_lt := fun x hx => by have := h.acked_lt x hx; dsimp only; omega
    lost_lt := fun x hx => by have := h.lost_lt x ((hlost x).mp hx).1; dsimp only; omega
    lost_unacked := fun x hx => h.lost_unacked x ((hlost x).mp hx).1 }

end Polled

/-- What reading `got` at `off` leaves. -/
structure Sent (b : SendBuf) (off : Nat) (got : Bytes) (b' : SendBuf) : Prop where
  same : ∃ pos unsent lost, b' = { b with pos := pos, unsentOff := unsent, retransmits := lost }
  shape : b'.Shape
  unsentOff : b'.unsentOff = max b.unsentOff (off + got.length)
  lost : ∀ x, x ∈ b'.retransmits ↔ x ∈ b.retransmits ∧ ¬ (off ≤ x ∧ x < off + got.length)
  bytes : ∀ S, b.Holds S → got = (S.drop off).take got.length

theorem more_iff (h : b.Shape) {cap : Nat} :
    b.more cap nextOff = true ↔ 0 < cap ∧ b.sendOff < b.writeOff ∧ b.sendOff = nextOff ∧ b.sendOff < b.maxData := by
  rw [more, decide_eq_true_iff, h.ready_iff]

theorem readLoop_of_not_more {cap : Nat} (hno : b.more cap nextOff = false) (n : Nat) (out : Bytes) :
    readLoop n b cap nextOff out = some (b, nextOff, out) := by
  cases n with
  | zero | succ n => rw [readLoop, hno]; rfl

/-- Each turn of the outer loop reads a byte at least. -/
theorem readLoop_spec (h : b.Shape) (cap : Nat) (hoff : nextOff ≤ b.sendOff) :
    ∃ b' got, (∀ n out, cap ≤ n → readLoop n b cap nextOff out = some (b', nextOff + got.length, out ++ got)) ∧
      got.length ≤ cap ∧ Sent b nextOff got b' := by
  induction cap using Nat.strong_induction_on generalizing b nextOff with
  | _ cap ih =>
    by_cases hmore : b.more cap nextOff = true
    · obtain ⟨hcap, hready, hnext, -⟩ := (more_iff h).mp hmore
      have hp := pollTransmit_spec h hready hcap
      obtain ⟨hstart, hlt, hstop, hwrite⟩ : _ ∧ _ ∧ _ ∧ _ :=
        ⟨hp.start_eq, hp.start_lt, hp.stop_le, hp.stop_le_write⟩
      generalize hpolled : b.pollTransmit cap = polled at *
      obtain ⟨range, b1⟩ := polled
      dsimp only at hp hstart hlt hstop hwrite
      have hdata : b1.data = b.data ∧ b1.pos = b.pos := by
        obtain ⟨unsent, lost, rfl⟩ := hp.same
        exact ⟨rfl, rfl⟩
      obtain ⟨pos, got, hcopy, hgot, hpos, hbytes⟩ := @copyRange_spec b1 b.ackOff b.writeOff
        (hdata.1 ▸ h.contiguous) range hlt.le hwrite (by rw [hdata.1, hdata.2, hstart]; exact h.pos)
      rw [hdata.1] at hpos hbytes
      have hshape := hp.shape h hpos
      obtain ⟨b2, rest, hloop, hrest, hsent⟩ := ih (cap - (range.stop - range.start)) (by omega) hshape
        (show nextOff + (range.stop - range.start) ≤ b1.sendOff by have := hp.stop_le_sendOff; omega)
      refine ⟨b2, got ++ rest, fun n out hn => ?_, by rw [length_append]; omega, ?_, hsent.shape, ?_, fun x => ?_,
        fun S hS => ?_⟩
      · cases n with
        | zero => omega
        | succ n =>
          rw [readLoop, if_pos hmore]
          rw [hpolled]
          dsimp only
          rw [hcopy (n + 1) out (by omega), bind_some]
          rw [hloop n (out ++ got) (by omega), length_append, hgot, append_assoc, Nat.add_assoc]
      · obtain ⟨unsent, lost, rfl⟩ := hp.same
        obtain ⟨pos', unsent', lost', rfl⟩ := hsent.same
        exact ⟨pos', unsent', lost', rfl⟩
      · have h1 := hp.unsentOff
        have h2 := hsent.unsentOff
        rw [h2, h1, length_append, hgot]
        omega
      · have h1 := hp.lost x
        have h2 := hsent.lost x
        rw [h2, h1, length_append, hgot, Range.mem_def, and_assoc]
        exact and_congr_right fun _ => by omega
      have hrestS := hsent.bytes S (show ∀ block ∈ b1.data, block.Agrees S from hdata.1 ▸ hS)
      have hgotS := hbytes S hS
      rw [hstart.trans hnext] at hgotS
      rw [length_append, take_add, ← hgotS, drop_drop, hgot, ← hrestS]
    have hno := Bool.not_eq_true _ ▸ hmore
    have hle := h.sendOff_le
    refine ⟨b, [], fun n out _ => ?_, Nat.zero_le _, ⟨_, _, _, rfl⟩, h, ?_, fun x => ?_, fun _ _ => by simp⟩
    · rw [readLoop_of_not_more hno, append_nil]
      rfl
    · show b.unsentOff = max b.unsentOff nextOff
      omega
    · show _ ↔ _ ∧ ¬ (nextOff ≤ x ∧ x < nextOff)
      exact (and_iff_left (by omega)).symm

/-- `read` returns the bytes at `send_off`. -/
theorem read_spec (h : b.Shape) (cap : Nat) :
    ∃ b' got, (∀ n, cap ≤ n → b.readWith n cap = some (b', got, b.finOff == some (b.sendOff + got.length))) ∧
      got.length ≤ cap ∧ Sent b b.sendOff got b' := by
  obtain ⟨b', got, hloop, hle, hsent⟩ := readLoop_spec h cap (le_refl b.sendOff)
  refine ⟨b', got, fun n hn => ?_, hle, hsent⟩
  have hfin : b'.finOff = b.finOff := by
    obtain ⟨pos, unsent, lost, rfl⟩ := hsent.same
    rfl
  rw [readWith, hloop n [] hn, map_some, nil_append]
  dsimp only
  rw [hfin]

/-! ## Writing -/

/-- What writing the first `n` bytes of `data` leaves. -/
structure Written (b : SendBuf) (data : Bytes) (fin : Bool) (n : Nat) (b' : SendBuf) : Prop where
  shape : b'.Shape
  le : n ≤ data.length
  writeOff : b'.writeOff = b.writeOff + n
  unsentOff : b'.unsentOff = b.unsentOff
  acked : b'.acked = b.acked
  retransmits : b'.retransmits = b.retransmits
  finOff : b'.finOff = if fin = true ∧ n = data.length then some (b.writeOff + n) else b.finOff
  fin_le : ∀ f, b.finOff = some f → b.writeOff + n ≤ f
  holds : ∀ S, S.length = b.writeOff → b.Holds S → b'.Holds (S ++ data.take n)

theorem agrees_append {block : RangeBuf} (h : block.Agrees S) (T : Bytes) : block.Agrees (S ++ T) := by
  intro i v hv
  rw [List.getElem?_append_left (List.getElem?_eq_some_iff.mp (h i v hv)).1]
  exact h i v hv

theorem agrees_append_right (S T : Bytes) (fin : Bool) : RangeBuf.Agrees (S ++ T) ⟨T, S.length, fin⟩ := by
  intro i v hv
  rw [List.getElem?_append_right (Nat.le_add_right ..), Nat.add_sub_cancel_left]
  exact hv

/-- A longer queue with the same front keeps the position. -/
theorem PosAt.append {a pos : Nat} {data : List RangeBuf} (h : PosAt a data pos x) (l : List RangeBuf) :
    PosAt a (data ++ l) pos x := by
  obtain ⟨hle, m, hm, hc⟩ := h
  refine ⟨by rw [length_append]; omega, m, hm, ?_⟩
  rw [take_append_of_le_length hle]
  exact hc

theorem write_spec {b b' : SendBuf} (h : b.Shape) {fin : Bool}
    (hw : b.write data fin = .ok (n, b')) : Written b data fin n b' := by
  unfold write capacity at hw
  cases herr : b.error with
  | some e =>
    rw [herr] at hw
    cases hw
  | none =>
    rw [herr] at hw
    dsimp only at hw
    -- what is written is a front of `data`, and FIN stays only with all of it
    obtain ⟨part, hpart⟩ : ∃ part, part = if decide (data.length ≤ b.maxData - b.writeOff) = true then data
      else data.take (b.maxData - b.writeOff) := ⟨_, rfl⟩
    have hlen : part.length = min data.length (b.maxData - b.writeOff) := by
      rw [hpart]
      split
      · next hfit => have := of_decide_eq_true hfit; omega
      · rw [length_take, Nat.min_comm]
    have hpartEq : part = data.take part.length := by
      rw [hpart]
      split
      · rw [take_length]
      · rw [length_take, ← take_take, take_length]
    rw [← hpart] at hw
    split at hw
    · cases hw
    rename_i hfin
    obtain ⟨rfl, rfl⟩ := Prod.mk.inj (Except.ok.inj hw)
    have hwrite := h.write_le
    have hfinOff : ((fin && decide (data.length ≤ b.maxData - b.writeOff)) = true) ↔
        fin = true ∧ part.length = data.length := by
      rw [Bool.and_eq_true, decide_eq_true_iff, hlen]
      exact and_congr_right fun _ => by omega
    refine ⟨?_, by omega, rfl, rfl, rfl, rfl, ?_, fun f hf => ?_, fun S hS hh => ?_⟩
    · exact { h with
        contiguous := contiguous_append.mpr ⟨_, h.contiguous, blocks_contiguous _ _ _ _ le_rfl⟩
        unacked := by
          have := h.unacked
          show b.unackedLen + part.length + b.ackOff = b.writeOff + part.length
          omega
        pos := h.pos.append _
        unsent_le := by have := h.unsent_le; dsimp only; omega
        write_le := by dsimp only; omega }
    · rw [if_congr hfinOff rfl rfl]
      split
      · next hall => rw [hall.2]
      · rfl
    · rw [exceedsFin, hf, any_some, decide_eq_true_iff] at hfin
      omega
    intro block hb
    rcases mem_append.mp hb with hb | hb
    · exact agrees_append (hh block hb) _
    refine blocks_agrees _ _ ?_ block hb
    rw [← hpartEq, ← hS]
    exact agrees_append_right S part _

/-! ## Acknowledgement -/

theorem dropFront_contiguous {a n w : Nat} (h : Contiguous a l w) (hn : a + n ≤ w) :
    Contiguous (a + n) (dropFront n l).1 w := by
  induction l generalizing a n with
  | nil =>
    have : a = w := h
    show a + n = w
    omega
  | cons front rest ih =>
    obtain ⟨hoff, hne, hrest⟩ := h
    have hlen := front.len_eq
    rw [dropFront]
    split
    · next h0 =>
      rw [h0, Nat.add_zero]
      exact ⟨hoff, hne, hrest⟩
    split
    · have := ih hrest (show front.maxOff + (n - front.len) ≤ w by omega)
      rwa [show front.maxOff + (n - front.len) = a + n by omega] at this
    have hmax := front.advance_maxOff (show front.off + n ≤ front.maxOff by omega)
    refine ⟨by rw [RangeBuf.advance_off, hoff], by omega, ?_⟩
    rw [hmax]
    exact hrest

theorem dropFront_agrees (h : ∀ block ∈ l, block.Agrees S) :
    ∀ block ∈ (dropFront n l).1, block.Agrees S := by
  induction l generalizing n with
  | nil => exact h
  | cons front rest ih =>
    rw [dropFront]
    split
    · exact h
    split
    · exact ih (forall_mem_cons.mp h).2
    · exact forall_mem_cons.mpr ((forall_mem_cons.mp h).imp_left fun hfront => hfront.advance n)

/-- The position moves with the blocks that stay. -/
theorem dropFront_posAt {a n w pos : Nat} (h : Contiguous a l w) (hpos : PosAt a l pos x) (hn : a + n ≤ x) :
    PosAt (a + n) (dropFront n l).1 (pos - (dropFront n l).2) x := by
  induction l generalizing a n pos with
  | nil =>
    have hpos0 : pos = 0 := Nat.le_zero.mp hpos.1
    subst hpos0
    exact PosAt.zero _ hn
  | cons front rest ih =>
    obtain ⟨hoff, hne, hrest⟩ := h
    have hlen := front.len_eq
    rw [dropFront]
    split
    · next h0 =>
      rw [h0, Nat.add_zero]
      exact hpos
    cases pos with
    | zero =>
      rw [Nat.zero_sub]
      exact PosAt.zero _ hn
    | succ pos =>
      obtain ⟨hle, m, hm, -, -, hc⟩ := hpos
      split
      · have := @ih front.maxOff (n - front.len) pos hrest ⟨Nat.le_of_succ_le_succ hle, m, hm, hc⟩ (by omega)
        rw [show front.maxOff + (n - front.len) = a + n by omega] at this
        rwa [Nat.add_sub_add_right]
      have hmax := front.advance_maxOff (show front.off + n ≤ front.maxOff by omega)
      refine ⟨hle, m, hm, by rw [RangeBuf.advance_off, hoff], by omega, ?_⟩
      rw [hmax]
      exact hc

/-- `b'` is `b` after `[off, off + len)` was marked as acknowledged, before anything is dropped. -/
structure Marked (b : SendBuf) (off len : Nat) (b' : SendBuf) : Prop where
  same : ∃ acked lost, b' = { b with acked := acked, retransmits := lost }
  acked : ∀ x, x ∈ b'.acked ↔ x ∈ b.acked ∨ off ≤ x ∧ x < off + len
  retransmits : ∀ x, x ∈ b'.retransmits ↔ x ∈ b.retransmits ∧ ¬ (off ≤ x ∧ x < off + len)

/-- What the acknowledgement of `[off, off + len)` leaves. -/
structure Acked (b : SendBuf) (off len : Nat) (b' : SendBuf) : Prop where
  shape : b'.Shape
  writeOff : b'.writeOff = b.writeOff
  unsentOff : b'.unsentOff = b.unsentOff
  finOff : b'.finOff = b.finOff
  acked : ∀ x, x ∈ b'.acked ↔ x ∈ b.acked ∨ off ≤ x ∧ x < off + len
  retransmits : ∀ x, x ∈ b'.retransmits ↔ x ∈ b.retransmits ∧ ¬ (off ≤ x ∧ x < off + len)
  holds : ∀ S, b.Holds S → b'.Holds S

/-- If no block is left, the acknowledged bytes were acknowledged before. -/
theorem ackAndDrop_of_nil (h : b.Shape) (hnil : b.data = [])
    (hsent : off + len ≤ b.unsentOff) : Acked b off len { b with retransmits := .empty } := by
  have hall : ∀ x < b.unsentOff, x ∈ b.acked := fun x hx => h.mem_acked_of_nil hnil hx
  refine ⟨?_, rfl, rfl, rfl, fun x => ?_, fun x => ?_, fun S hS => hS⟩
  · exact { h with
      pos := h.pos.mono (show b.sendOff ≤ b.unsentOff from h.sendOff_le)
      lost_lt := fun x hx => absurd hx not_mem_empty
      lost_unacked := fun x hx => absurd hx not_mem_empty }
  · exact ⟨.inl, fun hx => hx.elim id fun hx => hall x (by omega)⟩
  · have hnone : x ∉ b.retransmits := fun hx => h.lost_unacked x hx (hall x (h.lost_lt x hx))
    exact ⟨fun hx => absurd hx not_mem_empty, fun hx => absurd hx.1 hnone⟩

namespace Marked

variable {b b' : SendBuf} {off len : Nat} (hm : Marked b off len b')
include hm

theorem unsentOff : b'.unsentOff = b.unsentOff := by
  obtain ⟨acked, lost, rfl⟩ := hm.same
  rfl

theorem ackOff_le : b.ackOff ≤ b'.ackOff := by
  by_contra hlt
  exact b'.ackOff_spec.2 ((hm.acked _).mpr (.inl (b.ackOff_spec.1 _ (by omega))))

/-- Behind a gap nothing is acknowledged without holes. -/
theorem ackOff_eq (hgap : b'.ackOff < off) : b'.ackOff = b.ackOff := by
  refine Nat.le_antisymm (Nat.le_of_not_lt fun hlt => ?_) hm.ackOff_le
  rcases (hm.acked _).mp (b'.ackOff_spec.1 b.ackOff hlt) with hx | hx
  · exact b.ackOff_spec.2 hx
  · omega

variable (h : b.Shape)
include h

theorem lost_unacked : ∀ x ∈ b'.retransmits, x ∉ b'.acked := by
  intro x hx hx'
  obtain ⟨hold, hnot⟩ := (hm.retransmits x).mp hx
  exact ((hm.acked x).mp hx').elim (h.lost_unacked x hold) hnot

theorem sendOff_le : b.sendOff ≤ b'.sendOff :=
  sendOff_mono (hm.unsentOff ▸ h.sendOff_le) fun x hx => ((hm.retransmits x).mp hx).1

variable (hsent : off + len ≤ b.unsentOff)
include hsent

theorem acked_lt : ∀ x ∈ b'.acked, x < b'.unsentOff := by
  intro x hx
  rw [hm.unsentOff]
  rcases (hm.acked x).mp hx with hx | hx
  · exact h.acked_lt x hx
  · omega

theorem ackOff_le_unsentOff : b'.ackOff ≤ b.unsentOff := by
  by_contra hlt
  have := hm.acked_lt h hsent b.unsentOff (b'.ackOff_spec.1 _ (by omega))
  rw [hm.unsentOff] at this
  omega

theorem shape {l : List RangeBuf}
    {pos unacked : Nat} (hl : Contiguous b'.ackOff l b.writeOff) (hu : unacked + b'.ackOff = b.writeOff)
    (hpos : PosAt b'.ackOff l pos b'.sendOff) : Shape { b' with data := l, unackedLen := unacked, pos := pos } := by
  have hacked_lt := hm.acked_lt h hsent
  have hlost_unacked := hm.lost_unacked h
  have hlost := hm.retransmits
  obtain ⟨acked, lost, rfl⟩ := hm.same
  exact { h with
    contiguous := hl
    unacked := hu
    pos := hpos
    acked_lt := hacked_lt
    lost_lt := fun x hx => h.lost_lt x ((hlost x).mp hx).1
    lost_unacked := hlost_unacked }

theorem kept (hgap : b'.ackOff < off) : Acked b off len b' := by
  have heq := hm.ackOff_eq hgap
  have hcont := h.contiguous
  have hun := h.unacked
  have hpos := h.pos.mono (hm.sendOff_le h)
  rw [← heq] at hcont hun hpos
  have hshape := hm.shape h hsent hcont hun hpos
  have hacked := hm.acked
  have hlost := hm.retransmits
  obtain ⟨acked, lost, rfl⟩ := hm.same
  exact ⟨hshape, rfl, rfl, rfl, hacked, hlost, fun S hS => hS⟩

/-- The blocks up to the highest offset acknowledged without holes are gone. -/
theorem dropped : Acked b off len { b' with
      data := (dropFront (b'.ackOff - (b.writeOff - b.unackedLen)) b.data).1
      unackedLen := b.unackedLen - (b'.ackOff - (b.writeOff - b.unackedLen))
      pos := b.pos - (dropFront (b'.ackOff - (b.writeOff - b.unackedLen)) b.data).2 } := by
  have hun := h.unacked
  have hle := hm.ackOff_le
  have hwrite := (hm.ackOff_le_unsentOff h hsent).trans h.unsent_le
  have hsend := ackOff_le_sendOff_of (hm.acked_lt h hsent) (hm.lost_unacked h)
  have hadd : b.ackOff + (b'.ackOff - (b.writeOff - b.unackedLen)) = b'.ackOff := by omega
  have hcont := dropFront_contiguous h.contiguous (hadd.trans_le hwrite)
  have hpos := dropFront_posAt h.contiguous (h.pos.mono (hm.sendOff_le h)) (hadd.trans_le hsend)
  rw [hadd] at hcont hpos
  have hshape := hm.shape h hsent hcont
    (show b.unackedLen - (b'.ackOff - (b.writeOff - b.unackedLen)) + b'.ackOff = b.writeOff by omega) hpos
  have hacked := hm.acked
  have hlost := hm.retransmits
  obtain ⟨acked, lost, rfl⟩ := hm.same
  exact ⟨hshape, rfl, rfl, rfl, hacked, hlost, fun S hS => dropFront_agrees hS⟩

end Marked

theorem ackAndDrop_spec (h : b.Shape) (hsent : off + len ≤ b.unsentOff) :
    Acked b off len (b.ackAndDrop off len) := by
  unfold ackAndDrop
  split
  · next hnil => exact ackAndDrop_of_nil h (isEmpty_iff.mp hnil) hsent
  have hm : Marked b off len { b with
      acked := b.acked.insert ⟨off, off + len⟩, retransmits := b.retransmits.remove ⟨off, off + len⟩ } :=
    ⟨⟨_, _, rfl⟩, fun x => mem_insert, fun x => mem_remove⟩
  dsimp only
  split
  · next hgap => exact hm.kept h hsent hgap
  · exact hm.dropped h hsent

/-! ## Loss -/

theorem mem_insertUnacked {rs : List Range} (hrs : rs.Pairwise fun a b => a.stop < b.start)
    (hne : ∀ r ∈ rs, r.start < r.stop) {start stop : Nat} {lost : RangeSet} :
    x ∈ insertUnacked rs start stop lost ↔ x ∈ lost ∨ (start ≤ x ∧ x < stop) ∧ ∀ r ∈ rs, x ∉ r := by
  induction rs generalizing start lost with
  | nil =>
    rw [insertUnacked, mem_insert]
    exact or_congr_right (and_iff_left fun r hr => absurd hr not_mem_nil).symm
  | cons r rs ih =>
    obtain ⟨hlt, hrs⟩ := pairwise_cons.mp hrs
    have ih := @ih hrs fun r hr => hne r (mem_cons_of_mem _ hr)
    have hcons : (∀ r' ∈ r :: rs, x ∉ r') ↔ ¬ (r.start ≤ x ∧ x < r.stop) ∧ ∀ r' ∈ rs, x ∉ r' := forall_mem_cons
    rw [hcons, insertUnacked]
    split_ifs <;> simp only [ih, mem_insert, Range.mem_def] <;> grind

/-- What the loss of `[off, off + len)` leaves. -/
structure Lost (b : SendBuf) (off len : Nat) (b' : SendBuf) : Prop where
  same : ∃ pos lost, b' = { b with pos := pos, retransmits := lost }
  shape : b'.Shape
  retransmits : ∀ x, x ∈ b'.retransmits ↔ x ∈ b.retransmits ∨ (off ≤ x ∧ x < off + len) ∧ x ∉ b.acked

theorem retransmit_spec (h : b.Shape) (hsent : off + len ≤ b.unsentOff) :
    Lost b off len (b.retransmit off len) := by
  unfold retransmit
  split
  · next hskip =>
    -- everything in the range is acknowledged
    refine ⟨⟨_, _, rfl⟩, h, fun x => ⟨.inl, fun hx => hx.elim id fun ⟨hx, hnot⟩ => absurd ?_ hnot⟩⟩
    rcases hskip with hnil | hle
    · exact h.mem_acked_of_nil (isEmpty_iff.mp hnil) (by omega)
    · exact b.ackOff_spec.1 x (by omega)
  have hlost : ∀ x, x ∈ insertUnacked b.acked.ranges off (off + len) b.retransmits ↔
      x ∈ b.retransmits ∨ (off ≤ x ∧ x < off + len) ∧ x ∉ b.acked := by
    intro x
    rw [mem_insertUnacked b.acked.pairwise_ranges fun r hr => start_lt_stop hr]
    refine or_congr_right (and_congr_right fun _ => ?_)
    rw [mem_iff_ranges, not_exists]
    exact forall_congr' fun r => not_and.symm
  generalize insertUnacked _ _ _ _ = lost at *
  have hshape : ∀ pos, PosAt b.ackOff b.data pos ({ b with retransmits := lost } : SendBuf).sendOff →
      Shape { b with pos := pos, retransmits := lost } := fun pos hpos => { h with
    pos := hpos
    lost_lt := fun x hx => ((hlost x).mp hx).elim (h.lost_lt x) fun hx => by dsimp only; omega
    lost_unacked := fun x hx => ((hlost x).mp hx).elim (h.lost_unacked x) And.right }
  dsimp only
  split
  · refine ⟨⟨_, _, rfl⟩, hshape 0 (PosAt.zero _ ?_), hlost⟩
    exact @ackOff_le_sendOff_of { b with retransmits := lost } h.acked_lt
      fun x hx => ((hlost x).mp hx).elim (h.lost_unacked x) And.right
  · next hge => exact ⟨⟨_, _, rfl⟩, hshape b.pos (h.pos.mono (Nat.le_of_not_lt hge)), hlost⟩

theorem updateMaxData_shape (h : b.Shape) (maxData : Nat) : (b.updateMaxData maxData).Shape :=
  { h with write_le := h.write_le.trans (Nat.le_max_left ..) }

end SendBuf

end MoqQuic.L2.Tquic
