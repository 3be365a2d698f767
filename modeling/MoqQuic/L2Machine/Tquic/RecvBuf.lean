import Mathlib.Order.Nat
import MoqQuic.Core.OrdMap
import MoqQuic.Core.Reader

/-!
# The receive buffer of a stream (`connection/stream.rs`, `flowcontrol.rs`)

Received data waits in a B-tree map until the application reads it. The key of
a chunk is its end, since reading moves its start. `write` cuts a new frame
against the chunks that are there: what is already known is dropped, and a
frame that reaches over a chunk is split, its second part being queued for
another turn of the loop. Time stamps and trace ids are left out.

The loop of `write` is written with a bound on its turns, and `none` stands for
a loop that has not ended. `writeLoop_spec` says that it ends and what it leaves.

Results:
* `Shape`: the chunks are disjoint, in order, not yet read, and below
  `recv_off`; every operation keeps it.
* `write_spec`: a frame that is accepted adds exactly its unread numbers.
* `read_spec`: reading takes the data at the front.

Line numbers without a file are those of `stream.rs`.
-/
namespace MoqQuic.L2.Tquic
open List OrdMap
open Reader (Bytes)

/-- The errors of `error.rs` that the modelled functions return. -/
inductive Error where
  | done
  | internalError
  | protocolViolation
  | frameEncodingError
  | flowControlError
  | finalSizeError
  | streamStateError
  | streamLimitError
  | streamStopped (code : Nat)
  | streamReset (code : Nat)
  deriving DecidableEq

/-! ## Flow control (`flowcontrol.rs`) -/

structure FlowControl where
  readOff : Nat
  recvOff : Nat
  maxData : Nat
  window : Nat
  deriving DecidableEq

namespace FlowControl

/-- mirrors flowcontrol.rs:67-74 -/
def new (window : Nat) : FlowControl := ⟨0, 0, window, window⟩

variable (f : FlowControl)

def increaseRecvOff (delta : Nat) : FlowControl := { f with recvOff := f.recvOff + delta }

def increaseReadOff (delta : Nat) : FlowControl := { f with readOff := f.readOff + delta }

/-- mirrors flowcontrol.rs:111-113 -/
def maxDataNext : Nat := f.readOff + f.window

/-- mirrors flowcontrol.rs:116-119 -/
def updateMaxData : FlowControl := { f with maxData := f.maxDataNext }

end FlowControl

/-! ## Chunks -/

/-- Data at an offset of the stream. -/
structure RangeBuf where
  data : Bytes
  off : Nat
  fin : Bool
  deriving DecidableEq

namespace RangeBuf

variable (b : RangeBuf)

def len : Nat := b.data.length

def maxOff : Nat := b.off + b.len

def isEmpty : Bool := b.len == 0

/-- Drop the first `count` bytes. mirrors :2952-2955 -/
def advance (count : Nat) : RangeBuf := { b with data := b.data.drop count, off := b.off + count }

/-- What stays and what is split off. mirrors :2960-2971 -/
def splitOff (count : Nat) : RangeBuf × RangeBuf :=
  (⟨b.data.take count, b.off, false⟩, ⟨b.data.drop count, b.off + count, b.fin⟩)

instance : Membership Nat RangeBuf := ⟨fun b x => b.off ≤ x ∧ x < b.maxOff⟩

variable {b : RangeBuf} {x n : Nat}

theorem mem_def : x ∈ b ↔ b.off ≤ x ∧ x < b.maxOff := Iff.rfl

theorem off_le_maxOff (b : RangeBuf) : b.off ≤ b.maxOff := Nat.le_add_right ..

theorem len_eq (b : RangeBuf) : b.len = b.maxOff - b.off := (Nat.add_sub_cancel_left ..).symm

theorem isEmpty_iff : b.isEmpty = true ↔ b.maxOff = b.off := by
  rw [isEmpty, beq_iff_eq, maxOff]
  omega

@[simp] theorem advance_off : (b.advance n).off = b.off + n := rfl

theorem advance_maxOff (h : b.off + n ≤ b.maxOff) : (b.advance n).maxOff = b.maxOff := by
  have : n ≤ b.data.length := by rw [maxOff, len] at h; omega
  rw [maxOff, advance_off, len, advance, length_drop, maxOff, len]
  omega

theorem advance_to {m : Nat} (hle : b.off ≤ m) (hmax : m ≤ b.maxOff) :
    (b.advance (m - b.off)).off = m ∧ (b.advance (m - b.off)).maxOff = b.maxOff :=
  ⟨by rw [advance_off]; omega, advance_maxOff (by omega)⟩

@[simp] theorem splitOff_fst_off : (b.splitOff n).1.off = b.off := rfl

@[simp] theorem splitOff_snd_off : (b.splitOff n).2.off = b.off + n := rfl

theorem splitOff_fst_maxOff (h : b.off + n ≤ b.maxOff) : (b.splitOff n).1.maxOff = b.off + n := by
  have : n ≤ b.data.length := by rw [maxOff, len] at h; omega
  rw [maxOff, len, splitOff, length_take, Nat.min_eq_left this]

theorem splitOff_snd_maxOff (h : b.off + n ≤ b.maxOff) : (b.splitOff n).2.maxOff = b.maxOff :=
  advance_maxOff h

/-- The bytes of the chunk are those of `S` at its offsets. -/
def Agrees (S : Bytes) (b : RangeBuf) : Prop := ∀ i v, b.data[i]? = some v → S[b.off + i]? = some v

variable {S : Bytes}

theorem Agrees.advance (h : Agrees S b) (n : Nat) : Agrees S (b.advance n) := by
  intro i v hv
  rw [RangeBuf.advance, List.getElem?_drop] at hv
  rw [advance_off, Nat.add_assoc]
  exact h _ v hv

theorem Agrees.splitOff (h : Agrees S b) (n : Nat) : Agrees S (b.splitOff n).1 ∧ Agrees S (b.splitOff n).2 := by
  refine ⟨fun i v hv => h i v ?_, h.advance n⟩
  rw [RangeBuf.splitOff, List.getElem?_take] at hv
  split at hv
  · exact hv
  · cases hv

theorem Agrees.take (h : Agrees S b) (hn : n ≤ b.len) : b.data.take n = (S.drop b.off).take n := by
  refine ext_getElem? fun i => ?_
  rw [List.getElem?_take, List.getElem?_take, List.getElem?_drop]
  split
  · next hi =>
    obtain ⟨v, hv⟩ : ∃ v, b.data[i]? = some v := ⟨_, List.getElem?_eq_getElem (by rw [len] at hn; omega)⟩
    rw [hv, h i v hv]
  · rfl

end RangeBuf

/-! ## The buffer -/

structure RecvBuf where
  data : OrdMap Nat RangeBuf
  readOff : Nat
  recvOff : Nat
  finOff : Option Nat
  error : Option Nat
  shutdown : Bool
  flowControl : FlowControl

namespace RecvBuf
open RangeBuf (mem_def advance_to splitOff_fst_off splitOff_fst_maxOff advance_off advance_maxOff)

/-- mirrors :2035-2040 -/
def new (maxData : Nat) : RecvBuf := ⟨OrdMap.empty, 0, 0, none, none, false, FlowControl.new maxData⟩

def maxData (r : RecvBuf) : Nat := r.flowControl.maxData

variable (r : RecvBuf)

def isFin : Bool := r.finOff == some r.readOff

/-- Cut `buf` against the chunks from its offset on. The first component is what is to be stored (`none`: all of
`buf` is there already), the second the queue with what was split off. mirrors :2117-2148 -/
def overlap : RangeBuf → List RangeBuf → List (Nat × RangeBuf) → Option RangeBuf × List RangeBuf
  | buf, tmp, [] => (some buf, tmp)
  | buf, tmp, (_, b) :: bs =>
    if b.off > buf.maxOff then (some buf, tmp)
    else if buf.off ≥ b.off ∧ buf.maxOff ≤ b.maxOff then (none, tmp)
    else if buf.off ≥ b.off ∧ buf.off < b.maxOff then overlap (buf.advance (b.maxOff - buf.off)) tmp bs
    else if buf.off < b.off ∧ buf.maxOff > b.off then
      let parts := buf.splitOff (b.off - buf.off)
      overlap parts.1 (tmp ++ [parts.2]) bs
    else overlap buf tmp bs

/-- mirrors :2151-2158 -/
def store (buf : RangeBuf) : RecvBuf :=
  { r with
    recvOff := max r.recvOff buf.maxOff
    data := if r.shutdown then r.data else r.data.insert buf.maxOff buf }

/-- The part of a chunk that was not read yet. mirrors :2109-2113 -/
def skipRead (buf : RangeBuf) : RangeBuf :=
  if r.readOff > buf.off then buf.advance (r.readOff - buf.off) else buf

/-- One turn of the outer loop. -/
def place (buf : RangeBuf) (tmp : List RangeBuf) : Option RangeBuf × List RangeBuf :=
  if buf.off < r.recvOff ∨ buf.isEmpty then overlap buf tmp (r.data.rangeFrom buf.off) else (some buf, tmp)

/-- `none`: not ended after that many turns. mirrors :2105-2159 -/
def writeLoop : Nat → RecvBuf → List RangeBuf → Option RecvBuf
  | _, r, [] => some r
  | 0, _, _ :: _ => none
  | n + 1, r, buf :: tmp =>
    match r.place (r.skipRead buf) tmp with
    | (some buf, tmp) => writeLoop n (r.store buf) tmp
    | (none, tmp) => writeLoop n r tmp

/-- The checks of `write`. mirrors :2046-2074 -/
def checkFrame (buf : RangeBuf) : Except Error Unit :=
  if buf.maxOff > r.maxData then .error .flowControlError
  else if r.finOff.any fun f => buf.maxOff > f ∨ buf.fin ∧ f ≠ buf.maxOff then .error .finalSizeError
  else if buf.fin ∧ buf.maxOff < r.recvOff then .error .finalSizeError
  else .ok ()

/-- mirrors :2081-2085 -/
def noteFin (buf : RangeBuf) : RecvBuf :=
  if buf.fin then { r with finOff := some buf.maxOff } else r

/-- What `write` does with a frame that passed the checks, until the end is read. mirrors :2081-2161 -/
def accept (fuel : Nat) (r : RecvBuf) (buf : RangeBuf) : Option RecvBuf :=
  let r := r.noteFin buf
  if buf.fin = false ∧ buf.isEmpty = true then some r
  else if r.readOff ≥ buf.maxOff ∧ buf.isEmpty = false then some r
  else writeLoop fuel r [buf]

/-- `write` with a bound on the turns of its loop; an error changes nothing. mirrors :2043-2162 -/
def writeWith (fuel : Nat) (r : RecvBuf) (offset : Nat) (data : Bytes) (fin : Bool) : Option (Except Error RecvBuf) :=
  match r.checkFrame ⟨data, offset, fin⟩ with
  | .error e => some (.error e)
  | .ok () => if r.isFin then some (.ok r) else (accept fuel r ⟨data, offset, fin⟩).map .ok

/-- A frame of `n` bytes takes at most `n + 1` turns (`writeLoop_spec`). -/
def write (offset : Nat) (data : Bytes) (fin : Bool) : Option (Except Error RecvBuf) :=
  r.writeWith (data.length + 1) offset data fin

/-- mirrors :2224-2229 -/
def ready : Bool := r.data.entries.head?.any fun e => e.2.off == r.readOff

/-- Each turn takes a chunk from the map or is the last, so the number of chunks bounds the turns.
mirrors :2189-2214 -/
def readLoop : Nat → RecvBuf → Nat → Bytes → RecvBuf × Bytes
  | 0, r, _, out => (r, out)
  | n + 1, r, cap, out =>
    match r.data.entries.head? with
    | none => (r, out)
    | some (k, buf) =>
      if cap > 0 ∧ r.ready then
        let bufLen := min buf.len cap
        let out := out ++ buf.data.take bufLen
        if bufLen < buf.len then
          ({ r with readOff := r.readOff + bufLen, data := r.data.insert k (buf.advance bufLen) }, out)
        else
          readLoop n { r with readOff := r.readOff + bufLen, data := r.data.erase k } (cap - bufLen) out
      else (r, out)

/-- The bytes read and whether the end is reached. mirrors :2171-2220 -/
def read (cap : Nat) : RecvBuf × Except Error (Bytes × Bool) :=
  if ¬ r.ready then (r, .error .done)
  else match r.error with
    | some e => ({ r with data := OrdMap.empty }, .error (.streamReset e))
    | none =>
      let done := readLoop r.data.size r cap []
      let r := { done.1 with flowControl := done.1.flowControl.increaseReadOff done.2.length }
      (r, .ok (done.2, r.isFin))

/-- mirrors :2236-2275 -/
def reset (errorCode finalSize : Nat) : Option (Except Error (Nat × RecvBuf)) :=
  if r.finOff.any fun f => f ≠ finalSize then some (.error .finalSizeError)
  else if finalSize < r.recvOff then some (.error .finalSizeError)
  else
    let delta := finalSize - r.recvOff
    if r.error.isSome then some (.ok (delta, r))
    else
      (write { r with error := some errorCode, data := OrdMap.empty } finalSize [] true).map fun written =>
        written.map fun r => (delta, { r with readOff := finalSize })

/-- The number of bytes that nobody will read. mirrors :2280-2298 -/
def shutdownRead : Except Error (Nat × RecvBuf) :=
  if r.shutdown then .error .done
  else .ok (r.recvOff - r.readOff, { r with shutdown := true, data := OrdMap.empty, readOff := r.recvOff })

/-- mirrors :2301-2303 -/
def updateMaxData (r : RecvBuf) : RecvBuf := { r with flowControl := r.flowControl.updateMaxData }

/-! ## Cutting a frame against the chunks -/

section Overlap

variable {es : List (Nat × RangeBuf)} {buf buf' : RangeBuf} {rest : Option RangeBuf}

/-- What a turn of the loop makes of `buf`: `buf'` is stored and `rest` queued. -/
structure Placed (es : List (Nat × RangeBuf)) (buf buf' : RangeBuf) (rest : Option RangeBuf) : Prop where
  off_le : buf.off ≤ buf'.off
  nonempty : buf.off < buf.maxOff → buf'.off < buf'.maxOff
  of_empty : buf.maxOff = buf.off → buf' = buf ∧ rest = none
  apart : ∀ e ∈ es, e.2.maxOff ≤ buf'.off ∧ (buf.maxOff = buf.off → e.2.maxOff < buf'.off) ∨ buf'.maxOff ≤ e.2.off
  maxOff_eq : rest = none → buf'.maxOff = buf.maxOff
  rest_spec : ∀ t ∈ rest, buf'.maxOff ≤ t.off ∧ t.off < t.maxOff ∧ t.maxOff = buf.maxOff ∧ buf.off < t.off
  cover : ∀ x ∈ buf, x ∈ buf' ∨ (∃ t ∈ rest, x ∈ t) ∨ ∃ e ∈ es, x ∈ e.2
  agrees : ∀ S, buf.Agrees S → buf'.Agrees S ∧ ∀ t ∈ rest, t.Agrees S

theorem Placed.maxOff_le (h : Placed es buf buf' rest) : buf'.maxOff ≤ buf.maxOff := by
  cases hr : rest with
  | none => exact le_of_eq (h.maxOff_eq hr)
  | some t =>
    have := h.rest_spec t hr
    omega

/-- A frame that lies before all chunks is stored as it is. -/
theorem overlap_of_le (hne : buf.off < buf.maxOff) (h : ∀ e ∈ es, buf.maxOff ≤ e.2.off) (tmp : List RangeBuf) :
    overlap buf tmp es = (some buf, tmp) := by
  induction es with
  | nil => rfl
  | cons e es ih =>
    have he := h e mem_cons_self
    rw [overlap]
    split
    · rfl
    rw [if_neg (by omega), if_neg (by omega), if_neg (by omega)]
    exact ih fun e he => h e (mem_cons_of_mem _ he)

/-- `buf` overlaps with no chunk. -/
theorem Placed.self (h : ∀ e ∈ es, e.2.maxOff ≤ buf.off ∧ (buf.maxOff = buf.off → e.2.maxOff < buf.off) ∨
    buf.maxOff ≤ e.2.off) : Placed es buf buf none where
  off_le := le_rfl
  nonempty := id
  of_empty := fun _ => ⟨rfl, rfl⟩
  apart := h
  maxOff_eq := fun _ => rfl
  rest_spec := fun _ ht => by cases ht
  cover := fun _ hx => .inl hx
  agrees := fun _ hS => ⟨hS, fun _ ht => by cases ht⟩

/-- Chunks that end before `buf` do not matter. -/
theorem Placed.extend {es' : List (Nat × RangeBuf)} (h : Placed es buf buf' rest) (hsub : ∀ e ∈ es, e ∈ es')
    (hbefore : ∀ e ∈ es', e ∈ es ∨ e.2.maxOff < buf.off) : Placed es' buf buf' rest := by
  refine { h with apart := fun e he => ?_, cover := fun x hx => ?_ }
  · rcases hbefore e he with he | hlt
    · exact h.apart e he
    have := h.off_le
    omega
  exact (h.cover x hx).imp_right (.imp_right fun ⟨e, he, hx⟩ => ⟨e, hsub e he, hx⟩)

variable {e : Nat × RangeBuf}

/-- The chunk `e` lies before or after `buf`. -/
theorem Placed.cons_apart (h : Placed es buf buf' rest)
    (he : e.2.maxOff ≤ buf.off ∧ (buf.maxOff = buf.off → e.2.maxOff < buf.off) ∨ buf.maxOff ≤ e.2.off) :
    Placed (e :: es) buf buf' rest := by
  refine { h with apart := forall_mem_cons.mpr ⟨?_, h.apart⟩, cover := fun x hx => ?_ }
  · have := h.off_le
    have := h.maxOff_le
    omega
  exact (h.cover x hx).imp_right (.imp_right fun ⟨a, ha, hx⟩ => ⟨a, mem_cons_of_mem _ ha, hx⟩)

/-- The chunk `e` holds the front of `buf`, which is cut off. -/
theorem Placed.cons_advance (hoff : e.2.off ≤ buf.off) (hin : buf.off < e.2.maxOff) (hout : e.2.maxOff < buf.maxOff)
    (h : Placed es (buf.advance (e.2.maxOff - buf.off)) buf' rest) : Placed (e :: es) buf buf' rest := by
  obtain ⟨hadv, hmax⟩ := advance_to hin.le hout.le
  obtain ⟨hle, hne, -, hapart, hmaxeq, hrest, hcover, hagrees⟩ := h
  rw [hadv] at hle hne hapart
  rw [hmax] at hne hapart hmaxeq hrest
  refine ⟨by omega, fun _ => hne hout, fun hempty => by omega, fun a ha => ?_, hmaxeq, fun t ht => ?_, fun x hx => ?_,
    fun S hS => hagrees S (hS.advance _)⟩
  · rcases mem_cons.mp ha with rfl | ha
    · exact .inl ⟨hle, fun hempty => by omega⟩
    have := hapart a ha
    omega
  · have := hrest t ht
    omega
  rw [mem_def] at hx
  by_cases hxe : x < e.2.maxOff
  · exact .inr (.inr ⟨e, mem_cons_self, by rw [mem_def]; omega⟩)
  have hx' := hcover x (by rw [mem_def, hadv, hmax]; omega)
  exact hx'.imp_right (.imp_right fun ⟨a, ha, hx⟩ => ⟨a, mem_cons_of_mem _ ha, hx⟩)

/-- The chunk `e` starts inside `buf`, which is split there. -/
theorem Placed.cons_split (hoff : buf.off < e.2.off) (hin : e.2.off < buf.maxOff)
    (hafter : ∀ a ∈ es, e.2.off ≤ a.2.off) :
    Placed (e :: es) buf (buf.splitOff (e.2.off - buf.off)).1 (some (buf.splitOff (e.2.off - buf.off)).2) := by
  have hbound : buf.off + (e.2.off - buf.off) ≤ buf.maxOff := by omega
  have h1 := splitOff_fst_maxOff hbound
  have h2 := RangeBuf.splitOff_snd_maxOff hbound
  have h3 : (buf.splitOff (e.2.off - buf.off)).2.off = e.2.off := by rw [RangeBuf.splitOff_snd_off]; omega
  refine ⟨le_rfl, fun _ => ?_, fun hempty => by omega, fun a ha => .inr ?_, fun hno => (by cases hno), ?_,
    fun x hx => ?_, fun S hS => ?_⟩
  · rw [h1, splitOff_fst_off]
    omega
  · rcases mem_cons.mp ha with rfl | ha
    · omega
    have := hafter a ha
    omega
  · rintro t ⟨rfl⟩
    omega
  · rw [mem_def] at hx
    by_cases hxe : x < e.2.off
    · exact .inl (by rw [mem_def, h1, splitOff_fst_off]; omega)
    · exact .inr (.inl ⟨_, rfl, by rw [mem_def, h2, h3]; omega⟩)
  · obtain ⟨hfst, hsnd⟩ := hS.splitOff (e.2.off - buf.off)
    exact ⟨hfst, by rintro t ⟨rfl⟩; exact hsnd⟩

/-- All of `buf` is there already, or it is stored up to a rest. The induction is on the chunks. -/
theorem overlap_spec (hsep : es.Pairwise fun a b => a.2.maxOff ≤ b.2.off) (buf : RangeBuf) (tmp : List RangeBuf) :
    (overlap buf tmp es = (none, tmp) ∧ (∀ x ∈ buf, ∃ e ∈ es, x ∈ e.2) ∧ ∃ e ∈ es, buf.maxOff ≤ e.2.maxOff) ∨
    ∃ buf' rest, overlap buf tmp es = (some buf', tmp ++ rest.toList) ∧ Placed es buf buf' rest := by
  induction es generalizing buf with
  | nil => exact .inr ⟨buf, none, by rw [overlap]; simp, Placed.self fun e he => absurd he not_mem_nil⟩
  | cons e es ih =>
    obtain ⟨hfirst, hsep⟩ := pairwise_cons.mp hsep
    have hle := e.2.off_le_maxOff
    rw [overlap]
    split
    · next hbeyond =>
      refine .inr ⟨buf, none, by simp, Placed.self fun a ha => .inr ?_⟩
      rcases mem_cons.mp ha with rfl | ha
      · exact hbeyond.le
      have := hfirst a ha
      omega
    rename_i hbeyond
    split
    · next hcovered =>
      refine .inl ⟨rfl, fun x hx => ⟨e, mem_cons_self, ?_⟩, e, mem_cons_self, hcovered.2⟩
      rw [mem_def] at hx ⊢
      omega
    rename_i hcovered
    split
    · next hfront =>
      obtain ⟨hadv, hmax⟩ := advance_to (b := buf) (m := e.2.maxOff) (by omega) (by omega)
      rcases ih hsep (buf.advance (e.2.maxOff - buf.off)) with ⟨heq, hcover, a, ha, hle'⟩ | ⟨buf', rest, heq, h⟩
      · refine .inl ⟨heq, fun x hx => ?_, a, mem_cons_of_mem _ ha, hmax ▸ hle'⟩
        rw [mem_def] at hx
        by_cases hxe : x < e.2.maxOff
        · exact ⟨e, mem_cons_self, by rw [mem_def]; omega⟩
        obtain ⟨c, hc, hxc⟩ := hcover x (by rw [mem_def, hadv, hmax]; omega)
        exact ⟨c, mem_cons_of_mem _ hc, hxc⟩
      · exact .inr ⟨buf', rest, heq, Placed.cons_advance hfront.1 hfront.2 (by omega) h⟩
    rename_i hfront
    split
    · next hinside =>
      have hafter : ∀ a ∈ es, e.2.off ≤ a.2.off := fun a ha => le_trans hle (hfirst a ha)
      have hmax := splitOff_fst_maxOff (show buf.off + (e.2.off - buf.off) ≤ buf.maxOff by omega)
      refine .inr ⟨_, some _, ?_, Placed.cons_split hinside.1 hinside.2 hafter⟩
      refine overlap_of_le ?_ (fun a ha => ?_) _
      · rw [hmax, splitOff_fst_off]
        omega
      have := hafter a ha
      omega
    · next hinside =>
      rcases ih hsep buf with ⟨heq, hcover, a, ha, hle'⟩ | ⟨buf', rest, heq, h⟩
      · refine .inl ⟨heq, fun x hx => ?_, a, mem_cons_of_mem _ ha, hle'⟩
        obtain ⟨c, hc, hxc⟩ := hcover x hx
        exact ⟨c, mem_cons_of_mem _ hc, hxc⟩
      · exact .inr ⟨buf', rest, heq, h.cons_apart (by omega)⟩

end Overlap

/-! ## The chunks of a buffer -/

/-- The number is received and not yet read. -/
def Covers (x : Nat) : Prop := ∃ e ∈ r.data, x ∈ e.2

def Agrees (S : Bytes) (r : RecvBuf) : Prop := ∀ e ∈ r.data, e.2.Agrees S

structure Chunks (r : RecvBuf) : Prop where
  key : ∀ e ∈ r.data, e.1 = e.2.maxOff
  disjoint : ∀ e ∈ r.data, ∀ e' ∈ r.data, e.1 < e'.1 → e.2.maxOff ≤ e'.2.off
  read_le : ∀ e ∈ r.data, r.readOff ≤ e.2.off
  le_recv : ∀ e ∈ r.data, e.2.maxOff ≤ r.recvOff
  read_le_recv : r.readOff ≤ r.recvOff
  fin_of_empty : ∀ e ∈ r.data, e.2.maxOff = e.2.off → r.finOff ≠ none
  discarded : r.shutdown = true → ∀ e, e ∉ r.data

variable {r r' : RecvBuf} {buf buf' : RangeBuf} {x : Nat}

theorem Chunks.pairwise (h : r.Chunks) : r.data.entries.Pairwise fun a b => a.2.maxOff ≤ b.2.off :=
  r.data.ordered.imp_of_mem fun ha hb hlt => h.disjoint _ ha _ hb hlt

/-- A chunk that overlaps with no other is stored. -/
theorem Chunks.store (h : r.Chunks) (hread : r.readOff ≤ buf.off) (hfin : buf.maxOff = buf.off → r.finOff ≠ none)
    (hapart : ∀ e ∈ r.data, e.2.maxOff ≤ buf.off ∧ (buf.maxOff = buf.off → e.2.maxOff < buf.off) ∨
      buf.maxOff ≤ e.2.off) :
    (r.store buf).Chunks ∧ (r.shutdown = false →
      (buf.maxOff, buf) ∈ (r.store buf).data ∧ ∀ x, (r.store buf).Covers x ↔ r.Covers x ∨ x ∈ buf) := by
  have hle := buf.off_le_maxOff
  cases hshut : r.shutdown with
  | true =>
    have hdata : (r.store buf).data = r.data := by simp [RecvBuf.store, hshut]
    have hnone := h.discarded hshut
    refine ⟨⟨?_, ?_, ?_, ?_, ?_, ?_, fun _ => hdata ▸ hnone⟩, fun hno => by cases hno⟩
    all_goals first
      | rw [hdata]; exact fun e he => absurd he (hnone e)
      | exact le_trans h.read_le_recv (le_max_left _ _)
  | false =>
    have hdata : (r.store buf).data = r.data.insert buf.maxOff buf := by simp [RecvBuf.store, hshut]
    have hmem : ∀ e, e ∈ (r.store buf).data ↔ e = (buf.maxOff, buf) ∨ e ∈ r.data ∧ e.1 ≠ buf.maxOff := by
      intro e
      rw [hdata, mem_insert]
    have hall {P : Nat × RangeBuf → Prop} (hnew : P (buf.maxOff, buf)) (hold : ∀ e ∈ r.data, P e) :
        ∀ e ∈ (r.store buf).data, P e := fun e he => ((hmem e).mp he).elim (· ▸ hnew) fun he => hold e he.1
    refine ⟨⟨hall rfl h.key, fun e he e' he' hlt => ?_, hall hread h.read_le,
      hall (le_max_right _ _) fun e he => le_trans (h.le_recv e he) (le_max_left _ _),
      le_trans h.read_le_recv (le_max_left _ _), hall hfin h.fin_of_empty, ?_⟩, fun _ =>
      ⟨(hmem _).mpr (.inl rfl), fun x => ⟨?_, ?_⟩⟩⟩
    · rcases (hmem e).mp he with rfl | ⟨he, hne⟩ <;> rcases (hmem e').mp he' with rfl | ⟨he', hne'⟩
      · exact absurd hlt (lt_irrefl _)
      · have := hapart e' he'
        have := h.key e' he'
        dsimp only at hlt ⊢
        omega
      · have := hapart e he
        have := h.key e he
        have := e.2.off_le_maxOff
        dsimp only at hlt ⊢
        omega
      · exact h.disjoint e he e' he' hlt
    · exact fun hno => absurd (hno.symm.trans hshut) (by decide)
    · rintro ⟨e, he, hx⟩
      rcases (hmem e).mp he with rfl | ⟨he, -⟩
      · exact .inr hx
      · exact .inl ⟨e, he, hx⟩
    rintro (⟨e, he, hx⟩ | hx)
    · -- a chunk that is replaced has the same end, so it is empty
      refine ⟨e, (hmem e).mpr (.inr ⟨he, fun hk => ?_⟩), hx⟩
      have := hapart e he
      have := h.key e he
      rw [mem_def] at hx
      omega
    · exact ⟨_, (hmem _).mpr (.inl rfl), hx⟩

/-! ## The loop of `write` -/

theorem place_spec (h : r.Chunks) (buf : RangeBuf) :
    (r.place buf [] = (none, []) ∧ (∀ x ∈ buf, r.Covers x) ∧ ∃ e ∈ r.data, buf.maxOff ≤ e.2.maxOff) ∨
    ∃ buf' rest, r.place buf [] = (some buf', rest.toList) ∧ Placed r.data.entries buf buf' rest := by
  unfold place
  split
  · next hover =>
    have hsep : (r.data.rangeFrom buf.off).Pairwise fun a b => a.2.maxOff ≤ b.2.off := h.pairwise.filter _
    rcases overlap_spec hsep buf [] with ⟨heq, hcover, e, he, hle⟩ | ⟨buf', rest, heq, hp⟩
    · refine .inl ⟨heq, fun x hx => ?_, e, (mem_rangeFrom.mp he).1, hle⟩
      obtain ⟨e, he, hx⟩ := hcover x hx
      exact ⟨e, (mem_rangeFrom.mp he).1, hx⟩
    refine .inr ⟨buf', rest, by rw [heq, nil_append], hp.extend ?_ ?_⟩
    · exact fun e he => (mem_rangeFrom.mp he).1
    intro e he
    by_cases hk : buf.off ≤ e.1
    · exact .inl (mem_rangeFrom.mpr ⟨he, hk⟩)
    have := h.key e he
    exact .inr (by omega)
  · next hbeyond =>
    refine .inr ⟨buf, none, rfl, Placed.self fun e he => .inl ?_⟩
    rw [not_or, RangeBuf.isEmpty_iff] at hbeyond
    have := h.le_recv e he
    exact ⟨by omega, fun hempty => absurd hempty hbeyond.2⟩

theorem skipRead_spec (hread : r.readOff < buf.maxOff ∨ buf.maxOff = buf.off ∧ r.readOff ≤ buf.off) :
    (r.skipRead buf).off = max buf.off r.readOff ∧ (r.skipRead buf).maxOff = buf.maxOff ∧
      ∀ S, buf.Agrees S → (r.skipRead buf).Agrees S := by
  unfold skipRead
  split
  · next hlt =>
    refine ⟨by rw [advance_off]; omega, advance_maxOff (by omega), fun S hS => hS.advance _⟩
  · next hge => exact ⟨by omega, rfl, fun S hS => hS⟩

@[simp] theorem writeLoop_nil (n : Nat) (r : RecvBuf) : writeLoop n r [] = some r := by cases n <;> rfl

/-- What a frame leaves that has gone through the loop. -/
structure Written (r : RecvBuf) (buf : RangeBuf) (r' : RecvBuf) : Prop where
  chunks : r'.Chunks
  same : r' = { r with data := r'.data, recvOff := r'.recvOff }
  recvOff : r'.recvOff = max r.recvOff buf.maxOff
  cover : r.shutdown = false → ∀ x, r'.Covers x ↔ r.Covers x ∨ x ∈ buf ∧ r.readOff ≤ x
  pending : r.shutdown = false → ∃ e, e ∈ r'.data
  agrees : ∀ S, r.Agrees S → buf.Agrees S → r'.Agrees S

theorem agrees_store {S : Bytes} (h : r.Agrees S) (hbuf : buf.Agrees S) : (r.store buf).Agrees S := by
  intro e he
  unfold store at he
  split at he
  · exact h e he
  rcases mem_insert.mp he with rfl | ⟨he, -⟩
  · exact hbuf
  · exact h e he

/-- What is stored, what is queued and what was there cover the frame. -/
theorem Placed.cover_iff {rest : Option RangeBuf} (h : Placed r.data.entries buf buf' rest) :
    (r.Covers x ∨ x ∈ buf' ∨ ∃ t ∈ rest, x ∈ t) ↔ r.Covers x ∨ x ∈ buf := by
  have hoff := h.off_le
  have hmax := h.maxOff_le
  constructor
  · rintro (hx | hx | ⟨t, ht, hx⟩)
    · exact .inl hx
    · refine .inr ?_
      rw [mem_def] at hx ⊢
      omega
    have hrest := h.rest_spec t ht
    refine .inr ?_
    rw [mem_def] at hx ⊢
    omega
  rintro (hx | hx)
  · exact .inl hx
  rcases h.cover x hx with hx | hx | hx
  · exact .inr (.inl hx)
  · exact .inr (.inr hx)
  · exact .inl hx

/-- The part of a frame that is placed can be stored. -/
theorem Chunks.placed {rest : Option RangeBuf} (h : r.Chunks) (hp : Placed r.data.entries buf buf' rest)
    (hread : r.readOff ≤ buf.off) (hfin : buf.maxOff = buf.off → r.finOff ≠ none) :
    (r.store buf').Chunks ∧ (r.shutdown = false →
      (buf'.maxOff, buf') ∈ (r.store buf').data ∧ ∀ x, (r.store buf').Covers x ↔ r.Covers x ∨ x ∈ buf') := by
  have hempty : buf'.maxOff = buf'.off → buf.maxOff = buf.off := by
    intro hempty
    have := hp.nonempty
    have := buf.off_le_maxOff
    omega
  refine h.store (hread.trans hp.off_le) (fun he => hfin (hempty he)) fun e he => ?_
  exact (hp.apart e he).imp_left fun h => ⟨h.1, fun he => h.2 (hempty he)⟩

/-- What is left of a frame, `cut`, after what was read before is dropped. -/
theorem Written.of_cut {cut : RangeBuf} (h : Written r cut r') (hoff : cut.off = max buf.off r.readOff)
    (hmax : cut.maxOff = buf.maxOff) (hagrees : ∀ S, buf.Agrees S → cut.Agrees S) : Written r buf r' := { h with
  recvOff := hmax ▸ h.recvOff
  cover := fun hs x => by
    rw [h.cover hs x, mem_def, mem_def, hoff, hmax]
    exact or_congr_right (by omega)
  agrees := fun S hS hbuf => h.agrees S hS (hagrees S hbuf) }

/-- All of the frame is there already. -/
theorem Chunks.written_same (h : r.Chunks) (hcover : ∀ x ∈ buf, r.Covers x)
    (hlast : ∃ e ∈ r.data, buf.maxOff ≤ e.2.maxOff) : Written r buf r := by
  obtain ⟨e, he, hle⟩ := hlast
  have := h.le_recv e he
  refine ⟨h, rfl, by omega, fun _ x => ?_, fun _ => ⟨e, he⟩, fun S hS _ => hS⟩
  exact ⟨.inl, fun hx => hx.elim id fun hx => hcover x hx.1⟩

/-- Nothing of the frame is queued. -/
theorem Chunks.written_store (h : r.Chunks) (hp : Placed r.data.entries buf buf' none) (hread : r.readOff ≤ buf.off)
    (hfin : buf.maxOff = buf.off → r.finOff ≠ none) : Written r buf (r.store buf') := by
  obtain ⟨hstore, hcover⟩ := h.placed hp hread hfin
  refine ⟨hstore, rfl, congrArg (max r.recvOff) (hp.maxOff_eq rfl), fun hs x => ?_, fun hs => ⟨_, (hcover hs).1⟩,
    fun S hS hbuf => agrees_store hS (hp.agrees S hbuf).1⟩
  have hall := hp.cover_iff (x := x)
  simp only [Option.mem_def, reduceCtorEq, false_and, exists_false, or_false] at hall
  rw [(hcover hs).2 x, hall]
  exact or_congr_right ⟨fun hx => ⟨hx, hread.trans hx.1⟩, And.left⟩

/-- The rest of the frame, `t`, is written after its first part. -/
theorem Chunks.written_rest {t : RangeBuf} (h : r.Chunks) (hp : Placed r.data.entries buf buf' (some t))
    (hread : r.readOff ≤ buf.off) (hfin : buf.maxOff = buf.off → r.finOff ≠ none)
    (hw : Written (r.store buf') t r') : Written r buf r' := by
  obtain ⟨-, hcover⟩ := h.placed hp hread hfin
  obtain ⟨hbefore, hnonempty, hmax, hoff⟩ := hp.rest_spec t rfl
  refine { hw with recvOff := ?_, cover := fun hs x => ?_, agrees := fun S hS hbuf => ?_ }
  · rw [hw.recvOff, show (r.store buf').recvOff = max r.recvOff buf'.maxOff from rfl]
    omega
  · have hall := hp.cover_iff (x := x)
    simp only [Option.mem_def, Option.some.injEq, exists_eq_left'] at hall
    have hleft : x ∈ t ∧ r.readOff ≤ x ↔ x ∈ t := ⟨And.left, fun hx => ⟨hx, by have := hx.1; omega⟩⟩
    have hright : x ∈ buf ∧ r.readOff ≤ x ↔ x ∈ buf := ⟨And.left, fun hx => ⟨hx, hread.trans hx.1⟩⟩
    rw [hw.cover hs x, (hcover hs).2 x, show (r.store buf').readOff = r.readOff from rfl, hleft, hright, or_assoc, hall]
  · obtain ⟨hbuf', ht⟩ := hp.agrees S hbuf
    exact hw.agrees S (agrees_store hS hbuf') (ht t rfl)

/-- The loop ends: what is queued is shorter than the frame it was split from, so one turn for each byte and one
more are enough. -/
theorem writeLoop_spec (r : RecvBuf) (buf : RangeBuf) (h : r.Chunks)
    (hread : r.readOff < buf.maxOff ∨ buf.maxOff = buf.off ∧ r.readOff ≤ buf.off)
    (hfin : buf.maxOff = buf.off → r.finOff ≠ none) :
    ∃ r', (∀ n, buf.len ≤ n → writeLoop (n + 1) r [buf] = some r') ∧ Written r buf r' := by
  obtain ⟨hoff, hmax, hagrees⟩ := skipRead_spec hread
  have hlen : buf.maxOff = buf.off + buf.len := rfl
  simp only [writeLoop]
  generalize r.skipRead buf = cut at hoff hmax hagrees
  have hread' : r.readOff ≤ cut.off := by omega
  have hfin' : cut.maxOff = cut.off → r.finOff ≠ none := fun hempty => hfin (by omega)
  rcases place_spec h cut with ⟨heq, hcover, hlast⟩ | ⟨buf', rest, heq, hp⟩
  · simp only [heq]
    exact ⟨r, fun n _ => writeLoop_nil n r, (h.written_same hcover hlast).of_cut hoff hmax hagrees⟩
  simp only [heq]
  cases rest with
  | none => exact ⟨_, fun n _ => writeLoop_nil n _, (h.written_store hp hread' hfin').of_cut hoff hmax hagrees⟩
  | some t =>
    obtain ⟨-, hnonempty, htmax, htoff⟩ := hp.rest_spec t rfl
    have htlen := t.len_eq
    obtain ⟨r', hr', hw⟩ := writeLoop_spec (r.store buf') t (h.placed hp hread' hfin').1
      (.inl (show r.readOff < t.maxOff by omega)) (fun hempty => by omega)
    refine ⟨r', fun n hn => ?_, (h.written_rest hp hread' hfin' hw).of_cut hoff hmax hagrees⟩
    obtain ⟨n, rfl⟩ : ∃ k, n = k + 1 := ⟨n - 1, by omega⟩
    exact hr' n (by omega)
termination_by buf.len

/-! ## `write` -/

/-- The chunks and, once the final size is known, the data up to it. -/
structure Shape (r : RecvBuf) : Prop extends Chunks r where
  recv_eq_fin : ∀ f, r.finOff = some f → r.recvOff = f

/-- A buffer without chunks. -/
theorem Shape.of_empty (hdata : r.data = OrdMap.empty) (hread : r.readOff ≤ r.recvOff)
    (hfin : ∀ f, r.finOff = some f → r.recvOff = f) : r.Shape := by
  have hno : ∀ e, e ∉ r.data := fun e he => not_mem_empty (hdata ▸ he)
  exact ⟨⟨fun e he => absurd he (hno e), fun e he => absurd he (hno e), fun e he => absurd he (hno e),
    fun e he => absurd he (hno e), hread, fun e he => absurd he (hno e), fun _ e => hno e⟩, hfin⟩

theorem Shape.new (maxData : Nat) : (RecvBuf.new maxData).Shape := .of_empty rfl le_rfl fun _ hf => nomatch hf

theorem isFin_iff : r.isFin = true ↔ r.finOff = some r.readOff := beq_iff_eq

theorem checkFrame_ok (h : r.checkFrame buf = .ok ()) :
    buf.maxOff ≤ r.maxData ∧ (∀ f, r.finOff = some f → buf.maxOff ≤ f ∧ (buf.fin = true → f = buf.maxOff)) ∧
      (buf.fin = true → r.recvOff ≤ buf.maxOff) := by
  unfold checkFrame at h
  split at h
  · cases h
  next hmax =>
  split at h
  · cases h
  next hfin =>
  split at h
  · cases h
  next hrecv =>
  refine ⟨by omega, fun f hf => ?_, fun hb => ?_⟩
  · rw [hf, Option.any_some, Bool.not_eq_true, decide_eq_false_iff_not, not_or, not_and] at hfin
    exact ⟨by omega, fun hb => not_not.mp (hfin.2 hb)⟩
  by_contra hlt
  exact hrecv ⟨hb, by omega⟩

/-- What an accepted frame leaves. -/
structure Accepted (r : RecvBuf) (buf : RangeBuf) (r' : RecvBuf) : Prop where
  shape : r'.Shape
  same : r' = { r with data := r'.data, recvOff := r'.recvOff, finOff := r'.finOff }
  finOff : r'.finOff = if buf.fin then some buf.maxOff else r.finOff
  recvOff : r'.recvOff = if buf.fin = false ∧ buf.isEmpty then r.recvOff else max r.recvOff buf.maxOff
  cover : r.shutdown = false → ∀ x, r'.Covers x ↔ r.Covers x ∨ x ∈ buf ∧ r.readOff ≤ x
  keeps : ∀ e ∈ r.data, ∃ e', e' ∈ r'.data
  pending : r.shutdown = false → r.isFin = false → buf.fin = true → buf.isEmpty = true → ∃ e, e ∈ r'.data
  stays : buf.maxOff ≤ r.readOff → buf.isEmpty = false → r'.data = r.data
  agrees : ∀ S, r.Agrees S → buf.Agrees S → r'.Agrees S

theorem Accepted.readOff (h : Accepted r buf r') : r'.readOff = r.readOff := by rw [h.same]

theorem Accepted.shutdown (h : Accepted r buf r') : r'.shutdown = r.shutdown := by rw [h.same]

theorem Accepted.error (h : Accepted r buf r') : r'.error = r.error := by rw [h.same]

theorem Accepted.flowControl (h : Accepted r buf r') : r'.flowControl = r.flowControl := by rw [h.same]

variable (h : r.Shape)
include h

theorem noteFin_spec (buf : RangeBuf) :
    (r.noteFin buf).Chunks ∧ r.noteFin buf = { r with finOff := (r.noteFin buf).finOff } ∧
      (r.noteFin buf).finOff = if buf.fin = true then some buf.maxOff else r.finOff := by
  unfold noteFin
  split
  · exact ⟨{ h with fin_of_empty := fun _ _ _ => Option.some_ne_none _ }, rfl, rfl⟩
  · exact ⟨h.toChunks, rfl, rfl⟩

variable (hcheck : r.checkFrame buf = .ok ())
include hcheck

/-- A frame that passed the checks does not go beyond the final size, and FIN comes with the largest offset. -/
theorem recv_eq_noteFin {f : Nat} (hf : (r.noteFin buf).finOff = some f) : max r.recvOff buf.maxOff = f := by
  obtain ⟨-, hfinal, hrecv⟩ := checkFrame_ok hcheck
  rw [(noteFin_spec h buf).2.2] at hf
  split at hf
  · next hb =>
    have := hrecv hb
    have := Option.some.inj hf
    omega
  have := h.recv_eq_fin f hf
  have := (hfinal f hf).1
  omega

/-- The frame brings no more than the final size: all of it was read before, or it is empty without FIN. -/
theorem Accepted.of_noted (hold : buf.maxOff ≤ r.readOff ∨ buf.fin = false ∧ buf.isEmpty = true)
    (hpending : r.isFin = false → buf.fin = true → buf.isEmpty = false) : Accepted r buf (r.noteFin buf) := by
  obtain ⟨hchunks, hsame, hfin⟩ := noteFin_spec h buf
  have hrecv_eq := fun f => recv_eq_noteFin h hcheck (f := f)
  generalize r.noteFin buf = s at hchunks hsame hfin hrecv_eq
  have hsrecv : s.recvOff = r.recvOff := by rw [hsame]
  have hsdata : s.data = r.data := by rw [hsame]
  have hread_le := h.read_le_recv
  refine ⟨⟨hchunks, fun f hf => ?_⟩, ?_, hfin, ?_, fun _ x => ?_, fun e he => ⟨e, hsdata ▸ he⟩, ?_, fun _ _ => hsdata,
    fun S hS _ e he => hS e (hsdata ▸ he)⟩
  · rcases hold with hold | hold
    · have := hrecv_eq f hf
      omega
    · rw [hfin, hold.1] at hf
      exact hsrecv.trans (h.recv_eq_fin f hf)
  · rw [hsdata, hsrecv]
    exact hsame
  · split
    · exact hsrecv
    · have := hold.resolve_right ‹_›
      omega
  · rw [Covers, Covers, hsdata]
    refine ⟨.inl, fun hx => hx.elim id fun hx => ?_⟩
    rw [mem_def] at hx
    rw [RangeBuf.isEmpty_iff] at hold
    omega
  · exact fun _ hf hb hempty => absurd (hpending hf hb) (by rw [hempty]; decide)

/-- The frame went through the loop. -/
theorem Accepted.of_written (htrivial : ¬ (buf.fin = false ∧ buf.isEmpty = true))
    (hold : ¬ (buf.maxOff ≤ r.readOff ∧ buf.isEmpty = false)) (hw : Written (r.noteFin buf) buf r') :
    Accepted r buf r' := by
  obtain ⟨-, hsame, hfin⟩ := noteFin_spec h buf
  have hrecv_eq := fun f => recv_eq_noteFin h hcheck (f := f)
  generalize r.noteFin buf = s at hsame hfin hrecv_eq hw
  have hsread : s.readOff = r.readOff := by rw [hsame]
  have hsrecv : s.recvOff = r.recvOff := by rw [hsame]
  have hsdata : s.data = r.data := by rw [hsame]
  have hsshut : s.shutdown = r.shutdown := by rw [hsame]
  have hwfin : r'.finOff = s.finOff := by rw [hw.same]
  have hrecv := hw.recvOff
  refine ⟨⟨hw.chunks, fun f hf => ?_⟩, ?_, hwfin.trans hfin, ?_, fun hshut x => ?_, ?_, ?_, ?_, ?_⟩
  · have := hrecv_eq f (hwfin ▸ hf)
    omega
  · rw [hwfin]
    refine hw.same.trans ?_
    rw [hsame]
  · rw [if_neg htrivial, hrecv, hsrecv]
  · rw [hw.cover (hsshut.trans hshut) x, hsread, Covers, hsdata, ← Covers]
  · intro e he
    cases hshut : r.shutdown with
    | true => exact absurd he (h.discarded hshut e)
    | false => exact hw.pending (hsshut.trans hshut)
  · exact fun hshut _ _ _ => hw.pending (hsshut.trans hshut)
  · exact fun hle hne => absurd ⟨hle, hne⟩ hold
  · exact fun S hS hb => hw.agrees S (fun e he => hS e (hsdata ▸ he)) hb

theorem accept_spec : ∃ r', (∀ n, buf.len + 1 ≤ n → accept n r buf = some r') ∧ Accepted r buf r' := by
  obtain ⟨hchunks, hsame, hfin⟩ := noteFin_spec h buf
  have hsread : (r.noteFin buf).readOff = r.readOff := by rw [hsame]
  unfold accept
  by_cases htrivial : buf.fin = false ∧ buf.isEmpty = true
  · exact ⟨_, fun n _ => if_pos htrivial, .of_noted h hcheck (.inr htrivial) (by simp [htrivial.1])⟩
  simp only [if_neg htrivial, hsread]
  by_cases hold : r.readOff ≥ buf.maxOff ∧ buf.isEmpty = false
  · exact ⟨_, fun n _ => if_pos hold, .of_noted h hcheck (.inl hold.1) fun _ _ => hold.2⟩
  have hfin_of_empty : buf.isEmpty = true → buf.fin = true := by
    intro hempty
    by_contra hb
    exact htrivial ⟨Bool.not_eq_true _ ▸ hb, hempty⟩
  have hread : r.readOff < buf.maxOff ∨ buf.maxOff = buf.off ∧ r.readOff ≤ buf.off := by
    cases hempty : buf.isEmpty with
    | true =>
      have := RangeBuf.isEmpty_iff.mp hempty
      have := (checkFrame_ok hcheck).2.2 (hfin_of_empty hempty)
      have := h.read_le_recv
      omega
    | false => exact .inl (Nat.lt_of_not_le fun hle => hold ⟨hle, hempty⟩)
  have hfinne : buf.maxOff = buf.off → (r.noteFin buf).finOff ≠ none := by
    intro hempty
    rw [hfin, if_pos (hfin_of_empty (RangeBuf.isEmpty_iff.mpr hempty))]
    exact Option.some_ne_none _
  obtain ⟨r', hr', hw⟩ := writeLoop_spec _ buf hchunks (hsread ▸ hread) hfinne
  refine ⟨r', fun n hn => (if_neg hold).trans ?_, .of_written h hcheck htrivial hold hw⟩
  obtain ⟨n, rfl⟩ : ∃ k, n = k + 1 := ⟨n - 1, by omega⟩
  exact hr' n (by omega)

omit hcheck

/-- `write` returns, with any bound of at least one turn for each byte and one more. An error comes from the
checks. -/
theorem write_spec (offset : Nat) (data : Bytes) (fin : Bool) :
    ∃ res, (∀ n, data.length + 1 ≤ n → r.writeWith n offset data fin = some res) ∧
      match res with
      | .error e => r.checkFrame ⟨data, offset, fin⟩ = .error e
      | .ok r' => r.checkFrame ⟨data, offset, fin⟩ = .ok () ∧ Accepted r ⟨data, offset, fin⟩ r' := by
  unfold writeWith
  cases hcheck : r.checkFrame ⟨data, offset, fin⟩ with
  | error e => exact ⟨.error e, fun _ _ => rfl, rfl⟩
  | ok _ =>
    cases hisFin : r.isFin with
    | true =>
      -- the application has read everything
      obtain ⟨-, hfinal, -⟩ := checkFrame_ok hcheck
      have hf := isFin_iff.mp hisFin
      obtain ⟨hle, heq⟩ := hfinal _ hf
      have hnote : r.noteFin ⟨data, offset, fin⟩ = r := by
        unfold noteFin
        split
        · next hb => rw [← heq hb, ← hf]
        · rfl
      have hacc := Accepted.of_noted h hcheck (.inl hle) fun hno => by rw [hisFin] at hno; cases hno
      rw [hnote] at hacc
      exact ⟨.ok r, fun _ _ => rfl, rfl, hacc⟩
    | false =>
      obtain ⟨r', hr', hacc⟩ := accept_spec h hcheck
      exact ⟨.ok r', fun n hn => by rw [hr' n hn]; rfl, rfl, hacc⟩

theorem write_cases (offset : Nat) (data : Bytes) (fin : Bool) :
    (∃ e, r.write offset data fin = some (.error e) ∧ r.checkFrame ⟨data, offset, fin⟩ = .error e) ∨
      ∃ r', r.write offset data fin = some (.ok r') ∧ r.checkFrame ⟨data, offset, fin⟩ = .ok () ∧
        Accepted r ⟨data, offset, fin⟩ r' := by
  obtain ⟨res, hres, hspec⟩ := write_spec h offset data fin
  have hwrite := hres _ le_rfl
  cases res with
  | error e => exact .inl ⟨e, hwrite, hspec⟩
  | ok r' => exact .inr ⟨r', hwrite, hspec⟩

omit h

/-! ## `read` -/

theorem ready_iff : r.ready = true ↔ ∃ e, r.data.entries.head? = some e ∧ e.2.off = r.readOff := by
  rw [ready, Option.any_eq_true]
  simp only [beq_iff_eq]

/-- The chunk at the front comes before all others. -/
theorem Chunks.head_le (h : r.Chunks) {e e' : Nat × RangeBuf} (he : r.data.entries.head? = some e) (he' : e' ∈ r.data) :
    e' = e ∨ e.1 < e'.1 ∧ e.2.maxOff ≤ e'.2.off := by
  obtain ⟨es, hes⟩ := List.head?_eq_some_iff.mp he
  have hord := r.data.ordered
  rw [OrdMap.mem_def] at he'
  rw [hes] at hord he'
  rcases mem_cons.mp he' with rfl | hmem
  · exact .inl rfl
  have hlt := (pairwise_cons.mp hord).1 e' hmem
  refine .inr ⟨hlt, h.disjoint e ?_ e' ?_ hlt⟩
  · exact mem_of_head? he
  rw [OrdMap.mem_def, hes]
  exact he'

/-- If nothing is ready, the next number was not received. -/
theorem Chunks.not_covers_readOff (h : r.Chunks) (hready : r.ready = false) : ¬ r.Covers r.readOff := by
  rintro ⟨e', he', hx⟩
  rw [mem_def] at hx
  cases hhead : r.data.entries.head? with
  | none =>
    rw [OrdMap.mem_def, List.head?_eq_none_iff.mp hhead] at he'
    exact not_mem_nil he'
  | some e =>
    have hoff : e.2.off ≠ r.readOff := by
      intro heq
      rw [ready_iff.mpr ⟨e, hhead, heq⟩] at hready
      cases hready
    have hge := h.read_le e (mem_of_head? hhead)
    have := e.2.off_le_maxOff
    rcases h.head_le hhead he' with rfl | ⟨-, hle⟩ <;> omega

/-- What the loop of `read` has done when it has given out `got`. -/
structure Taken (r : RecvBuf) (got : Bytes) (r' : RecvBuf) : Prop where
  chunks : r'.Chunks
  recvOff : r'.recvOff = r.recvOff
  finOff : r'.finOff = r.finOff
  error : r'.error = r.error
  shutdown : r'.shutdown = r.shutdown
  readOff : r'.readOff = r.readOff + got.length
  was : ∀ x, r.readOff ≤ x → x < r'.readOff → r.Covers x
  cover : ∀ x, r'.Covers x ↔ r.Covers x ∧ r'.readOff ≤ x
  bytes : ∀ S, r.Agrees S → got = (S.drop r.readOff).take got.length ∧ r'.Agrees S

theorem Taken.refl (h : r.Chunks) : Taken r [] r where
  chunks := h
  recvOff := rfl
  finOff := rfl
  error := rfl
  shutdown := rfl
  readOff := rfl
  was := fun x hge hlt => by omega
  cover := fun x => ⟨fun hx => ⟨hx, by
    obtain ⟨e, he, hx⟩ := hx
    exact le_trans (h.read_le e he) hx.1⟩, And.left⟩
  bytes := fun S hS => ⟨by simp, hS⟩

theorem Taken.trans {s : RecvBuf} {got got' : Bytes} (h : Taken r got s) (h' : Taken s got' r') :
    Taken r (got ++ got') r' where
  chunks := h'.chunks
  recvOff := h'.recvOff.trans h.recvOff
  finOff := h'.finOff.trans h.finOff
  error := h'.error.trans h.error
  shutdown := h'.shutdown.trans h.shutdown
  readOff := by
    rw [h'.readOff, h.readOff, length_append]
    omega
  was := fun x hge hlt => by
    by_cases hx : x < s.readOff
    · exact h.was x hge hx
    · exact ((h.cover x).mp (h'.was x (by omega) hlt)).1
  cover := fun x => by
    rw [h'.cover, h.cover]
    have := h'.readOff
    exact ⟨fun hx => ⟨hx.1.1, hx.2⟩, fun hx => ⟨⟨hx.1, by omega⟩, hx.2⟩⟩
  bytes := fun S hS => by
    obtain ⟨hgot, hs⟩ := h.bytes S hS
    obtain ⟨hgot', hr'⟩ := h'.bytes S hs
    refine ⟨?_, hr'⟩
    rw [length_append, take_add, ← hgot, drop_drop, ← h.readOff, ← hgot']

/-- The first `n` bytes of the chunk at the front are taken; it stays if there are more. -/
theorem Chunks.take (h : r.Chunks) {k n : Nat} (hhead : r.data.entries.head? = some (k, buf))
    (hoff : buf.off = r.readOff) (hn : n ≤ buf.len) {data : OrdMap Nat RangeBuf}
    (hdata : ∀ e, e ∈ data ↔ n < buf.len ∧ e = (k, buf.advance n) ∨ e ∈ r.data ∧ e.1 ≠ k) :
    Taken r (buf.data.take n) { r with readOff := r.readOff + n, data } := by
  have hmem := mem_of_head? hhead
  have hlen := buf.len_eq
  have hmax := buf.off_le_maxOff
  have hadv : (buf.advance n).maxOff = buf.maxOff := advance_maxOff (by omega)
  have hadvoff : (buf.advance n).off = buf.off + n := rfl
  have hold : ∀ e ∈ r.data, e.1 ≠ k → k < e.1 ∧ buf.maxOff ≤ e.2.off := fun e he hk =>
    (h.head_le hhead he).resolve_left fun heq => hk (congrArg Prod.fst heq)
  have htake : (buf.data.take n).length = n := by
    rw [length_take]
    exact Nat.min_eq_left hn
  have hall {P : Nat × RangeBuf → Prop} (hnew : n < buf.len → P (k, buf.advance n))
      (hkeep : ∀ e ∈ r.data, e.1 ≠ k → P e) : ∀ e ∈ data, P e := fun e he =>
    ((hdata e).mp he).elim (fun hlt => hlt.2 ▸ hnew hlt.1) fun he => hkeep e he.1 he.2
  refine ⟨⟨hall (fun _ => (h.key _ hmem).trans hadv.symm) fun e he _ => h.key e he, fun e he e' he' hlt => ?_,
    hall (fun _ => ?_) fun e he hk => ?_, hall (fun _ => hadv.le.trans (h.le_recv _ hmem)) fun e he _ => h.le_recv e he,
    ?_, hall (fun hlt hempty => ?_) fun e he _ => h.fin_of_empty e he, fun hshut e _ => h.discarded hshut _ hmem⟩,
    rfl, rfl, rfl, rfl, congrArg (r.readOff + ·) htake.symm, fun x hge hlt => ⟨_, hmem, ?_⟩, fun x => ⟨?_, ?_⟩,
    fun S hS => ⟨?_, hall (fun _ => (hS _ hmem).advance n) fun e he _ => hS e he⟩⟩
  · rcases (hdata e).mp he with ⟨-, rfl⟩ | ⟨he, hk⟩ <;> rcases (hdata e').mp he' with ⟨-, rfl⟩ | ⟨he', hk'⟩
    · exact absurd hlt (lt_irrefl _)
    · exact hadv.le.trans (hold e' he' hk').2
    · exact absurd (hold e he hk).1 (not_lt.mpr hlt.le)
    · exact h.disjoint e he e' he' hlt
  · rw [hadvoff, hoff]
  · have := (hold e he hk).2
    dsimp only
    omega
  · have := h.le_recv _ hmem
    dsimp only at this ⊢
    omega
  · dsimp only at hempty
    omega
  · dsimp only at hlt
    rw [mem_def]
    dsimp only
    omega
  · rintro ⟨e, he, hx⟩
    rcases (hdata e).mp he with ⟨-, rfl⟩ | ⟨he, hk⟩
    · rw [mem_def, hadv, hadvoff] at hx
      dsimp only
      exact ⟨⟨_, hmem, by rw [mem_def]; dsimp only; omega⟩, by omega⟩
    have := (hold e he hk).2
    refine ⟨⟨e, he, hx⟩, ?_⟩
    rw [mem_def] at hx
    dsimp only
    omega
  · rintro ⟨⟨e, he, hx⟩, hge⟩
    by_cases hk : e.1 = k
    · rw [eq_of_key_eq he hmem hk, mem_def] at hx
      dsimp only at hx hge
      refine ⟨_, (hdata _).mpr (.inl ⟨by omega, rfl⟩), ?_⟩
      rw [mem_def, hadv, hadvoff]
      omega
    · exact ⟨e, (hdata e).mpr (.inr ⟨he, hk⟩), hx⟩
  · rw [htake, ← hoff]
    exact (hS _ hmem).take hn

theorem Chunks.takePart (h : r.Chunks) {k n : Nat} (hhead : r.data.entries.head? = some (k, buf))
    (hoff : buf.off = r.readOff) (hn : n < buf.len) :
    Taken r (buf.data.take n) { r with readOff := r.readOff + n, data := r.data.insert k (buf.advance n) } := by
  refine h.take hhead hoff hn.le fun e => ?_
  rw [mem_insert, and_iff_right hn]

theorem Chunks.takeAll (h : r.Chunks) {k : Nat} (hhead : r.data.entries.head? = some (k, buf))
    (hoff : buf.off = r.readOff) :
    Taken r buf.data { r with readOff := r.readOff + buf.len, data := r.data.erase k } := by
  have hdata : ∀ e, e ∈ r.data.erase k ↔
      buf.len < buf.len ∧ e = (k, buf.advance buf.len) ∨ e ∈ r.data ∧ e.1 ≠ k := fun e => by
    rw [mem_erase, or_iff_right fun hno => absurd hno.1 (lt_irrefl _)]
  have htaken := h.take hhead hoff (le_refl buf.len) hdata
  rwa [RangeBuf.len, take_length] at htaken

theorem readLoop_spec (n : Nat) (r : RecvBuf) (cap : Nat) (out : Bytes) (h : r.Chunks) (hsize : r.data.size ≤ n) :
    ∃ got, (readLoop n r cap out).2 = out ++ got ∧ got.length ≤ cap ∧ Taken r got (readLoop n r cap out).1 ∧
      (got.length < cap → (readLoop n r cap out).1.ready = false) ∧ (readLoop n r cap out).1.flowControl =
      r.flowControl := by
  induction n generalizing r cap out with
  | zero =>
    refine ⟨[], (append_nil _).symm, Nat.zero_le _, Taken.refl h, fun _ => ?_, rfl⟩
    rw [readLoop, ready, eq_nil_of_length_eq_zero (Nat.le_zero.mp hsize)]
    rfl
  | succ n ih =>
    rw [readLoop]
    cases hhead : r.data.entries.head? with
    | none =>
      refine ⟨[], (append_nil _).symm, Nat.zero_le _, Taken.refl h, fun _ => ?_, rfl⟩
      rw [ready, hhead]
      rfl
    | some e =>
      obtain ⟨k, buf⟩ := e
      dsimp only
      split
      · next hgo =>
        obtain ⟨e, he, hoff⟩ := ready_iff.mp hgo.2
        cases hhead.symm.trans he
        split
        · next hpart =>
          have hcap : min buf.len cap = cap := by omega
          rw [hcap] at hpart ⊢
          have hlen : (buf.data.take cap).length = cap := by
            rw [length_take]
            rw [RangeBuf.len] at hpart
            omega
          refine ⟨_, rfl, hlen.le, h.takePart hhead hoff hpart, fun hlt => ?_, rfl⟩
          omega
        rename_i hall
        have hfull : min buf.len cap = buf.len := by omega
        rw [hfull, RangeBuf.len, take_length, ← RangeBuf.len]
        have htaken := h.takeAll hhead hoff
        have hmem := mem_of_head? hhead
        have hsmaller : (r.data.erase k).size ≤ n := by
          have := size_erase_lt hmem
          dsimp only at this
          omega
        obtain ⟨got, hout, hle, hgot, hdone, hfc⟩ := ih _ (cap - buf.len) (out ++ buf.data) htaken.chunks hsmaller
        refine ⟨buf.data ++ got, by rw [hout, append_assoc], ?_, htaken.trans hgot, fun hlt => hdone ?_, hfc⟩
        all_goals
          rw [length_append] at *
          rw [RangeBuf.len] at *
          omega
      · next hstop =>
        refine ⟨[], (append_nil _).symm, Nat.zero_le _, Taken.refl h, fun hlt => ?_, rfl⟩
        by_contra hready
        exact hstop ⟨hlt, Bool.not_eq_false _ ▸ hready⟩

/-- A read of a stream that is not reset: `Done` if nothing is ready, else the data at the front. -/
theorem read_spec (h : r.Shape) (herr : r.error = none) (cap : Nat) :
    (r.ready = false ∧ r.read cap = (r, .error .done)) ∨
    (r.ready = true ∧ ∃ got s, r.read cap = (s, .ok (got, s.isFin)) ∧ got.length ≤ cap ∧ s.Shape ∧ Taken r got s ∧
      (got.length < cap → s.ready = false) ∧ s.flowControl = r.flowControl.increaseReadOff got.length) := by
  unfold read
  cases hready : r.ready with
  | false => exact .inl ⟨rfl, rfl⟩
  | true =>
    refine .inr ⟨rfl, ?_⟩
    simp only [herr]
    obtain ⟨got, hout, hle, htaken, hdone, hfc⟩ := readLoop_spec r.data.size r cap [] h.toChunks le_rfl
    generalize readLoop r.data.size r cap [] = res at hout htaken hdone hfc
    obtain ⟨s, out⟩ := res
    subst hout
    -- the flow control of the stream is no part of what `Taken` speaks about
    obtain ⟨hc, hrecv, hfin, herror, hshut, hread, hwas, hcover, hbytes⟩ := htaken
    have hc' : ({ s with flowControl := s.flowControl.increaseReadOff out.length } : RecvBuf).Chunks := { hc with }
    refine ⟨out, { s with flowControl := s.flowControl.increaseReadOff out.length }, rfl, hle, ⟨hc', fun f hf => ?_⟩,
      ⟨hc', hrecv, hfin, herror, hshut, hread, hwas, hcover, hbytes⟩, hdone, by rw [hfc]⟩
    exact hrecv.trans (h.recv_eq_fin f (hfin ▸ hf))

/-! ## `reset` and `shutdown` -/

theorem Shape.discard (h : r.Shape) {error : Option Nat} {shutdown : Bool} {readOff : Nat}
    (hread : readOff ≤ r.recvOff) : Shape { r with data := OrdMap.empty, error, shutdown, readOff } :=
  .of_empty rfl hread h.recv_eq_fin

/-- An empty chunk with the end of the stream, in a buffer without chunks. -/
theorem write_fin_of_empty (hdata : r.data = OrdMap.empty) {final : Nat} (hread : r.readOff ≤ final)
    (hcheck : r.checkFrame ⟨[], final, true⟩ = .ok ()) :
    r.write final [] true = some (.ok (if r.isFin then r else
      { r with
        finOff := some final
        recvOff := max r.recvOff final
        data := if r.shutdown then OrdMap.empty else OrdMap.empty.insert final ⟨[], final, true⟩ })) := by
  rw [write, writeWith, hcheck]
  dsimp only
  split
  · rfl
  have hskip : (r.noteFin ⟨[], final, true⟩).skipRead ⟨[], final, true⟩ = ⟨[], final, true⟩ :=
    if_neg (Nat.not_lt.mpr hread)
  have hplace : (r.noteFin ⟨[], final, true⟩).place ⟨[], final, true⟩ [] = (some ⟨[], final, true⟩, []) := by
    rw [place, if_pos (.inr rfl), noteFin, if_pos rfl, hdata]
    rfl
  rw [accept, if_neg (by simp), if_neg (by simp [RangeBuf.isEmpty, RangeBuf.len]), length_nil, writeLoop, hskip,
    hplace]
  dsimp only
  rw [writeLoop_nil, Option.map_some, store, noteFin, if_pos rfl, hdata]
  rfl

/-- A buffer with nothing but the end of the stream. -/
theorem shape_fin (r : RecvBuf) {final : Nat} (hle : r.recvOff ≤ final) : Shape { r with
    finOff := some final
    recvOff := max r.recvOff final
    readOff := final
    data := if r.shutdown then OrdMap.empty else OrdMap.empty.insert final ⟨[], final, true⟩ } := by
  have hempty : Shape { r with finOff := some final, recvOff := final, readOff := final, data := OrdMap.empty } :=
    .of_empty rfl le_rfl fun f hf => Option.some.inj hf
  have hstore := (hempty.store (le_refl (RangeBuf.mk [] final true).off) (fun _ => Option.some_ne_none _)
    fun e he => absurd he not_mem_empty).1
  rw [max_eq_right hle]
  simp only [store, RangeBuf.maxOff, RangeBuf.len, length_nil, Nat.add_zero, max_self] at hstore
  exact ⟨hstore, hempty.recv_eq_fin⟩

/-- What a reset leaves: everything up to the final size counts as read. -/
structure ResetDone (r : RecvBuf) (final : Nat) (r' : RecvBuf) : Prop where
  shape : r'.Shape
  recvOff : r'.recvOff = final
  readOff : r'.readOff = final
  finOff : r'.finOff = some final
  recv_le : r.recvOff ≤ final

theorem reset_cases (h : r.Shape) (herr : r.error.isSome = true → r.finOff = some r.readOff) (code final : Nat) :
    (∃ e, r.reset code final = some (.error e)) ∨
      ∃ r', r.reset code final = some (.ok (final - r.recvOff, r')) ∧ ResetDone r final r' := by
  unfold reset
  split
  · exact .inl ⟨_, rfl⟩
  next hfin =>
  split
  · exact .inl ⟨_, rfl⟩
  next hle =>
  have hle := Nat.le_of_not_lt hle
  have hsame : ∀ f, r.finOff = some f → f = final := fun f hf => by
    rw [hf, Option.any_some, Bool.not_eq_true, decide_eq_false_iff_not, not_not] at hfin
    exact hfin
  split
  · next hdup =>
    have hfin := herr hdup
    have hread := hsame _ hfin
    have hrecv := h.recv_eq_fin _ hfin
    exact .inr ⟨r, rfl, h, hrecv.trans hread, hread, hfin.trans (congrArg some hread), hle⟩
  have hdata : ({ r with error := some code, data := OrdMap.empty } : RecvBuf).data = OrdMap.empty := rfl
  have hread := h.read_le_recv.trans hle
  cases hcheck : ({ r with error := some code, data := OrdMap.empty } : RecvBuf).checkFrame ⟨[], final, true⟩ with
  | error e =>
    rw [write, writeWith, hcheck]
    exact .inl ⟨e, rfl⟩
  | ok =>
    rw [write_fin_of_empty hdata hread hcheck]
    refine .inr ⟨_, rfl, ?_⟩
    split
    · next hisFin =>
      have hfinal := isFin_iff.mp hisFin
      have hrecv := (h.recv_eq_fin _ hfinal).trans (hsame _ hfinal)
      exact ⟨h.discard hrecv.ge, hrecv, rfl, hfinal.trans (congrArg some (hsame _ hfinal)), hle⟩
    · exact ⟨shape_fin { r with error := some code } hle, max_eq_right hle, rfl, rfl, hle⟩

theorem Shape.not_ready (h : r.Shape) (hshut : r.shutdown = true) : r.ready = false := by
  rw [← Bool.not_eq_true, ready_iff]
  rintro ⟨e, he, -⟩
  exact h.discarded hshut e (mem_of_head? he)

/-- A read fails and changes no more than the chunks, or it gives out the data at the front of a stream that is neither
reset nor shut down. -/
theorem read_cases (h : r.Shape) (cap : Nat) :
    (∃ e r', r.read cap = (r', .error e) ∧ r'.Shape ∧ r' = { r with data := r'.data }) ∨
      r.shutdown = false ∧ ∃ got s, r.read cap = (s, .ok (got, s.isFin)) ∧ s.Shape ∧ Taken r got s := by
  by_cases herr : r.error = none
  · rcases read_spec h herr cap with ⟨-, heq⟩ | ⟨hready, got, s, heq, -, hshape, htaken, -⟩
    · exact .inl ⟨_, r, heq, h, rfl⟩
    refine .inr ⟨?_, got, s, heq, hshape, htaken⟩
    by_contra hshut
    rw [h.not_ready ((Bool.not_eq_false _).mp hshut)] at hready
    cases hready
  obtain ⟨code, hcode⟩ := Option.ne_none_iff_exists'.mp herr
  refine .inl ?_
  unfold read
  split
  · exact ⟨_, r, rfl, h, rfl⟩
  rw [hcode]
  exact ⟨_, _, rfl, h.discard h.read_le_recv, rfl⟩

theorem Shape.updateMaxData (h : r.Shape) : r.updateMaxData.Shape := { h with }

end RecvBuf

end MoqQuic.L2.Tquic
