import Mathlib.Algebra.Order.Ring.Int
import MoqQuic.Core.Chunks
import MoqQuic.Core.Intervals
import MoqQuic.Core.Reader

/-!
# The frame sorter (`frame_sorter.go`)

Stream and crypto data that arrives out of order waits in a map from offsets to
frames; beside it stands the list of the gaps, the offsets that have not
arrived. `push` finds the gaps in which a frame starts and ends. It replaces
queued frames that lie within the new one, and cuts the new one where it would
lie across a queued one.

A pointer into the linked list of gaps is the list around the element it points
to. A callback is a value of any type `C`; a function that runs callbacks
returns them in the order in which it runs them. A panic is a result as well:
an empty list of gaps, a search that ends without a gap, a slice out of range.
The loops over queued frames are bounded by the size of the queue, since every
turn takes one out.

Line numbers without a file are those of `frame_sorter.go`.
-/
namespace MoqQuic.L2.Quic
open Reader (Bytes)

/-- mirrors protocol.go:101-102 -/
def maxByteCount : Nat := 2 ^ 62 - 1

/-- mirrors params.go:79-86 -/
abbrev maxStreamFrameSorterGaps : Nat := 10000
abbrev minStreamFrameBufferSize : Nat := 128

abbrev ByteInterval := Interval Nat

structure FrameSorterEntry (C : Type) where
  data : Bytes
  doneCb : Option C
  deriving DecidableEq

abbrev FrameQueue (C : Type) := OrdMap Nat (FrameSorterEntry C)

structure FrameSorter (C : Type) where
  queue : FrameQueue C
  readPos : Nat
  gaps : List ByteInterval

/-- How `push` ends if it does not queue the frame. When there are too many gaps, what has been changed stays so. -/
inductive PushError (C : Type) where
  | panic
  | duplicateStreamData
  | tooManyGaps (left : FrameSorter C) (called : List C)

/-- An element of the list of gaps. -/
structure GapElement where
  before : List ByteInterval
  gap : ByteInterval
  after : List ByteInterval

/-! ## The searches -/

/-- mirrors :180-190 -/
def findStartGap (offset : Nat) : List ByteInterval → Option (GapElement × Bool)
  | [] => none
  | gap :: gaps =>
    if gap.start ≤ offset ∧ offset ≤ gap.stop then some (⟨[], gap, gaps⟩, true)
    else if offset < gap.start then some (⟨[], gap, gaps⟩, false)
    else (findStartGap offset gaps).map fun r => ({ r.1 with before := gap :: r.1.before }, r.2)

/-- The search in the gaps from `startGap` on. The gap found may be the one before these, which is `none` here.
mirrors :192-202 -/
def findEndGap (offset : Nat) : List ByteInterval → Option (Option GapElement × Bool)
  | [] => none
  | gap :: gaps =>
    if gap.start ≤ offset ∧ offset < gap.stop then some (some ⟨[], gap, gaps⟩, true)
    else if offset < gap.start then some (none, false)
    else (findEndGap offset gaps).map fun
      | (none, inGap) => (some ⟨[], gap, gaps⟩, inGap)
      | (some r, inGap) => (some { r with before := gap :: r.before }, inGap)

/-! ## Queued frames -/

def deleteConsecutiveLoop {C : Type} : Nat → FrameQueue C → Nat → FrameQueue C × List C
  | 0, queue, _ => (queue, [])
  | turns + 1, queue, pos =>
    match queue.find pos with
    | none => (queue, [])
    | some oldEntry =>
      let r := deleteConsecutiveLoop turns (queue.erase pos) (pos + oldEntry.data.length)
      (r.1, oldEntry.doneCb.toList ++ r.2)

/-- mirrors :205-218 -/
def deleteConsecutive {C : Type} (queue : FrameQueue C) (pos : Nat) : FrameQueue C × List C :=
  deleteConsecutiveLoop queue.size queue pos

/-- What the loop over the queued frames at the start of a new frame leaves behind. The loop has come to `pos`;
`cut` says that a longer frame is queued there. -/
structure Replacement (C : Type) where
  queue : FrameQueue C
  called : List C
  pos : Nat
  hasReplacedAtLeastOne : Bool
  cut : Bool

/-- The differences `end - pos` of the source are moved to the other side; `none` is a duplicate.
mirrors :86-112 -/
def replaceLoop {C : Type} (stop : Nat) : Nat → FrameQueue C → Nat → Bool → Option (Replacement C)
  | 0, queue, pos, replaced => some ⟨queue, [], pos, replaced, false⟩
  | turns + 1, queue, pos, replaced =>
    match queue.find pos with
    | none => some ⟨queue, [], pos, replaced, false⟩
    | some oldEntry =>
      let next := pos + oldEntry.data.length
      if next < stop ∨ replaced = true ∧ next = stop then
        (replaceLoop stop turns (queue.erase pos) next true).map fun r =>
          { r with called := oldEntry.doneCb.toList ++ r.called }
      else if replaced = false then none
      else some ⟨queue, [], pos, replaced, true⟩

/-! ## The new frame -/

/-- The variables `start`, `end`, `data` and `wasCut` of `push`. -/
structure NewFrame where
  start : Nat
  stop : Nat
  data : Bytes
  wasCut : Bool

namespace NewFrame

variable {C : Type} (f : NewFrame)

/-- `data = data[pos-start:]; start = pos` -/
def cutStart (pos : Nat) : Except (PushError C) NewFrame :=
  if f.start ≤ pos ∧ pos - f.start ≤ f.data.length then
    .ok { f with start := pos, data := f.data.drop (pos - f.start), wasCut := true }
  else .error .panic

/-- `data = data[:pos-start]; end = pos` -/
def cutStop (pos : Nat) : Except (PushError C) NewFrame :=
  if f.start ≤ pos ∧ pos - f.start ≤ f.data.length then
    .ok { f with stop := pos, data := f.data.take (pos - f.start), wasCut := true }
  else .error .panic

/-- mirrors :103-119 -/
def cutAtStart (startGap : ByteInterval) (startsInGap : Bool) (r : Replacement C) :
    Except (PushError C) NewFrame := do
  let f ← if r.cut = true then f.cutStop r.pos else pure f
  if startsInGap = false ∧ r.hasReplacedAtLeastOne = false then f.cutStart startGap.start else pure f

/-- What is left of `startGap`, and whether its end was adjusted. mirrors :120-130 -/
def trimStartGap (startGap : ByteInterval) (replaced : Bool) : List ByteInterval × Bool :=
  if f.start ≤ startGap.start then
    if startGap.stop ≤ f.stop then ([], false) else ([⟨f.stop, startGap.stop⟩], false)
  else if replaced = false then ([⟨startGap.start, f.start⟩], true)
  else ([startGap], false)

/-- mirrors :142-147 -/
def cutToEndGap (endGap : ByteInterval) (endsInGap : Bool) : Except (PushError C) NewFrame :=
  if endsInGap = false ∧ f.start ≠ endGap.stop ∧ endGap.stop < f.stop then f.cutStop endGap.stop else .ok f

end NewFrame

/-- The gaps after `startGap` that end before `endGap`; the loop of the source also stops at `endGap` itself.
mirrors :134-139 -/
def removeGaps {C : Type} (endGapStart : Nat) :
    List ByteInterval → FrameQueue C → List ByteInterval × FrameQueue C × List C
  | [], queue => ([], queue, [])
  | gap :: gaps, queue =>
    if gap.stop < endGapStart then
      let d := deleteConsecutive queue gap.stop
      let r := removeGaps endGapStart gaps d.1
      (r.1, r.2.1, d.2 ++ r.2.2)
    else (gap :: gaps, queue, [])

namespace FrameSorter

variable {C : Type}

/-- mirrors :36-43 -/
def newFrameSorter : FrameSorter C := ⟨.empty, 0, [⟨0, maxByteCount⟩]⟩

variable (s : FrameSorter C)

/-- Cut data is copied if it is small, and the frame it came in is released. mirrors :162-178 -/
def store (f : NewFrame) (doneCb : Option C) (called : List C) :
    Except (PushError C) (FrameSorter C × List C) :=
  let copied := f.wasCut = true ∧ f.data.length < minStreamFrameBufferSize
  let called := if copied then called ++ doneCb.toList else called
  let doneCb := if copied then none else doneCb
  if maxStreamFrameSorterGaps < s.gaps.length then .error (.tooManyGaps s called)
  else .ok ({ s with queue := s.queue.insert f.start ⟨f.data, doneCb⟩ }, called)

/-- The frame ends in or after the gap in which, or before which, it starts. mirrors :120-178 -/
def pushSame (start : GapElement) (endsInGap : Bool) (r : Replacement C) (f : NewFrame)
    (doneCb : Option C) : Except (PushError C) (FrameSorter C × List C) := do
  let (left, adjustedStartGapEnd) := f.trimStartGap start.gap r.hasReplacedAtLeastOne
  let f ← f.cutToEndGap start.gap endsInGap
  -- the frame may have split the gap into two
  let right := if f.stop ≠ start.gap.stop ∧ adjustedStartGapEnd = true then [⟨f.stop, start.gap.stop⟩] else []
  store { s with queue := r.queue, gaps := start.before ++ (left ++ right ++ start.after) } f doneCb r.called

/-- The frame ends in or after a later gap; `between` are those between it and the first.
mirrors :120-178 -/
def pushAcross (start found : GapElement) (between : List ByteInterval) (endsInGap : Bool)
    (r : Replacement C) (f : NewFrame) (doneCb : Option C) : Except (PushError C) (FrameSorter C × List C) := do
  let left := (f.trimStartGap start.gap r.hasReplacedAtLeastOne).1
  let d := deleteConsecutive r.queue start.gap.stop
  let g := removeGaps found.gap.start between d.1
  let f ← f.cutToEndGap found.gap endsInGap
  let right := if f.stop = found.gap.stop then [] else [⟨f.stop, found.gap.stop⟩]
  store { s with queue := g.2.1, gaps := start.before ++ (left ++ g.1 ++ right ++ found.after) } f doneCb
    (r.called ++ (d.2 ++ g.2.2))

/-- mirrors :56-178 -/
def push (data : Bytes) (offset : Nat) (doneCb : Option C) :
    Except (PushError C) (FrameSorter C × List C) :=
  if data.length = 0 then .error .duplicateStreamData
  else
    let stop := offset + data.length
    match s.gaps with
    | [] => .error .panic
    | front :: _ =>
      if stop ≤ front.start then .error .duplicateStreamData
      else
        match findStartGap offset s.gaps with
        | none => .error .panic
        | some (start, startsInGap) =>
          match findEndGap stop (start.gap :: start.after) with
          | none => .error .panic
          | some (none, _) =>
            -- `endGap` is the gap before `startGap`; in a sorted list the frame is then a duplicate
            match start.before.getLast? with
            | none => .error .panic
            | some endGap =>
              if endGap.start ≤ start.gap.stop ∧ stop ≤ start.gap.start then .error .duplicateStreamData
              else .error .panic
          | some (some found, endsInGap) =>
            if found.before = [] ∧ stop ≤ start.gap.start ∨
                found.before ≠ [] ∧ found.gap.start ≤ start.gap.stop ∧ stop ≤ start.gap.start then
              .error .duplicateStreamData
            else
              match replaceLoop stop s.queue.size s.queue offset false with
              | none => .error .duplicateStreamData
              | some r => do
                let f ← NewFrame.cutAtStart ⟨offset, stop, data, false⟩ start.gap startsInGap r
                match found.before with
                | [] => s.pushSame start endsInGap r f doneCb
                | _ :: between => s.pushAcross start found between endsInGap r f doneCb

/-- mirrors :45-54 -/
def Push (data : Bytes) (offset : Nat) (doneCb : Option C) :
    Except (PushError C) (FrameSorter C × List C) :=
  match s.push data offset doneCb with
  | .error .duplicateStreamData => .ok (s, doneCb.toList)
  | r => r

/-- What `Pop` returns; `none` is the nil slice. -/
structure Popped (C : Type) where
  offset : Nat
  data : Option Bytes
  doneCb : Option C

/-- A panic is `none`. mirrors :220-232 -/
def pop : Option (FrameSorter C × Popped C) :=
  match s.queue.find s.readPos with
  | none => some (s, ⟨s.readPos, none, none⟩)
  | some entry =>
    let readPos := s.readPos + entry.data.length
    match s.gaps with
    | [] => none
    | front :: _ =>
      if front.stop ≤ readPos then none
      else some ({ s with queue := s.queue.erase s.readPos, readPos := readPos },
        ⟨s.readPos, some entry.data, entry.doneCb⟩)

end FrameSorter

end MoqQuic.L2.Quic
