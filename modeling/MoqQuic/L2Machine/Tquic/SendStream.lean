import MoqQuic.L2Machine.Tquic.Reassembly
import MoqQuic.L2Machine.Tquic.SendBuf

/-!
# Sending a stream (`connection/stream.rs`, `connection/connection.rs`)

Runs of the send half of a stream that is neither reset nor stopped: the
application writes, frames are read off the buffer, and each frame that was sent
may be acknowledged and declared lost, in any order and repeatedly. What was
written and the frames that were sent are kept beside the buffer. Only frames
that the buffer produced are modelled, not those that a multipath scheduler
copies.

FIN takes no byte of the stream. Completion is judged by the acknowledged bytes
alone, so a FIN that comes after all bytes were sent can be forgotten.

Results:
* `sends_exactly`: the bytes, the limit, the set of lost bytes, and that every
  read returns.
* `complete_fin_acked`: if the first FIN never comes in an empty write after
  all was sent, a complete stream has had its FIN acknowledged.
-/
namespace MoqQuic.L2.Tquic
open LTS List SendBuf
open Reader (Bytes)

/-- A frame that was sent. -/
structure SentFrame where
  off : Nat
  len : Nat
  fin : Bool
  acked : Bool
  lost : Bool
  deriving DecidableEq

instance : Membership Nat SentFrame := ⟨fun f x => f.off ≤ x ∧ x < f.off + f.len⟩

structure Sender where
  buf : SendBuf
  written : Bytes
  frames : List SentFrame

inductive SendCall where
  | write (capacity : Nat) (data : Bytes) (fin : Bool)
  | send (cap : Nat)
  | ack (i : Nat)
  | lose (i : Nat)
  | updateMaxData (maxData : Nat)

namespace Sender

def new (maxData : Nat) : Sender := ⟨SendBuf.new maxData, [], []⟩

/-- `capacity` is what the connection can take. mirrors stream.rs:317-420 -/
def streamWrite (b : SendBuf) (capacity : Nat) (data : Bytes) (fin : Bool) : Except Error (Nat × SendBuf) :=
  if capacity = 0 ∧ data ≠ [] then .error .done
  else if capacity < data.length then b.write (data.take capacity) false
  else b.write data fin

variable (s : Sender)

/-- The offset of the frame is `send_off` before the read. mirrors connection.rs:2556-2606 -/
def sendFrame (cap : Nat) : Option Sender :=
  (s.buf.read cap).map fun (buf, got, fin) =>
    { s with buf := buf, frames := ⟨s.buf.sendOff, got.length, fin, false, false⟩ :: s.frames }

/-- `none` if there is no such frame or the call does not return. -/
def step : SendCall → Option Sender
  | .write capacity data fin =>
    match streamWrite s.buf capacity data fin with
    | .ok (n, buf) => some { s with buf := buf, written := s.written ++ data.take n }
    | .error _ => some s
  | .send cap => s.sendFrame cap
  | .ack i => s.frames[i]?.map fun f =>
    { s with buf := s.buf.ackAndDrop f.off f.len, frames := s.frames.set i { f with acked := true } }
  | .lose i => s.frames[i]?.map fun f =>
    { s with buf := s.buf.retransmit f.off f.len, frames := s.frames.set i { f with lost := true } }
  | .updateMaxData maxData => some { s with buf := s.buf.updateMaxData maxData }

/-- The byte is in a frame that was acknowledged. -/
def AckedByte (x : Nat) : Prop := ∃ f ∈ s.frames, f.acked = true ∧ x ∈ f

/-- The byte is in a frame that was neither acknowledged nor declared lost. -/
def InFlight (x : Nat) : Prop := ∃ f ∈ s.frames, f.acked = false ∧ f.lost = false ∧ x ∈ f

/-! ## The invariant -/

structure Inv (s : Sender) : Prop where
  shape : s.buf.Shape
  length_eq : s.written.length = s.buf.writeOff
  holds : s.buf.Holds s.written
  sent : ∀ f ∈ s.frames, f.off + f.len ≤ s.buf.unsentOff
  acked_iff : ∀ x, x ∈ s.buf.acked ↔ s.AckedByte x
  tracked : ∀ x < s.buf.unsentOff, x ∈ s.buf.acked ∨ x ∈ s.buf.retransmits ∨ s.InFlight x

variable {s s' : Sender} {b : SendBuf} {n : Nat} {data : Bytes} {fin : Bool} {c : SendCall}

theorem inv_new (maxData : Nat) : Inv (new maxData) where
  shape := SendBuf.Shape.new maxData
  length_eq := rfl
  holds := fun _ hb => absurd hb not_mem_nil
  sent := fun _ hf => absurd hf not_mem_nil
  acked_iff := fun _ => ⟨fun hx => absurd hx RangeSet.not_mem_empty, fun ⟨_, hf, _⟩ => absurd hf not_mem_nil⟩
  tracked := fun x hx => absurd hx (Nat.not_lt_zero x)

/-- A write that the connection cuts short is one without FIN. -/
theorem streamWrite_spec {b' : SendBuf} {capacity : Nat} (h : b.Shape)
    (hw : streamWrite b capacity data fin = .ok (n, b')) :
    ∃ fin', b.Written data fin' n b' ∧ (fin' = true → fin = true) := by
  unfold streamWrite at hw
  split at hw
  · cases hw
  split at hw
  · have hwritten := write_spec h hw
    have hn := hwritten.le
    rw [length_take] at hn
    refine ⟨false, { hwritten with le := by omega, finOff := ?_, holds := fun S hS hh => ?_ }, fun hf => by cases hf⟩
    · rw [hwritten.finOff]
      simp
    have := hwritten.holds S hS hh
    rwa [take_take, Nat.min_eq_left (by omega)] at this
  · exact ⟨fin, write_spec h hw, id⟩

theorem Inv.write (h : Inv s) (hw : s.buf.Written data fin n b) :
    Inv { s with buf := b, written := s.written ++ data.take n } where
  shape := hw.shape
  length_eq := by
    have := hw.le
    rw [length_append, length_take, hw.writeOff, h.length_eq]
    omega
  holds := hw.holds _ h.length_eq h.holds
  sent := fun f hf => by rw [hw.unsentOff]; exact h.sent f hf
  acked_iff := fun x => by rw [hw.acked]; exact h.acked_iff x
  tracked := fun x hx => by
    rw [hw.acked, hw.retransmits]
    exact h.tracked x (hw.unsentOff ▸ hx)

/-- A read produces a frame with what was read at `send_off`. -/
theorem sendFrame_eq (h : Inv s) {cap : Nat} (hs : s.sendFrame cap = some s') :
    ∃ buf got, s.buf.Sent s.buf.sendOff got buf ∧ s' = { s with
      buf := buf
      frames := ⟨s.buf.sendOff, got.length, s.buf.finOff == some (s.buf.sendOff + got.length), false, false⟩ ::
        s.frames } := by
  obtain ⟨buf, got, hread, -, hsent⟩ := read_spec h.shape cap
  rw [sendFrame, SendBuf.read, hread cap le_rfl, Option.map_some] at hs
  exact ⟨buf, got, hsent, (Option.some.inj hs).symm⟩

theorem Inv.sent_frame {buf : SendBuf} {got : Bytes} (h : Inv s) (hsent : s.buf.Sent s.buf.sendOff got buf) :
    Inv { s with buf := buf, frames := ⟨s.buf.sendOff, got.length, fin, false, false⟩ :: s.frames } := by
  have hshape := hsent.shape
  have hunsent := hsent.unsentOff
  have hlost := hsent.lost
  obtain ⟨pos, unsent, lost, rfl⟩ := hsent.same
  dsimp only at hunsent hlost
  refine ⟨hshape, h.length_eq, h.holds, fun f hf => ?_, fun x => ?_, fun x hx => ?_⟩
  · dsimp only
    rcases mem_cons.mp hf with rfl | hf
    · dsimp only
      omega
    have := h.sent f hf
    omega
  · rw [h.acked_iff]
    constructor
    · rintro ⟨f, hf, hacked, hx⟩
      exact ⟨f, mem_cons_of_mem _ hf, hacked, hx⟩
    rintro ⟨f, hf, hacked, hx⟩
    rcases mem_cons.mp hf with rfl | hf
    · cases hacked
    · exact ⟨f, hf, hacked, hx⟩
  dsimp only at hx ⊢
  by_cases hin : s.buf.sendOff ≤ x ∧ x < s.buf.sendOff + got.length
  · exact .inr (.inr ⟨_, mem_cons_self, rfl, rfl, hin⟩)
  -- what is newly sent is in the frame, so `x` was sent before
  have hold : x < s.buf.unsentOff := by have := h.shape.sendOff_le; omega
  rcases h.tracked x hold with hx | hx | ⟨f, hf, hfly⟩
  · exact .inl hx
  · exact .inr (.inl ((hlost x).mpr ⟨hx, hin⟩))
  · exact .inr (.inr ⟨f, mem_cons_of_mem _ hf, hfly⟩)

section Update

variable {l : List SentFrame} {i : Nat} {f g g' : SentFrame}

theorem mem_set_of_mem (hi : l[i]? = some g) (hf : f ∈ l) : f = g ∨ f ∈ l.set i g' := by
  obtain ⟨j, hj⟩ := List.getElem?_of_mem hf
  by_cases hij : i = j
  · subst hij
    exact .inl (Option.some.inj (hj.symm.trans hi))
  · exact .inr (mem_of_getElem? (by rw [List.getElem?_set_ne hij]; exact hj))

theorem mem_set_self (hi : l[i]? = some g) : g' ∈ l.set i g' :=
  mem_set (List.getElem?_eq_some_iff.mp hi).1 g'

end Update

theorem Inv.ack {i : Nat} {g : SentFrame} (h : Inv s) (hi : s.frames[i]? = some g) :
    Inv { s with buf := s.buf.ackAndDrop g.off g.len, frames := s.frames.set i { g with acked := true } } := by
  have hg := mem_of_getElem? hi
  have hspec := ackAndDrop_spec h.shape (h.sent g hg)
  refine ⟨hspec.shape, h.length_eq.trans hspec.writeOff.symm, hspec.holds _ h.holds, fun f hf => ?_, fun x => ?_,
    fun x hx => ?_⟩
  · rw [hspec.unsentOff]
    rcases mem_or_eq_of_mem_set hf with hf | rfl
    · exact h.sent f hf
    · exact h.sent g hg
  · rw [hspec.acked, h.acked_iff]
    constructor
    · rintro (⟨f, hf, hacked, hx⟩ | hx)
      · rcases mem_set_of_mem hi hf with rfl | hf
        · exact ⟨_, mem_set_self hi, rfl, hx⟩
        · exact ⟨f, hf, hacked, hx⟩
      · exact ⟨_, mem_set_self hi, rfl, hx⟩
    rintro ⟨f, hf, hacked, hx⟩
    rcases mem_or_eq_of_mem_set hf with hf | rfl
    · exact .inl ⟨f, hf, hacked, hx⟩
    · exact .inr hx
  rw [hspec.unsentOff] at hx
  rw [hspec.acked, hspec.retransmits]
  by_cases hin : g.off ≤ x ∧ x < g.off + g.len
  · exact .inl (.inr hin)
  rcases h.tracked x hx with hx | hx | ⟨f, hf, hfly, hlost, hx⟩
  · exact .inl (.inl hx)
  · exact .inr (.inl ⟨hx, hin⟩)
  rcases mem_set_of_mem hi hf with rfl | hf
  · exact absurd hx hin
  · exact .inr (.inr ⟨f, hf, hfly, hlost, hx⟩)

theorem Inv.lose {i : Nat} {g : SentFrame} (h : Inv s) (hi : s.frames[i]? = some g) :
    Inv { s with buf := s.buf.retransmit g.off g.len, frames := s.frames.set i { g with lost := true } } := by
  have hg := mem_of_getElem? hi
  have hspec := retransmit_spec h.shape (h.sent g hg)
  have hshape := hspec.shape
  have hlost := hspec.retransmits
  obtain ⟨pos, lost, heq⟩ := hspec.same
  rw [heq] at hshape hlost ⊢
  refine ⟨hshape, h.length_eq, h.holds, fun f hf => ?_, fun x => ?_, fun x hx => ?_⟩
  · rcases mem_or_eq_of_mem_set hf with hf | rfl
    · exact h.sent f hf
    · exact h.sent g hg
  · rw [h.acked_iff]
    constructor
    · rintro ⟨f, hf, hacked, hx⟩
      rcases mem_set_of_mem hi hf with rfl | hf
      · exact ⟨_, mem_set_self hi, hacked, hx⟩
      · exact ⟨f, hf, hacked, hx⟩
    rintro ⟨f, hf, hacked, hx⟩
    rcases mem_or_eq_of_mem_set hf with hf | rfl
    · exact ⟨f, hf, hacked, hx⟩
    · exact ⟨g, hg, hacked, hx⟩
  rw [hlost]
  rcases h.tracked x hx with hin | hin | ⟨f, hf, hfly, hnot, hin⟩
  · exact .inl hin
  · exact .inr (.inl (.inl hin))
  rcases mem_set_of_mem hi hf with rfl | hf
  · by_cases hacked : x ∈ s.buf.acked
    · exact .inl hacked
    · exact .inr (.inl (.inr ⟨hin, hacked⟩))
  · exact .inr (.inr ⟨f, hf, hfly, hnot, hin⟩)

/-- What each call can do. -/
theorem step_cases (h : Inv s) (hs : step s c = some s') : s' = s ∨
    (∃ capacity data fin fin' n buf, c = .write capacity data fin ∧ s.buf.Written data fin' n buf ∧
      (fin' = true → fin = true) ∧ s' = { s with buf := buf, written := s.written ++ data.take n }) ∨
    (∃ cap buf got, c = .send cap ∧ s.buf.Sent s.buf.sendOff got buf ∧ s' = { s with
      buf := buf
      frames := ⟨s.buf.sendOff, got.length, s.buf.finOff == some (s.buf.sendOff + got.length), false, false⟩ ::
        s.frames }) ∨ (∃ i g, c = .ack i ∧ s.frames[i]? = some g ∧ s' = { s with
      buf := s.buf.ackAndDrop g.off g.len, frames := s.frames.set i { g with acked := true } }) ∨
    (∃ i g, c = .lose i ∧ s.frames[i]? = some g ∧ s' = { s with
      buf := s.buf.retransmit g.off g.len, frames := s.frames.set i { g with lost := true } }) ∨
    ∃ maxData, c = .updateMaxData maxData ∧ s' = { s with buf := s.buf.updateMaxData maxData } := by
  cases c with
  | write capacity data fin =>
    rw [step] at hs
    cases hw : streamWrite s.buf capacity data fin with
    | error e =>
      rw [hw] at hs
      exact .inl (Option.some.inj hs).symm
    | ok written =>
      obtain ⟨n, buf⟩ := written
      rw [hw] at hs
      obtain ⟨fin', hspec, hfin⟩ := streamWrite_spec h.shape hw
      exact .inr (.inl ⟨capacity, data, fin, fin', n, buf, rfl, hspec, hfin, (Option.some.inj hs).symm⟩)
  | send cap =>
    obtain ⟨buf, got, hsent, rfl⟩ := sendFrame_eq h hs
    exact .inr (.inr (.inl ⟨cap, buf, got, rfl, hsent, rfl⟩))
  | ack i =>
    obtain ⟨g, hi, rfl⟩ := Option.map_eq_some_iff.mp hs
    exact .inr (.inr (.inr (.inl ⟨i, g, rfl, hi, rfl⟩)))
  | lose i =>
    obtain ⟨g, hi, rfl⟩ := Option.map_eq_some_iff.mp hs
    exact .inr (.inr (.inr (.inr (.inl ⟨i, g, rfl, hi, rfl⟩))))
  | updateMaxData maxData =>
    exact .inr (.inr (.inr (.inr (.inr ⟨maxData, rfl, (Option.some.inj hs).symm⟩))))

theorem Inv.step (h : Inv s) (hs : Sender.step s c = some s') : Inv s' := by
  rcases step_cases h hs with rfl | ⟨_, data, _, fin', n, buf, -, hw, -, rfl⟩ | ⟨_, buf, got, -, hsent, rfl⟩ |
    ⟨i, g, -, hi, rfl⟩ | ⟨i, g, -, hi, rfl⟩ | ⟨maxData, -, rfl⟩
  · exact h
  · exact h.write hw
  · exact h.sent_frame hsent
  · exact h.ack hi
  · exact h.lose hi
  · exact { h with shape := updateMaxData_shape h.shape maxData }

theorem inv_run {calls : List SendCall} {maxData : Nat} (hr : run step (new maxData) calls = some s) : Inv s :=
  run_invariant (fun _ _ _ h _ hs => h.step hs) (inv_new maxData) (along_true _ calls) hr

/-- In every run each read returns, and the bytes it returns are those written at `send_off` and stay below
`max_data`. A sent byte that is neither acknowledged nor in flight waits to be sent again; no acknowledged one does. -/
theorem sends_exactly (maxData : Nat) (calls : List SendCall) (s : Sender)
    (hr : run step (new maxData) calls = some s) :
    (∀ cap, ∃ buf got fin, (∀ n, cap ≤ n → s.buf.readWith n cap = some (buf, got, fin)) ∧
      (∀ i v, got[i]? = some v → s.written[s.buf.sendOff + i]? = some v) ∧
      ∀ i < got.length, s.buf.sendOff + i < s.buf.maxData) ∧
    (∀ x < s.buf.unsentOff, ¬ s.AckedByte x → ¬ s.InFlight x → x ∈ s.buf.retransmits) ∧
    ∀ x, s.AckedByte x → x ∉ s.buf.retransmits := by
  have h := inv_run hr
  refine ⟨fun cap => ?_, fun x hx hacked hfly => ?_, fun x hacked hx => ?_⟩
  · obtain ⟨buf, got, hread, -, hsent⟩ := read_spec h.shape cap
    refine ⟨buf, got, _, hread, fun i v hv => ?_, fun i hi => ?_⟩
    · rw [hsent.bytes _ h.holds, List.getElem?_take, List.getElem?_drop] at hv
      split at hv
      · exact hv
      · cases hv
    have hle := hsent.shape.unsent_le
    have hmax := h.shape.write_le
    have hunsent := hsent.unsentOff
    have hwrite : buf.writeOff = s.buf.writeOff := by
      obtain ⟨pos, unsent, lost, rfl⟩ := hsent.same
      rfl
    omega
  · rcases h.tracked x hx with hin | hin | hin
    · exact absurd ((h.acked_iff x).mp hin) hacked
    · exact hin
    · exact absurd hin hfly
  · exact h.shape.lost_unacked x hx ((h.acked_iff x).mpr hacked)

/-- Five bytes in two frames, of which the first is lost and is sent again. -/
theorem sends_exactly_five : ∃ s,
    run step (new 5) [.write 9 [1, 2, 3, 4, 5] true, .send 2, .send 9, .ack 0, .lose 1] = some s ∧
      s.written[s.buf.sendOff + 1]? = some 2 := by
  refine LTS.exists_run (fun s => (s.buf.readWith 9 9).map (fun r => r.2.1) == some [1, 2]) (by decide +kernel)
    fun s hs hgot => ?_
  obtain ⟨buf, got, fin, hread, hbytes, -⟩ := (sends_exactly 5 _ s hs).1 9
  refine hbytes 1 2 ?_
  rw [hread 9 (le_refl 9), beq_iff_eq, Option.map_some] at hgot
  rw [show got = [1, 2] from Option.some.inj hgot]
  rfl

/-! ## FIN -/

/-- The first FIN does not come in an empty write when everything that was written is sent already. -/
def FinWithData (s : Sender) : SendCall → Prop
  | .write _ data fin => fin = true → data = [] → s.buf.finOff = none → s.buf.unsentOff < s.buf.writeOff
  | _ => True

/-- Every frame with the last byte carries FIN. -/
structure FinInv (s : Sender) : Prop extends Inv s where
  fin_spec : ∀ f, s.buf.finOff = some f → s.buf.writeOff = f ∧ 0 < f ∧ ∀ g ∈ s.frames, f - 1 ∈ g → g.fin = true

theorem finInv_new (maxData : Nat) : FinInv (new maxData) where
  toInv := inv_new maxData
  fin_spec := fun _ hf => by cases hf

/-- When the final size becomes known the last byte is still unsent. -/
theorem FinInv.write (h : FinInv s)
    (hok : fin = true → data = [] → s.buf.finOff = none → s.buf.unsentOff < s.buf.writeOff)
    (hw : s.buf.Written data fin n b) : FinInv { s with buf := b, written := s.written ++ data.take n } := by
  refine ⟨h.toInv.write hw, fun f hf => ?_⟩
  have hwrite := hw.writeOff
  dsimp only at hf ⊢
  rw [hw.finOff] at hf
  cases hold : s.buf.finOff with
  | some f' =>
    obtain ⟨hend, hpos, hcarried⟩ := h.fin_spec f' hold
    have hle := hw.fin_le f' hold
    obtain rfl : f = f' := by
      split at hf
      · have := Option.some.inj hf
        omega
      · exact Option.some.inj (hf.symm.trans hold)
    exact ⟨by omega, hpos, hcarried⟩
  | none =>
    rw [hold] at hf
    obtain ⟨hfin, hf⟩ := Option.ite_none_right_eq_some.mp hf
    have hf := Option.some.inj hf
    have hunsent : s.buf.unsentOff < f := by
      rcases data with _ | ⟨v, data⟩
      · have := hok hfin.1 rfl hold
        omega
      have := h.shape.unsent_le
      have hn : n = data.length + 1 := hfin.2
      omega
    refine ⟨by omega, by omega, fun g hg hmem => ?_⟩
    have := h.sent g hg
    have hlt := hmem.2
    omega

theorem FinInv.step (h : FinInv s) (hok : FinWithData s c) (hs : Sender.step s c = some s') : FinInv s' := by
  have hinv := h.toInv.step hs
  rcases step_cases h.toInv hs with rfl | ⟨_, data, fin, fin', n, buf, rfl, hw, hfin, rfl⟩ |
    ⟨_, buf, got, -, hsent, rfl⟩ | ⟨i, g, -, hi, rfl⟩ | ⟨i, g, -, hi, rfl⟩ | ⟨maxData, -, rfl⟩
  · exact h
  · exact h.write (fun hf' => hok (hfin hf')) hw
  · refine ⟨hinv, fun f hf => ?_⟩
    have hunsent := hsent.unsentOff
    have hle := hsent.shape.unsent_le
    obtain ⟨pos, unsent, lost, rfl⟩ := hsent.same
    obtain ⟨hend, hpos, hcarried⟩ := h.fin_spec f hf
    refine ⟨hend, hpos, fun g hg hmem => ?_⟩
    rcases mem_cons.mp hg with rfl | hg
    · -- a frame with the last byte ends with it
      have hlt : f - 1 < s.buf.sendOff + got.length := hmem.2
      dsimp only at hunsent hle hf ⊢
      rw [hf, beq_iff_eq]
      congr 1
      omega
    · exact hcarried g hg hmem
  · have hspec := ackAndDrop_spec h.shape (h.sent g (mem_of_getElem? hi))
    refine ⟨hinv, fun f hf => ?_⟩
    obtain ⟨hend, hpos, hcarried⟩ := h.fin_spec f (hspec.finOff ▸ hf)
    refine ⟨hspec.writeOff.trans hend, hpos, fun g' hg' hmem => ?_⟩
    rcases mem_or_eq_of_mem_set hg' with hg' | rfl
    · exact hcarried g' hg' hmem
    · exact hcarried g (mem_of_getElem? hi) hmem
  · obtain ⟨pos, lost, heq⟩ := (retransmit_spec h.shape (h.sent g (mem_of_getElem? hi))).same
    refine ⟨hinv, fun f hf => ?_⟩
    rw [heq] at hf ⊢
    obtain ⟨hend, hpos, hcarried⟩ := h.fin_spec f hf
    refine ⟨hend, hpos, fun g' hg' hmem => ?_⟩
    rcases mem_or_eq_of_mem_set hg' with hg' | rfl
    · exact hcarried g' hg' hmem
    · exact hcarried g (mem_of_getElem? hi) hmem
  · exact ⟨hinv, h.fin_spec⟩

/-- In a run in which no FIN comes too late, a stream is complete only after a frame with FIN was acknowledged. -/
theorem complete_fin_acked (maxData : Nat) (calls : List SendCall) (s : Sender)
    (hok : Along step FinWithData (new maxData) calls) (hr : run step (new maxData) calls = some s)
    (hdone : s.buf.isComplete = true) : ∃ f ∈ s.frames, f.fin = true ∧ f.acked = true := by
  have h : FinInv s := run_invariant (fun _ _ _ h hok hs => h.step hok hs) (finInv_new maxData) hok hr
  rw [SendBuf.isComplete] at hdone
  cases hfin : s.buf.finOff with
  | none =>
    rw [hfin] at hdone
    cases hdone
  | some f =>
    obtain ⟨-, hpos, hcarried⟩ := h.fin_spec f hfin
    rw [hfin, Bool.or_eq_true, beq_iff_eq] at hdone
    have hall := RangeSet.eqRange_iff_of_eq (hdone.resolve_left hpos.ne')
    obtain ⟨g, hg, hacked, hmem⟩ := (h.acked_iff (f - 1)).mp ((hall (f - 1)).mpr ⟨Nat.zero_le _, by dsimp only; omega⟩)
    exact ⟨g, hg, hcarried g hg hmem, hacked⟩

/-- One byte with FIN, sent and acknowledged. -/
theorem complete_fin_acked_one : ∃ s, run step (new 5) [.write 5 [1] true, .send 9, .ack 0] = some s ∧
    s.buf.isComplete = true ∧ ∃ f ∈ s.frames, f.fin = true ∧ f.acked = true := by
  refine LTS.exists_run (fun s => s.buf.isComplete) (by decide +kernel) fun s hs hdone =>
    ⟨hdone, complete_fin_acked 5 _ s ?_ hs hdone⟩
  exact ⟨fun _ hnil => (by cases hnil), fun _ _ => ⟨trivial, fun _ _ => ⟨trivial, fun _ _ => trivial⟩⟩⟩

/-- The byte is sent and acknowledged before FIN is written: the stream is complete and no FIN was sent. -/
theorem complete_without_fin : ∃ s,
    run step (new 5) [.write 5 [1] false, .send 9, .ack 0, .write 5 [] true] = some s ∧
      s.buf.isComplete = true ∧ ∀ f ∈ s.frames, f.fin = false := by
  have hrun : ((run step (new 5) [.write 5 [1] false, .send 9, .ack 0, .write 5 [] true]).any fun s =>
      s.buf.isComplete && s.frames.all fun f => !f.fin) = true := by decide +kernel
  obtain ⟨s, hs, hdone⟩ := (Option.any_eq_true _ _).mp hrun
  rw [Bool.and_eq_true, all_eq_true] at hdone
  exact ⟨s, hs, hdone.1, fun f hf => by simpa using hdone.2 f hf⟩

end Sender

/-! ## Both ends -/

/-- Frames with the bytes written at their offsets arrive in any order, repeatedly or never, and none is acknowledged
that was not accepted. What was read is a prefix of what was written, and when all is acknowledged a read leads to its
end. -/
theorem transfers (maxData maxData' : Nat) (calls : List SendCall) (arrivals : List RecvCall) (s : Sender)
    (r : Receiver) (hs : run Sender.step (.new maxData) calls = some s)
    (hr : run (Receiver.step s.written) (.new maxData') arrivals = some r)
    (hacks : ∀ f ∈ s.frames, f.acked = true → ⟨f.off, f.len, f.fin⟩ ∈ r.frames) :
    (∀ f ∈ s.frames, f.off + f.len ≤ s.written.length) ∧ r.out <+: s.written ∧
      ((∀ x < s.written.length, x ∈ s.buf.acked) → ∃ cap, (r.readData cap).out = s.written) := by
  have hsender := Sender.inv_run hs
  have h := Receiver.inv_run hr
  refine ⟨fun f hf => ?_, h.out_eq ▸ take_prefix .., fun hall => ⟨r.buf.recvOff - r.buf.readOff + 1, ?_⟩⟩
  · exact hsender.length_eq ▸ (hsender.sent f hf).trans hsender.shape.unsent_le
  have hready := h.drained (Nat.lt_succ_self (r.buf.recvOff - r.buf.readOff))
  have hread := h.readData (r.buf.recvOff - r.buf.readOff + 1)
  rw [hread.out_eq]
  refine take_of_length_le ((hread.isGreatest hready).2 fun x hx => ?_)
  obtain ⟨f, hf, ha, hx⟩ := (hsender.acked_iff x).mp (hall x hx)
  refine ⟨⟨f.off, f.len, f.fin⟩, ?_, hx⟩
  unfold Receiver.readData
  split <;> exact hacks f hf ha

/-- Three bytes in two frames, which arrive in the wrong order and are acknowledged. -/
theorem transfers_three :
    ∃ s, run Sender.step (.new 9) [.write 9 [1, 2, 3] true, .send 2, .send 2, .ack 0, .ack 1] = some s ∧
      ∃ r, run (Receiver.step s.written) (.new 9) [.write 2 1 true, .read 1, .write 0 2 false] = some r ∧
        r.out <+: s.written := by
  refine exists_run (fun s => (run (Receiver.step s.written) (.new 9) _).any fun r =>
      decide (∀ f ∈ s.frames, f.acked = true → ⟨f.off, f.len, f.fin⟩ ∈ r.frames)) ?_ fun s hs hp =>
    exists_run _ hp fun r hr hacks => (transfers 9 9 _ _ s r hs hr (of_decide_eq_true hacks)).2.1
  decide +kernel

end MoqQuic.L2.Tquic
