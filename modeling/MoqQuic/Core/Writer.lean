import MoqQuic.Core.Reader

/-!
# Writing pieces into a slice of fixed size

An encoder that owns a mutable slice writes piece after piece. A piece that
does not fit is an error and nothing of it is written; a piece whose
computation panics ends the program. `put room pieces` is what such a sequence
leaves behind when `room` bytes are free.

* `put_of_join`: the sequence succeeds exactly when all its pieces together fit.
* `Codes pieces n p a`: the pieces are `n` bytes in all, and the reader `p` reads
  `a` from them and stops there. `Codes.bind` composes it along a sequence of
  writes and the sequence of reads that undoes it.
-/
namespace MoqQuic.Writer
open Reader List

/-- One write: the bytes it adds, or `none` where it panics. -/
abbrev Piece := Option Bytes

inductive Put where
  | ok (bytes : Bytes)
  | short
  | panic
  deriving DecidableEq

def put : Nat → List Piece → Put
  | _, [] => .ok []
  | _, none :: _ => .panic
  | room, some bytes :: pieces =>
    if room < bytes.length then .short
    else match put (room - bytes.length) pieces with
      | .ok rest => .ok (bytes ++ rest)
      | other => other

/-- The pieces one behind the other. -/
def join : List Piece → Option Bytes
  | [] => some []
  | none :: _ => none
  | some bytes :: pieces => (join pieces).map (bytes ++ ·)

theorem join_singleton (bytes : Bytes) : join [some bytes] = some bytes := by
  simp [join]

theorem join_append (pieces pieces' : List Piece) :
    join (pieces ++ pieces') = (join pieces).bind fun bytes => (join pieces').map (bytes ++ ·) := by
  induction pieces with
  | nil => simp [join]
  | cons piece pieces ih =>
    cases piece with
    | none => rfl
    | some first =>
      rw [cons_append, join, ih, join]
      cases join pieces <;> cases join pieces' <;> simp

theorem put_of_join {pieces : List Piece} {bytes : Bytes} (h : join pieces = some bytes) (room : Nat) :
    put room pieces = if room < bytes.length then .short else .ok bytes := by
  induction pieces generalizing bytes room with
  | nil =>
    cases h
    rfl
  | cons piece pieces ih =>
    cases piece with
    | none => cases h
    | some first =>
      obtain ⟨rest, hrest, rfl⟩ := Option.map_eq_some_iff.mp h
      simp only [put, ih hrest, length_append]
      by_cases hfirst : room < first.length
      · rw [if_pos hfirst, if_pos (by omega)]
      rw [if_neg hfirst]
      by_cases hall : room < first.length + rest.length
      · rw [if_pos (by omega), if_pos hall]
      · rw [if_neg (by omega), if_neg hall]

variable {ε α α' : Type}

/-- The pieces are an encoding of `a`, `n` bytes long, for the reader `p`. -/
def Codes (pieces : List Piece) (n : Nat) (p : Act ε Unit α) (a : α) : Prop :=
  ∃ bytes, join pieces = some bytes ∧ bytes.length = n ∧ Reads p bytes () a ()

namespace Codes

variable {pieces pieces' : List Piece} {n m : Nat} {p : Act ε Unit α} {a : α}

theorem pure (a : α) : Codes [] 0 (Pure.pure a : Act ε Unit α) a := ⟨[], rfl, rfl, Reads.pure a ()⟩

theorem bind {f : α → Act ε Unit α'} {c : α'} (hp : Codes pieces n p a) (hf : Codes pieces' m (f a) c) :
    Codes (pieces ++ pieces') (n + m) (p >>= f) c := by
  obtain ⟨bytes, hjoin, hlen, hreads⟩ := hp
  obtain ⟨bytes', hjoin', hlen', hreads'⟩ := hf
  refine ⟨bytes ++ bytes', ?_, ?_, hreads.bind hreads'⟩
  · rw [join_append, hjoin, hjoin']
    rfl
  · rw [length_append, hlen, hlen']

theorem cons {piece : Piece} {f : α → Act ε Unit α'} {c : α'} (hp : Codes [piece] n p a)
    (hf : Codes pieces' m (f a) c) : Codes (piece :: pieces') (n + m) (p >>= f) c := hp.bind hf

/-- The last read, with something computed from it. -/
theorem bind_pure {f : α → α'} (hp : Codes pieces n p a) : Codes pieces n (p >>= fun a => Pure.pure (f a)) (f a) := by
  have h := Codes.bind (f := fun a => Pure.pure (f a)) hp (Codes.pure (f a))
  rwa [append_nil] at h

end Codes

end MoqQuic.Writer
