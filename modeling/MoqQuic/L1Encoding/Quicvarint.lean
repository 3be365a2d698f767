import Mathlib.Tactic.Linarith
import MoqQuic.Core.Reader

/-!
# QUIC variable-length integers and Go byte strings (`quicvarint`, `io`)

`quicvarint.Append` writes a number below 2^62 in 1, 2, 4 or 8 bytes, the two
top bits of the first byte giving the length, and panics from 2^62 on;
`quicvarint.Read` reads one byte at a time, so a stream that ends inside a
number reports `io.EOF`, not `io.ErrUnexpectedEOF`. `Read` does not insist on
the shortest form.

A Go string or byte slice of the program is a `GoString`: its length is at
most what `make` can allocate. `make([]byte, n)` panics above that, which a
parser that trusts a declared length can reach.

Results:
* `reads_enc`: `Read` inverts `Append` on every number below 2^62, with any
  bytes behind, leaving exactly those.
* `starves_enc`: on a strict prefix of what `Append` writes, `Read` fails.
* `read_ok_le`: a successful `Read` consumed at least `Len` of its result.
* `reads_encStr`: the length-prefixed string round trip.
-/
namespace MoqQuic.L1.Quicvarint
open Reader List Option
open UInt8 (ofNat)

/-- `io.EOF`, `io.ErrUnexpectedEOF`, or `fmt.Errorf` with its text. -/
inductive Err where
  | eof
  | unexpectedEOF
  | errorf (text : String)
  deriving DecidableEq, Repr

variable {β : Type}

/-! ## Readers -/

/-- `ReadByte` of a reader whose stream ends after the given bytes. -/
def readByte : Act Err β UInt8 := ⟨fun b s =>
  match s with
  | [] => .err .eof b []
  | x :: s' => .ok x b s'⟩

/-- The longest byte slice the runtime allocates on 64-bit platforms. -/
def maxAlloc : Nat := 2 ^ 48

/-- A Go string or byte slice: an allocated run of bytes. -/
structure GoString where
  data : Bytes
  fits : data.length ≤ maxAlloc
  deriving DecidableEq

namespace GoString

theorem ext {s t : GoString} (h : s.data = t.data) : s = t := by
  cases s; cases t; simp_all

def empty : GoString := ⟨[], by simp⟩

/-- `len(s)`. -/
def len (s : GoString) : Nat := s.data.length

theorem len_lt (s : GoString) : s.len < 2 ^ 62 := by
  have := s.fits
  simp only [maxAlloc, len] at *
  omega

end GoString

/-- `make([]byte, n)`: panics when the length is out of range. -/
def makeSlice (n : Nat) : Act Err β (PLift (n ≤ maxAlloc)) := ⟨fun b s =>
  if h : n ≤ maxAlloc then .ok ⟨h⟩ b s else .panic⟩

theorem buffer_length (n : Nat) (s : Bytes) : (s.take n ++ List.replicate (n - s.length) 0).length = n := by
  simp only [length_append, length_take, length_replicate]
  omega

/-- `io.ReadFull(r, buf)` into a zeroed buffer of length `n`: the buffer, of
which only the bytes the stream still had are overwritten, and the error. -/
def readFull (n : Nat) : Act Err β ({bs : Bytes // bs.length = n} × Option Err) := ⟨fun b s =>
  let err := if n ≤ s.length then none else if s = [] then some Err.eof else some .unexpectedEOF
  .ok (⟨s.take n ++ List.replicate (n - s.length) 0, buffer_length n s⟩, err) b (s.drop n)⟩

variable {n v : Nat}

/-- A buffer that could be made is short enough for a string. -/
theorem buffer_fits (buf : {bs : Bytes // bs.length = n}) (h : n ≤ maxAlloc) : buf.1.length ≤ maxAlloc := by
  rw [buf.2]
  exact h

/-! ## Numbers -/

/-- mirrors varint.go:32-76 (`Read`) -/
def read : Act Err β Nat := do
  let firstByte ← readByte
  -- the first two bits of the first byte encode the length
  let l := 1 <<< ((firstByte &&& 0xc0) >>> 6).toNat
  let b1 := firstByte &&& (0xff - 0xc0)
  if l = 1 then return b1.toNat
  let b2 ← readByte
  if l = 2 then return b2.toNat + b1.toNat <<< 8
  let b3 ← readByte
  let b4 ← readByte
  if l = 4 then return b4.toNat + b3.toNat <<< 8 + b2.toNat <<< 16 + b1.toNat <<< 24
  let b5 ← readByte
  let b6 ← readByte
  let b7 ← readByte
  let b8 ← readByte
  return b8.toNat + b7.toNat <<< 8 + b6.toNat <<< 16 + b5.toNat <<< 24 + b4.toNat <<< 32 +
    b3.toNat <<< 40 + b2.toNat <<< 48 + b1.toNat <<< 56

def maxVarInt1 : Nat := 63
def maxVarInt2 : Nat := 16383
def maxVarInt4 : Nat := 1073741823
def maxVarInt8 : Nat := 4611686018427387903

/-- mirrors varint.go:113-131 (`Append`); `none` is the panic -/
def append (b : Bytes) (i : Nat) : Option Bytes :=
  if i ≤ maxVarInt1 then some (b ++ [ofNat i])
  else if i ≤ maxVarInt2 then some (b ++ [ofNat (i >>> 8) ||| 0x40, ofNat i])
  else if i ≤ maxVarInt4 then
    some (b ++ [ofNat (i >>> 24) ||| 0x80, ofNat (i >>> 16), ofNat (i >>> 8), ofNat i])
  else if i ≤ maxVarInt8 then
    some (b ++ [ofNat (i >>> 56) ||| 0xc0, ofNat (i >>> 48), ofNat (i >>> 40),
      ofNat (i >>> 32), ofNat (i >>> 24), ofNat (i >>> 16), ofNat (i >>> 8),
      ofNat i])
  else none

/-- mirrors varint.go:166-180 (`Len`); `none` is the panic -/
def len? (i : Nat) : Option Nat :=
  if i ≤ maxVarInt1 then some 1
  else if i ≤ maxVarInt2 then some 2
  else if i ≤ maxVarInt4 then some 4
  else if i ≤ maxVarInt8 then some 8
  else none

/-! ## What `Append` writes -/

/-- The encoding of `i` on its own; `[]` for the numbers `Append` refuses. -/
def enc (i : Nat) : Bytes := (append [] i).getD []

/-- The numbers `Append` accepts. -/
abbrev Fits (i : Nat) : Prop := i < 2 ^ 62

theorem append_eq (b : Bytes) (i : Nat) : append b i = if i < 2 ^ 62 then some (b ++ enc i) else none := by
  unfold enc append maxVarInt1 maxVarInt2 maxVarInt4 maxVarInt8
  by_cases h1 : i ≤ 63
  · rw [if_pos h1, if_pos h1, if_pos (by omega)]; rfl
  by_cases h2 : i ≤ 16383
  · rw [if_neg h1, if_neg h1, if_pos h2, if_pos h2, if_pos (by omega)]; rfl
  by_cases h4 : i ≤ 1073741823
  · rw [if_neg h1, if_neg h1, if_neg h2, if_neg h2, if_pos h4, if_pos h4, if_pos (by omega)]; rfl
  rw [if_neg h1, if_neg h1, if_neg h2, if_neg h2, if_neg h4, if_neg h4]
  by_cases h8 : i ≤ 4611686018427387903
  · rw [if_pos h8, if_pos h8, if_pos (by omega)]; rfl
  · rw [if_neg h8, if_neg (by omega)]

@[simp] theorem append_fits (b : Bytes) {i : Nat} (h : Fits i) : append b i = some (b ++ enc i) := by
  rw [append_eq, if_pos h]

/-! ## `Read` by the length class of the first byte -/

@[simp] theorem bind_readByte_cons {α : Type} (f : UInt8 → Act Err β α) (x : UInt8) (b : β)
    (s : Bytes) : (readByte >>= f).run b (x :: s) = (f x).run b s := rfl

@[simp] theorem bind_readByte_nil {α : Type} (f : UInt8 → Act Err β α) (b : β) :
    (readByte >>= f).run b [] = .err .eof b [] := rfl

/-- The two top bits of a first byte: `2 ^ cls x` is the encoded length. -/
def cls (x : UInt8) : Nat := ((x &&& 0xc0) >>> 6).toNat

/-- The payload bits of a first byte. -/
def pay (x : UInt8) : Nat := (x &&& (0xff - 0xc0)).toNat

theorem cls_pay_bounds (x : UInt8) : cls x < 4 ∧ pay x < 64 := by
  have h := (by decide +kernel : ∀ i : Fin 256, cls (ofNat i) < 4 ∧ pay (ofNat i) < 64)
  have := h ⟨x.toNat, x.toNat_lt⟩
  simpa using this

/-- The four tags `Append` ORs into the first byte. -/
theorem lead_byte (v : Nat) (h : v < 64) : (cls (ofNat v) = 0 ∧ pay (ofNat v) = v) ∧
    (cls (ofNat v ||| 0x40) = 1 ∧ pay (ofNat v ||| 0x40) = v) ∧
    (cls (ofNat v ||| 0x80) = 2 ∧ pay (ofNat v ||| 0x80) = v) ∧
    (cls (ofNat v ||| 0xc0) = 3 ∧ pay (ofNat v ||| 0xc0) = v) := by
  have := (by decide +kernel : ∀ i : Fin 64, (cls (ofNat i) = 0 ∧ pay (ofNat i) = i) ∧
    (cls (ofNat i ||| 0x40) = 1 ∧ pay (ofNat i ||| 0x40) = i) ∧
    (cls (ofNat i ||| 0x80) = 2 ∧ pay (ofNat i ||| 0x80) = i) ∧
    (cls (ofNat i ||| 0xc0) = 3 ∧ pay (ofNat i ||| 0xc0) = i))
  exact this ⟨v, h⟩

/-- The number of a first byte and the bytes behind it, most significant first. -/
def value (x : UInt8) (s : Bytes) : Nat := s.foldl (fun n y => 256 * n + y.toNat) (pay x)

theorem foldl_bytes_lt (s : Bytes) {n m : Nat} (h : n < m) :
    s.foldl (fun n y => 256 * n + y.toNat) n < m * 256 ^ s.length := by
  induction s generalizing n m with
  | nil => simpa
  | cons y s ih =>
    have hy := y.toNat_lt
    have hs := ih (show 256 * n + y.toNat < 256 * m by omega)
    rw [length_cons, Nat.pow_succ', ← Nat.mul_assoc, Nat.mul_comm m]
    exact hs

theorem foldl_bytes_inj (s : Bytes) {t : Bytes} {n m : Nat} (hlen : s.length = t.length)
    (h : s.foldl (fun n y => 256 * n + y.toNat) n = t.foldl (fun n y => 256 * n + y.toNat) m) : n = m ∧ s = t := by
  induction s generalizing t n m with
  | nil =>
    obtain rfl := length_eq_zero_iff.mp hlen.symm
    exact ⟨h, rfl⟩
  | cons x s ih =>
    rcases t with _ | ⟨y, t⟩
    · cases hlen
    obtain ⟨hn, rfl⟩ := ih (Nat.succ.inj hlen) h
    replace hn : 256 * n + x.toNat = 256 * m + y.toNat := hn
    have hx := x.toNat_lt
    have hy := y.toNat_lt
    exact ⟨by omega, by rw [UInt8.toNat_inj.mp (by omega : x.toNat = y.toNat)]⟩

section

variable (b : β) (x : UInt8) (s : Bytes)

/-- `Read` is `io.EOF` on a stream shorter than the first byte announces, and consumes the announced bytes
otherwise. -/
theorem read_eq : read.run b (x :: s) =
    if s.length + 1 < 2 ^ cls x then .err .eof b []
    else .ok (value x (s.take (2 ^ cls x - 1))) b (s.drop (2 ^ cls x - 1)) := by
  have hc := (cls_pay_bounds x).1
  obtain ⟨c, hl⟩ : ∃ c, cls x = c := ⟨_, rfl⟩
  have hl' : ((x &&& 0xc0) >>> 6).toNat = c := hl
  have hp : (x &&& (0xff - 0xc0)).toNat = pay x := rfl
  simp only [read, bind_readByte_cons, hl', hl, value, hp]
  have hpure : ∀ (v : Nat) (s : Bytes), (pure v : Act Err β Nat).run b s = .ok v b s := fun _ _ => rfl
  -- with too few bytes both sides fail; with enough they are the same sum
  rcases (by omega : c = 0 ∨ c = 1 ∨ c = 2 ∨ c = 3) with rfl | rfl | rfl | rfl
  · rfl
  · have hlen : ∀ n, ¬ n + 1 + 1 < 2 := by omega
    rcases s with _ | ⟨_, _⟩ <;> simp [hpure, hlen, Nat.shiftLeft_eq]
    omega
  · have hlen : ∀ n, ¬ n + 1 + 1 + 1 + 1 < 4 := by omega
    rcases s with _ | ⟨_, _ | ⟨_, _ | ⟨_, _⟩⟩⟩ <;> simp [hpure, hlen, Nat.shiftLeft_eq]
    omega
  have hlen : ∀ n, ¬ n + 1 + 1 + 1 + 1 + 1 + 1 + 1 + 1 < 8 := by omega
  rcases s with _ | ⟨_, _ | ⟨_, _ | ⟨_, _ | ⟨_, _ | ⟨_, _ | ⟨_, _ | ⟨_, _⟩⟩⟩⟩⟩⟩⟩ <;>
    simp [hpure, hlen, Nat.shiftLeft_eq]
  omega

theorem read_short (h : s.length + 1 < 2 ^ cls x) : read.run b (x :: s) = .err .eof b [] := by
  rw [read_eq, if_pos h]

/-- The number read fits the payload bits. -/
theorem read_long (h : 2 ^ cls x ≤ s.length + 1) :
    ∃ v, read.run b (x :: s) = .ok v b ((x :: s).drop (2 ^ cls x)) ∧ v < 2 ^ (8 * 2 ^ cls x - 2) := by
  obtain ⟨hc, hp⟩ := cls_pay_bounds x
  have hpos : 2 ^ cls x = 2 ^ cls x - 1 + 1 := by have := Nat.two_pow_pos (cls x); omega
  have hlen : (s.take (2 ^ cls x - 1)).length = 2 ^ cls x - 1 := by simp only [length_take]; omega
  refine ⟨value x (s.take (2 ^ cls x - 1)), ?_, ?_⟩
  · rw [read_eq, if_neg (by omega)]
    exact congrArg (Res.ok _ b) (by conv => rhs; rw [hpos, drop_succ_cons])
  have hlt := foldl_bytes_lt (s.take (2 ^ cls x - 1)) hp
  rw [hlen] at hlt
  refine lt_of_lt_of_eq hlt ?_
  rcases (by omega : cls x = 0 ∨ cls x = 1 ∨ cls x = 2 ∨ cls x = 3) with e | e | e | e <;> rw [e] <;> rfl

end

/-! ## `Read` after `Append` -/

variable {i : Nat} (h : Fits i)
include h

/-- `Append` announces its length in the first byte, and `Read` gets the
number back. -/
theorem enc_spec : ∃ x t, enc i = x :: t ∧ t.length + 1 = 2 ^ cls x ∧
    len? i = some (2 ^ cls x) ∧ ∀ (b : β) rest, read.run b (enc i ++ rest) = .ok i b rest := by
  unfold enc append len? maxVarInt1 maxVarInt2 maxVarInt4 maxVarInt8
  by_cases h1 : i ≤ 63
  · obtain ⟨⟨hc, hp⟩, -⟩ := lead_byte i (by omega)
    simp only [if_pos h1, nil_append, getD_some]
    refine ⟨_, [], rfl, by rw [hc]; rfl, by rw [hc]; rfl, fun b rest => ?_⟩
    simp [read_eq, hc, value, hp]
  by_cases h2 : i ≤ 16383
  · obtain ⟨-, ⟨hc, hp⟩, -⟩ := lead_byte (i >>> 8) (by rw [Nat.shiftRight_eq_div_pow]; omega)
    simp only [if_neg h1, if_pos h2, nil_append, getD_some]
    refine ⟨_, _, rfl, by rw [hc]; rfl, by rw [hc]; rfl, fun b rest => ?_⟩
    have hlen : ∀ n, ¬ n + 1 + 1 < 2 := by omega
    rw [cons_append, read_eq, hc, value, hp]
    simp [hlen, Nat.shiftRight_eq_div_pow]
    omega
  by_cases h4 : i ≤ 1073741823
  · obtain ⟨-, -, ⟨hc, hp⟩, -⟩ := lead_byte (i >>> 24) (by rw [Nat.shiftRight_eq_div_pow]; omega)
    simp only [if_neg h1, if_neg h2, if_pos h4, nil_append, getD_some]
    refine ⟨_, _, rfl, by rw [hc]; rfl, by rw [hc]; rfl, fun b rest => ?_⟩
    have hlen : ∀ n, ¬ n + 1 + 1 + 1 + 1 < 4 := by omega
    rw [cons_append, read_eq, hc, value, hp]
    simp [hlen, Nat.shiftRight_eq_div_pow]
    omega
  obtain ⟨-, -, -, hc, hp⟩ := lead_byte (i >>> 56) (by rw [Nat.shiftRight_eq_div_pow]; omega)
  have h8 : i ≤ 4611686018427387903 := by have : i < 2 ^ 62 := h; omega
  simp only [if_neg h1, if_neg h2, if_neg h4, if_pos h8, nil_append, getD_some]
  refine ⟨_, _, rfl, by rw [hc]; rfl, by rw [hc]; rfl, fun b rest => ?_⟩
  have hlen : ∀ n, ¬ n + 1 + 1 + 1 + 1 + 1 + 1 + 1 + 1 < 8 := by omega
  rw [cons_append, read_eq, hc, value, hp]
  simp [hlen, Nat.shiftRight_eq_div_pow]
  omega

theorem reads_enc (b : β) : Reads read (enc i) b i b := by
  obtain ⟨x, t, -, -, -, hr⟩ := enc_spec (β := β) h
  exact hr b

theorem starves_enc (b : β) : Starves read (enc i) b := by
  obtain ⟨x, t, he, hl, -, -⟩ := enc_spec (β := β) h
  intro pre hpre hne
  rw [he] at hpre hne
  rcases pre with _ | ⟨y, s⟩
  · exact ⟨.eof, b, rfl⟩
  obtain ⟨rfl, hs⟩ := cons_prefix_cons.mp hpre
  have hlt : s.length < t.length := by
    rcases Nat.lt_or_ge s.length t.length with hlt | hge
    · exact hlt
    · exact absurd (by rw [hs.eq_of_length_le hge]) hne
  exact ⟨.eof, b, read_short b y s (by omega)⟩

theorem enc_length : len? i = some (enc i).length := by
  obtain ⟨x, t, he, hl, hlen, -⟩ := enc_spec (β := Unit) h
  rw [hlen, he, length_cons, hl]

theorem enc_length_pos : 0 < (enc i).length := by
  obtain ⟨x, t, he, -⟩ := enc_spec (β := Unit) h
  rw [he]; simp

omit h

theorem len?_le {c : Nat} (hc : c < 4) (hv : v < 2 ^ (8 * 2 ^ c - 2)) : ∃ n, len? v = some n ∧ n ≤ 2 ^ c := by
  unfold len? maxVarInt1 maxVarInt2 maxVarInt4 maxVarInt8
  rcases (by omega : c = 0 ∨ c = 1 ∨ c = 2 ∨ c = 3) with rfl | rfl | rfl | rfl <;>
    (repeat' split) <;> first | omega | exact ⟨_, rfl, by decide⟩

variable {s rest : Bytes} {b b' : β}

/-- `Read` leaves the record alone, and a number costs at least the bytes of
its shortest encoding. -/
theorem read_ok_le (h : read.run b s = .ok v b' rest) :
    b' = b ∧ Fits v ∧ ∃ e, s = e ++ rest ∧ (enc v).length ≤ e.length := by
  rcases s with _ | ⟨x, s⟩
  · cases h
  rcases Nat.lt_or_ge (s.length + 1) (2 ^ cls x) with hlt | hge
  · rw [read_short b x s hlt] at h; cases h
  obtain ⟨v', hv, hb⟩ := read_long b x s hge
  rw [hv] at h
  obtain ⟨rfl, rfl, rfl⟩ := Res.ok.inj h
  obtain ⟨n, hn, hle⟩ := len?_le (cls_pay_bounds x).1 hb
  have hf : Fits v' := by
    have hc := (cls_pay_bounds x).1
    rcases (by omega : cls x = 0 ∨ cls x = 1 ∨ cls x = 2 ∨ cls x = 3) with e | e | e | e <;>
      rw [e] at hb <;> simp only [Nat.reducePow, Nat.reduceMul, Nat.reduceSub] at hb <;> omega
  rw [enc_length hf] at hn
  refine ⟨rfl, hf, (x :: s).take (2 ^ cls x), (take_append_drop _ _).symm, ?_⟩
  simp only [length_take, length_cons]
  have := some.inj hn
  omega

/-- A failed `Read` is an `io.EOF` and has used up the stream. -/
theorem read_err {e : Err} (h : read.run b s = .err e b' rest) : e = .eof ∧ b' = b ∧ rest = [] := by
  rcases s with _ | ⟨x, s⟩
  · obtain ⟨rfl, rfl, rfl⟩ := Res.err.inj h
    exact ⟨rfl, rfl, rfl⟩
  rcases Nat.lt_or_ge (s.length + 1) (2 ^ cls x) with hlt | hge
  · rw [read_short b x s hlt] at h
    obtain ⟨rfl, rfl, rfl⟩ := Res.err.inj h
    exact ⟨rfl, rfl, rfl⟩
  · obtain ⟨v, hv, -⟩ := read_long b x s hge
    rw [hv] at h; cases h

/-- `Read` has no panic of its own. -/
theorem read_ne_panic (b : β) (s : Bytes) : read.run b s ≠ .panic := by
  intro h
  rcases s with _ | ⟨x, s⟩
  · cases h
  rcases Nat.lt_or_ge (s.length + 1) (2 ^ cls x) with hlt | hge
  · rw [read_short b x s hlt] at h; cases h
  obtain ⟨v, hv, -⟩ := read_long b x s hge
  rw [hv] at h; cases h

/-! ## Shortest encodings -/

theorem toNat_eq_cls_pay (x : UInt8) : x.toNat = 64 * cls x + pay x := by
  have h := (by decide +kernel :
    ∀ i : Fin 256, (ofNat i).toNat = 64 * cls (ofNat i) + pay (ofNat i))
  have := h ⟨x.toNat, x.toNat_lt⟩
  simpa using this

/-- Two encodings of one length class that read as the same number are the
same bytes. -/
theorem read_inj {x y : UInt8} {t : Bytes} (hc : cls x = cls y)
    (hs : s.length + 1 = 2 ^ cls x) (ht : t.length + 1 = 2 ^ cls x) (h1 : read.run b (x :: s ++ rest) = .ok v b rest)
    (h2 : read.run b (y :: t ++ rest) = .ok v b rest) : x :: s = y :: t := by
  have hvalue : ∀ {z u}, cls z = cls x → u.length + 1 = 2 ^ cls x → read.run b (z :: u ++ rest) = .ok v b rest →
      value z u = v := by
    intro z u hz hu h
    rw [cons_append, read_eq, hz, if_neg (by simp only [length_append]; omega), ← hu,
      Nat.add_sub_cancel, take_left] at h
    exact (Res.ok.inj h).1
  obtain ⟨hpay, rfl⟩ := foldl_bytes_inj s (by omega : s.length = t.length)
    ((hvalue rfl hs h1).trans (hvalue hc.symm ht h2).symm)
  have hx := toNat_eq_cls_pay x
  have hy := toNat_eq_cls_pay y
  rw [UInt8.toNat_inj.mp (by omega : x.toNat = y.toNat)]

/-- A number read from no more bytes than its shortest encoding has was in
the shortest encoding. -/
theorem read_canonical {g : Bytes} (h : read.run b (g ++ rest) = .ok v b' rest)
    (hle : g.length ≤ (enc v).length) : g = enc v := by
  obtain ⟨rfl, hf, e, he, hge⟩ := read_ok_le h
  have hg : g = e := append_cancel_right he
  subst hg
  obtain ⟨y, t, hy, hyl, -, hr⟩ := enc_spec (β := β) hf
  rcases g with _ | ⟨x, s⟩
  · rw [hy] at hge; simp at hge
  have hlen : s.length + 1 = t.length + 1 := by
    rw [hy] at hge hle; simp only [length_cons] at hge hle; omega
  have hx : s.length + 1 = 2 ^ cls x := by
    rcases Nat.lt_or_ge ((s ++ rest).length + 1) (2 ^ cls x) with hlt | hge'
    · rw [cons_append, read_short b' x _ hlt] at h; cases h
    obtain ⟨v', hv, -⟩ := read_long b' x (s ++ rest) hge'
    rw [cons_append, hv] at h
    have hd := congrArg List.length (Res.ok.inj h).2.2
    simp only [length_drop, length_cons, length_append] at hd hge'
    omega
  have hc : cls x = cls y := Nat.pow_right_injective (le_refl 2) (by show 2 ^ cls x = 2 ^ cls y; omega)
  have hr' := hr b' rest
  rw [hy] at hr' ⊢
  exact read_inj hc hx (by omega) h hr'

/-! ## Length-prefixed strings -/

/-- mirrors stringparameter.go:15-32 (`ParseVarIntString`) -/
def parseVarIntString : Act Err β GoString := do
  let len ← read
  let ⟨h⟩ ← makeSlice len
  let (data, err) ← readFull len
  match err with
  | some e => Act.throw e
  | none => return ⟨data.1, buffer_fits data h⟩

/-- mirrors stringparameter.go:34-40 (`GetBytesVarIntString`) -/
def getBytesVarIntString (str : GoString) : Option Bytes := do
  let data ← append [] str.len
  return data ++ str.data

/-- A string on the wire. -/
def encStr (str : GoString) : Bytes := enc str.len ++ str.data

theorem getBytesVarIntString_eq (str : GoString) : getBytesVarIntString str = some (encStr str) := by
  simp [getBytesVarIntString, append_fits _ str.len_lt, encStr]

theorem readFull_all (b : β) (bs rest : Bytes) (n : Nat) (hn : bs.length = n) :
    (readFull n).run b (bs ++ rest) = .ok (⟨bs, hn⟩, none) b rest := by
  subst hn
  simp [readFull]

theorem readFull_short (b : β) (s : Bytes) (n : Nat) (hn : s.length < n) : ∃ e, (readFull n).run b s =
      .ok (⟨s.take n ++ List.replicate (n - s.length) 0, buffer_length n s⟩, some e) b [] := by
  refine ⟨if s = [] then .eof else .unexpectedEOF, ?_⟩
  simp only [readFull, if_neg (Nat.not_le.mpr hn), drop_of_length_le hn.le]
  split <;> rfl

theorem makeSlice_fits (h : n ≤ maxAlloc) (b : β) (s : Bytes) :
    (makeSlice n).run b s = .ok ⟨h⟩ b s := dif_pos h

theorem makeSlice_panic (h : ¬ n ≤ maxAlloc) (b : β) (s : Bytes) :
    (makeSlice n).run b s = .panic := dif_neg h

/-- What follows the length, as one function of the stream: the three ways
`ParseVarIntString` can end once the length is read. -/
theorem parseVarIntString_cases {s' : Bytes} (h : read.run b s = .ok n b s') :
    (¬ n ≤ maxAlloc ∧ parseVarIntString.run b s = .panic) ∨
    (∃ e, n ≤ maxAlloc ∧ s'.length < n ∧ parseVarIntString.run b s = .err e b []) ∨
    (∃ str rest, str.len = n ∧ s' = str.data ++ rest ∧ parseVarIntString.run b s = .ok str b rest) := by
  unfold parseVarIntString
  rw [bind_ok h]
  by_cases hn : n ≤ maxAlloc
  · right
    rw [bind_ok (makeSlice_fits hn b s')]
    rcases Nat.lt_or_ge s'.length n with hlt | hge
    · obtain ⟨e, he⟩ := readFull_short b s' n hlt
      exact Or.inl ⟨e, hn, hlt, by rw [bind_ok he]; rfl⟩
    have hlen : (s'.take n).length = n := by simp only [length_take]; omega
    refine Or.inr ⟨⟨s'.take n, by rw [hlen]; exact hn⟩, s'.drop n, hlen, (take_append_drop n s').symm, ?_⟩
    have := readFull_all b (s'.take n) (s'.drop n) n hlen
    rw [take_append_drop] at this
    rw [bind_ok this]; rfl
  left
  refine ⟨hn, ?_⟩
  simp only [Bind.bind]; rw [makeSlice_panic hn b s']

theorem reads_encStr (str : GoString) (b : β) : Reads parseVarIntString (encStr str) b str b := by
  intro rest
  have hr := reads_enc str.len_lt b (str.data ++ rest)
  rw [encStr, append_assoc]
  rcases parseVarIntString_cases hr with ⟨hn, -⟩ | ⟨e, -, hlt, -⟩ | ⟨str', rest', hl, hd, hok⟩
  · exact absurd str.fits hn
  · simp only [length_append, GoString.len] at hlt; omega
  obtain ⟨h1, h2⟩ := append_inj hd hl.symm
  rw [hok, GoString.ext h1, h2]

/-- A parsed string stood on the wire behind its length, and an error leaves nothing. -/
theorem parseVarIntString_spec (b : β) (s : Bytes) : match parseVarIntString.run b s with
    | .ok str b' rest => b' = b ∧ read.run b s = .ok str.len b (str.data ++ rest)
    | .err _ b' rest => b' = b ∧ rest = []
    | .panic => True := by
  cases hr : read.run b s with
  | ok n b1 s' =>
    obtain ⟨rfl, -, -⟩ := read_ok_le hr
    rcases parseVarIntString_cases hr with ⟨-, hp⟩ | ⟨e', -, -, hp⟩ | ⟨str', rest', rfl, rfl, hp⟩ <;> rw [hp]
    · exact trivial
    · exact ⟨rfl, rfl⟩
    · exact ⟨rfl, rfl⟩
  | err e b1 s' =>
    obtain ⟨-, rfl, rfl⟩ := read_err hr
    rw [parseVarIntString, bind_err hr]
    exact ⟨rfl, rfl⟩
  | panic => exact absurd hr (read_ne_panic b s)

theorem parseVarIntString_ok {str : GoString} (h : parseVarIntString.run b s = .ok str b' rest) :
    b' = b ∧ read.run b s = .ok str.len b (str.data ++ rest) := by
  have := parseVarIntString_spec b s
  rwa [h] at this

theorem parseVarIntString_err {e : Err} (h : parseVarIntString.run b s = .err e b' rest) : b' = b ∧ rest = [] := by
  have := parseVarIntString_spec b s
  rwa [h] at this

end MoqQuic.L1.Quicvarint
