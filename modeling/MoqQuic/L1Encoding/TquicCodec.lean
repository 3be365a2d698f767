import Mathlib.Algebra.Order.Ring.Int
import Mathlib.Data.Nat.Bitwise
import MoqQuic.Core.Writer

/-!
# Byte codec, addresses and connection ids of tquic (`codec.rs`, `lib.rs`)

The values the path manager, the address tokens and the endpoint share, the
big-endian numbers of the codec, and its variable-length integers and strings.
A read gives the value and the rest of the slice, or `none` where the source
returns `BufferTooShort`.

`Encoder` for a mutable slice is a sequence of `Piece`s; `Decoder` for a slice is
an `Act` whose only state is the unread rest. `write_varint` picks the shortest
of the four lengths; `write_varint_with_len` takes the length from its caller.

* `readBe_beBytes`: a number that is written is read back.
* `codes_*`: each write and the read that undoes it.
-/
namespace MoqQuic.L1.Tquic
open Reader

/-- `std::net::IpAddr` by its octets. -/
inductive IpAddr where
  | v4 (octets : Vector UInt8 4)
  | v6 (octets : Vector UInt8 16)
  deriving DecidableEq

namespace IpAddr

def octets : IpAddr → Bytes
  | .v4 octets => octets.toList
  | .v6 octets => octets.toList

/-- The address families agree. -/
def SameFamily : IpAddr → IpAddr → Prop
  | .v4 _, .v4 _ => True
  | .v6 _, .v6 _ => True
  | _, _ => False

theorem octets_length (a : IpAddr) : a.octets.length = 4 ∨ a.octets.length = 16 := by
  cases a <;> simp [octets]

theorem sameFamily_iff {a b : IpAddr} : a.SameFamily b ↔ a.octets.length = b.octets.length := by
  cases a <;> cases b <;> simp [SameFamily, octets]

theorem octets_injective {a b : IpAddr} (h : a.octets = b.octets) : a = b := by
  have hfam : a.SameFamily b := sameFamily_iff.mpr (by rw [h])
  cases a <;> cases b
  · rw [Vector.toList_inj.mp h]
  · exact hfam.elim
  · exact hfam.elim
  · rw [Vector.toList_inj.mp h]

end IpAddr

structure SocketAddr where
  ip : IpAddr
  port : UInt16
  deriving DecidableEq

/-- `FourTuple` -/
structure FourTuple where
  localAddr : SocketAddr
  remoteAddr : SocketAddr
  deriving DecidableEq

def MAX_CID_LEN : Nat := 20

structure ConnectionId where
  data : Bytes
  fits : data.length ≤ MAX_CID_LEN
  deriving DecidableEq

namespace ConnectionId

theorem ext {c d : ConnectionId} (h : c.data = d.data) : c = d := by
  cases c; cases d; cases h; rfl

/-- Longer slices are cut. mirrors lib.rs:171-179 -/
def new (bytes : Bytes) : ConnectionId := ⟨bytes.take MAX_CID_LEN, List.length_take_le ..⟩

def isEmpty (c : ConnectionId) : Bool := c.data.isEmpty

end ConnectionId

/-! ## Numbers -/

/-- `put_u8`, `put_u16` and `put_u64` are the widths 1, 2 and 8. mirrors codec.rs:102-141 -/
def beBytes : Nat → Nat → Bytes
  | 0, _ => []
  | width + 1, n => beBytes width (n / 256) ++ [UInt8.ofNat n]

def beVal (bytes : Bytes) : Nat := bytes.foldl (fun n b => n * 256 + b.toNat) 0

/-- mirrors codec.rs:257-266 -/
def readBytes (n : Nat) (buf : Bytes) : Option (Bytes × Bytes) :=
  if buf.length < n then none else some (buf.take n, buf.drop n)

/-- mirrors codec.rs:198-234 -/
def readBe (width : Nat) (buf : Bytes) : Option (Nat × Bytes) :=
  (readBytes width buf).map fun (bytes, rest) => (beVal bytes, rest)

@[simp] theorem beBytes_length (width n : Nat) : (beBytes width n).length = width := by
  induction width generalizing n with
  | zero => rfl
  | succ width ih => simp [beBytes, ih]

theorem beVal_append_singleton (bytes : Bytes) (b : UInt8) : beVal (bytes ++ [b]) = beVal bytes * 256 + b.toNat := by
  simp [beVal]

theorem beVal_beBytes (width n : Nat) : beVal (beBytes width n) = n % 256 ^ width := by
  induction width generalizing n with
  | zero => simp [beBytes, beVal, Nat.mod_one]
  | succ width ih =>
    rw [beBytes, beVal_append_singleton, ih, Nat.pow_succ, Nat.mul_comm (256 ^ width), Nat.mod_mul]
    simp only [UInt8.toNat_ofNat']
    omega

theorem beBytes_injective {width a b : Nat} (ha : a < 256 ^ width) (hb : b < 256 ^ width)
    (h : beBytes width a = beBytes width b) : a = b := by
  have hval := congrArg beVal h
  rwa [beVal_beBytes, beVal_beBytes, Nat.mod_eq_of_lt ha, Nat.mod_eq_of_lt hb] at hval

theorem readBytes_append {n : Nat} {bytes : Bytes} (h : bytes.length = n) (rest : Bytes) :
    readBytes n (bytes ++ rest) = some (bytes, rest) := by
  subst h
  simp [readBytes]

/-- A read takes the front of the buffer. -/
theorem readBytes_eq_some {n : Nat} {buf bytes rest : Bytes} (h : readBytes n buf = some (bytes, rest)) :
    bytes.length = n ∧ buf = bytes ++ rest := by
  unfold readBytes at h
  split at h
  · cases h
  cases h
  refine ⟨?_, (List.take_append_drop n buf).symm⟩
  rw [List.length_take]
  omega

theorem readBe_beBytes (width n : Nat) (rest : Bytes) :
    readBe width (beBytes width n ++ rest) = some (n % 256 ^ width, rest) := by
  rw [readBe, readBytes_append (beBytes_length width n), ← beVal_beBytes]
  rfl

/-! ## Variable-length integers and strings -/

open Writer UInt8

inductive WireError where
  | bufferTooShort
  | frameEncodingError
  | transportParameterError
  | invalidPacket
  deriving DecidableEq, Repr

/-- mirrors packet.rs:80-103 -/
inductive PacketType where
  | versionNegotiation
  | initial
  | zeroRTT
  | handshake
  | retry
  | oneRTT
  deriving DecidableEq

/-- mirrors token.rs:294 -/
abbrev ResetToken := Vector UInt8 16

/-! ## Writing -/

/-- The last branch is `unreachable!` beyond the largest varint: no length, so that the write panics.
mirrors codec.rs:323-335 -/
def encodeVarintLen (n : Nat) : Nat :=
  if n ≤ 63 then 1
  else if n ≤ 16383 then 2
  else if n ≤ 1073741823 then 4
  else if n ≤ 4611686018427387903 then 8
  else 0

/-- mirrors codec.rs:148-170 -/
def writeVarintWithLen (n len : Nat) : Piece :=
  match len with
  | 1 => some (beBytes 1 n)
  | 2 => some (beBytes 2 (n % 2 ^ 16 ||| 0x4000))
  | 4 => some (beBytes 4 (n % 2 ^ 32 ||| 0x80000000))
  | 8 => some (beBytes 8 (n ||| 0xc000000000000000))
  | _ => none

/-- mirrors codec.rs:143-146 -/
def writeVarint (n : Nat) : Piece := writeVarintWithLen n (encodeVarintLen n)

/-- mirrors codec.rs:102-108 -/
def writeU8 (n : Nat) : Piece := some (beBytes 1 n)

/-- mirrors codec.rs:110-116 -/
def writeU16 (n : Nat) : Piece := some (beBytes 2 n)

/-- mirrors codec.rs:172-178 -/
def write (bytes : Bytes) : Piece := some bytes

/-! ## Reading -/

abbrev Read := Act WireError Unit

/-- A read of the slice fails with `BufferTooShort`. -/
def slice {α : Type} (f : Bytes → Option (α × Bytes)) : Read α := ⟨fun b s =>
  match f s with
  | some (a, rest) => .ok a b rest
  | none => .err .bufferTooShort b s⟩

/-- mirrors codec.rs:310-318 -/
def decodeVarintLen (first : UInt8) : Nat :=
  match first.toNat / 64 with
  | 0 => 1
  | 1 => 2
  | 2 => 4
  | _ => 8

/-- The bits of the number. mirrors codec.rs:246-252 -/
def varintBits (len n : Nat) : Nat :=
  match len with
  | 1 => n
  | 2 => n &&& 0x3fff
  | 4 => n &&& 0x3fffffff
  | _ => n &&& 0x3fffffffffffffff

/-- mirrors codec.rs:236-255 -/
def varintFrom (buf : Bytes) : Option (Nat × Bytes) :=
  match buf with
  | [] => none
  | first :: _ =>
    let len := decodeVarintLen first
    (readBe len buf).map fun (n, rest) => (varintBits len n, rest)

def readVarint : Read Nat := slice varintFrom

/-- mirrors codec.rs:198-203 -/
def readU8 : Read Nat := slice (readBe 1)

/-- mirrors codec.rs:205-210 -/
def readU16 : Read Nat := slice (readBe 2)

/-- mirrors codec.rs:257-266 -/
def read (len : Nat) : Read Bytes := slice (readBytes len)

/-- `read(n)?.try_into()`, and `read_ipv4_addr` and `read_ipv6_addr` for the octets of an address.
mirrors codec.rs:286-302 -/
def readArray (n : Nat) : Read (Vector UInt8 n) := slice fun buf =>
  if h : n ≤ buf.length then some (⟨(buf.take n).toArray, by simp [h]⟩, buf.drop n) else none

/-- mirrors codec.rs:268-271 -/
def readWithVarintLength : Read Bytes := do
  let len ← readVarint
  read len

/-- mirrors codec.rs:273-276 -/
def readWithU8Length : Read Bytes := do
  let len ← readU8
  read len

/-! ## A number of two, four or eight bytes starts with its length -/

theorem beBytes_succ (width n : Nat) : beBytes (width + 1) n = UInt8.ofNat (n / 256 ^ width) :: beBytes width n := by
  induction width generalizing n with
  | zero => simp [beBytes]
  | succ width ih =>
    rw [beBytes, ih, beBytes, List.cons_append, Nat.div_div_eq_div_mul, Nat.pow_succ']

theorem slice_reads {α : Type} {f : Bytes → Option (α × Bytes)} {bytes : Bytes} {a : α}
    (h : ∀ rest, f (bytes ++ rest) = some (a, rest)) : Reads (slice f) bytes () a () := by
  intro rest
  simp only [slice, h]

variable {n : Nat}

/-- The two top bits of the number `m` that is written hold the class `c` of its length. -/
theorem codes_tagged {width m c : Nat} (hwrite : writeVarintWithLen n (width + 1) = some (beBytes (width + 1) m))
    (hlen : (match c with | 0 => 1 | 1 => 2 | 2 => 4 | _ => 8) = width + 1) (hm : m < 256 ^ (width + 1))
    (hclass : m / 256 ^ width % 2 ^ 8 / 64 = c) (hbits : varintBits (width + 1) m = n) :
    Codes [writeVarintWithLen n (width + 1)] (width + 1) readVarint n := by
  refine ⟨beBytes (width + 1) m, by rw [hwrite, join_singleton], beBytes_length .., slice_reads fun rest => ?_⟩
  have hread := readBe_beBytes (width + 1) m rest
  have hfirst : decodeVarintLen (UInt8.ofNat (m / 256 ^ width)) = width + 1 := by
    rw [← toNat_ofNat'] at hclass
    rw [decodeVarintLen, hclass, hlen]
  rw [Nat.mod_eq_of_lt hm] at hread
  rw [beBytes_succ, List.cons_append] at hread ⊢
  simp only [varintFrom, hfirst, hread, Option.map_some, hbits]

theorem or_two_pow {k : Nat} (h : n < 2 ^ k) : n ||| 2 ^ k = 2 ^ k + n := by
  have hor := Nat.two_pow_add_eq_or_of_lt h 1
  rw [Nat.mul_one, Nat.lor_comm] at hor
  exact hor.symm

theorem add_and {k m : Nat} (h : (m + n) % 2 ^ k = n) : (m + n) &&& (2 ^ k - 1) = n := by
  rw [Nat.and_two_pow_sub_one_eq_mod, h]

theorem codes_varintWithLen_one (h : n < 2 ^ 6) : Codes [writeVarintWithLen n 1] 1 readVarint n :=
  codes_tagged (c := 0) rfl rfl (by omega) (by omega) rfl

theorem codes_varintWithLen_two (h : n < 2 ^ 14) : Codes [writeVarintWithLen n 2] 2 readVarint n := by
  have hor : n % 2 ^ 16 ||| 0x4000 = 0x4000 + n := by
    rw [Nat.mod_eq_of_lt (by omega)]
    exact or_two_pow h
  exact codes_tagged (c := 1) (by rw [writeVarintWithLen, hor]) rfl (by omega) (by omega) (add_and (k := 14) (by omega))

theorem codes_varintWithLen_four (h : n < 2 ^ 30) : Codes [writeVarintWithLen n 4] 4 readVarint n := by
  have hor : n % 2 ^ 32 ||| 0x80000000 = 0x80000000 + n := by
    rw [Nat.mod_eq_of_lt (by omega)]
    exact or_two_pow (k := 31) (by omega)
  exact codes_tagged (c := 2) (by rw [writeVarintWithLen, hor]) rfl (by omega) (by omega) (add_and (k := 30) (by omega))

theorem codes_varintWithLen_eight (h : n < 2 ^ 62) : Codes [writeVarintWithLen n 8] 8 readVarint n := by
  have hor : n ||| 0xc000000000000000 = 0xc000000000000000 + n := by
    have hor := Nat.two_pow_add_eq_or_of_lt h 3
    rw [Nat.lor_comm] at hor
    exact hor.symm
  exact codes_tagged (c := 3) (by rw [writeVarintWithLen, hor]) rfl (by omega) (by omega) (add_and (k := 62) (by omega))

/-- A number below `2^62` is written in its shortest form and read back. -/
theorem codes_varint (h : n < 2 ^ 62) : Codes [writeVarint n] (encodeVarintLen n) readVarint n := by
  unfold writeVarint encodeVarintLen
  split
  · exact codes_varintWithLen_one (by omega)
  split
  · exact codes_varintWithLen_two (by omega)
  split
  · exact codes_varintWithLen_four (by omega)
  rw [if_pos (by omega)]
  exact codes_varintWithLen_eight h

/-! ## Numbers of a fixed width and strings -/

theorem codes_be {width : Nat} (h : n < 256 ^ width) :
    Codes [some (beBytes width n)] width (slice (readBe width)) n := by
  refine ⟨beBytes width n, join_singleton _, beBytes_length width n, slice_reads fun rest => ?_⟩
  rw [readBe_beBytes, Nat.mod_eq_of_lt h]

theorem codes_read (bytes : Bytes) : Codes [write bytes] bytes.length (read bytes.length) bytes :=
  ⟨bytes, join_singleton _, rfl, slice_reads (readBytes_append rfl)⟩

theorem codes_readArray (v : Vector UInt8 n) : Codes [write v.toList] n (readArray n) v := by
  refine ⟨v.toList, join_singleton _, by simp, slice_reads fun rest => ?_⟩
  have hlen : n ≤ (v.toList ++ rest).length := by simp
  rw [dif_pos hlen]
  have htake : (v.toList ++ rest).take n = v.toList := List.take_left' (by simp)
  have hdrop : (v.toList ++ rest).drop n = rest := List.drop_left' (by simp)
  simp only [htake, hdrop]
  rfl

theorem codes_withVarintLength {bytes : Bytes} (h : bytes.length < 2 ^ 62) :
    Codes [writeVarint bytes.length, write bytes] (encodeVarintLen bytes.length + bytes.length)
      readWithVarintLength bytes :=
  (codes_varint h).bind (codes_read bytes)

theorem codes_withU8Length {bytes : Bytes} (h : bytes.length < 256) :
    Codes [writeU8 bytes.length, write bytes] (1 + bytes.length) readWithU8Length bytes :=
  (codes_be h).bind (codes_read bytes)

end MoqQuic.L1.Tquic
