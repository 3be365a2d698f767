import Mathlib.Algebra.Order.Ring.Int
import Mathlib.Data.List.Basic
import Mathlib.Data.Nat.Log
import Mathlib.Data.Nat.Size

/-!
# Packet numbers (`packet.rs`, `window.rs`, `packet_number.go`)

A packet number is sent without its high bits. How many bytes are left depends
on the largest number that the peer is known to have; the receiver completes the
number from the largest one it has processed. A window over the last 128 numbers
finds those that were received before.

`Nat` stands for `u64`. Nothing keeps a received number below `2 ^ 62`; it is less
than `2 ^ 32` above the largest one (`decodePacketNum_lt`), so the sums of the
source stay below `2 ^ 64` for the first `2 ^ 31` packets of a space.

Results:
* `rfcPacketNumLen_le`: the length is at least the one of RFC 9000 A.2, also if
  it was chosen for an older acknowledged number.
* `ReceivedNums.processed_once`: no number is processed twice, and a new one is
  only refused if it is below the window.
* `truncation_interoperates`: both stacks read the numbers that either of them
  shortens.
-/
namespace MoqQuic.L2.Tquic
open List

/-- How many numbers are unacknowledged, the new one included. mirrors packet.rs:673-677 -/
def numUnacked (pktNum : Nat) : Option Nat → Nat
  | some largestAcked => pktNum - largestAcked
  | none => pktNum + 1

/-- mirrors packet.rs:669-681; `u64::BITS - n.leading_zeros()` is the size of `n` -/
def packetNumLen (pktNum : Nat) (largestAcked : Option Nat) : Nat :=
  ((numUnacked pktNum largestAcked).size + 1 + 7) / 8

/-- RFC 9000 A.2: one bit more than the logarithm of the number of unacknowledged packets, in whole bytes. -/
def rfcPacketNumLen (pktNum : Nat) (largestAcked : Option Nat) : Nat :=
  (Nat.clog 2 (numUnacked pktNum largestAcked) + 1 + 7) / 8

/-- `known` is an older acknowledged number than `largest`, if any is known. -/
theorem rfcPacketNumLen_le {pktNum : Nat} {known largest : Option Nat}
    (h : ∀ n, known = some n → ∃ m, largest = some m ∧ n ≤ m) :
    rfcPacketNumLen pktNum largest ≤ packetNumLen pktNum known := by
  have hunacked : numUnacked pktNum largest ≤ numUnacked pktNum known := by
    cases known with
    | none =>
      cases largest with
      | none => exact le_rfl
      | some m => exact (Nat.sub_le pktNum m).trans (Nat.le_succ pktNum)
    | some n =>
      obtain ⟨m, rfl, hle⟩ := h n rfl
      exact Nat.sub_le_sub_left hle pktNum
  have hbits : Nat.clog 2 (numUnacked pktNum largest) ≤ (numUnacked pktNum known).size :=
    (Nat.clog_mono_right 2 hunacked).trans (Nat.clog_le_of_le_pow (Nat.lt_size_self _).le)
  exact Nat.div_le_div_right (by omega)

/-- mirrors packet.rs:615-638; `truncated` has `len` bytes, so the low bits of the expected number are replaced by it -/
def decodePacketNum (largest truncated len : Nat) : Nat :=
  let expected := largest + 1
  let win := 2 ^ (8 * len)
  let hwin := win / 2
  let candidate := expected / win * win + truncated
  if candidate + hwin ≤ expected ∧ candidate < 2 ^ 62 - win then candidate + win
  else if candidate > expected + hwin ∧ candidate ≥ win then candidate - win
  else candidate

/-! ## Beside quic-go (`packet_number.go`)

A receiver that has processed nothing has the largest number zero in both stacks. -/

/-- mirrors packet_number.go:26-40 -/
def decodePacketNumber (length : Nat) (largest truncated : Int) : Int :=
  let expected := largest + 1
  let win := 2 ^ (8 * length)
  let hwin := win / 2
  let candidate := expected / win * win + truncated
  if candidate ≤ expected - hwin ∧ candidate < 2 ^ 62 - win then candidate + win
  else if candidate > expected + hwin ∧ candidate ≥ win then candidate - win
  else candidate

/-- mirrors packet_number.go:44-57 -/
def packetNumberLengthForHeader (pn largestAcked : Int) : Nat :=
  let numUnacked := if largestAcked = -1 then pn + 1 else pn - largestAcked
  if numUnacked < 2 ^ 15 then 2 else if numUnacked < 2 ^ 23 then 3 else 4

theorem decodePacketNumber_eq (len largest truncated : Nat) :
    decodePacketNumber len largest truncated = decodePacketNum largest truncated len := by
  have hwin : (2 ^ (8 * len) : Int) = (2 ^ (8 * len) : Nat) := by
    push_cast
    rfl
  have hbase : ((largest + 1) / (2 ^ (8 * len) : Nat) * (2 ^ (8 * len) : Nat) : Int) =
      ((largest + 1) / 2 ^ (8 * len) * 2 ^ (8 * len) : Nat) := rfl
  simp only [decodePacketNumber, decodePacketNum]
  rw [hwin, hbase]
  generalize (largest + 1) / 2 ^ (8 * len) * 2 ^ (8 * len) = base
  generalize 2 ^ (8 * len) = win
  split_ifs <;> omega

/-- The number is read back if it is within half a window of the expected one. -/
theorem decodePacketNum_mod {pn largest len : Nat} (hpn : pn < 2 ^ 62) (hlen : 0 < len)
    (hlo : pn < largest + 2 ^ (8 * len - 1)) (hhi : largest + 1 < pn + 2 ^ (8 * len - 1)) :
    decodePacketNum largest (pn % 2 ^ (8 * len)) len = pn := by
  have hwin : 2 ^ (8 * len) = 2 * 2 ^ (8 * len - 1) := by
    rw [← pow_succ']
    congr 1
    omega
  simp only [decodePacketNum]
  generalize 2 ^ (8 * len) = win at *
  generalize 2 ^ (8 * len - 1) = hwin at *
  have hbase := Nat.div_add_mod' (largest + 1) win
  have hnum := Nat.div_add_mod' pn win
  have hmod := Nat.mod_lt (largest + 1) (by omega : win > 0)
  have hmod' := Nat.mod_lt pn (by omega : win > 0)
  -- the two numbers are in the same window or in neighbouring ones
  have hle : (largest + 1) / win ≤ pn / win + 1 := by
    rw [← Nat.add_div_right pn (by omega)]
    exact Nat.div_le_div_right (by omega)
  have hle' : pn / win ≤ (largest + 1) / win + 1 := by
    rw [← Nat.add_div_right (largest + 1) (by omega)]
    exact Nat.div_le_div_right (by omega)
  obtain h | h | h : (largest + 1) / win = pn / win + 1 ∨ (largest + 1) / win = pn / win ∨
      pn / win = (largest + 1) / win + 1 := by omega
  · rw [h, Nat.add_mul] at *
    split_ifs <;> omega
  · rw [h] at *
    split_ifs <;> omega
  · rw [h, Nat.add_mul] at hnum
    split_ifs <;> omega

theorem numUnacked_lt_packetNumLen (pn : Nat) (la : Option Nat) :
    0 < packetNumLen pn la ∧ numUnacked pn la < 2 ^ (8 * packetNumLen pn la - 1) := by
  refine ⟨by rw [packetNumLen]; omega, (Nat.lt_size_self _).trans_le (Nat.pow_le_pow_right (by decide) ?_)⟩
  rw [packetNumLen]
  omega

theorem numUnacked_lt_packetNumberLengthForHeader {pn : Nat} {la : Option Nat} (hla : ∀ n, la = some n → n < pn)
    (h : numUnacked pn la < 2 ^ 31) :
    let len := packetNumberLengthForHeader pn (la.elim (-1) (↑))
    0 < len ∧ numUnacked pn la < 2 ^ (8 * len - 1) := by
  have heq : ((numUnacked pn la : Nat) : Int) = if la.elim (-1) (↑) = (-1 : Int) then (pn : Int) + 1
      else pn - la.elim (-1) (↑) := by
    cases la with
    | none => rfl
    | some n =>
      rw [Option.elim_some, if_neg (by omega)]
      exact Int.ofNat_sub (hla n rfl).le
  simp only [packetNumberLengthForHeader, ← heq]
  split_ifs <;> omega

/-- Either length makes the number readable for either receiver. -/
theorem truncation_interoperates {pn len largest : Nat} (la : Option Nat) (hpn : pn < 2 ^ 62)
    (hla : ∀ n, la = some n → n < pn) (hun : numUnacked pn la < 2 ^ 31)
    (hlen : len = packetNumLen pn la ∨ len = packetNumberLengthForHeader pn (la.elim (-1) (↑)))
    (hlo : ∀ n, la = some n → n ≤ largest) (hhi : largest < pn + 2 ^ (8 * len - 1) - 1) :
    decodePacketNum largest (pn % 2 ^ (8 * len)) len = pn ∧
      decodePacketNumber len largest (pn % 2 ^ (8 * len) : Nat) = pn := by
  have hshort : 0 < len ∧ numUnacked pn la < 2 ^ (8 * len - 1) := by
    rcases hlen with rfl | rfl
    · exact numUnacked_lt_packetNumLen pn la
    · exact numUnacked_lt_packetNumberLengthForHeader hla hun
  have hle : pn ≤ largest + numUnacked pn la := by
    cases la with
    | none => exact (Nat.le_succ pn).trans (Nat.le_add_left _ _)
    | some n =>
      have := hlo n rfl
      simp only [numUnacked]
      omega
  have hdec : decodePacketNum largest (pn % 2 ^ (8 * len)) len = pn :=
    decodePacketNum_mod hpn hshort.1 (by omega) (by omega)
  exact ⟨hdec, by rw [decodePacketNumber_eq, hdec]⟩

/-- The packet of RFC 9000 A.2, with two bytes. -/
theorem truncation_interoperates_rfc : decodePacketNum 0xabe8b3 (0xac5c02 % 2 ^ 16) 2 = 0xac5c02 ∧
    decodePacketNumber 2 0xabe8b3 (0xac5c02 % 2 ^ 16 : Nat) = 0xac5c02 :=
  truncation_interoperates (some 0xabe8b3) (by decide) (by simp) (by decide) (.inr (by decide)) (by simp)
    (by decide)

/-! ## Numbers that were received (`window.rs`) -/

/-- Bit `i` stands for the number `i` below the upper end. mirrors window.rs:21-27 -/
structure SeqNumWindow where
  lower : Nat
  window : BitVec 128
  deriving DecidableEq

namespace SeqNumWindow

/-- mirrors the derived `Default` -/
def default : SeqNumWindow := ⟨0, 0⟩

/-- In the source the sum saturates. mirrors window.rs:65-67 -/
def upper (w : SeqNumWindow) : Nat := w.lower + 128 - 1

/-- A number beyond the upper end moves the window; the distance is cast to `u32` for the shift.
mirrors window.rs:31-46 -/
def insert (w : SeqNumWindow) (seq : Nat) : SeqNumWindow :=
  if seq < w.lower then w
  else
    let diff := seq - w.upper
    let w := if seq > w.upper then
      ⟨w.lower + diff, if diff % 2 ^ 32 < 128 then w.window <<< (diff % 2 ^ 32) else 0⟩ else w
    { w with window := w.window ||| (1 : BitVec 128) <<< (w.upper - seq) }

/-- mirrors window.rs:49-62 -/
def contains (w : SeqNumWindow) (seq : Nat) : Bool :=
  if seq > w.upper then false
  else if seq < w.lower then true
  else w.window &&& (1 : BitVec 128) <<< (w.upper - seq) ≠ 0

end SeqNumWindow

/-! ## Replays -/

theorem decodePacketNum_lt {largest truncated len : Nat} (hlt : truncated < 2 ^ (8 * len)) (hlen : len ≤ 4) :
    decodePacketNum largest truncated len < largest + 2 ^ 32 := by
  have hwin : 2 ^ (8 * len) ≤ 2 ^ 32 := Nat.pow_le_pow_right (by decide) (by omega)
  have hbase : (largest + 1) / 2 ^ (8 * len) * 2 ^ (8 * len) ≤ largest + 1 := Nat.div_mul_le_self _ _
  simp only [decodePacketNum]
  generalize 2 ^ (8 * len) = win at *
  generalize (largest + 1) / win * win = base at *
  split
  · omega
  · split <;> omega

namespace SeqNumWindow

variable {w : SeqNumWindow} {n : Nat}

theorem contains_iff : w.contains n = true ↔ n ≤ w.upper ∧ (n < w.lower ∨ w.window.getLsbD (w.upper - n) = true) := by
  have hmask : (1 : BitVec 128) <<< (w.upper - n) = BitVec.twoPow 128 (w.upper - n) := rfl
  rw [contains, hmask, BitVec.and_twoPow]
  by_cases hhi : n > w.upper
  · simp [hhi]
  by_cases hlo : n < w.lower
  · simp [hlo, Nat.not_lt.mp hhi]
  have hlt : w.upper - n < 128 := by
    rw [upper]
    omega
  have hne : BitVec.twoPow 128 (w.upper - n) ≠ 0 := by
    intro hzero
    have hbit := congrArg (·.getLsbD (w.upper - n)) hzero
    simp [hlt] at hbit
  cases hbit : w.window.getLsbD (w.upper - n)
  · simp [hhi, hlo]
  · simpa [hhi, hlo] using iff_of_true hne (Nat.not_lt.mp hhi)

/-- A number that is not below the window is added to the last 128 numbers. The shift is right only if the number is
less than `2 ^ 32` above the window. -/
theorem insert_spec (hlo : w.lower ≤ n) (hhi : n - w.upper < 2 ^ 32) : (w.insert n).lower = w.lower + (n - w.upper) ∧
      ∀ x, (w.insert n).lower ≤ x → x ≤ (w.insert n).upper →
        ((w.insert n).window.getLsbD ((w.insert n).upper - x) = true ↔
          x = n ∨ x ≤ w.upper ∧ w.window.getLsbD (w.upper - x) = true) := by
  have hmask : ∀ k, (1 : BitVec 128) <<< k = BitVec.twoPow 128 k := fun _ => rfl
  obtain ⟨lower, window⟩ := w
  simp only [upper] at hlo hhi
  simp only [insert, upper, if_neg (Nat.not_lt.mpr hlo), hmask, Nat.mod_eq_of_lt hhi]
  by_cases hgt : n > lower + 128 - 1
  · simp only [if_pos hgt, BitVec.getLsbD_or, BitVec.getLsbD_twoPow]
    refine ⟨trivial, fun x hx hx' => ?_⟩
    split
    · have hshift : lower + (n - (lower + 128 - 1)) + 128 - 1 - x - (n - (lower + 128 - 1)) = lower + 128 - 1 - x := by
        omega
      rw [BitVec.getLsbD_shiftLeft, hshift]
      cases window.getLsbD (lower + 128 - 1 - x) <;> simp <;> omega
    · simp
      omega
  simp only [if_neg hgt, BitVec.getLsbD_or, BitVec.getLsbD_twoPow]
  refine ⟨by omega, fun x hx hx' => ?_⟩
  cases window.getLsbD (lower + 128 - 1 - x) <;> simp <;> omega

end SeqNumWindow

/-- A packet as it arrives: the bytes of its number, and whether it can be decrypted and processed. -/
structure Arrival where
  truncated : Nat
  len : Nat
  ok : Bool
  lt : truncated < 2 ^ (8 * len)
  len_le : len ≤ 4

/-- What a packet number space knows of the received packets; `processed` is not in the source. -/
structure ReceivedNums where
  largestRxPktNum : Nat := 0
  recvPktNumWin : SeqNumWindow := .default
  processed : List Nat := []

namespace ReceivedNums

/-- mirrors connection.rs:543-554, 650-657 -/
def recvPacket (s : ReceivedNums) (a : Arrival) : ReceivedNums :=
  let pktNum := decodePacketNum s.largestRxPktNum a.truncated a.len
  if s.recvPktNumWin.contains pktNum ∨ a.ok = false then s
  else ⟨max s.largestRxPktNum pktNum, s.recvPktNumWin.insert pktNum, pktNum :: s.processed⟩

/-- The window holds the processed numbers among the last 128, and ends at the largest one once that is not below
127. -/
structure Exact (s : ReceivedNums) : Prop where
  nodup : s.processed.Nodup
  le_largest : ∀ n ∈ s.processed, n ≤ s.largestRxPktNum
  upper : s.recvPktNumWin.upper = max 127 s.largestRxPktNum
  bit : ∀ n, s.recvPktNumWin.lower ≤ n → n ≤ s.recvPktNumWin.upper →
    (s.recvPktNumWin.window.getLsbD (s.recvPktNumWin.upper - n) = true ↔ n ∈ s.processed)

variable {s : ReceivedNums}

theorem Exact.recvPacket (h : s.Exact) (a : Arrival) : (s.recvPacket a).Exact := by
  have hlt : decodePacketNum s.largestRxPktNum a.truncated a.len < s.largestRxPktNum + 2 ^ 32 :=
    decodePacketNum_lt a.lt a.len_le
  rw [ReceivedNums.recvPacket]
  generalize decodePacketNum s.largestRxPktNum a.truncated a.len = n at hlt
  split
  · exact h
  · next hnew =>
    have hno := mt SeqNumWindow.contains_iff.mpr fun hc => hnew (.inl hc)
    have hup := h.upper
    have hup' : ∀ w : SeqNumWindow, w.upper = w.lower + 127 := fun _ => rfl
    have hlo : s.recvPktNumWin.lower ≤ n := by
      rw [hup'] at hup hno
      omega
    obtain ⟨hlower, hbit⟩ := SeqNumWindow.insert_spec (n := n) hlo (by omega)
    have hle : ∀ m ∈ n :: s.processed, m ≤ max s.largestRxPktNum n :=
      forall_mem_cons.mpr ⟨Nat.le_max_right _ _, fun m hm => Nat.le_trans (h.le_largest m hm) (Nat.le_max_left _ _)⟩
    refine ⟨nodup_cons.mpr ⟨fun hmem => ?_, h.nodup⟩, hle, ?_, fun x hx hx' => ?_⟩
    · have := h.le_largest n hmem
      exact hno ⟨by omega, .inr ((h.bit n hlo (by omega)).mpr hmem)⟩
    · rw [hup'] at hup ⊢
      rw [hlower, hup']
      dsimp only
      omega
    rw [hbit x hx hx', mem_cons]
    refine or_congr_right ⟨fun hin => ?_, fun hmem => ?_⟩
    · rw [hlower] at hx
      exact (h.bit x (by omega) hin.1).mp hin.2
    have := h.le_largest x hmem
    rw [hlower] at hx
    exact ⟨by omega, (h.bit x (by omega) (by omega)).mpr hmem⟩

theorem exact_foldl (arrivals : List Arrival) (h : s.Exact) : (arrivals.foldl recvPacket s).Exact := by
  induction arrivals generalizing s with
  | nil => exact h
  | cons a arrivals ih => exact ih (h.recvPacket a)

/-- No number is processed twice, and a new one that is less than 128 below the largest is not taken for a duplicate. -/
theorem processed_once (arrivals : List Arrival) : (arrivals.foldl recvPacket {}).processed.Nodup ∧
      ∀ n ∉ (arrivals.foldl recvPacket {}).processed, (arrivals.foldl recvPacket {}).largestRxPktNum < n + 128 →
        (arrivals.foldl recvPacket {}).recvPktNumWin.contains n = false := by
  have hnew : ({} : ReceivedNums).Exact :=
    ⟨nodup_nil, fun n hn => absurd hn not_mem_nil, rfl, fun n _ _ => by simp [SeqNumWindow.default]⟩
  have h := exact_foldl arrivals hnew
  generalize arrivals.foldl recvPacket {} = s at h
  refine ⟨h.nodup, fun n hn hlt => ?_⟩
  by_contra hdup
  obtain ⟨hle, hin⟩ := SeqNumWindow.contains_iff.mp (Bool.not_eq_false _ ▸ hdup)
  have hup := h.upper
  have hlo : s.recvPktNumWin.lower ≤ n := by
    rw [show s.recvPktNumWin.upper = s.recvPktNumWin.lower + 127 from rfl] at hup
    omega
  exact hn ((h.bit n hlo hle).mp (hin.resolve_left (Nat.not_lt.mpr hlo)))

/-- Packet 3 arrives after 5 and again; 4 is then still accepted. -/
theorem processed_once_late : ∃ arrivals : List Arrival, (arrivals.foldl recvPacket {}).processed = [3, 5] ∧
    (arrivals.foldl recvPacket {}).recvPktNumWin.contains 4 = false :=
  ⟨[⟨5, 1, true, by decide, by decide⟩, ⟨3, 1, true, by decide, by decide⟩, ⟨3, 1, true, by decide, by decide⟩],
    by decide, (processed_once _).2 4 (by decide) (by decide)⟩

end ReceivedNums

end MoqQuic.L2.Tquic
