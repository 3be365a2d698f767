import Mathlib.Algebra.Order.Ring.Int

/-!
# The token bucket of quic-go (`internal/congestion/pacer.go`)

A sent packet takes bytes out of the budget, and time puts them back at the
adjusted bandwidth, up to `maxBurstSize`. The bandwidth and the datagram size
stay as they are between the calls, so the bandwidth is an argument. Times are
nanoseconds on the monotonic clock and never negative.

If the product of bandwidth and time does not fit into 64 bits, it counts as ten
datagrams. `maxBurstSize` may be more than that: two milliseconds at the
bandwidth.

Results:
* `budget_after_wait`: the budget is at most `maxBurstSize`, and from the time
  that `TimeUntilSend` returns on it suffices for a datagram.
* `budget_monotone_iff`: the budget never falls while nothing is sent, exactly if
  no packet was sent before or what two milliseconds add is not more than the
  budget that was left and ten datagrams.
-/
namespace MoqQuic.L2.Congestion

/-- The length of a UDP datagram has 16 bits. mirrors pacer.go:14-19 -/
structure Pacer where
  budgetAtLastSent : Nat
  maxDatagramSize : Nat
  lastSentTime : Nat
  size_lt : maxDatagramSize < 2 ^ 16

namespace Pacer

variable (p : Pacer) (bw : Nat)

/-- mirrors pacer.go:74-88 -/
def timeScaledBandwidth (ns : Nat) : Nat :=
  if bw = 0 then 0
  else if ns > (2 ^ 64 - 1) / bw then 10 * p.maxDatagramSize
  else bw * ns / 1000000000

/-- mirrors pacer.go:64-69, params.go:126 and :147 -/
def maxBurstSize : Nat := max (p.timeScaledBandwidth bw 2000000) (10 * p.maxDatagramSize)

/-- A sum beyond `int64` wraps below the first summand. mirrors pacer.go:48-62 -/
def budget (now : Nat) : Nat :=
  if p.lastSentTime = 0 then p.maxBurstSize bw
  else
    let sum := p.budgetAtLastSent + p.timeScaledBandwidth bw (now - p.lastSentTime)
    min (p.maxBurstSize bw) (if 2 ^ 63 ≤ sum then 2 ^ 62 - 1 else sum)

/-- mirrors pacer.go:38-46 -/
def sentPacket (sendTime size : Nat) : Pacer :=
  { p with budgetAtLastSent := p.budget bw sendTime - size, lastSentTime := sendTime }

/-- `none`: the division by the bandwidth panics. mirrors pacer.go:92-106 -/
def timeUntilSend : Option Nat :=
  if p.budgetAtLastSent ≥ p.maxDatagramSize then some 0
  else if bw = 0 then none
  else
    let diff := 1000000000 * (p.maxDatagramSize - p.budgetAtLastSent)
    some (p.lastSentTime + max 1000000 (diff / bw + if diff % bw > 0 then 1 else 0))

variable {p bw} {t : Nat}

theorem maxBurstSize_lt : p.maxBurstSize bw < 2 ^ 62 := by
  have hsize := p.size_lt
  have hscaled : p.timeScaledBandwidth bw 2000000 < 2 ^ 62 := by
    rw [timeScaledBandwidth]
    split
    · decide
    rename_i hbw
    split
    · omega
    rename_i hns
    have hmul := Nat.mul_comm _ _ ▸
      (Nat.le_div_iff_mul_le (Nat.pos_of_ne_zero hbw)).mp (Nat.not_lt.mp hns)
    omega
  rw [maxBurstSize]
  omega

/-- The sum wraps only where the burst limit is far below it. -/
theorem budget_eq (h : p.lastSentTime ≠ 0) (t : Nat) : p.budget bw t =
    min (p.maxBurstSize bw) (p.budgetAtLastSent + p.timeScaledBandwidth bw (t - p.lastSentTime)) := by
  have hlt := @maxBurstSize_lt p bw
  rw [budget, if_neg h]
  dsimp only
  split <;> omega

theorem budget_le : p.budget bw t ≤ p.maxBurstSize bw := by
  rw [budget]
  split
  · exact le_rfl
  · exact Nat.min_le_left _ _

/-- A time in which the bandwidth makes up for `n` bytes adds `n` bytes. -/
theorem le_timeScaledBandwidth {n ns : Nat} (hbw : 0 < bw) (hn : n ≤ 10 * p.maxDatagramSize)
    (h : n * 1000000000 ≤ bw * ns) : n ≤ p.timeScaledBandwidth bw ns := by
  rw [timeScaledBandwidth, if_neg (by omega)]
  split
  · exact hn
  · exact (Nat.le_div_iff_mul_le (by decide)).mpr h

/-- The budget stays within `maxBurstSize`, and after the wait there is room for a datagram. -/
theorem budget_after_wait (p : Pacer) (bw t : Nat) (hbw : 0 < bw) : p.budget bw t ≤ p.maxBurstSize bw ∧
      ∃ wait, p.timeUntilSend bw = some wait ∧ (wait ≠ 0 → wait ≤ t → p.maxDatagramSize ≤ p.budget bw t) := by
  refine ⟨budget_le, ?_⟩
  rw [timeUntilSend]
  split
  · exact ⟨0, rfl, fun hwait => absurd rfl hwait⟩
  rw [if_neg (by omega)]
  refine ⟨_, rfl, fun _ hle => ?_⟩
  have hburst : 10 * p.maxDatagramSize ≤ p.maxBurstSize bw := Nat.le_max_right _ _
  by_cases hlast : p.lastSentTime = 0
  · rw [budget, if_pos hlast]
    omega
  -- the wait is rounded up, so it makes up for all that is missing
  have hns : (p.maxDatagramSize - p.budgetAtLastSent) * 1000000000 ≤ bw * (t - p.lastSentTime) := by
    generalize hd : 1000000000 * (p.maxDatagramSize - p.budgetAtLastSent) = diff at hle
    have hdiv := Nat.div_add_mod diff bw
    have hceil : diff ≤ bw * (diff / bw + if diff % bw > 0 then 1 else 0) := by
      have := Nat.mod_lt diff hbw
      split <;> rw [Nat.mul_add] <;> omega
    rw [Nat.mul_comm, hd]
    exact Nat.le_trans hceil (Nat.mul_le_mul_left bw (by omega))
  have hadded := le_timeScaledBandwidth (p := p) hbw (by omega) hns
  rw [budget_eq hlast]
  omega

/-- Of 1200 bytes 200 are left; at a million bytes per second the wait is one millisecond. -/
theorem budget_after_wait_millisecond : (⟨200, 1200, 5, by decide⟩ : Pacer).timeUntilSend 1000000 = some 1000005 ∧
      1200 ≤ (⟨200, 1200, 5, by decide⟩ : Pacer).budget 1000000 1000005 := by
  have hsend : (⟨200, 1200, 5, by decide⟩ : Pacer).timeUntilSend 1000000 = some 1000005 := by decide
  obtain ⟨-, wait, hwait, hroom⟩ := budget_after_wait ⟨200, 1200, 5, by decide⟩ 1000000 1000005 (by decide)
  obtain rfl := Option.some.inj (hwait.symm.trans hsend)
  exact ⟨hsend, hroom (by decide) le_rfl⟩

/-- Waiting longer never lowers the budget, exactly if two milliseconds at the bandwidth are not more than the budget
left and ten datagrams, or nothing was sent. -/
theorem budget_monotone_iff (p : Pacer) (bw : Nat) : (∀ t1 t2, t1 ≤ t2 → p.budget bw t1 ≤ p.budget bw t2) ↔
      p.lastSentTime = 0 ∨ p.timeScaledBandwidth bw 2000000 ≤ p.budgetAtLastSent + 10 * p.maxDatagramSize := by
  by_cases hlast : p.lastSentTime = 0
  · simp [budget, hlast]
  simp only [budget_eq hlast, hlast, false_or]
  constructor
  · intro hmono
    by_contra hgt
    have hno : ¬ 2000000 > (2 ^ 64 - 1) / bw := by
      intro hover
      rw [timeScaledBandwidth, if_pos hover] at hgt
      split at hgt <;> omega
    have hbw : bw ≠ 0 := by
      rintro rfl
      exact hgt (Nat.zero_le _)
    -- one nanosecond after the last product that fits
    have h := hmono (p.lastSentTime + 2000000) (p.lastSentTime + ((2 ^ 64 - 1) / bw + 1)) (by omega)
    have hover : p.timeScaledBandwidth bw ((2 ^ 64 - 1) / bw + 1) = 10 * p.maxDatagramSize := by
      rw [timeScaledBandwidth, if_neg hbw, if_pos (Nat.lt_succ_self _)]
    rw [Nat.add_sub_cancel_left, Nat.add_sub_cancel_left, hover, maxBurstSize] at h
    omega
  intro hle t1 t2 ht
  have hdelta : t1 - p.lastSentTime ≤ t2 - p.lastSentTime := by omega
  generalize t1 - p.lastSentTime = d1 at hdelta
  generalize t2 - p.lastSentTime = d2 at hdelta
  have hmax : p.maxBurstSize bw ≤ p.budgetAtLastSent + 10 * p.maxDatagramSize := Nat.max_le.mpr ⟨hle, by omega⟩
  have hcases : p.timeScaledBandwidth bw d1 ≤ p.timeScaledBandwidth bw d2 ∨
      p.timeScaledBandwidth bw d2 = 10 * p.maxDatagramSize := by
    simp only [timeScaledBandwidth]
    split
    · exact .inl le_rfl
    split
    · next hover => exact .inr (if_pos (Nat.lt_of_lt_of_le hover hdelta))
    split
    · exact .inr rfl
    · exact .inl (Nat.div_le_div_right (Nat.mul_le_mul_left bw hdelta))
  omega

/-- At a gigabyte per second the budget is two million bytes after 17 seconds, and ten datagrams after 19. -/
theorem budget_falls : (⟨0, 1200, 1, by decide⟩ : Pacer).budget 1000000000 17000000001 = 2000000 ∧
    (⟨0, 1200, 1, by decide⟩ : Pacer).budget 1000000000 19000000001 = 12000 := by
  decide

end Pacer

end MoqQuic.L2.Congestion
