import Mathlib.Algebra.Order.Ring.Int

/-!
# Numbers of the QUIC layer and RTT statistics

`internal/protocol`, `internal/monotime` and `internal/utils/rtt_stats.go`:
packet numbers, times and durations (in nanoseconds) are `int64` counts, read
here as integers; a byte count is never negative and is read as a natural
number. Time zero is `IsZero`.

`UpdateRTT` smooths in `float32` on whole microseconds; the products are read
as exact rationals and truncated, which is what `float32` computes as long as
the estimates stay below four seconds.
-/
namespace MoqQuic.L2

/-- mirrors packet_number.go:6-8 -/
abbrev invalidPacketNumber : Int := -1

abbrev microsecond : Int := 1000
abbrev millisecond : Int := 1000000
abbrev second : Int := 1000000000

/-- The largest `int64`. -/
abbrev maxInt64 : Int := 9223372036854775807

/-- mirrors encryption_level.go:12-21 -/
inductive EncryptionLevel
  | initial
  | handshake
  | zeroRTT
  | oneRTT
  deriving DecidableEq, Repr

/-- The texts of error messages. mirrors encryption_level.go:23-35 -/
def EncryptionLevel.string : EncryptionLevel → String
  | .initial => "Initial"
  | .handshake => "Handshake"
  | .zeroRTT => "0-RTT"
  | .oneRTT => "1-RTT"

/-- mirrors perspective.go:3-10 -/
inductive Perspective
  | server
  | client
  deriving DecidableEq, Repr

/-- mirrors params.go:53-73 and :147 -/
abbrev skipPacketInitialPeriod : Int := 256
abbrev skipPacketMaxPeriod : Int := 128 * 1024
abbrev maxOutstandingSentPackets : Nat := 2 * 10000
abbrev maxTrackedSentPackets : Nat := maxOutstandingSentPackets * 5 / 4
abbrev timerGranularity : Int := millisecond

/-- mirrors rtt_stats.go:18 -/
abbrev defaultInitialRTT : Int := 100 * millisecond

/-- mirrors rtt_stats.go:21-30 -/
structure RTTStats where
  hasMeasurement : Bool := false
  minRTT : Int := defaultInitialRTT
  latestRTT : Int := defaultInitialRTT
  smoothedRTT : Int := defaultInitialRTT
  meanDeviation : Int := 0
  maxAckDelay : Int := 0
  deriving DecidableEq, Repr

namespace RTTStats

/-- mirrors rtt_stats.go:68-78 -/
def pto (r : RTTStats) (includeMaxAckDelay : Bool) : Int :=
  if !r.hasMeasurement then 2 * defaultInitialRTT
  else
    let pto := r.smoothedRTT + max (4 * r.meanDeviation) timerGranularity
    if includeMaxAckDelay then pto + r.maxAckDelay else pto

/-- mirrors rtt_stats.go:81-116 -/
def updateRTT (r : RTTStats) (sendDelta ackDelay : Int) : RTTStats :=
  if sendDelta ≤ 0 then r
  else
    let minRTT := if !r.hasMeasurement || r.minRTT > sendDelta then sendDelta else r.minRTT
    -- the peer's delay is subtracted only if that leaves at least the minimum
    let sample := if sendDelta - minRTT ≥ ackDelay then sendDelta - ackDelay else sendDelta
    if !r.hasMeasurement then
      { r with hasMeasurement := true, minRTT, latestRTT := sample, smoothedRTT := sample,
               meanDeviation := sample.tdiv 2 }
    else
      let deviation : Int := (r.smoothedRTT - sample).natAbs
      let meanDev :=
        (3 * r.meanDeviation.tdiv microsecond + deviation.tdiv microsecond).tdiv 4 * microsecond
      let newSmoothedRTT :=
        (7 * r.smoothedRTT.tdiv microsecond + sample.tdiv microsecond).tdiv 8 * microsecond
      { r with minRTT, latestRTT := sample, smoothedRTT := newSmoothedRTT, meanDeviation := meanDev }

/-- mirrors rtt_stats.go:129-139 -/
def setInitialRTT (r : RTTStats) (t : Int) : RTTStats :=
  if r.hasMeasurement then r else { r with smoothedRTT := t, latestRTT := t }

/-- mirrors rtt_stats.go:141-148 -/
def resetForPathMigration (r : RTTStats) : RTTStats :=
  { maxAckDelay := r.maxAckDelay }

end RTTStats

end MoqQuic.L2
