import Mathlib.Algebra.Order.Ring.Int
import MoqQuic.Core.LTS
import MoqQuic.L2Machine.Congestion.Bbrv3
import MoqQuic.L2Machine.Congestion.Behaviour

/-!
# Statistics of `BBRv3Sender`

Model of `internal/congestion/bbrv3_stats.go` and of the calls that `bbrv3.go` makes
to it. A `BBRv3Stats` is an `Object`: its counters and gauges (`Stats`), and the flag
and the channel of its logging goroutine. The sender has a pointer to one of them.

An operation is run here from beginning to end, as if it were alone; what threads can
see of it is in `L5Concurrency.Bbrv3Stats`. `OnBytesLost` unlocks the mutex before it
locks it. Alone, it does not hold the mutex then, and the program ends.

Results:
* `calls_plain`: a sequence of calls that only record something.
* `complete_iff`: the snapshot has the sums of all byte counts, and the sender its
  logger, as long as nothing is lost and no timeout resets the sender.
* `reset_drops_stats`: the reset drops the statistics.

Line numbers without a file are those of `bbrv3_stats.go`.
-/
namespace MoqQuic.L2.Congestion.Bbrv3

open L2 L2.Congestion List

/-- What is recorded. `state` is the name of the sender's state, at first empty.
mirrors :39-85 and :98-103 -/
structure Stats where
  cwnd : Nat := 0
  minCwnd : Nat := 0
  maxCwnd : Nat := 0
  ssthresh : Nat := 2 ^ 63 - 1
  totalBytesSent : Nat := 0
  totalBytesAcked : Nat := 0
  totalBytesLost : Nat := 0
  bytesInFlight : Nat := 0
  retransmissions : Nat := 0
  minRtt : Int := maxInt64
  avgRtt : Int := 0
  currentRtt : Int := 0
  rttSampleCount : Nat := 0
  rttSum : Int := 0
  pacingRate : Nat := 0
  maxBandwidth : Nat := 0
  currentBandwidth : Nat := 0
  state : Option State := none
  inSlowStart : Bool := false
  inRecovery : Bool := false

/-- The zero value is the snapshot of a sender without statistics.
mirrors :360-379 -/
structure StatsSnapshot where
  cwnd : Nat := 0
  minCwnd : Nat := 0
  maxCwnd : Nat := 0
  ssthresh : Nat := 0
  totalBytesSent : Nat := 0
  totalBytesAcked : Nat := 0
  totalBytesLost : Nat := 0
  bytesInFlight : Nat := 0
  retransmissions : Nat := 0
  minRtt : Int := 0
  avgRtt : Int := 0
  currentRtt : Int := 0
  pacingRate : Nat := 0
  maxBandwidth : Nat := 0
  currentBandwidth : Nat := 0
  state : Option State := none
  inSlowStart : Bool := false
  inRecovery : Bool := false

namespace Stats

/-- The sum of two `uint64`s. -/
def addUint64 (a b : Nat) : Nat := (a + b) % 2 ^ 64

variable (s : Stats)

/-- mirrors :199-207 -/
def updateCwnd (cwnd : Nat) : Stats := { s with cwnd, maxCwnd := max s.maxCwnd cwnd }

/-- mirrors :210-215 -/
def updateMinCwnd (minCwnd : Nat) : Stats := { s with minCwnd }

/-- mirrors :218-223 -/
def updateSsthresh (ssthresh : Nat) : Stats := { s with ssthresh }

/-- mirrors :226-231 -/
def onPacketSent (bytes : Nat) : Stats :=
  { s with totalBytesSent := addUint64 s.totalBytesSent bytes }

/-- mirrors :234-239 -/
def onPacketAcked (bytes : Nat) : Stats :=
  { s with totalBytesAcked := addUint64 s.totalBytesAcked bytes }

/-- mirrors :247 -/
def onBytesLost (bytes : Nat) : Stats :=
  { s with totalBytesLost := addUint64 s.totalBytesLost bytes }

/-- mirrors :251-256 -/
def onRetransmission : Stats := { s with retransmissions := addUint64 s.retransmissions 1 }

/-- mirrors :259-264 -/
def updateBytesInFlight (bytesInFlight : Nat) : Stats := { s with bytesInFlight }

/-- mirrors :267-282 -/
def updateRtt (rtt : Int) : Stats :=
  let rttSampleCount := addUint64 s.rttSampleCount 1
  let rttSum := addTime s.rttSum rtt
  { s with
    currentRtt := rtt, minRtt := min s.minRtt rtt, rttSampleCount, rttSum
    avgRtt := rttSum.tdiv (Int.bmod rttSampleCount (2 ^ 64)) }

/-- mirrors :285-290 -/
def updatePacingRate (pacingRate : Nat) : Stats := { s with pacingRate }

/-- mirrors :293-298 -/
def updateMaxBandwidth (maxBandwidth : Nat) : Stats := { s with maxBandwidth }

/-- mirrors :301-306 -/
def updateCurrentBandwidth (currentBandwidth : Nat) : Stats := { s with currentBandwidth }

/-- mirrors :309-314 -/
def updateState (state : State) : Stats := { s with state := some state }

/-- mirrors :317-322 -/
def setSlowStart (inSlowStart : Bool) : Stats := { s with inSlowStart }

/-- mirrors :325-330 -/
def setRecovery (inRecovery : Bool) : Stats := { s with inRecovery }

/-- mirrors :333-357 -/
def getStats : StatsSnapshot :=
  { cwnd := s.cwnd, minCwnd := s.minCwnd, maxCwnd := s.maxCwnd, ssthresh := s.ssthresh
    totalBytesSent := s.totalBytesSent, totalBytesAcked := s.totalBytesAcked, totalBytesLost := s.totalBytesLost
    bytesInFlight := s.bytesInFlight, retransmissions := s.retransmissions
    minRtt := s.minRtt, avgRtt := s.avgRtt, currentRtt := s.currentRtt
    pacingRate := s.pacingRate, maxBandwidth := s.maxBandwidth, currentBandwidth := s.currentBandwidth
    state := s.state, inSlowStart := s.inSlowStart, inRecovery := s.inRecovery }

end Stats

/-! ## The methods -/

/-- A method that takes the lock, changes what is recorded, and returns. -/
inductive Record
  | updateCwnd (cwnd : Nat)
  | updateMinCwnd (minCwnd : Nat)
  | updateSsthresh (ssthresh : Nat)
  | onPacketSent (bytes : Nat)
  | onPacketAcked (bytes : Nat)
  | onRetransmission
  | updateBytesInFlight (bytesInFlight : Nat)
  | updateRtt (rtt : Int)
  | updatePacingRate (rate : Nat)
  | updateMaxBandwidth (bw : Nat)
  | updateCurrentBandwidth (bw : Nat)
  | updateState (state : State)
  | setSlowStart (inSlowStart : Bool)
  | setRecovery (inRecovery : Bool)

def Record.apply (s : Stats) : Record → Stats
  | .updateCwnd cwnd => s.updateCwnd cwnd
  | .updateMinCwnd minCwnd => s.updateMinCwnd minCwnd
  | .updateSsthresh ssthresh => s.updateSsthresh ssthresh
  | .onPacketSent bytes => s.onPacketSent bytes
  | .onPacketAcked bytes => s.onPacketAcked bytes
  | .onRetransmission => s.onRetransmission
  | .updateBytesInFlight bytesInFlight => s.updateBytesInFlight bytesInFlight
  | .updateRtt rtt => s.updateRtt rtt
  | .updatePacingRate rate => s.updatePacingRate rate
  | .updateMaxBandwidth bw => s.updateMaxBandwidth bw
  | .updateCurrentBandwidth bw => s.updateCurrentBandwidth bw
  | .updateState state => s.updateState state
  | .setSlowStart inSlowStart => s.setSlowStart inSlowStart
  | .setRecovery inRecovery => s.setRecovery inRecovery

/-- The public methods of `BBRv3Stats`. -/
inductive Method
  | start
  | stop
  | logStats
  | getStats
  | record (r : Record)
  | onBytesLost (bytes : Nat)

/-! ## The calls of the sender -/

namespace Sender

/-- mirrors bbrv3.go:1346-1348 -/
def inSlowStart (b : Sender) : Bool := b.state = .startup

/-- mirrors bbrv3.go:300-303 -/
def createdCalls (b : Sender) : List Method :=
  [.record (.updateMinCwnd b.minCwnd), .record (.updateCwnd b.cwnd), .record (.updateSsthresh (2 ^ 63 - 1)), .start]

/-- mirrors bbrv3.go:318-324 -/
def configuredCalls (b : Sender) : List Method :=
  [.record (.updateMinCwnd b.minCwnd), .record (.updateCwnd b.cwnd), .record (.updateSsthresh (2 ^ 63 - 1)),
    .record (.updateMaxBandwidth b.maxBw), .record (.updatePacingRate b.pacingRate), .record (.updateState b.state),
    .start]

/-- mirrors bbrv3.go:1222-1227 -/
def sentCalls (b : Sender) (bytes bytesInFlight : Nat) : List Method :=
  [.record (.onPacketSent bytes), .record (.updateBytesInFlight bytesInFlight),
    .record (.updatePacingRate b.pacingRate), .record (.updateMaxBandwidth b.maxBw),
    .record (.setSlowStart b.inSlowStart), .record (.setRecovery b.inRecovery)]

/-- `rtt` is the sample, if there is a positive one. mirrors bbrv3.go:1273-1284 -/
def ackedCalls (b : Sender) (ackedBytes priorInFlight : Nat) (rtt : Option Int) : List Method :=
  .record (.onPacketAcked ackedBytes) :: .record (.updateBytesInFlight priorInFlight) :: .record (.updateCwnd b.cwnd) ::
    .record (.updatePacingRate b.pacingRate) :: .record (.updateMaxBandwidth b.maxBw) ::
    .record (.updateCurrentBandwidth b.bw) :: .record (.updateState b.state) ::
    (rtt.toList.map (fun rtt => Method.record (.updateRtt rtt)) ++
      [Method.record (.setSlowStart b.inSlowStart), Method.record (.setRecovery b.inRecovery)])

/-- mirrors bbrv3.go:1299-1301 -/
def lostCalls (b : Sender) (lostBytes priorInFlight : Nat) : List Method :=
  [.onBytesLost lostBytes, .record (.updateBytesInFlight priorInFlight), .record (.setRecovery b.inRecovery)]

/-- mirrors bbrv3.go:1315 -/
def timeoutCalls : List Method := [.record .onRetransmission]

end Sender

/-! ## Objects and pointers -/

/-- A `BBRv3Stats`. `closed`: the channel `stopLogger` is closed. -/
structure Object where
  enabled : Bool
  stats : Stats := {}
  loggerRunning : Bool := false
  closed : Bool := false

/-- `stats` and `statsEnabled` are the fields of the sender; a pointer is an index into `objects`. `loggers` has the
object of every goroutine that was started. -/
structure Memory where
  objects : List Object := []
  stats : Option Nat := none
  statsEnabled : Bool := false
  loggers : List Nat := []

namespace Memory

def modify (m : Memory) (o : Nat) (f : Object → Object) : Memory := { m with objects := m.objects.modify o f }

variable (m : Memory)

/-- `b.stats = NewBBRv3Stats(config)` and the flag. mirrors bbrv3.go:298-299 and bbrv3.go:316-317 -/
def newStats (enabled : Bool) : Memory :=
  { m with objects := m.objects ++ [{ enabled }], stats := some m.objects.length, statsEnabled := true }

/-- mirrors bbrv3.go:326-327 -/
def dropStats : Memory := { m with stats := none, statsEnabled := false }

def record (o : Nat) (r : Record) : Memory :=
  m.modify o fun object => { object with stats := r.apply object.stats }

/-- The body of `Start`. mirrors :111-116 -/
def startLogger (o : Nat) : Memory :=
  match m.objects[o]? with
  | none => m
  | some object =>
    if !object.enabled || object.loggerRunning then m
    else { m.modify o ({ · with loggerRunning := true }) with loggers := m.loggers ++ [o] }

/-- One method on one object, run alone; `none` if the program ends: `close` of a closed channel and `Unlock` of a
mutex that is not locked. mirrors :107-136 and :242-248 -/
def exec (o : Nat) : Method → Option Memory
  | .start => some (m.startLogger o)
  | .stop =>
    match m.objects[o]? with
    | none => none
    | some object =>
      if !object.loggerRunning then some m
      else if object.closed then none
      else some (m.modify o ({ · with closed := true, loggerRunning := false }))
  | .logStats | .getStats => some m
  | .record r => some (m.record o r)
  | .onBytesLost _ => none

/-- `b.stats.Method()` for each of the methods; a nil pointer ends the program. -/
def calls : Memory → List Method → Option Memory
  | m, [] => some m
  | m, method :: methods =>
    match m.stats with
    | none => none
    | some o => (m.exec o method).bind (calls · methods)

/-- `if b.statsEnabled && b.stats != nil` -/
def callsIfEnabled (methods : List Method) : Option Memory :=
  if m.statsEnabled && m.stats.isSome then m.calls methods else some m

/-- mirrors bbrv3.go:331-336 -/
def getStats : StatsSnapshot :=
  match m.stats.bind (m.objects[·]?) with
  | some object => object.stats.getStats
  | none => {}

end Memory

/-! ## The sender with its statistics -/

structure Monitored where
  sender : Sender
  memory : Memory

namespace Monitored

/-- mirrors bbrv3.go:294-307 -/
def newBBRv3SenderWithStats (initialMaxDatagramSize : Nat) (now : Int) (enabled : Bool) : Option Monitored :=
  let b := Sender.new initialMaxDatagramSize now
  let memory := if enabled then (({} : Memory).newStats true).calls b.createdCalls else some {}
  memory.map fun memory => { sender := b, memory }

/-- What an event does to the statistics. -/
def record (m : Monitored) : Event → Option Memory
  | .onPacketSent _ bytesInFlight _ bytes _ => m.memory.callsIfEnabled (m.sender.sentCalls bytes bytesInFlight)
  | .onPacketAcked number ackedBytes priorInFlight eventTime =>
    let rtt := m.sender.rttSample number eventTime
    let b := m.sender.onPacketAcked number ackedBytes priorInFlight eventTime
    m.memory.callsIfEnabled (b.ackedCalls ackedBytes priorInFlight rtt)
  | .onCongestionEvent _ lostBytes priorInFlight => m.memory.callsIfEnabled (m.sender.lostCalls lostBytes priorInFlight)
  | .onRetransmissionTimeout packetsRetransmitted _ =>
    -- `*b = *NewBBRv3Sender(...)` overwrites the two fields as well
    if packetsRetransmitted then (m.memory.callsIfEnabled Sender.timeoutCalls).map Memory.dropStats else some m.memory
  | .maybeExitSlowStart | .hasPacingBudget _ | .setMaxDatagramSize _ => some m.memory

/-- `none` if the program ends. -/
def handle (m : Monitored) (e : Event) : Option Monitored :=
  (m.record e).map fun memory => { sender := Sender.algorithm.apply m.sender e, memory }

end Monitored

/-! ## Runs -/

/-- A program with one sender, and the events so far. -/
structure Program where
  past : List Event := []
  now : Option Monitored

def sentBytes : Event → Nat
  | .onPacketSent _ _ _ bytes _ => bytes
  | _ => 0

def ackedBytes : Event → Nat
  | .onPacketAcked _ bytes _ _ => bytes
  | _ => 0

def lostBytes : Event → Nat
  | .onCongestionEvent _ bytes _ => bytes
  | _ => 0

namespace Program

def start (size : Nat) (now : Int) : Program := { now := Monitored.newBBRv3SenderWithStats size now true }

/-- A program that has ended has no events. -/
def step (p : Program) (e : Event) : Option Program :=
  p.now.map fun m => { past := p.past ++ [e], now := m.handle e }

def total (p : Program) (bytes : Event → Nat) : Nat := (p.past.map bytes).sum

/-- The snapshot has the sums of the byte counts, and the sender has the object whose goroutine was started with it. -/
structure Complete (p : Program) (m : Monitored) : Prop where
  now : p.now = some m
  sent : m.memory.getStats.totalBytesSent = p.total sentBytes
  acked : m.memory.getStats.totalBytesAcked = p.total ackedBytes
  lost : m.memory.getStats.totalBytesLost = p.total lostBytes
  stats : m.memory.stats = some 0
  loggers : m.memory.loggers = [0]
  running : ∃ object, m.memory.objects[0]? = some object ∧ object.loggerRunning = true ∧ object.closed = false

/-- Nothing is lost, no timeout resets the sender, and the sums fit into a `uint64`. -/
def Undisturbed (p : Program) : Event → Prop
  | .onPacketSent _ _ _ bytes _ => p.total sentBytes + bytes < 2 ^ 64
  | .onPacketAcked _ bytes _ _ => p.total ackedBytes + bytes < 2 ^ 64
  | .onCongestionEvent _ _ _ => False
  | .onRetransmissionTimeout packetsRetransmitted _ => packetsRetransmitted = false
  | .maybeExitSlowStart | .hasPacingBudget _ | .setMaxDatagramSize _ => True

instance (p : Program) : (e : Event) → Decidable (p.Undisturbed e)
  | .onPacketSent .. | .onPacketAcked .. => inferInstanceAs (Decidable (_ < _))
  | .onCongestionEvent .. => inferInstanceAs (Decidable False)
  | .onRetransmissionTimeout .. => inferInstanceAs (Decidable (_ = false))
  | .maybeExitSlowStart | .hasPacingBudget _ | .setMaxDatagramSize _ => inferInstanceAs (Decidable True)

end Program

/-! ## Calls that record -/
variable (rs : List Record) (s : Stats)

theorem foldl_totalBytesSent (h : ∀ r ∈ rs, ∀ bytes, r ≠ .onPacketSent bytes) :
    (rs.foldl Record.apply s).totalBytesSent = s.totalBytesSent := by
  induction rs generalizing s with
  | nil => rfl
  | cons r rs ih =>
    obtain ⟨hr, hrs⟩ := forall_mem_cons.mp h
    rw [foldl_cons, ih _ hrs]
    cases r with
    | onPacketSent bytes => exact absurd rfl (hr bytes)
    | _ => rfl

theorem foldl_totalBytesAcked (h : ∀ r ∈ rs, ∀ bytes, r ≠ .onPacketAcked bytes) :
    (rs.foldl Record.apply s).totalBytesAcked = s.totalBytesAcked := by
  induction rs generalizing s with
  | nil => rfl
  | cons r rs ih =>
    obtain ⟨hr, hrs⟩ := forall_mem_cons.mp h
    rw [foldl_cons, ih _ hrs]
    cases r with
    | onPacketAcked bytes => exact absurd rfl (hr bytes)
    | _ => rfl

theorem foldl_totalBytesLost : (rs.foldl Record.apply s).totalBytesLost = s.totalBytesLost := by
  induction rs generalizing s with
  | nil => rfl
  | cons r rs ih =>
    rw [foldl_cons, ih]
    cases r <;> rfl

/-- Calls of methods that only record something act on the one object. -/
theorem calls_plain (rs : List Record) {m : Memory} {o : Nat} (hm : m.stats = some o) : m.calls (rs.map .record) =
      some (m.modify o fun object => { object with stats := rs.foldl Record.apply object.stats }) := by
  induction rs generalizing m with
  | nil =>
    have hid : m.objects.modify o (fun object => object) = m.objects := modify_id o m.objects
    simp [Memory.calls, Memory.modify, hid]
  | cons r rs ih =>
    rw [map_cons, Memory.calls, hm]
    show (some (m.record o r)).bind _ = _
    rw [Option.bind_some, ih (m := m.record o r) hm]
    simp only [Memory.record, Memory.modify, modify_modify_eq, foldl_cons]
    rfl

namespace Program

/-- The program goes on, with one object to which the sender points. -/
structure Inv (p : Program) (m : Monitored) (object : Object) : Prop where
  now : p.now = some m
  memory : m.memory = { objects := [object], stats := some 0, statsEnabled := true, loggers := [0] }
  sent : object.stats.totalBytesSent = p.total sentBytes
  acked : object.stats.totalBytesAcked = p.total ackedBytes
  lost : object.stats.totalBytesLost = p.total lostBytes
  sentFits : p.total sentBytes < 2 ^ 64
  ackedFits : p.total ackedBytes < 2 ^ 64
  running : object.loggerRunning = true
  closed : object.closed = false

variable {p p' : Program} {m : Monitored} {object : Object} {e : Event}

theorem Inv.complete (h : Inv p m object) : Complete p m where
  now := h.now
  sent := by
    rw [h.memory]
    exact h.sent
  acked := by
    rw [h.memory]
    exact h.acked
  lost := by
    rw [h.memory]
    exact h.lost
  stats := by rw [h.memory]
  loggers := by rw [h.memory]
  running := ⟨object, by rw [h.memory]; rfl, h.running, h.closed⟩

theorem total_step (hs : p.step e = some p') (bytes : Event → Nat) : p'.total bytes = p.total bytes + bytes e := by
  obtain ⟨m, -, rfl⟩ := Option.map_eq_some_iff.mp hs
  simp [total]

/-- The sums after an event still fit into a `uint64`. -/
def Fits (p : Program) (e : Event) : Prop :=
  p.total sentBytes + sentBytes e < 2 ^ 64 ∧ p.total ackedBytes + ackedBytes e < 2 ^ 64

/-- The counters after an event that records something. -/
structure Counts (s s' : Stats) (e : Event) : Prop where
  sent : s'.totalBytesSent = (s.totalBytesSent + sentBytes e) % 2 ^ 64
  acked : s'.totalBytesAcked = (s.totalBytesAcked + ackedBytes e) % 2 ^ 64
  lost : s'.totalBytesLost = s.totalBytesLost + lostBytes e

variable (h : Inv p m object)
include h

section

variable (hs : p.step e = some p') (rs : List Record) (hrec : m.record e = m.memory.callsIfEnabled (rs.map .record))
include hs hrec

/-- An event that records something. -/
theorem Inv.step_records : ∃ m', p'.now = some m' ∧ m'.memory =
      { objects := [{ object with stats := rs.foldl Record.apply object.stats }], stats := some 0
        statsEnabled := true, loggers := [0] } := by
  unfold Program.step at hs
  rw [h.now] at hs
  cases hs
  have hcalls := calls_plain rs (m := m.memory) (o := 0) (by rw [h.memory])
  have henabled : (m.memory.statsEnabled && m.memory.stats.isSome) = true := by rw [h.memory]; rfl
  unfold Monitored.handle
  dsimp only
  rw [hrec, Memory.callsIfEnabled, if_pos henabled, hcalls, h.memory]
  exact ⟨_, rfl, rfl⟩

theorem Inv.records (hcounts : Counts object.stats (rs.foldl Record.apply object.stats) e) (hfits : p.Fits e) :
    ∃ m' object', Inv p' m' object' := by
  obtain ⟨m', hnow, hmem⟩ := h.step_records hs rs hrec
  refine ⟨m', _, hnow, hmem, ?_, ?_, ?_, ?_, ?_, h.running, h.closed⟩
  · rw [total_step hs, ← h.sent]
    exact hcounts.sent.trans (Nat.mod_eq_of_lt (h.sent ▸ hfits.1))
  · rw [total_step hs, ← h.acked]
    exact hcounts.acked.trans (Nat.mod_eq_of_lt (h.acked ▸ hfits.2))
  · rw [total_step hs, ← h.lost]
    exact hcounts.lost
  · rw [total_step hs]
    exact hfits.1
  · rw [total_step hs]
    exact hfits.2

/-- A counter that has wrapped around is not the sum. -/
theorem Inv.fits_of_complete (hcounts : Counts object.stats (rs.foldl Record.apply object.stats) e)
    {m' : Monitored} (hc : Complete p' m') : p.Fits e := by
  obtain ⟨m'', hnow, hmem⟩ := h.step_records hs rs hrec
  cases hnow.symm.trans hc.now
  have hsent := hc.sent
  have hacked := hc.acked
  rw [hmem, total_step hs] at hsent hacked
  replace hsent := hcounts.sent.symm.trans hsent
  replace hacked := hcounts.acked.symm.trans hacked
  exact ⟨by omega, by omega⟩

end

/-- What an event that meets the condition records. -/
theorem Inv.recorded (hok : ∀ n b prior, e ≠ .onCongestionEvent n b prior)
    (hok' : ∀ clock, e ≠ .onRetransmissionTimeout true clock) :
    ∃ rs : List Record, m.record e = m.memory.callsIfEnabled (rs.map .record) ∧
      Counts object.stats (rs.foldl Record.apply object.stats) e := by
  have hnone : m.memory.callsIfEnabled [] = some m.memory := by
    rw [h.memory]
    rfl
  have hsent : object.stats.totalBytesSent = object.stats.totalBytesSent % 2 ^ 64 :=
    (Nat.mod_eq_of_lt (h.sent ▸ h.sentFits)).symm
  have hacked : object.stats.totalBytesAcked = object.stats.totalBytesAcked % 2 ^ 64 :=
    (Nat.mod_eq_of_lt (h.acked ▸ h.ackedFits)).symm
  cases e with
  | onPacketSent t inFlight pn bytes r =>
    refine ⟨.onPacketSent bytes :: [.updateBytesInFlight inFlight, .updatePacingRate m.sender.pacingRate,
      .updateMaxBandwidth m.sender.maxBw, .setSlowStart m.sender.inSlowStart, .setRecovery m.sender.inRecovery],
      rfl, ?_, ?_, foldl_totalBytesLost _ _⟩
    · rfl
    · exact hacked
  | onPacketAcked pn bytes prior t =>
    let b := m.sender.onPacketAcked pn bytes prior t
    let rest : List Record := .updateBytesInFlight prior :: .updateCwnd b.cwnd :: .updatePacingRate b.pacingRate ::
      .updateMaxBandwidth b.maxBw :: .updateCurrentBandwidth b.bw :: .updateState b.state ::
      ((m.sender.rttSample pn t).toList.map Record.updateRtt ++
        [Record.setSlowStart b.inSlowStart, Record.setRecovery b.inRecovery])
    refine ⟨.onPacketAcked bytes :: rest, ?_, ?_, ?_, foldl_totalBytesLost _ _⟩
    · simp only [rest, map_cons, map_append, map_map]
      rfl
    · rw [foldl_totalBytesSent]
      · exact hsent
      rintro r hr bytes rfl
      simp [rest] at hr
    rw [foldl_cons, foldl_totalBytesAcked]
    · rfl
    rintro r hr bytes rfl
    simp [rest] at hr
  | onCongestionEvent pn bytes prior => exact absurd rfl (hok pn bytes prior)
  | onRetransmissionTimeout r clock =>
    cases r with
    | true => exact absurd rfl (hok' clock)
    | false => exact ⟨[], hnone.symm, hsent, hacked, rfl⟩
  | maybeExitSlowStart | hasPacingBudget now | setMaxDatagramSize size => exact ⟨[], hnone.symm, hsent, hacked, rfl⟩

/-- `OnBytesLost` ends the program. -/
theorem Inv.onCongestionEvent {pn : Int} {bytes prior : Nat}
    (hs : p.step (.onCongestionEvent pn bytes prior) = some p') : p'.now = none := by
  unfold Program.step at hs
  rw [h.now] at hs
  cases hs
  show Option.map _ (m.memory.callsIfEnabled (m.sender.lostCalls bytes prior)) = none
  rw [h.memory]
  rfl

theorem Inv.reset {clock : Int} (hs : p.step (.onRetransmissionTimeout true clock) = some p') :
    ∃ m', p'.now = some m' ∧ m'.memory.stats = none := by
  unfold Program.step at hs
  rw [h.now] at hs
  cases hs
  show ∃ m', Option.map _ (Option.map Memory.dropStats (m.memory.callsIfEnabled Sender.timeoutCalls)) = some m' ∧ _
  rw [h.memory]
  exact ⟨_, rfl, rfl⟩

theorem Inv.fits_iff (hok : ∀ n b prior, e ≠ .onCongestionEvent n b prior)
    (hok' : ∀ clock, e ≠ .onRetransmissionTimeout true clock) : p.Fits e ↔ p.Undisturbed e := by
  have hsent := h.sentFits
  have hacked := h.ackedFits
  cases e with
  | onPacketSent t inFlight pn bytes r => exact ⟨And.left, fun hlt => ⟨hlt, hacked⟩⟩
  | onPacketAcked pn bytes prior t => exact ⟨And.right, fun hlt => ⟨hsent, hlt⟩⟩
  | onCongestionEvent pn bytes prior => exact absurd rfl (hok pn bytes prior)
  | onRetransmissionTimeout r clock =>
    cases r with
    | true => exact absurd rfl (hok' clock)
    | false => exact ⟨fun _ => rfl, fun _ => ⟨hsent, hacked⟩⟩
  | maybeExitSlowStart | hasPacingBudget now | setMaxDatagramSize size =>
    exact ⟨fun _ => trivial, fun _ => ⟨hsent, hacked⟩⟩

theorem Inv.step (hok : p.Undisturbed e) (hs : p.step e = some p') : ∃ m' object', Inv p' m' object' := by
  have hlost : ∀ n b prior, e ≠ .onCongestionEvent n b prior := by
    rintro n b prior rfl
    exact hok
  have hreset : ∀ clock, e ≠ .onRetransmissionTimeout true clock := by
    rintro clock rfl
    cases hok
  obtain ⟨rs, hrec, hcounts⟩ := h.recorded hlost hreset
  exact h.records hs rs hrec hcounts ((h.fits_iff hlost hreset).mpr hok)

theorem Inv.undisturbed_of_complete (hs : p.step e = some p') {m' : Monitored} (hc : Complete p' m') :
    p.Undisturbed e := by
  have hlost : ∀ n b prior, e ≠ .onCongestionEvent n b prior := by
    rintro n b prior rfl
    cases (h.onCongestionEvent hs).symm.trans hc.now
  have hreset : ∀ clock, e ≠ .onRetransmissionTimeout true clock := by
    rintro clock rfl
    obtain ⟨m'', hnow, hnone⟩ := h.reset hs
    cases hnow.symm.trans hc.now
    cases hnone.symm.trans hc.stats
  obtain ⟨rs, hrec, hcounts⟩ := h.recorded hlost hreset
  exact (h.fits_iff hlost hreset).mp (h.fits_of_complete hs rs hrec hcounts hc)

omit h

theorem inv_start (size : Nat) (now : Int) : ∃ m object, Inv (start size now) m object :=
  ⟨_, _, rfl, rfl, rfl, rfl, rfl, Nat.two_pow_pos 64, Nat.two_pow_pos 64, rfl, rfl⟩

/-- In every run the statistics are complete after each event exactly as long as nothing is lost, no timeout resets the
sender, and the sums fit into a `uint64`. -/
theorem complete_iff (size : Nat) (now : Int) {es : List Event} {p : Program}
    (hr : LTS.run step (start size now) es = some p) :
    LTS.Ensures step (fun _ p => ∃ m, p.Complete m) (start size now) es ↔
      LTS.Along step Undisturbed (start size now) es := by
  have hpost : ∀ (p : Program) e p', (∃ m object, Inv p m object) → p.step e = some p' →
      ((∃ m, p'.Complete m) ↔ p.Undisturbed e) := by
    rintro p e p' ⟨m, object, h⟩ hs
    constructor
    · rintro ⟨m', hc⟩
      exact h.undisturbed_of_complete hs hc
    intro hok
    obtain ⟨m', object', h'⟩ := h.step hok hs
    exact ⟨m', h'.complete⟩
  refine LTS.ensures_iff_along hpost ?_ (inv_start size now) hr
  rintro p e p' ⟨m, object, h⟩ hok hs
  exact h.step hok hs

/-- Two packets of which one is acknowledged, and a timeout that resets nothing. -/
def exchange : List Event :=
  [.onPacketSent 1000 0 0 1200 true, .onPacketSent 2000 1200 1 800 true, .onPacketAcked 0 1200 2000 51000,
    .onRetransmissionTimeout false 60000]

theorem complete_iff_exchange : LTS.Ensures step (fun _ p => ∃ m, p.Complete m) (start 1200 0) exchange ∧
      ∃ p m, LTS.run step (start 1200 0) exchange = some p ∧ p.now = some m ∧
        m.memory.getStats.totalBytesSent = 2000 ∧ m.memory.getStats.totalBytesAcked = 1200 := by
  refine ⟨(complete_iff 1200 0 rfl).mpr ?_, _, _, rfl, rfl, by decide +kernel⟩
  repeat apply LTS.Along.cons (by decide +kernel) rfl
  trivial

/-- After the timeout the snapshot is empty, although 1200 bytes were sent, and the goroutine of object 0 runs on
without an owner. A loss ends the program. -/
theorem reset_drops_stats :
    (∃ p m, LTS.run step (start 1200 0)
        [.onPacketSent 1000 0 0 1200 true, .onRetransmissionTimeout true 9000] = some p ∧
      p.now = some m ∧ p.total sentBytes = 1200 ∧ m.memory.getStats.totalBytesSent = 0 ∧ m.memory.stats = none ∧
      m.memory.loggers = [0]) ∧
    ∃ p, LTS.run step (start 1200 0) [.onPacketSent 1000 0 0 1200 true, .onCongestionEvent 0 1200 1200] = some p ∧
      p.now.isNone := by
  exact ⟨⟨_, _, rfl, rfl, by decide +kernel⟩, _, rfl, by decide +kernel⟩

end Program

end MoqQuic.L2.Congestion.Bbrv3
