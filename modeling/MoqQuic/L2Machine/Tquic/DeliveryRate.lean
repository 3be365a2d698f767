import Mathlib.Algebra.Order.Ring.Int
import Mathlib.Data.List.Induction

/-!
# tquic: rate samples and the windowed maximum

`congestion_control/delivery_rate.rs` and `congestion_control/minmax.rs` of
tquic, and the part of a `SentPacket` they use. An `Instant` is a number of
nanoseconds on the monotonic clock, a `Duration` a number of nanoseconds.
Counts of bytes are exact; where the source saturates, so does the model, with
`u64::MAX` as bound. `none` is a panic.
-/
namespace MoqQuic.L2.Tquic

abbrev u64Max : Nat := 2 ^ 64 - 1

/-- `u64::saturating_add` -/
def satAdd (a b : Nat) : Nat := min (a + b) u64Max

/-- A nonnegative float converted to `u64`. -/
def toU64 (x : Nat) : Nat := min x u64Max

/-- `Duration::MAX` -/
abbrev durationMax : Nat := u64Max * 1000000000 + 999999999

/-- `Instant::saturating_duration_since` -/
def durationSince (t earlier : Int) : Nat := (t - earlier).toNat

/-- `Instant + Duration`: the seconds of an `Instant` are an `i64`. -/
def addDuration (t : Int) (d : Nat) : Option Int :=
  if t + d < 2 ^ 63 * 1000000000 then some (t + d) else none

/-! ## Sent packets -/

/-- mirrors space.rs:316-334 -/
structure RateSamplePacketState where
  delivered : Nat := 0
  deliveredTime : Option Int := none
  firstSentTime : Option Int := none
  isAppLimited : Bool := false
  txInFlight : Nat := 0
  lost : Nat := 0
  deriving DecidableEq, Repr

/-- The fields the controller reads. mirrors space.rs:338-384 -/
structure SentPacket where
  pktNum : Nat
  timeSent : Int
  timeAcked : Option Int := none
  sentSize : Nat
  rateSampleState : RateSamplePacketState := {}
  deriving DecidableEq, Repr

/-! ## The estimator -/

/-- mirrors delivery_rate.rs:31-60 -/
structure RateSample where
  deliveryRate : Nat := 0
  isAppLimited : Bool := false
  interval : Nat := 0
  delivered : Nat := 0
  priorDelivered : Nat := 0
  priorTime : Option Int := none
  sendElapsed : Nat := 0
  ackElapsed : Nat := 0
  rtt : Nat := 0
  deriving DecidableEq, Repr

/-- mirrors delivery_rate.rs:66-92 and :252-264 -/
structure DeliveryRateEstimator where
  delivered : Nat := 0
  deliveredTime : Int
  firstSentTime : Int
  lastAppLimitedPktNum : Nat := 0
  largestAckedPktNum : Nat := 0
  lastSentPktNum : Nat := 0
  rateSample : RateSample := {}
  deriving DecidableEq, Repr

namespace DeliveryRateEstimator

variable (e : DeliveryRateEstimator)

/-- mirrors delivery_rate.rs:217-219 -/
def isAppLimited : Bool := e.lastAppLimitedPktNum ≠ 0

/-- mirrors delivery_rate.rs:207-213 -/
def setAppLimited (isAppLimited : Bool) : DeliveryRateEstimator :=
  { e with lastAppLimitedPktNum := if isAppLimited then max e.lastSentPktNum 1 else 0 }

/-- mirrors delivery_rate.rs:97-117 -/
def onPacketSent (packet : SentPacket) (bytesInFlight bytesLost : Nat) : DeliveryRateEstimator × SentPacket :=
  let e := if bytesInFlight = 0 then
    { e with firstSentTime := packet.timeSent, deliveredTime := packet.timeSent } else e
  let rateSampleState : RateSamplePacketState :=
    { firstSentTime := some e.firstSentTime
      deliveredTime := some e.deliveredTime
      delivered := e.delivered
      isAppLimited := e.isAppLimited
      txInFlight := bytesInFlight
      lost := bytesLost }
  ({ e with lastSentPktNum := packet.pktNum }, { packet with rateSampleState })

/-- The newest packet so far becomes the start of the sample.
mirrors delivery_rate.rs:132-142 -/
def takeNewest (packet : SentPacket) : DeliveryRateEstimator :=
  let state := packet.rateSampleState
  if e.rateSample.priorTime.isNone ∨ state.delivered > e.rateSample.priorDelivered then
    { e with
      rateSample := { e.rateSample with
        priorDelivered := state.delivered
        priorTime := state.deliveredTime
        isAppLimited := state.isAppLimited }
      firstSentTime := packet.timeSent }
  else e

/-- mirrors delivery_rate.rs:121-169 -/
def updateRateSample (packet : SentPacket) : DeliveryRateEstimator × SentPacket :=
  match packet.rateSampleState.deliveredTime, packet.timeAcked with
  | some deliveredTime, some timeAcked =>
    let e := { e with delivered := satAdd e.delivered packet.sentSize, deliveredTime := timeAcked }
    let e := e.takeNewest packet
    let firstSentTime := packet.rateSampleState.firstSentTime.getD packet.timeSent
    let rateSample := { e.rateSample with
      sendElapsed := durationSince packet.timeSent firstSentTime
      ackElapsed := durationSince e.deliveredTime deliveredTime
      rtt := durationSince e.deliveredTime packet.timeSent
      delivered := e.delivered - e.rateSample.priorDelivered }
    ({ e with rateSample, largestAckedPktNum := max packet.pktNum e.largestAckedPktNum },
      { packet with rateSampleState := { packet.rateSampleState with deliveredTime := none } })
  | _, _ => (e, packet)

/-- The bubble of an application-limited phase is acknowledged.
mirrors delivery_rate.rs:179-181 -/
def clearAppLimited : DeliveryRateEstimator :=
  if e.isAppLimited ∧ e.largestAckedPktNum > e.lastAppLimitedPktNum then e.setAppLimited false else e

/-- An interval shorter than a microsecond is a division by zero.
mirrors delivery_rate.rs:173-204 -/
def generateRateSample : Option DeliveryRateEstimator :=
  let e := e.clearAppLimited
  if e.rateSample.priorTime.isNone then some e
  else
    let interval := max e.rateSample.sendElapsed e.rateSample.ackElapsed
    let delivered := e.delivered - e.rateSample.priorDelivered
    let rateSample := { e.rateSample with interval, delivered }
    if interval = 0 then some { e with rateSample }
    else if interval / 1000 = 0 then none
    else some { e with rateSample := { rateSample with
      deliveryRate := delivered * 1000000 / (interval / 1000) } }

end DeliveryRateEstimator

/-! ## The windowed maximum -/

/-- mirrors minmax.rs:75-81 -/
structure MinMaxSample where
  time : Nat := 0
  value : Nat := 0
  deriving DecidableEq, Repr

/-- The best, second best and third best sample. mirrors minmax.rs:84-98 -/
structure MinMax where
  window : Nat
  best : MinMaxSample := {}
  second : MinMaxSample := {}
  third : MinMaxSample := {}
  deriving DecidableEq, Repr

namespace MinMax

/-- mirrors minmax.rs:106-108 -/
def reset (m : MinMax) (sample : MinMaxSample) : MinMax :=
  { m with best := sample, second := sample, third := sample }

/-- mirrors minmax.rs:111-137 -/
def subwinUpdate (m : MinMax) (sample : MinMaxSample) : MinMax :=
  let dt := sample.time - m.best.time
  if dt > m.window then
    let m := { m with best := m.second, second := m.third, third := sample }
    if sample.time - m.best.time > m.window then
      { m with best := m.second, second := m.third, third := sample }
    else m
  else if m.second.time = m.best.time ∧ dt > m.window / 4 then { m with third := sample, second := sample }
  else if m.third.time = m.second.time ∧ dt > m.window / 2 then { m with third := sample }
  else m

/-- mirrors minmax.rs:140-165 -/
def updateMax (m : MinMax) (time value : Nat) : MinMax :=
  if time < m.third.time then m
  else
    let sample : MinMaxSample := { time, value }
    if m.best.value = 0 ∨ sample.value ≥ m.best.value ∨ sample.time - m.third.time > m.window then
      m.reset sample
    else
      let m := if sample.value ≥ m.second.value then { m with third := sample, second := sample }
        else if sample.value ≥ m.third.value then { m with third := sample }
        else m
      m.subwinUpdate sample

/-- mirrors minmax.rs:196-198 -/
def get (m : MinMax) : Nat := m.best.value

section

variable (r : Nat → Nat → Prop)

/-- The two updates, which differ in the comparison alone. mirrors minmax.rs:140-193 -/
def updateBy [DecidableRel r] (m : MinMax) (time value : Nat) : MinMax :=
  if time < m.third.time then m
  else
    let sample : MinMaxSample := { time, value }
    if m.best.value = 0 ∨ r sample.value m.best.value ∨ sample.time - m.third.time > m.window then
      m.reset sample
    else
      let m := if r sample.value m.second.value then { m with third := sample, second := sample }
        else if r sample.value m.third.value then { m with third := sample }
        else m
      m.subwinUpdate sample

/-- mirrors minmax.rs:168-193 -/
def updateMin : MinMax → Nat → Nat → MinMax := updateBy (· ≤ ·)

/-- One of the updates made this sample, and every later value is worse. -/
def Leads (l : List MinMaxSample) (s : MinMaxSample) : Prop :=
  ∃ pre post, l = pre ++ s :: post ∧ ∀ x ∈ post, ¬ r x.value s.value

/-- The samples after the updates `l`, of which `x` is the last. -/
structure Ranked (window : Nat) (l : List MinMaxSample) (x : MinMaxSample) (m : MinMax) : Prop where
  window_eq : m.window = window
  times : m.best.time ≤ m.second.time ∧ m.second.time ≤ m.third.time ∧ m.third.time ≤ x.time
  values : r m.best.value m.second.value ∧ r m.second.value m.third.value ∧ r m.third.value x.value
  best : Leads r l m.best
  second : Leads r l m.second
  third : Leads r l m.third

variable {r} {m : MinMax} {l : List MinMaxSample} {x y : MinMaxSample} {window : Nat}

theorem leads_last : Leads r (l ++ [x]) x := ⟨l, [], rfl, by simp⟩

theorem Leads.append {s : MinMaxSample} (h : Leads r l s) (hx : ¬ r x.value s.value) : Leads r (l ++ [x]) s := by
  obtain ⟨pre, post, rfl, hpost⟩ := h
  refine ⟨pre, post ++ [x], by simp, fun y hy => ?_⟩
  rcases List.mem_append.mp hy with hy | hy
  · exact hpost y hy
  · rwa [List.mem_singleton.mp hy]

variable [Std.Refl r]

theorem ranked_reset (m : MinMax) : Ranked r m.window (l ++ [x]) x (m.reset x) :=
  ⟨rfl, ⟨le_rfl, le_rfl, le_rfl⟩, ⟨refl _, refl _, refl _⟩, leads_last, leads_last, leads_last⟩

variable [IsTrans Nat r]

/-- Ageing keeps the ranks, and leaves no best sample that is too old. -/
theorem Ranked.subwinUpdate (h : Ranked r window (l ++ [x]) x m) (hw : x.time - m.third.time ≤ window) :
    Ranked r window (l ++ [x]) x (m.subwinUpdate x) ∧ x.time - (m.subwinUpdate x).best.time ≤ window := by
  obtain ⟨rfl, ⟨hbs, hst, htx⟩, ⟨vbs, vst, vtx⟩, hb, hs, ht⟩ := h
  have vsx : r m.second.value x.value := Trans.trans vst vtx
  unfold MinMax.subwinUpdate
  dsimp only
  split
  · split
    · exact ⟨⟨rfl, ⟨htx, le_rfl, le_rfl⟩, ⟨vtx, refl _, refl _⟩, ht, leads_last, leads_last⟩, hw⟩
    · exact ⟨⟨rfl, ⟨hst, htx, le_rfl⟩, ⟨vst, vtx, refl _⟩, hs, ht, leads_last⟩, by dsimp only; omega⟩
  split
  · refine ⟨⟨rfl, ⟨?_, le_rfl, le_rfl⟩, ⟨Trans.trans vbs vsx, refl _, refl _⟩, hb, leads_last, leads_last⟩, ?_⟩
    all_goals dsimp only; omega
  split
  · refine ⟨⟨rfl, ⟨hbs, ?_, le_rfl⟩, ⟨vbs, vsx, refl _⟩, hb, hs, leads_last⟩, ?_⟩
    all_goals dsimp only; omega
  · exact ⟨⟨rfl, ⟨hbs, hst, htx⟩, ⟨vbs, vst, vtx⟩, hb, hs, ht⟩, by omega⟩

variable [Std.Total r] [DecidableRel r]

theorem Ranked.updateBy (h : Ranked r window l y m) (hx : y.time ≤ x.time) :
    Ranked r window (l ++ [x]) x (m.updateBy r x.time x.value) ∧
      x.time - (m.updateBy r x.time x.value).best.time ≤ window := by
  obtain ⟨rfl, ⟨hbs, hst, htx⟩, ⟨vbs, vst, vtx⟩, hb, hs, ht⟩ := h
  have worse {v : Nat} (hv : ¬ r x.value v) : r v x.value := (total_of r _ _).resolve_left hv
  unfold MinMax.updateBy
  rw [if_neg (by omega)]
  dsimp only
  split
  · exact ⟨ranked_reset m, by simp [reset]⟩
  rename_i hkeep
  simp only [not_or] at hkeep
  have hb' := hb.append hkeep.2.1
  split
  · next h2 =>
    apply Ranked.subwinUpdate
    · have hbx : m.best.time ≤ x.time := by omega
      exact ⟨rfl, ⟨hbx, le_rfl, le_rfl⟩, ⟨worse hkeep.2.1, refl _, refl _⟩, hb', leads_last, leads_last⟩
    · simp
  next h2 =>
  split
  · next h3 =>
    apply Ranked.subwinUpdate
    · exact ⟨rfl, ⟨hbs, by dsimp only; omega, le_rfl⟩, ⟨vbs, worse h2, refl _⟩, hb', hs.append h2, leads_last⟩
    · simp
  next h3 =>
  apply Ranked.subwinUpdate
  · exact ⟨rfl, ⟨hbs, hst, by omega⟩, ⟨vbs, vst, worse h3⟩, hb', hs.append h2, ht.append h3⟩
  · omega

/-- The run of one of the updates. -/
theorem ranked_foldl (ht : (l ++ [x]).Pairwise fun s s' => s.time ≤ s'.time) :
    let m := (l ++ [x]).foldl (fun m s => m.updateBy r s.time s.value) { window }
    Ranked r window (l ++ [x]) x m ∧ x.time - m.best.time ≤ window := by
  induction l using List.reverseRecOn generalizing x with
  | nil =>
    have hreset : ({ window } : MinMax).updateBy r x.time x.value = ({ window } : MinMax).reset x := by
      simp [MinMax.updateBy]
    simp only [List.nil_append, List.foldl_cons, List.foldl_nil, hreset]
    exact ⟨ranked_reset (l := []) { window }, by simp [reset]⟩
  | append_singleton l y ih =>
    obtain ⟨hl, -, hlast⟩ := List.pairwise_append.mp ht
    rw [List.foldl_append]
    exact (ih hl).1.updateBy (hlast y (by simp) x (by simp))

end

/-- After every update of either filter, the samples are in the order of time and of value, the best one is not too
old, and its value, which is `get`, is better than every value that came after it. -/
theorem ranked_run (window : Nat) {l : List MinMaxSample} {x : MinMaxSample}
    (ht : (l ++ [x]).Pairwise fun s s' => s.time ≤ s'.time) :
    let max := (l ++ [x]).foldl (fun m s => m.updateMax s.time s.value) { window }
    let min := (l ++ [x]).foldl (fun m s => m.updateMin s.time s.value) { window }
    (Ranked (· ≥ ·) window (l ++ [x]) x max ∧ x.time - max.best.time ≤ window) ∧
      Ranked (· ≤ ·) window (l ++ [x]) x min ∧ x.time - min.best.time ≤ window :=
  ⟨ranked_foldl ht, ranked_foldl ht⟩

/-- The first of three samples is too old when the last one comes. -/
theorem ranked_run_three :
    let max := ((({ window := 10 } : MinMax).updateMax 1 5).updateMax 2 3).updateMax 12 4
    let min := ((({ window := 10 } : MinMax).updateMin 1 5).updateMin 2 3).updateMin 12 4
    (Ranked (· ≥ ·) 10 [⟨1, 5⟩, ⟨2, 3⟩, ⟨12, 4⟩] ⟨12, 4⟩ max ∧ max.get = 4) ∧
      Ranked (· ≤ ·) 10 [⟨1, 5⟩, ⟨2, 3⟩, ⟨12, 4⟩] ⟨12, 4⟩ min ∧ min.get = 3 := by
  obtain ⟨⟨hmax, -⟩, hmin, -⟩ := ranked_run 10 (l := [⟨1, 5⟩, ⟨2, 3⟩]) (x := ⟨12, 4⟩) (by simp)
  exact ⟨⟨hmax, by decide⟩, hmin, by decide⟩

end MinMax

end MoqQuic.L2.Tquic
