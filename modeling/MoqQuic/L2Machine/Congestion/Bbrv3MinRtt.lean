import MoqQuic.Core.LTS
import MoqQuic.L2Machine.Congestion.Bbrv3

/-!
# The minimum RTT of `BBRv3Sender`

`updateMinRtt` keeps two estimates, each a sample with the time at which it was
taken. `probeRttMinDelay` gives way to a sample that is not larger, or to any
sample once it is older than five seconds. `minRtt` takes over `probeRttMinDelay`
when that is smaller, or when `minRtt` itself is older than ten seconds; a sample
that old is never taken over, since the first filter has dropped it before.

An `Estimator` is a sender with the samples it took and the time of the last
call. Times count nanoseconds since the program started, in an `int64`, so that
the difference of two of them is one.

Results:
* `IsMinSince.*`: when a value stays, or becomes, the smallest sample since a time.
* `Filters.step`: both estimates are such values, after every call.
* `min_rtt_windowed`: the window of each, after every sample.
-/
namespace MoqQuic.L2.Congestion.Bbrv3

open L2 List

/-! ## The smallest sample since a time -/

section MinSince

variable {T V : Type} [LinearOrder T] [LinearOrder V] {samples : List (T × V)} {stamp t : T} {v x : V}

/-- `v` was sampled at `stamp`, and no sample since then is smaller. -/
structure IsMinSince (samples : List (T × V)) (stamp : T) (v : V) : Prop where
  mem : (stamp, v) ∈ samples
  le : ∀ s ∈ samples, stamp ≤ s.1 → v ≤ s.2

theorem IsMinSince.keep (h : IsMinSince samples stamp v) (hx : v ≤ x) : IsMinSince ((t, x) :: samples) stamp v :=
  ⟨by simp [h.mem], forall_mem_cons.mpr ⟨fun _ => hx, h.le⟩⟩

/-- A sample that is not larger takes over. -/
theorem IsMinSince.replace (h : IsMinSince samples stamp v) (hx : x ≤ v) (ht : stamp ≤ t) :
    IsMinSince ((t, x) :: samples) t x :=
  ⟨by simp, forall_mem_cons.mpr ⟨fun _ => le_refl x, fun s hs hle => hx.trans (h.le s hs (ht.trans hle))⟩⟩

/-- Any sample may take over at a time that has none yet. -/
theorem isMinSince_restart (h : ∀ s ∈ samples, s.1 < t) : IsMinSince ((t, x) :: samples) t x :=
  ⟨by simp, forall_mem_cons.mpr ⟨fun _ => le_refl x, fun s hs hle => absurd (h s hs) (not_lt.mpr hle)⟩⟩

end MinSince

/-! ## Runs -/

/-- The fields of the two filters. -/
structure Estimates where
  minRtt : Int
  minRttStamp : Int
  probeRttMinDelay : Int
  probeRttMinStamp : Int

def Sender.estimates (b : Sender) : Estimates := ⟨b.minRtt, b.minRttStamp, b.probeRttMinDelay, b.probeRttMinStamp⟩

/-- A sender with the samples it took, as times and values, and the time of the last call. -/
structure Estimator where
  sender : Sender
  now : Int
  samples : List (Int × Int) := []

inductive Call
  | onPacketSent (sentTime : Int) (bytesInFlight : Nat) (packetNumber : Int) (bytes : Nat) (isRetransmittable : Bool)
  | onPacketAcked (number : Int) (ackedBytes priorInFlight : Nat) (eventTime : Int)
  | onCongestionEvent (number : Int) (lostBytes priorInFlight : Nat)

namespace Estimator

/-- A sender that is created at the time `created`. -/
def new (initialMaxDatagramSize : Nat) (created : Int) : Estimator :=
  { sender := .new initialMaxDatagramSize created, now := created }

/-- Times do not decrease and are `int64`s. -/
def InTime (e : Estimator) (t : Int) : Prop := e.now ≤ t ∧ t ≤ maxInt64

instance (e : Estimator) (t : Int) : Decidable (e.InTime t) := inferInstanceAs (Decidable (_ ∧ _))

def step (e : Estimator) : Call → Option Estimator
  | .onPacketSent sentTime bytesInFlight packetNumber bytes isRetransmittable =>
    if e.InTime sentTime then
      some { e with
        sender := e.sender.onPacketSent sentTime bytesInFlight packetNumber bytes isRetransmittable
        now := sentTime }
    else none
  | .onPacketAcked number ackedBytes priorInFlight eventTime =>
    if e.InTime eventTime then
      some {
        sender := e.sender.onPacketAcked number ackedBytes priorInFlight eventTime
        now := eventTime
        samples := ((e.sender.rttSample number eventTime).map fun rtt => (eventTime, rtt)).toList ++ e.samples }
    else none
  | .onCongestionEvent number lostBytes priorInFlight =>
    some { e with sender := e.sender.onCongestionEvent number lostBytes priorInFlight }

/-! ## What each call does to the estimates -/

theorem estimates_onPacketSent (b : Sender) (t : Int) (inFlight : Nat) (pn : Int) (n : Nat) (r : Bool) :
    (b.onPacketSent t inFlight pn n r).estimates = b.estimates := by
  unfold Sender.onPacketSent
  simp only
  split <;> rfl

theorem estimates_onCongestionEvent (b : Sender) (pn : Int) (lost prior : Nat) :
    (b.onCongestionEvent pn lost prior).estimates = b.estimates := by
  unfold Sender.onCongestionEvent Sender.countLossEvent Sender.checkStartupHighLoss
  simp only
  repeat' split
  all_goals rfl

theorem filterProbe_cases (b : Sender) (now rtt : Int) (hpos : 0 < rtt) :
    (b.filterProbe now rtt).minRtt = b.minRtt ∧ (b.filterProbe now rtt).minRttStamp = b.minRttStamp ∧
    ((rtt ≤ b.probeRttMinDelay ∨ now - b.probeRttMinStamp > probeRttInterval) ∧
      (b.filterProbe now rtt).probeRttMinDelay = rtt ∧ (b.filterProbe now rtt).probeRttMinStamp = now ∨
    b.probeRttMinDelay < rtt ∧ now - b.probeRttMinStamp ≤ probeRttInterval ∧
      (b.filterProbe now rtt).probeRttMinDelay = b.probeRttMinDelay ∧
      (b.filterProbe now rtt).probeRttMinStamp = b.probeRttMinStamp) := by
  unfold Sender.filterProbe
  dsimp only
  split
  · rename_i h
    exact ⟨rfl, rfl, .inl ⟨by simpa using h.2, rfl, rfl⟩⟩
  rename_i h
  have hkeep : b.probeRttMinDelay < rtt ∧ now - b.probeRttMinStamp ≤ probeRttInterval := by
    simpa [hpos] using h
  exact ⟨rfl, rfl, .inr ⟨hkeep.1, hkeep.2, rfl, rfl⟩⟩

theorem filterMin_cases (b : Sender) (now : Int) : (b.filterMin now).probeRttMinDelay = b.probeRttMinDelay ∧
    (b.filterMin now).probeRttMinStamp = b.probeRttMinStamp ∧
    ((b.probeRttMinDelay < b.minRtt ∨ now - b.minRttStamp > minRttFilterLen) ∧
      (b.filterMin now).minRtt = b.probeRttMinDelay ∧ (b.filterMin now).minRttStamp = b.probeRttMinStamp ∨
    b.minRtt ≤ b.probeRttMinDelay ∧ now - b.minRttStamp ≤ minRttFilterLen ∧
      (b.filterMin now).minRtt = b.minRtt ∧ (b.filterMin now).minRttStamp = b.minRttStamp) := by
  unfold Sender.filterMin
  split
  · rename_i h
    exact ⟨rfl, rfl, .inl ⟨h, rfl, rfl⟩⟩
  · exact ⟨rfl, rfl, .inr ⟨by omega, by omega, rfl, rfl⟩⟩

/-! ## The invariant -/

/-- Before the first sample. -/
structure Unset (created : Int) (b : Estimates) : Prop where
  minRtt : b.minRtt = maxInt64
  minRttStamp : b.minRttStamp = created
  probeRttMinDelay : b.probeRttMinDelay = maxInt64

/-- From the first sample on. -/
structure Set (b : Estimates) (samples : List (Int × Int)) : Prop where
  probe : IsMinSince samples b.probeRttMinStamp b.probeRttMinDelay
  min : IsMinSince samples b.minRttStamp b.minRtt
  min_le : b.minRtt ≤ b.probeRttMinDelay
  recent : ∀ s ∈ samples, s.1 - b.probeRttMinStamp ≤ probeRttInterval

structure Filters (created : Int) (e : Estimator) : Prop where
  created_le : 0 ≤ created ∧ created ≤ e.now
  now_le : e.now ≤ maxInt64
  sent : ∀ pn t, e.sender.sentTimes pn = some t → created ≤ t
  sampled : ∀ s ∈ e.samples, s.1 ≤ e.now
  estimates : e.samples = [] ∧ Unset created e.sender.estimates ∨ Set e.sender.estimates e.samples

variable {created : Int}

theorem filters_new (hc : 0 ≤ created ∧ created ≤ maxInt64) (size : Nat) : Filters created (new size created) where
  created_le := ⟨hc.1, le_rfl⟩
  now_le := hc.2
  sent _ _ h := nomatch h
  sampled _ hs := nomatch hs
  estimates := .inl ⟨rfl, rfl, rfl, rfl⟩

variable {samples : List (Int × Int)} {b : Sender}

section

variable {now rtt : Int} (hpos : 0 < rtt)
include hpos

/-- The first filter over one more sample. -/
theorem isMinSince_filterProbe
    (h : IsMinSince samples b.probeRttMinStamp b.probeRttMinDelay) (hpast : ∀ s ∈ samples, s.1 ≤ now)
    (hrecent : ∀ s ∈ samples, s.1 - b.probeRttMinStamp ≤ probeRttInterval) :
    IsMinSince ((now, rtt) :: samples) (b.filterProbe now rtt).probeRttMinStamp
        (b.filterProbe now rtt).probeRttMinDelay ∧
      now - (b.filterProbe now rtt).probeRttMinStamp ≤ probeRttInterval ∧
      b.probeRttMinStamp ≤ (b.filterProbe now rtt).probeRttMinStamp := by
  have hstamp := hpast _ h.mem
  obtain ⟨-, -, ⟨hcond, hdelay, hat⟩ | ⟨hgt, hage, hdelay, hat⟩⟩ := filterProbe_cases b now rtt hpos
  · rw [hdelay, hat]
    refine ⟨?_, by simp, hstamp⟩
    cases hcond with
    | inl hle => exact h.replace hle hstamp
    | inr hold =>
      -- an expired estimate has seen no sample at this time
      apply isMinSince_restart
      intro s hs
      have := hrecent s hs
      omega
  · rw [hdelay, hat]
    exact ⟨h.keep hgt.le, hage, le_rfl⟩

/-- Both filters over one more sample. The second one takes over the first one's sample, or
keeps a smaller one. -/
theorem Set.updateMinRtt (h : Set b.estimates samples) (hpast : ∀ s ∈ samples, s.1 ≤ now) :
    Set (b.updateMinRtt now rtt).estimates ((now, rtt) :: samples) ∧
      now - (b.updateMinRtt now rtt).estimates.minRttStamp ≤ minRttFilterLen := by
  rw [Sender.updateMinRtt]
  obtain ⟨hprobe, hage, hstamp⟩ := isMinSince_filterProbe hpos h.probe hpast h.recent
  obtain ⟨hmin, hminStamp, hdelay⟩ := filterProbe_cases b now rtt hpos
  obtain ⟨hdelay', hat', hcases⟩ := filterMin_cases (b.filterProbe now rtt) now
  have hrecent : ∀ s ∈ (now, rtt) :: samples, s.1 - (b.filterProbe now rtt).probeRttMinStamp ≤ probeRttInterval := by
    refine forall_mem_cons.mpr ⟨hage, fun s hs => ?_⟩
    have := hpast s hs
    omega
  obtain ⟨-, htake, htakeStamp⟩ | ⟨hle, hage', hkeep, hkeepStamp⟩ := hcases
  · refine ⟨⟨?_, ?_, ?_, ?_⟩, ?_⟩ <;> dsimp only [Sender.estimates]
    · rwa [hdelay', hat']
    · rwa [htake, htakeStamp]
    · rw [htake, hdelay']
    · rwa [hat']
    · rw [htakeStamp]
      exact hage.trans (by decide)
  refine ⟨⟨?_, ?_, ?_, ?_⟩, ?_⟩ <;> dsimp only [Sender.estimates]
  · rwa [hdelay', hat']
  · rw [hkeep, hkeepStamp, hmin, hminStamp]
    -- the probe estimate is at most the new sample
    have hsample : b.minRtt ≤ rtt := by omega
    exact h.min.keep hsample
  · rwa [hkeep, hdelay']
  · rwa [hat']
  · rwa [hkeepStamp]

/-- The first sample sets both filters, unless it is the largest `int64`, which takes longer than
the window to measure. -/
theorem Unset.updateMinRtt (h : Unset created b.estimates) (hle : rtt ≤ maxInt64) (hfrom : rtt ≤ now - created) :
    Set (b.updateMinRtt now rtt).estimates [(now, rtt)] ∧
      now - (b.updateMinRtt now rtt).estimates.minRttStamp ≤ minRttFilterLen := by
  rw [Sender.updateMinRtt]
  obtain ⟨hunset, hcreated, hunset'⟩ := h
  dsimp only [Sender.estimates] at hunset hcreated hunset'
  obtain ⟨hmin, hminStamp, hdelay⟩ := filterProbe_cases b now rtt hpos
  obtain ⟨hdelay', hat', hcases⟩ := filterMin_cases (b.filterProbe now rtt) now
  obtain ⟨-, hdelay, hat⟩ | ⟨hgt, -⟩ := hdelay
  · have hexp : minRttFilterLen < maxInt64 := by decide
    obtain ⟨-, htake, htakeStamp⟩ | ⟨hkeep, hage, -⟩ := hcases
    · have hsingle : IsMinSince [(now, rtt)] now rtt := isMinSince_restart (by simp)
      refine ⟨⟨?_, ?_, ?_, ?_⟩, ?_⟩ <;> dsimp only [Sender.estimates]
      · rwa [hdelay', hat', hdelay, hat]
      · rwa [htake, htakeStamp, hdelay, hat]
      · rw [htake, hdelay']
      · rw [hat', hat]
        simp [probeRttInterval]
      · rw [htakeStamp, hat]
        simp [minRttFilterLen]
    rw [hmin, hunset, hdelay] at hkeep
    rw [hminStamp, hcreated] at hage
    omega
  · rw [hunset'] at hgt
    omega

end

/-! ## Calls and runs -/

section

variable {pn t : Int}

theorem rttSample_eq_some {r : Int} (h : b.rttSample pn t = some r) :
    0 < r ∧ ∃ sent, b.sentTimes pn = some sent ∧ r = t - sent := by
  unfold Sender.rttSample at h
  split at h
  · rename_i sent hsent
    split at h
    · cases h
      exact ⟨by omega, sent, hsent, rfl⟩
    · cases h
  · cases h

theorem onPacketAcked_some {r : Int} (h : b.rttSample pn t = some r) (n prior : Nat) :
    (b.onPacketAcked pn n prior t).estimates = (b.updateMinRtt t r).estimates := by
  unfold Sender.onPacketAcked
  rw [h]
  rfl

theorem onPacketAcked_none (h : b.rttSample pn t = none) (n prior : Nat) :
    (b.onPacketAcked pn n prior t).estimates = b.estimates := by
  unfold Sender.onPacketAcked
  rw [h]
  rfl

/-- An acknowledgement that takes a sample. -/
theorem Filters.sample {e : Estimator} (h : Filters created e) {r : Int} (hr : e.sender.rttSample pn t = some r)
    (ht : e.InTime t) (n prior : Nat) :
    Set (e.sender.onPacketAcked pn n prior t).estimates ((t, r) :: e.samples) ∧
      t - (e.sender.onPacketAcked pn n prior t).estimates.minRttStamp ≤ minRttFilterLen := by
  obtain ⟨hpos, sent, hsent, rfl⟩ := rttSample_eq_some hr
  have hcreated := h.sent pn sent hsent
  have hsame := onPacketAcked_some hr n prior
  have hset : Set (e.sender.updateMinRtt t (t - sent)).estimates ((t, t - sent) :: e.samples) ∧
      t - (e.sender.updateMinRtt t (t - sent)).estimates.minRttStamp ≤ minRttFilterLen := by
    obtain ⟨hnil, hunset⟩ | hset := h.estimates
    · rw [hnil]
      have := h.created_le.1
      have := ht.2
      exact hunset.updateMinRtt hpos (by omega) (by omega)
    · exact hset.updateMinRtt hpos fun s hs => (h.sampled s hs).trans ht.1
  rw [hsame]
  exact hset

variable {e e' : Estimator}

theorem step_onPacketSent {inFlight n : Nat} {r : Bool} (h : e.step (.onPacketSent t inFlight pn n r) = some e') :
    e.InTime t ∧ e' = { e with sender := e.sender.onPacketSent t inFlight pn n r, now := t } := by
  unfold step at h
  dsimp only at h
  split at h
  · cases h
    exact ⟨‹_›, rfl⟩
  · cases h

theorem step_onPacketAcked {n prior : Nat} (h : e.step (.onPacketAcked pn n prior t) = some e') :
    e.InTime t ∧ e'.sender = e.sender.onPacketAcked pn n prior t ∧ e'.now = t ∧
      e'.samples = ((e.sender.rttSample pn t).map fun rtt => (t, rtt)).toList ++ e.samples := by
  unfold step at h
  dsimp only at h
  split at h
  · cases h
    exact ⟨‹_›, rfl, rfl, rfl⟩
  · cases h

end

theorem Filters.step {c : Call} (h : Filters created e) (hs : e.step c = some e') : Filters created e' := by
  cases c with
  | onPacketSent t inFlight pn n r =>
    obtain ⟨ht, rfl⟩ := step_onPacketSent hs
    refine ⟨⟨h.created_le.1, h.created_le.2.trans ht.1⟩, ht.2, ?_, fun s hs => (h.sampled s hs).trans ht.1, ?_⟩
    · intro pn' t' hsent
      rw [Sender.onPacketSent_sentTimes, Function.update_apply] at hsent
      split at hsent
      · cases hsent
        exact h.created_le.2.trans ht.1
      · exact h.sent pn' t' hsent
    · rw [estimates_onPacketSent]
      exact h.estimates
  | onPacketAcked pn n prior t =>
    obtain ⟨ht, hsender, hnow, hsamples⟩ := step_onPacketAcked hs
    have hsentTimes := (Sender.onPacketAcked_spec e.sender pn n prior t).2.2.2.2
    constructor
    · rw [hnow]
      exact ⟨h.created_le.1, h.created_le.2.trans ht.1⟩
    · rw [hnow]
      exact ht.2
    · intro pn' t' hsent
      rw [hsender, hsentTimes, Function.update_apply] at hsent
      split at hsent
      · cases hsent
      · exact h.sent pn' t' hsent
    · intro s hs
      rw [hnow]
      rw [hsamples, mem_append] at hs
      cases hs with
      | inl hnew =>
        cases hr : e.sender.rttSample pn t with
        | none => simp [hr] at hnew
        | some r =>
          simp only [hr, Option.map_some, Option.toList_some, mem_singleton] at hnew
          rw [hnew]
      | inr hold => exact (h.sampled s hold).trans ht.1
    rw [hsender, hsamples]
    cases hr : e.sender.rttSample pn t with
    | none =>
      rw [onPacketAcked_none hr n prior]
      exact h.estimates
    | some r => exact .inr (h.sample hr ht n prior).1
  | onCongestionEvent pn lost prior =>
    cases hs
    refine { h with sent := ?_, estimates := ?_ }
    · intro pn' t' hsent
      rw [Sender.onCongestionEvent_sentTimes] at hsent
      exact h.sent pn' t' hsent
    · rw [estimates_onCongestionEvent]
      exact h.estimates

theorem filters_run (hc : 0 ≤ created ∧ created ≤ maxInt64) {size : Nat} {cs : List Call}
    (hr : LTS.run step (new size created) cs = some e) : Filters created e :=
  LTS.run_invariant (fun _ _ _ h _ hs => h.step hs) (filters_new hc size) (LTS.along_true _ _) hr

/-- After every acknowledgement that takes a sample. -/
theorem min_rtt_windowed {created : Int} (hc : 0 ≤ created ∧ created ≤ maxInt64) {size : Nat} {cs : List Call}
    {e e' : Estimator} (hr : LTS.run step (new size created) cs = some e) {pn t r : Int} {n prior : Nat}
    (hsample : e.sender.rttSample pn t = some r) (hs : e.step (.onPacketAcked pn n prior t) = some e') :
    (e'.sender.minRttStamp, e'.sender.minRtt) ∈ e'.samples ∧ t - e'.sender.minRttStamp ≤ minRttFilterLen ∧
      (∀ s ∈ e'.samples, e'.sender.minRttStamp ≤ s.1 → e'.sender.minRtt ≤ s.2) ∧
      e'.sender.minRtt ≤ e'.sender.probeRttMinDelay ∧
      t - e'.sender.probeRttMinStamp ≤ probeRttInterval := by
  obtain ⟨ht, hsender, -, hsamples⟩ := step_onPacketAcked hs
  obtain ⟨hset, hage⟩ := (filters_run hc hr).sample hsample ht n prior
  rw [hsender, hsamples, hsample]
  exact ⟨hset.min.mem, hage, hset.min.le, hset.min_le, hset.recent (t, r) mem_cons_self⟩

/-- Two packets sent at 1 s and 2 s, of which the first is acknowledged at 3 s. -/
def slowPath : List Call :=
  [.onPacketSent 1000000000 0 0 1200 true, .onPacketSent 2000000000 1200 1 1200 true,
    .onPacketAcked 0 1200 2400 3000000000]

/-- The other acknowledgement, at 13.5 s, finds both estimates expired. -/
theorem min_rtt_windowed_expired : ∃ e e', LTS.run step (new 1200 0) slowPath = some e ∧
      e.sender.rttSample 1 13500000000 = some 11500000000 ∧
      e.step (.onPacketAcked 1 1200 1200 13500000000) = some e' ∧
      e'.sender.minRtt = 11500000000 ∧
      (e'.sender.minRttStamp, e'.sender.minRtt) ∈ e'.samples ∧
      13500000000 - e'.sender.minRttStamp ≤ minRttFilterLen := by
  refine ⟨_, _, rfl, rfl, rfl, rfl, ?_⟩
  have h := @min_rtt_windowed 0 (by decide) 1200 slowPath _ _ rfl 1 13500000000 11500000000 1200 1200 rfl rfl
  exact ⟨h.1, h.2.1⟩

end Estimator

end MoqQuic.L2.Congestion.Bbrv3
