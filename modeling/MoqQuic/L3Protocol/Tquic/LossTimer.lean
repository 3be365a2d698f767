import MoqQuic.L3Protocol.Tquic.Accounting

/-!
# The timer for loss detection (`connection/recovery.rs`)

While something ack-eliciting is in flight on a path whose handshake is done,
the timer has to run, or nothing is sent again when all of it is lost.

`set_loss_detection_timer` decides by the counters, so it inherits what
`Accounting` says of them. It also looks at three spaces only: Initial, Handshake
and the one of the event, or Data if the event is for one of the first two. On a
path with a space of its own, an event of Initial or Handshake thus passes over
what is in flight there.

Results:
* `loss_timer_set`: in every run without late ACKs, and without events of Initial
  and Handshake while an extra space has packets in flight, the timer runs.
* `timer_lost`: two runs in which it does not, one for each condition.
-/
namespace MoqQuic.L3.Tquic
open LTS L2.Tquic.Space PacketNumSpaceMap List Option
open L2.Tquic (Error Range RangeSet)

/-- A path has packets in Initial, Handshake and its own space `app`, which is the one that timeouts name.
mirrors connection.rs:3135-3148, 3280-3281, 3538-3562 -/
def RecoveryCall.onPath (app : SpaceId) : RecoveryCall → Bool
  | .lossDetectionTimeout id _ _ => id = app
  | c => c.spaceId = .initial ∨ c.spaceId = .handshake ∨ c.spaceId = app

namespace PathRecovery

/-- `none` also for a call that is not for this path. -/
def stepOn (app : SpaceId) (s : PathRecovery) (c : RecoveryCall) : Option PathRecovery :=
  if c.onPath app then step s c else none

/-- The handshake is completed and the address of the peer is verified. -/
def Established (c : RecoveryCall) : Prop := c.status.completed = true ∧ c.status.peerVerifiedAddress = true

/-- The timer is set with regard to the path's own space, or nothing ack-eliciting is in flight there. -/
def Watched (app : SpaceId) (s : PathRecovery) (c : RecoveryCall) : Prop :=
  app = .data ∨ c.spaceId = app ∨ ∀ space, s.spaces.get app = some space → space.inFlight.ackEliciting = 0

/-- Only the spaces of the path have packets in flight. -/
structure AtHome (app : SpaceId) (s : PathRecovery) : Prop where
  inv : Inv False s
  home : ∀ e ∈ s.spaces, 0 < e.2.inFlight.ackEliciting →
    e.1 = SpaceId.initial.key ∨ e.1 = SpaceId.handshake.key ∨ e.1 = app.key

structure Armed (app : SpaceId) (s : PathRecovery) : Prop extends AtHome app s where
  timer : 0 < s.recovery.inFlight.ackEliciting → s.recovery.lossDetectionTimer.isSome = true

variable {app id : SpaceId} {s s' : PathRecovery} {c : RecoveryCall} {status : HandshakeStatus} {now : Nat}

/-! ## The timer that is set -/

variable {e : Nat × PacketNumSpace}

/-- What is in flight was sent at a known time. -/
theorem Inv.last_sent (h : Inv False s) (he : e ∈ s.spaces) (hpos : e.2.inFlight.ackEliciting ≠ 0) :
    e.2.timeOfLastSentAckElicitingPkt.isSome = true := by
  have hc := h.counted e he
  rw [hc.inFlight_eq] at hpos
  obtain ⟨p, hp, hout, hae⟩ := ackEliciting_pos_iff.mp (Nat.pos_of_ne_zero hpos)
  exact hc.last_sent p hp hout hae

theorem earlierPto_isSome {best : Option Nat × SpaceId} {time : Option Nat} (htime : time.isSome = true) :
    (Recovery.earlierPto best time id).1.isSome = true := by
  rw [Recovery.earlierPto]
  split
  · exact htime
  · next hbest =>
    rw [not_or, isNone_iff_eq_none] at hbest
    exact isSome_iff_ne_none.mpr hbest.1

section

variable {spaces : PacketNumSpaceMap} (hdone : status.completed = true)
  (hlast : ∀ e ∈ spaces, e.2.inFlight.ackEliciting ≠ 0 → e.2.timeOfLastSentAckElicitingPkt.isSome = true)
include hdone hlast

/-- The loop finds a time if one of the spaces has packets in flight. -/
theorem ptoLoop_isSome (r : Recovery) {ids : List SpaceId} {duration : Nat} {best : Option Nat × SpaceId}
    (hfound : best.1.isSome = true ∨
      ∃ id ∈ ids, ∃ space, spaces.get id = some space ∧ space.inFlight.ackEliciting ≠ 0) :
    (r.ptoLoop spaces status ids duration best).1.isSome = true := by
  induction ids generalizing duration best with
  | nil =>
    rcases hfound with hbest | ⟨id, hid, -⟩
    · exact hbest
    · exact absurd hid not_mem_nil
  | cons id ids ih =>
    -- a space that is passed over is not the one that was found
    have hskip (hno : ∀ space, spaces.get id = some space → space.inFlight.ackEliciting = 0) : best.1.isSome = true ∨
          ∃ id ∈ ids, ∃ space, spaces.get id = some space ∧ space.inFlight.ackEliciting ≠ 0 := by
      refine hfound.imp_right fun ⟨id', hid', space, hget, hpos⟩ => ⟨id', ?_, space, hget, hpos⟩
      rcases mem_cons.mp hid' with rfl | hid'
      · exact absurd (hno space hget) hpos
      · exact hid'
    unfold Recovery.ptoLoop
    split
    · next hget => exact ih (hskip fun space h => by rw [hget] at h; cases h)
    rename_i space hget
    split
    · next hzero => exact ih (hskip fun space' h => by rw [hget] at h; cases h; exact hzero)
    rename_i hpos
    rw [if_neg fun h => absurd hdone (by rw [h.2]; exact Bool.false_ne_true)]
    refine ih (.inl (earlierPto_isSome ?_))
    rw [isSome_map]
    exact hlast _ (mem_of_get hget) hpos

/-- The timer runs if one of the spaces it is set for has packets in flight. -/
theorem setLossDetectionTimer_isSome (r : Recovery) (hpath : 0 < r.inFlight.ackEliciting)
    (hfound : ∃ id' ∈ Recovery.candidates id, ∃ space, spaces.get id' = some space ∧
      space.inFlight.ackEliciting ≠ 0) :
    (r.setLossDetectionTimer id spaces status now).lossDetectionTimer.isSome = true := by
  unfold Recovery.setLossDetectionTimer
  split
  · next hloss => exact hloss
  rw [if_neg fun h => absurd h.1 hpath.ne', Recovery.getPtoTimeAndSpace, if_neg hpath.ne']
  exact ptoLoop_isSome hdone hlast r (.inr hfound)

end

/-- What the path counts is in flight in one of the spaces. -/
theorem Inv.exists_space (h : Inv False s) (hpos : 0 < s.recovery.inFlight.ackEliciting) :
    ∃ e ∈ s.spaces, e.2.inFlight.ackEliciting ≠ 0 := by
  rw [h.path, totalLoad_pos_iff] at hpos
  obtain ⟨e, he, hpos⟩ := hpos
  exact ⟨e, he, ((h.counted e he).inFlight_eq ▸ hpos).ne'⟩

/-! ## Runs -/

theorem stepOn_eq_some (h : stepOn app s c = some s') : c.onPath app = true ∧ step s c = some s' := by
  rw [stepOn] at h
  split at h
  · next hon => exact ⟨hon, h⟩
  · cases h

theorem candidates_of_isData (h : id.isData = true) : Recovery.candidates id = [.initial, .handshake, id] :=
  if_pos (of_decide_eq_true h)

/-- A call changes the spaces of the path only. -/
theorem touched_home (happ : app.isData = true) (hon : c.onPath app = true) (hid : id ∈ c.touched) :
    id = .initial ∨ id = .handshake ∨ id = app := by
  cases c with
  | lossDetectionTimeout id' status now =>
    obtain rfl : id' = app := of_decide_eq_true hon
    rw [RecoveryCall.touched, candidates_of_isData happ] at hid
    simpa using hid
  | packetSent | ackReceived | spaceDiscarded =>
    rw [mem_singleton.mp hid]
    exact of_decide_eq_true hon

theorem AtHome.step (happ : app.isData = true) (h : AtHome app s) (hlate : NotLate s c)
    (hs : stepOn app s c = some s') : AtHome app s' := by
  obtain ⟨hon, hs⟩ := stepOn_eq_some hs
  have hout := step_outcome h.inv hlate False.elim hs
  refine ⟨hout.inv, fun e he hpos => ?_⟩
  rcases hout.others e he with hold | ⟨id, hid, hkey⟩
  · exact h.home e hold hpos
  rw [hkey]
  exact (touched_home happ hon hid).imp (congrArg _) (Or.imp (congrArg _) (congrArg _))

/-- A call that is not for the path's own space is for Initial or Handshake. -/
theorem early_of_ne (hon : c.onPath app = true) (hid : c.spaceId ≠ app) :
    c.touched = [c.spaceId] ∧ (c.spaceId = .initial ∨ c.spaceId = .handshake) := by
  cases c with
  | lossDetectionTimeout id status now => exact absurd (of_decide_eq_true hon) hid
  | packetSent | ackReceived | spaceDiscarded =>
    refine ⟨rfl, ?_⟩
    rcases of_decide_eq_true hon with h | h | h
    · exact .inl h
    · exact .inr h
    · exact absurd h hid

/-- A space of the path with packets in flight is one of those for which the timer is set. -/
theorem found_of_watched (happ : app.isData = true) (hon : c.onPath app = true) (hwatch : Watched app s c)
    (hothers : ∀ e ∈ s'.spaces, e ∈ s.spaces ∨ ∃ id ∈ c.touched, e.1 = id.key) (h : AtHome app s')
    (he : e ∈ s'.spaces) (hpos : e.2.inFlight.ackEliciting ≠ 0) :
    ∃ id ∈ Recovery.candidates c.spaceId, ∃ space, s'.spaces.get id = some space ∧
      space.inFlight.ackEliciting ≠ 0 := by
  have hget {id : SpaceId} (hkey : e.1 = id.key) : s'.spaces.get id = some e.2 := by
    refine OrdMap.find_eq_some.mpr ?_
    rw [← hkey]
    exact he
  rcases h.home e he (Nat.pos_of_ne_zero hpos) with hkey | hkey | hkey
  · exact ⟨_, initial_mem_candidates _, e.2, hget hkey, hpos⟩
  · exact ⟨_, handshake_mem_candidates _, e.2, hget hkey, hpos⟩
  by_cases hid : c.spaceId = app
  · rw [hid, candidates_of_isData happ]
    exact ⟨app, by simp, e.2, hget hkey, hpos⟩
  obtain ⟨htouched, hearly⟩ := early_of_ne hon hid
  rcases hwatch with rfl | hid' | hzero
  · refine ⟨.data, ?_, e.2, hget hkey, hpos⟩
    rw [Recovery.candidates, if_neg fun h => hearly.elim h.1 h.2]
    simp
  · exact absurd hid' hid
  rcases hothers e he with hold | ⟨id, hin, hkey'⟩
  · -- the path's own space is as it was before the call
    refine absurd (hzero e.2 (OrdMap.find_eq_some.mpr ?_)) hpos
    rw [← hkey]
    exact hold
  rw [htouched, mem_singleton] at hin
  subst hin
  rcases hearly with hearly | hearly
  · exact ⟨_, initial_mem_candidates _, e.2, hget (hkey'.trans (congrArg _ hearly)), hpos⟩
  · exact ⟨_, handshake_mem_candidates _, e.2, hget (hkey'.trans (congrArg _ hearly)), hpos⟩

theorem Armed.step (happ : app.isData = true) (h : Armed app s)
    (hok : Established c ∧ NotLate s c ∧ Watched app s c) (hs : stepOn app s c = some s') : Armed app s' := by
  obtain ⟨⟨hdone, -⟩, hlate, hwatch⟩ := hok
  have hhome := h.toAtHome.step happ hlate hs
  obtain ⟨hon, hs⟩ := stepOn_eq_some hs
  have hout := step_outcome h.inv hlate False.elim hs
  refine ⟨hhome, fun hpos => ?_⟩
  rcases hout.timer with ⟨r, hr, hset⟩ | ⟨hsame, hold⟩
  · obtain ⟨e, he, hne⟩ := hhome.inv.exists_space hpos
    rw [hset]
    exact setLossDetectionTimer_isSome hdone (fun e he => hhome.inv.last_sent he) r (hr ▸ hpos)
      (found_of_watched happ hon hwatch hout.others hhome he hne)
  · rw [hsame]
    exact h.timer (hold hpos)

theorem atHome_new (app : SpaceId) (conf : RecoveryConfig) (extra : Nat) : AtHome app (new conf extra) where
  inv := inv_new False conf extra
  home := fun e he hpos => by
    rw [mem_new he] at hpos
    exact absurd hpos (lt_irrefl 0)

/-- A packet that is neither acknowledged nor lost is counted. -/
theorem Inv.counts_unresolved (h : Inv False s) (he : e ∈ s.spaces) {p : SentPacket} (hp : p ∈ unresolved e.2)
    (hae : p.ackEliciting = true) : 0 < s.recovery.inFlight.ackEliciting := by
  have hc := h.counted e he
  rw [unresolved, mem_filter, Bool.and_eq_true, Bool.and_eq_true, Bool.not_eq_true', isNone_iff_eq_none] at hp
  obtain ⟨hmem, ⟨hfl, hack⟩, hlost⟩ := hp
  have hacked : p.timeAcked.isSome ≠ true := fun hsome => by
    rw [hc.acked p hmem hsome] at hack
    cases hack
  have hsent : p ∈ e.2.sent := by
    refine (mem_append.mp hmem).resolve_left fun hrem => ?_
    rcases hc.removed_done p hrem with hsome | hsome
    · exact hacked hsome
    rw [hlost] at hsome
    cases hsome
  have hout : p.outstanding = true := by
    rw [SentPacket.outstanding, hfl, hlost, not_isSome_iff_eq_none.mp hacked]
    rfl
  rw [h.path, totalLoad_pos_iff]
  exact ⟨e, he, ackEliciting_pos_iff.mpr ⟨p, hsent, hout, hae⟩⟩

/-- The run `before` leads to a state in which the handshake is done, and in which the timer runs if anything
ack-eliciting is counted. After every further run whose calls meet the conditions, the timer runs if there is an
ack-eliciting packet in flight that is neither acknowledged nor lost. -/
theorem loss_timer_set (conf : RecoveryConfig) (extra : Nat) (app : SpaceId) (before calls : List RecoveryCall)
    (s₀ s : PathRecovery) (happ : app.isData = true) (hlate : Along (stepOn app) NotLate (new conf extra) before)
    (hbefore : run (stepOn app) (new conf extra) before = some s₀)
    (htimer : 0 < s₀.recovery.inFlight.ackEliciting → s₀.recovery.lossDetectionTimer.isSome = true)
    (hok : Along (stepOn app) (fun s c => Established c ∧ NotLate s c ∧ Watched app s c) s₀ calls)
    (hr : run (stepOn app) s₀ calls = some s) (hopen : ∃ e ∈ s.spaces, ∃ p ∈ unresolved e.2, p.ackEliciting = true) :
    s.recovery.lossDetectionTimer.isSome = true := by
  have hhome : AtHome app s₀ :=
    run_invariant (fun _ _ _ h hok hs => h.step happ hok hs) (atHome_new app conf extra) hlate hbefore
  have harmed : Armed app s :=
    run_invariant (fun _ _ _ h hok hs => h.step happ hok hs) ⟨hhome, htimer⟩ hok hr
  obtain ⟨e, he, p, hp, hae⟩ := hopen
  exact harmed.timer (harmed.inv.counts_unresolved he hp hae)

theorem exists_unresolved (h : (s.spaces.entries.any fun e => (unresolved e.2).any SentPacket.ackEliciting) = true) :
    ∃ e ∈ s.spaces, ∃ p ∈ unresolved e.2, p.ackEliciting = true := by
  obtain ⟨e, he, h⟩ := any_eq_true.mp h
  exact ⟨e, he, any_eq_true.mp h⟩

/-- The run before sends four packets. The first is lost, the others are acknowledged, and another one is sent. -/
theorem loss_timer_set_after_loss : ∃ s₀ s, run (stepOn .data) (new .default 0) fourSent = some s₀ ∧
    run (stepOn .data) s₀ lossThenSend = some s ∧ s.recovery.lossDetectionTimer.isSome = true := by
  refine ⟨_, _, rfl, rfl, loss_timer_set .default 0 .data fourSent lossThenSend _ _ rfl ?_ rfl
    (fun _ => by decide +kernel) ⟨⟨⟨rfl, rfl⟩, ?_, .inl rfl⟩, fun _ _ => ?_⟩ rfl
    (exists_unresolved (by decide +kernel))⟩
  · exact ⟨trivial, fun _ _ => ⟨trivial, fun _ _ => ⟨trivial, fun _ _ => ⟨trivial, fun _ _ => trivial⟩⟩⟩⟩
  · intro space hget
    cases hget
    exact fun p hp _ _ _ => Option.isNone_iff_eq_none.mp
      (List.all_eq_true (p := fun p : SentPacket => p.timeLost.isNone) |>.mp (by decide +kernel) p hp)
  · exact ⟨⟨⟨rfl, rfl⟩, trivial, .inl rfl⟩, fun _ _ => trivial⟩

/-- A late ACK takes packet 4 out of the counters; and on a path with a space of its own, packet 0 is passed over when
the Handshake space is discarded. -/
theorem timer_lost : (∃ s, run (stepOn .data) (new .default 0) (fourSent ++ lossThenSend ++
        [.ackReceived .data (RangeSet.empty.insert ⟨0, 1⟩) 0 ⟨true, true, true⟩ 1600]) = some s ∧
      (∃ e ∈ s.spaces, ∃ p ∈ unresolved e.2, p.ackEliciting = true) ∧ s.recovery.lossDetectionTimer = none) ∧
    ∃ s, run (stepOn (.dataExt 3)) (new .default 1) [.packetSent (.dataExt 3) true true 100 ⟨true, true, true⟩ 0,
          .spaceDiscarded .handshake ⟨true, true, true⟩ 1000] = some s ∧
      (∃ e ∈ s.spaces, ∃ p ∈ unresolved e.2, p.ackEliciting = true) ∧ s.recovery.lossDetectionTimer = none := by
  exact ⟨⟨_, rfl, exists_unresolved (by decide +kernel), by decide +kernel⟩,
    _, rfl, exists_unresolved (by decide +kernel), by decide +kernel⟩

end PathRecovery

end MoqQuic.L3.Tquic
