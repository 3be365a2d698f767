import MoqQuic.L2Machine.Congestion.Bbrv1
import MoqQuic.L2Machine.Congestion.Bbrv3
import MoqQuic.L3Protocol.Quic.Calls

/-!
# The send times a BBR sender keeps

Both BBR senders keep a map `sentTimes` from packet numbers to send times, and
take their RTT samples from it. The handler tells them about packets of three
packet number spaces, each with its own numbering; the map has one key for all
of them.

**Samples.** `recording A sample` is the controller `A` together with a list of
the RTT samples it took. The handler cannot tell the two apart.

Results:
* `rtt_sample_of_own_space`: as long as no packet is sent under a number that
  another space has in flight, a sample is measured from the send of the
  packet that was acknowledged.
* `rtt_sample_of_other_space`: otherwise it is not.
* `sentTimes_tracked`: as long as every packet is acknowledged while it is in
  flight, `sentTimes` holds tracked packets only.
* `sentTimes_left_by_probe`: a packet that leaves in another way stays in the map.
-/
namespace MoqQuic.L4.SendTimes

open L2 L2.Ackhandler L2.Congestion L3.Quic L3.Quic.Handler List Function Option

variable {C E : Type} {A : SendAlgorithm C} {times : C → Int → Option Int}
section

variable (hk : KeepsSendTimes A times)
include hk

theorem times_adjust {c c' : C} (ha : Adjust A c c') : times c' = times c := by
  cases ha with
  | refl => rfl
  | hasPacingBudget now => exact hk.hasPacingBudget c now
  | setMaxDatagramSize size => exact hk.setMaxDatagramSize c size

/-! ## Acknowledgements in a row -/

/-- The first of the calls. -/
theorem times_ack (prior : Nat) (t : Int) (e : Int × Packet) (c : C) (pn : Int) :
    times (if e.2.includedInBytesInFlight then A.onPacketAcked c e.1 e.2.length prior t else c) pn =
      if e.1 = pn ∧ e.2.includedInBytesInFlight then none else times c pn := by
  cases hin : e.2.includedInBytesInFlight with
  | false => simp
  | true =>
    rw [if_pos rfl, hk.onPacketAcked, update_apply]
    simp [eq_comm]

/-- Exactly the keys acknowledged while in flight are removed. -/
theorem times_ackAll (prior : Nat) (t : Int) (pn : Int) (l : List (Int × Packet)) (c : C) :
    times (ackAll A prior t l c) pn = if ∃ e ∈ l, e.1 = pn ∧ e.2.includedInBytesInFlight = true then none else
      times c pn := by
  induction l generalizing c with
  | nil => simp [ackAll]
  | cons e l ih =>
    rw [ackAll_cons, ih, times_ack hk]
    by_cases hl : ∃ e ∈ l, e.1 = pn ∧ e.2.includedInBytesInFlight = true
    · rw [if_pos hl, if_pos]
      obtain ⟨x, hx, hpn⟩ := hl
      exact ⟨x, mem_cons_of_mem _ hx, hpn⟩
    rw [if_neg hl]
    refine if_congr ?_ rfl rfl
    constructor
    · exact fun he => ⟨e, mem_cons_self, he⟩
    rintro ⟨x, hx, hpn⟩
    rcases mem_cons.mp hx with rfl | hx
    · exact hpn
    · exact (hl ⟨x, hx, hpn⟩).elim

/-! ## Recording the samples -/

/-- An RTT taken for the packet number `pn`. -/
structure Sample where
  pn : Int
  eventTime : Int
  rtt : Int
  deriving DecidableEq, Repr

/-- `sample c pn t` is the RTT that `c` takes in `OnPacketAcked`, if any. -/
def recording (A : SendAlgorithm C) (sample : C → Int → Int → Option Int) : SendAlgorithm (C × List Sample) where
  timeUntilSend c := A.timeUntilSend c.1
  hasPacingBudget c now := ((A.hasPacingBudget c.1 now).1, ((A.hasPacingBudget c.1 now).2, c.2))
  onPacketSent c t inFlight pn n r := (A.onPacketSent c.1 t inFlight pn n r, c.2)
  canSend c := A.canSend c.1
  maybeExitSlowStart c := (A.maybeExitSlowStart c.1, c.2)
  onPacketAcked c pn n prior t := (A.onPacketAcked c.1 pn n prior t,
    c.2 ++ ((sample c.1 pn t).map fun rtt => { pn, eventTime := t, rtt }).toList)
  onCongestionEvent c pn lost prior := (A.onCongestionEvent c.1 pn lost prior, c.2)
  onRetransmissionTimeout c b clock := (A.onRetransmissionTimeout c.1 b clock, c.2)
  setMaxDatagramSize c n := (A.setMaxDatagramSize c.1 n, c.2)
  newCubicSender := A.newCubicSender.map fun new size => (new size, [])

variable {sample : C → Int → Int → Option Int}

theorem keepsSendTimes_recording :
    KeepsSendTimes (recording A sample) (fun c => times c.1) where
  onPacketSent c := hk.onPacketSent c.1
  onPacketAcked c := hk.onPacketAcked c.1
  onCongestionEvent c := hk.onCongestionEvent c.1
  maybeExitSlowStart c := hk.maybeExitSlowStart c.1
  hasPacingBudget c := hk.hasPacingBudget c.1
  setMaxDatagramSize c := hk.setMaxDatagramSize c.1
  onRetransmissionTimeout c := hk.onRetransmissionTimeout c.1
  newCubicSender := by rw [recording, hk.newCubicSender]; rfl

end

theorem samples_relayed {c c' : C × List Sample} (hr : Relayed (recording A sample) c c') : c'.2 = c.2 := by
  induction hr with
  | refl => rfl
  | tail _ hcall ih => cases hcall <;> exact ih

theorem samples_adjust {c c' : C × List Sample} (ha : Adjust (recording A sample) c c') : c'.2 = c.2 := by
  cases ha <;> rfl

variable (sample) in
/-- The numbers differ, so no sample is taken from a key that an earlier one removed. -/
theorem samples_ackAll (hk : KeepsSendTimes A times) (prior : Nat) (t : Int)
    (l : List (Int × Packet)) (c : C × List Sample) (hl : l.Pairwise (fun e e' => e.1 < e'.1)) :
    ∃ new, (ackAll (recording A sample) prior t l c).2 = c.2 ++ new ∧
      ∀ x ∈ new, x.eventTime = t ∧ ∃ e ∈ l, e.2.includedInBytesInFlight = true ∧ x.pn = e.1 ∧
        ∃ c', times c' e.1 = times c.1 e.1 ∧ sample c' e.1 t = some x.rtt := by
  induction l generalizing c with
  | nil => exact ⟨[], (append_nil _).symm, fun _ hx => by cases hx⟩
  | cons e l ih =>
    obtain ⟨hlt, hl'⟩ := pairwise_cons.mp hl
    rw [ackAll_cons]
    obtain ⟨new, hnew, hfrom⟩ := ih (if e.2.includedInBytesInFlight then
      (recording A sample).onPacketAcked c e.1 e.2.length prior t else c) hl'
    -- the keys of the packets behind the first are as they were
    have hrest : ∀ x ∈ new, x.eventTime = t ∧ ∃ e' ∈ e :: l, e'.2.includedInBytesInFlight = true ∧
        x.pn = e'.1 ∧ ∃ c', times c' e'.1 = times c.1 e'.1 ∧ sample c' e'.1 t = some x.rtt := by
      intro x hx
      obtain ⟨ht, e', he', hin, hpn, c', hc', hs⟩ := hfrom x hx
      have hkr : KeepsSendTimes (recording A sample) fun c => times c.1 := keepsSendTimes_recording hk
      have htimes := times_ack hkr prior t e c e'.1
      have hne : ¬ (e.1 = e'.1 ∧ e.2.includedInBytesInFlight = true) :=
        fun h => Int.ne_of_lt (hlt e' he') h.1
      rw [if_neg hne] at htimes
      exact ⟨ht, e', mem_cons_of_mem _ he', hin, hpn, c', hc'.trans htimes, hs⟩
    cases hin : e.2.includedInBytesInFlight with
    | false =>
      rw [hin] at hnew
      exact ⟨new, hnew, hrest⟩
    | true =>
      rw [hin, if_pos rfl] at hnew
      refine ⟨_ ++ new, hnew.trans (append_assoc _ _ _), fun x hx => ?_⟩
      rcases mem_append.mp hx with hx | hx
      · obtain ⟨rtt, hrtt, rfl⟩ := map_eq_some_iff.mp (mem_toList.mp hx)
        exact ⟨rfl, e, mem_cons_self, hin, rfl, c.1, rfl, hrtt⟩
      · exact hrest x hx

/-! ## Which packet a sample belongs to -/

/-- The packets whose acknowledgement the controller will be told about. -/
def InFlight (h : Handler C E) (s : Space) (e : Int × Packet) : Prop :=
  e ∈ h.tracked s ∧ e.2.includedInBytesInFlight = true

/-- The call does not mix up the spaces: a packet is sent only under a number that no other space has
in flight. If the controller takes a sample from a key that is not there (`forgets = false`), the path
is changed only when nothing of the handshake is in flight. -/
def Apart (forgets : Bool) (h : Handler C E) : Call → Prop
  | .sentPacket a => a.isPathProbePacket = false → ∀ s, s ≠ a.encLevel.space → ∀ e, InFlight h s e → e.1 ≠ a.pn
  | .migratedPath _ _ _ => forgets = false → ∀ s, s ≠ .appData → ∀ e, ¬ InFlight h s e
  | _ => True

/-- The packets in flight were sent in their own space, their keys hold their send times, and no two spaces
share a number. -/
structure Attributed (times : C → Int → Option Int) (forgets : Bool) (past : List Call) (h : Handler C E) :
    Prop where
  wf : Wf h
  sent : ∀ s e, InFlight h s e → ∃ a, Call.sentPacket a ∈ past ∧ a.encLevel.space = s ∧ (a.pn : Int) = e.1 ∧
    a.packet = e.2
  times : ∀ s e, InFlight h s e → times h.congestion e.1 = some e.2.sendTime ∨
    forgets = true ∧ times h.congestion e.1 = none
  apart : ∀ s s' e e', InFlight h s e → InFlight h s' e' → e.1 = e'.1 → s = s'

variable {forgets : Bool} {past : List Call} {h h' : Handler C E} {ecn : EcnHandler E} {l : Call} {a : SentArgs}

/-- No packet in flight is added, and the key of one that is left is as it was, or forgotten. -/
theorem Attributed.of_subset (hi : Attributed times forgets past h) (hw : Wf h')
    (hsub : ∀ s e, InFlight h' s e → InFlight h s e)
    (ht : ∀ s e, InFlight h' s e → times h'.congestion e.1 = times h.congestion e.1 ∨
      forgets = true ∧ times h'.congestion e.1 = none) : Attributed times forgets (past ++ [l]) h' := by
  refine ⟨hw, fun s e he => ?_, fun s e he => ?_, fun s s' e e' he he' =>
    hi.apart s s' e e' (hsub s e he) (hsub s' e' he')⟩
  · obtain ⟨a, ha, hrest⟩ := hi.sent s e (hsub s e he)
    exact ⟨a, mem_append_left _ ha, hrest⟩
  rcases ht s e he with hsame | hnone
  · rw [hsame]
    exact hi.times s e (hsub s e he)
  · exact Or.inr hnone

theorem inFlight_of_subset (hsub : ∀ s, h'.tracked s ⊆ h.tracked s) (s : Space) (e : Int × Packet)
    (he : InFlight h' s e) : InFlight h s e := ⟨hsub s he.1, he.2⟩

/-- The placeholder of a path probe does not count in flight. -/
theorem inFlight_of_sendsProbe (hs : SendsProbe a h h') (s : Space) (e : Int × Packet)
    (he : InFlight h' s e) : InFlight h s e := by
  obtain ⟨hm, hin⟩ := he
  rw [hs.tracked] at hm
  split at hm
  · rcases mem_append.mp hm with hm | hm
    · exact ⟨hm, hin⟩
    rw [mem_singleton.mp hm] at hin
    cases hin
  · exact ⟨hm, hin⟩

section Step

variable (hk : KeepsSendTimes A times) (hi : Attributed times forgets past h)
include hk hi

theorem attributed_sends (hok : ∀ s, s ≠ a.encLevel.space → ∀ e, InFlight h s e → e.1 ≠ a.pn)
    (hs : Sends A a h h') : Attributed times forgets (past ++ [.sentPacket a]) h' := by
  obtain ⟨inFlight, hc⟩ := hs.congestion
  -- a packet in flight is one of the old ones, under another number, or the new one
  have hcases : ∀ {s e}, InFlight h' s e → (InFlight h s e ∧ e.1 ≠ a.pn) ∨
      s = a.encLevel.space ∧ e = ((a.pn : Int), a.packet) := by
    intro s e he
    obtain ⟨hm, hin⟩ := he
    by_cases hsp : s = a.encLevel.space
    · have hpw := h'.tracked_pairwise s
      rw [hs.tracked, if_pos hsp] at hm hpw
      rcases mem_append.mp hm with hm | hm
      · have hlt := (pairwise_append.mp hpw).2.2 e hm _ (mem_singleton_self _)
        exact Or.inl ⟨⟨hm, hin⟩, Int.ne_of_lt hlt⟩
      · exact Or.inr ⟨hsp, mem_singleton.mp hm⟩
    · rw [hs.tracked, if_neg hsp] at hm
      exact Or.inl ⟨⟨hm, hin⟩, hok s hsp e ⟨hm, hin⟩⟩
  refine ⟨hs.wf, fun s e he => ?_, fun s e he => ?_, fun s s' e e' he he' hpn => ?_⟩
  · rcases hcases he with ⟨ho, -⟩ | ⟨hsp, rfl⟩
    · obtain ⟨b, hb, hrest⟩ := hi.sent s e ho
      exact ⟨b, mem_append_left _ hb, hrest⟩
    · exact ⟨a, mem_append_right _ (mem_singleton_self _), hsp.symm, rfl, rfl⟩
  · rw [hc, hk.onPacketSent]
    rcases hcases he with ⟨ho, hne⟩ | ⟨-, rfl⟩
    · rw [update_of_ne hne]
      exact hi.times s e ho
    left
    exact update_self _ _ _
  rcases hcases he with ⟨ho, hne⟩ | ⟨hsp, rfl⟩ <;> rcases hcases he' with ⟨ho', hne'⟩ | ⟨hsp', rfl⟩
  · exact hi.apart s s' e e' ho ho' hpn
  · exact (hne hpn).elim
  · exact (hne' hpn.symm).elim
  · exact hsp.trans hsp'.symm

theorem attributed_acks {ack : AckFrame} {enc : EncryptionLevel} {rcvTime : Int} {sp : PacketNumberSpace}
    {acked : List (Int × Packet)} (ha : Acks A ack enc rcvTime sp acked h h') :
    Attributed times forgets (past ++ [l]) h' := by
  obtain ⟨prior, c, hr, hc⟩ := ha.congestion
  refine hi.of_subset ha.wf (inFlight_of_subset ha.sub) fun s e he => Or.inl ?_
  rw [hc, times_ackAll hk, if_neg, hk.relayed hr]
  -- no key of a packet that is still in flight was removed
  rintro ⟨x, hx, hpn, hin⟩
  have hs : s = enc.space :=
    hi.apart s enc.space e x ⟨ha.sub s he.1, he.2⟩ ⟨ha.inFlight x hx hin, hin⟩ hpn.symm
  subst hs
  exact ha.removed e he.1 x hx hpn.symm

theorem attributed_migrates {clock : Int} (hok : forgets = false → ∀ s, s ≠ .appData → ∀ e, ¬ InFlight h s e)
    (hm : Migrates A clock h h') : Attributed times forgets (past ++ [l]) h' := by
  obtain ⟨c, -, hc⟩ := hm.congestion hk.newCubicSender
  refine hi.of_subset hm.wf (inFlight_of_subset hm.sub) fun s e he => ?_
  cases hf : forgets with
  | true => exact Or.inr ⟨rfl, by rw [hc, hk.onRetransmissionTimeout]⟩
  | false =>
    have hs : s = .appData := by
      by_contra hne
      exact hok hf s hne e ⟨hm.sub s he.1, he.2⟩
    have hmem := he.1
    rw [hs, hm.appData] at hmem
    cases hmem

theorem attributed_step (hok : Apart forgets h l) (hs : h.step A ecn l = some h') :
    Attributed times forgets (past ++ [l]) h' := by
  have he := step_cases hi.wf hs
  have hw := he.wf hi.wf
  cases he with
  | keeps hkeep =>
    refine hi.of_subset hw (inFlight_of_subset hkeep.sub) fun _ _ _ => Or.inl ?_
    rw [hk.relayed hkeep.relayed]
  | sends ha hsend => exact attributed_sends hk hi (hok ha) hsend
  | sendsProbe hsend =>
    exact hi.of_subset hw (inFlight_of_sendsProbe hsend) fun _ _ _ => Or.inl (by rw [hsend.congestion])
  | acks ha => exact attributed_acks hk hi ha
  | migrates hm => exact attributed_migrates hk hi hok hm
  | adjusts hspace ha =>
    refine hi.of_subset hw (inFlight_of_subset fun s => ?_) fun _ _ _ => Or.inl (by rw [times_adjust hk ha])
    rw [Handler.tracked, hspace]
    exact fun _ he => he

end Step

/-- A sample is taken for a packet in flight of the frame's own space, and from its key. -/
theorem samples_step (hk : KeepsSendTimes A times) {h h' : Handler (C × List Sample) E} (hw : Wf h)
    (hs : h.step (recording A sample) ecn l = some h') :
    ∃ new, h'.congestion.2 = h.congestion.2 ++ new ∧ ∀ x ∈ new, ∃ ack enc p,
      l = .receivedAck ack enc x.eventTime ∧ InFlight h enc.space (x.pn, p) ∧
      ∃ c, times c x.pn = times h.congestion.1 x.pn ∧ sample c x.pn x.eventTime = some x.rtt := by
  have none : ∀ {c : C × List Sample}, c.2 = h.congestion.2 → ∃ new, c.2 = h.congestion.2 ++ new ∧
      ∀ x ∈ new, ∃ ack enc p, l = .receivedAck ack enc x.eventTime ∧ InFlight h enc.space (x.pn, p) ∧
      ∃ c, times c x.pn = times h.congestion.1 x.pn ∧ sample c x.pn x.eventTime = some x.rtt :=
    fun hc => ⟨[], by rw [hc, append_nil], fun _ hx => by cases hx⟩
  have hkr : KeepsSendTimes (recording A sample) fun c => times c.1 := keepsSendTimes_recording hk
  cases step_cases hw hs with
  | keeps hkeep => exact none (samples_relayed hkeep.relayed)
  | sends _ hsend =>
    obtain ⟨_, hc⟩ := hsend.congestion
    exact none (by rw [hc]; rfl)
  | sendsProbe hsend => exact none (by rw [hsend.congestion])
  | @acks ack enc rcvTime sp acked ha =>
    obtain ⟨prior, c, hr, hc⟩ := ha.congestion
    obtain ⟨new, hnew, hfrom⟩ := samples_ackAll sample hk prior rcvTime acked c ha.sorted
    refine ⟨new, by rw [hc, hnew, samples_relayed hr], fun x hx => ?_⟩
    obtain ⟨rfl, e, he, hin, hpn, c', hc', hsample⟩ := hfrom x hx
    have htimes := hkr.relayed hr
    refine ⟨ack, enc, e.2, rfl, ?_, c', ?_, ?_⟩
    · rw [hpn]
      exact ⟨ha.inFlight e he hin, hin⟩
    · rw [hpn, hc', htimes]
    · rw [hpn, hsample]
  | migrates hm =>
    obtain ⟨c, hr, hc⟩ := hm.congestion hkr.newCubicSender
    exact none (by rw [hc]; show c.2 = _; exact samples_relayed hr)
  | adjusts _ ha => exact none (samples_adjust ha)

/-! ## The two senders -/

/-- The controllers with a map of send times. -/
inductive BBR
  | v1
  | v3
  deriving DecidableEq, Repr

def BBR.Sender : BBR → Type
  | .v1 => Bbrv1.Sender
  | .v3 => Bbrv3.Sender

def BBR.algorithm : (v : BBR) → SendAlgorithm v.Sender
  | .v1 => Bbrv1.Sender.algorithm
  | .v3 => Bbrv3.Sender.algorithm

def BBR.newSender : (v : BBR) → (initialMaxDatagramSize : Nat) → (now : Int) → v.Sender
  | .v1 => Bbrv1.Sender.new
  | .v3 => Bbrv3.Sender.new

def BBR.sentTimes : (v : BBR) → v.Sender → Int → Option Int
  | .v1 => Bbrv1.Sender.sentTimes
  | .v3 => Bbrv3.Sender.sentTimes

/-- The positive RTT that `OnPacketAcked` measures. `BBRv1Sender` computes one for a missing key as well. -/
def BBR.rttSample : (v : BBR) → v.Sender → (number eventTime : Int) → Option Int
  | .v1 => fun b number eventTime =>
    if b.rtt number eventTime > 0 then some (b.rtt number eventTime) else none
  | .v3 => Bbrv3.Sender.rttSample

/-- Whether a missing key gives no sample. -/
def BBR.needsKey : BBR → Bool
  | .v1 => false
  | .v3 => true

theorem BBR.keepsSendTimes : (v : BBR) → KeepsSendTimes v.algorithm v.sentTimes
  | .v1 => Bbrv1.Sender.keepsSendTimes
  | .v3 => Bbrv3.Sender.keepsSendTimes

theorem BBR.rttSample_known {v : BBR} {b : v.Sender} {number eventTime sentTime rtt : Int}
    (ht : v.sentTimes b number = some sentTime) (hs : v.rttSample b number eventTime = some rtt) :
    rtt = eventTime - sentTime := by
  cases v with
  | v1 =>
    replace ht : Bbrv1.Sender.sentTimes b number = some sentTime := ht
    simp only [BBR.rttSample, Bbrv1.Sender.rtt, ht, getD_some] at hs
    split at hs
    · exact (some.inj hs).symm
    · cases hs
  | v3 =>
    replace ht : Bbrv3.Sender.sentTimes b number = some sentTime := ht
    simp only [BBR.rttSample, Bbrv3.Sender.rttSample, ht] at hs
    split at hs
    · exact (some.inj hs).symm
    · cases hs

theorem BBR.rttSample_unknown {v : BBR} {b : v.Sender} {number eventTime : Int} (hf : v.needsKey = true)
    (ht : v.sentTimes b number = none) : v.rttSample b number eventTime = none := by
  cases v with
  | v1 => cases hf
  | v3 =>
    replace ht : Bbrv3.Sender.sentTimes b number = none := ht
    simp only [BBR.rttSample, Bbrv3.Sender.rttSample, ht]

/-- The sender with the list of its samples. -/
abbrev BBR.recorder (v : BBR) : SendAlgorithm (v.Sender × List Sample) := recording v.algorithm v.rttSample

/-- A handler that begins with a new sender. -/
abbrev BBR.newHandler (v : BBR) (initialPN : Int) (initialMaxDatagramSize : Nat) (rttStats : RTTStats)
    (validated : Bool) (ecnTracker : Option E) (ignore : Bool) (pers : Perspective) (draw : Nat) (now : Int) :
    Handler (v.Sender × List Sample) E :=
  newSentPacketHandler initialPN rttStats validated ecnTracker ignore pers
    (v.newSender initialMaxDatagramSize now, []) draw

variable (v : BBR) (ecn : EcnHandler E) (initialPN : Int) (size : Nat) (rttStats : RTTStats) (validated : Bool)
  (ecnTracker : Option E) (ignore : Bool) (pers : Perspective) (draw : Nat) (now : Int) (ls : List Call)

theorem attributed_newHandler :
    Attributed (fun c => v.sentTimes c.1) v.needsKey []
      (v.newHandler initialPN size rttStats validated ecnTracker ignore pers draw now) := by
  have hnone : ∀ s e, ¬ InFlight
      (v.newHandler initialPN size rttStats validated ecnTracker ignore pers draw now) s e := by
    intro s e he
    have hm := he.1
    rw [tracked_newSentPacketHandler] at hm
    cases hm
  exact ⟨wf_newSentPacketHandler _ _ _ _ _ _ _ _, fun s e he => (hnone s e he).elim,
    fun s e he => (hnone s e he).elim, fun s _ e _ he => (hnone s e he).elim⟩

/-- Along `Apart`, every RTT sample is measured from the send of the packet of that number in the space
of the acknowledgement. -/
theorem rtt_sample_of_own_space (l : Call) (h h' : Handler (v.Sender × List Sample) E)
    (hok : LTS.Along (Handler.step v.recorder ecn) (Apart v.needsKey)
      (v.newHandler initialPN size rttStats validated ecnTracker ignore pers draw now) ls)
    (hrun : LTS.run (Handler.step v.recorder ecn)
      (v.newHandler initialPN size rttStats validated ecnTracker ignore pers draw now) ls = some h)
    (hs : h.step v.recorder ecn l = some h') :
    ∃ new, h'.congestion.2 = h.congestion.2 ++ new ∧ ∀ x ∈ new, ∃ ack enc a,
      l = .receivedAck ack enc x.eventTime ∧ Call.sentPacket a ∈ ls ∧ a.encLevel.space = enc.space ∧
      (a.pn : Int) = x.pn ∧ (x.pn, a.packet) ∈ h.tracked enc.space ∧ x.rtt = x.eventTime - a.t := by
  have hkr : KeepsSendTimes v.recorder fun c => v.sentTimes c.1 := keepsSendTimes_recording v.keepsSendTimes
  have hi := LTS.run_history_invariant (Attributed (fun c => v.sentTimes c.1) v.needsKey)
      (fun _ _ _ _ hi hok hs => attributed_step hkr hi hok hs) []
      (attributed_newHandler v initialPN size rttStats validated ecnTracker ignore pers draw now) hok hrun
  obtain ⟨new, hnew, hfrom⟩ := samples_step v.keepsSendTimes hi.wf hs
  refine ⟨new, hnew, fun x hx => ?_⟩
  obtain ⟨ack, enc, p, hl, hin, c, hc, hsample⟩ := hfrom x hx
  obtain ⟨a, ha, hspace, hpn, rfl⟩ := hi.sent _ _ hin
  refine ⟨ack, enc, a, hl, ha, hspace, hpn, hin.1, ?_⟩
  rcases hi.times _ _ hin with ht | ⟨hf, ht⟩
  · exact BBR.rttSample_known (hc.trans ht) hsample
  rw [BBR.rttSample_unknown hf (hc.trans ht)] at hsample
  cases hsample

/-- A client with a new sender. -/
abbrev client (v : BBR) : Handler (v.Sender × List Sample) Unit :=
  v.newHandler 0 1200 {} true none false .client 1000 0

/-- Packet 0 of the Handshake space is sent after that of the Initial space was acknowledged. -/
theorem rtt_sample_of_own_space_in_turn : ∃ h h',
    LTS.run (Handler.step BBR.v3.recorder noECN) (client .v3) [.sentPacket (ping 1 0 .initial),
      .receivedAck ackZero .initial 10, .sentPacket (ping 20 0 .handshake)] = some h ∧
    h.step BBR.v3.recorder noECN (.receivedAck ackZero .handshake 50) = some h' ∧
    h'.congestion.2 = h.congestion.2 ++ [{ pn := 0, eventTime := 50, rtt := 30 }] ∧
    ∃ new, h'.congestion.2 = h.congestion.2 ++ new ∧ ∀ x ∈ new, ∃ ack enc a,
      Call.receivedAck ackZero .handshake 50 = .receivedAck ack enc x.eventTime ∧
      Call.sentPacket a ∈ [.sentPacket (ping 1 0 .initial), .receivedAck ackZero .initial 10,
        .sentPacket (ping 20 0 .handshake)] ∧ a.encLevel.space = enc.space ∧
      (a.pn : Int) = x.pn ∧ (x.pn, a.packet) ∈ h.tracked enc.space ∧ x.rtt = x.eventTime - a.t := by
  refine ⟨_, _, rfl, rfl, rfl,
    rtt_sample_of_own_space .v3 noECN 0 1200 {} true none false .client 1000 0 _ _ _ _ ?_ rfl rfl⟩
  refine LTS.Along.cons ?_ rfl (LTS.Along.cons trivial rfl (LTS.Along.cons ?_ rfl trivial))
  · intro _ s _ e he
    have hm := he.1
    rw [tracked_newSentPacketHandler] at hm
    cases hm
  intro _ s _ e he
  have hm := he.1
  cases s <;> cases hm

/-- Both handshake spaces have sent their packet 0 when that of the Initial space is acknowledged, nine
nanoseconds after its send; either sender takes the five nanoseconds since the other packet 0. -/
theorem rtt_sample_of_other_space : (∃ h h', LTS.run (Handler.step BBR.v3.recorder noECN) (client .v3)
        [.sentPacket (ping 1 0 .initial), .sentPacket (ping 5 0 .handshake)] = some h ∧
      h.step BBR.v3.recorder noECN (.receivedAck ackZero .initial 10) = some h' ∧
      h'.congestion.2 = h.congestion.2 ++ [{ pn := 0, eventTime := 10, rtt := 5 }]) ∧
    (∃ h h', LTS.run (Handler.step BBR.v1.recorder noECN) (client .v1)
        [.sentPacket (ping 1 0 .initial), .sentPacket (ping 5 0 .handshake)] = some h ∧
      h.step BBR.v1.recorder noECN (.receivedAck ackZero .initial 10) = some h' ∧
      h'.congestion.2 = h.congestion.2 ++ [{ pn := 0, eventTime := 10, rtt := 5 }]) ∧
    (5 : Int) ≠ 10 - (ping 1 0 .initial).t :=
  ⟨⟨_, _, rfl, rfl, rfl⟩, ⟨_, _, rfl, rfl, rfl⟩, by decide⟩

/-! ## What stays in the map -/

/-- Every key belongs to a packet that is tracked, and is no path probe. -/
def KeysTracked (times : C → Int → Option Int) (h : Handler C E) : Prop :=
  ∀ pn, times h.congestion pn ≠ none → ∃ s p, (pn, p) ∈ h.tracked s ∧ p.isPathProbePacket = false

/-- The packets `Leaves` and `LostAfter` speak about are not taken away by this call; and what it acknowledges
was in flight, or is a path probe. -/
def Retains (h : Handler C E) : Call → Prop
  | .receivedAck ack enc rcvTime => ∀ sp, h.getPacketNumberSpace enc = some sp →
      let scan := newlyAcked sp.history ack
      (∀ e ∈ scan.acked, e.2.isPathProbePacket = false → e.2.includedInBytesInFlight = true) ∧
      ∀ s e, e ∈ h.tracked s → e.2.isPathProbePacket = false → (∀ x ∈ scan.acked, e.1 ≠ x.1) →
        ¬ h.LostAfter ack enc rcvTime scan.acked scan.hasAckEliciting sp s e.1 e.2
  | l => ∀ s e, e ∈ h.tracked s → e.2.isPathProbePacket = false → ¬ h.Leaves l s e.1 e.2

theorem keysTracked_acks (hk : KeepsSendTimes A times) {ack : AckFrame} {enc : EncryptionLevel}
    {rcvTime : Int} {sp : PacketNumberSpace} {acked : List (Int × Packet)} (hi : KeysTracked times h)
    (hok : Retains h (.receivedAck ack enc rcvTime)) (ha : Acks A ack enc rcvTime sp acked h h') :
    KeysTracked times h' := by
  obtain ⟨prior, c, hr, hc⟩ := ha.congestion
  obtain ⟨hflight, hlost⟩ := hok sp ha.space
  intro pn hpn
  rw [hc, times_ackAll hk, hk.relayed hr] at hpn
  split at hpn
  · cases hpn rfl
  rename_i hnone
  obtain ⟨s, p, hm, hprobe⟩ := hi pn hpn
  refine ⟨s, p, ?_, hprobe⟩
  by_cases hx : s = enc.space ∧ ∃ x ∈ acked, pn = x.1
  · -- the packet itself is acknowledged in flight, so its key is gone
    obtain ⟨rfl, x, hx, rfl⟩ := hx
    have hxp := ha.eq_of_tracked hx hm hprobe
    refine (hnone ⟨x, hx, rfl, ?_⟩).elim
    rw [ha.acked_eq] at hx
    exact hflight x hx (by rw [hxp, hprobe])
  rcases ha.kept s (pn, p) hm with hm' | hin | hl
  · exact hm'
  · exact (hx hin).elim
  rw [ha.acked_eq] at hl hx
  exact (hlost s (pn, p) hm hprobe (fun x hxm hpn => hx ⟨hl.1, x, hxm, hpn⟩) hl).elim

theorem keysTracked_sends (hk : KeepsSendTimes A times) (hi : KeysTracked times h)
    (hprobe : a.isPathProbePacket = false) (hs : Sends A a h h') : KeysTracked times h' := by
  obtain ⟨inFlight, hc⟩ := hs.congestion
  intro pn hpn
  rw [hc, hk.onPacketSent, update_apply] at hpn
  split at hpn
  · rename_i heq
    refine ⟨a.encLevel.space, a.packet, ?_, hprobe⟩
    rw [hs.tracked, if_pos rfl, heq]
    exact mem_append_right _ (mem_singleton_self _)
  obtain ⟨s, p, hm, hp⟩ := hi pn hpn
  refine ⟨s, p, ?_, hp⟩
  rw [hs.tracked]
  split
  · exact mem_append_left _ hm
  · exact hm

/-- The map is as it was, and the packets in it are still tracked. -/
theorem KeysTracked.of_kept (hi : KeysTracked times h) (ht : times h'.congestion = times h.congestion)
    (hkept : ∀ s e, e ∈ h.tracked s → e.2.isPathProbePacket = false → e ∈ h'.tracked s) : KeysTracked times h' := by
  intro pn hpn
  rw [ht] at hpn
  obtain ⟨s, p, hm, hp⟩ := hi pn hpn
  exact ⟨s, p, hkept s _ hm hp, hp⟩

/-- A call that takes packets away takes none of the map's. -/
theorem keysTracked_keeps (hk : KeepsSendTimes A times) (hi : KeysTracked times h)
    (hok : ∀ s e, e ∈ h.tracked s → e.2.isPathProbePacket = false → ¬ h.Leaves l s e.1 e.2)
    (hkeep : Keeps A (h.Leaves l) h h') : KeysTracked times h' := by
  refine hi.of_kept (hk.relayed hkeep.relayed) fun s e hm hp => ?_
  rcases hkeep.kept s e hm with hm' | hl
  · exact hm'
  · exact (hok s e hm hp hl).elim

theorem retains_leaves (hok : Retains h l) (s : Space) (e : Int × Packet) (hm : e ∈ h.tracked s)
    (hp : e.2.isPathProbePacket = false) : ¬ h.Leaves l s e.1 e.2 := by
  cases l with
  | receivedAck => exact id
  | _ => exact hok s e hm hp

variable {ecn} in
theorem keysTracked_step (hk : KeepsSendTimes A times) (hw : Wf h) (hi : KeysTracked times h)
    (hok : Retains h l) (hs : h.step A ecn l = some h') : Wf h' ∧ KeysTracked times h' := by
  have he := step_cases hw hs
  refine ⟨he.wf hw, ?_⟩
  cases he with
  | keeps hkeep => exact keysTracked_keeps hk hi (retains_leaves hok) hkeep
  | sends ha hsend => exact keysTracked_sends hk hi ha hsend
  | sendsProbe hsend =>
    refine hi.of_kept (by rw [hsend.congestion]) fun s e hm _ => ?_
    rw [hsend.tracked]
    split
    · exact mem_append_left _ hm
    · exact hm
  | acks ha => exact keysTracked_acks hk hi hok ha
  | migrates hm =>
    -- the sender starts over
    obtain ⟨c, -, hc⟩ := hm.congestion hk.newCubicSender
    intro pn hpn
    rw [hc, hk.onRetransmissionTimeout] at hpn
    cases hpn rfl
  | adjusts hspace ha =>
    refine hi.of_kept (times_adjust hk ha) fun s e hm _ => ?_
    rwa [Handler.tracked, hspace]

/-- Along `Retains`, the keys of `sentTimes` are numbers of tracked packets, and without such packets there
are none. -/
theorem sentTimes_tracked (h : Handler Bbrv3.Sender E)
    (hok : LTS.Along (Handler.step Bbrv3.Sender.algorithm ecn) Retains (newSentPacketHandler initialPN
      rttStats validated ecnTracker ignore pers (Bbrv3.Sender.new size now) draw) ls)
    (hrun : LTS.run (Handler.step Bbrv3.Sender.algorithm ecn) (newSentPacketHandler initialPN rttStats
      validated ecnTracker ignore pers (Bbrv3.Sender.new size now) draw) ls = some h) :
    (∀ pn, h.congestion.sentTimes pn ≠ none → ∃ s p, (pn, p) ∈ h.tracked s) ∧
      ((∀ s, h.tracked s = []) → ∀ pn, h.congestion.sentTimes pn = none) := by
  have hi := LTS.run_invariant (fun _ _ _ hi hok hs => keysTracked_step Bbrv3.Sender.keepsSendTimes hi.1 hi.2 hok hs)
      ⟨wf_newSentPacketHandler _ _ _ _ _ _ _ _, fun _ hpn => (hpn rfl).elim⟩ hok hrun
  have hkey : ∀ pn, h.congestion.sentTimes pn ≠ none → ∃ s p, (pn, p) ∈ h.tracked s := by
    intro pn hpn
    obtain ⟨s, p, hm, -⟩ := hi.2 pn hpn
    exact ⟨s, p, hm⟩
  refine ⟨hkey, fun hnil pn => ?_⟩
  by_contra hpn
  obtain ⟨s, p, hm⟩ := hkey pn hpn
  rw [hnil] at hm
  cases hm

/-- A client with a new `BBRv3Sender`. -/
abbrev clientV3 : Handler Bbrv3.Sender Unit :=
  newSentPacketHandler 0 {} true none false .client (Bbrv3.Sender.new 1200 0) 1000

/-- The only packet is acknowledged in flight. -/
theorem sentTimes_tracked_after_ack : ∃ h, LTS.run (Handler.step Bbrv3.Sender.algorithm noECN) clientV3
      [.sentPacket (ping 1 0 .initial), .receivedAck ackZero .initial 10] = some h ∧
    (∀ pn, h.congestion.sentTimes pn ≠ none → ∃ s p, (pn, p) ∈ h.tracked s) ∧
      ((∀ s, h.tracked s = []) → ∀ pn, h.congestion.sentTimes pn = none) := by
  refine ⟨_, rfl, sentTimes_tracked noECN 0 1200 {} true none false .client 1000 0
    [.sentPacket (ping 1 0 .initial), .receivedAck ackZero .initial 10] _ ?_ rfl⟩
  refine LTS.Along.cons (fun _ _ _ _ => id) rfl (LTS.Along.cons ?_ rfl trivial)
  intro sp hsp
  cases hsp
  refine ⟨fun e he _ => ?_, fun s e hm _ hne => ?_⟩
  · rw [mem_singleton.mp he]
    rfl
  cases s with
  | initial =>
    rw [mem_singleton.mp hm] at hne
    exact (hne _ (mem_singleton_self _) rfl).elim
  | handshake | appData => cases hm

/-- A packet that is requeued as a probe is no longer tracked, but its send time is kept. -/
theorem sentTimes_left_by_probe : ∃ h, LTS.run (Handler.step Bbrv3.Sender.algorithm noECN) clientV3
      [.sentPacket (ping 1 0 .initial), .queueProbePacket .initial] = some h ∧
    (h.tracked .initial = [] ∧ h.tracked .handshake = [] ∧ h.tracked .appData = []) ∧
    h.congestion.sentTimes 0 = some 1 :=
  ⟨_, rfl, ⟨rfl, rfl, rfl⟩, rfl⟩

end MoqQuic.L4.SendTimes
