import MoqQuic.L3Protocol.Quic.Books

/-!
# Bytes in flight

In every run of the handler `bytesInFlight` is the length of the packets that
are tracked and count in flight, and no call reaches the panic "negative
bytes_in_flight". The one call that could break the balance is a retry, which
sets the count to zero: it has to come before the first Handshake packet.

In the model every panic is `none`, so the calls that reach this panic are
described by predicates of their own (`Negative`), one for each method that
calls `removeFromBytesInFlight`: the calls before it succeed, and it fails.

* `Negative.step_none`: such a call does not return.
* `bytesInFlight_run`: the balance, and that no call is `Negative`.
-/
namespace MoqQuic.L3.Quic

open L2 L2.Ackhandler L2.Congestion SentPacketHistory List Option Handler

variable {C E : Type}

namespace Handler

/-! ## The calls that reach the panic -/

namespace Negative

/-- The packet to be taken from the count is larger than it.
mirrors sent_packet_handler.go:166-174 -/
def removeFromBytesInFlight (h : Handler C E) (p : Packet) : Prop := h.removeFromBytesInFlight p = none

def queueProbePacket (h : Handler C E) (enc : EncryptionLevel) : Prop :=
  ∃ sp pn p history, h.getPacketNumberSpace enc = some sp ∧ sp.history.firstOutstanding = some (pn, p) ∧
    sp.history.declareLost pn = some history ∧ removeFromBytesInFlight (h.setSpace enc { sp with history }) p

variable (A : SendAlgorithm C) (ecn : EcnHandler E)

def losePacket (enc : EncryptionLevel) (pn : Int) (p : Packet) (h : Handler C E) : Prop :=
  ∃ sp history, h.getPacketNumberSpace enc = some sp ∧ sp.history.declareLost pn = some history ∧
    (!p.isPathProbePacket && p.isAckEliciting) = true ∧
    removeFromBytesInFlight (h.setSpace enc { sp with history }) p

/-- In the loop, either for the head or, once that is dealt with, later. -/
def detectLost (enc : EncryptionLevel) (lossDelay now : Int) (priorInFlight : Nat) :
    List (Int × Packet) → Handler C E → Prop
  | [], _ => False
  | (pn, p) :: rest, h => ∃ sp, h.getPacketNumberSpace enc = some sp ∧ pn ≤ sp.largestAcked ∧
      if packetLost sp lossDelay now pn p then
        losePacket enc pn p h ∨ ∃ h', Handler.losePacket A ecn enc priorInFlight pn p h = some h' ∧
          detectLost enc lossDelay now priorInFlight rest h'
      else
        let lossTime := if sp.lossTime = 0 then p.sendTime + lossDelay else sp.lossTime
        detectLost enc lossDelay now priorInFlight rest (h.setSpace enc { sp with lossTime })

def detectLostPackets (h : Handler C E) (now : Int) (enc : EncryptionLevel) : Prop :=
  ∃ sp, h.getPacketNumberSpace enc = some sp ∧
    detectLost A ecn enc (lossDelay h.rttStats) now h.bytesInFlight sp.history.tracked
      (h.setSpace enc { sp with lossTime := 0 })

def ackPackets (priorInFlight : Nat) (rcvTime : Int) : List (Int × Packet) → Handler C E → Prop
  | [], _ => False
  | (pn, p) :: rest, h =>
    let congestion := if p.includedInBytesInFlight then
      A.onPacketAcked h.congestion pn p.length priorInFlight rcvTime else h.congestion
    removeFromBytesInFlight { h with congestion } p ∨
      ∃ h', { h with congestion }.removeFromBytesInFlight p = some h' ∧ ackPackets priorInFlight rcvTime rest h'

def processAcked (h : Handler C E) (ack : AckFrame) (enc : EncryptionLevel) (rcvTime : Int)
    (priorInFlight : Nat) (acked : List (Int × Packet)) (hasAckEliciting : Bool) : Prop :=
  let h1 := h.updateRTTOnAck A ack enc rcvTime acked hasAckEliciting
  ∃ sp, h1.getPacketNumberSpace enc = some sp ∧
    let h2 := (h1.informECN A ecn ack enc sp.largestAcked acked priorInFlight).setSpace enc
      { sp with largestAcked := max sp.largestAcked ack.largestAcked }
    detectLostPackets A ecn h2 rcvTime enc ∨ ∃ h3 h4, h2.detectLostPackets A ecn rcvTime enc = some h3 ∧
        (if enc = .oneRTT then h3.detectLostPathProbes rcvTime else some h3) = some h4 ∧
        ackPackets A priorInFlight rcvTime acked h4

def receivedAck (h : Handler C E) (ack : AckFrame) (enc : EncryptionLevel) (rcvTime : Int) : Prop :=
  let h1 := h.completeAddressValidation enc rcvTime
  ∃ sp acked hasAckEliciting h2, h.getPacketNumberSpace enc = some sp ∧ ack.largestAcked ≤ sp.largestSent ∧
    h1.detectAndRemoveAckedPackets ack enc = some (.ok (acked, hasAckEliciting), h2) ∧ acked ≠ [] ∧
    processAcked A ecn h2 ack enc rcvTime h1.bytesInFlight acked hasAckEliciting

def removeAllFromBytesInFlight : List (Int × Packet) → Handler C E → Prop
  | [], _ => False
  | e :: rest, h => removeFromBytesInFlight h e.2 ∨
      ∃ h', h.removeFromBytesInFlight e.2 = some h' ∧ removeAllFromBytesInFlight rest h'

def drop0RTT : List (Int × Packet) → Handler C E → Prop
  | [], _ => False
  | (pn, p) :: rest, h => p.encryptionLevel = some .zeroRTT ∧ (removeFromBytesInFlight h p ∨
      ∃ h' r, h.removeFromBytesInFlight p = some h' ∧ h'.appDataPackets.history.remove pn = some r ∧
        match r with
        | .error _ => drop0RTT rest h'
        | .ok history => drop0RTT rest { h' with appDataPackets := { h'.appDataPackets with history } })

def dropPackets (h : Handler C E) : EncryptionLevel → Prop
  | .initial => ∃ sp, h.initialPackets = some sp ∧ removeAllFromBytesInFlight sp.history.tracked h
  | .handshake =>
    let h := if h.perspective = .client then { h with peerCompletedAddressValidation := true } else h
    ∃ sp, h.handshakePackets = some sp ∧ removeAllFromBytesInFlight sp.history.tracked h
  | .zeroRTT => drop0RTT h.appDataPackets.history.tracked h
  | .oneRTT => False

def onLossDetectionTimeout (h : Handler C E) (now : Int) : Prop :=
  ∃ h1, (if h.handshakeConfirmed then h.detectLostPathProbes now else some h) = some h1 ∧
    h1.getLossTimeAndSpace.1 ≠ 0 ∧ detectLostPackets A ecn h1 now h1.getLossTimeAndSpace.2

def loseAll : List (Int × Packet) → Handler C E → Prop
  | [], _ => False
  | (pn, p) :: rest, h => ∃ history, h.appDataPackets.history.declareLost pn = some history ∧
      let h1 := { h with appDataPackets := { h.appDataPackets with history } }
      if p.isPathProbePacket then loseAll rest h1
      else removeFromBytesInFlight h1 p ∨ ∃ h2 h3, h1.removeFromBytesInFlight p = some h2 ∧
        (if p.isAckEliciting then h2.queueFramesForRetransmission p else some h2) = some h3 ∧ loseAll rest h3

def migratedPath (h : Handler C E) : Prop :=
  loseAll h.appDataPackets.history.tracked { h with rttStats := h.rttStats.resetForPathMigration }

end Negative

/-- The call reaches the panic "negative bytes_in_flight". -/
def Negative (A : SendAlgorithm C) (ecn : EcnHandler E) (h : Handler C E) : Call → Prop
  | .receivedAck ack enc rcvTime => Negative.receivedAck A ecn h ack enc rcvTime
  | .dropPackets enc _ => Negative.dropPackets h enc
  | .queueProbePacket enc => Negative.queueProbePacket h enc
  | .onLossDetectionTimeout now _ => Negative.onLossDetectionTimeout A ecn h now
  | .migratedPath _ _ _ => Negative.migratedPath h
  | _ => False

/-! ## They do not return -/

namespace Negative

variable {A : SendAlgorithm C} {ecn : EcnHandler E} {h : Handler C E} {enc : EncryptionLevel} {pn now : Int}
  {p : Packet} {prior : Nat} {l : List (Int × Packet)}

theorem removeFromBytesInFlight_iff : removeFromBytesInFlight h p ↔ h.bytesInFlight < p.flight := by
  rw [removeFromBytesInFlight, removeFromBytesInFlight_eq]
  split <;> simp <;> omega

theorem losePacket_none (hn : losePacket enc pn p h) : Handler.losePacket A ecn enc prior pn p h = none := by
  obtain ⟨sp, history, hsp, hd, hcounted, hp⟩ := hn
  rw [removeFromBytesInFlight_iff] at hp
  simp [Handler.losePacket, reportLost, removeFromBytesInFlight_eq, hsp, hd, hcounted, not_le.mpr hp]

theorem detectLost_none {delay : Int} (hn : detectLost A ecn enc delay now prior l h) :
    Handler.detectLost A ecn enc delay now prior l h = none := by
  induction l generalizing h with
  | nil => cases hn
  | cons e l ih =>
    obtain ⟨sp, hsp, hle, hn⟩ := hn
    split at hn
    · rename_i hlost
      rcases hn with hn | ⟨h1, h1s, hn⟩
      · simp [Handler.detectLost, hsp, not_lt.mpr hle, hlost, losePacket_none hn]
      · simp [Handler.detectLost, hsp, not_lt.mpr hle, hlost, h1s, ih hn]
    · rename_i hlost
      simp [Handler.detectLost, hsp, not_lt.mpr hle, hlost, ih hn]

theorem detectLostPackets_none (hn : detectLostPackets A ecn h now enc) :
    h.detectLostPackets A ecn now enc = none := by
  obtain ⟨sp, hsp, hn⟩ := hn
  simp [Handler.detectLostPackets, hsp, detectLost_none hn]

theorem ackPackets_none (hn : ackPackets A prior now l h) : Handler.ackPackets A prior now l h = none := by
  induction l generalizing h with
  | nil => cases hn
  | cons e l ih =>
    rcases hn with hn | ⟨h1, h1s, hn⟩
    · exact bind_eq_none_iff.mpr fun h1 h1s => by cases hn.symm.trans h1s
    · simp [Handler.ackPackets, h1s, ih hn]

theorem processAcked_none {ack : AckFrame} {elicits : Bool}
    (hn : processAcked A ecn h ack enc now prior l elicits) :
    h.processAcked A ecn ack enc now prior l elicits = none := by
  obtain ⟨sp, hsp, hn | ⟨h3, h4, h3s, h4s, hn⟩⟩ := hn
  · simp [Handler.processAcked, hsp, detectLostPackets_none hn]
  · simp [Handler.processAcked, hsp, h3s, h4s, ackPackets_none hn]

theorem removeAll_none (hn : removeAllFromBytesInFlight l h) : h.removeAllFromBytesInFlight l = none := by
  induction l generalizing h with
  | nil => cases hn
  | cons e l ih =>
    rcases hn with hn | ⟨h1, h1s, hn⟩
    · rw [removeFromBytesInFlight] at hn
      simp [Handler.removeAllFromBytesInFlight, hn]
    · simpa [Handler.removeAllFromBytesInFlight, h1s] using ih hn

theorem drop0RTT_none (hn : drop0RTT l h) : Handler.drop0RTT l h = none := by
  induction l generalizing h with
  | nil => cases hn
  | cons e l ih =>
    obtain ⟨hp, hn | ⟨h1, r, h1s, hr, hn⟩⟩ := hn
    · rw [removeFromBytesInFlight] at hn
      simp [Handler.drop0RTT, hp, hn]
    · cases r <;> simp [Handler.drop0RTT, hp, h1s, hr, ih hn]

theorem loseAll_none (hn : loseAll l h) : Handler.loseAll l h = none := by
  induction l generalizing h with
  | nil => cases hn
  | cons e l ih =>
    obtain ⟨history, hd, hn⟩ := hn
    split at hn
    · rename_i hp
      simp [Handler.loseAll, hd, hp, ih hn]
    rename_i hp
    rcases hn with hn | ⟨h2, h3, h2s, h3s, hn⟩
    · rw [removeFromBytesInFlight] at hn
      simp [Handler.loseAll, hd, hp, hn]
    · simp [Handler.loseAll, hd, hp, h2s, h3s, ih hn]

/-- A call that reaches the panic does not return. -/
theorem step_none {c : Call} (hn : Negative A ecn h c) : h.step A ecn c = none := by
  cases c with
  | receivedAck ack enc rcvTime =>
    obtain ⟨sp, acked, elicits, h2, hsp, hle, h2s, hne, hn⟩ := hn
    obtain ⟨e, acked, rfl⟩ := exists_cons_of_ne_nil hne
    simp [step, Handler.receivedAck, hsp, not_lt.mpr hle, h2s, processAcked_none hn]
  | dropPackets enc now =>
    cases enc with
    | initial =>
      obtain ⟨sp, hsp, hn⟩ := hn
      simp [step, Handler.dropPackets, hsp, removeAll_none hn]
    | handshake =>
      obtain ⟨sp, hsp, hn⟩ := hn
      simp [step, Handler.dropPackets, hsp, removeAll_none hn]
    | zeroRTT => simp [step, Handler.dropPackets, drop0RTT_none hn]
    | oneRTT => cases hn
  | queueProbePacket enc =>
    obtain ⟨sp, pn, p, history, hsp, hfirst, hd, hp⟩ := hn
    rw [removeFromBytesInFlight] at hp
    simp [step, Handler.queueProbePacket, hsp, hfirst, hd, hp]
  | onLossDetectionTimeout now draw =>
    obtain ⟨h1, h1s, hne, hn⟩ := hn
    simp [step, Handler.onLossDetectionTimeout, h1s, hne, detectLostPackets_none hn]
  | migratedPath now size clock => simp [step, Handler.migratedPath, loseAll_none hn]
  | _ => cases hn

end Negative

/-! ## No call is one of them -/

/-- A space is part of the whole. -/
theorem le_flight {h : Handler C E} {s : Space} {sp : PacketNumberSpace} (hs : h.space s = some sp) :
    sp.history.flight ≤ h.flight := by
  unfold Handler.flight sum
  cases s with
  | initial =>
    rw [show h.initialPackets = some sp from hs]
    simp only [map_some, getD_some]
    omega
  | handshake =>
    rw [show h.handshakePackets = some sp from hs]
    simp only [map_some, getD_some]
    omega
  | appData =>
    rw [show h.appDataPackets = sp from some.inj hs]
    simp only
    omega

namespace Books

variable {sent m : Multiset Label} {b : Nat} {h h' : Handler C E} {enc : EncryptionLevel} {pn : Int} {p : Packet}
  {l : List (Int × Packet)}
  {A : SendAlgorithm C} {ecn : EcnHandler E}

variable (hb : Books True sent h b m)
include hb

/-- A packet that is tracked is counted. -/
theorem not_negative_tracked (hle : p.flight ≤ h.flight + b) :
    ¬ Negative.removeFromBytesInFlight h p := by
  intro hn
  have hf := hb.flight trivial
  rw [Negative.removeFromBytesInFlight_iff] at hn
  omega

omit hb in
/-- A packet that has left its history is still counted. -/
theorem not_negative (hb : Books True sent h (b + p.flight) m) : ¬ Negative.removeFromBytesInFlight h p :=
  hb.not_negative_tracked (by omega)

theorem not_negative_queueProbePacket : ¬ Negative.queueProbePacket h enc := by
  rintro ⟨sp, pn, p, history, hsp, hfirst, hd, hn⟩
  have hm := mem_of_firstOutstanding hfirst
  have hk := sheds_declareLost (hb.sound.of_getPacketNumberSpace hsp).consecutive hd
  exact (hb.shed hsp hm hk).not_negative hn

theorem not_negative_losePacket (hm : (pn, p) ∈ h.tracked enc.space) :
    ¬ Negative.losePacket enc pn p h := by
  rintro ⟨sp, history, hsp, hd, -, hn⟩
  rw [tracked_of_space (space_of_get hsp)] at hm
  have hk := sheds_declareLost (hb.sound.of_getPacketNumberSpace hsp).consecutive hd
  exact (hb.shed hsp hm hk).not_negative hn

variable {now rcvTime : Int} {prior : Nat}

theorem not_negative_detectLost {delay : Int} (hl : h.Pending enc.space l) :
    ¬ Negative.detectLost A ecn enc delay now prior l h := by
  induction l generalizing h with
  | nil => exact id
  | cons e l ih =>
    intro hn
    obtain ⟨sp, hsp, -, hn⟩ := hn
    split at hn
    · rcases hn with hn | ⟨h1, h1s, hn⟩
      · exact hb.not_negative_losePacket hl.head hn
      · exact ih (hb.losePacket hl.head h1s) (hl.losePacket hb.sound.wf hsp h1s) hn
    refine ih (hb.updateSpace hsp (by rfl)) (hl.tail fun e he _ => ?_) hn
    rwa [tracked_setSpace, if_pos rfl, ← tracked_of_space (space_of_get hsp)]

theorem not_negative_detectLostPackets :
    ¬ Negative.detectLostPackets A ecn h now enc := by
  rintro ⟨sp, hsp, hn⟩
  have hb1 : Books True sent (h.setSpace enc { sp with lossTime := 0 }) b m := hb.updateSpace hsp rfl
  refine hb1.not_negative_detectLost ⟨fun e he => ?_, sp.history.tracked_pairwise⟩ hn
  rwa [tracked_setSpace, if_pos rfl]

omit hb in
theorem not_negative_ackPackets (hb : Books True sent h (b + weight Packet.flight l) m) :
    ¬ Negative.ackPackets A prior rcvTime l h := by
  induction l generalizing h with
  | nil => exact id
  | cons e l ih =>
    intro hn
    rw [weight_cons, add_comm e.2.flight, ← add_assoc] at hb
    have hsame : ∀ congestion, SameBooks h { h with congestion } := fun _ => ⟨rfl, rfl, rfl⟩
    rcases hn with hn | ⟨h1, h1s, hn⟩
    · exact (hb.same (hsame _)).not_negative hn
    · exact ih ((hb.same (hsame _)).pay h1s) hn

omit hb in
theorem not_negative_processAcked {ack : AckFrame} {acked : List (Int × Packet)}
    {elicits : Bool} (hb : Books True sent h (b + weight Packet.flight acked) m) :
    ¬ Negative.processAcked A ecn h ack enc rcvTime prior acked elicits := by
  rintro ⟨sp, hsp, hn⟩
  have hsame1 : SameBooks h (h.updateRTTOnAck A ack enc rcvTime acked elicits) := ⟨rfl, rfl, rfl⟩
  generalize h.updateRTTOnAck A ack enc rcvTime acked elicits = h1 at hsp hn hsame1
  have hsame2 := sameBooks_informECN A ecn h1 ack enc sp.largestAcked acked prior
  generalize h1.informECN A ecn ack enc sp.largestAcked acked prior = h2 at hn hsame2
  have hsp2 : h2.getPacketNumberSpace enc = some sp := by
    rw [getPacketNumberSpace_eq, hsame2.space, ← getPacketNumberSpace_eq, hsp]
  have hb3 : Books True sent (h2.setSpace enc { sp with largestAcked := max sp.largestAcked ack.largestAcked })
      (b + weight Packet.flight acked) m := ((hb.same hsame1).same hsame2).updateSpace hsp2 rfl
  rcases hn with hn | ⟨h3, h4, h3s, h4s, hn⟩
  · exact hb3.not_negative_detectLostPackets hn
  have hb4 := hb3.detectLostPackets h3s
  split at h4s
  · exact (hb4.detectLostPathProbes h4s).not_negative_ackPackets hn
  rw [← some.inj h4s] at hn
  exact hb4.not_negative_ackPackets hn

theorem not_negative_receivedAck {ack : AckFrame} :
    ¬ Negative.receivedAck A ecn h ack enc rcvTime := by
  rintro ⟨sp, acked, elicits, h2, -, -, h2s, -, hn⟩
  have hb2 := (hb.same (idle_completeAddressValidation h enc rcvTime).toSameBooks).detectAndRemoveAckedPackets h2s
  exact hb2.not_negative_processAcked hn

omit hb in
/-- The count is enough for the packets of the list. -/
theorem not_negative_removeAll (hle : weight Packet.flight l ≤ h.bytesInFlight) :
    ¬ Negative.removeAllFromBytesInFlight l h := by
  induction l generalizing h with
  | nil => exact id
  | cons e l ih =>
    intro hn
    rw [weight_cons] at hle
    rcases hn with hn | ⟨h1, h1s, hn⟩
    · rw [Negative.removeFromBytesInFlight_iff] at hn
      omega
    refine ih ?_ hn
    rw [removeFromBytesInFlight_some h1s]
    show _ ≤ h.bytesInFlight - e.2.flight
    omega

theorem not_negative_drop0RTT (hl : h.Pending .appData l) : ¬ Negative.drop0RTT l h := by
  induction l generalizing h with
  | nil => exact id
  | cons e l ih =>
    intro hn
    obtain ⟨pn, p⟩ := e
    obtain ⟨-, hn | ⟨h1, r, h1s, hr, hn⟩⟩ := hn
    · refine hb.not_negative_tracked ?_ hn
      have hf := weight_filter_ne Packet.flight (h.tracked_pairwise .appData) hl.head
      have hle : h.appDataPackets.history.flight ≤ h.flight := le_flight (s := .appData) rfl
      replace hf : h.appDataPackets.history.flight = _ + p.flight := hf
      omega
    · obtain ⟨history, rfl, ht, hb1⟩ := hb.dropOne hl.head h1s hr
      exact ih hb1 (hl.filter ht) hn

theorem not_negative_dropPackets : ¬ Negative.dropPackets h enc := by
  have hf := hb.flight trivial
  intro hn
  cases enc with
  | initial =>
    obtain ⟨sp, hsp, hn⟩ := hn
    have hle := le_flight (s := .initial) hsp
    exact not_negative_removeAll (show sp.history.flight ≤ h.bytesInFlight by omega) hn
  | handshake =>
    obtain ⟨sp, hsp, hn⟩ := hn
    have hhs : h.handshakePackets = some sp := by
      rw [← hsp]
      split <;> rfl
    have hle := le_flight (s := .handshake) hhs
    refine not_negative_removeAll ?_ hn
    show sp.history.flight ≤ _
    split
    · show sp.history.flight ≤ h.bytesInFlight
      omega
    · omega
  | zeroRTT => exact hb.not_negative_drop0RTT (h.pending_tracked .appData) hn
  | oneRTT => exact hn

theorem not_negative_onLossDetectionTimeout :
    ¬ Negative.onLossDetectionTimeout A ecn h now := by
  rintro ⟨h1, h1s, -, hn⟩
  split at h1s
  · exact (hb.detectLostPathProbes h1s).not_negative_detectLostPackets hn
  rw [← some.inj h1s] at hn
  exact hb.not_negative_detectLostPackets hn

theorem not_negative_loseAll (hl : h.Pending .appData l) : ¬ Negative.loseAll l h := by
  induction l generalizing h with
  | nil => exact id
  | cons e l ih =>
    intro hn
    obtain ⟨pn, p⟩ := e
    obtain ⟨history, hd, hn⟩ := hn
    have hsound := hb.sound .appData _ rfl
    have hk := sheds_declareLost hsound.consecutive hd
    have hb1 := hb.shed (show h.getPacketNumberSpace .oneRTT = _ from rfl) hl.head hk
    split at hn
    · rename_i hprobe
      rw [show p = _ from hsound.placeholder _ hl.head hprobe] at hb1
      exact ih hb1.forget (hl.filter hk.tracked) hn
    rcases hn with hn | ⟨h2, h3, h2s, h3s, hn⟩
    · exact hb1.not_negative hn
    have hq2 := quiet_removeFromBytesInFlight h2s
    have hb2 := hb1.pay h2s
    split at h3s
    · refine ih (hb2.queueFrames h3s) (hl.filter ?_) hn
      rw [(quiet_queueFrames h3s).tracked, hq2.tracked]
      exact hk.tracked
    rw [← some.inj h3s] at hn
    exact ih hb2.forget (hl.filter ((hq2.tracked _).trans hk.tracked)) hn

end Books

variable {A : SendAlgorithm C} {ecn : EcnHandler E} {sent m : Multiset Label} {b : Nat} {h h' : Handler C E}

theorem Books.not_negative_call (hb : Books True sent h b m) (c : Call) : ¬ Negative A ecn h c := by
  cases c with
  | receivedAck ack enc rcvTime => exact hb.not_negative_receivedAck
  | dropPackets enc now => exact hb.not_negative_dropPackets
  | queueProbePacket enc => exact hb.not_negative_queueProbePacket
  | onLossDetectionTimeout now draw => exact hb.not_negative_onLossDetectionTimeout
  | migratedPath now size clock =>
    have hsame : SameBooks h { h with rttStats := h.rttStats.resetForPathMigration } := ⟨rfl, rfl, rfl⟩
    exact (hb.same hsame).not_negative_loseAll (pending_tracked _ .appData)
  | _ => exact fun hn => hn

end Handler

/-! ## Whole runs -/

/-- No Handshake packet has been sent. -/
def NoHandshakeSent (calls : List Call) : Prop := ∀ a, Call.sentPacket a ∈ calls → a.encLevel ≠ .handshake

/-- `ResetForRetry` is only called before the first Handshake packet is sent. -/
def RetriesEarly (calls : List Call) : Prop :=
  ∀ past now draw rest, calls = past ++ .resetForRetry now draw :: rest → NoHandshakeSent past

theorem RetriesEarly.init {calls : List Call} {c : Call} (hr : RetriesEarly (calls ++ [c])) : RetriesEarly calls :=
  fun past now draw rest heq => hr past now draw (rest ++ [c]) (by rw [heq]; simp)

/-- As long as no Handshake packet is sent, none is tracked. -/
theorem Handler.handshake_nil {A : SendAlgorithm C} {ecn : EcnHandler E} {h h' : Handler C E} {c : Call}
    (hw : Handler.Wf h) (hnil : h.tracked .handshake = []) (hc : NoHandshakeSent [c])
    (hs : h.step A ecn c = some h') : h'.tracked .handshake = [] := by
  have hsub : h'.tracked .handshake ⊆ h.tracked .handshake → h'.tracked .handshake = [] := fun hsub => by
    rw [hnil] at hsub
    exact subset_nil.mp hsub
  have hspace : ∀ {a : Handler.SentArgs}, c = .sentPacket a → Space.handshake ≠ a.encLevel.space := by
    intro a ha heq
    refine hc a (by rw [ha]; exact mem_singleton_self _) ?_
    cases henc : a.encLevel <;> rw [henc] at heq <;> first | rfl | cases heq
  have heff := step_cases hw hs
  cases heff with
  | keeps hk => exact hsub (hk.sub _)
  | sends _ hs' | sendsProbe hs' => rw [hs'.tracked, if_neg (hspace rfl), hnil]
  | acks ha => exact hsub (ha.sub _)
  | migrates hm => exact hsub (hm.sub _)
  | adjusts hsp _ => rw [Handler.tracked, hsp, ← Handler.tracked, hnil]

section Run

variable (A : SendAlgorithm C) (ecn : EcnHandler E) (initialPN : Int) (rttStats : RTTStats) (validated : Bool)
  (ecnTracker : Option E) (ignore : Bool) (pers : Perspective) (congestion : C) (draw : Nat)

/-- After every run `bytesInFlight` is the length of all packets in the histories that count in flight, and
no call panics because it would be negative. -/
theorem bytesInFlight_run {calls : List Call} {h : Handler C E} (hretry : RetriesEarly calls)
    (hr : LTS.run (Handler.step A ecn)
      (newSentPacketHandler initialPN rttStats validated ecnTracker ignore pers congestion draw) calls = some h) :
    h.bytesInFlight = h.sum (fun history =>
        weight Packet.flight (history.tracked ++ history.pathProbePackets)) ∧
      ∀ c, ¬ h.Negative A ecn c := by
  -- the invariant knows the calls so far
  let Inv (past : List Call) (h : Handler C E) : Prop := RetriesEarly past →
    h.Books True (sentLabels past) 0 0 ∧ (NoHandshakeSent past → h.tracked .handshake = [])
  have hstep : ∀ past (h : Handler C E) c h', Inv past h → True → h.step A ecn c = some h' →
      Inv (past ++ [c]) h' := by
    intro past h c h' hi _ hs hre
    obtain ⟨hb, hhs⟩ := hi hre.init
    refine ⟨?_, fun hno => ?_⟩
    · rw [show sentLabels (past ++ [c]) = sentLabels past + c.labels by simp [sentLabels]]
      refine hb.step (fun now draw hc _ => ⟨rfl, hhs (hre past now draw [] (by rw [hc]))⟩) hs
    refine handshake_nil hb.sound.wf (hhs fun a ha => hno a (by simp [ha])) (fun a ha => ?_) hs
    exact hno a (mem_append_right _ ha)
  have hi := LTS.run_history_invariant Inv hstep []
    (fun _ => ⟨books_newSentPacketHandler True .., fun _ => tracked_newSentPacketHandler ..⟩)
    (LTS.along_true _ _) hr
  obtain ⟨hb, -⟩ := hi (by rw [nil_append]; exact hretry)
  refine ⟨?_, fun c => hb.not_negative_call c⟩
  rw [hb.flight trivial, add_zero]
  exact sum_congr_of fun s sp hsp => (hb.sound s sp hsp).flight_eq

end Run

/-! ## A small connection -/

/-- A controller without a state. -/
def idle : SendAlgorithm Unit where
  timeUntilSend _ _ _ := 0
  hasPacingBudget _ _ := (true, ())
  onPacketSent _ _ _ _ _ _ := ()
  canSend _ _ := true
  maybeExitSlowStart _ := ()
  onPacketAcked _ _ _ _ _ := ()
  onCongestionEvent _ _ _ _ := ()
  onRetransmissionTimeout _ _ _ := ()
  setMaxDatagramSize _ _ := ()
  newCubicSender := none

abbrev client : Handler Unit Unit := newSentPacketHandler 0 {} true none false .client () 1000

/-- The Initial packet is sent again after a retry, and a Handshake packet follows. -/
def retried : List Call :=
  [.sentPacket (ping 1 0 .initial), .resetForRetry 2 0, .sentPacket (ping 3 1 .initial),
    .sentPacket (ping 4 0 .handshake)]

theorem bytesInFlight_run_retried : ∃ h, LTS.run (Handler.step idle noECN) client retried = some h ∧
    h.bytesInFlight = 2400 ∧
    h.bytesInFlight = h.sum (fun history =>
        weight Packet.flight (history.tracked ++ history.pathProbePackets)) ∧
      ∀ c, ¬ h.Negative idle noECN c := by
  refine ⟨_, rfl, rfl, bytesInFlight_run idle noECN 0 {} true none false .client () 1000
    (show RetriesEarly retried from ?_) rfl⟩
  intro past now draw rest heq a ha henc
  -- what comes before the retry is the first packet
  rcases past with _ | ⟨c0, _ | ⟨c1, _ | ⟨c2, _ | ⟨c3, past⟩⟩⟩⟩
  · cases ha
  · cases heq
    cases mem_singleton.mp ha
    cases henc
  all_goals simp [retried] at heq

end MoqQuic.L3.Quic
