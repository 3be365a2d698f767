import MoqQuic.L2Machine.Ackhandler.Accounts
import MoqQuic.L3Protocol.Quic.Calls

/-!
# The books of the handler

`bytesInFlight` counts the packets in flight that the histories track, and every
frame sent is held by a packet of a history until its handler is told about its
fate. Both balances are broken inside the methods, since a packet first leaves
its history and is only then taken from the count and reported. `Books` states
the balances with what is on its way: `b` bytes that are still counted and `m`
frames that have left the histories unreported.

* `Books.shed`, `Books.pay`, `Books.fire`: a packet leaves its history, is taken
  from the count, and its frames are reported.
* `Books.step`: every call keeps the books, whatever is on its way.

A retry sets `bytesInFlight` to zero although the packets of the Handshake space
stay, so the count is only claimed under a condition `ok`.
-/
namespace MoqQuic.L3.Quic

open L2 L2.Ackhandler L2.Congestion Option SentPacketHistory List

variable {C E : Type}

/-- The frames a call hands over. -/
def Call.labels : Call → Multiset Label
  | .sentPacket a => a.packet.labels
  | _ => 0

/-- The frames some calls hand over. -/
def sentLabels (calls : List Call) : Multiset Label := (calls.map Call.labels).sum

namespace Handler

section Sum

variable {M : Type} [AddCommMonoid M]

/-- A sum over the packet number spaces that are not dropped. -/
def sum (f : SentPacketHistory → M) (h : Handler C E) : M :=
  let part (sp : Option PacketNumberSpace) : M := (sp.map fun sp => f sp.history).getD 0
  part h.initialPackets + part h.handshakePackets + f h.appDataPackets.history

variable {f : SentPacketHistory → M} {h h' : Handler C E} {enc : EncryptionLevel} {sp sp' : PacketNumberSpace}

theorem sum_congr (hs : h'.space = h.space) : h'.sum f = h.sum f := by
  have hi : h'.initialPackets = h.initialPackets := congrFun hs .initial
  have hh : h'.handshakePackets = h.handshakePackets := congrFun hs .handshake
  have ha := some.inj (congrFun hs .appData)
  unfold sum
  rw [hi, hh, ha]

/-- Only the histories of the spaces count. -/
theorem sum_congr_of {g : SentPacketHistory → M}
    (hfg : ∀ s sp, h.space s = some sp → f sp.history = g sp.history) : h.sum f = h.sum g := by
  have hpart : ∀ s, ((h.space s).map fun sp => f sp.history).getD 0 =
      ((h.space s).map fun sp => g sp.history).getD 0 := by
    intro s
    cases hs : h.space s with
    | none => rfl
    | some sp => exact hfg s sp hs
  exact congrArg₂ (· + ·) (congrArg₂ (· + ·) (hpart .initial) (hpart .handshake)) (hpart .appData)

/-- A space is replaced by one that has less. -/
theorem sum_setSpace {x : M} (hsp : h.getPacketNumberSpace enc = some sp)
    (hf : f sp.history = f sp'.history + x) : h.sum f = (h.setSpace enc sp').sum f + x := by
  cases enc with
  | initial =>
    replace hsp : h.initialPackets = some sp := hsp
    simp only [sum, setSpace, hsp, map_some, getD_some, hf]
    ac_rfl
  | handshake =>
    replace hsp : h.handshakePackets = some sp := hsp
    simp only [sum, setSpace, hsp, map_some, getD_some, hf]
    ac_rfl
  | zeroRTT | oneRTT =>
    replace hsp : h.appDataPackets = sp := some.inj hsp
    simp only [sum, setSpace, hsp, hf]
    ac_rfl

/-- A space is replaced by one that has more. -/
theorem sum_setSpace_add {x : M} (hsp : h.getPacketNumberSpace enc = some sp)
    (hf : f sp'.history = f sp.history + x) : (h.setSpace enc sp').sum f = h.sum f + x := by
  have hback : (h.setSpace enc sp').setSpace enc sp = h := by
    cases enc with
    | initial =>
      show { h with initialPackets := some sp } = h
      rw [← show h.initialPackets = some sp from hsp]
    | handshake =>
      show { h with handshakePackets := some sp } = h
      rw [← show h.handshakePackets = some sp from hsp]
    | zeroRTT | oneRTT =>
      show { h with appDataPackets := sp } = h
      rw [← show h.appDataPackets = sp from some.inj hsp]
  have hsum := sum_setSpace (h := h.setSpace enc sp') (getPacketNumberSpace_setSpace h enc sp') hf
  rwa [hback] at hsum

end Sum

/-- The bytes of all packets in flight. -/
def flight (h : Handler C E) : Nat := h.sum SentPacketHistory.flight

/-- The frames whose handlers are still to be told. -/
def held (h : Handler C E) : Multiset Label := h.sum SentPacketHistory.held

/-- The frames whose handlers were told. -/
def fired (h : Handler C E) : Multiset Label := ↑(h.callbacks.filterMap Callback.label)

/-- All histories are sound. -/
def Sound (h : Handler C E) : Prop := ∀ s sp, h.space s = some sp → sp.history.Sound

variable {h h' h'' : Handler C E} {enc : EncryptionLevel} {sp sp' : PacketNumberSpace} {pn : Int} {p : Packet}
  {prior : Nat} {l : List (Int × Packet)} {ok : Prop} {sent m y : Multiset Label} {b : Nat} {A : SendAlgorithm C}
  {ecn : EcnHandler E}

theorem Sound.of_getPacketNumberSpace (hs : h.Sound) (hsp : h.getPacketNumberSpace enc = some sp) :
    sp.history.Sound :=
  hs enc.space sp (space_of_get hsp)

theorem Sound.wf (hs : h.Sound) : Wf h := by
  intro s sp hsp
  have hsound := hs s sp hsp
  refine ⟨hsound.consecutive, fun e he => ?_⟩
  obtain ⟨hprobe, hc⟩ := hsound.probes e he
  rw [hc, hprobe]
  rfl

theorem Sound.setSpace (hs : h.Sound) (hsp' : sp'.history.Sound) : (h.setSpace enc sp').Sound := by
  intro s sp hsp
  rw [space_setSpace] at hsp
  by_cases he : s = enc.space
  · rw [he, Function.update_self] at hsp
    cases hsp
    exact hsp'
  · rw [Function.update_of_ne he] at hsp
    exact hs s sp hsp

theorem bytesInFlight_setSpace (h : Handler C E) (enc : EncryptionLevel) (sp : PacketNumberSpace) :
    (h.setSpace enc sp).bytesInFlight = h.bytesInFlight := by
  cases enc <;> rfl

theorem callbacks_setSpace (h : Handler C E) (enc : EncryptionLevel) (sp : PacketNumberSpace) :
    (h.setSpace enc sp).callbacks = h.callbacks := by
  cases enc <;> rfl

theorem SentArgs.counted (a : SentArgs) : a.packet.Counted := rfl

theorem SentArgs.flight_packet {a : SentArgs} (ha : a.isPathProbePacket = false) :
    a.packet.flight = if a.packet.isAckEliciting then a.size else 0 := by
  rw [Packet.flight, a.counted]
  simp [SentArgs.packet, ha]

theorem setSpace_callbacks (h : Handler C E) (cs : List Callback) (enc : EncryptionLevel) (sp : PacketNumberSpace) :
    { h with callbacks := cs }.setSpace enc sp = { h.setSpace enc sp with callbacks := cs } := by
  cases enc <;> rfl

/-- The packets of a space that a loop has still to look at. -/
structure Pending (h : Handler C E) (s : Space) (l : List (Int × Packet)) : Prop where
  sub : l ⊆ h.tracked s
  sorted : l.Pairwise fun e e' => e.1 < e'.1

theorem pending_tracked (h : Handler C E) (s : Space) : h.Pending s (h.tracked s) :=
  ⟨fun _ he => he, h.tracked_pairwise s⟩

namespace Pending

variable {s : Space} (hl : h.Pending s ((pn, p) :: l))
include hl

theorem head : (pn, p) ∈ h.tracked s := hl.sub mem_cons_self

/-- At most the packet itself has left its history. -/
theorem tail (hk : ∀ e ∈ h.tracked s, e.1 ≠ pn → e ∈ h'.tracked s) : h'.Pending s l := by
  obtain ⟨hhead, hsort⟩ := pairwise_cons.mp hl.sorted
  exact ⟨fun e he => hk e (hl.sub (mem_cons_of_mem _ he)) (Int.ne_of_gt (hhead e he)), hsort⟩

theorem filter (ht : h'.tracked s = (h.tracked s).filter fun e => e.1 ≠ pn) : h'.Pending s l :=
  hl.tail fun e he hne => by
    rw [ht]
    exact mem_filter_ne.mpr ⟨he, hne⟩

end Pending

theorem Pending.losePacket (hl : h.Pending enc.space ((pn, p) :: l)) (hw : Wf h)
    (hsp : h.getPacketNumberSpace enc = some sp) (hs : losePacket A ecn enc prior pn p h = some h') :
    h'.Pending enc.space l :=
  hl.tail fun e he hne => ((losePacket_spec hw hsp hs).1.kept _ e he).resolve_right fun hg => hne hg.2

/-! ## The books and their entries -/

/-- The balances, with `b` bytes and the frames `m` on their way. -/
structure Books (ok : Prop) (sent : Multiset Label) (h : Handler C E) (b : Nat) (m : Multiset Label) : Prop where
  sound : h.Sound
  flight : ok → h.bytesInFlight = h.flight + b
  frames : h.fired + h.held + m ≤ sent

theorem sameBooks_informECN (A : SendAlgorithm C) (ecn : EcnHandler E) (h : Handler C E) (ack : AckFrame)
    (enc : EncryptionLevel) (largestAcked : Int) (acked : List (Int × Packet)) (prior : Nat) :
    SameBooks h (h.informECN A ecn ack enc largestAcked acked prior) := by
  unfold informECN
  split
  · split
    · exact ⟨rfl, rfl, rfl⟩
    · exact .refl h
  · exact .refl h

namespace Books

theorem same (hb : Books ok sent h b m) (hs : SameBooks h h') : Books ok sent h' b m where
  sound s sp hsp := hb.sound s sp (by rw [← hs.space, hsp])
  flight hok := by
    rw [hs.bytesInFlight, hb.flight hok, Handler.flight, Handler.flight, sum_congr hs.space]
  frames := by
    have hf : h'.fired = h.fired := by rw [fired, hs.callbacks, fired]
    have hh : h'.held = h.held := sum_congr hs.space
    rw [hf, hh]
    exact hb.frames

/-- Some frames are no longer followed. -/
theorem forget {x : Multiset Label} (hb : Books ok sent h b (m + x)) : Books ok sent h b m :=
  { hb with frames := le_trans (by rw [← add_assoc]; exact Multiset.le_add_right _ _) hb.frames }

theorem le_sent (hb : Books ok sent h b m) {sent' : Multiset Label} (hle : sent ≤ sent') : Books ok sent' h b m :=
  { hb with frames := le_trans hb.frames hle }

section Update

variable (hb : Books ok sent h b m) (hsp : h.getPacketNumberSpace enc = some sp)
include hb hsp

/-- A space is replaced, and what it has less is on its way. -/
theorem replace (hsound : sp'.history.Sound) {x : Nat}
    (hx : sp.history.flight = sp'.history.flight + x) (hy : sp.history.held = sp'.history.held + y) :
    Books ok sent (h.setSpace enc sp') (b + x) (m + y) where
  sound := hb.sound.setSpace hsound
  flight hok := by
    have hsum : h.flight = (h.setSpace enc sp').flight + x := sum_setSpace hsp hx
    rw [bytesInFlight_setSpace, hb.flight hok]
    omega
  frames := by
    have hsum : h.held = (h.setSpace enc sp').held + y := sum_setSpace hsp hy
    have hf : (h.setSpace enc sp').fired = h.fired := by rw [fired, callbacks_setSpace, fired]
    refine le_trans (le_of_eq ?_) hb.frames
    rw [hf, hsum]
    ac_rfl

/-- A space is replaced by one with the same packets. -/
theorem update (hsound : sp'.history.Sound) (hx : sp'.history.flight = sp.history.flight)
    (hy : sp'.history.held = sp.history.held) : Books ok sent (h.setSpace enc sp') b m := by
  have hr := hb.replace hsp hsound (x := 0) (y := 0) (by rw [hx, add_zero]) (by rw [hy, add_zero])
  rwa [Nat.add_zero, add_zero] at hr

/-- Nothing of the history changes. -/
theorem updateSpace (hh : sp'.history = sp.history) : Books ok sent (h.setSpace enc sp') b m :=
  hb.update hsp (hh ▸ hb.sound.of_getPacketNumberSpace hsp) (by rw [hh]) (by rw [hh])

/-- A packet leaves its history. -/
theorem shed (hm : (pn, p) ∈ sp.history.tracked) {history : SentPacketHistory} (hk : sp.history.Sheds pn history) :
    Books ok sent (h.setSpace enc { sp with history }) (b + p.flight) (m + p.labels) :=
  hb.replace hsp (hk.sound (hb.sound.of_getPacketNumberSpace hsp)) (hk.flight hm) (hk.held hm)

end Update

end Books

theorem fired_append (h : Handler C E) (cs : List Callback) :
    fired { h with callbacks := h.callbacks ++ cs } = h.fired + ↑(cs.filterMap Callback.label) := by
  simp [fired, filterMap_append]

namespace Books

/-- A packet that has left its history is taken from the count. -/
theorem pay (hb : Books ok sent h (b + p.flight) m) (hs : h.removeFromBytesInFlight p = some h') :
    Books ok sent h' b m := by
  rw [removeFromBytesInFlight_some hs]
  refine ⟨hb.sound, fun hok => ?_, hb.frames⟩
  have hf := hb.flight hok
  show h.bytesInFlight - p.flight = h.flight + b
  omega

/-- Frames that have left the histories are reported. -/
theorem fire {x : Multiset Label} (hb : Books ok sent h b (m + x)) {cs : List Callback}
    (hx : (↑(cs.filterMap Callback.label) : Multiset Label) = x) :
    Books ok sent { h with callbacks := h.callbacks ++ cs } b m := { hb with
  frames := by
    refine le_trans (le_of_eq ?_) hb.frames
    rw [fired_append, hx]
    ac_rfl }

theorem queueFrames (hb : Books ok sent h b (m + p.labels)) (hs : h.queueFramesForRetransmission p = some h') :
    Books ok sent h' b m := by
  rw [queueFrames_some hs]
  exact hb.fire (label_frameCallbacks .onLost (fun _ _ => rfl) p)

/-! ## Losses -/

theorem reportLost (hb : Books ok sent h (b + p.flight) (m + p.labels)) (hc : p.Counted)
    (hs : reportLost A ecn enc prior pn p h = some h') : Books ok sent h' b m := by
  unfold Handler.reportLost at hs
  split at hs
  · obtain ⟨h1, h1s, hs⟩ := bind_eq_some_iff.mp hs
    obtain ⟨h2, h2s, hs⟩ := bind_eq_some_iff.mp hs
    cases hs
    exact ((hb.pay h1s).queueFrames h2s).same ⟨rfl, rfl, rfl⟩
  -- a placeholder, or a packet without frames
  rename_i hne
  rw [hc.flight_eq_zero (by simpa using hne), Nat.add_zero] at hb
  cases hs
  exact hb.forget

section Sending

variable {a : SentArgs} (hb : Books ok sent h b m)
include hb

theorem queueProbePacket {queued : Bool}
    (hs : h.queueProbePacket enc = some (queued, h')) : Books ok sent h' b m := by
  obtain ⟨sp, hsp, hs⟩ := bind_eq_some_iff.mp hs
  split at hs
  · cases hs
    exact hb
  rename_i pn p hfirst
  obtain ⟨history, hd, hs⟩ := bind_eq_some_iff.mp hs
  obtain ⟨h1, h1s, hs⟩ := bind_eq_some_iff.mp hs
  obtain ⟨h2, h2s, hs⟩ := bind_eq_some_iff.mp hs
  cases hs
  have hm := mem_of_firstOutstanding hfirst
  have hk := sheds_declareLost (hb.sound.of_getPacketNumberSpace hsp).consecutive hd
  exact ((hb.shed hsp hm hk).pay h1s).queueFrames h2s

theorem losePacket (hm : (pn, p) ∈ h.tracked enc.space)
    (hs : losePacket A ecn enc prior pn p h = some h') : Books ok sent h' b m := by
  obtain ⟨sp, hsp, hs⟩ := bind_eq_some_iff.mp hs
  obtain ⟨history, hd, hs⟩ := bind_eq_some_iff.mp hs
  have hsound := hb.sound.of_getPacketNumberSpace hsp
  rw [tracked_of_space (space_of_get hsp)] at hm
  have hshed := hb.shed hsp hm (sheds_declareLost hsound.consecutive hd)
  have hsame : ∀ lostPackets, SameBooks (h.setSpace enc { sp with history })
      { h.setSpace enc { sp with history } with lostPackets } := fun _ => ⟨rfl, rfl, rfl⟩
  exact (hshed.same (hsame _)).reportLost (hsound.counted _ hm) hs

theorem detectLost {delay now : Int} (hl : h.Pending enc.space l)
    (hs : detectLost A ecn enc delay now prior l h = some h') : Books ok sent h' b m := by
  induction l generalizing h with
  | nil =>
    cases hs
    exact hb
  | cons e l ih =>
    obtain ⟨sp, hsp, hs⟩ := bind_eq_some_iff.mp hs
    split at hs
    · cases hs
      exact hb
    split at hs
    · obtain ⟨h1, h1s, hs⟩ := bind_eq_some_iff.mp hs
      exact ih (hb.losePacket hl.head h1s) (hl.losePacket hb.sound.wf hsp h1s) hs
    refine ih (hb.updateSpace hsp (by rfl)) (hl.tail fun e he _ => ?_) hs
    rwa [tracked_setSpace, if_pos rfl, ← tracked_of_space (space_of_get hsp)]

theorem detectLostPackets {now : Int}
    (hs : detectLostPackets A ecn h now enc = some h') : Books ok sent h' b m := by
  obtain ⟨sp, hsp, hs⟩ := bind_eq_some_iff.mp hs
  have hb1 : Books ok sent (h.setSpace enc { sp with lossTime := 0 }) b m := hb.updateSpace hsp rfl
  refine hb1.detectLost ⟨fun e he => ?_, sp.history.tracked_pairwise⟩ hs
  rwa [tracked_setSpace, if_pos rfl]

/-- A path probe leaves the list of probes. -/
theorem takeProbe (hsp : h.getPacketNumberSpace enc = some sp)
    (hm : (pn, p) ∈ sp.history.pathProbePackets) :
    (sp.history.removePathProbe pn).1 = some p ∧
      Books ok sent (h.setSpace enc { sp with history := (sp.history.removePathProbe pn).2 }) b (m + p.labels) := by
  have hsound := hb.sound.of_getPacketNumberSpace hsp
  rcases hsound.removePathProbe pn with ⟨-, -, hno⟩ | ⟨q, hq, hmq, heq⟩
  · exact absurd rfl (hno _ hm)
  rw [← eq_of_sorted hsound.probes_sorted hm hmq] at hq
  refine ⟨hq, ?_⟩
  rw [heq]
  refine hb.replace hsp (x := 0) ?_ rfl (hsound.held_without hm)
  exact hsound.withProbes filter_sublist

theorem loseProbes
    (hsub : l ⊆ h.appDataPackets.history.pathProbePackets) (hsort : l.Pairwise (fun e e' => e.1 < e'.1))
    (hs : loseProbes l h = some h') : Books ok sent h' b m := by
  induction l generalizing h with
  | nil =>
    cases hs
    exact hb
  | cons e l ih =>
    obtain ⟨pn, p⟩ := e
    obtain ⟨hhead, hsort'⟩ := pairwise_cons.mp hsort
    obtain ⟨hm, hsub'⟩ := cons_subset.mp hsub
    unfold Handler.loseProbes at hs
    split at hs
    · cases hs
    obtain ⟨hq, hb1⟩ := hb.takeProbe (show h.getPacketNumberSpace .oneRTT = _ from rfl) hm
    -- the handlers of its stream frames are not called
    rw [p.labels_eq, ← add_assoc] at hb1
    have hb2 := (hb1.fire (label_frameCallbacks .onLost (fun _ _ => rfl) _)).forget
    refine ih hb2 (fun e he => ?_) hsort' hs
    rcases (hb.sound .appData _ rfl).removePathProbe pn with
      ⟨hnone, -, -⟩ | ⟨q', -, -, heq⟩
    · rw [hnone] at hq
      cases hq
    rw [heq]
    exact mem_filter_ne.mpr ⟨hsub' he, Int.ne_of_gt (hhead e he)⟩

theorem detectLostPathProbes {now : Int} (hs : h.detectLostPathProbes now = some h') : Books ok sent h' b m :=
  hb.loseProbes filter_sublist.subset ((hb.sound .appData _ rfl).probes_sorted.sublist filter_sublist) hs

/-! ## Sending -/

/-- A space is replaced by one that has more. -/
theorem add (hsp : h.getPacketNumberSpace enc = some sp) (hsound : sp'.history.Sound)
    {x : Nat} (hx : sp'.history.flight = sp.history.flight + x)
    (hy : sp'.history.held = sp.history.held + y) :
    Books ok (sent + y) { h.setSpace enc sp' with bytesInFlight := h.bytesInFlight + x } b m where
  sound := hb.sound.setSpace hsound
  flight hok := by
    have hsum : (h.setSpace enc sp').flight = h.flight + x := sum_setSpace_add hsp hx
    have hf := hb.flight hok
    show h.bytesInFlight + x = (h.setSpace enc sp').flight + b
    omega
  frames := by
    have hsum : (h.setSpace enc sp').held = h.held + y := sum_setSpace_add hsp hy
    have hf : (h.setSpace enc sp').fired = h.fired := by rw [fired, callbacks_setSpace, fired]
    show (h.setSpace enc sp').fired + (h.setSpace enc sp').held + m ≤ sent + y
    rw [hf, hsum]
    refine le_trans (le_of_eq ?_) (add_le_add_left hb.frames y)
    ac_rfl

theorem sentPathProbe (ha : a.isPathProbePacket = true)
    (hs : h.sentPathProbe a = some h') : Books ok (sent + a.packet.labels) h' b m := by
  obtain ⟨sp, hsp, hs⟩ := bind_eq_some_iff.mp hs
  obtain ⟨history, hh, hs⟩ := bind_eq_some_iff.mp hs
  obtain ⟨hsound, hx, hy⟩ := (hb.sound.of_getPacketNumberSpace hsp).sentPathProbePacket
    (Int.natCast_nonneg a.pn) a.counted ha hh
  cases hs
  have hb1 : Books ok (sent + a.packet.labels)
      { h.setSpace a.encLevel { sp with history, largestSent := a.pn } with
        bytesInFlight := h.bytesInFlight + 0 } b m := hb.add hsp hsound hx hy
  refine hb1.same ⟨rfl, ?_, rfl⟩
  exact bytesInFlight_setSpace h a.encLevel _

theorem recordSent (ha : a.isPathProbePacket = false)
    (hs : h.recordSent A ecn a = some h') : Books ok (sent + a.packet.labels) h' b m := by
  obtain ⟨sp, hsp, hs⟩ := bind_eq_some_iff.mp hs
  obtain ⟨ecnTracker, -, hs⟩ := bind_eq_some_iff.mp hs
  obtain ⟨history, hh, hs⟩ := bind_eq_some_iff.mp hs
  obtain ⟨hsound, hx, hy⟩ := (hb.sound.of_getPacketNumberSpace hsp).sentPacket
    (Int.natCast_nonneg a.pn) a.counted ha hh
  cases hs
  have hb1 : ∀ t, Books ok (sent + a.packet.labels)
      { h.setSpace a.encLevel { sp with history, largestSent := a.pn, lastAckElicitingPacketTime := t } with
        bytesInFlight := h.bytesInFlight + a.packet.flight } b m := fun _ => hb.add hsp hsound hx hy
  refine (hb1 _).same ⟨rfl, ?_, rfl⟩
  rw [SentArgs.flight_packet ha]
  split <;> rfl

theorem sentPacket (hs : h.sentPacket A ecn a = some h') : Books ok (sent + a.packet.labels) h' b m := by
  unfold Handler.sentPacket at hs
  split at hs
  · rename_i ha
    exact hb.sentPathProbe ha hs
  rename_i ha
  obtain ⟨h1, h1s, hs⟩ := bind_eq_some_iff.mp hs
  cases hs
  have hb1 := hb.recordSent (by simpa using ha) h1s
  split
  · exact hb1
  · exact hb1.same ⟨rfl, rfl, rfl⟩

end Sending

end Books

/-! ## Acknowledgements -/

/-- A packet found by the search: a regular packet of the window, or a path probe whose placeholder is
in the window. -/
def Found (tracked : List (Int × Packet)) (e : Int × Packet) : Prop :=
  e ∈ tracked ∧ e.2.isPathProbePacket = false ∨
    e.2.isPathProbePacket = true ∧ e.2.Counted ∧ (e.1, SentPacketHistory.probePlaceholder) ∈ tracked

theorem Found.filter {tracked : List (Int × Packet)} {e : Int × Packet} (hf : Found tracked e) (hne : e.1 ≠ pn) :
    Found (tracked.filter fun e => e.1 ≠ pn) e :=
  hf.imp (fun hm => ⟨mem_filter_ne.mpr ⟨hm.1, hne⟩, hm.2⟩) (fun hm => ⟨hm.1, hm.2.1, mem_filter_ne.mpr ⟨hm.2.2, hne⟩⟩)

/-- The frames of the path probes among some packets. -/
def probeLabels (l : List (Int × Packet)) : Multiset Label :=
  weight (fun p => if p.isPathProbePacket then p.labels else 0) l

/-- The state of the search: the path probes found have left the history. -/
structure ScanBooks (history : SentPacketHistory) (s : Scan) : Prop where
  sound : s.history.Sound
  tracked : s.history.tracked = history.tracked
  held : history.held = s.history.held + probeLabels s.acked
  found : ∀ e ∈ s.acked, Found history.tracked e
  probes : s.history.pathProbePackets ⊆ history.pathProbePackets
  outstanding : ∀ e ∈ s.acked, e.2.isPathProbePacket = true → e ∈ history.pathProbePackets

variable {history : SentPacketHistory} {ack : AckFrame}

theorem ScanBooks.start (hs : history.Sound) : ScanBooks history { history } where
  sound := hs
  tracked := rfl
  held := by simp [probeLabels]
  found e he := by cases he
  probes _ he := he
  outstanding e he := by cases he

theorem ScanBooks.take {s : Scan} (hok : ScanBooks history s) (hs : history.Sound)
    (hm : (pn, p) ∈ history.tracked) : ScanBooks history (s.take pn p) := by
  -- what is found under the number
  have hadd : ∀ {P : Int × Packet → Prop} {q : Packet}, (∀ e ∈ s.acked, P e) → P (pn, q) →
      ∀ e ∈ s.acked ++ [(pn, q)], P e := fun hP hq => forall_mem_append.mpr ⟨hP, forall_mem_singleton.mpr hq⟩
  unfold Scan.take
  split
  · rename_i hprobe
    have hp := hs.placeholder _ hm hprobe
    rcases hok.sound.removePathProbe pn with ⟨hnone, heq, -⟩ | ⟨q, hsome, hmq, heq⟩
    · rw [show s.history.removePathProbe pn = (none, s.history) from Prod.ext hnone heq]
      exact hok
    rw [show s.history.removePathProbe pn = (some q, _) from Prod.ext hsome heq]
    obtain ⟨hq, hc⟩ := hok.sound.probes _ hmq
    refine ⟨hok.sound.withProbes filter_sublist, hok.tracked, ?_, hadd hok.found (Or.inr ⟨hq, hc, ?_⟩),
      fun e he => hok.probes (filter_sublist.subset he), hadd hok.outstanding fun _ => hok.probes hmq⟩
    · rw [hok.held, hok.sound.held_without hmq]
      simp only [probeLabels, weight_append, weight_cons, weight_nil, add_zero, if_pos hq]
      ac_rfl
    · rw [← hp]
      exact hm
  rename_i hprobe
  have hp : p.isPathProbePacket = false := by simpa using hprobe
  refine { hok with
    held := ?_
    found := hadd hok.found (Or.inl ⟨hm, hp⟩)
    outstanding := hadd hok.outstanding fun hp' => absurd hp' hprobe }
  rw [hok.held]
  simp [probeLabels, hp]

theorem newlyAcked_books (hs : history.Sound) (ack : AckFrame) : ScanBooks history (newlyAcked history ack) := by
  rw [newlyAcked_eq]
  exact foldlRecOn _ _ (.start hs) fun s hok e he => hok.take hs (mem_of_mem_filter he)

namespace Books

/-- The packets found are reported and leave the window, but are still counted. -/
theorem removeAcked {b : Nat} {r : Except AckError Unit}
    (hb : Books ok sent h b (m + probeLabels l)) (hfound : (∀ e ∈ l, Found (h.tracked enc.space) e))
    (hsort : l.Pairwise (fun e e' => e.1 < e'.1)) (hs : removeAcked enc l h = some (r, h')) :
    Books ok sent h' (b + weight Packet.flight l) m := by
  induction l generalizing h b r with
  | nil =>
    cases hs
    simpa [probeLabels] using hb
  | cons x l ih =>
    obtain ⟨pn, p⟩ := x
    obtain ⟨hhead, hsort'⟩ := pairwise_cons.mp hsort
    obtain ⟨sp, hsp, hs⟩ := bind_eq_some_iff.mp hs
    obtain ⟨r', hr, hs⟩ := bind_eq_some_iff.mp hs
    replace hsp : h.getPacketNumberSpace enc = some sp := by rw [← hsp]; cases enc <;> rfl
    have hspace := space_of_get hsp
    have hsound := hb.sound.of_getPacketNumberSpace hsp
    -- the packet of the window under the number, which is not the probe itself
    obtain ⟨q, hq, hflight, hlabels⟩ : ∃ q, (pn, q) ∈ sp.history.tracked ∧ q.flight = p.flight ∧
        probeLabels ((pn, p) :: l) + q.labels = p.labels + probeLabels l := by
      rw [← tracked_of_space hspace]
      rcases hfound _ mem_cons_self with ⟨hm, hp⟩ | ⟨hp, hc, hm⟩
      · replace hp : p.isPathProbePacket = false := hp
        refine ⟨p, hm, rfl, ?_⟩
        simp only [probeLabels, weight_cons, hp, Bool.false_eq_true, if_false, zero_add]
        ac_rfl
      replace hp : p.isPathProbePacket = true := hp
      refine ⟨_, hm, (hc.flight_eq_zero (by rw [hp]; rfl)).symm, ?_⟩
      simp only [probeLabels, weight_cons, hp, if_true, labels_probePlaceholder, add_zero]
    obtain ⟨history, rfl⟩ := remove_tracked hq hr
    have hk := sheds_remove hsound.consecutive hr
    have hb1 := hb.shed hsp hq hk
    rw [hflight, add_assoc m, hlabels, add_comm p.labels, ← add_assoc] at hb1
    have hcs : ∀ ignore : List Callback, ignore.filterMap Callback.label = [] →
        (↑((ignore ++ frameCallbacks .onAcked p).filterMap Callback.label) : Multiset Label) = p.labels := by
      intro ignore hi
      rw [filterMap_append, hi, nil_append]
      exact label_frameCallbacks .onAcked (fun _ _ => rfl) p
    replace hs : Handler.removeAcked enc l (Handler.setSpace { h with
        callbacks := h.callbacks ++ _ ++ frameCallbacks .onAcked p } enc { sp with history }) = some (r, h') := hs
    rw [setSpace_callbacks, append_assoc] at hs
    rw [← callbacks_setSpace h enc { sp with history }] at hs
    have hrest : ∀ e ∈ l, Found ((h.setSpace enc { sp with history }).tracked enc.space) e := fun e he => by
      have hf := hfound e (mem_cons_of_mem _ he)
      rw [tracked_of_space hspace] at hf
      rw [tracked_setSpace, if_pos rfl, hk.tracked]
      exact hf.filter (Int.ne_of_gt (hhead e he))
    have hb2 := ih (hb1.fire (hcs _ (by split <;> rfl))) hrest hsort' hs
    rwa [add_assoc] at hb2

theorem detectAndRemoveAckedPackets {r : Except AckError (List (Int × Packet) × Bool)}
    (hb : Books ok sent h b m) (hs : h.detectAndRemoveAckedPackets ack enc = some (r, h')) :
    match r with
    | .error _ => Books ok sent h' b m
    | .ok (acked, _) => Books ok sent h' (b + weight Packet.flight acked) m := by
  unfold Handler.detectAndRemoveAckedPackets at hs
  split at hs
  · cases hs
    exact hb
  obtain ⟨sp, hsp, hs⟩ := bind_eq_some_iff.mp hs
  split at hs
  · cases hs
    exact hb
  have hok := newlyAcked_books (hb.sound.of_getPacketNumberSpace hsp) ack
  have hsort := (newlyAcked_ok sp.history ack).sorted
  simp only at hs
  generalize newlyAcked sp.history ack = scan at hs hok hsort
  -- the path probes found are on their way
  have hb1 : Books ok sent (h.setSpace enc { sp with history := scan.history }) (b + 0)
      (m + probeLabels scan.acked) :=
    hb.replace hsp hok.sound (by rw [SentPacketHistory.flight, ← hok.tracked]; rfl) hok.held
  have hb2 : Books ok sent { h.setSpace enc { sp with history := scan.history } with
      ackedPackets := scan.acked } b (m + probeLabels scan.acked) := hb1.same ⟨rfl, rfl, rfl⟩
  split at hs
  · cases hs
    exact hb2.forget
  obtain ⟨⟨r', h1⟩, h1s, hs⟩ := bind_eq_some_iff.mp hs
  have hfound : ∀ e ∈ scan.acked, Found ((h.setSpace enc
      { sp with history := scan.history }).tracked enc.space) e := fun e he => by
    rw [tracked_setSpace, if_pos rfl, hok.tracked]
    exact hok.found e he
  have hb3 := hb2.removeAcked hfound hsort h1s
  cases r' with
  | error e =>
    -- every packet found is in the window, so its removal does not fail
    obtain ⟨hr', -⟩ := removeAcked_spec hb2.sound.wf (fun e he => by
      rcases hfound e he with ⟨hm, -⟩ | ⟨-, -, hm⟩
      · exact ⟨_, hm⟩
      · exact ⟨_, hm⟩) hsort h1s
    cases hr'
  | ok =>
    cases hs
    exact hb3

theorem ackPackets {rcvTime : Int}
    (hb : Books ok sent h (b + weight Packet.flight l) m) (hs : ackPackets A prior rcvTime l h = some h') :
    Books ok sent h' b m := by
  induction l generalizing h with
  | nil =>
    cases hs
    exact hb
  | cons e l ih =>
    obtain ⟨h1, h1s, hs⟩ := bind_eq_some_iff.mp hs
    rw [weight_cons, add_comm e.2.flight, ← add_assoc] at hb
    have hsame : ∀ congestion, SameBooks h { h with congestion } := fun _ => ⟨rfl, rfl, rfl⟩
    exact ih ((hb.same (hsame _)).pay h1s) hs

section ProcessAcked

variable {rcvTime : Int} {prior : Nat} {acked : List (Int × Packet)} {elicits r : Bool}

/-- Before lost packets are looked for, and after the acknowledged ones are reported, the books stay. -/
theorem processAcked_steps (hs : Handler.processAcked A ecn h ack enc rcvTime prior acked elicits = some (r, h')) :
    ∃ (h2 h4 h5 h6 : Handler C E) (sp : PacketNumberSpace) (n : Int), SameBooks h h2 ∧
      h2.getPacketNumberSpace enc = some sp ∧
      Handler.detectLostPackets A ecn (h2.setSpace enc { sp with largestAcked := n }) rcvTime enc = some h4 ∧
      (if enc = .oneRTT then h4.detectLostPathProbes rcvTime else some h4) = some h5 ∧
      Handler.ackPackets A prior rcvTime acked h5 = some h6 ∧ SameBooks h6 h' := by
  obtain ⟨sp, hsp, hs⟩ := bind_eq_some_iff.mp hs
  obtain ⟨h4, h4s, hs⟩ := bind_eq_some_iff.mp hs
  obtain ⟨h5, h5s, hs⟩ := bind_eq_some_iff.mp hs
  obtain ⟨h6, h6s, hs⟩ := bind_eq_some_iff.mp hs
  have hsame1 : SameBooks h (h.updateRTTOnAck A ack enc rcvTime acked elicits) := ⟨rfl, rfl, rfl⟩
  have hsame2 := sameBooks_informECN A ecn (h.updateRTTOnAck A ack enc rcvTime acked elicits) ack enc sp.largestAcked
    acked prior
  refine ⟨_, h4, h5, h6, sp, _, hsame1.trans hsame2, ?_, h4s, h5s, h6s, ?_⟩
  · rw [getPacketNumberSpace_eq, hsame2.space, ← getPacketNumberSpace_eq, hsp]
  -- what is left of the method are the lost packets, the counters and the timer
  cases hs
  split <;> exact ⟨rfl, rfl, rfl⟩

theorem processAcked (hb : Books ok sent h (b + weight Packet.flight acked) m)
    (hs : processAcked A ecn h ack enc rcvTime prior acked elicits = some (r, h')) : Books ok sent h' b m := by
  obtain ⟨h2, h4, h5, h6, sp, n, hsame, hsp, h4s, h5s, h6s, hlast⟩ := processAcked_steps hs
  have hb3 : Books ok sent (h2.setSpace enc { sp with largestAcked := n }) (b + weight Packet.flight acked) m :=
    (hb.same hsame).updateSpace hsp rfl
  have hb4 := hb3.detectLostPackets h4s
  have hb5 : Books ok sent h5 (b + weight Packet.flight acked) m := by
    split at h5s
    · exact hb4.detectLostPathProbes h5s
    cases h5s
    exact hb4
  exact (hb5.ackPackets h6s).same hlast

end ProcessAcked

section Calls

variable {draw : Nat} {err : Option String} {now : Int} (hb : Books ok sent h b m)
include hb

theorem receivedAck {rcvTime : Int} {r : Except AckError Bool}
    (hs : h.receivedAck A ecn ack enc rcvTime = some (r, h')) : Books ok sent h' b m := by
  obtain ⟨sp0, hsp0, hs⟩ := bind_eq_some_iff.mp hs
  split at hs
  · cases hs
    exact hb
  obtain ⟨⟨r', h1⟩, h1s, hs⟩ := bind_eq_some_iff.mp hs
  have hb1 := (hb.same (idle_completeAddressValidation h enc rcvTime).toSameBooks).detectAndRemoveAckedPackets h1s
  split at hs
  · rename_i heq
    cases heq
    cases hs
    exact hb1
  · rename_i heq
    cases heq
    cases hs
    exact hb1
  rename_i heq
  cases heq
  obtain ⟨⟨b', h3⟩, h3s, hs⟩ := bind_eq_some_iff.mp hs
  cases hs
  exact hb1.processAcked h3s

/-! ## Packet numbers and timeouts -/

theorem skipPacket (hsp : h.getPacketNumberSpace enc = some sp)
    (hk : sp.history.skippedPacket pn = some history) (hh : sp'.history = history) :
    Books ok sent (h.setSpace enc sp') b m := by
  obtain ⟨hsound, hx, hy⟩ := (hb.sound.of_getPacketNumberSpace hsp).skippedPacket hk
  exact hb.update hsp (by rw [hh]; exact hsound) (by rw [hh, hx]) (by rw [hh, hy])

theorem popPacketNumber (hs : h.popPacketNumber enc draw = some (pn, h')) : Books ok sent h' b m := by
  obtain ⟨sp, hsp, hs⟩ := bind_eq_some_iff.mp hs
  obtain ⟨history, hh, hs⟩ := bind_eq_some_iff.mp hs
  cases hs
  split at hh
  · exact hb.skipPacket hsp hh rfl
  cases hh
  exact hb.updateSpace hsp rfl

theorem onPTO (hs : h.onPTO now draw = some (err, h')) : Books ok sent h' b m := by
  obtain ⟨ptoCount, numProbesToSend, _, rfl | ⟨pn, h1, history, h1s, hh, rfl⟩⟩ := onPTO_cases hs
  · exact hb.same ⟨rfl, rfl, rfl⟩
  have hsame : SameBooks h { h with ptoCount, numProbesToSend } := ⟨rfl, rfl, rfl⟩
  have hb1 := (hb.same hsame).popPacketNumber h1s
  have hb2 : Books ok sent (h1.setSpace .oneRTT { h1.appDataPackets with history }) b m :=
    hb1.skipPacket rfl hh rfl
  exact hb2.same ⟨rfl, rfl, rfl⟩

theorem onLossDetectionTimeout (hs : h.onLossDetectionTimeout A ecn now draw = some (err, h')) :
    Books ok sent h' b m := by
  obtain ⟨h1, h1s, hs⟩ := bind_eq_some_iff.mp hs
  obtain ⟨⟨err', h2⟩, h2s, hs⟩ := bind_eq_some_iff.mp hs
  cases hs
  have hb1 : Books ok sent h1 b m := by
    split at h1s
    · exact hb.detectLostPathProbes h1s
    cases h1s
    exact hb
  have hb2 : Books ok sent h2 b m := by
    split at h2s
    · obtain ⟨h3, h3s, heq⟩ := map_eq_some_iff.mp h2s
      cases heq
      exact hb1.detectLostPackets h3s
    · exact hb1.onPTO h2s
  exact hb2.same ⟨rfl, rfl, rfl⟩

/-! ## Dropped spaces -/

/-- One packet of the application data is taken from the count and then from its history. -/
theorem dropOne {r : Except String SentPacketHistory}
    (hm : (pn, p) ∈ h.tracked .appData) (hs : h.removeFromBytesInFlight p = some h')
    (hr : h'.appDataPackets.history.remove pn = some r) :
    ∃ history, r = .ok history ∧ history.tracked = (h.tracked .appData).filter (fun e => e.1 ≠ pn) ∧
      Books ok sent { h' with appDataPackets := { h'.appDataPackets with history } } b m := by
  cases removeFromBytesInFlight_some hs
  obtain ⟨history, rfl⟩ := remove_tracked hm hr
  have hk := sheds_remove (hb.sound .appData _ rfl).consecutive hr
  have hb1 := hb.shed (show h.getPacketNumberSpace .oneRTT = _ from rfl) hm hk
  have hpay : (h.setSpace .oneRTT { h.appDataPackets with history }).removeFromBytesInFlight p =
      some { h with bytesInFlight := h.bytesInFlight - p.flight
                    appDataPackets := { h.appDataPackets with history } } := by
    rw [removeFromBytesInFlight_eq] at hs ⊢
    split at hs
    · rename_i hle
      exact if_pos hle
    · cases hs
  exact ⟨history, rfl, hk.tracked, (hb1.pay hpay).forget⟩

theorem drop0RTT (hl : h.Pending .appData l) (hs : drop0RTT l h = some h') :
    Books ok sent h' b m := by
  induction l generalizing h with
  | nil =>
    cases hs
    exact hb
  | cons e l ih =>
    unfold Handler.drop0RTT at hs
    split at hs
    · cases hs
      exact hb
    obtain ⟨h1, h1s, hs⟩ := bind_eq_some_iff.mp hs
    obtain ⟨r, hr, hs⟩ := bind_eq_some_iff.mp hs
    obtain ⟨history, rfl, ht, hb1⟩ := hb.dropOne hl.head h1s hr
    exact ih hb1 (hl.filter ht) hs

/-- A space and its packets in flight are dropped together. -/
theorem drop {x : Nat}
    (hs : ∀ s sp, h'.space s = some sp → h.space s = some sp) (hx : h.flight = h'.flight + x)
    (hy : h.held = h'.held + y) (hbytes : h'.bytesInFlight = h.bytesInFlight - x)
    (hc : h'.callbacks = h.callbacks) : Books ok sent h' b m where
  sound s sp hsp := hb.sound s sp (hs s sp hsp)
  flight hok := by
    have hf := hb.flight hok
    omega
  frames := by
    have hf : h'.fired = h.fired := by rw [fired, hc, fired]
    refine le_trans ?_ hb.frames
    rw [hf, hy, ← add_assoc, add_right_comm _ y m]
    exact Multiset.le_add_right _ _

theorem dropPackets (hs : h.dropPackets enc now = some h') : Books ok sent h' b m := by
  cases enc with
  | initial =>
    unfold Handler.dropPackets at hs
    simp only at hs
    split at hs
    · cases hs
      exact hb
    rename_i sp hsp
    obtain ⟨h1, h1s, hs⟩ := bind_eq_some_iff.mp hs
    have hsum : ∀ {M : Type} [AddCommMonoid M] (f : SentPacketHistory → M),
        h.sum f = sum f { h with initialPackets := none } + f sp.history := fun f => by
      simp only [sum, hsp, map_some, getD_some, map_none, getD_none, zero_add]
      ac_rfl
    rw [← some.inj hs, removeAll_some h1s]
    refine Books.drop hb (fun s sp' hsp' => ?_) (hsum _) (hsum _) rfl rfl
    cases s with
    | initial => cases hsp'
    | handshake | appData => exact hsp'
  | handshake =>
    unfold Handler.dropPackets at hs
    simp only at hs
    have hsame : SameBooks h (if h.perspective = .client then
        { h with peerCompletedAddressValidation := true } else h) := by
      split
      · exact ⟨rfl, rfl, rfl⟩
      · exact .refl h
    replace hb := hb.same hsame
    generalize (if h.perspective = .client then
      { h with peerCompletedAddressValidation := true } else h) = h0 at hs hb
    split at hs
    · cases hs
      exact hb
    rename_i sp hsp
    obtain ⟨h1, h1s, hs⟩ := bind_eq_some_iff.mp hs
    have hsum : ∀ {M : Type} [AddCommMonoid M] (f : SentPacketHistory → M),
        h0.sum f = sum f { h0 with handshakePackets := none } + f sp.history := fun f => by
      simp only [sum, hsp, map_some, getD_some, map_none, getD_none, add_zero]
      ac_rfl
    rw [← some.inj hs, removeAll_some h1s]
    refine Books.drop hb (fun s sp' hsp' => ?_) (hsum _) (hsum _) rfl rfl
    cases s with
    | initial => exact hsp'
    | handshake => cases hsp'
    | appData => exact hsp'
  | zeroRTT =>
    obtain ⟨h1, h1s, hs⟩ := bind_eq_some_iff.mp hs
    cases hs
    have hb1 := hb.drop0RTT (h.pending_tracked .appData) h1s
    exact hb1.same ⟨rfl, rfl, rfl⟩
  | oneRTT => cases hs

/-! ## Retries and migrations -/

/-- A retry keeps the count only if no Handshake packet is tracked. -/
theorem resetForRetry (hok : ok → b = 0 ∧ h.tracked .handshake = [])
    (hs : h.resetForRetry now draw = some h') : Books ok sent h' b m := by
  obtain ⟨initial, hi, hs⟩ := bind_eq_some_iff.mp hs
  obtain ⟨h1, h1s, hs⟩ := bind_eq_some_iff.mp hs
  obtain ⟨h2, h2s, hs⟩ := bind_eq_some_iff.mp hs
  obtain ⟨cs, rfl, hcs⟩ := requeueAll_some h1s
  obtain ⟨cs', rfl, hcs'⟩ := requeueAll_some h2s
  have hnew : ∀ pn skips, (newPacketNumberSpace pn skips draw).history = {} := fun _ _ => rfl
  cases hs
  refine ⟨fun s sp hsp => ?_, fun ho => ?_, ?_⟩
  · cases s with
    | initial | appData =>
      rw [← some.inj hsp, hnew]
      exact sound_new
    | handshake => exact hb.sound .handshake sp hsp
  · obtain ⟨rfl, hnil⟩ := hok ho
    unfold tracked space at hnil
    cases hh : h.handshakePackets with
    | none => rfl
    | some sp =>
      rw [hh] at hnil
      show 0 = 0 + weight Packet.flight sp.history.tracked + 0 + 0
      rw [show sp.history.tracked = [] from hnil]
      rfl
  -- only the path probes are forgotten
  have hfired : fired { h with callbacks := h.callbacks ++ cs ++ cs' } = h.fired +
      weight Packet.labels initial.history.tracked + weight Packet.labels h.appDataPackets.history.tracked := by
    rw [append_assoc, fired_append, filterMap_append, ← Multiset.coe_add, hcs, hcs', add_assoc]
  have hheld : h.held = weight Packet.labels initial.history.tracked +
      weight Packet.labels initial.history.pathProbePackets +
      (h.handshakePackets.map fun sp => sp.history.held).getD 0 +
      (weight Packet.labels h.appDataPackets.history.tracked +
        weight Packet.labels h.appDataPackets.history.pathProbePackets) := by
    rw [held, sum, hi]
    rfl
  refine le_trans ?_ hb.frames
  show fired { h with callbacks := h.callbacks ++ cs ++ cs' } +
    (0 + (h.handshakePackets.map fun sp => sp.history.held).getD 0 + 0) + m ≤ _
  rw [hfired, hheld, zero_add, add_zero]
  refine le_trans (Multiset.le_add_right _ (weight Packet.labels initial.history.pathProbePackets +
    weight Packet.labels h.appDataPackets.history.pathProbePackets)) (le_of_eq ?_)
  ac_rfl

/-- Along the loop, the path probes themselves stay. -/
theorem loseAll (hl : h.Pending .appData l) (hs : loseAll l h = some h') :
    Books ok sent h' b m ∧ h'.appDataPackets.history.pathProbePackets = h.appDataPackets.history.pathProbePackets := by
  induction l generalizing h with
  | nil =>
    cases hs
    exact ⟨hb, rfl⟩
  | cons e l ih =>
    obtain ⟨pn, p⟩ := e
    obtain ⟨history, hd, hs⟩ := bind_eq_some_iff.mp hs
    have hsound := hb.sound .appData _ rfl
    have hk := sheds_declareLost hsound.consecutive hd
    have hb1 := hb.shed (show h.getPacketNumberSpace .oneRTT = _ from rfl) hl.head hk
    -- what the rest of the list needs of the state after the head
    have rest : ∀ {h2 : Handler C E}, Books ok sent h2 b m →
        Quiet (h.setSpace .oneRTT { h.appDataPackets with history }) h2 → Handler.loseAll l h2 = some h' →
        Books ok sent h' b m ∧
          h'.appDataPackets.history.pathProbePackets = h.appDataPackets.history.pathProbePackets := by
      intro h2 hb2 hq h2s
      have happ := some.inj (congrFun hq.space .appData)
      obtain ⟨hb', hpr⟩ := ih hb2 (hl.filter ((hq.tracked _).trans hk.tracked)) h2s
      refine ⟨hb', ?_⟩
      rw [hpr, happ]
      exact hk.probes
    split at hs
    · rename_i hprobe
      rw [show p = _ from hsound.placeholder _ hl.head hprobe] at hb1
      exact rest hb1.forget (Quiet.refl _) hs
    obtain ⟨h1, h1s, hs⟩ := bind_eq_some_iff.mp hs
    obtain ⟨h2, h2s, hs⟩ := bind_eq_some_iff.mp hs
    have hq1 := quiet_removeFromBytesInFlight h1s
    split at h2s
    · exact rest ((hb1.pay h1s).queueFrames h2s) (hq1.trans (quiet_queueFrames h2s)) hs
    cases h2s
    exact rest (hb1.pay h1s).forget hq1 hs

/-- A migration forgets the path probes it removes. -/
theorem migratedPath {clock : Int} {size : Nat}
    (hs : h.migratedPath A now size clock = some h') :
    ∃ y, Books ok sent h' b (m + y) ∧ h'.appDataPackets.history.pathProbePackets =
        h.appDataPackets.history.removeRangedPathProbes.pathProbePackets ∧
      weight Packet.labels h.appDataPackets.history.pathProbePackets =
        weight Packet.labels h'.appDataPackets.history.pathProbePackets + y := by
  obtain ⟨h1, h1s, hs⟩ := bind_eq_some_iff.mp hs
  have hsame : SameBooks h { h with rttStats := h.rttStats.resetForPathMigration } := ⟨rfl, rfl, rfl⟩
  obtain ⟨hb1, hpr⟩ := (hb.same hsame).loseAll (pending_tracked _ .appData) h1s
  have hsub : List.Sublist h1.appDataPackets.history.removeRangedPathProbes.pathProbePackets
      h1.appDataPackets.history.pathProbePackets := by
    have hsl := removeProbes_sublist h1.appDataPackets.history.pathProbePackets.length 0
      _ h1.appDataPackets.history.pathProbePackets le_rfl
    rwa [take_length] at hsl
  obtain ⟨y, hy⟩ := weight_sublist Packet.labels hsub
  have hsound := hb1.sound .appData _ rfl
  have hb2 : Books ok sent (h1.setSpace .oneRTT { h1.appDataPackets with
      history := h1.appDataPackets.history.removeRangedPathProbes }) (b + 0) (m + y) := by
    refine hb1.replace (show h1.getPacketNumberSpace .oneRTT = _ from rfl) ?_ rfl ?_
    · exact hsound.withProbes hsub
    rw [SentPacketHistory.held, hy, ← add_assoc]
    rfl
  cases hs
  refine ⟨y, hb2.same ⟨rfl, rfl, rfl⟩, ?_, ?_⟩
  · show SentPacketHistory.removeProbes _ _ _ _ = SentPacketHistory.removeProbes _ _ _ _
    rw [hpr]
  rw [← hpr]
  exact hy

end Calls

end Books

/-! ## All calls -/

/-- Every call keeps the books. -/
theorem Books.step {c : Call} (hb : Books ok sent h b m)
    (hretry : ∀ now draw, c = .resetForRetry now draw → ok → b = 0 ∧ h.tracked .handshake = [])
    (hs : h.step A ecn c = some h') : Books ok (sent + c.labels) h' b m := by
  -- only a send hands frames over
  have keep : ∀ {h' : Handler C E}, Books ok sent h' b m → Books ok (sent + c.labels) h' b m :=
    fun hb' => hb'.le_sent (Multiset.le_add_right _ _)
  cases c with
  | sentPacket a => exact hb.sentPacket hs
  | receivedAck ack enc rcvTime =>
    obtain ⟨⟨r, h1⟩, h1s, rfl⟩ := map_eq_some_iff.mp hs
    exact keep (hb.receivedAck h1s)
  | receivedBytes n t =>
    cases hs
    exact keep (hb.same (idle_receivedBytes h n t).toSameBooks)
  | receivedPacket enc t =>
    cases hs
    exact keep (hb.same (idle_receivedPacket h enc t).toSameBooks)
  | dropPackets enc now => exact keep (hb.dropPackets hs)
  | resetForRetry now draw =>
    exact keep (hb.resetForRetry (hretry now draw rfl) hs)
  | sendMode now =>
    cases hs
    obtain heq | heq := h.sendMode_cases A now <;> rw [heq]
    · exact keep hb
    · exact keep (hb.same ⟨rfl, rfl, rfl⟩)
  | setMaxDatagramSize size | setMaxAckDelay mad | setInitialRTT t =>
    cases hs
    refine keep (hb.same ?_)
    exact ⟨rfl, rfl, rfl⟩
  | queueProbePacket enc =>
    obtain ⟨⟨queued, h1⟩, h1s, rfl⟩ := map_eq_some_iff.mp hs
    exact keep (hb.queueProbePacket h1s)
  | ecnMode short =>
    cases hs
    exact keep (hb.same (idle_ecnMode ecn h short).toSameBooks)
  | popPacketNumber enc draw =>
    obtain ⟨⟨pn, h1⟩, h1s, rfl⟩ := map_eq_some_iff.mp hs
    exact keep (hb.popPacketNumber h1s)
  | onLossDetectionTimeout now draw =>
    obtain ⟨⟨err, h1⟩, h1s, rfl⟩ := map_eq_some_iff.mp hs
    exact keep (hb.onLossDetectionTimeout h1s)
  | migratedPath now size clock =>
    obtain ⟨y, hb1, -, -⟩ := hb.migratedPath hs
    exact keep hb1.forget

end Handler

/-- A new handler's books are empty. -/
theorem books_newSentPacketHandler (ok : Prop) (initialPN : Int) (rttStats : RTTStats) (validated : Bool)
    (ecnTracker : Option E) (ignore : Bool) (pers : Perspective) (c : C) (draw : Nat) :
    (newSentPacketHandler initialPN rttStats validated ecnTracker ignore pers c draw).Books ok 0 0 0 := by
  refine ⟨fun s sp hs => ?_, fun _ => rfl, le_rfl⟩
  cases s <;> cases hs <;> exact sound_new

end MoqQuic.L3.Quic
