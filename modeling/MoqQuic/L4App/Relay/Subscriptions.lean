import MoqQuic.L4App.Relay.Tables

/-!
# Subscriptions of the relay

A relay stream has a session once, whatever the number of its subscriptions,
and a session finds the subscribe id for a stream of objects by the stream id,
among all entries it ever made. So of several subscriptions of one session to
a track only one is served, to unsubscribe any of them ends all of them, and
the id that is found may be one that was removed before.

The tables are also spoiled in these ways.
* A session uses a subscribe id again while it is still subscribed under it.
* The random subscribe id of a forwarded Subscribe is one that the publisher
  has already.
* Two sessions have one session id, of which eight digits are random.
* The names of two tracks give one stream id (`Confusable`).

Result:
* `subscriptions_consistent`: in every run without these, a stream of objects
  goes to exactly the live subscriptions it is for, each under its own
  subscribe id, and to unsubscribe leaves all others in place.
-/
namespace MoqQuic.L4.Moqt
open Reader (Bytes)
open L1.Quicvarint (GoString)
open L3.Moqt Option

namespace Relay

variable {r r' : Relay} {e : Event} {h p pub rs : Ref} {id : SessionId} {m : Subscribe} {l : Live} {u : Nat}

/-! ## What is asked of the relay -/

/-- The stream is the one of the relay's subscription `u` at the publisher, and was asked for under these names. -/
def Carries (r : Relay) (p : Ref) (u : Nat) (trackNameSpace trackName : GoString) : Prop :=
  ∃ rs m, r.incoming p u = some rs ∧ r.forwarded rs = some m ∧
    m.trackNameSpace = trackNameSpace ∧ m.trackName = trackName

/-- The subscription is found from both sides: the session has the stream under the subscribe id, the stream has the
session under its id. -/
structure InPlace (r : Relay) (l : Live) (rs : Ref) : Prop where
  incoming : r.incoming l.publisher l.upstream = some rs
  entry : (r.subscribed l.session l.subID).map (·.stream) = some rs
  subscriber : ∃ id, r.idOf l.session = some id ∧ r.subscribers rs id = some l.session

/-- A stream of objects goes only to live subscriptions for its track, under their subscribe ids, and to every one that
it is for: those for which the relay has made its subscription `u` at the publisher and, unless the relay makes one for
every Subscribe, all those for the track. -/
def Consistent (r : Relay) : Event → Prop
  | .objectStream p u orders => r.ranges (.objectStream p u orders) = true →
      (∀ h subid, (h, subid) ∈ r.handleObjectStream p u orders →
        ∃ l ∈ r.live, l.session = h ∧ l.subID = subid ∧ l.publisher = p ∧
          r.Carries p u l.trackNameSpace l.trackName) ∧
      ∀ l ∈ r.live, l.publisher = p →
        l.upstream = u ∨ fetchesFresh l.trackName = false ∧ r.Carries p u l.trackNameSpace l.trackName →
        (l.session, l.subID) ∈ r.handleObjectStream p u orders
  | .unsubscribe h m => ∀ r', r.step (.unsubscribe h m) = some r' →
      ∀ l ∈ r.live, ¬ (l.session = h ∧ l.subID = m.subscriptionID) → l ∈ r'.live ∧ ∃ rs, r'.InPlace l rs
  | _ => True

/-! ## When it holds -/

structure OrderlySubscribe (r : Relay) (h : Ref) (m : Subscribe) (pub : Ref) (rand : UInt32) : Prop where
  /-- The session has no other entry with the stream id. -/
  first : ∀ i sub, r.subscribed h i = some sub → r.streamID sub.stream = some (getStreamID m) → i = m.subscribeID
  /-- If it has an entry under the subscribe id, it has left that stream. -/
  unused : ∀ sub id, r.subscribed h m.subscribeID = some sub → r.idOf h = some id → r.subscribers sub.stream id = none
  fresh : r.Forwards pub m → r.incoming pub rand.toNat = none
  unconfused : ∀ u rs m', r.incoming pub u = some rs → r.forwarded rs = some m' →
    ¬ Confusable m'.trackNameSpace m'.trackName m.trackNameSpace m.trackName

def Orderly (r : Relay) : Event → Prop
  | .createSession id => ∀ h, r.idOf h ≠ some id
  | .subscribe h m _ rand =>
      ∀ pub, r.namespaces.lookup m.trackNameSpace.data = some pub → r.OrderlySubscribe h m pub rand
  | _ => True

/-! ## The invariant -/

/-- The tables hold the live subscriptions and nothing else. -/
structure Coherent (r : Relay) : Prop where
  wellFormed : r.WellFormed
  ids : ∀ h h' id, r.idOf h = some id → r.idOf h' = some id → h = h'
  inPlace : ∀ l ∈ r.live, ∃ rs, r.InPlace l rs
  carries : ∀ l ∈ r.live, r.Carries l.publisher l.upstream l.trackNameSpace l.trackName
  served : ∀ rs k h, r.subscribers rs k = some h →
    r.idOf h = some k ∧ ∃ l ∈ r.live, l.session = h ∧ r.incoming l.publisher l.upstream = some rs
  single : ∀ l ∈ r.live, ∀ i sub, r.subscribed l.session i = some sub →
    streamIDOf sub.trackNameSpace sub.trackName = streamIDOf l.trackNameSpace l.trackName → i = l.subID
  shared : ∀ p u u' n t, r.Carries p u n t → r.Carries p u' n t → fetchesFresh t = false → u = u'

namespace Coherent

/-! ### Streams of objects -/

theorem mem_forwardStream {s : RelayStream} {orders : Ref → List Nat} {subid : Nat} (hs : r.streams[rs]? = some s) :
    (h, subid) ∈ r.forwardStream s orders ↔
      (∃ k, r.subscribers rs k = some h) ∧ r.getSubID h s.streamID (orders h) = some subid := by
  have hlook : ∀ k, r.subscribers rs k = some h ↔ ⟨k, h⟩ ∈ s.subscribers.entries := fun k => by
    rw [subscribers, hs, bind_some, Finmap.lookup_eq_some_iff]
  simp only [forwardStream, Multiset.mem_filterMap, map_eq_some_iff, Prod.mk.injEq, hlook]
  constructor
  · rintro ⟨⟨k, x⟩, hmem, i, hget, rfl, rfl⟩
    exact ⟨⟨k, hmem⟩, hget⟩
  rintro ⟨⟨k, hmem⟩, hget⟩
  exact ⟨⟨k, h⟩, hmem, subid, hget, rfl, rfl⟩

variable {order : List Nat} {i : Nat} {streamid : Bytes}

theorem subscribed_of_getSubID (hget : r.getSubID h streamid order = some i) :
    ∃ sub, r.subscribed h i = some sub ∧ r.streamID sub.stream = some streamid := by
  have hi := List.find?_some hget
  rw [any_eq_true] at hi
  obtain ⟨sub, hsub, hid⟩ := hi
  exact ⟨sub, hsub, of_decide_eq_true hid⟩

variable {sub : Subscription}

theorem exists_getSubID (hsub : r.subscribed h i = some sub) (hid : r.streamID sub.stream = some streamid)
    (hi : i ∈ order) : ∃ j, r.getSubID h streamid order = some j := by
  refine isSome_iff_exists.mp (List.find?_isSome.mpr ⟨i, hi, ?_⟩)
  simp [hsub, hid]

variable (hc : r.Coherent)
include hc

/-- The names under which a live subscription was made give the stream id of its stream. -/
theorem streamID_of_inPlace (hl : l ∈ r.live) (hp : r.InPlace l rs) :
    r.streamID rs = some (streamIDOf l.trackNameSpace l.trackName) := by
  obtain ⟨rs', m, hin, hm, hn, ht⟩ := hc.carries l hl
  cases hp.incoming.symm.trans hin
  rw [streamID_eq_forwarded, hm, ← hn, ← ht]
  rfl

theorem streamID_of_entry (hsub : r.subscribed h i = some sub) :
    r.streamID sub.stream = some (streamIDOf sub.trackNameSpace sub.trackName) := by
  obtain ⟨m, hm, heq⟩ := hc.wellFormed.entry h i sub hsub
  rw [streamID_eq_forwarded, hm, map_some, heq]

/-- A session has one entry with the stream id of a live subscription. -/
theorem eq_of_streamID (hl : l ∈ r.live) (hp : r.InPlace l rs) (hsub : r.subscribed l.session i = some sub)
    (hid : r.streamID sub.stream = r.streamID rs) : i = l.subID := by
  rw [hc.streamID_of_entry hsub, hc.streamID_of_inPlace hl hp] at hid
  exact hc.single l hl i sub hsub (some.inj hid)

/-- A session finds the subscribe id of its live subscription, and no other. -/
theorem eq_of_getSubID (hl : l ∈ r.live) (hp : r.InPlace l rs) (hid : r.streamID rs = some streamid)
    (hget : r.getSubID l.session streamid order = some i) : i = l.subID := by
  obtain ⟨sub, hsub, hsid⟩ := subscribed_of_getSubID hget
  exact hc.eq_of_streamID hl hp hsub (hsid.trans hid.symm)

theorem inPlace_of_subscribers {k : SessionId} (hrs : r.incoming p u = some rs) (hk : r.subscribers rs k = some h) :
    ∃ l ∈ r.live, l.session = h ∧ l.publisher = p ∧ l.upstream = u ∧ r.InPlace l rs := by
  obtain ⟨-, l, hl, hsess, hin⟩ := hc.served rs k h hk
  obtain ⟨rs', hp⟩ := hc.inPlace l hl
  cases hp.incoming.symm.trans hin
  obtain ⟨m, hm, hu⟩ := hc.wellFormed.upstream p u rs hrs
  obtain ⟨m', hm', hu'⟩ := hc.wellFormed.upstream l.publisher l.upstream rs hin
  cases hm.symm.trans hm'
  exact ⟨l, hl, hsess, hc.wellFormed.owner _ _ _ _ rs hin hrs, hu'.symm.trans hu, hp⟩

omit hc

theorem mem_order_of_ranges {orders : Ref → List Nat} (hr : r.ranges (.objectStream p u orders) = true)
    (hsub : r.subscribed h i = some sub) : i ∈ orders h := by
  have hlt : h < r.handlers.length := by
    obtain ⟨s, hs, -⟩ := bind_eq_some_iff.mp hsub
    exact (List.getElem?_eq_some_iff.mp hs).1
  have hall := List.all_eq_true.mp hr h (List.mem_range.mpr hlt)
  exact List.mem_toFinset.mp (of_decide_eq_true hall (mem_subscribedKeys hsub))

variable (hc : r.Coherent)
include hc

/-- A stream of objects that is for a live subscription is the one that it is served from. -/
theorem upstream_eq (hl : l ∈ r.live) (hpub : l.publisher = p)
    (hup : l.upstream = u ∨ fetchesFresh l.trackName = false ∧ r.Carries p u l.trackNameSpace l.trackName) :
    l.upstream = u := by
  rcases hup with hup | ⟨hfresh, hcar⟩
  · exact hup
  · exact hc.shared p l.upstream u _ _ (hpub ▸ hc.carries l hl) hcar hfresh

theorem objectStream (p : Ref) (u : Nat) (orders : Ref → List Nat) : r.Consistent (.objectStream p u orders) := by
  intro hr
  unfold handleObjectStream
  cases hin : r.incoming p u with
  | none =>
    refine ⟨fun h subid hmem => absurd hmem (Multiset.notMem_zero _), fun l hl hpub hup => ?_⟩
    obtain ⟨rs, hp⟩ := hc.inPlace l hl
    rw [← hpub, ← hc.upstream_eq hl hpub hup, hp.incoming] at hin
    cases hin
  | some rs =>
    obtain ⟨m, hm, -⟩ := hc.wellFormed.upstream p u rs hin
    obtain ⟨s, hs, rfl⟩ := map_eq_some_iff.mp hm
    have hid : r.streamID rs = some s.streamID := by rw [streamID, hs, map_some]
    rw [bind_some, hs]
    simp only [mem_forwardStream hs]
    constructor
    · rintro h subid ⟨⟨k, hk⟩, hget⟩
      obtain ⟨l, hl, rfl, rfl, rfl, hp⟩ := hc.inPlace_of_subscribers hin hk
      exact ⟨l, hl, rfl, (hc.eq_of_getSubID hl hp hid hget).symm, rfl, hc.carries l hl⟩
    intro l hl hpub hup
    cases hc.upstream_eq hl hpub hup
    subst hpub
    obtain ⟨rs', hp⟩ := hc.inPlace l hl
    cases hp.incoming.symm.trans hin
    obtain ⟨id, -, hk⟩ := hp.subscriber
    obtain ⟨sub, hsub, hstream⟩ := map_eq_some_iff.mp hp.entry
    obtain ⟨j, hget⟩ := exists_getSubID hsub (hstream ▸ hid) (mem_order_of_ranges hr hsub)
    cases hc.eq_of_getSubID hl hp hid hget
    exact ⟨⟨id, hk⟩, hget⟩

/-! ### Calls that make no subscription -/

theorem createSession (hfresh : ∀ h, r.idOf h ≠ some id) : (r.createSession id).Coherent where
  wellFormed := hc.wellFormed.createSession id
  ids h h' i hh hh' := by
    rw [idOf_createSession] at hh hh'
    split at hh <;> split at hh'
    · next hx hx' => exact hx.trans hx'.symm
    · cases hh
      exact absurd hh' (hfresh h')
    · cases hh'
      exact absurd hh (hfresh h)
    · exact hc.ids h h' i hh hh'
  inPlace l hl := by
    obtain ⟨rs, hp⟩ := hc.inPlace l hl
    obtain ⟨k, hk, hsub⟩ := hp.subscriber
    refine ⟨rs, (incoming_createSession _ _).trans hp.incoming, ?_, k, idOf_createSession_of_some hk, hsub⟩
    rw [subscribed_createSession, hp.entry]
  carries l hl := by
    obtain ⟨rs, m, hin, hm⟩ := hc.carries l hl
    exact ⟨rs, m, (incoming_createSession _ _).trans hin, hm⟩
  served rs k h hk := by
    obtain ⟨hid, l, hl, hsess, hin⟩ := hc.served rs k h hk
    exact ⟨idOf_createSession_of_some hid, l, hl, hsess, (incoming_createSession _ _).trans hin⟩
  single l hl i sub hsub := hc.single l hl i sub (subscribed_createSession _ _ ▸ hsub)
  shared p u u' n t hu hu' := by
    obtain ⟨rs, m, hin, hm⟩ := hu
    obtain ⟨rs', m', hin', hm'⟩ := hu'
    rw [incoming_createSession] at hin hin'
    exact hc.shared p u u' n t ⟨rs, m, hin, hm⟩ ⟨rs', m', hin', hm'⟩

/-- Sessions leave streams, and the subscriptions for which they were there are gone with them. -/
theorem of_removal (hw : r'.WellFormed) (hsame : r.Same r') (hlive : ∀ l ∈ r'.live, l ∈ r.live)
    (hkept : ∀ l ∈ r'.live, ∀ rs id, r.InPlace l rs → r.idOf l.session = some id →
      r'.subscribers rs id = r.subscribers rs id)
    (hleft : ∀ rs k h, r'.subscribers rs k = some h → r.subscribers rs k = some h ∧
      ∀ l ∈ r.live, l.session = h → r.InPlace l rs → l ∈ r'.live) :
    r'.Coherent where
  wellFormed := hw
  ids h h' id hh hh' := hc.ids h h' id (hsame.idOf h ▸ hh) (hsame.idOf h' ▸ hh')
  inPlace l hl := by
    obtain ⟨rs, hp⟩ := hc.inPlace l (hlive l hl)
    obtain ⟨id, hid, hk⟩ := hp.subscriber
    refine ⟨rs, (hsame.incoming _ _).trans hp.incoming, ?_, id, (hsame.idOf _).trans hid,
      (hkept l hl rs id hp hid).trans hk⟩
    rw [hsame.subscribed, hp.entry]
  carries l hl := by
    simpa only [Carries, hsame.incoming, hsame.forwarded] using hc.carries l (hlive l hl)
  served rs k h hk := by
    obtain ⟨hk, hmem⟩ := hleft rs k h hk
    obtain ⟨hid, l, hl, hsess, hin⟩ := hc.served rs k h hk
    obtain ⟨rs', hp⟩ := hc.inPlace l hl
    cases hp.incoming.symm.trans hin
    exact ⟨(hsame.idOf h).trans hid, l, hmem l hl hsess hp, hsess, (hsame.incoming _ _).trans hin⟩
  single l hl i sub hsub := hc.single l (hlive l hl) i sub (hsame.subscribed _ _ ▸ hsub)
  shared := by simpa only [Carries, hsame.incoming, hsame.forwarded] using hc.shared

theorem of_same (hw : r'.WellFormed) (hsame : r.Same r') (hsubs : ∀ x k, r'.subscribers x k = r.subscribers x k)
    (hlive : r'.live = r.live) : r'.Coherent := by
  refine hc.of_removal hw hsame (fun l hl => hlive ▸ hl) (fun l _ rs id _ _ => hsubs rs id) fun rs k h hk => ?_
  exact ⟨hsubs rs k ▸ hk, fun l hl _ _ => hlive ▸ hl⟩

theorem of_sent (sent : Multiset (Ref × Message)) : { r with sent := sent }.Coherent :=
  hc.of_same (hc.wellFormed.of_sent sent) (.of_handlers rfl fun _ => rfl) (fun _ _ => rfl) rfl

theorem unsubscribe {m : Unsubcribe} (hid : r.idOf h = some id) (hw : (r.handleUnsubscribe h id m).WellFormed) :
    (r.handleUnsubscribe h id m).Coherent := by
  have hsubs : ∀ x k, (r.handleUnsubscribe h id m).subscribers x k = _ := fun x k =>
    subscribers_leave (r := r) (h := h) x k
  refine hc.of_removal hw (same_handleUnsubscribe m) (fun l hl => (mem_live_handleUnsubscribe.mp hl).1) ?_ ?_
  · intro l hl rs k hp hk
    obtain ⟨hold, hne⟩ := mem_live_handleUnsubscribe.mp hl
    rw [hsubs, if_neg]
    -- the entry that was removed would be one of this subscription
    rintro ⟨rfl, hrs⟩
    obtain ⟨sub, hsub, rfl⟩ := map_eq_some_iff.mp hrs
    cases hc.ids l.session h k hk hid
    exact hne ⟨rfl, (hc.eq_of_streamID hold hp hsub rfl).symm⟩
  intro rs k x hk
  rw [hsubs] at hk
  split at hk
  · cases hk
  rename_i hnot
  refine ⟨hk, fun l hl hsess hp => mem_live_handleUnsubscribe.mpr ⟨hl, ?_⟩⟩
  rintro ⟨rfl, hsid⟩
  cases hsess
  refine hnot ⟨?_, hsid ▸ hp.entry⟩
  exact some.inj ((hc.served rs k _ hk).1.symm.trans hid)

theorem close (hid : r.idOf h = some id) (hall : r.subscribedKeys h ⊆ order.toFinset)
    (hw : (r.close h id order).WellFormed) : (r.close h id order).Coherent := by
  have hsubs : ∀ x k, (r.close h id order).subscribers x k = _ := fun x k =>
    subscribers_handleClose (h := h) order r x k
  refine hc.of_removal hw (same_close order) (fun l hl => (mem_live_close.mp hl).1) ?_ ?_
  · intro l hl rs k hp hk
    rw [hsubs, if_neg]
    rintro ⟨rfl, -⟩
    exact (mem_live_close.mp hl).2 (hc.ids l.session h k hk hid)
  intro rs k x hk
  rw [hsubs] at hk
  split at hk
  · cases hk
  rename_i hnot
  refine ⟨hk, fun l hl hsess hp => mem_live_close.mpr ⟨hl, ?_⟩⟩
  rintro rfl
  cases hsess
  obtain ⟨sub, hsub, -⟩ := map_eq_some_iff.mp hp.entry
  have hi : l.subID ∈ order := List.mem_toFinset.mp (hall (mem_subscribedKeys hsub))
  refine hnot ⟨?_, l.subID, hi, hp.entry⟩
  exact some.inj ((hc.served rs k _ hk).1.symm.trans hid)

omit hc

/-! ### Subscribes -/

theorem carries_of_sendSubscribe {subid : Nat} {pid : SessionId} {n t : GoString} (hw : r.WellFormed)
    (hpid : r.idOf pub = some pid) (hcar : (r.sendSubscribe pub m subid).Carries p u n t) :
    (p = pub ∧ u = subid ∧ m.trackNameSpace = n ∧ m.trackName = t) ∨ r.Carries p u n t := by
  obtain ⟨rs, m', hin, hm', hn, ht⟩ := hcar
  rw [incoming_sendSubscribe hpid] at hin
  split at hin
  · next heq =>
    cases hin
    rw [forwarded_sendSubscribe_new] at hm'
    cases hm'
    exact .inl ⟨heq.1, heq.2, hn, ht⟩
  obtain ⟨m'', hm'', -⟩ := hw.upstream p u rs hin
  rw [forwarded_sendSubscribe_of_some hm''] at hm'
  cases hm'
  exact .inr ⟨rs, m', hin, hm'', hn, ht⟩

/-- A publisher with a stream for the track gets no second one, unless a fresh copy is to be fetched. -/
theorem not_forwards_of_carries (hcar : r.Carries pub u m.trackNameSpace m.trackName)
    (hfresh : fetchesFresh m.trackName = false) : ¬ r.Forwards pub m := by
  obtain ⟨rs, m', hin, hm', hn, ht⟩ := hcar
  rintro (hf | hnone)
  · rw [hf] at hfresh
    cases hfresh
  refine hnone u rs hin ?_
  rw [streamID_eq_forwarded, hm', map_some, getStreamID, getStreamID, hn, ht]

theorem sendSubscribe {subid : Nat} {pid : SessionId} (hc : r.Coherent) (hpid : r.idOf pub = some pid)
    (hfw : r.Forwards pub m) (hfresh : r.incoming pub subid = none) : (r.sendSubscribe pub m subid).Coherent := by
  have hkeep : ∀ {p u rs}, r.incoming p u = some rs → (r.sendSubscribe pub m subid).incoming p u = some rs := by
    intro p u rs hin
    rw [incoming_sendSubscribe hpid, if_neg, hin]
    rintro ⟨rfl, rfl⟩
    rw [hfresh] at hin
    cases hin
  refine ⟨hc.wellFormed.sendSubscribe hpid, ?_, ?_, ?_, ?_, ?_, ?_⟩
  · intro h h' id hh hh'
    rw [idOf_sendSubscribe] at hh hh'
    exact hc.ids h h' id hh hh'
  · intro l hl
    obtain ⟨rs, hp⟩ := hc.inPlace l hl
    refine ⟨rs, hkeep hp.incoming, ?_, ?_⟩
    · rw [subscribed_sendSubscribe, hp.entry]
    · simpa only [idOf_sendSubscribe, subscribers_sendSubscribe] using hp.subscriber
  · intro l hl
    obtain ⟨rs, m', hin, hm', hnames⟩ := hc.carries l hl
    exact ⟨rs, m', hkeep hin, forwarded_sendSubscribe_of_some hm', hnames⟩
  · intro rs k h hk
    rw [subscribers_sendSubscribe] at hk
    obtain ⟨hid, l, hl, hsess, hin⟩ := hc.served rs k h hk
    exact ⟨(idOf_sendSubscribe h).trans hid, l, hl, hsess, hkeep hin⟩
  · intro l hl i sub hsub
    rw [subscribed_sendSubscribe] at hsub
    exact hc.single l hl i sub hsub
  intro p u u' n t hu hu' hf
  rcases carries_of_sendSubscribe hc.wellFormed hpid hu with ⟨rfl, rfl, rfl, rfl⟩ | hold <;>
    rcases carries_of_sendSubscribe hc.wellFormed hpid hu' with ⟨heq, rfl, hn, ht⟩ | hold'
  · rfl
  · exact absurd hfw (not_forwards_of_carries hold' hf)
  · subst heq hn ht
    exact absurd hfw (not_forwards_of_carries hold hf)
  · exact hc.shared p u u' n t hold hold' hf

section Attach

variable {m' : Subscribe} (hc : r.Coherent) (hid : r.idOf h = some id) (hm' : r.forwarded rs = some m')
  (hfirst : ∀ i sub, r.subscribed h i = some sub →
    streamIDOf sub.trackNameSpace sub.trackName = getStreamID m → i = m.subscribeID)
  (hunused : ∀ sub, r.subscribed h m.subscribeID = some sub → r.subscribers sub.stream id = none)

include hc hid hunused in
/-- The entry that a Subscribe replaces is not that of a live subscription. -/
theorem not_replaced (hl : l ∈ r.live) : ¬ (l.session = h ∧ l.subID = m.subscribeID) := by
  rintro ⟨hsess, hsub⟩
  obtain ⟨rs', hp⟩ := hc.inPlace l hl
  obtain ⟨k, hk, hsubs⟩ := hp.subscriber
  obtain ⟨sub, hentry, rfl⟩ := map_eq_some_iff.mp hp.entry
  rw [hsess] at hk hsubs hentry
  rw [hsub] at hentry
  cases hk.symm.trans hid
  rw [hunused sub hentry] at hsubs
  cases hsubs

include hc hid hm' hunused in
theorem inPlace_attach {rs' : Ref} (hl : l ∈ r.live) (hp : r.InPlace l rs') :
    (r.attach h id pub m rs).InPlace l rs' := by
  obtain ⟨k, hk, hsubs⟩ := hp.subscriber
  refine ⟨(incoming_attach _ _).trans hp.incoming, ?_, k, (idOf_attach _).trans hk, ?_⟩
  · rw [subscribed_attach hid, if_neg (hc.not_replaced hid hunused hl), hp.entry]
  rw [subscribers_attach hm']
  split
  · next heq => rw [hc.ids l.session h k hk (heq.2 ▸ hid)]
  · exact hsubs

include hc hid hm' hfirst hunused in
theorem attach (hin : r.incoming pub u = some rs) (hn : m'.trackNameSpace = m.trackNameSpace)
    (ht : m'.trackName = m.trackName) : (r.attach h id pub m rs).Coherent := by
  have hu : m'.subscribeID = u := by
    obtain ⟨m'', hm'', hu⟩ := hc.wellFormed.upstream pub u rs hin
    cases hm'.symm.trans hm''
    exact hu
  have hid' : getStreamID m' = getStreamID m := by rw [getStreamID, getStreamID, hn, ht]
  refine ⟨hc.wellFormed.attach hid hm' hid', ?_, ?_, ?_, ?_, ?_, ?_⟩
  · intro x x' k hx hx'
    rw [idOf_attach] at hx hx'
    exact hc.ids x x' k hx hx'
  · intro l hl
    rw [live_attach hm'] at hl
    rcases List.mem_cons.mp hl with rfl | hl
    · refine ⟨rs, (incoming_attach _ _).trans (hu ▸ hin), ?_, id, (idOf_attach _).trans hid, ?_⟩
      · rw [subscribed_attach hid, if_pos ⟨rfl, rfl⟩]
        rfl
      · rw [subscribers_attach hm', if_pos ⟨rfl, rfl⟩]
    · obtain ⟨rs', hp⟩ := hc.inPlace l hl
      exact ⟨rs', hc.inPlace_attach hid hm' hunused hl hp⟩
  · intro l hl
    rw [live_attach hm'] at hl
    simp only [Carries, incoming_attach, forwarded_attach]
    rcases List.mem_cons.mp hl with rfl | hl
    · exact ⟨rs, m', hu ▸ hin, hm', hn, ht⟩
    · exact hc.carries l hl
  · intro x k y hk
    rw [subscribers_attach hm'] at hk
    simp only [idOf_attach, incoming_attach, live_attach hm']
    split at hk
    · next heq =>
      cases hk
      rw [heq.1, heq.2]
      exact ⟨hid, _, List.mem_cons_self, rfl, hu ▸ hin⟩
    · obtain ⟨hy, l, hl, hsess, hlin⟩ := hc.served x k y hk
      exact ⟨hy, l, List.mem_cons_of_mem _ hl, hsess, hlin⟩
  · intro l hl i sub hsub hsid
    rw [subscribed_attach hid] at hsub
    rcases List.mem_cons.mp hl with rfl | hl
    · split at hsub
      · next heq => exact heq.2
      · exact hfirst i sub hsub hsid
    split at hsub
    · next heq =>
      -- an older subscription with the stream id has the subscribe id of the new one
      cases hsub
      obtain ⟨rs', hp⟩ := hc.inPlace l hl
      obtain ⟨sub', hsub', hstream⟩ := map_eq_some_iff.mp hp.entry
      have hown := hc.streamID_of_inPlace hl hp
      rw [← hstream, hc.streamID_of_entry hsub'] at hown
      rw [heq.1] at hsub'
      exact heq.2.trans (hfirst l.subID sub' hsub' ((some.inj hown).trans hsid.symm)).symm
    · exact hc.single l hl i sub hsub hsid
  · simpa only [Carries, incoming_attach, forwarded_attach] using hc.shared

end Attach

theorem names_of_streamID {m' : Subscribe} (heq : getStreamID m' = getStreamID m)
    (hconf : ¬ Confusable m'.trackNameSpace m'.trackName m.trackNameSpace m.trackName) :
    m'.trackNameSpace = m.trackNameSpace ∧ m'.trackName = m.trackName :=
  (streamIDOf_eq_iff.mp heq).resolve_right hconf

theorem subscribe {rand : UInt32} (hc : r.Coherent) (hok : r.Orderly (.subscribe h m order rand))
    (hs : r.step (.subscribe h m order rand) = some r') : r'.Coherent := by
  obtain ⟨id, hid, rfl | ⟨pub, hpub, hcases⟩⟩ := step_subscribe hs
  · exact hc.of_sent 0
  obtain ⟨hfirst, hunused, hfresh, hconf⟩ := hok pub hpub
  have hfirst' : ∀ i sub, r.subscribed h i = some sub →
      streamIDOf sub.trackNameSpace sub.trackName = getStreamID m → i = m.subscribeID := fun i sub hsub hsid =>
    hfirst i sub hsub ((hc.streamID_of_entry hsub).trans (congrArg some hsid))
  rcases hcases with ⟨hfw, rfl⟩ | ⟨u, rs, m', ok, hin, hm', heq, rfl⟩
  · obtain ⟨pid, hpid⟩ := hc.wellFormed.publisher _ pub hpub
    have hsent := (hc.of_sent 0).sendSubscribe hpid hfw (hfresh hfw)
    refine hsent.attach ((idOf_sendSubscribe h).trans hid) forwarded_sendSubscribe_new ?_ ?_
      (incoming_sendSubscribe_new hpid) rfl rfl
    · intro i sub hsub
      rw [subscribed_sendSubscribe] at hsub
      exact hfirst' i sub hsub
    intro sub hsub
    rw [subscribed_sendSubscribe] at hsub
    exact (subscribers_sendSubscribe _ _).trans (hunused sub id hsub hid)
  · obtain ⟨hn, ht⟩ := names_of_streamID heq (hconf u rs m' hin hm')
    exact (hc.of_sent _).attach hid hm' hfirst' (fun sub hsub => hunused sub id hsub hid) hin hn ht

theorem step (hc : r.Coherent) (hok : r.Orderly e) (hs : r.step e = some r') : r'.Coherent := by
  have hw := hc.wellFormed.step hs
  obtain ⟨hr, hh⟩ := step_eq_some.mp hs
  cases e with
  | createSession id =>
    cases hh
    exact (hc.of_sent 0).createSession hok
  | subscribe h m order rand => exact hc.subscribe hok hs
  | unsubscribe h m =>
    obtain ⟨id, hid, rfl⟩ := map_eq_some_iff.mp hh
    exact (hc.of_sent 0).unsubscribe hid hw
  | close h order =>
    obtain ⟨id, hid, rfl⟩ := map_eq_some_iff.mp hh
    exact (hc.of_sent 0).close hid (of_decide_eq_true hr) hw
  | announce h m =>
    have hsame := same_step hs (by simp) (by simp)
    obtain ⟨id, hid, rfl⟩ := map_eq_some_iff.mp hh
    exact hc.of_same hw hsame (fun _ _ => rfl) rfl
  | _ =>
    have hsame := same_step hs (by simp) (by simp)
    cases hh
    exact hc.of_same hw hsame (fun _ _ => rfl) rfl

theorem empty : Coherent {} where
  wellFormed := .empty
  ids h h' id hh := by cases hh
  inPlace l hl := by cases hl
  carries l hl := by cases hl
  served rs k h hk := by cases hk
  single l hl := by cases hl
  shared p u u' n t hu := by
    obtain ⟨rs, m, hin, -⟩ := hu
    cases hin

theorem consistent (hc : r.Coherent) (e : Event) : r.Consistent e := by
  cases e with
  | objectStream p u orders => exact hc.objectStream p u orders
  | unsubscribe h m =>
    intro r' hs l hl hne
    have hc' := hc.step (e := .unsubscribe h m) trivial hs
    obtain ⟨-, hh⟩ := step_eq_some.mp hs
    obtain ⟨id, -, rfl⟩ := map_eq_some_iff.mp hh
    have hl' : l ∈ ({ r with sent := 0 }.handleUnsubscribe h id m).live := mem_live_handleUnsubscribe.mpr ⟨hl, hne⟩
    exact ⟨hl', hc'.inPlace l hl'⟩
  | _ => trivial

end Coherent

/-- Every stream of objects goes to exactly the live subscriptions it is for, and to unsubscribe leaves the others in
place, if sessions subscribe to a track once, under unused subscribe ids, and neither the random ids nor the names of
tracks collide. -/
theorem subscriptions_consistent {ls : List Event} (ha : LTS.Along step Orderly {} ls) :
    LTS.Along step Consistent {} ls := by
  have hstep : ∀ r e r', Coherent r → r.Orderly e → r.step e = some r' → Coherent r' := fun r e r' => Coherent.step
  exact LTS.Along.of_invariant (fun r e hc _ => hc.consistent e) hstep .empty ha

/-- Two sessions subscribe to the track `b` in the namespace `a`, and one of them leaves. -/
theorem subscriptions_consistent_two_sessions :
    let m : Subscribe := { trackNameSpace := ⟨[0x61], by decide⟩, trackName := ⟨[0x62], by decide⟩ }
    let ls : List Event := [.createSession [1], .createSession [2], .createSession [3],
      .announce 0 { trackNameSpace := m.trackNameSpace }, .subscribe 1 m [] 7, .subscribe 2 m [7] 8,
      .objectStream 0 7 (fun _ => [0]), .unsubscribe 1 { subscriptionID := 0 }, .objectStream 0 7 (fun _ => [0])]
    (LTS.run step {} ls).isSome ∧ LTS.Along step Consistent {} ls := by
  intro m ls
  refine ⟨by decide +kernel, subscriptions_consistent ?_⟩
  refine .cons (fun h => ?_) rfl (.cons (fun h => ?_) rfl (.cons (fun h => ?_) rfl (.cons trivial rfl (.cons ?_ rfl
    ⟨?_, fun _ _ => ⟨trivial, fun _ _ => ⟨trivial, fun _ _ => ⟨trivial, fun _ _ => trivial⟩⟩⟩⟩))))
  · rintro ⟨⟩
  · rcases h with _ | h
    · decide
    · rintro ⟨⟩
  · rcases h with _ | _ | h
    · decide
    · decide
    · rintro ⟨⟩
  · intro pub hpub
    cases hpub
    refine ⟨fun i sub hsub => ?_, fun sub id hsub => ?_, fun _ => rfl, fun u rs m' hin => ?_⟩
    · cases hsub
    · cases hsub
    · cases hin
  intro pub hpub
  cases hpub
  refine ⟨fun i sub hsub => ?_, fun sub id hsub => ?_, fun _ => ?_, fun u rs m' hin hm' => ?_⟩
  · cases hsub
  · cases hsub
  · rfl
  change (Finmap.insert 7 0 (∅ : Table Nat Ref)).lookup u = some rs at hin
  rw [Table.lookup_insert_eq] at hin
  split at hin
  · cases hin
    cases hm'
    exact not_confusable_self
  · cases hin

/-- One session subscribes twice to a track. Only the first subscription is served, and to unsubscribe it ends the
second. If the session subscribes again after it has left, it is served under the subscribe id that it has removed. -/
theorem unsubscribe_ends_other_subscription :
    let m : Subscribe := { trackNameSpace := ⟨[0x61], by decide⟩, trackName := ⟨[0x62], by decide⟩ }
    let live (subid : Nat) : Live :=
      { session := 1, subID := subid, trackNameSpace := m.trackNameSpace, trackName := m.trackName
        publisher := 0, upstream := 7 }
    let start : List Event :=
      [.createSession [1], .createSession [2], .announce 0 { trackNameSpace := m.trackNameSpace }, .subscribe 1 m [] 7]
    let again : Event := .subscribe 1 { m with subscribeID := 1 } [7] 8
    let unsubscribe : Event := .unsubscribe 1 { subscriptionID := 0 }
    (∃ r r', LTS.run step {} (start ++ [again]) = some r ∧ r.step unsubscribe = some r' ∧
      r.live = [live 1, live 0] ∧ r.handleObjectStream 0 7 (fun _ => [0, 1]) = {(1, 0)} ∧
      r'.live = [live 1] ∧ r'.handleObjectStream 0 7 (fun _ => [0, 1]) = 0) ∧
    ∃ r, LTS.run step {} (start ++ [unsubscribe, again]) = some r ∧
      r.live = [live 1] ∧ r.handleObjectStream 0 7 (fun _ => [0, 1]) = {(1, 0)} := by
  refine ⟨⟨_, _, rfl, rfl, ?_⟩, _, rfl, ?_⟩
  · decide +kernel
  · decide +kernel

end Relay

end MoqQuic.L4.Moqt
