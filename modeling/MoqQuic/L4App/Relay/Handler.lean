import MoqQuic.Core.Table
import MoqQuic.L3Protocol.Moqt.ControlStream

/-!
# The relay (`moqt/relayhandler.go`, `relaystream.go`, `streamsmap.go`, `sessionmanager.go`)

A relay has a session, with its `RelayHandler`, for every peer. A peer that
announces a namespace is entered as its publisher. A Subscribe is attached to
a `RelayStream` of the publisher, an old one with the same stream id or a new
one for which the Subscribe is forwarded; the stream keeps its subscribers by
session id, the session keeps its streams by subscribe id. Streams of objects
that the publisher opens go to all subscribers of their `RelayStream`.

Handlers and relay streams are shared by pointers: a `Ref` is a position in
the list of all that were allocated. Go ranges over a map in any order, so the
order is part of the input where the first hit counts. `sent` is what the last
call has written to the control streams. Ghosts are the Subscribe a relay
stream was made for (`forwarded`), the namespace and the track in a
`Subscription`, and the list `live` of the subscriptions that were made and
neither removed nor ended by the end of their session.
-/
namespace MoqQuic.L4.Moqt
open Reader (Bytes)
open L1.Quicvarint (GoString)
open L3.Moqt Option Table

abbrev Ref := Nat

/-- The key of `sm.sessions` and of `Subscribers`. -/
abbrev SessionId := Bytes

/-- `fmt.Sprintf("%s_%s", s.TrackNameSpace, s.TrackName)`. mirrors subscribe.go:147-149 -/
def streamIDOf (trackNameSpace trackName : GoString) : Bytes := trackNameSpace.data ++ 0x5F :: trackName.data

def getStreamID (m : Subscribe) : Bytes := streamIDOf m.trackNameSpace m.trackName

/-- Only `SendSubscribe` makes a relay stream, with the ids of the Subscribe that it forwards. -/
structure RelayStream where
  subID : Nat
  streamID : Bytes
  subscribers : Table SessionId Ref := ∅
  forwarded : Subscribe
  subID_eq : subID = forwarded.subscribeID
  streamID_eq : streamID = getStreamID forwarded

structure Subscription where
  stream : Ref
  trackNameSpace : GoString
  trackName : GoString
  deriving DecidableEq

structure RelayHandler where
  id : SessionId
  remoteRole : Nat := 0
  incomingStreams : Table Nat Ref := ∅
  subscribedStreams : Table Nat Subscription := ∅

/-- A subscription of a session, and the subscription of the relay at the publisher that it is served from. -/
structure Live where
  session : Ref
  subID : Nat
  trackNameSpace : GoString
  trackName : GoString
  publisher : Ref
  upstream : Nat
  deriving DecidableEq

structure Relay where
  handlers : List RelayHandler := []
  streams : List RelayStream := []
  sessions : Table SessionId Ref := ∅
  namespaces : Table Bytes Ref := ∅
  sent : Multiset (Ref × Message) := 0
  live : List Live := []

/-- `strings.Contains` -/
def contains (s sub : Bytes) : Bool := s.tails.any sub.isPrefixOf

/-- The track name has ".catalog" or ".mp4" in it: a fresh copy is fetched. -/
def fetchesFresh (trackName : GoString) : Bool :=
  contains trackName.data [0x2E, 0x63, 0x61, 0x74, 0x61, 0x6C, 0x6F, 0x67] ||
    contains trackName.data [0x2E, 0x6D, 0x70, 0x34]

namespace Relay

/-! ## What the tables hold -/

variable (r : Relay)

def idOf (h : Ref) : Option SessionId := r.handlers[h]?.map (·.id)

def incoming (p : Ref) (subid : Nat) : Option Ref :=
  r.handlers[p]?.bind (·.incomingStreams.lookup subid)

def subscribed (h : Ref) (subid : Nat) : Option Subscription :=
  r.handlers[h]?.bind (·.subscribedStreams.lookup subid)

def subscribers (rs : Ref) (id : SessionId) : Option Ref :=
  r.streams[rs]?.bind (·.subscribers.lookup id)

def streamID (rs : Ref) : Option Bytes := r.streams[rs]?.map (·.streamID)

def forwarded (rs : Ref) : Option Subscribe := r.streams[rs]?.map (·.forwarded)

/-- The session is the one that `sm.sessions` has under its id. -/
def InSessions (h : Ref) : Prop := (r.idOf h).any fun id => r.sessions.lookup id = some h

instance (h : Ref) : Decidable (r.InSessions h) := inferInstanceAs (Decidable (_ = true))

/-! ## Handlers -/

def write (h : Ref) (m : Message) : Relay := { r with sent := (h, m) ::ₘ r.sent }

def updateHandler (h : Ref) (f : RelayHandler → RelayHandler) : Relay :=
  { r with handlers := r.handlers.modify h f }

def updateStream (rs : Ref) (f : RelayStream → RelayStream) : Relay :=
  { r with streams := r.streams.modify rs f }

/-- mirrors moqtsession.go:47-69, sessionmanager.go:33-40 -/
def createSession (id : SessionId) : Relay :=
  { r with handlers := r.handlers ++ [{ id }], sessions := r.sessions.insert id r.handlers.length }

/-- mirrors relaystream.go:43-48 -/
def addSubscriber (rs h : Ref) (id : SessionId) : Relay :=
  r.updateStream rs fun s => { s with subscribers := s.subscribers.insert id h }

/-- mirrors relaystream.go:50-55 -/
def removeSubscriber (rs : Ref) (id : SessionId) : Relay :=
  r.updateStream rs fun s => { s with subscribers := s.subscribers.erase id }

/-- The first subscribe id, in the order of the range, whose stream has the stream id.
mirrors streamsmap.go:28-40 -/
def getSubID (h : Ref) (streamid : Bytes) (order : List Nat) : Option Nat :=
  order.find? fun subid => (r.subscribed h subid).any fun sub => r.streamID sub.stream = some streamid

/-- mirrors streamsmap.go:42-54 -/
def streamIDGetStream (p : Ref) (streamid : Bytes) (order : List Nat) : Option Ref :=
  order.findSome? fun subid => (r.incoming p subid).filter fun rs => r.streamID rs = some streamid

def newRelayStream (m : Subscribe) (subid : Nat) : RelayStream :=
  { subID := subid, streamID := getStreamID m
    forwarded := { m with subscribeID := subid }, subID_eq := rfl, streamID_eq := rfl }

/-- The random subscribe id replaces whatever the publisher has under it. mirrors relayhandler.go:46-60 -/
def sendSubscribe (pub : Ref) (m : Subscribe) (subid : Nat) : Relay :=
  { r with
    streams := r.streams ++ [newRelayStream m subid]
    handlers := r.handlers.modify pub fun p =>
      { p with incomingStreams := p.incomingStreams.insert subid r.streams.length }
    sent := (pub, .subscribe { m with subscribeID := subid }) ::ₘ r.sent }

/-- Whether the stream was there, the relay, and the stream. mirrors relayhandler.go:64-74 -/
def getObjectStream (pub : Ref) (m : Subscribe) (order : List Nat) (rand : UInt32) : Bool × Relay × Ref :=
  match r.streamIDGetStream pub (getStreamID m) order with
  | some rs =>
    if fetchesFresh m.trackName then (false, r.sendSubscribe pub m rand.toNat, r.streams.length) else (true, r, rs)
  | none => (false, r.sendSubscribe pub m rand.toNat, r.streams.length)

/-- mirrors relayhandler.go:201-205 -/
def attach (h : Ref) (id : SessionId) (pub : Ref) (m : Subscribe) (rs : Ref) : Relay :=
  let r := r.addSubscriber rs h id
  let r := r.updateHandler h fun s =>
    { s with
      subscribedStreams := s.subscribedStreams.insert m.subscribeID
        { stream := rs, trackNameSpace := m.trackNameSpace, trackName := m.trackName } }
  { r with
    live := { session := h, subID := m.subscribeID, trackNameSpace := m.trackNameSpace, trackName := m.trackName
              publisher := pub, upstream := (r.streams[rs]?.map (·.subID)).getD 0 } :: r.live }

/-- mirrors relayhandler.go:174-206 -/
def handleSubscribe (h : Ref) (id : SessionId) (m : Subscribe) (order : List Nat) (rand : UInt32) : Relay :=
  match r.namespaces.lookup m.trackNameSpace.data with
  | none => r
  | some pub =>
    let (isCached, r, rs) := r.getObjectStream pub m order rand
    let r := if isCached then
        r.write h (.subscribeOk { subscribeID := m.subscribeID, expires := 1024, contentExists := 0 })
      else r
    r.attach h id pub m rs

/-- The session leaves the stream under the subscribe id; the entry in `SubscribedStreams` stays. -/
def leave (h : Ref) (id : SessionId) (subid : Nat) : Relay :=
  match r.subscribed h subid with
  | some sub => r.removeSubscriber sub.stream id
  | none => r

/-- mirrors relayhandler.go:212-222 -/
def handleUnsubscribe (h : Ref) (id : SessionId) (m : Unsubcribe) : Relay :=
  let r := r.leave h id m.subscriptionID
  { r with live := r.live.filter fun l => !(l.session = h && l.subID = m.subscriptionID) }

/-- The sessions that are told of an announcement: relays and subscribers under another id.
mirrors sessionmanager.go:55-66 -/
def announced (id : SessionId) : Multiset Ref :=
  r.sessions.entries.filterMap fun entry =>
    r.handlers[entry.2]?.bind fun peer =>
      if (peer.remoteRole = ROLE_RELAY ∨ peer.remoteRole = ROLE_SUBSCRIBER) ∧ peer.id ≠ id then some entry.2
      else none

/-- mirrors relayhandler.go:146-156, sessionmanager.go:50-69 -/
def handleAnnounce (h : Ref) (id : SessionId) (m : Announce) : Relay :=
  let r := { r with
    namespaces := r.namespaces.insert m.trackNameSpace.data h
    sent := (r.announced id).map (fun peer => (peer, Message.announce { trackNameSpace := m.trackNameSpace })) +
      r.sent }
  r.write h (.announceOk { trackNameSpace := m.trackNameSpace })

/-- The streams that `ProcessMOQTStream` opens: the subscriber, and the subscribe id in the header. A subscriber
without an entry is skipped. mirrors relaystream.go:67-76, relayhandler.go:76-95 -/
def forwardStream (rs : RelayStream) (orders : Ref → List Nat) : Multiset (Ref × Nat) :=
  rs.subscribers.entries.filterMap fun entry =>
    (r.getSubID entry.2 rs.streamID (orders entry.2)).map fun subid => (entry.2, subid)

/-- mirrors relayhandler.go:134-139 -/
def handleObjectStream (p : Ref) (subid : Nat) (orders : Ref → List Nat) : Multiset (Ref × Nat) :=
  match (r.incoming p subid).bind fun rs => r.streams[rs]? with
  | some rs => r.forwardStream rs orders
  | none => 0

/-- mirrors relayhandler.go:38-43, 159-167, relaystream.go:57-65 -/
def handleSubscribeOk (p : Ref) (m : SubscribeOk) (orders : Ref → List Nat) : Relay :=
  { r with
    sent := (r.handleObjectStream p m.subscribeID orders).map
      (fun (h, subid) => (h, Message.subscribeOk { m with subscribeID := subid })) + r.sent }

/-- mirrors relayhandler.go:32-36 -/
def handleClose (h : Ref) (id : SessionId) (order : List Nat) : Relay :=
  order.foldl (fun r subid => r.leave h id subid) r

/-- The namespaces of the session stay. mirrors moqtsession.go:74-83, sessionmanager.go:42-48 -/
def close (h : Ref) (id : SessionId) (order : List Nat) : Relay :=
  let r := r.handleClose h id order
  { r with sessions := r.sessions.erase id, live := r.live.filter fun l => !(l.session = h) }

end Relay

/-! ## Runs -/

inductive Event where
  | createSession (id : SessionId)
  | setRemoteRole (h : Ref) (role : Nat)
  | announce (h : Ref) (m : Announce)
  | subscribe (h : Ref) (m : Subscribe) (order : List Nat) (rand : UInt32)
  | subscribeOk (h : Ref) (m : SubscribeOk) (orders : Ref → List Nat)
  | unsubscribe (h : Ref) (m : Unsubcribe)
  | objectStream (h : Ref) (subid : Nat) (orders : Ref → List Nat)
  | close (h : Ref) (order : List Nat)

namespace Relay

variable (r : Relay)

def incomingKeys (p : Ref) : Finset Nat := (r.handlers[p]?.map (·.incomingStreams.keys)).getD ∅

def subscribedKeys (h : Ref) : Finset Nat := (r.handlers[h]?.map (·.subscribedStreams.keys)).getD ∅

/-- The order of a range has all keys of the map. -/
def ranges : Event → Bool
  | .subscribe _ m order _ =>
    (r.namespaces.lookup m.trackNameSpace.data).all fun pub => r.incomingKeys pub ⊆ order.toFinset
  | .subscribeOk _ _ orders => (List.range r.handlers.length).all fun h => r.subscribedKeys h ⊆ (orders h).toFinset
  | .objectStream _ _ orders =>
    (List.range r.handlers.length).all fun h => r.subscribedKeys h ⊆ (orders h).toFinset
  | .close h order => r.subscribedKeys h ⊆ order.toFinset
  | _ => true

def handle : Event → Option Relay
  | .createSession id => some (r.createSession id)
  | .setRemoteRole h role => some (r.updateHandler h fun s => { s with remoteRole := role })
  | .announce h m => (r.idOf h).map fun id => r.handleAnnounce h id m
  | .subscribe h m order rand => (r.idOf h).map fun id => r.handleSubscribe h id m order rand
  | .subscribeOk h m orders => some (r.handleSubscribeOk h m orders)
  | .unsubscribe h m => (r.idOf h).map fun id => r.handleUnsubscribe h id m
  | .objectStream _ _ _ => some r
  | .close h order => (r.idOf h).map fun id => r.close h id order

def step (e : Event) : Option Relay := if r.ranges e then { r with sent := 0 }.handle e else none

/-! ## The tables after an operation -/

variable {r : Relay} {h p pub rs : Ref} {id : SessionId} {m : Subscribe} {subid : Nat}

theorem handler_of_idOf (hid : r.idOf h = some id) : ∃ s, r.handlers[h]? = some s ∧ s.id = id :=
  map_eq_some_iff.mp hid
variable {rand : UInt32} {e : Event} (x : Ref) (i : Nat) (k : SessionId)

theorem streamID_eq_forwarded : r.streamID x = (r.forwarded x).map getStreamID := by
  rw [streamID, forwarded, map_map]
  exact congrArg (Option.map · _) (funext RelayStream.streamID_eq)

theorem inSessions_iff : r.InSessions h ↔ ∃ id, r.idOf h = some id ∧ r.sessions.lookup id = some h := by
  simp [InSessions, any_eq_true]

theorem idOf_createSession : (r.createSession id).idOf x = if x = r.handlers.length then some id else r.idOf x := by
  simp only [idOf, createSession, Heap.getElem?_alloc]
  split <;> rfl

theorem idOf_createSession_of_some {x : Ref} {k : SessionId} (hx : r.idOf x = some k) :
    (r.createSession id).idOf x = some k := by
  rw [idOf_createSession, if_neg, hx]
  rintro rfl
  simp [idOf] at hx

theorem incoming_createSession (u : Nat) : (r.createSession id).incoming x u = r.incoming x u := by
  simp only [incoming, createSession, Heap.getElem?_alloc]
  split
  · next hx =>
    subst hx
    simp
  · rfl

theorem subscribed_createSession : (r.createSession id).subscribed x i = r.subscribed x i := by
  simp only [subscribed, createSession, Heap.getElem?_alloc]
  split
  · next hx =>
    subst hx
    simp
  · rfl

/-! ### `attach` -/

theorem idOf_attach : (r.attach h id pub m rs).idOf x = r.idOf x := by
  refine Heap.map_modify ?_ r.handlers h x
  exact fun _ => rfl

theorem incoming_attach (u : Nat) : (r.attach h id pub m rs).incoming x u = r.incoming x u := by
  refine Heap.bind_modify_of_keeps ?_ r.handlers h x
  exact fun _ => rfl

theorem forwarded_attach : (r.attach h id pub m rs).forwarded x = r.forwarded x := by
  refine Heap.map_modify ?_ r.streams rs x
  exact fun _ => rfl

theorem subscribed_attach (hid : r.idOf h = some id) (x : Ref) (i : Nat) : (r.attach h id pub m rs).subscribed x i =
      if x = h ∧ i = m.subscribeID then
        some { stream := rs, trackNameSpace := m.trackNameSpace, trackName := m.trackName }
      else r.subscribed x i := by
  obtain ⟨s, hs, -⟩ := handler_of_idOf hid
  refine (Heap.bind_modify _ r.handlers h x).trans ?_
  by_cases hx : x = h
  · subst hx
    simp only [if_true, true_and, subscribed, hs, bind_some, lookup_insert_eq]
  · simp only [hx, if_false, false_and, subscribed]

variable {m' : Subscribe}

theorem subscribers_attach (hrs : r.forwarded rs = some m') (x : Ref) (k : SessionId) :
    (r.attach h id pub m rs).subscribers x k = if x = rs ∧ k = id then some h else r.subscribers x k := by
  obtain ⟨s, hs, -⟩ := map_eq_some_iff.mp hrs
  refine (Heap.bind_modify _ r.streams rs x).trans ?_
  by_cases hx : x = rs
  · subst hx
    simp only [if_true, true_and, subscribers, hs, bind_some, lookup_insert_eq]
  · simp only [hx, if_false, false_and, subscribers]

theorem live_attach (hrs : r.forwarded rs = some m') : (r.attach h id pub m rs).live =
      { session := h, subID := m.subscribeID, trackNameSpace := m.trackNameSpace, trackName := m.trackName
        publisher := pub, upstream := m'.subscribeID } :: r.live := by
  obtain ⟨s, hs, rfl⟩ := map_eq_some_iff.mp hrs
  simp [attach, addSubscriber, updateStream, updateHandler, hs, s.subID_eq]

/-! ### `SendSubscribe` -/

theorem idOf_sendSubscribe : (r.sendSubscribe p m subid).idOf x = r.idOf x := by
  refine Heap.map_modify ?_ r.handlers p x
  exact fun _ => rfl

theorem subscribed_sendSubscribe : (r.sendSubscribe p m subid).subscribed x i = r.subscribed x i := by
  refine Heap.bind_modify_of_keeps ?_ r.handlers p x
  exact fun _ => rfl

theorem incoming_sendSubscribe (hid : r.idOf p = some id) (x : Ref) (u : Nat) :
    (r.sendSubscribe p m subid).incoming x u =
      if x = p ∧ u = subid then some r.streams.length else r.incoming x u := by
  obtain ⟨s, hs, -⟩ := handler_of_idOf hid
  refine (Heap.bind_modify _ r.handlers p x).trans ?_
  by_cases hx : x = p
  · subst hx
    simp only [if_true, true_and, incoming, hs, bind_some, lookup_insert_eq]
  · simp only [hx, if_false, false_and, incoming]

theorem incoming_sendSubscribe_new (hid : r.idOf p = some id) :
    (r.sendSubscribe p m subid).incoming p subid = some r.streams.length := by
  rw [incoming_sendSubscribe hid, if_pos ⟨rfl, rfl⟩]

theorem streams_sendSubscribe : (r.sendSubscribe p m subid).streams[x]? =
      if x = r.streams.length then some (newRelayStream m subid) else r.streams[x]? := by
  simp only [sendSubscribe, Heap.getElem?_alloc]

theorem forwarded_sendSubscribe : (r.sendSubscribe p m subid).forwarded x =
      if x = r.streams.length then some { m with subscribeID := subid } else r.forwarded x := by
  rw [forwarded, streams_sendSubscribe]
  split <;> rfl

theorem forwarded_sendSubscribe_new :
    (r.sendSubscribe p m subid).forwarded r.streams.length = some { m with subscribeID := subid } := by
  rw [forwarded_sendSubscribe, if_pos rfl]

theorem lt_of_forwarded {x : Ref} (hx : r.forwarded x = some m') : x < r.streams.length := by
  obtain ⟨s, hs, -⟩ := map_eq_some_iff.mp hx
  exact (List.getElem?_eq_some_iff.mp hs).1

theorem forwarded_sendSubscribe_of_some {x : Ref} (hx : r.forwarded x = some m') :
    (r.sendSubscribe p m subid).forwarded x = some m' := by
  rw [forwarded_sendSubscribe, if_neg (Nat.ne_of_lt (lt_of_forwarded hx)), hx]

theorem subscribers_sendSubscribe : (r.sendSubscribe p m subid).subscribers x k = r.subscribers x k := by
  rw [subscribers, streams_sendSubscribe]
  split
  · next hx =>
    subst hx
    simp [subscribers, newRelayStream]
  · rfl

/-! ### `RemoveSubscriber` and `HandleClose` -/

theorem forwarded_removeSubscriber : (r.removeSubscriber rs id).forwarded x = r.forwarded x := by
  refine Heap.map_modify ?_ r.streams rs x
  exact fun _ => rfl

theorem subscribers_removeSubscriber :
    (r.removeSubscriber rs id).subscribers x k = if x = rs ∧ k = id then none else r.subscribers x k := by
  refine (Heap.bind_modify _ r.streams rs x).trans ?_
  by_cases hx : x = rs
  · subst hx
    simp only [if_true, true_and, subscribers, lookup_erase_eq]
    cases r.streams[x]? with
    | none => simp
    | some s => rfl
  · simp only [hx, if_false, false_and, subscribers]

theorem leave_eq (r : Relay) (h : Ref) (id : SessionId) (subid : Nat) :
    ∃ streams, r.leave h id subid = { r with streams := streams } := by
  unfold leave
  split
  · exact ⟨_, rfl⟩
  · exact ⟨r.streams, rfl⟩

theorem forwarded_leave : (r.leave h id subid).forwarded x = r.forwarded x := by
  unfold leave
  split
  · exact forwarded_removeSubscriber x
  · rfl

theorem subscribers_leave : (r.leave h id subid).subscribers x k =
      if k = id ∧ (r.subscribed h subid).map (·.stream) = some x then none else r.subscribers x k := by
  unfold leave
  split
  · next sub hsub =>
    simp only [subscribers_removeSubscriber, hsub, map_some, Option.some.injEq, eq_comm, and_comm]
  · next hnone => simp [hnone]

theorem subscribed_leave : (r.leave h id subid).subscribed x i = r.subscribed x i := by
  obtain ⟨streams, heq⟩ := leave_eq r h id subid
  rw [heq]
  rfl

theorem handleClose_eq (h : Ref) (id : SessionId) (order : List Nat) (r : Relay) :
    ∃ streams, r.handleClose h id order = { r with streams := streams } := by
  induction order generalizing r with
  | nil => exact ⟨r.streams, rfl⟩
  | cons subid order ih =>
    obtain ⟨streams, heq⟩ := leave_eq r h id subid
    obtain ⟨streams', heq'⟩ := ih (r.leave h id subid)
    refine ⟨streams', heq'.trans ?_⟩
    rw [heq]

theorem forwarded_handleClose (order : List Nat) (r : Relay) (x : Ref) :
    (r.handleClose h id order).forwarded x = r.forwarded x := by
  induction order generalizing r with
  | nil => rfl
  | cons subid order ih => exact (ih (r.leave h id subid)).trans (forwarded_leave x)

/-- The session leaves the streams under the subscribe ids of the range, and no other. -/
theorem subscribers_handleClose (order : List Nat) (r : Relay) (x : Ref) (k : SessionId) :
    (r.handleClose h id order).subscribers x k =
      if k = id ∧ ∃ i ∈ order, (r.subscribed h i).map (·.stream) = some x then none else r.subscribers x k := by
  induction order generalizing r with
  | nil => simp [handleClose]
  | cons subid order ih =>
    refine (ih (r.leave h id subid)).trans ?_
    simp only [subscribed_leave, subscribers_leave, List.exists_mem_cons_iff]
    by_cases hk : k = id
    · by_cases hrest : ∃ i ∈ order, (r.subscribed h i).map (·.stream) = some x
      · rw [if_pos ⟨hk, hrest⟩, if_pos ⟨hk, .inr hrest⟩]
      · simp only [hk, hrest, and_false, if_false, or_false]
    · simp only [hk, false_and, if_false]

/-! ### `HandleSubscribe` -/

theorem mem_incomingKeys {u : Nat} (hrs : r.incoming p u = some rs) : u ∈ r.incomingKeys p := by
  obtain ⟨s, hs, hu⟩ := bind_eq_some_iff.mp hrs
  rw [incomingKeys, hs]
  exact Finmap.mem_keys.mpr (Finmap.mem_of_lookup_eq_some hu)

theorem mem_subscribedKeys {i : Nat} {sub : Subscription} (hsub : r.subscribed h i = some sub) :
    i ∈ r.subscribedKeys h := by
  obtain ⟨s, hs, hi⟩ := bind_eq_some_iff.mp hsub
  rw [subscribedKeys, hs]
  exact Finmap.mem_keys.mpr (Finmap.mem_of_lookup_eq_some hi)

/-- A Subscribe is forwarded: a fresh copy is to be fetched, or the publisher has no stream with the stream id. -/
def Forwards (r : Relay) (pub : Ref) (m : Subscribe) : Prop :=
  fetchesFresh m.trackName = true ∨ ∀ u rs, r.incoming pub u = some rs → r.streamID rs ≠ some (getStreamID m)

variable {order : List Nat}

theorem handleSubscribe_none (hpub : r.namespaces.lookup m.trackNameSpace.data = none) :
    r.handleSubscribe h id m order rand = r := by
  unfold handleSubscribe
  rw [hpub]

theorem handleSubscribe_cases (hpub : r.namespaces.lookup m.trackNameSpace.data = some pub)
    (hall : r.incomingKeys pub ⊆ order.toFinset) :
    (r.Forwards pub m ∧ r.handleSubscribe h id m order rand =
      (r.sendSubscribe pub m rand.toNat).attach h id pub m r.streams.length) ∨
    ∃ u rs m' ok, r.incoming pub u = some rs ∧ r.forwarded rs = some m' ∧ getStreamID m' = getStreamID m ∧
      r.handleSubscribe h id m order rand = (r.write h (.subscribeOk ok)).attach h id pub m rs := by
  unfold handleSubscribe
  rw [hpub]
  cases hget : r.streamIDGetStream pub (getStreamID m) order with
  | none =>
    refine .inl ⟨.inr fun u rs hrs hid => ?_, by simp only [getObjectStream, hget]; rfl⟩
    -- the range has every key, so it has found nothing under this one
    have hu : u ∈ order := List.mem_toFinset.mp (hall (mem_incomingKeys hrs))
    have := List.findSome?_eq_none_iff.mp hget u hu
    simp [hrs, hid] at this
  | some rs =>
    by_cases hfresh : fetchesFresh m.trackName = true
    · exact .inl ⟨.inl hfresh, by simp only [getObjectStream, hget, hfresh]; rfl⟩
    obtain ⟨u, -, hu⟩ := List.exists_of_findSome?_eq_some hget
    obtain ⟨hrs, hid⟩ := filter_eq_some_iff.mp hu
    rw [decide_eq_true_iff, streamID_eq_forwarded] at hid
    obtain ⟨m', hm', heq⟩ := map_eq_some_iff.mp hid
    exact .inr ⟨u, rs, m', _, hrs, hm', heq, by simp only [getObjectStream, hget, hfresh]; rfl⟩

variable {r' : Relay}

theorem step_eq_some : r.step e = some r' ↔ r.ranges e = true ∧ { r with sent := 0 }.handle e = some r' := by
  unfold step
  split
  · next hr => simp [hr]
  · next hr => simp [hr]

theorem step_subscribe (hs : r.step (.subscribe h m order rand) = some r') :
    ∃ id, r.idOf h = some id ∧ (r' = { r with sent := 0 } ∨
        ∃ pub, r.namespaces.lookup m.trackNameSpace.data = some pub ∧ (r.Forwards pub m ∧
            r' = ({ r with sent := 0 }.sendSubscribe pub m rand.toNat).attach h id pub m r.streams.length ∨
          ∃ u rs m' ok, r.incoming pub u = some rs ∧ r.forwarded rs = some m' ∧ getStreamID m' = getStreamID m ∧
            r' = ({ r with sent := 0 }.write h (.subscribeOk ok)).attach h id pub m rs)) := by
  obtain ⟨hr, hh⟩ := step_eq_some.mp hs
  obtain ⟨id, hid, rfl⟩ := map_eq_some_iff.mp hh
  refine ⟨id, hid, ?_⟩
  cases hpub : r.namespaces.lookup m.trackNameSpace.data with
  | none => exact .inl (handleSubscribe_none hpub)
  | some pub =>
    rw [ranges, hpub, all_some, decide_eq_true_iff] at hr
    exact .inr ⟨pub, rfl, handleSubscribe_cases (r := { r with sent := 0 }) hpub hr⟩

/-! ### The other calls -/

/-- Sessions, the two tables of a session and the streams that were made are the same. -/
structure Same (r r' : Relay) : Prop where
  idOf : ∀ x, r'.idOf x = r.idOf x
  incoming : ∀ x u, r'.incoming x u = r.incoming x u
  subscribed : ∀ x i, r'.subscribed x i = r.subscribed x i
  forwarded : ∀ x, r'.forwarded x = r.forwarded x

theorem same_setRemoteRole (role : Nat) : r.Same (r.updateHandler h fun s => { s with remoteRole := role }) where
  idOf x := by
    refine Heap.map_modify ?_ r.handlers h x
    exact fun _ => rfl
  incoming x u := by
    refine Heap.bind_modify_of_keeps ?_ r.handlers h x
    exact fun _ => rfl
  subscribed x i := by
    refine Heap.bind_modify_of_keeps ?_ r.handlers h x
    exact fun _ => rfl
  forwarded _ := rfl

theorem Same.of_handlers (hh : r'.handlers = r.handlers) (hf : ∀ x, r'.forwarded x = r.forwarded x) : r.Same r' where
  idOf x := by rw [Relay.idOf, Relay.idOf, hh]
  incoming x u := by rw [Relay.incoming, Relay.incoming, hh]
  subscribed x i := by rw [Relay.subscribed, Relay.subscribed, hh]
  forwarded := hf

theorem same_handleUnsubscribe (m : Unsubcribe) : r.Same (r.handleUnsubscribe h id m) := by
  obtain ⟨streams, heq⟩ := leave_eq r h id m.subscriptionID
  have hh : (r.leave h id m.subscriptionID).handlers = r.handlers := by rw [heq]
  exact .of_handlers hh forwarded_leave

theorem same_close (order : List Nat) : r.Same (r.close h id order) := by
  obtain ⟨streams, heq⟩ := handleClose_eq h id order r
  have hh : (r.handleClose h id order).handlers = r.handlers := by rw [heq]
  exact .of_handlers hh (forwarded_handleClose order r)

theorem mem_live_handleUnsubscribe {m : Unsubcribe} {l : Live} :
    l ∈ (r.handleUnsubscribe h id m).live ↔ l ∈ r.live ∧ ¬ (l.session = h ∧ l.subID = m.subscriptionID) := by
  obtain ⟨streams, heq⟩ := leave_eq r h id m.subscriptionID
  simp [handleUnsubscribe, heq, imp_iff_not_or]

theorem mem_live_close {l : Live} : l ∈ (r.close h id order).live ↔ l ∈ r.live ∧ l.session ≠ h := by
  obtain ⟨streams, heq⟩ := handleClose_eq h id order r
  simp [close, heq]

/-- Only a new session and a Subscribe change these tables. -/
theorem same_step (hs : r.step e = some r') (hnew : ∀ id, e ≠ .createSession id)
    (hsub : ∀ h m order rand, e ≠ .subscribe h m order rand) : r.Same r' := by
  obtain ⟨-, hh⟩ := step_eq_some.mp hs
  suffices hsame : { r with sent := 0 }.Same r' from { hsame with }
  cases e with
  | createSession id => exact absurd rfl (hnew id)
  | subscribe h m order rand => exact absurd rfl (hsub h m order rand)
  | setRemoteRole h role =>
    cases hh
    exact same_setRemoteRole role
  | announce h m =>
    obtain ⟨id, -, rfl⟩ := map_eq_some_iff.mp hh
    exact .of_handlers rfl fun _ => rfl
  | subscribeOk h m orders | objectStream h subid orders =>
    cases hh
    exact .of_handlers rfl fun _ => rfl
  | unsubscribe h m =>
    obtain ⟨id, -, rfl⟩ := map_eq_some_iff.mp hh
    exact same_handleUnsubscribe m
  | close h order =>
    obtain ⟨id, -, rfl⟩ := map_eq_some_iff.mp hh
    exact same_close order

theorem namespaces_step (hs : r.step e = some r') (hann : ∀ h m, e ≠ .announce h m) :
    r'.namespaces = r.namespaces := by
  obtain ⟨-, hh⟩ := step_eq_some.mp hs
  cases e with
  | announce h m => exact absurd rfl (hann h m)
  | subscribe h m order rand =>
    obtain ⟨id, -, rfl | ⟨pub, -, ⟨-, rfl⟩ | ⟨u, rs, m', ok, -, -, -, rfl⟩⟩⟩ := step_subscribe hs <;> rfl
  | unsubscribe h m =>
    obtain ⟨id, -, rfl⟩ := map_eq_some_iff.mp hh
    obtain ⟨streams, heq⟩ := leave_eq { r with sent := 0 } h id m.subscriptionID
    rw [handleUnsubscribe, heq]
  | close h order =>
    obtain ⟨id, -, rfl⟩ := map_eq_some_iff.mp hh
    obtain ⟨streams, heq⟩ := handleClose_eq h id order { r with sent := 0 }
    rw [close, heq]
  | _ =>
    cases hh
    rfl

end Relay

end MoqQuic.L4.Moqt
