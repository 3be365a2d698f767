import MoqQuic.L4App.Tquic.Endpoint

/-!
# Routing of Initial datagrams (`endpoint.rs`)

A server routes its SCIDs to a connection, and the original DCID that `recv`
found: the DCID of the Initial or, with a Retry token, the one the token was
issued for. With a Retry token the DCID that the client goes on to use, the
Retry's source CID, is not routed, so each retransmission of the Initial
creates a connection of its own.

The route of a DCID `d` is also lost in these ways.
* `d` is empty: routes of empty CIDs are never looked up.
* A connection that was created from another DCID takes `d` for its original
  DCID, because the first packet it could process, coalesced behind one that
  it could not, has `d`. Its end removes the route.
* `d` is still an SCID of another connection although it is not routed: the
  peer has retired the only SCID, which removes the route and then fails.
* The generator makes a CID that is in use.

Result:
* `created_connection_receives`: in every run without these, a datagram with
  the DCID from which a connection was created is delivered to it while it is
  live.
-/
namespace MoqQuic.L4.Tquic
open Reader (Bytes)
open L1.Tquic List Table Option
open L3.Tquic (AddressToken AddressTokenType TokenError Nonce Cipher clearCipher LABEL)
open L3.Tquic.AddressToken

variable {d : ConnectionId} {own : Prop}

/-! ## Connections that have no claim on a DCID -/

namespace Connection

variable {c : Connection} {p : Packet}

/-- The connection will not remove the route of `d`, unless it is its own. -/
structure Clear (d : ConnectionId) (own : Prop) (c : Connection) : Prop where
  scids : d ∉ c.scids
  events : .scidRetired d ∉ c.events
  odcid : c.odcid = some d → own

theorem trySetDcidForInitialPath_gotPeerCid (c : Connection) :
    (c.trySetDcidForInitialPath p).gotPeerCid = true := by
  unfold trySetDcidForInitialPath
  split
  · assumption
  · rfl

theorem recvPacket_gotPeerCid (h : c.gotPeerCid = true) : (c.recvPacket p).gotPeerCid = true := by
  unfold recvPacket
  split
  · exact h
  rw [perform_gotPeerCid]
  exact c.trySetDcidForInitialPath_gotPeerCid

namespace Clear

theorem raise {event : Event} (h : Clear d own c) (he : event ≠ .scidRetired d) : Clear d own (c.raise event) := by
  refine ⟨h.scids, fun hmem => ?_, h.odcid⟩
  rcases mem_append.mp hmem with hmem | hmem
  · exact h.events hmem
  · exact he (mem_singleton.mp hmem).symm

theorem retireScid (h : Clear d own c) (cid : ConnectionId) : Clear d own (c.retireScid cid) := by
  unfold Connection.retireScid
  split
  · exact { h with }
  split
  · next hmem =>
    -- the CID that is retired is one of the SCIDs
    have hne : Event.scidRetired cid ≠ .scidRetired d := fun heq => h.scids (Event.scidRetired.inj heq ▸ hmem)
    have hr := h.raise hne
    dsimp only
    split
    · exact { hr with }
    · exact { hr with scids := fun hd => h.scids (mem_of_mem_erase hd) }
  · exact h

theorem act (h : Clear d own c) (a : ConnAct) : Clear d own (c.act a) := by
  cases a with
  | advertiseScids num | retireDcid token | learnResetToken token | notify => exact h.raise (by simp)
  | retireScid cid => exact h.retireScid cid
  | newDcid token => exact { h with events := (h.raise (by simp)).events }
  | _ => exact { h with }

theorem perform (acts : List ConnAct) (h : Clear d own c) : Clear d own (c.perform acts) := by
  induction acts generalizing c with
  | nil => exact h
  | cons a acts ih => exact ih (h.act a)

/-- The first packet that is processed may set the original DCID. -/
theorem trySetDcidForInitialPath (h : Clear d own c)
    (hp : c.gotPeerCid = true ∨ (p.dcid = d → own)) : Clear d own (c.trySetDcidForInitialPath p) := by
  unfold Connection.trySetDcidForInitialPath
  split
  · exact h
  rename_i hgot
  refine ⟨h.scids, h.events, fun ho => ?_⟩
  split at ho
  · exact hp.resolve_left hgot (some.inj ho)
  · exact h.odcid ho

theorem recvPacket (h : Clear d own c) (hp : c.gotPeerCid = true ∨ (p.dcid = d → own)) :
    Clear d own (c.recvPacket p) := by
  unfold Connection.recvPacket
  split
  · exact h
  · exact (h.trySetDcidForInitialPath hp).perform p.acts

/-- A connection that is closing takes no packet, and one that has taken a packet sets nothing. -/
theorem recv_later (packets : List Packet) (h : Clear d own c)
    (hlater : (c.closing || c.draining || c.closed) = true ∨ c.gotPeerCid = true) : Clear d own (c.recv packets) := by
  induction packets generalizing c with
  | nil => exact h
  | cons p packets ih =>
    rcases hlater with hstop | hgot
    · have hsame : c.recvPacket p = c := by rw [Connection.recvPacket, if_pos hstop]
      refine ih (c := c.recvPacket p) ?_ ?_ <;> rw [hsame]
      · exact h
      · exact .inl hstop
    · exact ih (h.recvPacket (.inl hgot)) (.inr (recvPacket_gotPeerCid hgot))

theorem recv {packets : List Packet} (h : Clear d own c)
    (hp : ∀ p, packets.head? = some p → c.gotPeerCid = true ∨ (p.dcid = d → own)) : Clear d own (c.recv packets) := by
  cases packets with
  | nil => exact h
  | cons p packets =>
    refine recv_later packets (h.recvPacket (hp p rfl)) ?_
    by_cases hstop : (c.closing || c.draining || c.closed) = true
    · rw [Connection.recvPacket, if_pos hstop]
      exact .inl hstop
    rw [Connection.recvPacket, if_neg hstop, perform_gotPeerCid]
    exact .inr c.trySetDcidForInitialPath_gotPeerCid

theorem reset (h : Clear d own c) : Clear d own c.reset := by
  unfold Connection.reset
  split
  · exact h
  · exact { h with }

/-- A connection without a claim on `d` leaves its route alone when it goes. -/
theorem notMem_cidsOf (h : Clear d own c) (hown : ¬ own) : d ∉ ConnectionRoutes.cidsOf c := by
  unfold ConnectionRoutes.cidsOf
  rw [mem_append, not_or]
  constructor
  · split
    · exact not_mem_nil
    · exact h.scids
  split
  · exact fun hmem => hown (h.odcid (Option.mem_toList.mp hmem))
  · exact not_mem_nil

end Clear

end Connection

/-! ## Keeping the route of a DCID -/

namespace Endpoint

variable {e e' : Endpoint} {idx i : Nat} {f : Connection → Connection} {c : Connection} {gens : List ConnectionId}

/-- `d` is routed to `idx`, and no connection will remove the route before `idx` goes. -/
structure Holds (d : ConnectionId) (idx : Nat) (e : Endpoint) : Prop where
  dcid : d.isEmpty = false
  route : e.routes.cidTable.lookup d = some idx
  clear : ∀ i c, e.conns.lookup i = some c → c.Clear d (i = idx)

/-- `idx` was used up and, while it is live, `d` is routed to it. -/
structure Tracks (d : ConnectionId) (idx : Nat) (e : Endpoint) : Prop where
  server : e.isServer = true
  used : idx < e.nextIndex
  holds : idx ∈ e.conns → e.Holds d idx

theorem connAddScids_keeps {routes : ConnectionRoutes}
    (h : c.Clear d own) (hgens : d ∉ gens) (hroute : routes.cidTable.lookup d = some idx) :
    (connAddScids c routes i gens).1.Clear d own ∧ (connAddScids c routes i gens).2.cidTable.lookup d = some idx := by
  unfold connAddScids
  split
  · exact ⟨h, hroute⟩
  refine ⟨⟨?_, h.events, h.odcid⟩, ?_⟩
  · rw [mem_append, not_or]
    exact ⟨h.scids, hgens⟩
  · rw [lookup_insertAll, if_neg hgens, hroute]

theorem pollEvents_keeps (events : List Event) {routes : ConnectionRoutes}
    (h : c.Clear d own) (hevents : .scidRetired d ∉ events) (hgens : d ∉ gens)
    (hroute : routes.cidTable.lookup d = some idx) : (pollEvents i c routes gens events).1.Clear d own ∧
      (pollEvents i c routes gens events).2.cidTable.lookup d = some idx := by
  induction events generalizing c routes gens with
  | nil => exact ⟨h, hroute⟩
  | cons event events ih =>
    rw [mem_cons, not_or] at hevents
    obtain ⟨hevent, hevents⟩ := hevents
    cases event with
    | scidToAdvertise num =>
      have htake : d ∉ gens.take num := fun hmem => hgens (mem_of_mem_take hmem)
      have hdrop : d ∉ gens.drop num := fun hmem => hgens (mem_of_mem_drop hmem)
      obtain ⟨hadd, hroute⟩ := connAddScids_keeps (i := i) h htake hroute
      exact ih hadd hevents hdrop hroute
    | scidRetired cid =>
      have hne : d ≠ cid := fun heq => hevent (heq ▸ rfl)
      refine ih h hevents hgens ?_
      rw [ConnectionRoutes.removeWithCid, lookup_erase_eq, if_neg hne, hroute]
    | _ => exact ih h hevents hgens hroute

namespace Tracks

variable (h : Tracks d idx e)
include h

theorem of_same (hserver : e'.isServer = e.isServer) (hnext : e'.nextIndex = e.nextIndex)
    (hroutes : e'.routes = e.routes) (hconns : e'.conns = e.conns) : Tracks d idx e' := by
  refine ⟨hserver.trans h.server, hnext ▸ h.used, fun hlive => ?_⟩
  rw [hconns] at hlive
  obtain ⟨hd, hroute, hclear⟩ := h.holds hlive
  exact ⟨hd, hroutes ▸ hroute, fun i c hc => hclear i c (hconns ▸ hc)⟩

/-- Something is done to the connection `i`. -/
theorem modify (hserver : e'.isServer = e.isServer) (hnext : e'.nextIndex = e.nextIndex)
    (hroutes : e'.routes = e.routes) (hconns : e'.conns = e.conns.modify i f)
    (hf : idx ∈ e.conns → ∀ c, e.conns.lookup i = some c → c.Clear d (i = idx) → (f c).Clear d (i = idx)) :
    Tracks d idx e' := by
  refine ⟨hserver.trans h.server, hnext ▸ h.used, fun hlive => ?_⟩
  rw [hconns, mem_modify] at hlive
  obtain ⟨hd, hroute, hclear⟩ := h.holds hlive
  refine ⟨hd, hroutes ▸ hroute, fun j c' hc' => ?_⟩
  rw [hconns] at hc'
  obtain ⟨c, hc, ⟨rfl, rfl⟩ | ⟨-, rfl⟩⟩ := lookup_modify_eq_some hc'
  · exact hf hlive c hc (hclear _ c hc)
  · exact hclear j _ hc

theorem updateConn
    (hf : idx ∈ e.conns → ∀ c, e.conns.lookup i = some c → c.Clear d (i = idx) → (f c).Clear d (i = idx)) :
    Tracks d idx (e.updateConn i f) :=
  h.modify rfl rfl rfl rfl hf

theorem markTickable (i : Nat) (b : Bool) : Tracks d idx (e.markTickable i b) := by
  obtain ⟨queue, heq⟩ := e.markTickable_eq i b
  rw [heq]
  exact h.modify rfl rfl rfl rfl fun _ c _ hc => { hc with }

theorem markSendable (i : Nat) (b : Bool) : Tracks d idx (e.markSendable i b) := by
  obtain ⟨queue, heq⟩ := e.markSendable_eq i b
  rw [heq]
  exact h.modify rfl rfl rfl rfl fun _ c _ hc => { hc with }

theorem pollConnection {queued : Nat} (hc : e.conns.lookup i = some c)
    (hgens : ∀ g ∈ gens, e.routes.cidTable.lookup g = none) : Tracks d idx (e.pollConnection i c gens queued) := by
  have hbase : Tracks d idx { e with
      routes := (pollEvents i { c with events := [] } e.routes gens c.events).2
      conns := e.conns.insert i
        { (pollEvents i { c with events := [] } e.routes gens c.events).1 with
          outbox := (pollEvents i { c with events := [] } e.routes gens c.events).1.outbox + queued } } := by
    refine ⟨h.server, h.used, fun hlive => ?_⟩
    have hold : idx ∈ e.conns := by
      rcases Finmap.mem_insert.mp hlive with rfl | hlive
      · exact Finmap.mem_of_lookup_eq_some hc
      · exact hlive
    obtain ⟨hd, hroute, hclear⟩ := h.holds hold
    have hnew : d ∉ gens := fun hmem => by
      have := hgens d hmem
      rw [hroute] at this
      cases this
    have hci := hclear i c hc
    obtain ⟨hpoll, hpolled⟩ := pollEvents_keeps c.events (c := { c with events := [] })
      ⟨hci.scids, not_mem_nil, hci.odcid⟩ hci.events hnew hroute
    refine ⟨hd, hpolled, fun j c' hc' => ?_⟩
    rw [lookup_insert_eq] at hc'
    split at hc'
    · next hj =>
      cases hc'
      rw [hj]
      exact { hpoll with }
    · exact hclear j c' hc'
  exact (hbase.markSendable i true).markTickable i false

theorem cleanUp (hc : e.conns.lookup i = some c) : Tracks d idx (e.cleanUp i c) := by
  have hmarked := (h.markTickable i false).markSendable i false
  refine ⟨hmarked.server, hmarked.used, fun hlive => ?_⟩
  obtain ⟨hne, hlive⟩ := Finmap.mem_erase.mp hlive
  obtain ⟨hd, hroute, hclear⟩ := hmarked.holds hlive
  rw [mem_markSendable, mem_markTickable] at hlive
  have hcids := ((h.holds hlive).clear i c hc).notMem_cidsOf (Ne.symm hne)
  refine ⟨hd, ?_, fun j c' hc' => ?_⟩
  · exact (lookup_eraseAll _ _).trans ((if_neg hcids).trans hroute)
  rw [Endpoint.cleanUp, lookup_erase_eq] at hc'
  split at hc'
  · cases hc'
  · exact hclear j c' hc'

end Tracks

/-! ## Orderly runs -/

variable {x : Datagram} {env : Env}

/-- No live connection has the CID for an SCID, for its original DCID, or still to retire. -/
def Idle (e : Endpoint) (cid : ConnectionId) : Prop :=
  ∀ i c, e.conns.lookup i = some c → c.Clear cid False

/-- The first packet that a connection processes has the DCID of its datagram. -/
def Uncoalesced (e : Endpoint) (x : Datagram) : Prop :=
  ∀ p, x.packets.head? = some p → p.dcid = x.dcid ∨
    ∃ i reset c, e.target x = some (i, reset) ∧ e.conns.lookup i = some c ∧ c.gotPeerCid = true

/-- An Initial from which a connection may be created. -/
structure Fresh (e : Endpoint) (x : Datagram) (env : Env) : Prop where
  dcid : x.dcid.isEmpty = false
  idle : e.Idle x.dcid
  token : ∀ token, x.token = some token → tokenTypeOf token ≠ .ok .retryToken
  unrouted : e.routes.cidTable.lookup env.cid = none
  distinct : env.cid ≠ x.dcid

/-- The CIDs that the generator makes are not routed. -/
def FreshTurn (p : Pass) : Turn → Prop
  | .tick _ gens _ _ => ∀ g ∈ gens, p.ep.routes.cidTable.lookup g = none
  | _ => True

def Orderly (e : Endpoint) : Call → Prop
  | .recv x env => (e.target x = none → x.pktType = .initial → e.Fresh x env) ∧ e.Uncoalesced x
  | .processConnections turns => LTS.Along Pass.step FreshTurn { ep := e } turns
  | _ => True

theorem target_of_route (hd : x.dcid.isEmpty = false) (hroute : e.routes.cidTable.lookup x.dcid = some idx)
    (hlive : idx ∈ e.conns) : e.target x = some (idx, false) := by
  have hfind : e.routes.find x = (some idx, false) := by simp [ConnectionRoutes.find, hd, hroute]
  rw [target, hfind]
  exact if_pos hlive

theorem validateAddressToken_odcid {address : SocketAddr} {dcid : ConnectionId} {now lifetime : Nat}
    {t : AddressToken} (keys : List Key) {token : Bytes} (hty : tokenTypeOf token ≠ .ok .retryToken)
    (h : (validateAddressToken address dcid now lifetime token keys).1 = .ok t) : t.odcid = some dcid := by
  induction keys generalizing token with
  | nil => cases h
  | cons k ks ih =>
    unfold validateAddressToken at h
    split at h
    · next t' rest hdec =>
      cases h
      exact decode_odcid_of_resume (by rw [hdec]) hty
    rename_i err rest hdec
    refine ih ?_ h
    -- the type byte is still there
    have hrest : rest = (decode k.cipher (logOf k.issued) token address dcid now lifetime).2 := by rw [hdec]
    rwa [hrest, tokenTypeOf_decode]

variable {token : Option AddressToken}

/-- Without a Retry token the connection is registered under the DCID of the Initial. -/
theorem admission_odcid (htoken : ∀ token, x.token = some token → tokenTypeOf token ≠ .ok .retryToken)
    (hadm : e.admission x env = .accept token) : ∀ t, token = some t → t.odcid = some x.dcid := by
  rintro t rfl
  unfold admission at hadm
  split at hadm
  · next bytes hbytes =>
    split at hadm
    · next t' rest hval =>
      cases hadm
      exact validateAddressToken_odcid e.keys (htoken bytes hbytes) (by rw [hval])
    · split at hadm <;> cases hadm
  · split at hadm <;> cases hadm

section

variable (htoken : ∀ t, token = some t → t.odcid = some x.dcid)
include htoken

theorem originalDcid_eq {odcid : ConnectionId} (hodcid : originalDcid x token = some odcid) : odcid = x.dcid := by
  cases token with
  | none => exact (some.inj hodcid).symm
  | some t => exact some.inj (hodcid.symm.trans (htoken t rfl))

/-- A connection that has just been created has no claim on a CID but its own ones. -/
theorem new_clear {path : FourTuple} (hcid : env.cid ≠ d)
    (hown : x.dcid = d → own) : (Connection.new true env.cid path token).Clear d own := by
  refine ⟨fun hmem => hcid (mem_singleton.mp hmem).symm, not_mem_nil, fun ho => hown ?_⟩
  cases token with
  | none => cases ho
  | some t => exact some.inj ((htoken t rfl).symm.trans ho)

/-- The creation of another connection. -/
theorem Tracks.createConnection (h : Tracks d idx e) (ht : e.target x = none) (hfresh : e.Fresh x env)
    (hfirst : ∀ p, x.packets.head? = some p → p.dcid = x.dcid) :
    Tracks d idx (e.createConnection x env token x.dcid) := by
  -- while `idx` is live, `d` is routed, so it is neither the DCID nor the new SCID
  have hne : idx ∈ e.conns → x.dcid ≠ d ∧ env.cid ≠ d := by
    intro hlive
    obtain ⟨hd, hroute, -⟩ := h.holds hlive
    constructor
    · rintro rfl
      rw [target_of_route hd hroute hlive] at ht
      cases ht
    intro heq
    have := hfresh.unrouted
    rw [heq, hroute] at this
    cases this
  have hmem : idx ∈ (e.register x env token x.dcid).conns → idx ∈ e.conns := fun hlive =>
    (Finmap.mem_insert.mp hlive).resolve_left (Nat.ne_of_lt h.used)
  have hbase : Tracks d idx (e.register x env token x.dcid) := by
    refine ⟨h.server, Nat.lt_succ_of_lt h.used, fun hlive => ?_⟩
    have hold := hmem hlive
    obtain ⟨hd, hroute, hclear⟩ := h.holds hold
    obtain ⟨hx, hcid⟩ := hne hold
    refine ⟨hd, ?_, fun j c hc => ?_⟩
    · simp only [register]
      split
      · simp only [ConnectionRoutes.insertWithCid, lookup_insert_eq]
        rw [if_neg (Ne.symm hx), if_neg (Ne.symm hcid), hroute]
      · exact hroute
    simp only [register, lookup_insert_eq] at hc
    split at hc
    · cases hc
      exact new_clear htoken hcid fun heq => absurd heq hx
    · exact hclear j c hc
  refine (hbase.markTickable e.nextIndex true).updateConn fun hlive c hc hclear => ?_
  obtain ⟨hx, -⟩ := hne (hmem (mem_markTickable.mp hlive))
  exact hclear.recv fun p hp => .inr fun heq => absurd ((hfirst p hp).symm.trans heq) hx

/-- The connection that is created from an Initial is tracked under its DCID. -/
theorem tracks_of_createConnection (hserver : e.isServer = true) (hlen : 0 < e.config.cidLen) (hfresh : e.Fresh x env) :
    Tracks x.dcid e.nextIndex (e.createConnection x env token x.dcid) := by
  have hbase : Tracks x.dcid e.nextIndex (e.register x env token x.dcid) := by
    refine ⟨hserver, Nat.lt_succ_self _, fun _ => ⟨hfresh.dcid, ?_, fun j c hc => ?_⟩⟩
    · simp only [register, if_pos hlen, ConnectionRoutes.insertWithCid, Finmap.lookup_insert]
    simp only [register, lookup_insert_eq] at hc
    split at hc
    · next hj =>
      cases hc
      exact new_clear htoken hfresh.distinct fun _ => hj
    · obtain ⟨hscids, hevents, hodcid⟩ := hfresh.idle j c hc
      exact ⟨hscids, hevents, fun ho => (hodcid ho).elim⟩
  exact (hbase.markTickable e.nextIndex true).updateConn fun _ c _ hclear => hclear.recv fun p _ => .inr fun _ => rfl

end

/-- A datagram that is delivered to `i`. -/
theorem Tracks.deliver {reset : Bool} (h : Tracks d idx e) (ht : e.target x = some (i, reset))
    (hfirst : e.Uncoalesced x) : Tracks d idx ((e.markTickable i true).updateConn i (·.recv x.packets)) := by
  refine (h.markTickable i true).updateConn fun hlive c hc hclear => hclear.recv fun p hp => ?_
  rw [mem_markTickable] at hlive
  rcases hfirst p hp with hdcid | ⟨j, reset', c0, htarget, hc0, hgot⟩
  · -- the DCID of the datagram, if it is `d`, is routed to `idx`
    refine .inr fun heq => ?_
    obtain ⟨hd, hroute, -⟩ := h.holds hlive
    rw [← heq, hdcid] at hd hroute
    rw [target_of_route hd hroute hlive] at ht
    exact (congrArg Prod.fst (some.inj ht)).symm
  -- the connection has processed a packet before
  cases ht.symm.trans htarget
  obtain ⟨queue, heq⟩ := e.markTickable_eq i true
  rw [heq] at hc
  obtain ⟨c1, hc1, ⟨-, rfl⟩ | ⟨hne, -⟩⟩ := lookup_modify_eq_some hc
  · cases hc0.symm.trans hc1
    exact .inl hgot
  · exact absurd rfl hne

theorem Tracks.step {call : Call} (h : Tracks d idx e) (hok : Orderly e call) (hs : e.step call = some e') :
    Tracks d idx e' := by
  cases call with
  | connect scid path starts =>
    cases hs
    rw [connect, if_pos (by simp [h.server])]
    exact h
  | recv x env =>
    obtain ⟨⟨e1, r⟩, hr, rfl⟩ := Option.map_eq_some_iff.mp hs
    cases received_of_recv hr with
    | delivered i reset ht _ => exact h.deliver ht hok.2
    | reset i ht => exact (h.markTickable i true).updateConn fun _ c _ hclear => hclear.reset
    | answered _ _ _ _ | retry _ _ => exact h.of_same rfl rfl rfl rfl
    | created ht hinitial token odcid hadm hodcid =>
      have hfresh := hok.1 ht hinitial
      have htoken := admission_odcid hfresh.token hadm
      rw [originalDcid_eq htoken hodcid]
      refine h.createConnection htoken ht hfresh fun p hp => ?_
      rcases hok.2 p hp with hdcid | ⟨i, reset, c, htarget, -⟩
      · exact hdcid
      · rw [ht] at htarget; cases htarget
  | onTimeout expired =>
    cases hs
    induction expired generalizing e with
    | nil => exact h
    | cons a expired ih =>
      exact ih ((h.markTickable a.1 true).updateConn fun _ c _ hclear => hclear.perform a.2) trivial
  | useConn i marks acts =>
    cases hs
    unfold useConn
    split
    · exact (h.markTickable i true).updateConn fun _ c _ hclear => hclear.perform acts
    · exact h.updateConn fun _ c _ hclear => hclear.perform acts
  | close force =>
    cases hs
    unfold close
    split
    · exact ⟨h.server, h.used, fun hlive => absurd hlive Finmap.notMem_empty⟩
    · exact h.of_same rfl rfl rfl rfl
  | processConnections turns =>
    refine processConnections_invariant (Tracks d idx) (fun p t p' hp hfresh hstep => ?_) h hok hs
    refine Pass.step_ep (Tracks d idx) (fun i c gens queued ready ht hc => ?_) (fun _ _ _ he hc => he.cleanUp hc)
      (fun _ i he => he.markTickable i true) (fun _ i he => he.markSendable i false)
      (fun _ _ _ he => he.updateConn fun _ _ _ hclear => { hclear with })
      (fun _ _ he => he.of_same rfl rfl rfl rfl) hp hstep
    subst ht
    exact hp.pollConnection hc hfresh

end Endpoint

open Endpoint Exchange

/-- In every run of a server with CIDs from which no connection is created by a Retry token, by an Initial
without a DCID or with one that another connection has a claim on, in which the first packet a connection
processes has the DCID of its datagram and generated CIDs are not in use: a datagram with the DCID from which a
connection was created is delivered to it, as long as it is live. -/
theorem created_connection_receives {e e1 e2 : Endpoint} {first later : Datagram} {env env' : Env} {idx : Nat}
    {calls : List Call} (hserver : e.isServer = true) (hlen : 0 < e.config.cidLen)
    (hfirst : e.recv first env = some (e1, .created idx)) (hok : Orderly e (.recv first env))
    (hrun : LTS.run Endpoint.step e1 calls = some e2) (ha : LTS.Along Endpoint.step Orderly e1 calls)
    (hlive : idx ∈ e2.conns) (hdcid : later.dcid = first.dcid) :
    ∃ e3, e2.recv later env' = some (e3, .delivered idx) := by
  have htracks : Tracks first.dcid idx e1 := by
    cases received_of_recv hfirst with
    | answered _ _ _ hr => exact absurd rfl (hr idx)
    | created ht hinitial token odcid hadm hodcid =>
      have hfresh := hok.1 ht hinitial
      have htoken := admission_odcid hfresh.token hadm
      rw [originalDcid_eq htoken hodcid]
      exact tracks_of_createConnection htoken hserver hlen hfresh
  have hend := LTS.run_invariant (fun s call s' h hcall hs => h.step hcall hs) htracks ha hrun
  obtain ⟨hd, hroute, -⟩ := hend.holds hlive
  rw [← hdcid] at hd hroute
  rw [recv, target_of_route hd hroute hlive]
  exact ⟨_, rfl⟩

/-- A connection is created, is given a second SCID and sends two packets; then a Handshake datagram comes
that still has the DCID of the Initial. -/
theorem created_connection_receives_handshake : let dcid : ConnectionId := .new [9, 9, 9, 9]
    let first : Datagram :=
      { initial dcid with packets := [{ dcid, scid := .new [3], acts := [.advertiseScids 1, .queue 2] }] }
    let later : Datagram := { first with pktType := .handshake, packets := [] }
    let e : Endpoint := endpoint true false
    let turns : List Turn :=
      [.tick 0 [.new [1, 1, 1, 1, 1, 1, 1, 1]] 0 false, .next, .send 0 false (some 1), .send 0 false (some 1),
        .send 0 false none, .next, .flush none]
    ∃ e1 e2 e3, e.recv first env = some (e1, .created 0) ∧
      LTS.run Endpoint.step e1 [.processConnections turns] = some e2 ∧
      e2.recv later env = some (e3, .delivered 0) := by
  intro dcid first later e turns
  have hrecv : e.recv first env = some (e.createConnection first env none dcid, .created 0) := rfl
  have hlives : (LTS.run Endpoint.step (e.createConnection first env none dcid) [.processConnections turns]).map
      (fun e2 => decide (0 ∈ e2.conns)) = some true := by decide +kernel
  obtain ⟨e2, hrun, hlive⟩ := Option.map_eq_some_iff.mp hlives
  have hfresh : e.Fresh first env :=
    ⟨rfl, fun i c hc => (by cases hc), fun _ htoken => (by cases htoken), rfl, by decide⟩
  have hfirst : ∀ p, first.packets.head? = some p → p.dcid = first.dcid := by
    rintro p ⟨⟩
    rfl
  have hturns : LTS.Along Pass.step FreshTurn { ep := e.createConnection first env none dcid } turns := by
    refine ⟨fun g hg => ?_, fun _ _ => ⟨trivial, fun _ _ => ⟨trivial, fun _ _ => ⟨trivial, fun _ _ =>
      ⟨trivial, fun _ _ => ⟨trivial, fun _ _ => ⟨trivial, fun _ _ => trivial⟩⟩⟩⟩⟩⟩⟩
    cases mem_singleton.mp hg
    decide +kernel
  have hlater : ∃ e3, e2.recv later env = some (e3, .delivered 0) :=
    created_connection_receives rfl (by decide) hrecv ⟨fun _ _ => hfresh, fun p hp => .inl (hfirst p hp)⟩ hrun
      ⟨hturns, fun _ _ => trivial⟩ (of_decide_eq_true hlive) rfl
  obtain ⟨e3, hlater⟩ := hlater
  exact ⟨_, e2, e3, hrecv, hrun, hlater⟩

/-- A client comes back with the token of a Retry. The source CID of the Retry is not routed: the Initial that
is sent again creates a second connection while the first is live. -/
theorem retry_token_creates_twice : let first : Datagram := initial (.new [9, 9, 9, 9])
    let second : Datagram := returned [9, 9, 9, 9]
    let e : Endpoint := endpoint true true
    e.recv first env = some (e.sendRetry first env, .retry) ∧
      ((e.sendRetry first env).recv second { env with cid := .new [7] }).map
        (fun (e1, r) => (r, decide (0 ∈ e1.conns))) = some (.created 0, true) ∧
      ((e.sendRetry first env).recv second { env with cid := .new [7] }).bind
        (fun (e1, _) => (e1.recv second { env with cid := .new [8] }).map Prod.snd) = some (.created 1) := by
  intro first second e
  exact ⟨rfl, by decide +kernel, by decide +kernel⟩

end MoqQuic.L4.Tquic
