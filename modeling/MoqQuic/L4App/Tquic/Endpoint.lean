import Mathlib.Data.Finset.Basic
import MoqQuic.Core.LTS
import MoqQuic.Core.Table
import MoqQuic.L3Protocol.Tquic.Token

/-!
# The endpoint (`endpoint.rs`)

An endpoint owns the connections, the tables that match a datagram to one of
them, and two queues of connection indices that it shares with the
connections. `recv` delivers a datagram or, on a server, answers it with a
Retry or creates a connection; `process_connections` works the queues off.

A connection is kept as far as the endpoint sees it: its CIDs, its events, how
many packets it has to send, and its flags. What it does when it is given a
datagram, a timeout or a call of the application is a list of `ConnAct`, which
is part of the input, as are the CIDs of the generator, the nonces, the time
and what the packet sender answers. The order in which a hash set yields its
elements is not fixed: each turn of a loop names the index it takes.

`none` from `recv` is a panic.

Line numbers without a file are those of `endpoint.rs`.
-/
namespace MoqQuic.L4.Tquic
open Reader (Bytes)
open L1.Tquic Table
open L3.Tquic (AddressToken AddressTokenType TokenError Nonce Cipher)
open L3.Tquic.AddressToken

def RESET_TOKEN_LEN : Nat := 16
def MIN_RESET_PACKET_LEN : Nat := 21

/-! ## Connections -/

/-- The events a connection has for its endpoint; those that only call the application are one. -/
inductive Event where
  | scidToAdvertise (num : Nat)
  | scidRetired (cid : ConnectionId)
  | dcidAdvertised (token : ResetToken)
  | dcidRetired (token : ResetToken)
  | resetTokenAdvertised (token : ResetToken)
  | callback
  deriving DecidableEq

structure Connection where
  isServer : Bool
  scids : List ConnectionId
  zeroLengthScid : Bool
  zeroLengthDcid : Bool := false
  dcidTokens : List ResetToken := []
  paths : List FourTuple
  odcid : Option ConnectionId := none
  didRetry : Bool := false
  gotPeerCid : Bool := false
  events : List Event := []
  /-- how many packets `send` makes before it is done -/
  outbox : Nat := 0
  closing : Bool := false
  draining : Bool := false
  closed : Bool := false
  tickable : Bool := false
  sendable : Bool := false

/-- What a connection does on its own. -/
inductive ConnAct where
  | advertiseScids (num : Nat)
  | retireScid (cid : ConnectionId)
  | newDcid (token : ResetToken)
  | retireDcid (token : ResetToken)
  | learnResetToken (token : ResetToken)
  | setDcidTokens (tokens : List ResetToken)
  | addPath (path : FourTuple)
  | notify
  | queue (packets : Nat)
  | fail
  | drain
  | close
  deriving DecidableEq

/-- A packet that a connection decrypts, and what it does upon its frames. -/
structure Packet where
  dcid : ConnectionId
  scid : ConnectionId
  acts : List ConnAct

namespace Connection

/-- A token sets the original DCID and `DidRetry`, whichever type it has. mirrors connection.rs:187-329 -/
def new (isServer : Bool) (scid : ConnectionId) (path : FourTuple) (token : Option AddressToken) : Connection :=
  { isServer, scids := [scid], zeroLengthScid := scid.isEmpty, paths := [path]
    odcid := token.bind AddressToken.odcid, didRetry := token.isSome }

variable (c : Connection)

def raise (event : Event) : Connection := { c with events := c.events ++ [event] }

/-- The event comes first; the last SCID cannot be removed, which is an error.
mirrors connection.rs:852-872, cid.rs:85-98, 446-470 -/
def retireScid (cid : ConnectionId) : Connection :=
  if c.zeroLengthScid then { c with closing := true }
  else if cid ∈ c.scids then
    let c := c.raise (.scidRetired cid)
    if c.scids.length = 1 then { c with closing := true } else { c with scids := c.scids.erase cid }
  else c

def act : ConnAct → Connection
  | .advertiseScids num => c.raise (.scidToAdvertise num)
  | .retireScid cid => c.retireScid cid
  | .newDcid token => { c with dcidTokens := c.dcidTokens ++ [token] }.raise (.dcidAdvertised token)
  | .retireDcid token => c.raise (.dcidRetired token)
  | .learnResetToken token => c.raise (.resetTokenAdvertised token)
  | .setDcidTokens tokens => { c with dcidTokens := tokens }
  | .addPath path => { c with paths := c.paths ++ [path] }
  | .notify => c.raise .callback
  | .queue packets => { c with outbox := c.outbox + packets }
  | .fail => { c with closing := true }
  | .drain => { c with draining := true }
  | .close => { c with closed := true }

def perform (acts : List ConnAct) : Connection := acts.foldl act c

/-- The first packet that is processed sets the peer's CID and, without a token, the original DCID.
mirrors connection.rs:3646-3676 -/
def trySetDcidForInitialPath (p : Packet) : Connection :=
  if c.gotPeerCid then c
  else
    { c with
      zeroLengthDcid := p.scid.isEmpty
      odcid := if c.isServer && !c.didRetry then some p.dcid else c.odcid
      gotPeerCid := true }

/-- mirrors connection.rs:449-610 -/
def recvPacket (p : Packet) : Connection :=
  if c.closing || c.draining || c.closed then c else (c.trySetDcidForInitialPath p).perform p.acts

def recv (packets : List Packet) : Connection := packets.foldl recvPacket c

/-- A stateless reset. mirrors connection.rs:3501-3514 -/
def reset : Connection := if c.closed || c.draining then c else { c with draining := true }

/-- The flags that only the endpoint and the first packet set. -/
def marks : Bool × Bool × Bool × Option ConnectionId :=
  (c.tickable, c.sendable, c.gotPeerCid, c.odcid)

theorem act_marks (a : ConnAct) : (c.act a).marks = c.marks := by
  cases a with
  | retireScid cid =>
    simp only [act, retireScid]
    split
    · rfl
    split
    · split <;> rfl
    · rfl
  | _ => rfl

theorem perform_marks (acts : List ConnAct) (c : Connection) : (c.perform acts).marks = c.marks := by
  induction acts generalizing c with
  | nil => rfl
  | cons a acts ih => exact (ih (c.act a)).trans (c.act_marks a)

theorem perform_gotPeerCid (acts : List ConnAct) (c : Connection) : (c.perform acts).gotPeerCid = c.gotPeerCid :=
  congrArg (·.2.2.1) (perform_marks acts c)

end Connection

/-! ## Routes -/

/-- What `recv` is given: the header of the first packet, the last bytes, the addresses, and the packets the
connection that gets it will process. A token of length zero is no token. -/
structure Datagram where
  pktType : PacketType
  versionSupported : Bool := true
  dcid : ConnectionId
  token : Option Bytes := none
  len : Nat
  tail : ResetToken
  dst : SocketAddr
  src : SocketAddr
  packets : List Packet := []

structure ConnectionRoutes where
  cidTable : Table ConnectionId Nat := ∅
  addrTable : Table FourTuple Nat := ∅
  tokenTable : Table ResetToken Nat := ∅

namespace ConnectionRoutes

variable (r : ConnectionRoutes)

/-- The index, and whether it was found by the reset token. mirrors :891-924,
token.rs:316-328 -/
def find (d : Datagram) : Option Nat × Bool :=
  let idx := if d.dcid.isEmpty then r.addrTable.lookup ⟨d.dst, d.src⟩ else r.cidTable.lookup d.dcid
  if idx.isNone && d.len > RESET_TOKEN_LEN then
    if d.len < MIN_RESET_PACKET_LEN then (none, false)
    else (r.tokenTable.lookup d.tail, (r.tokenTable.lookup d.tail).isSome)
  else (idx, false)

def insertWithCid (cid : ConnectionId) (idx : Nat) : ConnectionRoutes :=
  { r with cidTable := r.cidTable.insert cid idx }

def removeWithCid (cid : ConnectionId) : ConnectionRoutes :=
  { r with cidTable := r.cidTable.erase cid }

def insertWithAddr (addr : FourTuple) (idx : Nat) : ConnectionRoutes :=
  { r with addrTable := r.addrTable.insert addr idx }

def insertWithToken (token : ResetToken) (idx : Nat) : ConnectionRoutes :=
  { r with tokenTable := r.tokenTable.insert token idx }

def removeWithToken (token : ResetToken) : ConnectionRoutes :=
  { r with tokenTable := r.tokenTable.erase token }

/-- The CIDs whose entries go when the connection does. -/
def cidsOf (c : Connection) : List ConnectionId :=
  (if c.zeroLengthScid then [] else c.scids) ++ if c.isServer then c.odcid.toList else []

/-- mirrors :957-985 -/
def remove (c : Connection) : ConnectionRoutes :=
  { cidTable := r.cidTable.eraseAll (cidsOf c)
    addrTable := r.addrTable.eraseAll (if c.zeroLengthScid then c.paths else [])
    tokenTable := r.tokenTable.eraseAll (if c.zeroLengthDcid then [] else c.dcidTokens) }

end ConnectionRoutes

/-! ## The endpoint -/

structure Config where
  cidLen : Nat
  maxConcurrentConns : Nat
  retry : Bool
  statelessReset : Bool
  addressTokenLifetime : Nat
  sendBatchSize : Nat

/-- A token key with the tokens that were sealed under it. -/
structure Key where
  cipher : Cipher
  issued : List (Nonce × AddressToken) := []

structure Endpoint where
  isServer : Bool
  config : Config
  /-- `address_token_key`: tokens are sealed under the first and accepted under all -/
  key : Key
  olderKeys : List Key := []
  conns : Table Nat Connection := ∅
  nextIndex : Nat := 0
  routes : ConnectionRoutes := {}
  tickable : Finset Nat := ∅
  sendable : Finset Nat := ∅
  /-- the length of the packet queue -/
  packets : Nat := 0
  closed : Bool := false

/-- What a call draws from outside: the clock, the CID generator, the nonce, whether a TLS session can be set
up. -/
structure Env where
  now : Nat
  cid : ConnectionId
  nonce : Nonce
  tlsFails : Bool := false

inductive Reply where
  | delivered (idx : Nat)
  | reset (idx : Nat)
  | created (idx : Nat)
  | retry
  | invalidToken
  | versionNegotiation
  | tlsFail
  | ignored
  deriving DecidableEq

namespace Endpoint

variable (e : Endpoint)

/-- mirrors connection.rs:4071-4091 -/
def markTickable (idx : Nat) (tickable : Bool) : Endpoint :=
  match e.conns.lookup idx with
  | none => e
  | some c =>
    if tickable = c.tickable then e
    else
      { e with
        conns := e.conns.insert idx { c with tickable }
        tickable := if tickable then insert idx e.tickable else e.tickable.erase idx }

/-- mirrors connection.rs:4099-4119 -/
def markSendable (idx : Nat) (sendable : Bool) : Endpoint :=
  match e.conns.lookup idx with
  | none => e
  | some c =>
    if sendable = c.sendable then e
    else
      { e with
        conns := e.conns.insert idx { c with sendable }
        sendable := if sendable then insert idx e.sendable else e.sendable.erase idx }

def addPacket : Endpoint := { e with packets := e.packets + 1 }

def updateConn (idx : Nat) (f : Connection → Connection) : Endpoint :=
  { e with conns := e.conns.modify idx f }

/-- mirrors :422-468 -/
def sendStatelessReset (len : Nat) : Endpoint :=
  if len < e.config.cidLen + 19 ∨ len - 1 < MIN_RESET_PACKET_LEN then e else e.addPacket

def keys : List Key := e.key :: e.olderKeys

/-- The next key is tried on what the last one left in the buffer. `decode` never returns the error that
would stop the loop. mirrors :333-349 -/
def validateAddressToken (address : SocketAddr) (dcid : ConnectionId) (now lifetime : Nat) :
    Bytes → List Key → Except TokenError AddressToken × Bytes
  | token, [] => (.error .invalidToken, token)
  | token, k :: ks =>
    match decode k.cipher (logOf k.issued) token address dcid now lifetime with
    | (.ok t, token) => (.ok t, token)
    | (.error _, token) => validateAddressToken address dcid now lifetime token ks

/-- Seal a token under the first key. -/
def issue (nonce : Nonce) (token : AddressToken) : Endpoint :=
  { e with key := { e.key with issued := e.key.issued ++ [(nonce, token)] } }

/-- mirrors :380-409 -/
def sendRetry (d : Datagram) (env : Env) : Endpoint :=
  (e.issue env.nonce (newRetryToken env.now d.src d.dcid env.cid)).addPacket

/-- The new connection, its Resume token and its routes. mirrors connection.rs:321-326, :276-285 -/
def register (d : Datagram) (env : Env) (token : Option AddressToken) (odcid : ConnectionId) : Endpoint :=
  let path : FourTuple := ⟨d.dst, d.src⟩
  { e.issue env.nonce (newResumeToken env.now d.src) with
    conns := e.conns.insert e.nextIndex (.new true env.cid path token)
    nextIndex := e.nextIndex + 1
    routes :=
      if 0 < e.config.cidLen then (e.routes.insertWithCid env.cid e.nextIndex).insertWithCid odcid e.nextIndex
      else e.routes.insertWithAddr path e.nextIndex }

/-- mirrors :276-313 -/
def createConnection (d : Datagram) (env : Env) (token : Option AddressToken) (odcid : ConnectionId) : Endpoint :=
  ((e.register d env token odcid).markTickable e.nextIndex true).updateConn e.nextIndex (·.recv d.packets)

/-- What is to become of an Initial: a connection, with the token it brought, or an answer. -/
inductive Admission where
  | accept (token : Option AddressToken)
  | retry
  | refuse

/-- mirrors :250-268 -/
def admission (d : Datagram) (env : Env) : Admission :=
  match d.token with
  | some token =>
    match validateAddressToken d.src d.dcid env.now e.config.addressTokenLifetime token e.keys with
    | (.ok t, _) => .accept (some t)
    | (.error _, token) => if tokenTypeOf token = .ok .retryToken then .refuse else .retry
  | none => if e.config.retry then .retry else .accept none

/-- `token.odcid.unwrap()`, or the DCID of the packet. mirrors :270-273 -/
def originalDcid (d : Datagram) : Option AddressToken → Option ConnectionId
  | some token => token.odcid
  | none => some d.dcid

/-- An Initial for no known connection; the unwrap of `token.odcid` is the panic. mirrors :237-301 -/
def accept (d : Datagram) (env : Env) : Option (Endpoint × Reply) :=
  if e.config.maxConcurrentConns ≤ e.conns.keys.card then some (e, .ignored)
  else if !d.versionSupported then some (e.addPacket, .versionNegotiation)
  else
    match e.admission d env with
    | .refuse => some (e, .invalidToken)
    | .retry => some (e.sendRetry d env, .retry)
    | .accept token =>
      (originalDcid d token).bind fun odcid =>
        if env.tlsFails then some (e, .tlsFail)
        else some (e.createConnection d env token odcid, .created e.nextIndex)

/-- The connection that a datagram belongs to, and whether it was found by its reset token. -/
def target (d : Datagram) : Option (Nat × Bool) :=
  match e.routes.find d with
  | (some idx, reset) => if idx ∈ e.conns then some (idx, reset) else none
  | (none, _) => none

/-- A buffered 0-RTT packet only adds to the packets that come with the Initial, so the buffer is left out.
mirrors :197-326 -/
def recv (d : Datagram) (env : Env) : Option (Endpoint × Reply) :=
  match e.target d with
  | some (idx, reset) =>
    let e := e.markTickable idx true
    if reset && e.config.statelessReset then some (e.updateConn idx .reset, .reset idx)
    else some (e.updateConn idx (·.recv d.packets), .delivered idx)
  | none =>
    if !e.isServer then
      some (if e.config.statelessReset then e.sendStatelessReset d.len else e, .ignored)
    else if d.pktType = .initial ∧ e.closed = false then e.accept d env
    else if d.pktType = .oneRTT ∧ d.dcid.isEmpty = false ∧ e.config.statelessReset = true then
      some (e.sendStatelessReset d.len, .ignored)
    else some (e, .ignored)

/-- A client connection; if its handshake cannot be started it stays behind without a route.
mirrors :140-189 -/
def connect (scid : ConnectionId) (path : FourTuple) (starts : Bool) : Endpoint :=
  if e.isServer || e.closed then e
  else
    let idx := e.nextIndex
    let e := { e with conns := e.conns.insert idx (.new false scid path none), nextIndex := idx + 1 }
    if !starts then e
    else
      let e := e.markTickable idx true
      { e with routes :=
          if scid.isEmpty then e.routes.insertWithAddr path idx else e.routes.insertWithCid scid idx }

/-- A connection whose timer has expired, and what it does then. mirrors :482-495 -/
def onTimeout (expired : List (Nat × List ConnAct)) : Endpoint :=
  expired.foldl (fun e (idx, acts) => (e.markTickable idx true).updateConn idx (·.perform acts)) e

/-- A call of the application on one of the connections; most calls mark it tickable. -/
def useConn (idx : Nat) (marks : Bool) (acts : List ConnAct) : Endpoint :=
  (if marks then e.markTickable idx true else e).updateConn idx (·.perform acts)

/-- The connections, the routes and the timers go; the queues stay. mirrors :777-798 -/
def close (force : Bool) : Endpoint :=
  if force then { e with closed := true, conns := ∅, routes := {} } else { e with closed := true }

/-! ## A call of `process_connections` -/

/-- `gens` is what the CID generator gives; it is shorter than `num` when the SCIDs reach their limit.
mirrors :624-644 -/
def connAddScids (c : Connection) (routes : ConnectionRoutes) (idx : Nat) (gens : List ConnectionId) :
    Connection × ConnectionRoutes :=
  if c.zeroLengthScid then (c, routes)
  else ({ c with scids := c.scids ++ gens }, { routes with cidTable := routes.cidTable.insertAll gens idx })

/-- Poll the events of the connection `idx`. mirrors :556-586 -/
def pollEvents (idx : Nat) : Connection → ConnectionRoutes → List ConnectionId → List Event →
    Connection × ConnectionRoutes
  | c, routes, _, [] => (c, routes)
  | c, routes, gens, .scidToAdvertise num :: events =>
    let (c, routes) := connAddScids c routes idx (gens.take num)
    pollEvents idx c routes (gens.drop num) events
  | c, routes, gens, .scidRetired cid :: events => pollEvents idx c (routes.removeWithCid cid) gens events
  | c, routes, gens, .dcidAdvertised token :: events =>
    pollEvents idx c (routes.insertWithToken token idx) gens events
  | c, routes, gens, .dcidRetired token :: events => pollEvents idx c (routes.removeWithToken token) gens events
  | c, routes, gens, .resetTokenAdvertised token :: events =>
    pollEvents idx c (routes.insertWithToken token idx) gens events
  | c, routes, gens, .callback :: events => pollEvents idx c routes gens events

/-- What is done for a connection that is not closed; its events and the callbacks may leave it with more
packets to send. mirrors :556-620 -/
def pollConnection (idx : Nat) (c : Connection) (gens : List ConnectionId) (queued : Nat) : Endpoint :=
  let (c, routes) := pollEvents idx { c with events := [] } e.routes gens c.events
  let e := { e with routes, conns := e.conns.insert idx { c with outbox := c.outbox + queued } }
  (e.markSendable idx true).markTickable idx false

/-- mirrors :519-530 -/
def cleanUp (idx : Nat) (c : Connection) : Endpoint :=
  let e := (e.markTickable idx false).markSendable idx false
  { e with routes := e.routes.remove c, conns := e.conns.erase idx }

end Endpoint

inductive Phase where
  | ticking
  | sending
  | flushing
  | returned
  deriving DecidableEq

/-- A call in progress, with the connections that are still ready. -/
structure Pass where
  ep : Endpoint
  phase : Phase := .ticking
  ready : List Nat := []

/-- One turn of a loop. The index is the one the hash set yields, `accepted` how many packets the sender
takes (`none` if it fails); `next` leaves the loop. -/
inductive Turn where
  | tick (idx : Nat) (gens : List ConnectionId) (queued : Nat) (ready : Bool)
  | send (idx : Nat) (fails : Bool) (accepted : Option Nat)
  | flush (accepted : Option Nat)
  | next

namespace Pass

variable (p : Pass)

/-- The first loop. An index without a connection counts as processed. mirrors :508-531, 547-621 -/
def tick (idx : Nat) (gens : List ConnectionId) (queued : Nat) (ready : Bool) : Pass :=
  match p.ep.conns.lookup idx with
  | none => p
  | some c =>
    if c.closed then { p with ep := p.ep.cleanUp idx c }
    else
      { p with
        ep := p.ep.pollConnection idx c gens queued
        ready := if ready then p.ready ++ [idx] else p.ready }

/-- A full batch is handed to the sender. mirrors :723-735 -/
def sendBatch (accepted : Option Nat) : Pass :=
  if p.ep.packets < p.ep.config.sendBatchSize then p
  else
    match accepted with
    | none => { p with phase := .returned }
    | some n => { p with ep := { p.ep with packets := p.ep.packets - n } }

/-- The second loop. mirrors :693-737 -/
def send (idx : Nat) (fails : Bool) (accepted : Option Nat) : Pass :=
  match p.ep.conns.lookup idx with
  | none => p.sendBatch accepted
  | some c =>
    if c.draining || c.closed then { p with ep := p.ep.markSendable idx false }
    else if fails then { p with phase := .returned }
    else if 0 < c.outbox then
      { p with ep := (p.ep.updateConn idx fun c => { c with outbox := c.outbox - 1 }).addPacket }.sendBatch
        accepted
    else { p with ep := p.ep.markSendable idx false }.sendBatch accepted

/-- mirrors :536-541 -/
def finish : Pass :=
  { p with ep := p.ready.foldl (fun e idx => e.markTickable idx true) p.ep, phase := .returned }

/-- The last loop, over what is left in the packet queue. mirrors :752-767 -/
def flush (accepted : Option Nat) : Pass :=
  if min p.ep.config.sendBatchSize p.ep.packets = 0 then p.finish
  else
    match accepted with
    | none => { p with phase := .returned }
    | some 0 => p.finish
    | some n => { p with ep := { p.ep with packets := p.ep.packets - n } }

def step (t : Turn) : Option Pass :=
  match p.phase, t with
  | .ticking, .tick idx gens queued ready =>
    if idx ∈ p.ep.tickable then some (p.tick idx gens queued ready) else none
  | .ticking, .next => if p.ep.tickable = ∅ then some { p with phase := .sending } else none
  | .sending, .send idx fails accepted => if idx ∈ p.ep.sendable then some (p.send idx fails accepted) else none
  | .sending, .next => if p.ep.sendable = ∅ then some { p with phase := .flushing } else none
  | .flushing, .flush accepted => some (p.flush accepted)
  | _, _ => none

end Pass

/-! ## Runs of an endpoint -/

inductive Call where
  | connect (scid : ConnectionId) (path : FourTuple) (starts : Bool)
  | recv (d : Datagram) (env : Env)
  | onTimeout (expired : List (Nat × List ConnAct))
  | useConn (idx : Nat) (marks : Bool) (acts : List ConnAct)
  | close (force : Bool)
  | processConnections (turns : List Turn)

namespace Endpoint

/-- The call returns when its turns lead to `returned`. mirrors :498-542 -/
def processConnections (e : Endpoint) (turns : List Turn) : Option Endpoint := do
  let p ← LTS.run Pass.step { ep := e } turns
  if p.phase = .returned then return p.ep
  none

def step (e : Endpoint) : Call → Option Endpoint
  | .connect scid path starts => some (e.connect scid path starts)
  | .recv d env => (e.recv d env).map Prod.fst
  | .onTimeout expired => some (e.onTimeout expired)
  | .useConn idx marks acts => some (e.useConn idx marks acts)
  | .close force => some (e.close force)
  | .processConnections turns => e.processConnections turns

/-- mirrors :106-131 -/
def new (isServer : Bool) (config : Config) (key : Key) (olderKeys : List Key) : Endpoint :=
  { isServer, config, key, olderKeys }

/-! ## What the operations leave alone -/

/-- The configuration and the keys. -/
def fixed (e : Endpoint) : Bool × Config × Key × List Key := (e.isServer, e.config, e.key, e.olderKeys)

variable {e e' : Endpoint} {idx : Nat}

/-- Marking a connection sets its flag and, if that is a change, the queue. -/
theorem markTickable_eq (e : Endpoint) (idx : Nat) (tickable : Bool) : ∃ queue, e.markTickable idx tickable =
      { e with conns := e.conns.modify idx fun c => { c with tickable }, tickable := queue } := by
  unfold markTickable Table.modify
  cases h : e.conns.lookup idx with
  | none => exact ⟨_, rfl⟩
  | some c =>
    dsimp only
    split
    · next heq =>
      subst heq
      rw [insert_of_lookup h]
      exact ⟨_, rfl⟩
    · exact ⟨_, rfl⟩

theorem markSendable_eq (e : Endpoint) (idx : Nat) (sendable : Bool) : ∃ queue, e.markSendable idx sendable =
      { e with conns := e.conns.modify idx fun c => { c with sendable }, sendable := queue } := by
  unfold markSendable Table.modify
  cases h : e.conns.lookup idx with
  | none => exact ⟨_, rfl⟩
  | some c =>
    dsimp only
    split
    · next heq =>
      subst heq
      rw [insert_of_lookup h]
      exact ⟨_, rfl⟩
    · exact ⟨_, rfl⟩

@[simp] theorem mem_markTickable {i : Nat} {b : Bool} : i ∈ (e.markTickable idx b).conns ↔ i ∈ e.conns := by
  obtain ⟨queue, h⟩ := e.markTickable_eq idx b
  rw [h]
  exact mem_modify

@[simp] theorem mem_markSendable {i : Nat} {b : Bool} : i ∈ (e.markSendable idx b).conns ↔ i ∈ e.conns := by
  obtain ⟨queue, h⟩ := e.markSendable_eq idx b
  rw [h]
  exact mem_modify

section

variable (e : Endpoint) (idx : Nat)

@[simp] theorem markTickable_sendable (b : Bool) : (e.markTickable idx b).sendable = e.sendable := by
  obtain ⟨queue, h⟩ := e.markTickable_eq idx b
  rw [h]

@[simp] theorem markSendable_tickable (b : Bool) : (e.markSendable idx b).tickable = e.tickable := by
  obtain ⟨queue, h⟩ := e.markSendable_eq idx b
  rw [h]

@[simp] theorem markTickable_fixed (b : Bool) : (e.markTickable idx b).fixed = e.fixed := by
  obtain ⟨queue, h⟩ := e.markTickable_eq idx b
  rw [h]; rfl

@[simp] theorem markSendable_fixed (b : Bool) : (e.markSendable idx b).fixed = e.fixed := by
  obtain ⟨queue, h⟩ := e.markSendable_eq idx b
  rw [h]; rfl

@[simp] theorem updateConn_fixed (f : Connection → Connection) :
    (e.updateConn idx f).fixed = e.fixed := rfl

/-- The connection `idx` is marked tickable and does something. -/
theorem touch_fixed (f : Connection → Connection) : ((e.markTickable idx true).updateConn idx f).fixed = e.fixed := by
  simp

theorem pollConnection_fixed (c : Connection) (gens : List ConnectionId)
    (queued : Nat) : (e.pollConnection idx c gens queued).fixed = e.fixed := by
  simp only [pollConnection, markTickable_fixed, markSendable_fixed]
  rfl

theorem cleanUp_fixed (c : Connection) : (e.cleanUp idx c).fixed = e.fixed := by
  have h : ((e.markTickable idx false).markSendable idx false).fixed = e.fixed := by simp
  exact h

end

theorem connect_fixed (e : Endpoint) (scid : ConnectionId) (path : FourTuple) (starts : Bool) :
    (e.connect scid path starts).fixed = e.fixed := by
  unfold connect
  split
  · rfl
  split
  · rfl
  · exact markTickable_fixed _ _ _

theorem onTimeout_fixed (expired : List (Nat × List ConnAct)) (e : Endpoint) :
    (e.onTimeout expired).fixed = e.fixed := by
  induction expired generalizing e with
  | nil => rfl
  | cons x expired ih => exact (ih _).trans (by simp)

theorem useConn_fixed (e : Endpoint) (idx : Nat) (marks : Bool) (acts : List ConnAct) :
    (e.useConn idx marks acts).fixed = e.fixed := by
  unfold useConn
  split <;> simp

theorem close_fixed (e : Endpoint) (force : Bool) : (e.close force).fixed = e.fixed := by
  unfold close
  split <;> rfl

/-- What `recv` does, by the way it takes. -/
inductive Received (e : Endpoint) (d : Datagram) (env : Env) : Endpoint → Reply → Prop where
  | delivered (idx : Nat) (reset : Bool) (ht : e.target d = some (idx, reset))
      (hr : (reset && e.config.statelessReset) = false) :
      Received e d env ((e.markTickable idx true).updateConn idx (·.recv d.packets)) (.delivered idx)
  | reset (idx : Nat) (ht : e.target d = some (idx, true)) :
      Received e d env ((e.markTickable idx true).updateConn idx .reset) (.reset idx)
  | answered (ht : e.target d = none) (packets : Nat) (r : Reply) (hr : ∀ idx, r ≠ .created idx) :
      Received e d env { e with packets } r
  | retry (ht : e.target d = none) (hinitial : d.pktType = .initial) : Received e d env (e.sendRetry d env) .retry
  | created (ht : e.target d = none) (hinitial : d.pktType = .initial) (token : Option AddressToken)
      (odcid : ConnectionId) (hadm : e.admission d env = .accept token)
      (hodcid : originalDcid d token = some odcid) :
      Received e d env (e.createConnection d env token odcid) (.created e.nextIndex)

theorem received_of_recv {d : Datagram} {env : Env} {r : Reply} (h : e.recv d env = some (e', r)) :
    Received e d env e' r := by
  unfold recv at h
  split at h
  · next idx reset ht =>
    dsimp only at h
    have hconfig : (e.markTickable idx true).config = e.config := congrArg (·.2.1) (e.markTickable_fixed idx true)
    rw [hconfig] at h
    split at h
    · next hr =>
      cases h
      rw [Bool.and_eq_true] at hr
      rw [hr.1] at ht
      exact .reset idx ht
    · next hr => cases h; exact .delivered idx reset ht (by simpa using hr)
  rename_i ht
  have hreset : ∀ r : Reply, (∀ idx, r ≠ .created idx) → Received e d env (e.sendStatelessReset d.len) r := by
    intro r hr
    unfold sendStatelessReset
    split
    · exact .answered ht e.packets r hr
    · exact .answered ht (e.packets + 1) r hr
  split at h
  · cases h
    split
    · exact hreset _ (by simp)
    · exact .answered ht e.packets _ (by simp)
  split at h
  · next hinit =>
    unfold accept at h
    split at h
    · cases h; exact .answered ht e.packets _ (by simp)
    split at h
    · cases h; exact .answered ht (e.packets + 1) _ (by simp)
    split at h
    · cases h; exact .answered ht e.packets _ (by simp)
    · cases h; exact .retry ht hinit.1
    rename_i token hadm
    obtain ⟨odcid, hodcid, h⟩ := Option.bind_eq_some_iff.mp h
    split at h
    · cases h; exact .answered ht e.packets _ (by simp)
    · cases h; exact .created ht hinit.1 token odcid hadm hodcid
  split at h
  · cases h; exact hreset _ (by simp)
  · cases h; exact .answered ht e.packets _ (by simp)

end Endpoint

namespace Pass

variable {p p' : Pass} {t : Turn}

/-- The endpoint is changed by these operations only. -/
theorem step_ep (Inv : Endpoint → Prop)
    (hpoll : ∀ idx c gens queued ready, t = .tick idx gens queued ready → p.ep.conns.lookup idx = some c →
      Inv (p.ep.pollConnection idx c gens queued))
    (hclean : ∀ e idx c, Inv e → e.conns.lookup idx = some c → Inv (e.cleanUp idx c))
    (htick : ∀ e idx, Inv e → Inv (e.markTickable idx true)) (hsend : ∀ e idx, Inv e → Inv (e.markSendable idx false))
    (hout : ∀ e idx n, Inv e → Inv (e.updateConn idx fun c => { c with outbox := c.outbox - n }))
    (hpackets : ∀ (e : Endpoint) n, Inv e → Inv { e with packets := n })
    (h : Inv p.ep) (hs : p.step t = some p') : Inv p'.ep := by
  have hbatch : ∀ {q : Pass} {accepted : Option Nat}, Inv q.ep → Inv (q.sendBatch accepted).ep := by
    intro q accepted hq
    unfold sendBatch
    split
    · exact hq
    cases accepted with
    | none => exact hq
    | some n => exact hpackets _ _ hq
  have hfinish : ∀ (idxs : List Nat) (e : Endpoint), Inv e →
      Inv (idxs.foldl (fun e idx => e.markTickable idx true) e) := by
    intro idxs
    induction idxs with
    | nil => exact fun _ he => he
    | cons idx idxs ih => exact fun e he => ih _ (htick e idx he)
  unfold step at hs
  split at hs
  · next idx gens queued ready _ =>
    split at hs
    · cases hs
      unfold tick
      split
      · exact h
      rename_i c hc
      split
      · exact hclean _ _ _ h hc
      · exact hpoll _ _ _ _ _ rfl hc
    · cases hs
  · split at hs
    · cases hs; exact h
    · cases hs
  · split at hs
    · cases hs
      unfold send
      split
      · exact hbatch h
      split
      · exact hsend _ _ h
      split
      · exact h
      split
      · exact hbatch (hpackets _ _ (hout _ _ 1 h))
      · exact hbatch (hsend _ _ h)
    · cases hs
  · split at hs
    · cases hs; exact h
    · cases hs
  · cases hs
    unfold flush
    split
    · exact hfinish _ _ h
    split
    · exact h
    · exact hfinish _ _ h
    · exact hpackets _ _ h
  · cases hs

theorem step_fixed (hs : p.step t = some p') : p'.ep.fixed = p.ep.fixed :=
  step_ep (fun e => e.fixed = p.ep.fixed) (fun idx c gens queued _ _ _ => p.ep.pollConnection_fixed idx c gens queued)
    (fun e idx c h _ => (e.cleanUp_fixed idx c).trans h) (fun e idx h => (e.markTickable_fixed idx true).trans h)
    (fun e idx h => (e.markSendable_fixed idx false).trans h) (fun _ _ _ h => h) (fun _ _ h => h) rfl hs

end Pass

/-- A property of the endpoint that every turn keeps is kept by `process_connections`. -/
theorem Endpoint.processConnections_invariant (Inv : Endpoint → Prop) {ok : Pass → Turn → Prop}
    {turns : List Turn} (hstep : ∀ p t p', Inv p.ep → ok p t → p.step t = some p' → Inv p'.ep)
    {e e' : Endpoint} (h : Inv e) (ha : LTS.Along Pass.step ok { ep := e } turns)
    (hs : e.processConnections turns = some e') : Inv e' := by
  obtain ⟨p, hp, hret⟩ := Option.bind_eq_some_iff.mp hs
  have hinv := LTS.run_invariant hstep h ha hp
  split at hret
  · cases hret; exact hinv
  · cases hret

/-! ## An exchange

The values that the examples below are evaluated with. -/

namespace Exchange

def client : SocketAddr := { ip := .v4 (.replicate 4 10), port := 4433 }

def rscid : ConnectionId := .new [1, 2, 3, 4, 5, 6, 7, 8]

def env : Env := { now := 0, cid := rscid, nonce := .replicate 12 0 }

def endpoint (isServer retry : Bool) : Endpoint :=
  let config : Config :=
    { cidLen := 8, maxConcurrentConns := 100, retry, statelessReset := false
      addressTokenLifetime := 60, sendBatchSize := 1 }
  .new isServer config { cipher := L3.Tquic.clearCipher } []

/-- An Initial of the client. -/
def initial (dcid : ConnectionId) : Datagram :=
  { pktType := .initial, dcid, len := 1200, tail := .replicate 16 0, dst := client, src := client }

/-- The Initial that answers a Retry for `dcid` and returns its token. -/
def returned (dcid : Bytes) : Datagram :=
  let token := L3.Tquic.LABEL ++ List.replicate 21 0 ++ UInt8.ofNat dcid.length :: dcid ++ List.replicate 16 0
  { initial rscid with token := some token }

end Exchange

end MoqQuic.L4.Tquic
