import MoqQuic.L2Machine.Tquic.Path

/-!
# The send limit of a tquic server (`connection/connection.rs`, `path.rs`)

Before the peer's address is verified, `recv` adds `anti_ampl_factor` times the
length of a datagram to the path's limit and `send` writes no more than the
limit. Each packet is deducted as it is written (`dec_anti_ampl_limit`). Two
things escape the account:

* the zeros `send` appends to a datagram with an Initial packet are part of the
  datagram and are not deducted (`connection.rs:1621-1625`);
* a packet that was put aside because its keys were missing is passed to `recv`
  again later, which credits its bytes a second time (`connection.rs:1361`).

The contents of packets are outside: a received packet comes with what becomes
of it, and a packet to send with its size. `written` never exceeds `left` except
for a PMTU probe, whose conditions are kept. The TLS session of a server
completes on the client's Finished, which only a Handshake packet carries. The
slot that the address index gives for a datagram is an argument.

`rcvdOn` and `sentOn` are ghost counters, per slot, of the datagrams received
and returned.

Results:
* `sent_within_factor`: while a path is unverified, the datagrams sent on it stay
  within the factor, in every run where no packet is put aside and no datagram
  with an Initial packet is padded on an unverified path.

Line numbers without a file are those of `connection.rs`.
-/
namespace MoqQuic.L3.Tquic
open LTS L1.Tquic L2.Tquic List Function Option PathMap

/-! ## What arrives -/

/-- The addresses of a datagram, local and remote. -/
structure PacketInfo where
  dst : SocketAddr
  src : SocketAddr
  deriving DecidableEq

/-- A frame by what it does to the paths; `bad` fails. -/
inductive Frame where
  | pathChallenge (data : ChalData)
  | pathResponse (data : ChalData)
  | other
  | bad
  deriving DecidableEq

/-- How a packet that was put aside is received once its keys are there; `frames` is `none` when it is
dropped. -/
structure Replay where
  pktType : PacketType
  pid : Option Nat
  info : PacketInfo
  knownDcid : Bool
  frames : Option (List Frame)
  deriving DecidableEq

/-- A CRYPTO frame may complete the handshake; the packets put aside are then received. -/
inductive RecvFrame where
  | path (frame : Frame)
  | crypto (completes : Bool) (replays : List Replay)
  deriving DecidableEq

/-- What becomes of a packet once its path is chosen; Version Negotiation and Retry are dropped. -/
inductive Outcome where
  | drop
  | putAside
  | frames (fs : List RecvFrame)
  deriving DecidableEq

structure RecvPacket where
  pktType : PacketType
  size : Nat
  knownDcid : Bool := true
  outcome : Outcome
  deriving DecidableEq

/-- A datagram, with the slot that the address index gives for it. -/
structure Datagram where
  len : Nat
  pid : Option Nat
  info : PacketInfo
  packets : List RecvPacket
  replays : List Replay := []
  deriving DecidableEq

/-! ## What is sent -/

structure SendPacket where
  pktType : PacketType
  size : Nat
  probe : Bool := false
  challenge : Option (ChalData × Nat) := none
  deriving DecidableEq

/-- What the next call of `send_packet` has to write; `fail` is an error other than `Done`. -/
inductive Offer where
  | packet (p : SendPacket)
  | fail
  deriving DecidableEq

structure Connection where
  paths : PathMap
  maxDatagramSize : Nat
  maxUndecryptable : Nat
  handshakeCompleted : Bool := false
  /-- `local_error.is_some()` -/
  closing : Bool := false
  undecryptable : List (PacketType × Nat) := []
  rcvdOn : Nat → Nat := fun _ => 0
  sentOn : Nat → Nat := fun _ => 0

/-- Why a packet is not processed to its end. -/
inductive Stop where
  | done
  | failed

namespace Connection

/-! ## Receiving -/

variable (c : Connection)

/-- The slot of a datagram, if the index has one. -/
def getPathId (pid : Option Nat) : Option Nat := pid.filter (· < c.paths.paths.length)

/-- mirrors :422-425 -/
def incLimit (pid len : Nat) : Connection :=
  { c with paths := c.paths.incAntiAmplLimit pid len }

/-- `total` is what the new path has received. The source does not check that the product of a length and the
configured factor fits into `usize`; here it is taken to. mirrors :3152-3215 -/
def getOrCreatePath (recvPid : Option Nat) (knownDcid : Bool) (info : PacketInfo)
    (bufLen total : Nat) : Option (Nat × Connection) :=
  if !knownDcid then none
  else
    match recvPid with
    | some pid => some (pid, c)
    | none => do
      let path := Path.new info.dst info.src false c.maxDatagramSize
      let limit := if c.paths.isServer then bufLen * c.paths.antiAmplFactor else 0
      let (pid, paths) ← c.paths.insertPath { path with antiAmplLimit := limit, needSendChallenge := true }
      return (pid, { c with paths, rcvdOn := Function.update c.rcvdOn pid total
                            sentOn := Function.update c.sentOn pid 0 })

/-- mirrors :494-500 -/
def selectPath (pktType : PacketType) (recvPid : Option Nat) (knownDcid : Bool)
    (info : PacketInfo) (bufLen total : Nat) : Except Stop (Nat × Connection) :=
  if pktType = .oneRTT ∧ c.handshakeCompleted then
    match c.getOrCreatePath recvPid knownDcid info bufLen total with
    | some r => .ok r
    | none => .error .done
  else
    match c.paths.paths.findIdx? Path.active with
    | some pid => .ok (pid, c)
    | none => .error .failed

/-- mirrors :876-887 -/
def recvPathFrame (pid : Nat) : Frame → Connection
  | .pathChallenge data => { c with paths := c.paths.modify pid (·.onPathChalReceived data) }
  | .pathResponse data => { c with paths := c.paths.onPathRespReceived pid data }
  | .other => c
  | .bad => c

/-- The loop over the frames of a packet; the flag says that none failed. -/
def recvPathFrames (c : Connection) (pid : Nat) : List Frame → Connection × Bool
  | [] => (c, true)
  | .bad :: _ => (c, false)
  | frame :: rest => (c.recvPathFrame pid frame).recvPathFrames pid rest

/-- mirrors :686-700 -/
def finishPacket (pktType : PacketType) (pid : Nat) : Connection :=
  if c.paths.isServer ∧ pktType = .handshake then
    { c with paths := c.paths.modify pid ({ · with verifiedPeerAddress := true }) }
  else c

/-- mirrors :4376-4383 -/
def pop (pktType : PacketType) : Option (Nat × Connection) := do
  let (_, size) ← c.undecryptable.find? (·.1 = pktType)
  return (size, { c with undecryptable := c.undecryptable.erase (pktType, size) })

/-- `recv` for a packet that was put aside: its bytes are credited again.
mirrors :1360-1366 -/
def replay (r : Replay) : Connection :=
  match c.pop r.pktType with
  | none => c
  | some (size, c) =>
    let pid := c.getPathId r.pid
    let c := match pid with
      | some pid => c.incLimit pid size
      | none => c
    if c.closing then c
    else
      match c.selectPath r.pktType pid r.knownDcid r.info size size with
      | .error .done => c
      | .error .failed => { c with closing := true }
      | .ok (pid, c) =>
        match r.frames with
        | none => c
        | some fs =>
          match c.recvPathFrames pid fs with
          | (c, true) => c.finishPacket r.pktType pid
          | (c, false) => { c with closing := true }

/-- The receptions of the packets put aside follow one another: each ends in the loop that takes out the
next. mirrors :1338-1369 -/
def tryProcessUndecryptablePackets (replays : List Replay) : Connection :=
  replays.foldl replay c

/-- mirrors :708-, :1115-1180 -/
def recvFrames (c : Connection) (pktType : PacketType) (pid : Nat) : List RecvFrame → Connection × Bool
  | [] => (c, true)
  | .path .bad :: _ => (c, false)
  | .path frame :: rest => (c.recvPathFrame pid frame).recvFrames pktType pid rest
  | .crypto completes replays :: rest =>
    if completes ∧ pktType = .handshake then
      let c := { c with handshakeCompleted := true }
      (c.tryProcessUndecryptablePackets replays).recvFrames pktType pid rest
    else c.recvFrames pktType pid rest

/-- mirrors :1308-1335, :4346-4374 -/
def tryBufferUndecryptablePackets (pktType : PacketType) (size : Nat) : Connection :=
  let kept := if c.paths.isServer then [.zeroRTT, .oneRTT] else [PacketType.handshake, .oneRTT]
  if c.handshakeCompleted ∨ pktType ∉ kept then c
  else if (c.undecryptable.filter (·.1 = pktType)).length > c.maxUndecryptable then c
  else { c with undecryptable := c.undecryptable ++ [(pktType, size)] }

/-- `bufLen` bytes of the datagram are left. mirrors :451-705 -/
def recvPacket (p : RecvPacket) (d : Datagram) (pid : Option Nat) (bufLen : Nat) : Connection × Except Stop Nat :=
  if c.closing then (c, .error .done)
  else
    match c.selectPath p.pktType pid p.knownDcid d.info bufLen d.len with
    | .error stop => (c, .error stop)
    | .ok (pid, c) =>
      match p.outcome with
      | .drop => (c, .error .done)
      | .putAside => (c.tryBufferUndecryptablePackets p.pktType p.size, .ok p.size)
      | .frames fs =>
        match c.recvFrames p.pktType pid fs with
        | (c, true) => (c.finishPacket p.pktType pid, .ok p.size)
        | (c, false) => (c, .error .failed)

/-- The loop over the packets of a datagram; the flag says that `recv` goes on behind it.
mirrors :427-440 -/
def recvPackets (c : Connection) (d : Datagram) (pid : Option Nat) : Nat → List RecvPacket → Connection × Bool
  | _, [] => (c, true)
  | left, p :: rest =>
    if left = 0 then (c, true)
    else
      match c.recvPacket p d pid left with
      | (c, .ok len) => c.recvPackets d pid (left - len) rest
      | (c, .error .done) => (c, true)
      | (c, .error .failed) => ({ c with closing := true }, false)

/-- mirrors :427-447 -/
def recvBody (d : Datagram) (pid : Option Nat) : Connection :=
  match c.recvPackets d pid d.len d.packets with
  | (c, true) => if c.handshakeCompleted then c else c.tryProcessUndecryptablePackets d.replays
  | (c, false) => c

/-- mirrors :403-448 -/
def recv (d : Datagram) : Connection :=
  let pid := c.getPathId d.pid
  if d.len = 0 ∨ (pid.isNone ∧ !c.paths.isServer) then c
  else
    match pid with
    | some pid =>
      let rcvdOn := Function.update c.rcvdOn pid (c.rcvdOn pid + d.len)
      { c.incLimit pid d.len with rcvdOn }.recvBody d pid
    | none => c.recvBody d none

/-! ## Sending -/

/-- mirrors :1576-1577 -/
def sendLimit (pid outLen : Nat) : Nat :=
  c.paths.cmpAntiAmplLimit pid (min outLen (((c.paths.paths[pid]?).map Path.maxDatagramSize).getD
    MIN_CLIENT_INITIAL_LEN))

/-- A packet is cut to `left`; a probe has a size of its own, and conditions.
mirrors :1738-1749 and :2106-2152 -/
def fits (pid left : Nat) (first : Bool) (p : SendPacket) : Bool :=
  if p.probe then
    p.pktType = .oneRTT && c.handshakeCompleted && !c.closing && first && (c.paths.paths[pid]?).any Path.validated
  else p.size ≤ left

/-- mirrors :1878-1881 -/
def recordChallenge (paths : PathMap) (pid : Nat) (p : SendPacket) : PathMap :=
  match p.challenge with
  | some (data, now) => paths.modify pid (·.onPathChalSent data p.size now)
  | none => paths

/-- `none` is `Err(BufferTooShort)` or `Err(Done)`. mirrors :1655-1931 -/
def sendPacket (pid left : Nat) (first : Bool) (p : SendPacket) : Option Connection :=
  if c.fits pid left first p then
    some { c with paths := (recordChallenge c.paths pid p).decAntiAmplLimit pid p.size }
  else none

/-- The local variables of `send`. -/
structure Progress where
  left : Nat
  done : Nat := 0
  hasInitial : Bool := false

/-- The loop of `send`; `none` when it returns an error. mirrors :1583-1610 -/
def sendPackets (c : Connection) (pid : Nat) (g : Progress) : List Offer → Connection × Option Progress
  | [] => (c, some g)
  | offer :: rest =>
    if g.left = 0 then (c, some g)
    else
      match offer with
      | .fail => (c, none)
      | .packet p =>
        match c.sendPacket pid g.left (g.done = 0) p with
        | none => (c, some g)
        | some c =>
          let g := { left := g.left - p.size, done := g.done + p.size
                     hasInitial := g.hasInitial || p.pktType = .initial }
          if p.pktType = .oneRTT ∨ p.probe then (c, some g) else c.sendPackets pid g rest

/-- The zeros that fill up a datagram with an Initial packet. mirrors :1621-1625 -/
def padLen (g : Progress) : Nat :=
  if g.hasInitial ∧ g.left > 0 ∧ g.done < MIN_CLIENT_INITIAL_LEN then
    min g.left (MIN_CLIENT_INITIAL_LEN - g.done)
  else 0

/-- `c` once a datagram of `n` bytes has left on `pid`. -/
def spend (pid n : Nat) : Connection :=
  { c with sentOn := Function.update c.sentOn pid (c.sentOn pid + n) }

/-- The length of the datagram, if one is returned. mirrors :1544-1634 -/
def send (pid outLen : Nat) (offers : List Offer) : Connection × Option Nat :=
  if outLen < MIN_CLIENT_INITIAL_LEN ∨ c.paths.paths.length ≤ pid then (c, none)
  else
    match c.sendPackets pid { left := c.sendLimit pid outLen } offers with
    | (c, none) => (c, none)
    | (c, some g) =>
      if g.done = 0 then (c, none)
      else (c.spend pid (g.done + padLen g), some (g.done + padLen g))

end Connection

/-- The calls of the endpoint. -/
inductive Call where
  | recv (d : Datagram)
  | send (pid outLen : Nat) (offers : List Offer)
  | timeout (now : Nat)

def Connection.step (c : Connection) : Call → Option Connection
  | .recv d => some (c.recv d)
  | .send pid outLen offers => some (c.send pid outLen offers).1
  | .timeout now => some { c with paths := c.paths.onPathChalTimeout now }

/-! ## Operations on paths -/

/-- What every operation on a path does: it takes no verification back, adds at most `extra` credit,
validates only what it verifies, and leaves a validated path as active as it was. -/
structure Tame (extra : Nat) (p p' : Path) : Prop where
  credit : p'.verifiedPeerAddress = false → p.verifiedPeerAddress = false ∧ p'.antiAmplLimit ≤ p.antiAmplLimit + extra
  validated : p'.state = .validated → p.state = .validated ∨ p'.verifiedPeerAddress = true
  active : p.state = .validated → p'.state = .validated ∧ p'.active = p.active

namespace Tame

variable {extra : Nat} {p p' q r : Path}

theorem trans (h1 : Tame extra p q) (h2 : Tame 0 q r) : Tame extra p r where
  credit hr := by
    obtain ⟨hq, hle⟩ := h2.credit hr
    obtain ⟨hp, hle'⟩ := h1.credit hq
    exact ⟨hp, Nat.le_trans hle hle'⟩
  validated hr := by
    rcases h2.validated hr with hq | hv
    · rcases h1.validated hq with hp | hv
      · exact .inl hp
      right
      by_contra hne
      exact absurd hv (by simp [(h2.credit (by simpa using hne)).1])
    · exact .inr hv
  active hp := by
    obtain ⟨hq, ha⟩ := h1.active hp
    obtain ⟨hr, ha'⟩ := h2.active hq
    exact ⟨hr, ha'.trans ha⟩

/-- Operations that touch neither the verification, the state nor the activity. -/
theorem of_eq (hl : p'.antiAmplLimit ≤ p.antiAmplLimit + extra)
    (hv : p'.verifiedPeerAddress = p.verifiedPeerAddress) (hs : p'.state = p.state)
    (ha : p'.active = p.active) : Tame extra p p' :=
  ⟨fun h => ⟨hv.symm.trans h, hl⟩, fun h => .inl (hs.symm.trans h), fun h => ⟨hs.trans h, ha⟩⟩

variable (p : Path)

theorem refl : Tame extra p p := of_eq (Nat.le_add_right ..) rfl rfl rfl

theorem verify : Tame extra p { p with verifiedPeerAddress := true } :=
  ⟨fun h => (by cases h), .inl, fun h => ⟨h, rfl⟩⟩

theorem onPathRespReceived (data : ChalData) (multipath : Bool) :
    Tame extra p (p.onPathRespReceived data multipath).2 := by
  by_cases hst : p.state = .validated
  · rw [Path.onPathRespReceived, if_pos hst]
    exact refl p
  have hv : (p.onPathRespReceived data multipath).2.verifiedPeerAddress = true :=
    Path.onPathRespReceived_verified hst multipath
  exact ⟨fun h => absurd (hv.symm.trans h) (by decide), fun _ => .inr hv, fun h => absurd h hst⟩

theorem onPathChalSent (data : ChalData) (size now : Nat) : Tame 0 p (p.onPathChalSent data size now) := by
  have hpromote : Tame 0 p (p.promoteTo .validating) := by
    unfold Path.promoteTo
    split
    · next hlt =>
      refine ⟨fun h => ⟨h, le_rfl⟩, fun h => (by cases h), fun h => ?_⟩
      rw [h] at hlt
      exact absurd hlt (by decide)
    · exact refl p
  exact hpromote.trans (of_eq le_rfl rfl rfl rfl)

theorem dropLost (now : Nat) (chals : List SentChal) (p : Path) (hst : p.state ≠ .validated) :
    Tame 0 p (p.dropLost now chals) := by
  induction chals generalizing p with
  | nil => exact of_eq le_rfl rfl rfl rfl
  | cons chal rest ih =>
    rw [Path.dropLost]
    split
    · exact of_eq le_rfl rfl rfl rfl
    dsimp only
    split
    · refine trans ?_ (ih _ hst)
      exact of_eq le_rfl rfl rfl rfl
    · exact ⟨fun h => ⟨h, le_rfl⟩, fun h => (by cases h), fun h => absurd h hst⟩

theorem onPathChalTimeout (now : Nat) : Tame 0 p (p.onPathChalTimeout now) := by
  unfold Path.onPathChalTimeout
  split
  · exact refl p
  rename_i hst
  refine dropLost now p.sentChals p fun hval => hst ?_
  rw [hval]
  exact ⟨by decide, by decide⟩

end Tame

/-- Slot by slot, `m'` is `m` after tame operations. -/
structure TameMap (extra : Nat → Nat) (m m' : PathMap) : Prop where
  length : m'.paths.length = m.paths.length
  path : ∀ (pid : Nat) (p' : Path), m'.paths[pid]? = some p' → ∃ p, m.paths[pid]? = some p ∧ Tame (extra pid) p p'
  isServer : m'.isServer = m.isServer
  factor : m'.antiAmplFactor = m.antiAmplFactor

namespace TameMap

variable {extra : Nat → Nat} (m : PathMap) (pid : Nat)

theorem refl : TameMap extra m m := ⟨rfl, fun _ p' h => ⟨p', h, .refl p'⟩, rfl, rfl⟩

theorem trans {m m1 m2 : PathMap} (h1 : TameMap extra m m1) (h2 : TameMap (fun _ => 0) m1 m2) :
    TameMap extra m m2 where
  length := h2.length.trans h1.length
  path pid p' hp' := by
    obtain ⟨q, hq, hqp⟩ := h2.path pid p' hp'
    obtain ⟨p, hp, hpq⟩ := h1.path pid q hq
    exact ⟨p, hp, hpq.trans hqp⟩
  isServer := h2.isServer.trans h1.isServer
  factor := h2.factor.trans h1.factor

theorem modify {f : Path → Path} (hf : ∀ p, Tame (extra pid) p (f p)) :
    TameMap extra m (m.modify pid f) where
  length := by simp [PathMap.modify]
  path j p' hp' := by
    rw [PathMap.getElem?_modify] at hp'
    obtain ⟨p, hp, rfl⟩ := map_eq_some_iff.mp hp'
    refine ⟨p, hp, ?_⟩
    split
    · next heq => subst heq; exact hf p
    · exact .refl p
  isServer := rfl
  factor := rfl

theorem onPathChalTimeout (now : Nat) : TameMap (fun _ => 0) m (m.onPathChalTimeout now) where
  length := by simp [PathMap.onPathChalTimeout]
  path j p' hp' := by
    simp only [PathMap.onPathChalTimeout, List.getElem?_map] at hp'
    obtain ⟨p, hp, rfl⟩ := map_eq_some_iff.mp hp'
    exact ⟨p, hp, .onPathChalTimeout p now⟩
  isServer := rfl
  factor := rfl

/-- A datagram is credited with the factor, or less where the limit saturates. -/
theorem incAntiAmplLimit (len : Nat) :
    TameMap (Function.update (fun _ => 0) pid (m.antiAmplFactor * len)) m (m.incAntiAmplLimit pid len) := by
  unfold PathMap.incAntiAmplLimit
  split
  · exact refl m
  refine modify m pid fun p => ?_
  rw [update_self]
  split
  · refine .of_eq ?_ rfl rfl rfl
    dsimp only
    omega
  · exact .refl p

theorem decAntiAmplLimit (len : Nat) : TameMap extra m (m.decAntiAmplLimit pid len) := by
  unfold PathMap.decAntiAmplLimit
  split
  · exact refl m
  refine modify m pid fun p => ?_
  split
  · refine .of_eq ?_ rfl rfl rfl
    dsimp only
    omega
  · exact .refl p

end TameMap

/-! ## The account -/

/-- What the limits and the ghost counters keep to, on every path; the slots in `exempt` may be validated
without being verified although the handshake has completed. -/
structure SoundBut (exempt : Nat → Prop) (c : Connection) : Prop where
  server : c.paths.isServer = true
  credit : ∀ (pid : Nat) (p : Path), c.paths.paths[pid]? = some p → p.verifiedPeerAddress = false →
    c.sentOn pid + p.antiAmplLimit ≤ c.paths.antiAmplFactor * c.rcvdOn pid
  /-- before the handshake completes, the initial path is the only one -/
  solo : c.handshakeCompleted = false → ∃ p, c.paths.paths = [p] ∧ p.state = .validated ∧ p.active = true
  trusted : c.handshakeCompleted = true → c.closing = false → ∀ (pid : Nat) (p : Path),
    c.paths.paths[pid]? = some p → ¬ exempt pid → p.state = .validated → p.verifiedPeerAddress = true
  aside : c.undecryptable = []

/-- The invariant between calls. -/
abbrev Sound : Connection → Prop := SoundBut fun _ => False

namespace SoundBut

variable {exempt : Nat → Prop} {c : Connection}

/-- Operations on paths keep the account if what they credit has been received. -/
theorem tame (h : SoundBut exempt c) {extra rcvdOn : Nat → Nat} {m' : PathMap} (ht : TameMap extra c.paths m')
    (hr : ∀ pid, c.paths.antiAmplFactor * c.rcvdOn pid + extra pid ≤ c.paths.antiAmplFactor * rcvdOn pid) :
    SoundBut exempt { c with paths := m', rcvdOn } where
  server := ht.isServer.trans h.server
  credit pid p' hp' hv := by
    obtain ⟨p, hp, hpp⟩ := ht.path pid p' hp'
    obtain ⟨hv', hle⟩ := hpp.credit hv
    have := h.credit pid p hp hv'
    have := hr pid
    simp only [ht.factor]
    omega
  solo hc := by
    obtain ⟨p, hpaths, hst, hact⟩ := h.solo hc
    have hlen : m'.paths.length = 1 := by rw [ht.length, hpaths]; rfl
    obtain ⟨p', hp'⟩ := length_eq_one_iff.mp hlen
    obtain ⟨q, hq, htame⟩ := ht.path 0 p' (by simp [hp'])
    have hqp : p = q := by simpa [hpaths] using hq
    subst hqp
    obtain ⟨hst', hact'⟩ := htame.active hst
    exact ⟨p', hp', hst', hact'.trans hact⟩
  trusted hc hcl pid p' hp' hex hst := by
    obtain ⟨p, hp, hpp⟩ := ht.path pid p' hp'
    rcases hpp.validated hst with hst' | hv
    · by_contra hne
      have hv := h.trusted hc hcl pid p hp hex hst'
      rw [(hpp.credit (by simpa using hne)).1] at hv
      cases hv
    · exact hv
  aside := h.aside

theorem quiet (h : SoundBut exempt c) {m' : PathMap} (ht : TameMap (fun _ => 0) c.paths m') :
    SoundBut exempt { c with paths := m' } :=
  h.tame ht fun _ => le_rfl

/-- A closing connection is trusted with anything. -/
theorem close (h : SoundBut exempt c) : Sound { c with closing := true } :=
  { h with trusted := fun _ hcl => by cases hcl }

theorem weaken (h : Sound c) : SoundBut exempt c :=
  { h with trusted := fun hc hcl pid p hp _ => h.trusted hc hcl pid p hp id }

/-- With nothing put aside there is nothing to receive again. -/
theorem tryProcessUndecryptablePackets_eq (h : c.undecryptable = []) (replays : List Replay) :
    c.tryProcessUndecryptablePackets replays = c := by
  have hreplay : ∀ r, c.replay r = c := by
    intro r
    simp [Connection.replay, Connection.pop, h]
  induction replays with
  | nil => rfl
  | cons r rest ih => simpa [Connection.tryProcessUndecryptablePackets, hreplay r] using ih

/-! ### Receiving -/

/-- The datagram is counted and credited. -/
theorem receive (h : SoundBut exempt c) (pid len : Nat) :
    SoundBut exempt { c with paths := c.paths.incAntiAmplLimit pid len
                             rcvdOn := Function.update c.rcvdOn pid (c.rcvdOn pid + len) } := by
  refine h.tame (.incAntiAmplLimit c.paths pid len) fun j => ?_
  by_cases hj : j = pid
  · subst hj
    simp [Nat.mul_add]
  · simp [update_of_ne hj]

variable {bufLen : Nat}

theorem getOrCreatePath {recvPid : Option Nat} {known : Bool} {info : PacketInfo} {total pid : Nat}
    {c' : Connection} (h : Sound c) (hdone : c.handshakeCompleted = true) (hle : bufLen ≤ total)
    (heq : c.getOrCreatePath recvPid known info bufLen total = some (pid, c')) :
    Sound c' ∧ c'.handshakeCompleted = true := by
  unfold Connection.getOrCreatePath at heq
  split at heq
  · cases heq
  cases recvPid with
  | some recvPid => cases heq; exact ⟨h, hdone⟩
  | none =>
    obtain ⟨⟨pid', m'⟩, hins, hpair⟩ := bind_eq_some_iff.mp heq
    cases hpair
    obtain ⟨hserver, hfactor⟩ := insertPath_config hins
    refine ⟨⟨hserver.trans h.server, fun j p hp hv => ?_, fun hc => ?_, ?_, h.aside⟩, hdone⟩
    · dsimp only at hp ⊢
      rw [hfactor]
      rcases insertPath_slots hins hp with ⟨rfl, rfl⟩ | ⟨hne, hold⟩
      · simp only [update_self, h.server, if_true, Nat.zero_add, Nat.mul_comm]
        exact Nat.mul_le_mul_right _ hle
      rw [update_of_ne hne, update_of_ne hne]
      exact h.credit j p hold hv
    · rw [hdone] at hc; cases hc
    intro hc hcl j p hp hex hst
    rcases insertPath_slots hins hp with ⟨-, rfl⟩ | ⟨-, hold⟩
    · cases hst
    · exact h.trusted hc hcl j p hold hex hst

/-- Before the handshake completes, a packet is processed on the initial path. -/
theorem selectPath {pktType : PacketType} {recvPid : Option Nat} {known : Bool} {info : PacketInfo}
    {total pid : Nat} {c' : Connection} (h : Sound c) (hle : bufLen ≤ total)
    (heq : c.selectPath pktType recvPid known info bufLen total = .ok (pid, c')) :
    Sound c' ∧ (c'.handshakeCompleted = false → pid = 0) := by
  unfold Connection.selectPath at heq
  split at heq
  · next hone =>
    split at heq
    · next hcreate =>
      cases heq
      obtain ⟨hs, hdone⟩ := h.getOrCreatePath hone.2 hle hcreate
      exact ⟨hs, fun hc => by rw [hdone] at hc; cases hc⟩
    · cases heq
  split at heq
  · next hfind =>
    cases heq
    refine ⟨h, fun hc => ?_⟩
    obtain ⟨p, hpaths, -, hact⟩ := h.solo hc
    simpa [hpaths, hact, eq_comm] using hfind
  · cases heq

theorem recvPathFrame (h : SoundBut exempt c) (pid : Nat) (frame : Frame) :
    SoundBut exempt (c.recvPathFrame pid frame) := by
  cases frame with
  | pathChallenge data =>
    exact h.quiet (.modify c.paths pid fun p => .of_eq le_rfl rfl rfl rfl)
  | pathResponse data => exact h.quiet (.modify c.paths pid fun p => .onPathRespReceived p data _)
  | other | bad => exact h

/-- The handshake completes at the latest with slot 0 exempt: a Handshake packet is about to verify it. -/
theorem recvFrames {pktType : PacketType} {pid : Nat} (fs : List RecvFrame) (h : SoundBut exempt c)
    (hex : pktType = .handshake → exempt 0 ∨ c.handshakeCompleted = true) :
    SoundBut exempt (c.recvFrames pktType pid fs).1 := by
  induction fs generalizing c with
  | nil => exact h
  | cons f rest ih =>
    cases f with
    | path frame =>
      cases frame with
      | bad => exact h
      | pathChallenge data | pathResponse data => exact ih (h.recvPathFrame pid _) hex
      | other => exact ih h hex
    | crypto completes replays =>
      rw [Connection.recvFrames]
      split
      · next hc =>
        dsimp only
        rw [tryProcessUndecryptablePackets_eq (c := { c with handshakeCompleted := true }) h.aside]
        refine ih { h with solo := fun hnot => (by cases hnot), trusted := fun _ hcl j p hp hne hst => ?_ }
          fun _ => .inr rfl
        cases hdone : c.handshakeCompleted with
        | true => exact h.trusted hdone hcl j p hp hne hst
        | false =>
          -- slot 0 is the only one, and it is exempt
          obtain ⟨q, hpaths, -, -⟩ := h.solo hdone
          obtain ⟨hlt, -⟩ := List.getElem?_eq_some_iff.mp hp
          have hj : j = 0 := by simp only [hpaths, length_singleton] at hlt; omega
          rcases hex hc.2 with he | he
          · exact absurd (hj ▸ he) hne
          · rw [hdone] at he; cases he
      · exact ih h hex

theorem finishPacket (h : Sound c) (pktType : PacketType) (pid : Nat) : Sound (c.finishPacket pktType pid) := by
  unfold Connection.finishPacket
  split
  · exact h.quiet (.modify c.paths pid fun p => .verify p)
  · exact h

/-- The Handshake packet that completes the handshake verifies the initial path. -/
theorem finishPacket_zero (h : SoundBut (· = 0) c) : Sound (c.finishPacket .handshake 0) := by
  rw [Connection.finishPacket, if_pos ⟨h.server, rfl⟩]
  have hq := h.quiet (.modify c.paths 0 fun p => Tame.verify p)
  refine { hq with trusted := fun hc hcl j p hp _ hst => ?_ }
  by_cases hj : j = 0
  · subst hj
    rw [PathMap.getElem?_modify] at hp
    obtain ⟨q, -, rfl⟩ := map_eq_some_iff.mp hp
    simp
  · exact hq.trusted hc hcl j p hp hj hst

/-- A packet that is not put aside keeps the account; one that fails leaves slot 0 exempt at most. -/
theorem recvPacket (h : Sound c) {p : RecvPacket} (hp : p.outcome ≠ .putAside) (d : Datagram)
    (pid : Option Nat) (hle : bufLen ≤ d.len) :
    SoundBut (· = 0) (c.recvPacket p d pid bufLen).1 ∧
      ((c.recvPacket p d pid bufLen).2 ≠ .error .failed → Sound (c.recvPacket p d pid bufLen).1) := by
  have both : ∀ {c' : Connection} {r : Except Stop Nat}, Sound c' →
      SoundBut (· = 0) c' ∧ (r ≠ .error .failed → Sound c') := fun hs => ⟨hs.weaken, fun _ => hs⟩
  unfold Connection.recvPacket
  split
  · exact both h
  split
  · exact both h
  rename_i pid' c1 hsel
  obtain ⟨hs, hzero⟩ := h.selectPath hle hsel
  cases hout : p.outcome with
  | drop => exact both hs
  | putAside => exact absurd hout hp
  | frames fs =>
    dsimp only
    cases hdone : c1.handshakeCompleted with
    | true =>
      have hf : Sound (c1.recvFrames p.pktType pid' fs).1 := recvFrames fs hs fun _ => .inr hdone
      split
      · next heq => rw [heq] at hf; exact both (hf.finishPacket _ _)
      · next heq => rw [heq] at hf; exact ⟨hf.weaken, fun hne => absurd rfl hne⟩
    | false =>
      have hf : SoundBut (· = 0) (c1.recvFrames p.pktType pid' fs).1 :=
        recvFrames fs hs.weaken fun _ => .inl rfl
      split
      · next heq =>
        rw [heq] at hf
        by_cases hty : p.pktType = .handshake
        · rw [hty, hzero hdone]
          exact both hf.finishPacket_zero
        -- only a Handshake packet completes the handshake
        have hf' : Sound (c1.recvFrames p.pktType pid' fs).1 :=
          recvFrames fs hs fun hhs => absurd hhs hty
        rw [heq] at hf'
        exact both (hf'.finishPacket _ _)
      · next heq => rw [heq] at hf; exact ⟨hf, fun hne => absurd rfl hne⟩

theorem recvPackets (d : Datagram) (pid : Option Nat) (ps : List RecvPacket) {left : Nat} (h : Sound c)
    (hps : ∀ p ∈ ps, p.outcome ≠ .putAside) (hle : left ≤ d.len) :
    Sound (c.recvPackets d pid left ps).1 := by
  induction ps generalizing c left with
  | nil => exact h
  | cons p rest ih =>
    rw [Connection.recvPackets]
    split
    · exact h
    obtain ⟨hbut, hsound⟩ := h.recvPacket (hps p (mem_cons_self ..)) d pid hle
    split
    · next heq =>
      rw [heq] at hsound
      exact ih (hsound (by simp)) (fun q hq => hps q (mem_cons_of_mem _ hq)) (by omega)
    · next heq => rw [heq] at hsound; exact hsound (by simp)
    · next heq => rw [heq] at hbut; exact hbut.close

theorem recvBody (h : Sound c) {d : Datagram} (hps : ∀ p ∈ d.packets, p.outcome ≠ .putAside)
    (pid : Option Nat) : Sound (c.recvBody d pid) := by
  have hs := recvPackets d pid d.packets h hps le_rfl
  unfold Connection.recvBody
  split
  · next heq =>
    rw [heq] at hs
    split
    · exact hs
    · rwa [tryProcessUndecryptablePackets_eq hs.aside]
  · next heq => rwa [heq] at hs

theorem recv (h : Sound c) {d : Datagram} (hps : ∀ p ∈ d.packets, p.outcome ≠ .putAside) : Sound (c.recv d) := by
  unfold Connection.recv
  dsimp only
  split
  · exact h
  split
  · next pid _ => exact (h.receive pid d.len).recvBody hps _
  · exact h.recvBody hps _

end SoundBut

/-! ### Sending -/

/-- What every packet keeps holds behind the loop of `send`, however it ends. -/
theorem sendPackets_invariant {P : Connection → Connection.Progress → Prop} {c : Connection} {pid : Nat}
    {g : Connection.Progress} {offers : List Offer}
    (hstep : ∀ c g p c', .packet p ∈ offers → P c g → c.sendPacket pid g.left (g.done = 0) p = some c' →
      P c' { left := g.left - p.size, done := g.done + p.size
             hasInitial := g.hasInitial || p.pktType = .initial }) (h : P c g) :
    (∃ g', P (c.sendPackets pid g offers).1 g') ∧
      ∀ g', (c.sendPackets pid g offers).2 = some g' → P (c.sendPackets pid g offers).1 g' := by
  have here : ∀ {c g}, P c g → (∃ g', P c g') ∧ ∀ g', some g = some g' → P c g' :=
    fun h => ⟨⟨_, h⟩, fun g' hg => some.inj hg ▸ h⟩
  induction offers generalizing c g with
  | nil => exact here h
  | cons offer rest ih =>
    unfold Connection.sendPackets
    split
    · exact here h
    cases offer with
    | fail => exact ⟨⟨_, h⟩, fun g' hg => (by cases hg)⟩
    | packet p =>
      dsimp only
      split
      · exact here h
      rename_i c1 heq
      have h1 := hstep c g p c1 mem_cons_self h heq
      split
      · exact here h1
      · exact ih (fun c g p c' hp => hstep c g p c' (mem_cons_of_mem _ hp)) h1

/-- In the loop of `send`, with `g.done` bytes written: the account holds with them sent, and there is
credit for what is left. -/
structure Sending (c : Connection) (pid : Nat) (g : Connection.Progress) : Prop where
  sound : Sound (c.spend pid g.done)
  room : ∀ p : Path, c.paths.paths[pid]? = some p → p.verifiedPeerAddress = false → g.left ≤ p.antiAmplLimit

namespace Sending

variable {c c' : Connection} {pid : Nat} {g g' : Connection.Progress} {p : SendPacket}

theorem unspent {n : Nat} (h : Sound (c.spend pid n)) : Sound c := by
  refine { h with credit := fun j q hq hv => ?_ }
  have hj := h.credit j q hq hv
  by_cases heq : j = pid
  · subst heq
    simp only [Connection.spend, update_self] at hj
    omega
  · simpa only [Connection.spend, update_of_ne heq] using hj

/-- A verified path has no account. -/
theorem spend_verified (h : Sound c)
    (hv : ∀ q : Path, c.paths.paths[pid]? = some q → q.verifiedPeerAddress = true) (n : Nat) :
    Sound (c.spend pid n) := by
  refine { h with credit := fun j q hq hnot => ?_ }
  have hj : j ≠ pid := by
    rintro rfl
    rw [hv q hq] at hnot
    cases hnot
  simpa only [Connection.spend, update_of_ne hj] using h.credit j q hq hnot

/-- Recording the challenge changes neither flag nor limit. -/
theorem recordChallenge_paths {m : PathMap} (pid : Nat) (p : SendPacket) (hserver : m.isServer = true) :
    TameMap (fun _ => 0) m (Connection.recordChallenge m pid p) ∧
      (Connection.recordChallenge m pid p).isServer = true ∧
      ∀ q' : Path, (Connection.recordChallenge m pid p).paths[pid]? = some q' →
        ∃ q, m.paths[pid]? = some q ∧ q'.verifiedPeerAddress = q.verifiedPeerAddress ∧
          q'.antiAmplLimit = q.antiAmplLimit := by
  unfold Connection.recordChallenge
  cases p.challenge with
  | none => exact ⟨.refl _, hserver, fun q' hq' => ⟨q', hq', rfl, rfl⟩⟩
  | some chal =>
    refine ⟨.modify _ pid fun q => .onPathChalSent q _ _ _, hserver, fun q' hq' => ?_⟩
    rw [PathMap.getElem?_modify] at hq'
    obtain ⟨q, hq, rfl⟩ := map_eq_some_iff.mp hq'
    refine ⟨q, hq, ?_⟩
    simp only [if_true, Path.onPathChalSent, Path.promoteTo]
    split <;> exact ⟨rfl, rfl⟩

variable {first : Bool}

/-- What `send_packet` does to the paths: tame operations, and on an unverified path the deduction. -/
theorem sendPacket_paths (hserver : c.paths.isServer = true) (heq : c.sendPacket pid g.left first p = some c') :
    TameMap (fun _ => 0) c.paths c'.paths ∧ c' = { c with paths := c'.paths } ∧
      ∀ q' : Path, c'.paths.paths[pid]? = some q' → q'.verifiedPeerAddress = false →
        ∃ q, c.paths.paths[pid]? = some q ∧ q.verifiedPeerAddress = false ∧
          q'.antiAmplLimit = q.antiAmplLimit - p.size := by
  unfold Connection.sendPacket at heq
  split at heq
  · cases heq
    obtain ⟨htame, hsv, hslot⟩ := recordChallenge_paths pid p hserver
    refine ⟨htame.trans (.decAntiAmplLimit _ pid p.size), rfl, fun q' hq' hv => ?_⟩
    rw [PathMap.decAntiAmplLimit, if_neg (by simp [hsv]), PathMap.getElem?_modify] at hq'
    obtain ⟨q1, hq1, rfl⟩ := map_eq_some_iff.mp hq'
    obtain ⟨q, hq, hqv, hql⟩ := hslot q1 hq1
    cases hv1 : q1.verifiedPeerAddress with
    | true => simp [hv1] at hv
    | false => exact ⟨q, hq, hqv.symm.trans hv1, by simp [hql]⟩
  · cases heq

/-- What a packet that is not a probe, or any packet on an unverified path, takes is within what is left. -/
theorem size_le_left (h : Sending c pid g) (hfits : c.fits pid g.left first p = true)
    {q : Path} (hq : c.paths.paths[pid]? = some q) (hv : q.verifiedPeerAddress = false) : p.size ≤ g.left := by
  unfold Connection.fits at hfits
  split at hfits
  · -- a probe needs a validated path behind the handshake, and such a path is verified
    simp only [Bool.and_eq_true, hq, any_some, Bool.not_eq_true', Path.validated, decide_eq_true_eq] at hfits
    obtain ⟨⟨⟨⟨-, hdone⟩, hcl⟩, -⟩, hst⟩ := hfits
    have := h.sound.trusted hdone hcl pid q hq id hst
    rw [hv] at this
    cases this
  · exact of_decide_eq_true hfits

/-- One packet: its size moves from the credit to the bytes sent. -/
theorem packet (h : Sending c pid g) (heq : c.sendPacket pid g.left first p = some c') (hasInitial : Bool) :
    Sending c' pid { left := g.left - p.size, done := g.done + p.size, hasInitial } := by
  have hserver : c.paths.isServer = true := h.sound.server
  obtain ⟨htame, hc', hslot⟩ := sendPacket_paths hserver heq
  have hfits : c.fits pid g.left first p = true := by
    unfold Connection.sendPacket at heq
    split at heq
    · assumption
    · cases heq
  have hold := h.sound.quiet htame
  refine ⟨⟨hold.server, fun j q' hq' hv => ?_, ?_, ?_, ?_⟩, fun q' hq' hv => ?_⟩
  · by_cases hj : j = pid
    · subst hj
      obtain ⟨q, hq, hqv, hlim⟩ := hslot q' hq' hv
      have hle := h.size_le_left hfits hq hqv
      have hroom := h.room q hq hqv
      have hcredit := h.sound.credit j q hq hqv
      rw [hc']
      simp only [Connection.spend, update_self, htame.factor] at hcredit ⊢
      omega
    have hcredit := hold.credit j q' hq' hv
    rw [hc']
    simpa only [Connection.spend, update_of_ne hj] using hcredit
  · rw [hc']; exact hold.solo
  · rw [hc']; exact hold.trusted
  · rw [hc']; exact hold.aside
  obtain ⟨q, hq, hqv, hlim⟩ := hslot q' hq' hv
  have hroom := h.room q hq hqv
  dsimp only
  omega

/-- The loop of `send`. -/
theorem sendPackets (offers : List Offer) (h : Sending c pid g) :
    Sound (c.sendPackets pid g offers).1 ∧
      ∀ g', (c.sendPackets pid g offers).2 = some g' → Sending (c.sendPackets pid g offers).1 pid g' := by
  obtain ⟨⟨_, hs⟩, hall⟩ := sendPackets_invariant (P := fun c g => Sending c pid g)
    (fun _ _ _ _ _ h heq => h.packet heq _) h
  exact ⟨unspent hs.sound, hall⟩

end Sending

/-! ## Padding -/

/-- Packets at the front of the offers, none of which ends the datagram early, fit into `left` and bring a
datagram that has `done` bytes to 1200 bytes or to its end. -/
def FillsFrom (left done : Nat) (offers : List Offer) : Prop :=
  ∃ (ps : List SendPacket) (rest : List Offer), offers = ps.map .packet ++ rest ∧ (∀ p ∈ ps, p.probe = false) ∧
    (∀ p ∈ ps.dropLast, p.pktType ≠ .oneRTT) ∧ (ps.map SendPacket.size).sum ≤ left ∧
    (MIN_CLIENT_INITIAL_LEN ≤ done + (ps.map SendPacket.size).sum ∨ left = (ps.map SendPacket.size).sum)

variable {c : Connection} {g g' : Connection.Progress} (offers : List Offer)

theorem sendPackets_tame (hserver : c.paths.isServer = true) :
    TameMap (fun _ => 0) c.paths (c.sendPackets pid g offers).1.paths := by
  obtain ⟨⟨_, htame⟩, -⟩ := sendPackets_invariant (P := fun c' _ => TameMap (fun _ => 0) c.paths c'.paths)
    (fun _ _ _ _ _ h heq => h.trans (Sending.sendPacket_paths (h.isServer.trans hserver) heq).1) (.refl _)
  exact htame

theorem sendPackets_done_le (h : (c.sendPackets pid g offers).2 = some g') : g.done ≤ g'.done :=
  (sendPackets_invariant (P := fun _ g' => g.done ≤ g'.done)
    (fun _ _ _ _ _ h _ => Nat.le_add_right_of_le h) le_rfl).2 g' h

/-- Offers that fill the datagram leave nothing to pad. -/
theorem sendPackets_filled (hfill : FillsFrom g.left g.done offers) (h : (c.sendPackets pid g offers).2 = some g') :
    g'.left = 0 ∨ MIN_CLIENT_INITIAL_LEN ≤ g'.done := by
  induction offers generalizing c g with
  | nil =>
    obtain ⟨ps, rest, hps, -, -, -, hfull⟩ := hfill
    cases h
    obtain rfl : ps = [] := map_eq_nil_iff.mp (append_eq_nil_iff.mp hps.symm).1
    exact hfull.symm
  | cons offer rest ih =>
    obtain ⟨ps, rest', hps, hprobe, hone, hle, hfull⟩ := hfill
    cases ps with
    | nil =>
      -- nothing more is needed
      rcases hfull with hdone | hleft
      · exact .inr (Nat.le_trans hdone (sendPackets_done_le _ h))
      have hzero : g.left = 0 := hleft
      unfold Connection.sendPackets at h
      rw [if_pos hzero] at h
      cases h
      exact .inl hzero
    | cons p ps =>
      obtain ⟨rfl, rfl⟩ := hps
      simp only [map_cons, sum_cons] at hle hfull
      have hp : p.probe = false := hprobe p (mem_cons_self ..)
      unfold Connection.sendPackets at h
      split at h
      · next hzero => cases some.inj h; exact .inl hzero
      have hfits : c.fits pid g.left (decide (g.done = 0)) p = true := by
        simp only [Connection.fits, hp, Bool.false_eq_true, if_false, decide_eq_true_eq]
        omega
      simp only [Connection.sendPacket, hfits, if_true, hp, Bool.false_eq_true, or_false] at h
      split at h
      · -- a short header ends the datagram, so this was the last packet
        next hty =>
        have hnil : ps = [] := by
          by_contra hne
          exact hone p (by rw [dropLast_cons_of_ne_nil hne]; exact mem_cons_self ..) hty
        subst hnil
        cases h
        simp only [map_nil, sum_nil] at hfull
        dsimp only
        omega
      refine ih ⟨ps, rest', rfl, fun q hq => hprobe q (mem_cons_of_mem _ hq), fun q hq => ?_, ?_, ?_⟩ h
      · refine hone q ?_
        cases ps with
        | nil => cases hq
        | cons r rs => exact mem_cons_of_mem _ hq
      · dsimp only; omega
      · dsimp only; omega

theorem sendPackets_hasInitial (hno : ∀ p, .packet p ∈ offers → p.pktType ≠ .initial) (hg : g.hasInitial = false)
    (h : (c.sendPackets pid g offers).2 = some g') : g'.hasInitial = false :=
  (sendPackets_invariant (P := fun _ g => g.hasInitial = false)
    (fun _ _ p _ hp h _ => by simp [h, hno p hp]) hg).2 g' h

/-- No packet is put aside; on an unverified path, a datagram with an Initial packet is filled by its
packets. -/
def Orderly (c : Connection) : Call → Prop
  | .recv d => ∀ p ∈ d.packets, p.outcome ≠ .putAside
  | .send pid outLen offers =>
    ∀ p : Path, c.paths.paths[pid]? = some p → p.verifiedPeerAddress = false →
      (∀ q, .packet q ∈ offers → q.pktType ≠ .initial) ∨ FillsFrom (c.sendLimit pid outLen) 0 offers
  | .timeout _ => True

theorem Sound.send (h : Sound c) {pid outLen : Nat} {offers : List Offer}
    (hok : Orderly c (.send pid outLen offers)) : Sound (c.send pid outLen offers).1 := by
  unfold Connection.send
  split
  · exact h
  rename_i hguard
  have hlt : pid < c.paths.paths.length := by omega
  obtain ⟨q, hq⟩ : ∃ q, c.paths.paths[pid]? = some q := ⟨_, List.getElem?_eq_getElem hlt⟩
  have hstart : Sending c pid { left := c.sendLimit pid outLen } := by
    refine ⟨?_, fun p hp hv => ?_⟩
    · have : c.spend pid 0 = c := by simp [Connection.spend]
      rwa [this]
    simp only [Connection.sendLimit, PathMap.cmpAntiAmplLimit, h.server, hp, hv]
    exact Nat.min_le_right _ _
  obtain ⟨hfail, hprog⟩ := Sending.sendPackets offers hstart
  split
  · next heq => rwa [heq] at hfail
  rename_i c1 g heq
  rw [heq] at hfail hprog
  have hs := hprog g rfl
  split
  · exact hfail
  cases hv : q.verifiedPeerAddress with
  | false =>
    have hpad : Connection.padLen g = 0 := by
      have hg : (c.sendPackets pid { left := c.sendLimit pid outLen } offers).2 = some g := by rw [heq]
      refine if_neg fun hneeds => ?_
      rcases hok q hq hv with hno | hfill
      · have := sendPackets_hasInitial offers hno rfl hg
        rw [hneeds.1] at this
        cases this
      · have := sendPackets_filled offers hfill hg
        omega
    simp only [hpad, Nat.add_zero]
    exact hs.sound
  | true =>
    have htame : TameMap (fun _ => 0) c.paths (c.sendPackets pid { left := c.sendLimit pid outLen } offers).1.paths :=
      sendPackets_tame offers h.server
    rw [heq] at htame
    refine Sending.spend_verified hfail (fun q' hq' => ?_) _
    obtain ⟨q0, hq0, hpp⟩ := htame.path pid q' hq'
    cases hq.symm.trans hq0
    by_contra hne
    rw [(hpp.credit (by simpa using hne)).1] at hv
    cases hv

theorem Sound.step {c' : Connection} {call : Call} (h : Sound c) (hok : Orderly c call)
    (hs : c.step call = some c') : Sound c' := by
  cases call with
  | recv d => cases hs; exact h.recv hok
  | send pid outLen offers => cases hs; exact Sound.send h hok
  | timeout now => cases hs; exact h.quiet (.onPathChalTimeout c.paths now)

/-- A new server connection; a token may have verified the peer's address.
mirrors :202-329 -/
def Connection.server (localAddr remoteAddr : SocketAddr) (verified : Bool)
    (maxDatagramSize maxPaths antiAmplFactor maxUndecryptable : Nat) : Connection :=
  { paths := .start localAddr remoteAddr verified maxDatagramSize maxPaths antiAmplFactor true
    maxDatagramSize, maxUndecryptable }

theorem Sound.server (localAddr remoteAddr : SocketAddr) (verified : Bool)
    (maxDatagramSize maxPaths antiAmplFactor maxUndecryptable : Nat) :
    Sound (.server localAddr remoteAddr verified maxDatagramSize maxPaths antiAmplFactor maxUndecryptable) := by
  refine ⟨rfl, fun pid p hp _ => ?_, fun _ => ⟨_, rfl, rfl, rfl⟩, fun hc => (by cases hc), rfl⟩
  have hmem := mem_singleton.mp (mem_of_getElem? hp)
  simp [Connection.server, hmem, Path.new]

/-- While a path is unverified, the datagrams sent on it stay within the factor times the datagrams
received on it, in every orderly run of a server connection. -/
theorem sent_within_factor {localAddr remoteAddr : SocketAddr} {verified : Bool}
    {maxDatagramSize maxPaths antiAmplFactor maxUndecryptable : Nat} {calls : List Call} {c : Connection}
    (hrun : run Connection.step (.server localAddr remoteAddr verified maxDatagramSize maxPaths
      antiAmplFactor maxUndecryptable) calls = some c)
    (hok : Along Connection.step Orderly (.server localAddr remoteAddr verified maxDatagramSize maxPaths
      antiAmplFactor maxUndecryptable) calls)
    {pid : Nat} {p : Path} (hp : c.paths.paths[pid]? = some p) (hv : p.verifiedPeerAddress = false) :
    c.sentOn pid ≤ c.paths.antiAmplFactor * c.rcvdOn pid := by
  have hs : Sound c := run_invariant (fun _ _ _ h hok hs => h.step hok hs)
    (Sound.server localAddr remoteAddr verified maxDatagramSize maxPaths antiAmplFactor maxUndecryptable)
    hok hrun
  exact Nat.le_trans (Nat.le_add_right ..) (hs.credit pid p hp hv)

/-- The account of the initial path, as a run can be evaluated to it. -/
def account (c : Connection) : Option Bool × Nat × Nat × Nat :=
  ((c.paths.paths[0]?).map Path.verifiedPeerAddress, c.paths.antiAmplFactor, c.rcvdOn 0, c.sentOn 0)

theorem account_eq {verified : Bool} {factor rcvd sent : Nat} (h : account c = (some verified, factor, rcvd, sent)) :
    (∃ p, c.paths.paths[0]? = some p ∧ p.verifiedPeerAddress = verified) ∧
      c.paths.antiAmplFactor = factor ∧ c.rcvdOn 0 = rcvd ∧ c.sentOn 0 = sent := by
  simpa [account] using h

/-- The first datagram of a handshake and an answer that fills its datagram. -/
theorem sent_within_factor_first_flight :
    let addr : SocketAddr := { ip := .v4 (.replicate 4 0), port := 443 }
    let info : PacketInfo := { dst := addr, src := addr }
    let calls : List Call :=
      [.recv { len := 1200, pid := some 0, info
               packets := [{ pktType := .initial, size := 1200, outcome := .frames [.path .other] }] },
       .send 0 1500 [.packet { pktType := .initial, size := 300 }, .packet { pktType := .handshake, size := 900 }]]
    ∃ c, run Connection.step (.server addr addr false 1200 8 3 10) calls = some c ∧
      c.sentOn 0 = 1200 ∧ c.sentOn 0 ≤ c.paths.antiAmplFactor * c.rcvdOn 0 := by
  intro addr info calls
  have hsum : (run Connection.step (.server addr addr false 1200 8 3 10) calls).map account =
      some (some false, 3, 1200, 1200) := by decide +kernel
  obtain ⟨c, hrun, hacc⟩ := map_eq_some_iff.mp hsum
  obtain ⟨⟨p, hp, hv⟩, -, -, hsent⟩ := account_eq hacc
  refine ⟨c, hrun, hsent, sent_within_factor hrun ?_ hp hv⟩
  refine ⟨?_, fun c1 h1 => ⟨?_, fun _ _ => trivial⟩⟩
  · intro p hp
    rw [mem_singleton.mp hp]
    decide
  intro p _ _
  cases h1
  refine .inr ⟨[{ pktType := .initial, size := 300 }, { pktType := .handshake, size := 900 }], [], rfl,
    by decide, by decide, by decide +kernel, .inl (by decide)⟩

/-- The ClientHello takes two datagrams of 1200 bytes. The acknowledgement of the first is an Initial packet
of 60 bytes in a datagram padded to 1200; with the second comes a flight that uses the whole limit. 8340
bytes leave for 2400 received, 1140 more than the factor allows. -/
theorem padding_exceeds_factor :
    let addr : SocketAddr := { ip := .v4 (.replicate 4 0), port := 443 }
    let info : PacketInfo := { dst := addr, src := addr }
    let hello : Call := .recv { len := 1200, pid := some 0, info, packets :=
      [{ pktType := .initial, size := 1200, outcome := .frames [.path .other] }] }
    let flight : Call := .send 0 1500 [.packet { pktType := .handshake, size := 1200 }]
    let calls : List Call :=
      [hello, .send 0 1500 [.packet { pktType := .initial, size := 60 }], hello,
       .send 0 1500 [.packet { pktType := .initial, size := 120 }, .packet { pktType := .handshake, size := 1080 }],
       flight, flight, flight, flight, .send 0 1500 [.packet { pktType := .handshake, size := 1140 }]]
    ∃ c p, run Connection.step (.server addr addr false 1200 8 3 10) calls = some c ∧
      c.paths.paths[0]? = some p ∧ p.verifiedPeerAddress = false ∧
      c.rcvdOn 0 = 2400 ∧ c.sentOn 0 = 8340 ∧ ¬ c.sentOn 0 ≤ c.paths.antiAmplFactor * c.rcvdOn 0 := by
  intro addr info hello flight calls
  have hsum : (run Connection.step (.server addr addr false 1200 8 3 10) calls).map account =
      some (some false, 3, 2400, 8340) := by decide +kernel
  obtain ⟨c, hrun, hacc⟩ := map_eq_some_iff.mp hsum
  obtain ⟨⟨p, hp, hv⟩, hfactor, hrcvd, hsent⟩ := account_eq hacc
  refine ⟨c, p, hrun, hp, hv, hrcvd, hsent, ?_⟩
  rw [hfactor, hrcvd, hsent]
  decide

end MoqQuic.L3.Tquic
