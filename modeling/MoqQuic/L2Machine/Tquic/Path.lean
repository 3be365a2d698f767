import MoqQuic.Core.LTS
import MoqQuic.L1Encoding.TquicCodec

/-!
# Paths and their validation (`connection/path.rs`)

A path is validated by sending PATH_CHALLENGE frames on it and receiving their
data back. `sentChals` holds the challenges that are still pending. The slots
of the slab `paths` are only ever refilled (`insert_path` removes an unused path
and inserts into the slot it freed), so a list models it. Times are in
milliseconds; the recovery state is left out except for its datagram size.

`on_path_resp_received` sets `verified_peer_address` before it looks for the
data among the pending challenges, and the search decides only about the MTU.

Results:
* `resp_verifies_iff_solicited`: in a run of path events, responses verify only
  with the data of a pending challenge exactly when no other response arrives on
  an unverified path that is not validated.
-/
namespace MoqQuic.L2.Tquic
open LTS L1.Tquic Option

def INITIAL_CHAL_TIMEOUT : Nat := 25
def MAX_PROBING_TIMEOUTS : Nat := 8
def MAX_PATH_CHALS_RECV : Nat := 8
def MIN_CLIENT_INITIAL_LEN : Nat := 1200
def USIZE_MAX : Nat := 2 ^ 64 - 1

/-- In the order of the enumeration. -/
inductive PathState where
  | failed
  | unknown
  | validating
  | validatingMTU
  | validated
  deriving DecidableEq

/-- The derived order of the enumeration. -/
def PathState.rank : PathState → Nat
  | .failed => 0
  | .unknown => 1
  | .validating => 2
  | .validatingMTU => 3
  | .validated => 4

/-- `[u8; 8]` -/
abbrev ChalData := Vector UInt8 8

/-- An item of `sent_chals`. -/
structure SentChal where
  data : ChalData
  size : Nat
  sentTime : Nat
  lossTime : Nat
  deriving DecidableEq

structure Path where
  localAddr : SocketAddr
  remoteAddr : SocketAddr
  dcidSeq : Option Nat
  active : Bool := false
  state : PathState
  recvChals : List ChalData := []
  sentChals : List SentChal := []
  needSendChallenge : Bool := false
  lostChal : Nat := 0
  maxChallengeSize : Nat := 0
  verifiedPeerAddress : Bool := false
  peerVerifiedLocalAddress : Bool := false
  antiAmplLimit : Nat := 0
  /-- `recovery.max_datagram_size` -/
  maxDatagramSize : Nat
  deriving DecidableEq

namespace Path

/-- mirrors path.rs:116-158 -/
def new (localAddr remoteAddr : SocketAddr) (isInitial : Bool) (maxDatagramSize : Nat) : Path :=
  if isInitial then { localAddr, remoteAddr, dcidSeq := some 0, state := .validated, maxDatagramSize }
  else { localAddr, remoteAddr, dcidSeq := none, state := .unknown, maxDatagramSize }

variable (p : Path)

/-- mirrors path.rs:178-185 -/
def onPathChalReceived (data : ChalData) : Path :=
  let recvChals := if p.recvChals.length ≥ MAX_PATH_CHALS_RECV then p.recvChals.tail else p.recvChals
  { p with recvChals := recvChals ++ [data], peerVerifiedLocalAddress := true }

/-- mirrors path.rs:324-328 -/
def promoteTo (state : PathState) : Path :=
  if p.state.rank < state.rank then { p with state } else p

/-- `challenge_size`: the last pending challenge with this data counts. mirrors path.rs:198-211 -/
def challengeSize (data : ChalData) : Nat :=
  p.sentChals.foldl (fun size c => if c.data = data then c.size else size) 0

/-- mirrors path.rs:189-226 -/
def onPathRespReceived (data : ChalData) (multipath : Bool) : Bool × Path :=
  if p.state = .validated then (false, p)
  else
    -- set whatever the data is
    let p := { p with verifiedPeerAddress := true, lostChal := 0 }
    let challengeSize := p.challengeSize data
    let p := { p with sentChals := p.sentChals.filter (·.data ≠ data)
                      maxChallengeSize := max p.maxChallengeSize challengeSize }
    let p := p.promoteTo .validatingMTU
    if p.maxChallengeSize ≥ MIN_CLIENT_INITIAL_LEN then
      let p := p.promoteTo .validated
      (true, { p with active := multipath, sentChals := [] })
    else (false, { p with needSendChallenge := true })

/-- mirrors path.rs:239-241 -/
def initiatePathChal : Path := { p with needSendChallenge := true }

/-- The shift is the one of a `u64`. mirrors path.rs:244-259 -/
def onPathChalSent (data : ChalData) (size sentTime : Nat) : Path :=
  let p := p.promoteTo .validating
  let lossTime := sentTime + (INITIAL_CHAL_TIMEOUT <<< (p.lostChal % 64)) % 2 ^ 64
  { p with needSendChallenge := false, sentChals := p.sentChals ++ [{ data, size, sentTime, lossTime }] }

/-- The loop of `on_path_chal_timeout` over the challenges that are left. mirrors path.rs:268-286 -/
def dropLost (now : Nat) (p : Path) : List SentChal → Path
  | [] => { p with sentChals := [] }
  | chal :: rest =>
    if chal.lossTime > now then { p with sentChals := chal :: rest }
    else
      let p := { p with lostChal := p.lostChal + 1 }
      if p.lostChal < MAX_PROBING_TIMEOUTS then dropLost now p.initiatePathChal rest
      else { p with state := .failed, active := false, sentChals := [] }

/-- mirrors path.rs:262-287 -/
def onPathChalTimeout (now : Nat) : Path :=
  if p.state ≠ .validating ∧ p.state ≠ .validatingMTU then p else dropLost now p p.sentChals

/-- mirrors path.rs:331-333 -/
def validated : Bool := p.state = .validated

/-- mirrors path.rs:346-348 -/
def unused : Bool := !p.active && p.dcidSeq.isNone

end Path

/-- The slab of paths with the limits the path manager enforces. -/
structure PathMap where
  paths : List Path
  maxPaths : Nat
  antiAmplFactor : Nat
  isMultipath : Bool := false
  isServer : Bool
  deriving DecidableEq

namespace PathMap

/-- mirrors path.rs:424-453 -/
def new (initialPath : Path) (maxPaths antiAmplFactor : Nat) (isServer : Bool) : PathMap :=
  { paths := [{ initialPath with active := true }], maxPaths, antiAmplFactor, isServer }

/-- Apply `f` to the path in slot `pid`, if there is one. -/
def modify (m : PathMap) (pid : Nat) (f : Path → Path) : PathMap := { m with paths := m.paths.modify pid f }

variable (m : PathMap)

/-- `Err(Done)` is `none`. mirrors path.rs:498-517 -/
def insertPath (path : Path) : Option (Nat × PathMap) :=
  if m.paths.length ≥ m.maxPaths then do
    let pid ← m.paths.findIdx? Path.unused
    return (pid, { m with paths := m.paths.set pid path })
  else some (m.paths.length, { m with paths := m.paths ++ [path] })

/-- mirrors path.rs:542-547 -/
def onPathRespReceived (pid : Nat) (data : ChalData) : PathMap :=
  m.modify pid fun path => (path.onPathRespReceived data m.isMultipath).2

/-- mirrors path.rs:564-568 -/
def onPathChalTimeout (now : Nat) : PathMap :=
  { m with paths := m.paths.map (·.onPathChalTimeout now) }

/-- mirrors path.rs:603-613 -/
def incAntiAmplLimit (pid pktLen : Nat) : PathMap :=
  if !m.isServer then m
  else m.modify pid fun path =>
    if !path.verifiedPeerAddress then
      let inc := min (m.antiAmplFactor * pktLen) USIZE_MAX
      { path with antiAmplLimit := min (path.antiAmplLimit + inc) USIZE_MAX }
    else path

/-- mirrors path.rs:616-625 -/
def decAntiAmplLimit (pid pktLen : Nat) : PathMap :=
  if !m.isServer then m
  else m.modify pid fun path =>
    if !path.verifiedPeerAddress then { path with antiAmplLimit := path.antiAmplLimit - pktLen } else path

/-- mirrors path.rs:628-638 -/
def cmpAntiAmplLimit (pid left : Nat) : Nat :=
  if !m.isServer then left
  else
    match m.paths[pid]? with
    | some path => if !path.verifiedPeerAddress then min left path.antiAmplLimit else left
    | none => left

end PathMap

/-! ## Path events -/

/-- The calls that the connection makes on its paths. -/
inductive PathEvent where
  | chalSent (pid : Nat) (data : ChalData) (size sentTime : Nat)
  | chalTimeout (now : Nat)
  | chalReceived (pid : Nat) (data : ChalData)
  | respReceived (pid : Nat) (data : ChalData)
  | popRecvChal (pid : Nat)
  | initiate (pid : Nat)
  /-- a new path of the client (`dcidSeq` given) or found by the server (with a send limit) -/
  | insert (localAddr remoteAddr : SocketAddr) (dcidSeq : Option Nat) (limit maxDatagramSize : Nat)
  | setDcid (pid : Nat) (dcidSeq : Option Nat)
  /-- a Handshake packet was processed -/
  | verify (pid : Nat)
  | received (pid len : Nat)
  | sent (pid len : Nat)
  | enableMultipath
  deriving DecidableEq

namespace PathMap

def apply (m : PathMap) : PathEvent → PathMap
  | .chalSent pid data size sentTime => m.modify pid (·.onPathChalSent data size sentTime)
  | .chalTimeout now => m.onPathChalTimeout now
  | .chalReceived pid data => m.modify pid (·.onPathChalReceived data)
  | .respReceived pid data => m.onPathRespReceived pid data
  | .popRecvChal pid => m.modify pid fun path => { path with recvChals := path.recvChals.tail }
  | .initiate pid => m.modify pid Path.initiatePathChal
  | .insert localAddr remoteAddr dcidSeq limit maxDatagramSize =>
    let path := Path.new localAddr remoteAddr false maxDatagramSize
    match m.insertPath { path with dcidSeq, antiAmplLimit := limit, needSendChallenge := true } with
    | some (_, m') => m'
    | none => m
  | .setDcid pid dcidSeq => m.modify pid ({ · with dcidSeq })
  | .verify pid => m.modify pid ({ · with verifiedPeerAddress := true })
  | .received pid len => m.incAntiAmplLimit pid len
  | .sent pid len => m.decAntiAmplLimit pid len
  | .enableMultipath => { m with isMultipath := true }

def step (m : PathMap) (e : PathEvent) : Option PathMap := some (m.apply e)

theorem getElem?_modify (m : PathMap) (pid j : Nat) (f : Path → Path) :
    (m.modify pid f).paths[j]? = (m.paths[j]?).map fun p => if pid = j then f p else p := by
  simp [modify, List.getElem?_modify]

/-- The new path is in its slot and the other slots are as before. -/
theorem insertPath_slots {m m' : PathMap} {path p : Path} {pid j : Nat}
    (h : m.insertPath path = some (pid, m')) (hj : m'.paths[j]? = some p) :
    j = pid ∧ p = path ∨ j ≠ pid ∧ m.paths[j]? = some p := by
  unfold insertPath at h
  split at h
  · obtain ⟨pid', -, hpair⟩ := bind_eq_some_iff.mp h
    cases hpair
    simp only [List.getElem?_set] at hj
    split at hj
    · next heq =>
      split at hj
      · exact .inl ⟨heq.symm, (some.inj hj).symm⟩
      · cases hj
    · next hne => exact .inr ⟨fun heq => hne heq.symm, hj⟩
  cases h
  rw [List.getElem?_append] at hj
  split at hj
  · next hlt => exact .inr ⟨Nat.ne_of_lt hlt, hj⟩
  rename_i hge
  obtain ⟨hlt, rfl⟩ := List.getElem?_eq_some_iff.mp hj
  have : j = m.paths.length := by simp only [List.length_singleton] at hlt; omega
  exact .inl ⟨this, by simp⟩

theorem insertPath_config {m m' : PathMap} {path : Path} {pid : Nat} (h : m.insertPath path = some (pid, m')) :
    m'.isServer = m.isServer ∧ m'.antiAmplFactor = m.antiAmplFactor := by
  unfold insertPath at h
  split at h
  · obtain ⟨pid', -, hpair⟩ := bind_eq_some_iff.mp h
    cases hpair
    exact ⟨rfl, rfl⟩
  · cases h
    exact ⟨rfl, rfl⟩

end PathMap

/-! ## Soundness of the validation -/

/-- A response verifies a path, or takes it out of the states below `validatingMTU`, only with the data of a
challenge that was sent on the path and is pending. -/
def RespSound (past : List PathEvent) (m : PathMap) (e : PathEvent) : Prop :=
  ∀ pid data p p', e = .respReceived pid data → m.paths[pid]? = some p → (m.apply e).paths[pid]? = some p' →
    p.verifiedPeerAddress = false →
    (p'.verifiedPeerAddress = true ∨
      p.state.rank < PathState.validatingMTU.rank ∧ PathState.validatingMTU.rank ≤ p'.state.rank) →
    ∃ chal ∈ p.sentChals, chal.data = data ∧ .chalSent pid data chal.size chal.sentTime ∈ past

/-- A response on a path that is neither verified nor validated carries the data of a pending challenge. -/
def Solicited (m : PathMap) (e : PathEvent) : Prop :=
  ∀ pid data p, e = .respReceived pid data → m.paths[pid]? = some p → p.verifiedPeerAddress = false →
    p.state ≠ .validated → ∃ chal ∈ p.sentChals, chal.data = data

/-- Pending challenges were sent on their path. -/
def PendingSent (past : List PathEvent) (m : PathMap) : Prop :=
  ∀ pid p, m.paths[pid]? = some p → ∀ chal ∈ p.sentChals, .chalSent pid chal.data chal.size chal.sentTime ∈ past

namespace Path

variable {p : Path} {data : ChalData}

@[simp] theorem promoteTo_verifiedPeerAddress (p : Path) (st : PathState) :
    (p.promoteTo st).verifiedPeerAddress = p.verifiedPeerAddress := by
  unfold promoteTo; split <;> rfl

@[simp] theorem promoteTo_sentChals (p : Path) (st : PathState) : (p.promoteTo st).sentChals = p.sentChals := by
  unfold promoteTo; split <;> rfl

/-- Every response verifies a path that is not validated. -/
theorem onPathRespReceived_verified (h : p.state ≠ .validated) (multipath : Bool) :
    (p.onPathRespReceived data multipath).2.verifiedPeerAddress = true := by
  rw [onPathRespReceived, if_neg h]
  dsimp only
  split <;> simp

theorem onPathRespReceived_sentChals (multipath : Bool) :
    (p.onPathRespReceived data multipath).2.sentChals ⊆ p.sentChals := by
  unfold onPathRespReceived
  split
  · exact List.Subset.refl _
  dsimp only
  split <;> simp

theorem dropLost_sentChals (now : Nat) (chals : List SentChal) (p : Path) :
    (dropLost now p chals).sentChals ⊆ chals := by
  induction chals generalizing p with
  | nil => exact List.Subset.refl _
  | cons chal rest ih =>
    rw [dropLost]
    split
    · exact List.Subset.refl _
    dsimp only
    split
    · exact List.subset_cons_of_subset _ (ih _)
    · exact List.nil_subset _

theorem onPathChalTimeout_sentChals (p : Path) (now : Nat) : (p.onPathChalTimeout now).sentChals ⊆ p.sentChals := by
  unfold onPathChalTimeout
  split
  · exact List.Subset.refl _
  · exact dropLost_sentChals now _ p

end Path

namespace PendingSent

variable {past : List PathEvent} {m : PathMap} {pid : Nat} (h : PendingSent past m) (e : PathEvent)
include h

/-- An operation on one path that adds no pending challenge. -/
theorem modify {f : Path → Path} (hf : ∀ p, (f p).sentChals ⊆ p.sentChals) :
    PendingSent (past ++ [e]) (m.modify pid f) := by
  intro j p' hj chal hc
  rw [PathMap.getElem?_modify] at hj
  obtain ⟨p, hp, rfl⟩ := map_eq_some_iff.mp hj
  refine List.mem_append_left _ (h j p hp chal ?_)
  split at hc
  · exact hf p hc
  · exact hc

theorem chalSent (data : ChalData) (size sentTime : Nat) : PendingSent (past ++ [.chalSent pid data size sentTime])
      (m.modify pid (·.onPathChalSent data size sentTime)) := by
  intro j p' hj chal hc
  rw [PathMap.getElem?_modify] at hj
  obtain ⟨p, hp, rfl⟩ := map_eq_some_iff.mp hj
  split at hc
  · next heq =>
    subst heq
    rcases List.mem_append.mp hc with hold | hnew
    · exact List.mem_append_left _ (h pid p hp chal (by simpa using hold))
    rw [List.mem_singleton.mp hnew]
    exact List.mem_append_right _ (List.mem_singleton_self _)
  · exact List.mem_append_left _ (h j p hp chal hc)

theorem chalTimeout (now : Nat) : PendingSent (past ++ [e]) (m.onPathChalTimeout now) := by
  intro j p' hj chal hc
  simp only [PathMap.onPathChalTimeout, List.getElem?_map] at hj
  obtain ⟨p, hp, rfl⟩ := map_eq_some_iff.mp hj
  exact List.mem_append_left _ (h j p hp chal (p.onPathChalTimeout_sentChals now hc))

/-- A new path has no pending challenges, whichever slot it takes. -/
theorem insertPath {path : Path} (hnew : path.sentChals = []) {m' : PathMap}
    (hm : m.insertPath path = some (pid, m')) : PendingSent (past ++ [e]) m' := by
  intro j p hj chal hc
  rcases PathMap.insertPath_slots hm hj with ⟨-, rfl⟩ | ⟨-, hold⟩
  · rw [hnew] at hc; cases hc
  · exact List.mem_append_left _ (h j p hold chal hc)

theorem append : PendingSent (past ++ [e]) m :=
  fun j p hj chal hc => List.mem_append_left _ (h j p hj chal hc)

/-- Every path event keeps the invariant. -/
theorem apply : PendingSent (past ++ [e]) (m.apply e) := by
  have hsame : ∀ p : Path, p.sentChals ⊆ p.sentChals := fun p => List.Subset.refl _
  cases e with
  | chalSent pid data size sentTime => exact h.chalSent data size sentTime
  | chalTimeout now => exact h.chalTimeout _ now
  | chalReceived pid data => exact h.modify _ hsame
  | respReceived pid data => exact h.modify _ fun p => p.onPathRespReceived_sentChals m.isMultipath
  | popRecvChal pid | initiate pid => exact h.modify _ hsame
  | insert localAddr remoteAddr dcidSeq limit maxDatagramSize =>
    dsimp only [PathMap.apply]
    split
    · next hm => exact h.insertPath _ rfl hm
    · exact h.append _
  | setDcid pid dcidSeq | verify pid => exact h.modify _ hsame
  | received pid len =>
    dsimp only [PathMap.apply, PathMap.incAntiAmplLimit]
    split
    · exact h.append _
    refine h.modify _ fun p => ?_
    split <;> exact List.Subset.refl _
  | sent pid len =>
    dsimp only [PathMap.apply, PathMap.decAntiAmplLimit]
    split
    · exact h.append _
    refine h.modify _ fun p => ?_
    split <;> exact List.Subset.refl _
  | enableMultipath => exact h.append _

end PendingSent

theorem respSound_iff_solicited {past : List PathEvent} {m : PathMap} {e : PathEvent}
    (hi : PendingSent past m) : RespSound past m e ↔ Solicited m e := by
  have hafter : ∀ pid data p, m.paths[pid]? = some p →
      (m.apply (.respReceived pid data)).paths[pid]? = some (p.onPathRespReceived data m.isMultipath).2 := by
    intro pid data p hp
    rw [PathMap.apply, PathMap.onPathRespReceived, PathMap.getElem?_modify, hp]
    simp
  constructor
  · intro hs pid data p he hp hv hst
    subst he
    obtain ⟨chal, hc, hdata, -⟩ := hs pid data p _ rfl hp (hafter pid data p hp) hv
      (.inl (Path.onPathRespReceived_verified hst m.isMultipath))
    exact ⟨chal, hc, hdata⟩
  intro hs pid data p p' he hp hp' hv hchange
  subst he
  have heq := (hafter pid data p hp).symm.trans hp'
  have hst : p.state ≠ .validated := by
    intro hval
    have hsame : (p.onPathRespReceived data m.isMultipath).2 = p := by simp [Path.onPathRespReceived, hval]
    rw [hsame] at heq
    cases heq
    rcases hchange with hv' | ⟨hlt, -⟩
    · rw [hv] at hv'; cases hv'
    · rw [hval] at hlt; exact absurd hlt (by decide)
  obtain ⟨chal, hc, hdata⟩ := hs pid data p rfl hp hv hst
  subst hdata
  exact ⟨chal, hc, rfl, hi pid p hp chal hc⟩

/-- The paths of a new connection: the initial path, verified by a token or not. -/
def PathMap.start (localAddr remoteAddr : SocketAddr) (verified : Bool)
    (maxDatagramSize maxPaths antiAmplFactor : Nat) (isServer : Bool) : PathMap :=
  .new { Path.new localAddr remoteAddr true maxDatagramSize with verifiedPeerAddress := verified }
    maxPaths antiAmplFactor isServer

/-- For every connection and every sequence of path events: responses verify soundly exactly when each
response on a path that is neither verified nor validated answers a pending challenge. -/
theorem resp_verifies_iff_solicited (localAddr remoteAddr : SocketAddr) (verified : Bool)
    (maxDatagramSize maxPaths antiAmplFactor : Nat) (isServer : Bool) (es : List PathEvent) :
    let m := PathMap.start localAddr remoteAddr verified maxDatagramSize maxPaths antiAmplFactor isServer
    AlongHistory PathMap.step RespSound [] m es ↔ Along PathMap.step Solicited m es := by
  intro m
  refine alongHistory_iff_along PendingSent ?_ ?_ ?_
  · intro past m e hi
    exact respSound_iff_solicited hi
  · intro past m e m' hi _ hs
    cases hs
    exact hi.apply e
  intro pid p hp chal hc
  have hp' : p ∈ m.paths := List.mem_of_getElem? hp
  rw [List.mem_singleton.mp hp'] at hc
  cases hc

/-- A server finds a new path and gets a response on it before it has sent any challenge: the peer's address
counts as verified. -/
theorem unsolicited_resp_verifies :
    let addr : SocketAddr := { ip := .v4 (.replicate 4 0), port := 443 }
    let m := PathMap.start addr addr false 1200 8 3 true
    let response : PathEvent := .respReceived 1 (.replicate 8 0xab)
    let events : List PathEvent := [.insert addr { addr with port := 9444 } (some 1) 3600 1200, response]
    ((m.apply events[0]).apply response).paths[1]?.map (fun p => (p.verifiedPeerAddress, p.state)) =
        some (true, .validatingMTU) ∧
      ¬ AlongHistory PathMap.step RespSound [] m events := by
  refine ⟨by decide, fun h => ?_⟩
  have hsound := (h.2 _ rfl).1
  obtain ⟨chal, hc, -⟩ := hsound 1 _ _ _ rfl rfl rfl rfl (.inl rfl)
  cases hc

end MoqQuic.L2.Tquic
