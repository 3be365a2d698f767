import MoqQuic.Core.LTS
import MoqQuic.L3Protocol.Tquic.Cid

/-!
# Connection IDs in a connection

What `connection.rs` does with the connection IDs: NEW_CONNECTION_ID and
RETIRE_CONNECTION_ID frames are received and written, lost frames are queued again,
and every path gets a destination ID of its own. A `Conn` has the part of a
connection that this concerns, with the frames that are in flight.

`try_write_cid_control_frame` has two loops. A loop is a function for one iteration,
which leaves it or goes on, and is run for as many iterations as the queue has
entries, and one more.

Results:
* `terminates_of_decreasing`, `loop_isSome`: a loop whose body makes a number
  smaller ends, within that many iterations.
* `wrote_tryWriteCidControlFrame`: what a write changes.
-/
namespace MoqQuic.L3.Tquic.Cid
open L1.Tquic L3.Tquic.Wire List ConnectionIdMgr

/-- The part of a path that concerns its destination ID. mirrors path.rs:50-112 -/
structure Path where
  dcidSeq : Option Nat := none
  /-- the field `active` -/
  enabled : Bool := false
  deriving DecidableEq

/-- mirrors path.rs:335-338 -/
def Path.active (p : Path) : Bool := p.enabled && p.dcidSeq.isSome

/-- mirrors path.rs:345-348 -/
def Path.unused (p : Path) : Bool := !p.enabled && p.dcidSeq.isNone

/-- The frames in flight are those in packets that are neither acknowledged nor lost. -/
structure Conn where
  cids : ConnectionIdMgr
  paths : OrdMap Nat Path
  newCidsInFlight : List Nat := []
  retiresInFlight : List Nat := []

namespace Conn

/-! ## Destination IDs of paths -/

variable (c : Conn)

def setDcid (pid : Nat) (dcidSeq : Option Nat) : Conn :=
  { c with paths := c.paths.modify pid fun p => { p with dcidSeq } }

/-- The paths whose ID is retired get an unused one, or none. mirrors connection.rs:839-851 -/
def reassign : List (Nat × Nat) → Conn → Except Error Conn
  | [], c => .ok c
  | (dcidSeq, pid) :: rest, c =>
    match c.paths.find pid with
    | none => .error .internalError
    | some path =>
      if path.dcidSeq ≠ some dcidSeq then reassign rest c
      else match c.cids.lowestUnusedDcidSeq with
        | some newDcidSeq =>
          match c.cids.markDcidUsed newDcidSeq pid with
          | .error e => .error e
          | .ok cids => reassign rest ({ c with cids }.setDcid pid (some newDcidSeq))
        | none => reassign rest (c.setDcid pid none)

/-- A NEW_CONNECTION_ID frame. mirrors connection.rs:817-852 -/
def recvNewConnectionId (connId : ConnectionId) (seqNum : Nat) (resetToken : ResetToken)
    (retirePriorTo : Nat) : Except Error Conn :=
  if c.cids.zeroLengthDcid then .error .protocolViolation
  else match c.cids.addDcid connId seqNum resetToken retirePriorTo with
    | (.error e, _) => .error e
    | (.ok retiredDcids, cids) => reassign retiredDcids { c with cids }

/-- The loop over the paths without an ID; the result of `mark_dcid_used` is ignored.
mirrors connection.rs:1504-1516 -/
def allocate : List Nat → Conn → Conn
  | [], c => c
  | pid :: pids, c =>
    if c.cids.zeroLengthDcid then allocate pids (c.setDcid pid (some 0))
    else match c.cids.lowestUnusedDcidSeq with
      | none => c
      | some dcidSeq =>
        let cids := match c.cids.markDcidUsed dcidSeq pid with
          | .ok cids => cids
          | .error _ => c.cids
        allocate pids ({ c with cids }.setDcid pid (some dcidSeq))

/-- mirrors connection.rs:1501-1517 -/
def tryAllocateCidsFromPeer : Conn :=
  allocate ((c.paths.entries.filter fun e => e.2.dcidSeq.isNone).map Prod.fst) c

/-- `add_path` with the key that the slab gives to the new path. mirrors connection.rs:3738-3757 -/
def addPath (pid : Nat) : Except Error Conn :=
  let dcidSeq := if c.cids.zeroLengthDcid then some 0 else c.cids.lowestUnusedDcidSeq
  let c := { c with paths := c.paths.insert pid { dcidSeq } }
  match dcidSeq with
  | some dcidSeq => match c.cids.markDcidUsed dcidSeq pid with
    | .error e => .error e
    | .ok cids => .ok { c with cids }
  | none => .ok c

/-! ## Writing control frames -/

/-- The connection IDs, the room left in the packet and the frames written to it. -/
structure Writer where
  cids : ConnectionIdMgr
  left : Nat
  frames : List Wire.Frame := []

/-- One iteration leaves a loop or goes on. -/
inductive Iteration
  | leave (result : Except Error Unit)
  | continue (w : Writer)

/-- mirrors connection.rs:2783-2796 -/
def writeFrameToPacket (w : Writer) (frame : Wire.Frame) : Except Error Writer :=
  if frame.wireLen > w.left then .error .done
  else .ok { w with left := w.left - frame.wireLen, frames := w.frames ++ [frame] }

/-- mirrors connection.rs:2203-2210 -/
def advertiseOne (w : Writer) : Iteration :=
  match w.cids.nextScidToAdvertise with
  | none => .leave (.ok ())
  | some seq => match w.cids.createNewConnectionIdFrame seq with
    | .error e => .leave (.error e)
    | .ok frame => match writeFrameToPacket w frame with
      | .error e => .leave (.error e)
      | .ok w => .continue { w with cids := w.cids.markScidToAdvertise seq false }

/-- mirrors connection.rs:2217-2234; `dcid_seq` is that of the path -/
def retireOne (dcidSeq : Option Nat) (w : Writer) : Iteration :=
  match w.cids.nextDcidToRetire with
  | none => .leave (.ok ())
  | some seq => match dcidSeq with
    | none => .leave (.error .internalError)
    | some dcidSeq =>
      if seq = dcidSeq then .continue w
      else match writeFrameToPacket w (.retireConnectionId seq) with
        | .error e => .leave (.error e)
        | .ok w => .continue { w with cids := w.cids.markDcidToRetire seq false }

/-- The iterations as steps. -/
def iterate (body : Writer → Iteration) (w : Writer) (_ : Unit) : Option Writer :=
  match body w with
  | .leave _ => none
  | .continue w => some w

/-- At most `n` iterations; the result is `none` if the loop has not ended then. -/
def loop (body : Writer → Iteration) : Nat → Writer → Option (Except Error Unit) × Writer
  | 0, w => (none, w)
  | n + 1, w => match body w with
    | .leave result => (some result, w)
    | .continue w => loop body n w

/-- The frames of a packet that is sent. -/
def send (w : Writer) : Conn :=
  { c with
    cids := w.cids
    newCidsInFlight := c.newCidsInFlight ++ w.frames.filterMap fun
      | .newConnectionId seq _ _ _ => some seq
      | _ => none
    retiresInFlight := c.retiresInFlight ++ w.frames.filterMap fun
      | .retireConnectionId seq => some seq
      | _ => none }

/-- For a 1-RTT packet of a connection that is not closing. mirrors connection.rs:2190-2246 -/
def tryWriteCidControlFrame (path : Path) (left : Nat) : Option (Except Error Unit) × Writer :=
  match loop advertiseOne (c.cids.scidsToAdvertise.length + 1) { cids := c.cids, left } with
  | (some (.ok ()), w) =>
    if !path.active then (some (.ok ()), w)
    else loop (retireOne path.dcidSeq) (w.cids.dcidsToRetire.length + 1) w
  | (result, w) => (result, w)

/-! ## Runs -/

inductive Call
  | addScid (cid : ConnectionId) (resetToken : Option ResetToken) (advertise : Bool) (pathId : Option Nat)
      (retireIfNeeded : Bool)
  | retireScid (seq : Nat) (pktDcid : ConnectionId)
  | setScidLimit (limit : Nat)
  | newCidAcked (seq : Nat)
  | newCidLost (seq : Nat)
  | newConnectionId (connId : ConnectionId) (seqNum : Nat) (resetToken : ResetToken) (retirePriorTo : Nat)
  | retireAcked (seq : Nat)
  | retireLost (seq : Nat)
  | tryAllocateCidsFromPeer
  | addPath (pid : Nat)
  | newPath (pid : Nat)
  | removePath (pid : Nat)
  | setActive (pid : Nat) (enabled : Bool)
  | write (pid left : Nat)

/-- The state after a call; `none` if it is not possible there, or ends the connection. A source ID is added and
retired whatever the result, a NEW_CONNECTION_ID frame only if it is accepted. -/
def step : Call → Option Conn
  | .addScid cid resetToken advertise pathId retireIfNeeded =>
    some { c with cids := (c.cids.addScid cid resetToken advertise pathId retireIfNeeded).2 }
  | .retireScid seq pktDcid => some { c with cids := (c.cids.retireScid seq pktDcid).2 }
  | .setScidLimit limit => some { c with cids := c.cids.setScidLimit limit }
  | .newCidAcked seq =>
    if seq ∈ c.newCidsInFlight then some { c with newCidsInFlight := c.newCidsInFlight.erase seq } else none
  | .newCidLost seq =>
    if seq ∈ c.newCidsInFlight then
      some { c with
        cids := c.cids.markScidToAdvertise seq true, newCidsInFlight := c.newCidsInFlight.erase seq }
    else none
  | .newConnectionId connId seqNum resetToken retirePriorTo =>
    (c.recvNewConnectionId connId seqNum resetToken retirePriorTo).toOption
  | .retireAcked seq =>
    if seq ∈ c.retiresInFlight then some { c with retiresInFlight := c.retiresInFlight.erase seq } else none
  | .retireLost seq =>
    if seq ∈ c.retiresInFlight then
      some { c with
        cids := c.cids.markDcidToRetire seq true, retiresInFlight := c.retiresInFlight.erase seq }
    else none
  | .tryAllocateCidsFromPeer => some c.tryAllocateCidsFromPeer
  | .addPath pid => if (c.paths.find pid).isNone then (c.addPath pid).toOption else none
  | .newPath pid => if (c.paths.find pid).isNone then some { c with paths := c.paths.insert pid {} } else none
  | .removePath pid =>
    if ((c.paths.find pid).map Path.unused).getD false then some { c with paths := c.paths.erase pid } else none
  | .setActive pid enabled => some { c with paths := c.paths.modify pid fun p => { p with enabled } }
  | .write pid left => (c.paths.find pid).map fun path => c.send (c.tryWriteCidControlFrame path left).2

/-- A connection after the handshake, with the initial IDs of both sides on its first path. -/
def new (dcidLimit : Nat) (scid : ConnectionId) (scidToken : Option ResetToken) (dcid : ConnectionId)
    (dcidToken : Option ResetToken) : Conn :=
  { cids := (ConnectionIdMgr.new dcidLimit scid 0 scidToken).setInitialDcid dcid dcidToken (some 0)
    paths := OrdMap.empty.insert 0 { dcidSeq := some 0, enabled := true } }

variable {seq : Nat} {f : Wire.Frame} {d : Option Nat}

theorem step_newConnectionId {c c' : Conn} {cid : ConnectionId} {token : ResetToken} {rpt : Nat}
    (hs : c.step (.newConnectionId cid seq token rpt) = some c') :
    ∃ retired m, c.cids.addDcid cid seq token rpt = (.ok retired, m) ∧
      reassign retired { c with cids := m } = .ok c' := by
  simp only [Conn.step, Conn.recvNewConnectionId] at hs
  split at hs
  · cases hs
  split at hs
  · cases hs
  rename_i retired m hadd
  refine ⟨retired, m, hadd, ?_⟩
  cases hr : reassign retired { c with cids := m } with
  | error e =>
    rw [hr] at hs
    cases hs
  | ok c'' =>
    rw [hr] at hs
    cases hs
    rfl

theorem step_addPath {c c' : Conn} {pid : Nat} (hs : c.step (.addPath pid) = some c') :
    (∀ p, (pid, p) ∉ c.paths) ∧ c.addPath pid = .ok c' := by
  obtain ⟨hfresh, hs⟩ := Option.ite_none_right_eq_some.mp hs
  refine ⟨OrdMap.find_eq_none.mp (Option.isNone_iff_eq_none.mp hfresh), ?_⟩
  cases hadd : c.addPath pid <;> simp_all [Except.toOption]

/-! ## Source IDs -/

/-- The destination IDs of paths have nothing to do with the source IDs. -/
theorem sameScids_reassign {retired : List (Nat × Nat)} {c c' : Conn} (h : reassign retired c = .ok c') :
    ConnectionIdMgr.SameScids c.cids c'.cids ∧ c'.newCidsInFlight = c.newCidsInFlight := by
  induction retired generalizing c c' with
  | nil =>
    cases h
    exact ⟨.refl _, rfl⟩
  | cons r retired ih =>
    unfold reassign at h
    split at h
    · cases h
    split at h
    · exact ih h
    split at h
    · split at h
      · cases h
      rename_i hmark
      obtain ⟨hsame, hflight⟩ := ih h
      exact ⟨(sameScids_markDcidUsed hmark).trans hsame, hflight⟩
    · exact ih (c := c.setDcid _ none) h

theorem sameScids_allocate (pids : List Nat) (c : Conn) : ConnectionIdMgr.SameScids c.cids (allocate pids c).cids ∧
      (allocate pids c).newCidsInFlight = c.newCidsInFlight := by
  induction pids generalizing c with
  | nil => exact ⟨.refl _, rfl⟩
  | cons pid pids ih =>
    unfold allocate
    split
    · exact ih (c.setDcid pid (some 0))
    split
    · exact ⟨.refl _, rfl⟩
    rename_i seq _
    cases hmark : c.cids.markDcidUsed seq pid with
    | ok cids =>
      obtain ⟨hsame, hflight⟩ := ih ({ c with cids }.setDcid pid (some seq))
      exact ⟨(sameScids_markDcidUsed hmark).trans hsame, hflight⟩
    | error e => exact ih (c.setDcid pid (some seq))

theorem sameScids_addPath {c c' : Conn} {pid : Nat} (h : c.addPath pid = .ok c') :
    ConnectionIdMgr.SameScids c.cids c'.cids ∧ c'.newCidsInFlight = c.newCidsInFlight := by
  unfold addPath at h
  dsimp only at h
  split at h
  · split at h
    · cases h
    rename_i hmark
    cases h
    exact ⟨sameScids_markDcidUsed hmark, rfl⟩
  · cases h
    exact ⟨.refl _, rfl⟩

/-! ## Loops -/

section Loops

variable {body : Writer → Iteration} {P : Writer → Prop}

theorem loop_invariant (hbody : ∀ w w', P w → body w = .continue w' → P w') (n : Nat) {w : Writer}
    (h : P w) : P (loop body n w).2 := by
  induction n generalizing w with
  | zero => exact h
  | succ n ih =>
    unfold loop
    split
    · exact h
    · exact ih (hbody _ _ h ‹_›)

/-- The result is that of some iteration. -/
theorem loop_result (hbody : ∀ w w', P w → body w = .continue w' → P w') {r : Except Error Unit}
    {n : Nat} {w : Writer} (h : P w) (hr : (loop body n w).1 = some r) : ∃ w', P w' ∧ body w' = .leave r := by
  induction n generalizing w with
  | zero => cases hr
  | succ n ih =>
    unfold loop at hr
    split at hr
    · cases hr
      exact ⟨w, h, ‹_›⟩
    · exact ih (hbody _ _ h ‹_›) hr

theorem iterate_eq_some {w w' : Writer} {u : Unit} : iterate body w u = some w' ↔ body w = .continue w' := by
  unfold iterate
  split
  · rename_i hb
    simp [hb]
  rename_i hb
  simp [hb]

theorem terminates_of_decreasing {measure : Writer → Nat}
    (hbody : ∀ w w', P w → body w = .continue w' → P w' ∧ measure w' < measure w) {w : Writer} (h : P w) :
    LTS.Terminates (iterate body) w :=
  LTS.terminates_of_measure Nat.lt_wfRel.wf measure (fun w _ w' hw hs => hbody w w' hw (iterate_eq_some.mp hs)) h

end Loops

/-! ## What a write changes -/

variable {w w' : Writer}

theorem writeFrameToPacket_ok (h : writeFrameToPacket w f = .ok w') :
    w'.cids = w.cids ∧ w'.frames = w.frames ++ [f] := by
  unfold writeFrameToPacket at h
  split at h
  · cases h
  cases h
  exact ⟨rfl, rfl⟩

theorem writeFrameToPacket_error {e : Error} (h : writeFrameToPacket w f = .error e) : e = .done := by
  unfold writeFrameToPacket at h
  split at h
  · cases h
    rfl
  · cases h

theorem advertiseOne_continue (h : advertiseOne w = .continue w') :
    ∃ seq frame, w.cids.nextScidToAdvertise = some seq ∧ w.cids.createNewConnectionIdFrame seq = .ok frame ∧
      w'.cids = w.cids.markScidToAdvertise seq false ∧ w'.frames = w.frames ++ [frame] := by
  unfold advertiseOne at h
  split at h
  · cases h
  rename_i seq hnext
  split at h
  · cases h
  rename_i frame hframe
  split at h
  · cases h
  rename_i hwrite
  cases h
  obtain ⟨hcids, hframes⟩ := writeFrameToPacket_ok hwrite
  exact ⟨seq, frame, hnext, hframe, by rw [hcids], hframes⟩

theorem retireOne_continue (h : retireOne d w = .continue w') :
    ∃ seq, w.cids.nextDcidToRetire = some seq ∧ (d = some seq ∧ w' = w ∨
      d ≠ some seq ∧ w'.cids = w.cids.markDcidToRetire seq false ∧
        w'.frames = w.frames ++ [.retireConnectionId seq]) := by
  unfold retireOne at h
  split at h
  · cases h
  rename_i seq hnext
  split at h
  · cases h
  split at h
  · rename_i heq
    cases h
    exact ⟨seq, hnext, .inl ⟨by rw [heq], rfl⟩⟩
  rename_i hne
  split at h
  · cases h
  rename_i hwrite
  cases h
  obtain ⟨hcids, hframes⟩ := writeFrameToPacket_ok hwrite
  exact ⟨seq, hnext, .inr ⟨fun heq => hne (Option.some.inj heq).symm, by rw [hcids], hframes⟩⟩

/-- On a path with an ID the second loop is left at its end, or because the packet has no room. -/
theorem retireOne_leave {r : Except Error Unit} (hd : d = some seq)
    (h : retireOne d w = .leave r) : r ≠ .error .internalError := by
  subst hd
  unfold retireOne at h
  split at h
  · cases h
    simp
  dsimp only at h
  split at h
  · cases h
  split at h
  · rename_i hwrite
    cases h
    rw [writeFrameToPacket_error hwrite]
    simp
  · cases h

variable {m : ConnectionIdMgr}

theorem createNewConnectionIdFrame_ok (h : m.createNewConnectionIdFrame seq = .ok f) :
    ∃ cid token, f = .newConnectionId seq m.retirePriorTo cid token := by
  unfold ConnectionIdMgr.createNewConnectionIdFrame at h
  split at h
  · cases h
  split at h
  · cases h
  cases h
  exact ⟨_, _, rfl⟩

/-- What has been written so far comes from the queues, which have lost nothing else. -/
structure Wrote (m : ConnectionIdMgr) (w : Writer) : Prop where
  dcids : w.cids.dcids = m.dcids
  zeroLengthDcid : w.cids.zeroLengthDcid = m.zeroLengthDcid
  largestPeerRetirePriorTo : w.cids.largestPeerRetirePriorTo = m.largestPeerRetirePriorTo
  scids : w.cids.scids = m.scids
  nextScidSeq : w.cids.nextScidSeq = m.nextScidSeq
  dcidsToRetire : w.cids.dcidsToRetire ⊆ m.dcidsToRetire
  scidsToAdvertise : w.cids.scidsToAdvertise ⊆ m.scidsToAdvertise
  retired : ∀ seq, Wire.Frame.retireConnectionId seq ∈ w.frames → seq ∈ m.dcidsToRetire
  advertised : ∀ seq rpt cid token, Wire.Frame.newConnectionId seq rpt cid token ∈ w.frames → seq ∈ m.scidsToAdvertise

theorem Wrote.advertiseOne (h : Wrote m w) (hs : advertiseOne w = .continue w') : Wrote m w' := by
  obtain ⟨seq, frame, hnext, hframe, hcids, hframes⟩ := advertiseOne_continue hs
  obtain ⟨cid, token, rfl⟩ := createNewConnectionIdFrame_ok hframe
  have hqueued := h.scidsToAdvertise (mem_of_mem_head? hnext)
  obtain ⟨cids, left, frames⟩ := w'
  cases hcids
  cases hframes
  refine { h with
    scidsToAdvertise := fun s hs => h.scidsToAdvertise (mem_of_mem_filter hs)
    retired := fun s hs => h.retired s (by simpa using hs), advertised := ?_ }
  intro s rpt cid' token' hs
  obtain hs | hs := mem_append.mp hs
  · exact h.advertised s rpt cid' token' hs
  cases mem_singleton.mp hs
  exact hqueued

theorem Wrote.retireOne (h : Wrote m w) (hs : retireOne d w = .continue w') : Wrote m w' := by
  obtain ⟨seq, hnext, ⟨-, rfl⟩ | ⟨-, hcids, hframes⟩⟩ := retireOne_continue hs
  · exact h
  have hqueued := h.dcidsToRetire (mem_of_mem_head? hnext)
  obtain ⟨cids, left, frames⟩ := w'
  cases hcids
  cases hframes
  refine { h with
    dcidsToRetire := fun s hs => h.dcidsToRetire (mem_of_mem_filter hs), retired := ?_
    advertised := fun s rpt cid token hs => h.advertised s rpt cid token (by simpa using hs) }
  intro s hs
  obtain hs | hs := mem_append.mp hs
  · exact h.retired s hs
  cases mem_singleton.mp hs
  exact hqueued

theorem wrote_start (m : ConnectionIdMgr) (left : Nat) : Wrote m { cids := m, left } :=
  ⟨rfl, rfl, rfl, rfl, rfl, fun _ h => h, fun _ h => h, by simp, by simp⟩

theorem wrote_tryWriteCidControlFrame (p : Path) (left : Nat) :
    Wrote c.cids (c.tryWriteCidControlFrame p left).2 := by
  have hfirst := loop_invariant (fun _ _ (h : Wrote c.cids _) => h.advertiseOne)
    (c.cids.scidsToAdvertise.length + 1) (wrote_start c.cids left)
  unfold tryWriteCidControlFrame
  split
  · rename_i w heq
    rw [heq] at hfirst
    split
    · exact hfirst
    · exact loop_invariant (fun _ _ (h : Wrote c.cids _) => h.retireOne) _ hfirst
  rename_i heq
  rw [heq] at hfirst
  exact hfirst

end Conn

end MoqQuic.L3.Tquic.Cid
