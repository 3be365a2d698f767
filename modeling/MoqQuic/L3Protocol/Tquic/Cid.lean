import MoqQuic.L3Protocol.Tquic.Frame

/-!
# Connection IDs (`connection/cid.rs`)

`ConnectionIdMgr` keeps the connection IDs of both directions with their sequence
numbers: the ones the peer gave us (`dcids`), of which those that the peer wants
back wait in `dcids_to_retire`, and the ones we gave the peer (`scids`), of which
those not announced yet wait in `scids_to_advertise`.

A method that fails may have changed its state already, so it returns the state
next to its result. Sequence numbers are natural numbers; a reset token is kept as
its sixteen bytes.

Results:
* `addDcid_cases`: the four ways in which a NEW_CONNECTION_ID frame is accepted.
* `SameDcids`, `SameScids`: which methods leave the IDs of one direction alone.

Line numbers without a file are those of `cid.rs`.
-/
namespace MoqQuic.L3.Tquic.Cid
open L1.Tquic L3.Tquic.Wire List

def MAX_CIDS_COUNT : Nat := 16

/-- The errors of this file. `done` is the one of a packet without room. -/
inductive Error
  | connectionIdLimitError
  | internalError
  | protocolViolation
  | done
  deriving DecidableEq, Repr

/-- mirrors :25-39 -/
structure ConnectionIdItem where
  cid : ConnectionId
  seq : Nat
  resetToken : Option ResetToken
  pathId : Option Nat

/-- mirrors :41-49 -/
structure ConnectionIdDeque where
  queue : List ConnectionIdItem := []
  capacity : Nat

namespace ConnectionIdDeque

variable (d : ConnectionIdDeque)

/-- mirrors :58-61 -/
def get (seq : Nat) : Option ConnectionIdItem := d.queue.find? fun e => e.seq = seq

/-- The item that `get_mut` finds gets a path. mirrors :63-66 -/
def setPathId (seq pathId : Nat) : List ConnectionIdItem → List ConnectionIdItem
  | [] => []
  | e :: es => if e.seq = seq then { e with pathId := some pathId } :: es else e :: setPathId seq pathId es

/-- mirrors :71-77 -/
def insert (e : ConnectionIdItem) : Except Error ConnectionIdDeque :=
  if d.queue.length = d.capacity then .error .connectionIdLimitError
  else .ok { d with queue := d.queue ++ [e] }

/-- The last item is not removed. mirrors :84-98 -/
def remove (seq : Nat) : Except Error (Option ConnectionIdItem × ConnectionIdDeque) :=
  if d.queue.isEmpty then .error .internalError
  else if d.queue.length = 1 ∧ (d.get seq).isSome then .error .internalError
  else .ok (d.get seq, { d with queue := d.queue.eraseP fun e => e.seq = seq })

/-- The items below `seq` and the others. mirrors :100-110 -/
def removeLower (seq : Nat) : List ConnectionIdItem × ConnectionIdDeque :=
  (d.queue.filter fun e => e.seq < seq, { d with queue := d.queue.filter fun e => ¬ e.seq < seq })

/-- mirrors :112-117 -/
def enlarge (capacity : Nat) : ConnectionIdDeque :=
  if capacity > d.capacity then { d with capacity } else d

end ConnectionIdDeque

open ConnectionIdDeque (setPathId)

/-- mirrors :130-166 -/
structure ConnectionIdMgr where
  dcids : ConnectionIdDeque
  scids : ConnectionIdDeque
  dcidLimit : Nat
  scidLimit : Nat
  zeroLengthScid : Bool
  zeroLengthDcid : Bool := false
  nextScidSeq : Nat
  retirePriorTo : Nat := 0
  scidsToAdvertise : List Nat := []
  largestPeerRetirePriorTo : Nat := 0
  dcidsToRetire : List Nat := []

namespace ConnectionIdMgr

/-- mirrors :169-198 -/
def new (dcidLimit : Nat) (initialScid : ConnectionId) (initialPathId : Nat) (resetToken : Option ResetToken) :
    ConnectionIdMgr :=
  { scids := { queue := [{ cid := initialScid, seq := 0, resetToken, pathId := some initialPathId }], capacity := 3 }
    dcids := { capacity := dcidLimit * 2 - 1 }
    dcidLimit, scidLimit := 2, zeroLengthScid := initialScid.isEmpty, nextScidSeq := 1 }

variable (m : ConnectionIdMgr)

/-- mirrors :201-217 -/
def setInitialDcid (cid : ConnectionId) (resetToken : Option ResetToken) (pathId : Option Nat) : ConnectionIdMgr :=
  { m with
    zeroLengthDcid := cid.isEmpty
    dcids := { m.dcids with queue := [{ cid, seq := 0, resetToken, pathId }] } }

/-- mirrors :220-228 -/
def setScidLimit (limit : Nat) : ConnectionIdMgr :=
  let limit := max (min limit MAX_CIDS_COUNT) 2
  { m with scidLimit := limit, scids := m.scids.enlarge (2 * limit - 1) }

/-- mirrors :258-263 -/
def markDcidUsed (dcidSeq pathId : Nat) : Except Error ConnectionIdMgr :=
  if (m.dcids.get dcidSeq).isSome then
    .ok { m with dcids := { m.dcids with queue := setPathId dcidSeq pathId m.dcids.queue } }
  else .error .internalError

/-- mirrors :281-294 -/
def lowestActiveScidSeq : Except Error Nat :=
  match ((m.scids.queue.filter fun e => e.seq ≥ m.retirePriorTo).map (·.seq)).min? with
  | some seq => .ok seq
  | none => .error .internalError

/-- mirrors :296-308 -/
def lowestUnusedDcidSeq : Option Nat :=
  ((m.dcids.queue.filter fun e => e.pathId.isNone).map (·.seq)).min?

/-- mirrors :472-479 -/
def markScidToAdvertise (seq : Nat) (advertise : Bool) : ConnectionIdMgr :=
  if advertise then { m with scidsToAdvertise := m.scidsToAdvertise ++ [seq] }
  else { m with scidsToAdvertise := m.scidsToAdvertise.filter (· ≠ seq) }

/-- mirrors :481-489 -/
def markDcidToRetire (seq : Nat) (retire : Bool) : ConnectionIdMgr :=
  if retire then { m with dcidsToRetire := m.dcidsToRetire ++ [seq] }
  else { m with dcidsToRetire := m.dcidsToRetire.filter (· ≠ seq) }

/-- The part of `add_scid` behind the check of the limit. mirrors :332-345 -/
def insertScid (cid : ConnectionId) (resetToken : Option ResetToken) (advertise : Bool)
    (pathId : Option Nat) : Except Error Nat × ConnectionIdMgr :=
  let seq := m.nextScidSeq
  if seq ≠ 0 ∧ resetToken.isNone then (.error .internalError, m)
  else match m.scids.insert { cid, seq, resetToken, pathId } with
    | .error e => (.error e, m)
    | .ok scids => (.ok seq, { m with scids, nextScidSeq := seq + 1 }.markScidToAdvertise seq advertise)

/-- mirrors :311-346 -/
def addScid (cid : ConnectionId) (resetToken : Option ResetToken) (advertise : Bool)
    (pathId : Option Nat) (retireIfNeeded : Bool) : Except Error Nat × ConnectionIdMgr :=
  if m.zeroLengthScid then (.error .internalError, m)
  else if m.scids.queue.length ≥ m.scidLimit then
    if !retireIfNeeded then (.error .connectionIdLimitError, m)
    else match m.lowestActiveScidSeq with
      | .error e => (.error e, m)
      | .ok lowest => { m with retirePriorTo := lowest + 1 }.insertScid cid resetToken advertise pathId
  else m.insertScid cid resetToken advertise pathId

/-- mirrors :429-443 -/
def checkDcidsToRetire : Except Error Unit :=
  if m.dcidsToRetire.length > m.dcidLimit * 4 then .error .protocolViolation else .ok ()

/-- Retire what lies below a larger `retire_prior_to`. mirrors :405-415 -/
def retireLower (retirePriorTo : Nat) : List (Nat × Nat) × ConnectionIdMgr :=
  let (removed, dcids) := m.dcids.removeLower retirePriorTo
  (removed.filterMap fun e => e.pathId.map fun pid => (e.seq, pid),
    { m with
      dcids, dcidsToRetire := m.dcidsToRetire ++ removed.map (·.seq)
      largestPeerRetirePriorTo := retirePriorTo })

/-- The end of `add_dcid`. mirrors :417-427 -/
def insertDcid (e : ConnectionIdItem) (retired : List (Nat × Nat)) :
    Except Error (List (Nat × Nat)) × ConnectionIdMgr :=
  match m.dcids.insert e with
  | .error e => (.error e, m)
  | .ok dcids => (.ok retired, { m with dcids })

/-- The sequence numbers to be retired and the paths that use them. mirrors :351-427 -/
def addDcid (cid : ConnectionId) (seq : Nat) (resetToken : ResetToken) (retirePriorTo : Nat) :
    Except Error (List (Nat × Nat)) × ConnectionIdMgr :=
  if m.zeroLengthDcid then (.error .protocolViolation, m)
  else match m.dcids.queue.find? fun e => e.cid = cid ∨ e.seq = seq with
  | some e =>
    if e.cid ≠ cid ∨ e.seq ≠ seq ∨ e.resetToken ≠ some resetToken then (.error .protocolViolation, m) else (.ok [], m)
  | none =>
    if retirePriorTo > seq then (.error .protocolViolation, m)
    else if seq < m.largestPeerRetirePriorTo ∧ seq ∉ m.dcidsToRetire then
      let m := m.markDcidToRetire seq true
      match m.checkDcidsToRetire with
      | .error e => (.error e, m)
      | .ok () => (.ok [], m)
    else
      let item : ConnectionIdItem := { cid, seq, resetToken := some resetToken, pathId := none }
      if retirePriorTo > m.largestPeerRetirePriorTo then
        let (retired, m) := m.retireLower retirePriorTo
        match m.checkDcidsToRetire with
        | .error e => (.error e, m)
        | .ok () => m.insertDcid item retired
      else m.insertDcid item []

/-- mirrors :445-470 -/
def retireScid (seq : Nat) (pktDcid : ConnectionId) : Except Error (Option Nat) × ConnectionIdMgr :=
  if seq ≥ m.nextScidSeq then (.error .protocolViolation, m)
  else match m.scids.remove seq with
  | .error e => (.error e, m)
  | .ok (none, _) => (.ok none, m)
  | .ok (some e, scids) =>
    let m := { m with scids }
    if e.cid = pktDcid then (.error .protocolViolation, m)
    else match m.lowestActiveScidSeq with
      | .error err => (.error err, m)
      | .ok retirePriorTo => (.ok e.pathId, { m with retirePriorTo })

/-- mirrors :491-495 -/
def nextScidToAdvertise : Option Nat := m.scidsToAdvertise.head?

/-- mirrors :497-501 -/
def nextDcidToRetire : Option Nat := m.dcidsToRetire.head?

/-- mirrors :503-514 -/
def createNewConnectionIdFrame (seq : Nat) : Except Error Wire.Frame :=
  match m.scids.get seq with
  | none => .error .internalError
  | some item => match item.resetToken with
    | none => .error .internalError
    | some token => .ok (.newConnectionId seq m.retirePriorTo item.cid token)

/-! ## Items -/

section Items

variable {seq pid : Nat} {l : List ConnectionIdItem}

theorem setPathId_seqs : (setPathId seq pid l).map (·.seq) = l.map (·.seq) := by
  induction l with
  | nil => rfl
  | cons e l ih =>
    unfold setPathId
    split
    · rfl
    · simp only [map_cons, ih]

variable {e : ConnectionIdItem}

theorem mem_setPathId_of_ne (he : e ∈ l) (hne : e.seq ≠ seq) : e ∈ setPathId seq pid l := by
  induction l with
  | nil => cases he
  | cons a l ih =>
    unfold setPathId
    cases mem_cons.mp he with
    | inl heq =>
      subst heq
      rw [if_neg hne]
      exact mem_cons_self
    | inr he =>
      split
      · exact mem_cons_of_mem _ he
      · exact mem_cons_of_mem _ (ih he)

theorem exists_mem_setPathId (h : ∃ e ∈ l, e.seq = seq) :
    ∃ e ∈ setPathId seq pid l, e.seq = seq ∧ e.pathId = some pid := by
  induction l with
  | nil => simp at h
  | cons a l ih =>
    unfold setPathId
    split
    · rename_i ha
      exact ⟨_, mem_cons_self, ha, rfl⟩
    rename_i ha
    have hl : ∃ e ∈ l, e.seq = seq := by
      obtain ⟨e, he, hseq⟩ := h
      cases mem_cons.mp he with
      | inl heq => exact absurd (heq ▸ hseq) ha
      | inr he => exact ⟨e, he, hseq⟩
    obtain ⟨e, he, hseq, hpid⟩ := ih hl
    exact ⟨e, mem_cons_of_mem _ he, hseq, hpid⟩

theorem mem_of_mem_setPathId (he : e ∈ setPathId seq pid l) : e ∈ l ∨ e.seq = seq ∧ e.pathId = some pid := by
  induction l with
  | nil => cases he
  | cons a l ih =>
    unfold setPathId at he
    split at he
    · rename_i ha
      cases mem_cons.mp he with
      | inl heq =>
        subst heq
        exact .inr ⟨ha, rfl⟩
      | inr he => exact .inl (mem_cons_of_mem _ he)
    cases mem_cons.mp he with
    | inl heq => exact .inl (heq ▸ mem_cons_self)
    | inr he => exact (ih he).imp_left (mem_cons_of_mem _)

/-- What holds of every sequence number in a queue does not depend on the paths. -/
theorem forall_mem_of_seqs_eq {l' : List ConnectionIdItem} (h : l'.map (·.seq) = l.map (·.seq)) {P : Nat → Prop}
    (hP : ∀ e ∈ l, P e.seq) : ∀ e ∈ l', P e.seq := by
  intro e he
  have hmem := h ▸ mem_map_of_mem he
  obtain ⟨a, ha, heq⟩ := mem_map.mp hmem
  exact heq ▸ hP a ha

/-- Of two items with one sequence number, there is one. -/
theorem eq_of_seq_eq (hn : (l.map (·.seq)).Nodup) {e' : ConnectionIdItem} (he : e ∈ l) (he' : e' ∈ l)
    (h : e.seq = e'.seq) : e = e' := inj_on_of_nodup_map hn he he' h

theorem nodup_append_item (h : (l.map (·.seq)).Nodup) (hnew : ∀ a ∈ l, a.seq ≠ e.seq) :
    ((l ++ [e]).map (·.seq)).Nodup := by
  rw [map_append, nodup_append]
  refine ⟨h, by simp, ?_⟩
  rintro x hx y hy rfl
  obtain ⟨a, ha, rfl⟩ := mem_map.mp hx
  simp only [map_cons, map_nil, mem_singleton] at hy
  exact hnew a ha hy

/-- An item that is removed was the only one with its sequence number. -/
theorem not_mem_eraseP (hn : (l.map (·.seq)).Nodup) (heq : e.seq = seq) : e ∉ l.eraseP fun a => a.seq = seq := by
  induction l with
  | nil => simp
  | cons a l ih =>
    rw [map_cons, nodup_cons] at hn
    rw [eraseP_cons]
    by_cases ha : a.seq = seq
    · simp only [ha, decide_true, cond_true]
      intro he
      exact hn.1 (ha ▸ heq ▸ mem_map_of_mem he)
    · simp only [ha, decide_false, cond_false, mem_cons, not_or]
      exact ⟨fun h => ha (h ▸ heq), ih hn.2⟩

end Items

variable {m m' : ConnectionIdMgr}

theorem get_isSome_iff {d : ConnectionIdDeque} : (d.get seq).isSome ↔ ∃ e ∈ d.queue, e.seq = seq := by
  simp [ConnectionIdDeque.get]

theorem lowestUnusedDcidSeq_eq_some (h : m.lowestUnusedDcidSeq = some seq) :
    ∃ e ∈ m.dcids.queue, e.seq = seq ∧ e.pathId = none := by
  have hmem := List.min?_mem h
  obtain ⟨e, he, heq⟩ := mem_map.mp hmem
  obtain ⟨hqueue, hnone⟩ := mem_filter.mp he
  exact ⟨e, hqueue, heq, Option.isNone_iff_eq_none.mp hnone⟩

/-! ## NEW_CONNECTION_ID -/

/-- An item is added behind the others. -/
def pushDcid (m : ConnectionIdMgr) (e : ConnectionIdItem) : ConnectionIdMgr :=
  { m with dcids := { m.dcids with queue := m.dcids.queue ++ [e] } }

theorem insertDcid_ok {e : ConnectionIdItem} {r retired : List (Nat × Nat)}
    (h : m.insertDcid e r = (.ok retired, m')) : retired = r ∧ m' = m.pushDcid e := by
  unfold insertDcid ConnectionIdDeque.insert at h
  split at h
  · cases h
  rename_i hins
  split at hins
  · cases hins
  cases hins
  cases h
  exact ⟨rfl, rfl⟩

/-- A frame is accepted because it is known, because it comes too late, or because it brings a new item, after
which what it asks for is retired. -/
theorem addDcid_cases {cid : ConnectionId} {token : ResetToken} {rpt : Nat} {retired : List (Nat × Nat)}
    (h : m.addDcid cid seq token rpt = (.ok retired, m')) :
    (retired = [] ∧ m' = m ∧ ∃ e ∈ m.dcids.queue, e.seq = seq) ∨
    (seq < m.largestPeerRetirePriorTo ∧ seq ∉ m.dcidsToRetire ∧ retired = [] ∧ m' = m.markDcidToRetire seq true) ∨
    ((∀ e ∈ m.dcids.queue, e.seq ≠ seq) ∧ rpt ≤ seq ∧ ∃ e : ConnectionIdItem, e.seq = seq ∧ e.pathId = none ∧
      (rpt ≤ m.largestPeerRetirePriorTo ∧ (seq < m.largestPeerRetirePriorTo → seq ∈ m.dcidsToRetire) ∧
          retired = [] ∧ m' = m.pushDcid e ∨
        m.largestPeerRetirePriorTo < rpt ∧ retired = (m.retireLower rpt).1 ∧
          m' = (m.retireLower rpt).2.pushDcid e)) := by
  unfold addDcid at h
  split at h
  · cases h
  split at h
  · rename_i e he
    split at h
    · cases h
    rename_i hsame
    cases h
    have hseq : e.seq = seq := by
      by_contra hne
      exact hsame (.inr (.inl hne))
    exact .inl ⟨rfl, rfl, e, mem_of_find?_eq_some he, hseq⟩
  rename_i hfind
  have hnew : ∀ e ∈ m.dcids.queue, e.seq ≠ seq := by
    intro e he hseq
    have := List.find?_eq_none.mp hfind e he
    simp [hseq] at this
  split at h
  · cases h
  split at h
  · rename_i hlate
    dsimp only at h
    split at h
    · cases h
    cases h
    exact .inr (.inl ⟨hlate.1, hlate.2, rfl, rfl⟩)
  rename_i hlate
  refine .inr (.inr ⟨hnew, by omega, { cid, seq, resetToken := some token, pathId := none }, rfl, rfl, ?_⟩)
  dsimp only at h
  split at h
  · rename_i hlarger
    split at h
    · cases h
    obtain ⟨hr, hm⟩ := insertDcid_ok h
    exact .inr ⟨hlarger, hr, hm⟩
  obtain ⟨hr, hm⟩ := insertDcid_ok h
  refine .inl ⟨by omega, fun hlt => ?_, hr, hm⟩
  by_contra hmem
  exact hlate ⟨hlt, hmem⟩

/-! ## What concerns one direction only -/

/-- The destination IDs are the same. -/
structure SameDcids (m m' : ConnectionIdMgr) : Prop where
  dcids : m'.dcids = m.dcids
  zeroLengthDcid : m'.zeroLengthDcid = m.zeroLengthDcid
  largestPeerRetirePriorTo : m'.largestPeerRetirePriorTo = m.largestPeerRetirePriorTo
  dcidsToRetire : m'.dcidsToRetire = m.dcidsToRetire

theorem sameDcids_markScidToAdvertise (m : ConnectionIdMgr) (seq : Nat) (advertise : Bool) :
    SameDcids m (m.markScidToAdvertise seq advertise) := by
  unfold markScidToAdvertise
  split <;> exact ⟨rfl, rfl, rfl, rfl⟩

section

variable (m : ConnectionIdMgr) (cid : ConnectionId) (token : Option ResetToken) (advertise : Bool)
  (pathId : Option Nat)

theorem sameDcids_insertScid : SameDcids m (m.insertScid cid token advertise pathId).2 := by
  unfold insertScid
  dsimp only
  split
  · exact ⟨rfl, rfl, rfl, rfl⟩
  split
  · exact ⟨rfl, rfl, rfl, rfl⟩
  have h := sameDcids_markScidToAdvertise { m with scids := ‹_›, nextScidSeq := m.nextScidSeq + 1 } m.nextScidSeq
    advertise
  exact { h with }

theorem sameDcids_addScid (retireIfNeeded : Bool) :
    SameDcids m (m.addScid cid token advertise pathId retireIfNeeded).2 := by
  unfold addScid
  split
  · exact ⟨rfl, rfl, rfl, rfl⟩
  split
  · split
    · exact ⟨rfl, rfl, rfl, rfl⟩
    split
    · exact ⟨rfl, rfl, rfl, rfl⟩
    have h := sameDcids_insertScid { m with retirePriorTo := ‹_› + 1 } cid token advertise pathId
    exact { h with }
  · exact sameDcids_insertScid m cid token advertise pathId

end

theorem sameDcids_retireScid (m : ConnectionIdMgr) (seq : Nat) (pktDcid : ConnectionId) :
    SameDcids m (m.retireScid seq pktDcid).2 := by
  unfold retireScid
  dsimp only
  repeat' split
  all_goals exact ⟨rfl, rfl, rfl, rfl⟩

/-- The source IDs are the same. -/
structure SameScids (m m' : ConnectionIdMgr) : Prop where
  scids : m'.scids = m.scids
  nextScidSeq : m'.nextScidSeq = m.nextScidSeq
  scidsToAdvertise : m'.scidsToAdvertise = m.scidsToAdvertise

theorem SameScids.refl (m : ConnectionIdMgr) : SameScids m m := ⟨rfl, rfl, rfl⟩

theorem SameScids.trans {m₁ m₂ m₃ : ConnectionIdMgr} (h : SameScids m₁ m₂) (h' : SameScids m₂ m₃) : SameScids m₁ m₃ :=
  ⟨h'.scids.trans h.scids, h'.nextScidSeq.trans h.nextScidSeq, h'.scidsToAdvertise.trans h.scidsToAdvertise⟩

theorem sameScids_markDcidToRetire (m : ConnectionIdMgr) (seq : Nat) (retire : Bool) :
    SameScids m (m.markDcidToRetire seq retire) := by
  unfold markDcidToRetire
  split <;> exact ⟨rfl, rfl, rfl⟩

theorem sameScids_markDcidUsed {seq pid : Nat} (h : m.markDcidUsed seq pid = .ok m') : SameScids m m' := by
  unfold markDcidUsed at h
  split at h
  · cases h
    exact ⟨rfl, rfl, rfl⟩
  · cases h

theorem sameScids_addDcid {cid : ConnectionId} {token : ResetToken} {rpt : Nat} {retired : List (Nat × Nat)}
    (h : m.addDcid cid seq token rpt = (.ok retired, m')) : SameScids m m' := by
  obtain ⟨-, rfl, -⟩ | ⟨-, -, -, rfl⟩ | ⟨-, -, e, -, -, ⟨-, -, -, rfl⟩ | ⟨-, -, rfl⟩⟩ := addDcid_cases h
  · exact .refl m'
  · exact sameScids_markDcidToRetire m seq true
  · exact ⟨rfl, rfl, rfl⟩
  · exact ⟨rfl, rfl, rfl⟩

end ConnectionIdMgr

end MoqQuic.L3.Tquic.Cid
