import Mathlib.Algebra.Order.BigOperators.Group.Finset
import Mathlib.Data.Prod.Lex
import MoqQuic.L4App.Tquic.Endpoint

/-!
# Termination of `process_connections` (`endpoint.rs`, `lib.rs`)

The loops take an index from a queue and leave it to the connection to remove
it: `mark_tickable` and `mark_sendable` do so if the connection's flag agrees
with the queue. An index without a connection is never removed, and the loop
that comes to it does not end.

`close(true)` drops the connections and leaves the queues as they are. So a
call of `process_connections` after it hangs, if there was work to do.

Results:
* `Coherent`: in every run the flags of the live connections agree with the
  queues, and every queued index belongs to a connection until `close(true)`
  comes while a queue has one.
* `process_connections_terminates_iff`: in a reachable state the call ends,
  whatever the hash sets yield and the sender takes, exactly when every queued
  index has its connection.
-/
namespace MoqQuic.L4.Tquic
open Reader (Bytes)
open L1.Tquic Table Connection Option Pass
open L3.Tquic (AddressToken Nonce Cipher clearCipher)

/-! ## Flags and queues -/

namespace Connection

/-- The flags that only the endpoint sets. -/
def flags (c : Connection) : Bool × Bool := (c.tickable, c.sendable)

theorem perform_flags (c : Connection) (acts : List ConnAct) : (c.perform acts).flags = c.flags :=
  congrArg (fun m => (m.1, m.2.1)) (perform_marks acts c)

theorem recv_flags (packets : List Packet) (c : Connection) : (c.recv packets).flags = c.flags := by
  induction packets generalizing c with
  | nil => rfl
  | cons p packets ih =>
    have hp : (c.recvPacket p).flags = c.flags := by
      unfold recvPacket
      split
      · rfl
      have hset : (c.trySetDcidForInitialPath p).flags = c.flags := by
        unfold trySetDcidForInitialPath
        split <;> rfl
      exact (perform_flags _ p.acts).trans hset
    exact (ih _).trans hp

theorem reset_flags (c : Connection) : c.reset.flags = c.flags := by
  unfold reset
  split <;> rfl

end Connection

namespace Endpoint

variable {e e' : Endpoint} {i : Nat} {c : Connection} {f : Connection → Connection} {full : Prop}

/-- Every index in a queue belongs to a connection. -/
def Attached (e : Endpoint) : Prop := (∀ i ∈ e.tickable, i ∈ e.conns) ∧ ∀ i ∈ e.sendable, i ∈ e.conns

/-- The flags of the live connections agree with the queues, and an index that is still to be given out is in
none. -/
structure Coherent (full : Prop) (e : Endpoint) : Prop where
  tickable : ∀ i c, e.conns.lookup i = some c → (i ∈ e.tickable ↔ c.tickable = true)
  sendable : ∀ i c, e.conns.lookup i = some c → (i ∈ e.sendable ↔ c.sendable = true)
  conns_lt : ∀ i c, e.conns.lookup i = some c → i < e.nextIndex
  tickable_lt : ∀ i ∈ e.tickable, i < e.nextIndex
  sendable_lt : ∀ i ∈ e.sendable, i < e.nextIndex
  attached : full → e.Attached

theorem pollEvents_flags (events : List Event) (c : Connection) (routes : ConnectionRoutes)
    (gens : List ConnectionId) : (pollEvents i c routes gens events).1.flags = c.flags := by
  induction events generalizing c routes gens with
  | nil => rfl
  | cons event events ih =>
    cases event with
    | scidToAdvertise num =>
      have hadd : (connAddScids c routes i (gens.take num)).1.flags = c.flags := by
        unfold connAddScids
        split <;> rfl
      exact (ih _ _ (gens.drop num)).trans hadd
    | _ => exact ih _ _ _

section Queue

variable {q : Finset Nat} {j : Nat} {b : Bool} {a : Prop}

/-- A queue that agrees with the flag of `i` stays as it is when the flag is set to the same value. -/
theorem mark_eq_self (h : i ∈ q ↔ b = true) : (if b then insert i q else q.erase i) = q := by
  cases b with
  | true => exact Finset.insert_eq_of_mem (h.mpr rfl)
  | false => exact Finset.erase_eq_of_notMem fun hi => by cases h.mp hi

theorem mem_mark : j ∈ (if b then insert i q else q.erase i) ↔ if j = i then b = true else j ∈ q := by
  cases b <;> by_cases hj : j = i <;> simp [hj]

theorem mem_iff_of_mem_iff (h : i ∈ q ↔ a) (j : Nat) : j ∈ q ↔ if j = i then a else j ∈ q := by
  split
  · next hj => rw [hj]; exact h
  · exact Iff.rfl

end Queue

namespace Coherent

variable (h : Coherent full e)
include h

theorem of_same (hconns : e'.conns = e.conns) (htick : e'.tickable = e.tickable) (hsend : e'.sendable = e.sendable)
    (hnext : e'.nextIndex = e.nextIndex) : Coherent full e' := by
  obtain ⟨ht, hs, hlt, htlt, hslt, hatt⟩ := h
  refine ⟨?_, ?_, ?_, ?_, ?_, fun hfull => ?_⟩
  · rw [hconns, htick]; exact ht
  · rw [hconns, hsend]; exact hs
  · rw [hconns, hnext]; exact hlt
  · rw [htick, hnext]; exact htlt
  · rw [hsend, hnext]; exact hslt
  · rw [Attached, hconns, htick, hsend]; exact hatt hfull

/-- The connection `i` changes to `c'`, and the queues follow its flags. -/
theorem update (c' : Connection) (hc : e.conns.lookup i = some c)
    (hconns : ∀ j, e'.conns.lookup j = if j = i then some c' else e.conns.lookup j)
    (htick : ∀ j, j ∈ e'.tickable ↔ if j = i then c'.tickable = true else j ∈ e.tickable)
    (hsend : ∀ j, j ∈ e'.sendable ↔ if j = i then c'.sendable = true else j ∈ e.sendable)
    (hnext : e'.nextIndex = e.nextIndex) : Coherent full e' := by
  have hmem : ∀ j, j ∈ e.conns → j ∈ e'.conns := by
    intro j hj
    rw [← Finmap.lookup_isSome] at hj ⊢
    rw [hconns]
    split
    · rfl
    · exact hj
  have hi : i ∈ e.conns := Finmap.mem_of_lookup_eq_some hc
  refine ⟨fun j d hd => ?_, fun j d hd => ?_, fun j d hd => ?_, fun j hj => ?_, fun j hj => ?_, fun hfull => ?_⟩
  · rw [hconns] at hd
    rw [htick]
    split at hd
    · next hj => cases hd; rw [if_pos hj]
    · next hj => rw [if_neg hj]; exact h.tickable j d hd
  · rw [hconns] at hd
    rw [hsend]
    split at hd
    · next hj => cases hd; rw [if_pos hj]
    · next hj => rw [if_neg hj]; exact h.sendable j d hd
  · rw [hconns] at hd
    rw [hnext]
    split at hd
    · next hj => rw [hj]; exact h.conns_lt i c hc
    · exact h.conns_lt j d hd
  · rw [htick] at hj
    rw [hnext]
    split at hj
    · next heq => rw [heq]; exact h.conns_lt i c hc
    · exact h.tickable_lt j hj
  · rw [hsend] at hj
    rw [hnext]
    split at hj
    · next heq => rw [heq]; exact h.conns_lt i c hc
    · exact h.sendable_lt j hj
  obtain ⟨hat, has⟩ := h.attached hfull
  constructor
  · intro j hj
    rw [htick] at hj
    split at hj
    · next heq => rw [heq]; exact hmem i hi
    · exact hmem j (hat j hj)
  intro j hj
  rw [hsend] at hj
  split at hj
  · next heq => rw [heq]; exact hmem i hi
  · exact hmem j (has j hj)

/-- The connection `i` changes, but not its flags. -/
theorem update_unmarked {c' : Connection} (hc : e.conns.lookup i = some c)
    (hflags : c'.flags = c.flags) (hconns : e'.conns = e.conns.insert i c')
    (htick : e'.tickable = e.tickable) (hsend : e'.sendable = e.sendable) (hnext : e'.nextIndex = e.nextIndex) :
    Coherent full e' := by
  obtain ⟨ht, hs⟩ := Prod.mk.inj hflags
  refine h.update c' hc (fun j => by rw [hconns, lookup_insert_eq]) ?_ ?_ hnext
  · rw [htick, ht]
    exact mem_iff_of_mem_iff (h.tickable i c hc)
  rw [hsend, hs]
  exact mem_iff_of_mem_iff (h.sendable i c hc)

theorem updateConn (hf : ∀ c, (f c).flags = c.flags) :
    Coherent full (e.updateConn i f) := by
  unfold Endpoint.updateConn Table.modify
  cases hc : e.conns.lookup i with
  | none => exact h.of_same rfl rfl rfl rfl
  | some c => exact h.update_unmarked hc (hf c) rfl rfl rfl rfl

/-- Marking a live connection puts its index into the queue or takes it out. -/
theorem markTickable_tickable (hi : i ∈ e.conns) (b : Bool) :
    (e.markTickable i b).tickable = if b then insert i e.tickable else e.tickable.erase i := by
  obtain ⟨c, hc⟩ := Finmap.mem_iff.mp hi
  rw [markTickable, hc]
  dsimp only
  split
  · next heq => exact (mark_eq_self (heq ▸ h.tickable i c hc)).symm
  · rfl

theorem markSendable_sendable (hi : i ∈ e.conns) (b : Bool) :
    (e.markSendable i b).sendable = if b then insert i e.sendable else e.sendable.erase i := by
  obtain ⟨c, hc⟩ := Finmap.mem_iff.mp hi
  rw [markSendable, hc]
  dsimp only
  split
  · next heq => exact (mark_eq_self (heq ▸ h.sendable i c hc)).symm
  · rfl

theorem markTickable (i : Nat) (b : Bool) : Coherent full (e.markTickable i b) := by
  cases hc : e.conns.lookup i with
  | none => rw [Endpoint.markTickable, hc]; exact h
  | some c =>
    have hqueue := h.markTickable_tickable (Finmap.mem_of_lookup_eq_some hc) b
    obtain ⟨queue, heq⟩ := e.markTickable_eq i b
    rw [heq] at hqueue ⊢
    refine h.update { c with tickable := b } hc (fun j => lookup_modify_of_lookup hc j _) (fun j => ?_)
      (mem_iff_of_mem_iff (h.sendable i c hc)) rfl
    rw [hqueue]
    exact mem_mark

theorem markSendable (i : Nat) (b : Bool) : Coherent full (e.markSendable i b) := by
  cases hc : e.conns.lookup i with
  | none => rw [Endpoint.markSendable, hc]; exact h
  | some c =>
    have hqueue := h.markSendable_sendable (Finmap.mem_of_lookup_eq_some hc) b
    obtain ⟨queue, heq⟩ := e.markSendable_eq i b
    rw [heq] at hqueue ⊢
    refine h.update { c with sendable := b } hc (fun j => lookup_modify_of_lookup hc j _)
      (mem_iff_of_mem_iff (h.tickable i c hc)) (fun j => ?_) rfl
    rw [hqueue]
    exact mem_mark

/-- A connection is polled. -/
theorem pollConnection (hc : e.conns.lookup i = some c) (gens : List ConnectionId) (queued : Nat) :
    Coherent full (e.pollConnection i c gens queued) ∧
      (e.pollConnection i c gens queued).tickable = e.tickable.erase i ∧
      (e.pollConnection i c gens queued).sendable = insert i e.sendable ∧
      ∀ j, j ∈ (e.pollConnection i c gens queued).conns ↔ j ∈ e.conns := by
  let polled := pollEvents i { c with events := [] } e.routes gens c.events
  let base : Endpoint := { e with
    routes := polled.2, conns := e.conns.insert i { polled.1 with outbox := polled.1.outbox + queued } }
  have hbase : Coherent full base := by
    refine h.update_unmarked hc ?_ rfl rfl rfl rfl
    exact pollEvents_flags c.events { c with events := [] } e.routes gens
  have hi : i ∈ base.conns := Finmap.mem_insert.mpr (.inl rfl)
  have hsent := hbase.markSendable i true
  have heq : e.pollConnection i c gens queued = (base.markSendable i true).markTickable i false := rfl
  rw [heq]
  refine ⟨hsent.markTickable i false, ?_, ?_, fun j => ?_⟩
  · rw [hsent.markTickable_tickable (mem_markSendable.mpr hi), markSendable_tickable]
    rfl
  · rw [markTickable_sendable, hbase.markSendable_sendable hi]
    rfl
  · rw [mem_markTickable, mem_markSendable, Finmap.mem_insert]
    exact ⟨fun hj => hj.elim (fun hj => hj ▸ Finmap.mem_of_lookup_eq_some hc) id, .inr⟩

/-- A connection goes. -/
theorem cleanUp (hi : i ∈ e.conns) : Coherent full (e.cleanUp i c) ∧ (e.cleanUp i c).tickable = e.tickable.erase i ∧
      (e.cleanUp i c).sendable = e.sendable.erase i ∧ ∀ j, j ∈ (e.cleanUp i c).conns ↔ j ≠ i ∧ j ∈ e.conns := by
  have hmarked := h.markTickable i false
  have hboth := hmarked.markSendable i false
  have htick : (e.cleanUp i c).tickable = e.tickable.erase i := by
    have := h.markTickable_tickable hi false
    exact (markSendable_tickable _ _ _).trans this
  have hsend : (e.cleanUp i c).sendable = e.sendable.erase i := by
    have := hmarked.markSendable_sendable (mem_markTickable.mpr hi) false
    rw [markTickable_sendable] at this
    exact this
  have hmem : ∀ j, j ∈ (e.cleanUp i c).conns ↔ j ≠ i ∧ j ∈ e.conns := by
    intro j
    have : j ∈ (e.cleanUp i c).conns ↔ j ≠ i ∧ j ∈ ((e.markTickable i false).markSendable i false).conns :=
      Finmap.mem_erase
    rw [this, mem_markSendable, mem_markTickable]
  have hold : ∀ j d, (e.cleanUp i c).conns.lookup j = some d →
      ((e.markTickable i false).markSendable i false).conns.lookup j = some d := by
    intro j d hd
    rw [Endpoint.cleanUp, lookup_erase_eq] at hd
    split at hd
    · cases hd
    · exact hd
  refine ⟨⟨fun j d hd => hboth.tickable j d (hold j d hd), fun j d hd => hboth.sendable j d (hold j d hd),
    fun j d hd => hboth.conns_lt j d (hold j d hd), hboth.tickable_lt, hboth.sendable_lt, fun hfull => ?_⟩,
    htick, hsend, hmem⟩
  obtain ⟨hat, has⟩ := h.attached hfull
  constructor
  · intro j hj
    rw [htick, Finset.mem_erase] at hj
    exact (hmem j).mpr ⟨hj.1, hat j hj.2⟩
  intro j hj
  rw [hsend, Finset.mem_erase] at hj
  exact (hmem j).mpr ⟨hj.1, has j hj.2⟩

/-- The next index is given out. -/
theorem insertNew (hflags : c.tickable = false ∧ c.sendable = false)
    (hconns : e'.conns = e.conns.insert e.nextIndex c) (htick : e'.tickable = e.tickable)
    (hsend : e'.sendable = e.sendable) (hnext : e'.nextIndex = e.nextIndex + 1) : Coherent full e' := by
  refine ⟨fun j d hd => ?_, fun j d hd => ?_, fun j d hd => ?_, fun j hj => ?_, fun j hj => ?_, fun hfull => ?_⟩
  · rw [hconns, lookup_insert_eq] at hd
    rw [htick]
    split at hd
    · next hj =>
      cases hd
      simp only [hflags.1, Bool.false_eq_true, iff_false]
      exact fun hmem => absurd (h.tickable_lt j hmem) (by omega)
    · exact h.tickable j d hd
  · rw [hconns, lookup_insert_eq] at hd
    rw [hsend]
    split at hd
    · next hj =>
      cases hd
      simp only [hflags.2, Bool.false_eq_true, iff_false]
      exact fun hmem => absurd (h.sendable_lt j hmem) (by omega)
    · exact h.sendable j d hd
  · rw [hconns, lookup_insert_eq] at hd
    rw [hnext]
    split at hd
    · omega
    · exact Nat.lt_succ_of_lt (h.conns_lt j d hd)
  · rw [hnext]
    exact Nat.lt_succ_of_lt (h.tickable_lt j (htick ▸ hj))
  · rw [hnext]
    exact Nat.lt_succ_of_lt (h.sendable_lt j (hsend ▸ hj))
  obtain ⟨hat, has⟩ := h.attached hfull
  rw [Attached, hconns, htick, hsend]
  exact ⟨fun j hj => Finmap.mem_insert.mpr (.inr (hat j hj)),
    fun j hj => Finmap.mem_insert.mpr (.inr (has j hj))⟩

omit h

theorem pass {p p' : Pass} {t : Turn} (h : Coherent full p.ep) (hs : p.step t = some p') : Coherent full p'.ep :=
  step_ep (Coherent full) (fun _ _ gens queued _ _ hc => (h.pollConnection hc gens queued).1)
    (fun _ _ _ he hc => (he.cleanUp (Finmap.mem_of_lookup_eq_some hc)).1) (fun _ i he => he.markTickable i true)
    (fun _ i he => he.markSendable i false) (fun _ _ _ he => he.updateConn fun _ => rfl)
    (fun _ _ he => he.of_same rfl rfl rfl rfl) h hs

end Coherent

/-- `close(true)` finds the queues empty. -/
def Drained (e : Endpoint) : Call → Prop
  | .close true => e.tickable = ∅ ∧ e.sendable = ∅
  | _ => True

theorem Coherent.step {call : Call} (h : Coherent full e) (hok : full → e.Drained call)
    (hs : e.step call = some e') : Coherent full e' := by
  cases call with
  | connect scid path starts =>
    cases hs
    unfold connect
    split
    · exact h
    have hnew : Coherent full { e with
        conns := e.conns.insert e.nextIndex (.new false scid path none), nextIndex := e.nextIndex + 1 } :=
      h.insertNew ⟨rfl, rfl⟩ rfl rfl rfl rfl
    split
    · exact hnew
    · exact (hnew.markTickable e.nextIndex true).of_same rfl rfl rfl rfl
  | recv d env =>
    obtain ⟨⟨e1, r⟩, hr, rfl⟩ := map_eq_some_iff.mp hs
    cases received_of_recv hr with
    | delivered i reset _ _ => exact (h.markTickable i true).updateConn (recv_flags d.packets)
    | reset i _ => exact (h.markTickable i true).updateConn reset_flags
    | answered _ _ _ _ | retry _ _ => exact h.of_same rfl rfl rfl rfl
    | created _ _ token odcid _ _ =>
      have hnew : Coherent full (e.register d env token odcid) := h.insertNew ⟨rfl, rfl⟩ rfl rfl rfl rfl
      exact (hnew.markTickable e.nextIndex true).updateConn (recv_flags d.packets)
  | onTimeout expired =>
    cases hs
    clear hok
    induction expired generalizing e with
    | nil => exact h
    | cons a expired ih => exact ih ((h.markTickable a.1 true).updateConn fun c => c.perform_flags a.2)
  | useConn i marks acts =>
    cases hs
    unfold useConn
    split
    · exact (h.markTickable i true).updateConn fun c => c.perform_flags acts
    · exact h.updateConn fun c => c.perform_flags acts
  | close force =>
    cases hs
    cases force with
    | false => exact h.of_same rfl rfl rfl rfl
    | true =>
      -- without connections nothing is left to agree with the queues
      refine ⟨fun j c hc => (by cases hc), fun j c hc => (by cases hc), fun j c hc => (by cases hc),
        h.tickable_lt, h.sendable_lt, fun hfull => ?_⟩
      obtain ⟨htick, hsend⟩ := hok hfull
      constructor
      · intro j hj
        have hempty : j ∈ e.tickable := hj
        rw [htick] at hempty
        exact absurd hempty (Finset.notMem_empty j)
      intro j hj
      have hempty : j ∈ e.sendable := hj
      rw [hsend] at hempty
      exact absurd hempty (Finset.notMem_empty j)
  | processConnections turns =>
    exact processConnections_invariant (Coherent full) (fun p t p' hp _ hstep => hp.pass hstep) h
      (LTS.along_true _ _) hs

theorem coherent_new (full : Prop) (isServer : Bool) (config : Config) (key : Key) (olderKeys : List Key) :
    Coherent full (Endpoint.new isServer config key olderKeys) :=
  ⟨fun j c hc => (by cases hc), fun j c hc => (by cases hc), fun j c hc => (by cases hc),
    fun j hj => absurd hj (Finset.notMem_empty j), fun j hj => absurd hj (Finset.notMem_empty j),
    fun _ => ⟨fun j hj => absurd hj (Finset.notMem_empty j), fun j hj => absurd hj (Finset.notMem_empty j)⟩⟩

/-! ## A measure of the work -/

def outboxOf (e : Endpoint) (i : Nat) : Nat := ((e.conns.lookup i).map Connection.outbox).getD 0

/-- The packets that the queued connections have to send, and the connections themselves. -/
def load (e : Endpoint) : Nat := ∑ i ∈ e.sendable, (e.outboxOf i + 1)

/-- A connection with nothing to send leaves the queue. -/
theorem Coherent.load_markSendable (h : Coherent full e) (hq : i ∈ e.sendable) (hi : i ∈ e.conns) :
    (e.markSendable i false).load < e.load := by
  have hout : ∀ j, (e.markSendable i false).outboxOf j = e.outboxOf j := by
    intro j
    obtain ⟨queue, heq⟩ := e.markSendable_eq i false
    rw [heq, outboxOf, outboxOf, lookup_modify]
    split
    · rw [map_map]; rfl
    · rfl
  have hsum : e.load = (e.outboxOf i + 1) + ∑ j ∈ e.sendable.erase i, (e.outboxOf j + 1) :=
    (Finset.add_sum_erase e.sendable (fun j => e.outboxOf j + 1) hq).symm
  rw [load, h.markSendable_sendable hi, hsum]
  simp only [hout, Bool.false_eq_true, if_false]
  omega

/-- A packet is taken from a connection. -/
theorem load_updateConn (hq : i ∈ e.sendable) (hc : e.conns.lookup i = some c) (hpos : 0 < c.outbox) :
    (e.updateConn i fun c => { c with outbox := c.outbox - 1 }).load < e.load := by
  have hout : ∀ j, (e.updateConn i fun c => { c with outbox := c.outbox - 1 }).outboxOf j =
      if j = i then c.outbox - 1 else e.outboxOf j := by
    intro j
    rw [updateConn, outboxOf, lookup_modify_of_lookup hc]
    split <;> rfl
  have hi : e.outboxOf i = c.outbox := by rw [outboxOf, hc]; rfl
  refine Finset.sum_lt_sum (fun j _ => ?_) ⟨i, hq, ?_⟩
  · rw [hout]
    split
    · next hj => rw [hj, hi]; omega
    · exact le_rfl
  · rw [hout, if_pos rfl, hi]
    omega

end Endpoint

def Phase.rank : Phase → Nat
  | .ticking => 3
  | .sending => 2
  | .flushing => 1
  | .returned => 0

namespace Pass

/-- What is left to do in the phase. -/
def work (p : Pass) : Nat :=
  match p.phase with
  | .ticking => p.ep.tickable.card
  | .sending => p.ep.load
  | .flushing => p.ep.packets
  | .returned => 0

def rank (p : Pass) : Nat ×ₗ Nat := toLex (p.phase.rank, p.work)

variable {p p' : Pass} {t : Turn}

theorem rank_lt_of_phase (h : p'.phase.rank < p.phase.rank) : p'.rank < p.rank :=
  Prod.Lex.toLex_lt_toLex.mpr (.inl h)

theorem rank_lt_of_work (hphase : p'.phase = p.phase) (h : p'.work < p.work) : p'.rank < p.rank :=
  Prod.Lex.toLex_lt_toLex.mpr (.inr ⟨congrArg Phase.rank hphase, h⟩)

theorem rank_lt_of_returned (hphase : p.phase ≠ .returned) (h : p'.phase = .returned) : p'.rank < p.rank := by
  refine rank_lt_of_phase ?_
  rw [h]
  cases hp : p.phase with
  | returned => exact absurd hp hphase
  | _ => decide

theorem sendBatch_rank (hphase : p.phase = .sending) (accepted : Option Nat) :
    (p.sendBatch accepted).rank ≤ p.rank := by
  unfold sendBatch
  split
  · exact le_rfl
  cases accepted with
  | none => exact le_of_lt (rank_lt_of_returned (by simp [hphase]) rfl)
  | some n =>
    refine le_of_eq ?_
    simp only [rank, work, hphase]
    rfl

/-- A turn of the first loop takes the index of a live connection out of the queue. -/
theorem tick_live {full : Prop} {j : Nat} (h : Endpoint.Coherent full p.ep) (hlive : j ∈ p.ep.conns)
    (gens : List ConnectionId) (queued : Nat) (ready : Bool) :
    (p.tick j gens queued ready).phase = p.phase ∧ (p.tick j gens queued ready).ep.tickable = p.ep.tickable.erase j ∧
      (∀ i, i ≠ j → i ∈ p.ep.sendable → i ∈ (p.tick j gens queued ready).ep.sendable) ∧
      ∀ i, i ∈ (p.tick j gens queued ready).ep.conns → i ∈ p.ep.conns := by
  obtain ⟨c, hc⟩ := Finmap.mem_iff.mp hlive
  rw [tick, hc]
  dsimp only
  split
  · obtain ⟨-, htick, hsend, hmem⟩ := h.cleanUp (c := c) hlive
    refine ⟨rfl, htick, fun i hne hi => ?_, fun i hi => ((hmem i).mp hi).2⟩
    rw [hsend]
    exact Finset.mem_erase_of_ne_of_mem hne hi
  obtain ⟨-, htick, hsend, hmem⟩ := h.pollConnection hc gens queued
  refine ⟨rfl, htick, fun i _ hi => ?_, fun i hi => (hmem i).mp hi⟩
  rw [hsend]
  exact Finset.mem_insert_of_mem hi

theorem tick_rank {idx queued : Nat} {gens : List ConnectionId} {ready : Bool} (h : Endpoint.Coherent True p.ep)
    (hphase : p.phase = .ticking) (hq : idx ∈ p.ep.tickable) : (p.tick idx gens queued ready).rank < p.rank := by
  obtain ⟨hsame, htick, -⟩ := tick_live h ((h.attached trivial).1 idx hq) gens queued ready
  refine rank_lt_of_work hsame ?_
  simp only [work, hsame, hphase, htick]
  exact Finset.card_erase_lt_of_mem hq

/-- A turn of the second loop. -/
theorem send_rank {idx : Nat} {fails : Bool} {accepted : Option Nat} (h : Endpoint.Coherent True p.ep)
    (hphase : p.phase = .sending) (hq : idx ∈ p.ep.sendable) : (p.send idx fails accepted).rank < p.rank := by
  have hi := (h.attached trivial).2 idx hq
  obtain ⟨c, hc⟩ := Finmap.mem_iff.mp hi
  have hsending : ∀ e : Endpoint, e.load < p.ep.load → ({ p with ep := e } : Pass).rank < p.rank := by
    intro e hlt
    refine rank_lt_of_work rfl ?_
    simp only [work, hphase]
    exact hlt
  have hleave := hsending _ (h.load_markSendable hq hi)
  rw [send, hc]
  dsimp only
  split
  · exact hleave
  split
  · exact rank_lt_of_returned (by simp [hphase]) rfl
  have hbatch : ∀ e : Endpoint, e.load < p.ep.load → ({ p with ep := e }.sendBatch accepted).rank < p.rank :=
    fun e hlt => lt_of_le_of_lt (sendBatch_rank (p := { p with ep := e }) hphase accepted) (hsending e hlt)
  split
  · next hpos =>
    refine hbatch _ ?_
    exact Endpoint.load_updateConn hq hc hpos
  · exact hbatch _ (h.load_markSendable hq hi)

/-- A turn of the last loop. -/
theorem flush_rank {accepted : Option Nat} (hphase : p.phase = .flushing) : (p.flush accepted).rank < p.rank := by
  have hne : p.phase ≠ .returned := by simp [hphase]
  unfold flush
  split
  · exact rank_lt_of_returned hne rfl
  rename_i hbatch
  split
  · exact rank_lt_of_returned hne rfl
  · exact rank_lt_of_returned hne rfl
  rename_i n hn
  have hpos : n ≠ 0 := fun h0 => hn (by rw [h0])
  refine rank_lt_of_work rfl ?_
  simp only [work, hphase]
  omega

/-- Every turn lowers the rank, as long as the queued indices have their connections. -/
theorem step_rank (h : Endpoint.Coherent True p.ep) (hs : p.step t = some p') : p'.rank < p.rank := by
  unfold step at hs
  split at hs
  · next hphase =>
    split at hs
    · next hq => cases hs; exact tick_rank h hphase hq
    · cases hs
  · next hphase =>
    split at hs
    · cases hs
      exact rank_lt_of_phase (by simp [hphase, Phase.rank])
    · cases hs
  · next hphase =>
    split at hs
    · next hq => cases hs; exact send_rank h hphase hq
    · cases hs
  · next hphase =>
    split at hs
    · cases hs
      exact rank_lt_of_phase (by simp [hphase, Phase.rank])
    · cases hs
  · next hphase => cases hs; exact flush_rank hphase
  · cases hs

theorem terminates_of_coherent (h : Endpoint.Coherent True p.ep) : LTS.Terminates Pass.step p :=
  LTS.terminates_of_measure (wellFounded_lt : WellFounded ((· < ·) : Nat ×ₗ Nat → Nat ×ₗ Nat → Prop)) rank
    (fun _ _ _ hp hs => ⟨Endpoint.Coherent.pass hp hs, step_rank hp hs⟩) h

/-! ## Indices without a connection -/

/-- The first loop comes back to an index without a connection. -/
theorem not_terminates_of_tickable {i : Nat} (hphase : p.phase = .ticking) (hq : i ∈ p.ep.tickable)
    (hi : i ∉ p.ep.conns) : ¬ LTS.Terminates Pass.step p := by
  have htick : p.tick i [] 0 false = p := by rw [tick, Finmap.lookup_eq_none.mpr hi]
  have hstep : p.step (.tick i [] 0 false) = some p := by
    simp only [step, hphase]
    rw [if_pos hq, htick]
  exact LTS.not_terminates_of_loop hstep

theorem not_terminates_of_sending {i : Nat} (hphase : p.phase = .sending) (hq : i ∈ p.ep.sendable)
    (hi : i ∉ p.ep.conns) : ¬ LTS.Terminates Pass.step p := by
  have hbatch : p.sendBatch (some 0) = p := by
    unfold sendBatch
    split <;> rfl
  have hsend : p.send i false (some 0) = p := by rw [send, Finmap.lookup_eq_none.mpr hi]; exact hbatch
  have hstep : p.step (.send i false (some 0)) = some p := by
    simp only [step, hphase]
    rw [if_pos hq, hsend]
  exact LTS.not_terminates_of_loop hstep

/-- The first loop leaves an index without a connection in the second queue. -/
theorem not_terminates_of_sendable {i : Nat} {p : Pass} (h : Endpoint.Coherent False p.ep)
    (hphase : p.phase = .ticking) (hq : i ∈ p.ep.sendable) (hi : i ∉ p.ep.conns) :
    ¬ LTS.Terminates Pass.step p := by
  induction hn : p.ep.tickable.card using Nat.strong_induction_on generalizing p with
  | _ n ih =>
    subst hn
    rcases p.ep.tickable.eq_empty_or_nonempty with hempty | ⟨j, hj⟩
    · -- the loop is left
      have hstep : p.step .next = some { p with phase := .sending } := by
        simp only [step, hphase]
        rw [if_pos hempty]
      exact fun hterm => not_terminates_of_sending (p := { p with phase := .sending }) rfl hq hi (hterm.next hstep)
    by_cases hlive : j ∈ p.ep.conns
    · have hstep : p.step (.tick j [] 0 false) = some (p.tick j [] 0 false) := by
        simp only [step, hphase]
        rw [if_pos hj]
      obtain ⟨hsame, htick, hsend, hmem⟩ := tick_live h hlive [] 0 false
      intro hterm
      refine ih _ ?_ (Endpoint.Coherent.pass h hstep) (hsame.trans hphase) ?_ ?_ rfl (hterm.next hstep)
      · rw [htick]
        exact Finset.card_erase_lt_of_mem hj
      · exact hsend i (fun heq => hi (heq ▸ hlive)) hq
      · exact fun hcon => hi (hmem i hcon)
    · exact not_terminates_of_tickable hphase hj hlive

end Pass

open Endpoint Exchange

/-- In every reachable state `process_connections` ends, whichever elements the hash sets yield and however
many packets the sender takes, exactly when every index in its queues has a connection. This is so in every run in
which `close(true)` is called with empty queues only. -/
theorem process_connections_terminates_iff (isServer : Bool) (config : Config) (key : Key) (olderKeys : List Key)
    (calls : List Call) (e : Endpoint)
    (hrun : LTS.run Endpoint.step (Endpoint.new isServer config key olderKeys) calls = some e) :
    (LTS.Terminates Pass.step { ep := e } ↔ e.Attached) ∧
      (LTS.Along Endpoint.step Drained (Endpoint.new isServer config key olderKeys) calls →
        LTS.Terminates Pass.step { ep := e }) := by
  have hcoherent : Coherent False e :=
    LTS.run_invariant (fun s call s' h _ hs => h.step (fun hf => hf.elim) hs) (coherent_new False ..)
      (LTS.along_true _ _) hrun
  refine ⟨⟨fun hterm => ⟨fun i hq => ?_, fun i hq => ?_⟩, fun hatt => ?_⟩, fun ha => ?_⟩
  · by_contra hi
    exact not_terminates_of_tickable rfl hq hi hterm
  · by_contra hi
    exact not_terminates_of_sendable hcoherent rfl hq hi hterm
  · exact terminates_of_coherent { hcoherent with attached := fun _ => hatt }
  have hfull : Coherent True e :=
    LTS.run_invariant (fun s call s' h hcall hs => h.step (fun _ => hcall) hs) (coherent_new True ..) ha hrun
  exact terminates_of_coherent hfull

/-- A client connects, sends a packet and closes the endpoint once the queues are empty. -/
theorem process_connections_terminates_after_drain :
    let calls : List Call :=
      [.connect (.new [1]) ⟨client, client⟩ true,
        .processConnections [.tick 0 [] 1 false, .next, .send 0 false (some 1), .send 0 false none, .next, .flush none],
        .close true]
    ∃ e, LTS.run Endpoint.step (endpoint false false) calls = some e ∧
      LTS.Terminates Pass.step { ep := e } := by
  intro calls
  have hsome : (LTS.run Endpoint.step (endpoint false false) calls).isSome = true := by decide +kernel
  obtain ⟨e, hrun⟩ := isSome_iff_exists.mp hsome
  have hdrained : (LTS.run Endpoint.step (endpoint false false) (calls.take 2)).map
      (fun e => decide (e.tickable = ∅ ∧ e.sendable = ∅)) = some true := by decide +kernel
  obtain ⟨e2, hrun2, hempty⟩ := map_eq_some_iff.mp hdrained
  refine ⟨e, hrun, (process_connections_terminates_iff _ _ _ _ _ _ hrun).2 ⟨trivial, fun e1 h1 => ⟨trivial,
    fun e2' h2 => ⟨?_, fun _ _ => trivial⟩⟩⟩⟩
  obtain ⟨e1', h1', hrest⟩ := LTS.run_cons.mp hrun2
  cases h1.symm.trans h1'
  obtain ⟨e2'', h2', hlast⟩ := LTS.run_cons.mp hrest
  cases h2.symm.trans h2'
  cases hlast
  have hboth := of_decide_eq_true hempty
  exact hboth

/-- A client connects and closes the endpoint by force; the call of `process_connections` that follows does not
end. -/
theorem hangs_after_forced_close :
    ∃ e, LTS.run Endpoint.step (endpoint false false)
        [.connect (.new [1]) ⟨client, client⟩ true, .close true] = some e ∧
      Pass.step { ep := e } (.tick 0 [] 0 false) = some { ep := e } ∧
      ¬ LTS.Terminates Pass.step { ep := e } := by
  let e := ((endpoint false false).connect (.new [1]) ⟨client, client⟩ true).close true
  have hrun : LTS.run Endpoint.step (endpoint false false)
      [.connect (.new [1]) ⟨client, client⟩ true, .close true] = some e := rfl
  have hloop : Pass.step { ep := e } (.tick 0 [] 0 false) = some { ep := e } := rfl
  exact ⟨e, hrun, hloop, LTS.not_terminates_of_loop hloop⟩

end MoqQuic.L4.Tquic
