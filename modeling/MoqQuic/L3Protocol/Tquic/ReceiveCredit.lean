import Mathlib.Algebra.Order.Ring.Int
import MoqQuic.L3Protocol.Tquic.StreamCalls

/-!
# Flow control of received data (`connection/stream.rs`)

The connection counts what the peer sent on all its streams (`recv_off`) and what
was consumed of it (`read_off`). Data is consumed when the application reads it,
when it shuts the stream down, when it arrives after that, and when the peer
resets the stream.

Two of these places do not fit together. After `shutdown`, data that arrives is
credited, but `read_off` of the stream stays; a RESET_STREAM that follows credits
everything from there on, and so the same data again. And a STREAM frame without
data and FIN is dropped by `RecvBuf::write`, but counted by the connection up to
its offset.

Results:
* `receive_credit_exact_iff`: over every run, the counters are exact and no byte is
  credited twice exactly if these two do not happen.
* `reset_credits_again`: a run in which the first one does.
-/
namespace MoqQuic.L3.Tquic
open LTS OrdMap Option Ledger
open Reader (Bytes)
open L2.Tquic

/-! ## Ranges one after another -/

/-- The ranges, the last one first, follow one another from 0 up to `up`. -/
def Tiles : List (Nat × Nat) → Nat → Prop
  | [], up => up = 0
  | (lo, hi) :: rest, up => hi = up ∧ lo ≤ hi ∧ Tiles rest lo

namespace Tiles

variable {l : List (Nat × Nat)} {up : Nat}

theorem sum_eq (h : Tiles l up) : (l.map fun i => i.2 - i.1).sum = up := by
  induction l generalizing up with
  | nil => exact h.symm
  | cons i l ih =>
    obtain ⟨rfl, hle, hrest⟩ := h
    rw [List.map_cons, List.sum_cons, ih hrest]
    exact Nat.sub_add_cancel hle

/-- Each number below `up` is in exactly one of them. -/
theorem countP_eq (h : Tiles l up) (x : Nat) : l.countP (fun i => i.1 ≤ x ∧ x < i.2) = if x < up then 1 else 0 := by
  induction l generalizing up with
  | nil =>
    obtain rfl : up = 0 := h
    rfl
  | cons i l ih =>
    obtain ⟨rfl, hle, hrest⟩ := h
    rw [List.countP_cons, ih hrest]
    by_cases hlo : i.1 ≤ x
    · by_cases hhi : x < i.2
      · rw [if_neg (by omega), if_pos (decide_eq_true ⟨hlo, hhi⟩), if_pos hhi]
      · rw [if_neg (by omega), if_neg (by simp [hhi]), if_neg hhi]
    · rw [if_pos (by omega), if_neg (by simp [hlo]), if_pos (by omega)]

end Tiles

/-! ## What is to hold -/

namespace Ledger

/-- How many bytes were credited. -/
def amount (l : Ledger) : Nat := (l.credited.map fun i => i.2 - i.1).sum

theorem amount_cons (l : Ledger) (largest lo n : Nat) :
    amount ⟨largest, (lo, lo + n) :: l.credited⟩ = l.amount + n := by
  rw [amount, List.map_cons, List.sum_cons, amount]
  omega

/-- How often a byte was credited. -/
def times (l : Ledger) (x : Nat) : Nat := l.credited.countP fun i => i.1 ≤ x ∧ x < i.2

end Ledger

namespace StreamMap

structure Exact (m : StreamMap) : Prop where
  read_le : m.flowControl.readOff ≤ m.flowControl.recvOff
  recv_le : m.flowControl.recvOff ≤ m.flowControl.maxData
  recv_eq : m.flowControl.recvOff = m.ledgers.total Ledger.largest
  read_eq : m.flowControl.readOff = m.ledgers.total Ledger.amount
  once : ∀ e ∈ m.ledgers, ∀ x, e.2.times x ≤ 1

/-- A frame without data and FIN is not beyond what was received on its stream, and a stream is not reset that was shut
down and has received data after that. -/
def Plain (m : StreamMap) : StreamCall → Prop
  | .streamFrame id offset data fin => data = [] → fin = false →
    match m.streams.find id with
    | some stream => offset ≤ stream.recv.recvOff
    | none => offset = 0 ∨ m.isClosed id = true
  | .resetFrame id _ _ => ∀ stream, m.streams.find id = some stream → stream.recv.shutdown = true →
      stream.recv.recvOff ≤ stream.recv.readOff
  | _ => True

/-! ## Streams and their ledgers -/

/-- How far a stream is credited. -/
def creditedUpTo (r : RecvBuf) : Nat := if r.shutdown then r.recvOff else r.readOff

structure StreamOk (r : RecvBuf) (l : Ledger) : Prop where
  largest : l.largest = r.recvOff
  tiles : Tiles l.credited (creditedUpTo r)

variable {r : RecvBuf}

theorem creditedUpTo_le (h : r.Shape) : creditedUpTo r ≤ r.recvOff := by
  rw [creditedUpTo]
  split
  · exact le_rfl
  · exact h.read_le_recv

/-! ## The invariant -/

structure Inv (m : StreamMap) : Prop where
  recv_eq : m.flowControl.recvOff = m.ledgers.total Ledger.largest
  read_eq : m.flowControl.readOff = m.ledgers.total Ledger.amount
  recv_le : m.flowControl.recvOff ≤ m.flowControl.maxData
  max_le : m.flowControl.maxData ≤ m.flowControl.readOff + m.flowControl.window
  ledger : ∀ e ∈ m.ledgers, ∃ up, up ≤ e.2.largest ∧ Tiles e.2.credited up
  live : ∀ id stream, m.streams.find id = some stream → ∀ l, m.ledgers.find id = some l → StreamOk stream.recv l

theorem inv_new (isServer hasEvents : Bool) (params : StreamTransportParams) : Inv (new isServer hasEvents params) where
  recv_eq := rfl
  read_eq := rfl
  recv_le := Nat.zero_le _
  max_le := (Nat.zero_add _).ge
  ledger := fun _ he => absurd he not_mem_empty
  live := fun _ _ hfind => nomatch hfind

variable {params : StreamTransportParams} {m m' : StreamMap} {id : Nat} {stream : Stream} {l : Ledger} {loc : Bool}

theorem Inv.exact (h : Inv m) : Exact m := { h with
  read_le := by
    rw [h.read_eq, h.recv_eq]
    refine total_le_total fun e he => ?_
    obtain ⟨up, hle, htiles⟩ := h.ledger e he
    exact htiles.sum_eq.le.trans hle
  once := fun e he x => by
    obtain ⟨up, -, htiles⟩ := h.ledger e he
    rw [Ledger.times, htiles.countP_eq]
    split
    · exact le_rfl
    · exact Nat.zero_le _ }

/-- The map after a change of one stream and its ledger; `received` and `credited` are counted for the connection. -/
structure Updated (m : StreamMap) (id : Nat) (r : RecvBuf) (g : Ledger → Ledger) (received credited : Nat)
    (m' : StreamMap) : Prop where
  streams : m'.streams = m.streams.modify id fun stream => { stream with recv := r }
  ledgers : m'.ledgers = m.ledgers.modify id g
  flowControl : m'.flowControl = { m.flowControl with
    recvOff := m.flowControl.recvOff + received
    readOff := m.flowControl.readOff + credited }

/-- The counters of the connection follow those of one stream. -/
theorem Inv.update (h : Inv m) (hl : m.ledgers.find id = some l) {g : Ledger → Ledger} {received credited : Nat}
    (hupd : Updated m id r g received credited m') (hshape : r.Shape) (hok : StreamOk r (g l))
    (hrecv : (g l).largest = l.largest + received) (hread : (g l).amount = l.amount + credited)
    (hle : m.flowControl.recvOff + received ≤ m.flowControl.maxData) : Inv m' := by
  have hmem := find_eq_some.mp hl
  refine ⟨?_, ?_, ?_, ?_, fun e he => ?_, ?_⟩
  · have htotal := total_modify Ledger.largest g hmem
    have := h.recv_eq
    rw [hupd.ledgers, hupd.flowControl]
    dsimp only
    omega
  · have htotal := total_modify Ledger.amount g hmem
    have := h.read_eq
    rw [hupd.ledgers, hupd.flowControl]
    dsimp only
    omega
  · rw [hupd.flowControl]
    exact hle
  · have := h.max_le
    rw [hupd.flowControl]
    dsimp only
    omega
  · rw [hupd.ledgers, mem_modify] at he
    rcases he with ⟨l', hl', rfl⟩ | ⟨he, -⟩
    · obtain ⟨-, rfl⟩ := Prod.ext_iff.mp (eq_of_key_eq hl' hmem rfl)
      exact ⟨_, hok.largest ▸ creditedUpTo_le hshape, hok.tiles⟩
    · exact h.ledger e he
  · rw [hupd.streams, hupd.ledgers]
    refine forall_find_modify.mpr ⟨fun stream _ l' hl' => ?_, fun k stream hk hfind l' hl' => ?_⟩
    · rw [find_modify, if_pos rfl, hl] at hl'
      cases hl'
      exact hok
    · rw [find_modify, if_neg hk] at hl'
      exact h.live k stream hfind l' hl'

/-- A change of the streams that their ledgers do not see. -/
theorem Inv.of_streams (h : Inv m) (hledgers : m'.ledgers = m.ledgers) (hflow : m'.flowControl = m.flowControl)
    (hlive : ∀ id stream, m'.streams.find id = some stream → ∀ l, m.ledgers.find id = some l → StreamOk stream.recv l) :
    Inv m' := by
  obtain ⟨recv_eq, read_eq, recv_le, max_le, ledger, -⟩ := h
  rw [← hledgers, ← hflow] at *
  exact ⟨recv_eq, read_eq, recv_le, max_le, ledger, hlive⟩

theorem Inv.modify (h : Inv m) (id : Nat) (f : Stream → Stream)
    (hf : ∀ stream l, StreamOk stream.recv l → StreamOk (f stream).recv l) :
    Inv { m with streams := m.streams.modify id f } :=
  h.of_streams rfl rfl (forall_find_modify.mpr
    ⟨fun stream hs l hl => hf stream l (h.live id stream hs l hl), fun k stream _ => h.live k stream⟩)

theorem Inv.sendCompleted (h : Inv m) (id : Nat) : Inv (m.sendCompleted id) :=
  h.modify id (fun stream => { stream with sendComplete := true }) fun _ _ hok => hok

theorem markClosed_same (m : StreamMap) (id : Nat) (loc : Bool) :
    (m.markClosed id loc).ledgers = m.ledgers ∧ (m.markClosed id loc).flowControl = m.flowControl := by
  unfold StreamMap.markClosed
  split
  · exact ⟨rfl, rfl⟩
  split <;> exact ⟨rfl, rfl⟩

theorem closeIf_ledgers (m : StreamMap) (id : Nat) (done : Stream → Bool) :
    (m.closeIf id done).ledgers = m.ledgers := by
  unfold StreamMap.closeIf
  split
  · split
    · exact (markClosed_same ..).1
    · rfl
  · rfl

theorem Inv.closeIf (h : Inv m) (id : Nat) (done : Stream → Bool) : Inv (m.closeIf id done) := by
  unfold StreamMap.closeIf
  split
  · next stream hfind =>
    split
    · obtain ⟨hledgers, hflow⟩ := markClosed_same m id stream.loc
      exact h.of_streams hledgers hflow (forall_markClosed hfind (h.live id stream hfind) fun k s _ => h.live k s)
    · exact h
  · exact h

/-- A stream is opened with an id that was not used before. -/
theorem Inv.getOrCreate (hkept : Kept params m) (h : Inv m) (hget : m.getOrCreate id loc = .ok (stream, m')) :
    Inv m' := by
  rcases getOrCreate_cases hget with ⟨-, rfl⟩ | ⟨hnone, hclosed, l, maxData, -, rfl, rfl⟩
  · exact h
  have hfresh : m.ledgers.find id = none := by
    have hkeys := hkept.fresh hnone hclosed
    rw [mem_keys, not_exists] at hkeys
    exact eq_none_iff_forall_ne_some.mpr hkeys
  refine ⟨?_, ?_, h.recv_le, h.max_le, fun e he => ?_, ?_⟩
  · rw [total_insert _ hfresh]
    exact h.recv_eq.trans (Nat.zero_add _).symm
  · rw [total_insert _ hfresh]
    exact h.read_eq.trans (Nat.zero_add _).symm
  · rcases mem_insert.mp he with rfl | ⟨he, -⟩
    · exact ⟨0, le_rfl, rfl⟩
    · exact h.ledger e he
  refine forall_find_insert.mpr ⟨fun l' hl' => ?_, fun k s hk hs l' hl' => ?_⟩
  · rw [find_insert, if_pos rfl] at hl'
    cases hl'
    exact ⟨rfl, rfl⟩
  · rw [find_insert, if_neg hk] at hl'
    exact h.live k s hs l' hl'

/-- What `get_or_create` gives. -/
structure Gotten (m : StreamMap) (id : Nat) (stream : Stream) (m' : StreamMap) : Prop where
  inv : Inv m'
  flowControl : m'.flowControl = m.flowControl
  shape : stream.recv.Shape
  ledger : ∃ l, m'.ledgers.find id = some l ∧ StreamOk stream.recv l
  was : m.streams.find id = some stream ∨
    m.streams.find id = none ∧ m.isClosed id = false ∧ ∃ maxData, stream.recv = RecvBuf.new maxData

theorem gotten (hkept : Kept params m) (h : Inv m) (hget : m.getOrCreate id loc = .ok (stream, m')) :
    Gotten m id stream m' := by
  obtain ⟨hkept', hfind', -⟩ := hkept.getOrCreate hget
  have hinv := h.getOrCreate hkept hget
  obtain ⟨l, hl⟩ := mem_keys.mp (hkept'.ledger id stream hfind')
  have hledger := hinv.live id stream hfind' l hl
  have hshape := (hkept'.stream id stream hfind').shape
  rcases getOrCreate_cases hget with ⟨hfind, rfl⟩ | ⟨hnone, hclosed, limit, maxData, -, rfl, rfl⟩
  · exact ⟨hinv, rfl, hshape, ⟨l, hl, hledger⟩, .inl hfind⟩
  · exact ⟨hinv, rfl, hshape, ⟨l, hl, hledger⟩, .inr ⟨hnone, hclosed, maxData, rfl⟩⟩

/-! ## STREAM frames -/

variable {offset : Nat} {data : Bytes} {fin : Bool} {recv : RecvBuf}

theorem noteReceived_credit (m : StreamMap) (id off lo n : Nat) : (m.noteReceived id off).credit id lo n = { m with
      flowControl := m.flowControl.increaseReadOff n
      ledgers := m.ledgers.modify id fun l => ⟨max l.largest off, (lo, lo + n) :: l.credited⟩ } := by
  unfold credit noteReceived
  rw [modify_modify]

/-- What a stored frame does to the ledger of its stream. -/
def frameLedger (r : RecvBuf) (offset : Nat) (data : Bytes) (fin : Bool) (l : Ledger) : Ledger where
  largest := if data.isEmpty ∧ fin = false then l.largest else max l.largest (offset + data.length)
  credited := if r.shutdown then (r.recvOff, r.recvOff + (offset + data.length - r.recvOff)) :: l.credited
    else l.credited

theorem frameStored_eq : m.frameStored id stream offset data fin recv = { m with
      streams := m.streams.modify id fun stream => { stream with recv }
      flowControl := { m.flowControl with
        recvOff := m.flowControl.recvOff + (offset + data.length - stream.recv.recvOff)
        readOff := m.flowControl.readOff +
          if stream.recv.shutdown then offset + data.length - stream.recv.recvOff else 0 }
      ledgers := m.ledgers.modify id (frameLedger stream.recv offset data fin) } := by
  unfold frameStored frameLedger
  by_cases hdrop : data.isEmpty ∧ fin = false
  · by_cases hshut : stream.recv.shutdown
    · simp only [if_pos hdrop, if_pos hshut]
      rfl
    simp only [if_pos hdrop, if_neg hshut]
    rw [modify_id]
    rfl
  by_cases hshut : stream.recv.shutdown
  · simp only [if_neg hdrop, if_pos hshut]
    rw [noteReceived_credit]
    rfl
  · simp only [if_neg hdrop, if_neg hshut]
    rfl

/-- The connection counts what the stream counts. -/
theorem largest_frameLedger (hl : l.largest = r.recvOff) (hplain : data = [] → fin = false → offset ≤ r.recvOff) :
    (frameLedger r offset data fin l).largest = l.largest + (offset + data.length - r.recvOff) := by
  unfold frameLedger
  dsimp only
  split
  · next hdrop =>
    obtain rfl := List.isEmpty_iff.mp hdrop.1
    have := hplain rfl hdrop.2
    rw [List.length_nil]
    omega
  · omega

theorem StreamOk.accept (h : StreamOk r l) (hacc : RecvBuf.Accepted r ⟨data, offset, fin⟩ recv)
    (hplain : data = [] → fin = false → offset ≤ r.recvOff) : StreamOk recv (frameLedger r offset data fin l) := by
  have hrecv : recv.recvOff = r.recvOff + (offset + data.length - r.recvOff) := by
    rw [hacc.recvOff, RangeBuf.isEmpty, RangeBuf.maxOff, RangeBuf.len]
    dsimp only
    split
    · next hdrop =>
      obtain rfl := List.length_eq_zero_iff.mp (beq_iff_eq.mp hdrop.2)
      have := hplain rfl hdrop.1
      rw [List.length_nil]
      omega
    · omega
  refine ⟨?_, ?_⟩
  · rw [hrecv, largest_frameLedger h.largest hplain, h.largest]
  have htiles := h.tiles
  rw [creditedUpTo] at htiles
  rw [creditedUpTo, hacc.shutdown, frameLedger, hrecv, hacc.readOff]
  dsimp only
  split
  · next hshut =>
    rw [if_pos hshut] at htiles
    exact ⟨rfl, Nat.le_add_right _ _, htiles⟩
  · next hshut =>
    rw [if_neg hshut] at htiles
    exact htiles

theorem amount_frameLedger (r : RecvBuf) (l : Ledger) : (frameLedger r offset data fin l).amount =
    l.amount + if r.shutdown then offset + data.length - r.recvOff else 0 := by
  unfold frameLedger
  cases r.shutdown with
  | true => exact amount_cons ..
  | false => rfl

theorem Inv.frameStored (hgot : Gotten m id stream m')
    (hleft : offset + data.length - stream.recv.recvOff ≤ m.maxRxDataLeft)
    (hacc : RecvBuf.Accepted stream.recv ⟨data, offset, fin⟩ recv)
    (hplain : data = [] → fin = false → offset ≤ stream.recv.recvOff) :
    Inv (m'.frameStored id stream offset data fin recv) := by
  obtain ⟨l, hl, hok⟩ := hgot.ledger
  rw [frameStored_eq]
  refine hgot.inv.update hl ⟨rfl, rfl, rfl⟩ hacc.shape (hok.accept hacc hplain)
    (largest_frameLedger hok.largest hplain) (amount_frameLedger ..) ?_
  have := hgot.inv.recv_le
  rw [maxRxDataLeft, ← hgot.flowControl] at hleft
  omega

theorem plain_frame_iff (hgot : Gotten m id stream m') :
    Plain m (.streamFrame id offset data fin) ↔ (data = [] → fin = false → offset ≤ stream.recv.recvOff) := by
  rw [Plain]
  rcases hgot.was with hfind | ⟨hnone, hclosed, maxData, hnew⟩
  · rw [hfind]
  rw [hnone, hclosed, hnew]
  refine imp_congr_right fun _ => imp_congr_right fun _ => ?_
  exact ⟨fun h => (h.resolve_right Bool.false_ne_true).le, fun h => .inl (Nat.le_zero.mp h)⟩

/-- The offset of a frame that is dropped is counted for the connection only. -/
theorem not_exact_frameStored (hgot : Gotten m id stream m') (hlt : stream.recv.recvOff < offset) :
    ¬ Exact (m'.frameStored id stream offset [] false recv) := by
  intro hex
  obtain ⟨l, hl, -⟩ := hgot.ledger
  have htotal := total_modify Ledger.largest (frameLedger stream.recv offset [] false) (find_eq_some.mp hl)
  have hsame : (frameLedger stream.recv offset [] false l).largest = l.largest := rfl
  have hrecv := hex.recv_eq
  have := hgot.inv.recv_eq
  rw [frameStored_eq] at hrecv
  dsimp only [List.length_nil] at hrecv
  omega

theorem frame_step (hkept : Kept params m) (h : Inv m)
    (hs : m.onStreamFrameReceived id offset data fin = some (.ok m')) :
    (Plain m (.streamFrame id offset data fin) → Inv m') ∧ (Exact m' → Plain m (.streamFrame id offset data fin)) := by
  rcases frame_cases hkept hs with ⟨rfl, hnone, hclosed⟩ | ⟨-, stream, m1, recv, hget, hleft, -, hacc, rfl⟩
  · refine ⟨fun _ => h, fun _ => ?_⟩
    rw [Plain, hnone]
    exact fun _ _ => .inr hclosed
  have hgot := gotten hkept h hget
  rw [plain_frame_iff hgot]
  refine ⟨.frameStored hgot hleft hacc, fun hex hnil hfin => ?_⟩
  subst hnil hfin
  by_contra hlt
  exact not_exact_frameStored hgot (Nat.lt_of_not_le hlt) hex

/-! ## RESET_STREAM frames -/

variable {errorCode finalSize : Nat}

/-- What a reset does to the ledger of its stream. -/
def resetLedger (r : RecvBuf) (finalSize : Nat) (l : Ledger) : Ledger :=
  ⟨max l.largest finalSize, (r.readOff, r.readOff + (finalSize - r.readOff)) :: l.credited⟩

theorem streamWasReset_eq {delta : Nat} : m.streamWasReset id stream finalSize delta recv = ({ m with
      streams := m.streams.modify id fun stream => { stream with recv }
      flowControl := { m.flowControl with
        recvOff := m.flowControl.recvOff + delta
        readOff := m.flowControl.readOff + (finalSize - stream.recv.readOff) }
      ledgers := m.ledgers.modify id (resetLedger stream.recv finalSize) } : StreamMap).closeIfDone id := by
  unfold streamWasReset
  dsimp only
  rw [noteReceived_credit]
  rfl

theorem StreamOk.reset (h : StreamOk r l) (hshape : r.Shape) (hdone : RecvBuf.ResetDone r finalSize recv)
    (hplain : r.shutdown = true → r.recvOff ≤ r.readOff) : StreamOk recv (resetLedger r finalSize l) := by
  have hread := hshape.read_le_recv.trans hdone.recv_le
  have hup : creditedUpTo recv = finalSize := by
    rw [creditedUpTo, hdone.recvOff, hdone.readOff, ite_self]
  have hwas : creditedUpTo r = r.readOff := by
    rw [creditedUpTo]
    split
    · next hshut => exact le_antisymm (hplain hshut) hshape.read_le_recv
    · rfl
  refine ⟨?_, ?_⟩
  · rw [resetLedger, hdone.recvOff, h.largest]
    exact max_eq_right hdone.recv_le
  rw [hup]
  exact ⟨Nat.add_sub_cancel' hread, Nat.le_add_right _ _, hwas ▸ h.tiles⟩

theorem Inv.streamWasReset (hgot : Gotten m id stream m')
    (hleft : finalSize - stream.recv.recvOff ≤ m.maxRxDataLeft) (hdone : RecvBuf.ResetDone stream.recv finalSize recv)
    (hplain : stream.recv.shutdown = true → stream.recv.recvOff ≤ stream.recv.readOff) :
    Inv (m'.streamWasReset id stream finalSize (finalSize - stream.recv.recvOff) recv) := by
  obtain ⟨l, hl, hok⟩ := hgot.ledger
  rw [streamWasReset_eq]
  refine Inv.closeIf ?_ id _
  refine hgot.inv.update hl ⟨rfl, rfl, rfl⟩ hdone.shape (hok.reset hgot.shape hdone hplain) ?_ (amount_cons ..) ?_
  · rw [resetLedger, hok.largest]
    dsimp only
    omega
  have := hgot.inv.recv_le
  rw [maxRxDataLeft, ← hgot.flowControl] at hleft
  omega

/-- What arrived after the shutdown is credited again. -/
theorem not_exact_streamWasReset (hgot : Gotten m id stream m') (hdone : RecvBuf.ResetDone stream.recv finalSize recv)
    (hshut : stream.recv.shutdown = true) (hlt : stream.recv.readOff < stream.recv.recvOff) :
    ¬ Exact (m'.streamWasReset id stream finalSize (finalSize - stream.recv.recvOff) recv) := by
  intro hex
  obtain ⟨l, hl, hok⟩ := hgot.ledger
  have hmem : (id, resetLedger stream.recv finalSize l) ∈
      (m'.streamWasReset id stream finalSize (finalSize - stream.recv.recvOff) recv).ledgers := by
    rw [streamWasReset_eq, closeIfDone, closeIf_ledgers]
    exact mem_modify.mpr (.inl ⟨l, find_eq_some.mp hl, rfl⟩)
  have htiles := hok.tiles
  rw [creditedUpTo, if_pos hshut] at htiles
  have honce := hex.once _ hmem stream.recv.readOff
  have hle := hdone.recv_le
  rw [Ledger.times, resetLedger, List.countP_cons, htiles.countP_eq, if_pos hlt,
    if_pos (decide_eq_true ⟨le_rfl, by dsimp only; omega⟩)] at honce
  omega

theorem reset_step (hkept : Kept params m) (h : Inv m)
    (hs : m.onResetStreamFrameReceived id errorCode finalSize = some (.ok m')) :
    (Plain m (.resetFrame id errorCode finalSize) → Inv m') ∧
      (Exact m' → Plain m (.resetFrame id errorCode finalSize)) := by
  rcases reset_frame_cases hkept hs with ⟨rfl, hnone⟩ | ⟨stream, m1, recv, hget, hleft, hdone, rfl⟩
  · refine ⟨fun _ => h, fun _ stream hfind => ?_⟩
    rw [hnone] at hfind
    cases hfind
  have hgot := gotten hkept h hget
  constructor
  · refine fun hplain => .streamWasReset hgot hleft hdone ?_
    rcases hgot.was with hfind | ⟨-, -, maxData, hnew⟩
    · exact hplain stream hfind
    rw [hnew]
    exact fun hshut => absurd hshut Bool.false_ne_true
  intro hex stream' hfind hshut
  rcases hgot.was with hfind' | ⟨hnone, -⟩
  · obtain rfl : stream = stream' := some.inj (hfind'.symm.trans hfind)
    by_contra hlt
    exact not_exact_streamWasReset hgot hdone hshut (Nat.lt_of_not_le hlt) hex
  · rw [hnone] at hfind
    cases hfind

/-! ## Calls of the application -/

theorem StreamOk.read {got : Bytes} (h : StreamOk r l) (hshut : r.shutdown = false)
    (htaken : RecvBuf.Taken r got recv) :
    StreamOk recv { l with credited := (r.readOff, r.readOff + got.length) :: l.credited } := by
  have htiles := h.tiles
  rw [creditedUpTo, hshut] at htiles
  refine ⟨h.largest.trans htaken.recvOff.symm, ?_⟩
  rw [creditedUpTo, htaken.shutdown, hshut, htaken.readOff]
  exact ⟨rfl, Nat.le_add_right _ _, htiles⟩

theorem Inv.credit (h : Inv m) (hl : m.ledgers.find id = some l) (hshape : recv.Shape) {lo n : Nat}
    (hok : StreamOk recv { l with credited := (lo, lo + n) :: l.credited }) :
    Inv ((m.setRecv id recv).credit id lo n) := by
  have hupd : Updated m id recv (fun l => { l with credited := (lo, lo + n) :: l.credited }) 0 n
      ((m.setRecv id recv).credit id lo n) := ⟨rfl, rfl, rfl⟩
  exact h.update hl hupd hshape hok rfl (amount_cons ..) h.recv_le

theorem Inv.streamRead (hkept : Kept params m) (h : Inv m) (id cap : Nat) : Inv (m.streamRead id cap).1 := by
  rcases streamRead_cases hkept id cap with heq | ⟨stream, recv, hfind, hshape, hcases⟩
  · rw [heq]
    exact h
  obtain ⟨l, hl⟩ := mem_keys.mp (hkept.ledger id stream hfind)
  have hok := h.live id stream hfind l hl
  rcases hcases with ⟨hsame, heq⟩ | ⟨hshut, got, htaken, heq⟩
  · rw [heq]
    have hupd : Updated m id recv (fun l => l) 0 0 (m.setRecv id recv) := ⟨rfl, (modify_id _ _).symm, rfl⟩
    refine (h.update hl hupd hshape ?_ rfl rfl h.recv_le).closeIf id _
    rw [hsame]
    exact ⟨hok.largest, hok.tiles⟩
  · rw [heq]
    exact (h.credit hl hshape (hok.read hshut htaken)).closeIf id _

theorem Inv.streamShutdownRead (hkept : Kept params m) (h : Inv m) (id : Nat) :
    Inv ((m.streamShutdownRead id).toOption.getD m) := by
  rcases streamShutdownRead_cases hkept id with ⟨heq, -⟩ | ⟨-, stream, recv, hfind, hshut, rfl, hshape, heq⟩
  · rw [heq]
    exact h
  obtain ⟨l, hl⟩ := mem_keys.mp (hkept.ledger id stream hfind)
  have hok := h.live id stream hfind l hl
  have htiles := hok.tiles
  have hle := (hkept.stream id stream hfind).shape.read_le_recv
  rw [creditedUpTo, hshut] at htiles
  rw [heq]
  refine h.credit hl hshape ⟨hok.largest, ?_⟩
  rw [creditedUpTo, if_pos rfl]
  exact ⟨Nat.add_sub_cancel' hle, Nat.le_add_right _ _, htiles⟩

theorem Inv.updateMaxRxData (h : Inv m) : Inv m.updateMaxRxData :=
  { h with recv_le := h.recv_le.trans h.max_le, max_le := le_rfl }

/-! ## Every call -/

theorem call_step {c : StreamCall} (hkept : Kept params m) (h : Inv m) (hs : m.step c = some m') :
    (Plain m c → Inv m') ∧ (Exact m' → Plain m c) := by
  cases c with
  | streamFrame id offset data fin => exact frame_step hkept h (ok_of_toOption hs)
  | resetFrame id errorCode finalSize => exact reset_step hkept h (ok_of_toOption hs)
  | read id cap =>
    cases hs
    exact ⟨fun _ => h.streamRead hkept id cap, fun _ => trivial⟩
  | shutdownRead id =>
    cases hs
    exact ⟨fun _ => h.streamShutdownRead hkept id, fun _ => trivial⟩
  | updateMaxData =>
    cases hs
    exact ⟨fun _ => h.updateMaxRxData, fun _ => trivial⟩
  | updateStreamMaxData id =>
    cases hs
    refine ⟨fun _ => ?_, fun _ => trivial⟩
    exact h.modify id (fun stream => { stream with recv := stream.recv.updateMaxData }) fun _ _ hok =>
      ⟨hok.largest, hok.tiles⟩
  | openStream id loc =>
    cases hs
    refine ⟨fun _ => ?_, fun _ => trivial⟩
    cases hget : m.getOrCreate id loc with
    | error e => exact h
    | ok got => exact h.getOrCreate hkept hget
  | sendCompleted id =>
    cases hs
    exact ⟨fun _ => h.sendCompleted id, fun _ => trivial⟩
  | frameAcked id completes =>
    cases hs
    refine ⟨fun _ => Inv.closeIf ?_ id _, fun _ => trivial⟩
    cases completes with
    | true => exact h.sendCompleted id
    | false => exact h
  | destroy id =>
    obtain ⟨-, hs⟩ := ite_none_right_eq_some.mp hs
    cases hs
    exact ⟨fun _ => h.of_streams rfl rfl (forall_find_erase.mpr fun k s _ => h.live k s), fun _ => trivial⟩
  | updateLocalMaxStreams bidi | updatePeerMaxStreams bidi maxStreams =>
    cases hs
    exact ⟨fun _ => { h with }, fun _ => trivial⟩

/-- Over every run without a connection error: `read_off ≤ recv_off ≤ max_data`, `recv_off` is the sum of what was
received on each stream, and no byte is credited twice, after every call, exactly if every call is plain. -/
theorem receive_credit_exact_iff (isServer hasEvents : Bool) (params : StreamTransportParams) (calls : List StreamCall)
    (m : StreamMap) (hr : run step (new isServer hasEvents params) calls = some m) :
    Ensures step (fun _ m => Exact m) (new isServer hasEvents params) calls ↔
      Along step Plain (new isServer hasEvents params) calls := by
  refine ensures_iff_along (fun m c m' (h : Kept params m ∧ Inv m) hs => ?_)
    (fun m c m' h hplain hs => ⟨h.1.step hs, (call_step h.1 h.2 hs).1 hplain⟩)
    ⟨kept_new isServer hasEvents, inv_new isServer hasEvents params⟩ hr
  exact ⟨(call_step h.1 h.2 hs).2, fun hplain => ((call_step h.1 h.2 hs).1 hplain).exact⟩

/-- Two bytes, of which one is read; the stream is shut down and then reset. -/
theorem receive_credit_exact_one : ((run step (new true true ⟨100, 50, 50, 50, 10, 10⟩)
      [.streamFrame 0 0 [1, 2] false, .read 0 1, .shutdownRead 0, .resetFrame 0 7 5]).any fun m =>
        m.flowControl.readOff = 5) = true ∧
    Ensures step (fun _ m => Exact m) (new true true ⟨100, 50, 50, 50, 10, 10⟩)
      [.streamFrame 0 0 [1, 2] false, .read 0 1, .shutdownRead 0, .resetFrame 0 7 5] := by
  refine (show _ → _ from fun hrun => ⟨hrun, ?_⟩) (by decide +kernel)
  obtain ⟨m, hm, -⟩ := (any_eq_true _ _).mp hrun
  refine (receive_credit_exact_iff true true _ _ m hm).mpr ?_
  refine .cons (fun hnil => nomatch hnil) rfl (.cons trivial rfl (.cons trivial rfl ⟨?_, fun _ _ => trivial⟩))
  intro stream hfind _
  cases hfind
  decide +kernel

/-- Five bytes arrive before the shutdown and five after it. The reset credits the latter again, and more was consumed
then than received. -/
theorem reset_credits_again : ∃ m, run step (new true true ⟨100, 50, 50, 50, 10, 10⟩)
      [.streamFrame 0 0 [1, 2, 3, 4, 5] false, .shutdownRead 0, .streamFrame 0 5 [6, 7, 8, 9, 10] false,
        .resetFrame 0 7 10] = some m ∧ m.flowControl.recvOff = 10 ∧ m.flowControl.readOff = 15 ∧ ¬ m.Exact := by
  refine ⟨_, rfl, ?_, ?_, ?_⟩
  · decide +kernel
  · decide +kernel
  intro hex
  exact absurd hex.read_le (by decide +kernel)

end StreamMap

end MoqQuic.L3.Tquic
