import MoqQuic.Core.LTS
import MoqQuic.L3Protocol.Tquic.StreamMap

/-!
# Calls on the streams of a connection (`connection/stream.rs`)

What the calls of a `StreamMap` do, and what every run of them keeps: an id is used
for one stream, and for each of its streams that is closed the peer may open
another one.

Results:
* `frame_cases`, `reset_frame_cases`, `streamRead_cases`, `streamShutdownRead_cases`:
  what a frame, a read and a shutdown change.
* `Kept.step`, `kept_run`: the invariant of every run.
-/
namespace MoqQuic.L3.Tquic
open LTS OrdMap Option
open Reader (Bytes)
open L2.Tquic

inductive StreamCall where
  | streamFrame (id offset : Nat) (data : Bytes) (fin : Bool)
  | resetFrame (id errorCode finalSize : Nat)
  | read (id cap : Nat)
  | shutdownRead (id : Nat)
  | updateMaxData
  | updateStreamMaxData (id : Nat)
  | openStream (id : Nat) (loc : Bool)
  | sendCompleted (id : Nat)
  | frameAcked (id : Nat) (completes : Bool)
  | destroy (id : Nat)
  | updateLocalMaxStreams (bidi : Bool)
  | updatePeerMaxStreams (bidi : Bool) (maxStreams : Nat)

/-- `none`: a connection error, or a stream is destroyed that is not closed. -/
def StreamMap.step (m : StreamMap) : StreamCall → Option StreamMap
  | .streamFrame id offset data fin => (m.onStreamFrameReceived id offset data fin).bind Except.toOption
  | .resetFrame id errorCode finalSize => (m.onResetStreamFrameReceived id errorCode finalSize).bind Except.toOption
  | .read id cap => some (m.streamRead id cap).1
  | .shutdownRead id => some ((m.streamShutdownRead id).toOption.getD m)
  | .updateMaxData => some m.updateMaxRxData
  | .updateStreamMaxData id => some (m.updateStreamMaxData id)
  | .openStream id loc => some (((m.getOrCreate id loc).toOption.map Prod.snd).getD m)
  | .sendCompleted id => some (m.sendCompleted id)
  | .frameAcked id completes => some (m.onFrameAcked id completes)
  | .destroy id => if (m.streams.find id).any Stream.closed then some (m.streamDestroy id) else none
  | .updateLocalMaxStreams bidi => some { m with concurrency := m.concurrency.updateLocalMaxStreams bidi }
  | .updatePeerMaxStreams bidi maxStreams =>
    some { m with concurrency := m.concurrency.updatePeerMaxStreams bidi maxStreams }

/-! ## Streams of the peer -/

/-- One for a stream of the peer that is not closed. -/
def Stream.openPeer (s : Stream) (bidi : Bool) : Nat := (!s.closed && (!s.loc && s.bidi == bidi)).toNat

def StreamTransportParams.initialMaxStreams (params : StreamTransportParams) : (bidi : Bool) → Nat
  | true => params.initialMaxStreamsBidi
  | false => params.initialMaxStreamsUni

namespace StreamMap

def isPeer (isServer bidi : Bool) (id : Nat) : Bool := !isLocal id isServer && isBidi id == bidi

/-- How many streams the peer has opened. -/
def openedPeers (m : StreamMap) (bidi : Bool) : Nat := m.ledgers.keys.countP (isPeer m.isServer bidi)

/-- How many of them are open. -/
def openPeers (m : StreamMap) (bidi : Bool) : Nat := m.streams.total fun stream => stream.openPeer bidi

/-! ## Ids are used once -/

/-- Only ids beyond the old limit become available. -/
structure Grows (l l' : StreamLimit) : Prop where
  max_le : l.maxStreams ≤ l'.maxStreams
  avail : ∀ n ∈ l'.availIds, n ∈ l.availIds ∨ l.maxStreams ≤ n

theorem Grows.refl (l : StreamLimit) : Grows l l := ⟨le_rfl, fun _ hn => .inl hn⟩

theorem grows_raise {l : StreamLimit} {maxStreams : Nat} (h : l.maxStreams ≤ maxStreams) :
    Grows l (l.raise maxStreams) where
  max_le := h
  avail := fun _ hn => (RangeSet.mem_insert.mp hn).imp_right And.left

theorem get_set (c : ConcurrencyControl) (l : StreamLimit) (loc bidi loc' bidi' : Bool) :
    (c.set l loc bidi).get loc' bidi' = if loc' = loc ∧ bidi' = bidi then l else c.get loc' bidi' := by
  cases loc <;> cases bidi <;> cases loc' <;> cases bidi' <;> rfl

variable {loc : Bool} {c : ConcurrencyControl}

theorem grows_set {l : StreamLimit} {bidi : Bool} (h : Grows (c.get loc bidi) l)
    (loc' bidi' : Bool) : Grows (c.get loc' bidi') ((c.set l loc bidi).get loc' bidi') := by
  rw [get_set]
  split
  · next heq =>
    obtain ⟨rfl, rfl⟩ := heq
    exact h
  · exact .refl _

theorem grows_credits (c : ConcurrencyControl) (bidi : Bool) (delta : Nat) (loc' bidi' : Bool) :
    Grows (c.get loc' bidi') ((c.increaseMaxStreamsCredits bidi delta).get loc' bidi') := by
  refine grows_set (c := c) ?_ loc' bidi'
  exact ⟨le_rfl, fun _ hn => .inl hn⟩

theorem get_credits (c : ConcurrencyControl) (bidi bidi' : Bool) :
    (c.increaseMaxStreamsCredits bidi 1).get false bidi' = { c.get false bidi' with
      maxStreamsNext := (c.get false bidi').maxStreamsNext + (bidi == bidi').toNat } := by
  rw [ConcurrencyControl.increaseMaxStreamsCredits, get_set]
  cases bidi <;> cases bidi' <;> rfl

/-- The id is within the limit, and no longer available. -/
structure Used (isServer : Bool) (c : ConcurrencyControl) (id : Nat) : Prop where
  lt_max : id / 4 < (c.get (isLocal id isServer) (isBidi id)).maxStreams
  not_avail : id / 4 ∉ (c.get (isLocal id isServer) (isBidi id)).availIds

theorem Used.grows {isServer : Bool} {c' : ConcurrencyControl} {id : Nat} (h : Used isServer c id)
    (hgrow : ∀ loc bidi, Grows (c.get loc bidi) (c'.get loc bidi)) : Used isServer c' id := by
  obtain ⟨hmax, havail⟩ := hgrow (isLocal id isServer) (isBidi id)
  refine ⟨h.lt_max.trans_le hmax, fun hin => ?_⟩
  rcases havail _ hin with hin | hle
  · exact h.not_avail hin
  · exact absurd h.lt_max (Nat.not_lt.mpr hle)

variable {m m' : StreamMap} {id : Nat} {stream : Stream}

/-! ## The invariant -/

structure StreamKept (isServer : Bool) (id : Nat) (stream : Stream) : Prop where
  shape : stream.recv.Shape
  reset_fin : stream.recv.error.isSome = true → stream.recv.finOff = some stream.recv.readOff
  bidi_eq : stream.bidi = isBidi id
  loc_eq : stream.loc = isLocal id isServer

/-- Streams are those that were opened, ids are not opened again, and credits are given back for closed streams. -/
structure Kept (params : StreamTransportParams) (m : StreamMap) : Prop where
  stream : ∀ id stream, m.streams.find id = some stream → StreamKept m.isServer id stream
  ledger : ∀ id stream, m.streams.find id = some stream → id ∈ m.ledgers.keys
  used : ∀ id ∈ m.ledgers.keys, Used m.isServer m.concurrency id
  next : ∀ bidi, (m.concurrency.get false bidi).maxStreams ≤ (m.concurrency.get false bidi).maxStreamsNext
  credited : ∀ bidi, (m.concurrency.get false bidi).maxStreamsNext + m.openPeers bidi =
    params.initialMaxStreams bidi + m.openedPeers bidi

theorem streamKept_new (isServer : Bool) (id maxData : Nat) :
    StreamKept isServer id (.new (isBidi id) (isLocal id isServer) maxData) where
  shape := .new maxData
  reset_fin := fun herr => absurd herr Bool.false_ne_true
  bidi_eq := rfl
  loc_eq := rfl

variable {params : StreamTransportParams}

theorem kept_new (isServer hasEvents : Bool) : Kept params (new isServer hasEvents params) where
  stream := fun _ _ hfind => nomatch hfind
  ledger := fun _ _ hfind => nomatch hfind
  used := fun _ hid => nomatch hid
  next := fun bidi => by cases bidi <;> exact le_rfl
  credited := fun bidi => by cases bidi <;> rfl

theorem StreamKept.openPeer_eq {isServer : Bool} (h : StreamKept isServer id stream) (bidi : Bool) :
    stream.openPeer bidi = (!stream.closed && isPeer isServer bidi id).toNat := by
  rw [Stream.openPeer, h.bidi_eq, h.loc_eq, isPeer]

/-- One stream changes; beyond that, ledgers and flow control may change. -/
structure Changed (m : StreamMap) (id : Nat) (f : Stream → Stream) (m' : StreamMap) : Prop where
  isServer : m'.isServer = m.isServer
  concurrency : m'.concurrency = m.concurrency
  streams : m'.streams = m.streams.modify id f
  keys : m'.ledgers.keys = m.ledgers.keys

theorem check_ok {l l' : StreamLimit} (h : l.check id = .ok l') :
    id / 4 < l.maxStreams ∧ l'.maxStreams = l.maxStreams ∧ l'.maxStreamsNext = l.maxStreamsNext ∧
      l'.availIds = l.availIds := by
  unfold StreamLimit.check at h
  split at h
  · cases h
  · next hle =>
    cases h
    exact ⟨by omega, rfl, rfl, rfl⟩

theorem get_setClosed (m : StreamMap) (id : Nat) (loc bidi : Bool) :
    (m.setClosed id loc).concurrency.get false bidi = { m.concurrency.get false bidi with
      maxStreamsNext := (m.concurrency.get false bidi).maxStreamsNext + (!loc && isBidi id == bidi).toNat } := by
  cases loc with
  | true => rfl
  | false => exact get_credits ..

section Moves

variable (h : Kept params m)
include h

/-- A limit is replaced by one that grows. -/
theorem Kept.set {bidi : Bool} {l : StreamLimit} (hgrow : Grows (m.concurrency.get loc bidi) l)
    (hnext : loc = false → l.maxStreams ≤ l.maxStreamsNext)
    (hsame : loc = false → l.maxStreamsNext = (m.concurrency.get false bidi).maxStreamsNext) :
    Kept params { m with concurrency := m.concurrency.set l loc bidi } := by
  refine { h with
    used := fun id hid => (h.used id hid).grows (grows_set hgrow)
    next := fun bidi' => ?_
    credited := fun bidi' => ?_ }
  · rw [get_set]
    split
    · next heq => exact hnext heq.1.symm
    · exact h.next bidi'
  · have hcredit := h.credited bidi'
    rw [get_set]
    split
    · next heq =>
      rw [hsame heq.1.symm, ← heq.2]
      exact hcredit
    · exact hcredit

theorem Kept.updateLocalMaxStreams (bidi : Bool) :
    Kept params { m with concurrency := m.concurrency.updateLocalMaxStreams bidi } :=
  h.set (grows_raise (h.next bidi)) (fun _ => le_rfl) fun _ => rfl

theorem Kept.updatePeerMaxStreams (bidi : Bool) (maxStreams : Nat) :
    Kept params { m with concurrency := m.concurrency.updatePeerMaxStreams bidi maxStreams } := by
  have hloc : true ≠ false := Bool.noConfusion
  unfold ConcurrencyControl.updatePeerMaxStreams
  split
  · next hlt => exact h.set (grows_raise hlt.le) (fun h => absurd h hloc) fun h => absurd h hloc
  · exact h

theorem Kept.changed {f : Stream → Stream} (hc : Changed m id f m')
    (hf : ∀ stream, m.streams.find id = some stream →
      StreamKept m.isServer id (f stream) ∧ (f stream).closed = stream.closed) : Kept params m' := by
  have hopen : ∀ bidi, m'.openPeers bidi = m.openPeers bidi := by
    intro bidi
    rw [openPeers, hc.streams]
    refine total_modify_eq fun stream hs => ?_
    rw [(hf stream hs).1.openPeer_eq, (h.stream id stream hs).openPeer_eq, (hf stream hs).2]
  have hopened : ∀ bidi, m'.openedPeers bidi = m.openedPeers bidi := fun bidi => by
    rw [openedPeers, hc.keys, hc.isServer, openedPeers]
  constructor
  · rw [hc.streams, hc.isServer]
    exact forall_find_modify.mpr ⟨fun stream hs => (hf stream hs).1, fun k stream _ => h.stream k stream⟩
  · rw [hc.streams, hc.keys]
    exact forall_find_modify.mpr ⟨h.ledger id, fun k stream _ => h.ledger k stream⟩
  · rw [hc.keys, hc.isServer, hc.concurrency]
    exact h.used
  · rw [hc.concurrency]
    exact h.next
  · simp only [hopen, hopened, hc.concurrency]
    exact h.credited

theorem Kept.streamDestroy (hfind : m.streams.find id = some stream) (hclosed : stream.closed = true) :
    Kept params (m.streamDestroy id) := by
  have hopen : ∀ bidi, m.openPeers bidi = (m.streamDestroy id).openPeers bidi := by
    intro bidi
    rw [openPeers, total_erase _ (find_eq_some.mp hfind), Stream.openPeer, hclosed]
    exact Nat.zero_add _
  refine { h with
    stream := forall_find_erase.mpr fun k stream _ => h.stream k stream
    ledger := forall_find_erase.mpr fun k stream _ => h.ledger k stream
    credited := fun bidi => ?_ }
  rw [← hopen]
  exact h.credited bidi

/-- A new id comes into use. -/
theorem Kept.insert (hnone : m.streams.find id = none) (hfresh : id ∉ m.ledgers.keys)
    (hused : Used m.isServer m.concurrency id) (hkept : StreamKept m.isServer id stream)
    (hopen : stream.closed = false) (l : Ledger) :
    Kept params { m with streams := m.streams.insert id stream, ledgers := m.ledgers.insert id l } := by
  have hkeys : (m.ledgers.insert id l).keys.Perm (id :: m.ledgers.keys) := perm_keys_insert hfresh
  have hmem : ∀ k, k ∈ (m.ledgers.insert id l).keys ↔ k = id ∨ k ∈ m.ledgers.keys := fun k => by simp [hkeys.mem_iff]
  refine ⟨?_, ?_, fun k hk => ?_, h.next, fun bidi => ?_⟩
  · exact forall_find_insert.mpr ⟨hkept, fun k stream _ => h.stream k stream⟩
  · exact forall_find_insert.mpr ⟨(hmem id).mpr (.inl rfl), fun k stream _ hs =>
      (hmem k).mpr (.inr (h.ledger k stream hs))⟩
  · rcases (hmem k).mp hk with rfl | hk
    · exact hused
    · exact h.used k hk
  · have hcredit := h.credited bidi
    have hone := hkept.openPeer_eq bidi
    rw [openPeers, openedPeers] at hcredit
    rw [openPeers, openedPeers, total_insert _ hnone, hkeys.countP_eq, List.countP_cons, hone, hopen]
    dsimp only
    cases isPeer m.isServer bidi id
    · simpa using hcredit
    · simp
      omega

theorem Kept.setClosed (hfind : m.streams.find id = some stream) (hopen : stream.closed = false) :
    Kept params (m.setClosed id stream.loc) := by
  have hstream := h.stream id stream hfind
  have hgrow : ∀ loc bidi,
      Grows (m.concurrency.get loc bidi) ((m.setClosed id stream.loc).concurrency.get loc bidi) := by
    intro loc bidi
    unfold StreamMap.setClosed
    dsimp only
    split
    · exact .refl _
    · exact grows_credits ..
  refine ⟨?_, ?_, fun k hk => (h.used k hk).grows hgrow, fun bidi => ?_, fun bidi => ?_⟩
  · exact forall_find_modify.mpr ⟨fun s hs => { h.stream id s hs with }, fun k s _ => h.stream k s⟩
  · exact forall_find_modify.mpr ⟨h.ledger id, fun k s _ => h.ledger k s⟩
  · rw [get_setClosed]
    exact (h.next bidi).trans (Nat.le_add_right _ _)
  · have htotal : (m.setClosed id stream.loc).openPeers bidi + stream.openPeer bidi = m.openPeers bidi + 0 :=
      total_modify _ (fun stream => { stream with closed := true }) (find_eq_some.mp hfind)
    have hcredit := h.credited bidi
    rw [Stream.openPeer, hopen, Bool.not_false, Bool.true_and, hstream.bidi_eq] at htotal
    rw [get_setClosed]
    change _ = _ + m.openedPeers bidi
    dsimp only
    omega

theorem Kept.markClosed (hfind : m.streams.find id = some stream) : Kept params (m.markClosed id stream.loc) := by
  unfold StreamMap.markClosed
  split
  · exact h
  next hopen =>
  rw [isClosed, hfind] at hopen
  have hset := h.setClosed hfind ((Bool.not_eq_true _).mp hopen)
  split
  · exact hset
  · have hmarked : (m.setClosed id stream.loc).streams.find id = some { stream with closed := true } := by
      simp [StreamMap.setClosed, find_modify, hfind]
    exact hset.streamDestroy hmarked rfl

theorem Kept.closeIf (id : Nat) (done : Stream → Bool) : Kept params (m.closeIf id done) := by
  unfold StreamMap.closeIf
  split
  · next hfind =>
    split
    · exact h.markClosed hfind
    · exact h
  · exact h

/-- An id for which a stream can be opened was not used before. -/
theorem Kept.fresh (hnone : m.streams.find id = none) (hclosed : m.isClosed id = false) : id ∉ m.ledgers.keys := by
  intro hid
  have hused := h.used id hid
  rw [isClosed, hnone, Bool.not_eq_false', Bool.or_eq_true] at hclosed
  rcases hclosed with havail | hlimited
  · exact hused.not_avail (RangeSet.contains_iff.mp havail)
  · exact Nat.not_lt.mpr hused.lt_max (of_decide_eq_true hlimited)

theorem Kept.opened (hnone : m.streams.find id = none) (hclosed : m.isClosed id = false) {l : StreamLimit}
    (hcheck : (m.limit id).check id = .ok l) (maxData : Nat) : Kept params { m with
      concurrency := m.concurrency.set (l.removeAvailId id) (isLocal id m.isServer) (isBidi id)
      streams := m.streams.insert id (.new (isBidi id) (isLocal id m.isServer) maxData)
      ledgers := m.ledgers.insert id ⟨0, []⟩ } := by
  obtain ⟨hlt, hmax, hnext, havail⟩ := check_ok hcheck
  have hgrow : Grows (m.limit id) (l.removeAvailId id) := by
    refine ⟨hmax.ge, fun n hn => .inl ?_⟩
    have := (RangeSet.mem_removeElem.mp hn).1
    rwa [havail] at this
  have hset : Kept params { m with
      concurrency := m.concurrency.set (l.removeAvailId id) (isLocal id m.isServer) (isBidi id) } := by
    refine h.set hgrow (fun hloc => ?_) fun hloc => ?_
    · have := h.next (isBidi id)
      rw [StreamMap.limit, hloc] at hmax hnext
      exact (hmax.trans_le this).trans_eq hnext.symm
    · rw [StreamMap.limit, hloc] at hnext
      exact hnext
  refine hset.insert hnone (h.fresh hnone hclosed) ⟨?_, ?_⟩ (streamKept_new m.isServer id maxData) rfl _
  · rw [get_set, if_pos ⟨rfl, rfl⟩]
    exact hlt.trans_eq hmax.symm
  · rw [get_set, if_pos ⟨rfl, rfl⟩]
    exact fun hin => (RangeSet.mem_removeElem.mp hin).2 rfl

end Moves

/-! ## What a call does -/

theorem forall_markClosed {p : Nat → Stream → Prop} (hfind : m.streams.find id = some stream)
    (hid : p id { stream with closed := true }) (hrest : ∀ k s, k ≠ id → m.streams.find k = some s → p k s) :
    ∀ k s, (m.markClosed id loc).streams.find k = some s → p k s := by
  unfold markClosed
  split
  · next hclosed =>
    rw [isClosed, hfind] at hclosed
    have hsame : stream = { stream with closed := true } := by rw [← hclosed]
    intro k s hs
    by_cases hk : k = id
    · rw [hk, hfind] at hs
      rw [hk, ← some.inj hs, hsame]
      exact hid
    · exact hrest k s hk hs
  have hset : ∀ k s, (m.setClosed id loc).streams.find k = some s → p k s := by
    refine forall_find_modify.mpr ⟨fun s hs => ?_, hrest⟩
    rw [← some.inj (hfind.symm.trans hs)]
    exact hid
  split
  · exact hset
  · exact forall_find_erase.mpr fun k s _ => hset k s

theorem getOrCreate_cases (hget : m.getOrCreate id loc = .ok (stream, m')) :
    m.streams.find id = some stream ∧ m' = m ∨
      m.streams.find id = none ∧ m.isClosed id = false ∧ ∃ l maxData, (m.limit id).check id = .ok l ∧
        stream = .new (isBidi id) (isLocal id m.isServer) maxData ∧ m' = { m with
          concurrency := m.concurrency.set (l.removeAvailId id) (isLocal id m.isServer) (isBidi id)
          streams := m.streams.insert id stream
          ledgers := m.ledgers.insert id ⟨0, []⟩ } := by
  unfold getOrCreate at hget
  grind

/-- Only frames for closed streams are ignored. -/
theorem getOrCreate_done (hget : m.getOrCreate id loc = .error .done) :
    m.streams.find id = none ∧ m.isClosed id = true := by
  unfold getOrCreate at hget
  grind [StreamLimit.check]

theorem Kept.getOrCreate (h : Kept params m) (hget : m.getOrCreate id loc = .ok (stream, m')) :
    Kept params m' ∧ m'.streams.find id = some stream ∧ m'.isServer = m.isServer := by
  rcases getOrCreate_cases hget with ⟨hfind, rfl⟩ | ⟨hnone, hclosed, l, maxData, hcheck, rfl, rfl⟩
  · exact ⟨h, hfind, rfl⟩
  · exact ⟨h.opened hnone hclosed hcheck maxData, by rw [find_insert, if_pos rfl], rfl⟩

/-- Not a unidirectional stream of this side. -/
def Receives (isServer : Bool) (id : Nat) : Prop := ¬ (isBidi id = false ∧ isLocal id isServer = true)

variable {offset cap : Nat} {data : Bytes} {fin : Bool} {recv : RecvBuf}

theorem frame_cases (h : Kept params m) (hs : m.onStreamFrameReceived id offset data fin = some (.ok m')) :
    m' = m ∧ m.streams.find id = none ∧ m.isClosed id = true ∨
      Receives m.isServer id ∧ ∃ stream m1 recv, m.getOrCreate id false = .ok (stream, m1) ∧
        offset + data.length - stream.recv.recvOff ≤ m.maxRxDataLeft ∧
        stream.recv.checkFrame ⟨data, offset, fin⟩ = .ok () ∧
        RecvBuf.Accepted stream.recv ⟨data, offset, fin⟩ recv ∧ m' = m1.frameStored id stream offset data fin recv := by
  unfold onStreamFrameReceived at hs
  split at hs
  · cases hs
  next hrecv =>
  split at hs
  · next hdone =>
    cases hs
    exact .inl ⟨rfl, getOrCreate_done hdone⟩
  · cases hs
  next stream m1 hget =>
  split at hs
  · cases hs
  next hleft =>
  obtain ⟨hkept, hfind, -⟩ := h.getOrCreate hget
  rcases RecvBuf.write_cases (hkept.stream id stream hfind).shape offset data fin with
    ⟨e, hwrite, -⟩ | ⟨recv, hwrite, hcheck, hacc⟩
  · rw [hwrite] at hs
    cases hs
  rw [hwrite] at hs
  cases hs
  exact .inr ⟨fun hsend => hrecv ⟨hsend.2, .inl hsend.1⟩, stream, m1, recv, hget, Nat.le_of_not_lt hleft, hcheck,
    hacc, rfl⟩

theorem reset_frame_cases {errorCode finalSize : Nat} (h : Kept params m)
    (hs : m.onResetStreamFrameReceived id errorCode finalSize = some (.ok m')) :
    m' = m ∧ m.streams.find id = none ∨
      ∃ stream m1 recv, m.getOrCreate id false = .ok (stream, m1) ∧
        finalSize - stream.recv.recvOff ≤ m.maxRxDataLeft ∧ RecvBuf.ResetDone stream.recv finalSize recv ∧
        m' = m1.streamWasReset id stream finalSize (finalSize - stream.recv.recvOff) recv := by
  unfold onResetStreamFrameReceived at hs
  split at hs
  · cases hs
  split at hs
  · next hdone =>
    cases hs
    exact .inl ⟨rfl, (getOrCreate_done hdone).1⟩
  · cases hs
  next stream m1 hget =>
  obtain ⟨hkept, hfind, -⟩ := h.getOrCreate hget
  have hstream := hkept.stream id stream hfind
  rcases RecvBuf.reset_cases hstream.shape hstream.reset_fin errorCode finalSize with
    ⟨e, hreset⟩ | ⟨recv, hreset, hdone⟩
  · rw [hreset] at hs
    cases hs
  rw [hreset, map_some] at hs
  dsimp only at hs
  split at hs
  · cases hs
  next hleft =>
  cases hs
  exact .inr ⟨stream, m1, recv, hget, Nat.le_of_not_lt hleft, hdone, rfl⟩

theorem streamRead_cases (h : Kept params m) (id cap : Nat) : (m.streamRead id cap).1 = m ∨
    ∃ stream recv, m.streams.find id = some stream ∧ recv.Shape ∧
      (recv = { stream.recv with data := recv.data } ∧
          (m.streamRead id cap).1 = (m.setRecv id recv).closeIfComplete id ∨
        stream.recv.shutdown = false ∧ ∃ got, RecvBuf.Taken stream.recv got recv ∧ (m.streamRead id cap).1 =
          ((m.setRecv id recv).credit id stream.recv.readOff got.length).closeIfComplete id) := by
  unfold StreamMap.streamRead
  split
  · exact .inl rfl
  split
  · exact .inl rfl
  next stream hfind =>
  split
  · exact .inl rfl
  refine .inr ⟨stream, ?_⟩
  rcases RecvBuf.read_cases (h.stream id stream hfind).shape cap with ⟨e, recv, hread, hshape, hsame⟩ |
    ⟨hshut, got, recv, hread, hshape, htaken⟩
  · rw [hread]
    exact ⟨recv, hfind, hshape, .inl ⟨hsame, rfl⟩⟩
  · rw [hread]
    exact ⟨recv, hfind, hshape, .inr ⟨hshut, got, htaken, rfl⟩⟩

theorem streamShutdownRead_cases (h : Kept params m) (id : Nat) : ((m.streamShutdownRead id).toOption.getD m = m ∧
      ∀ stream, m.streams.find id = some stream → stream.recv.shutdown = true ∨ ¬ Receives m.isServer id) ∨
    Receives m.isServer id ∧ ∃ stream recv, m.streams.find id = some stream ∧ stream.recv.shutdown = false ∧
      recv = { stream.recv with shutdown := true, data := OrdMap.empty, readOff := stream.recv.recvOff } ∧ recv.Shape ∧
      (m.streamShutdownRead id).toOption.getD m = (m.setRecv id recv).credit id stream.recv.readOff
        (stream.recv.recvOff - stream.recv.readOff) := by
  unfold StreamMap.streamShutdownRead
  split
  · next hnone => exact .inl ⟨rfl, fun stream hfind => by rw [hnone] at hfind; cases hfind⟩
  next stream hfind =>
  split
  · next hsend => exact .inl ⟨rfl, fun _ _ => .inr (absurd hsend.symm)⟩
  next hrecv =>
  rw [RecvBuf.shutdownRead]
  cases hshut : stream.recv.shutdown with
  | true =>
    refine .inl ⟨rfl, fun stream' hfind' => .inl ?_⟩
    obtain rfl := some.inj (hfind.symm.trans hfind')
    exact hshut
  | false =>
    refine .inr ⟨hrecv ∘ And.symm, stream, _, hfind, hshut, rfl, ?_, rfl⟩
    exact (h.stream id stream hfind).shape.discard le_rfl

/-! ## Every call keeps the invariant -/

theorem Kept.changed_recv (h : Kept params m) (hc : Changed m id (fun stream => { stream with recv }) m')
    (hshape : recv.Shape) (hreset : recv.error.isSome = true → recv.finOff = some recv.readOff) : Kept params m' := by
  refine h.changed hc fun stream hfind => ⟨?_, rfl⟩
  have hkept := h.stream id stream hfind
  exact ⟨hshape, hreset, hkept.bidi_eq, hkept.loc_eq⟩

theorem changed_setRecv (m : StreamMap) (id : Nat) (recv : RecvBuf) :
    Changed m id (fun stream => { stream with recv }) (m.setRecv id recv) := ⟨rfl, rfl, rfl, rfl⟩

theorem changed_credit (m : StreamMap) (id : Nat) (recv : RecvBuf) (lo n : Nat) :
    Changed m id (fun stream => { stream with recv }) ((m.setRecv id recv).credit id lo n) :=
  ⟨rfl, rfl, rfl, keys_modify ..⟩

theorem changed_reset (m : StreamMap) (id : Nat) (recv : RecvBuf) (delta off lo n : Nat) :
    Changed m id (fun stream => { stream with recv })
      ((((m.setRecv id recv).increaseRecvOff delta).noteReceived id off).credit id lo n) :=
  ⟨rfl, rfl, rfl, (keys_modify ..).trans (keys_modify ..)⟩

theorem changed_sendCompleted (m : StreamMap) (id : Nat) :
    Changed m id (fun stream => { stream with sendComplete := true }) (m.sendCompleted id) := ⟨rfl, rfl, rfl, rfl⟩

theorem changed_updateStreamMaxData (m : StreamMap) (id : Nat) :
    Changed m id (fun stream => { stream with recv := stream.recv.updateMaxData }) (m.updateStreamMaxData id) :=
  ⟨rfl, rfl, rfl, rfl⟩

theorem changed_frameStored (m : StreamMap) (id : Nat) (stream : Stream) (offset : Nat) (data : Bytes) (fin : Bool)
    (recv : RecvBuf) :
    Changed m id (fun stream => { stream with recv }) (m.frameStored id stream offset data fin recv) := by
  unfold frameStored
  dsimp only
  split <;> split
  · exact ⟨rfl, rfl, rfl, keys_modify ..⟩
  · exact ⟨rfl, rfl, rfl, (keys_modify ..).trans (keys_modify ..)⟩
  · exact ⟨rfl, rfl, rfl, rfl⟩
  · exact ⟨rfl, rfl, rfl, keys_modify ..⟩

theorem StreamKept.accept_reset (h : StreamKept m.isServer id stream)
    (hcheck : stream.recv.checkFrame ⟨data, offset, fin⟩ = .ok ())
    (hacc : RecvBuf.Accepted stream.recv ⟨data, offset, fin⟩ recv) (herr : recv.error.isSome = true) :
    recv.finOff = some recv.readOff := by
  have hfin := h.reset_fin (hacc.error ▸ herr)
  rw [hacc.finOff, hacc.readOff]
  split
  · next hf => rw [← ((RecvBuf.checkFrame_ok hcheck).2.1 _ hfin).2 hf]
  · exact hfin

theorem Kept.frame (h : Kept params m) (hs : m.onStreamFrameReceived id offset data fin = some (.ok m')) :
    Kept params m' := by
  rcases frame_cases h hs with ⟨rfl, -⟩ | ⟨-, stream, m1, recv, hget, -, hcheck, hacc, rfl⟩
  · exact h
  obtain ⟨hkept, hfind, -⟩ := h.getOrCreate hget
  refine hkept.changed_recv (changed_frameStored ..) hacc.shape ?_
  exact (hkept.stream id stream hfind).accept_reset hcheck hacc

theorem Kept.reset {errorCode finalSize : Nat} (h : Kept params m)
    (hs : m.onResetStreamFrameReceived id errorCode finalSize = some (.ok m')) : Kept params m' := by
  rcases reset_frame_cases h hs with ⟨rfl, -⟩ | ⟨stream, m1, recv, hget, -, hdone, rfl⟩
  · exact h
  obtain ⟨hkept, -, -⟩ := h.getOrCreate hget
  refine (hkept.changed_recv (changed_reset ..) hdone.shape fun _ => ?_).closeIf id _
  rw [hdone.finOff, hdone.readOff]

theorem Kept.streamRead (h : Kept params m) (id cap : Nat) : Kept params (m.streamRead id cap).1 := by
  rcases streamRead_cases h id cap with heq | ⟨stream, recv, hfind, hshape, ⟨hsame, heq⟩ | ⟨-, got, htaken, heq⟩⟩
  · rw [heq]
    exact h
  · have hreset := (h.stream id stream hfind).reset_fin
    rw [heq]
    refine (h.changed_recv (changed_setRecv ..) hshape ?_).closeIf id _
    rw [hsame]
    exact hreset
  · have hstream := h.stream id stream hfind
    rw [heq]
    refine (h.changed_recv (changed_credit ..) hshape fun herr => ?_).closeIf id _
    -- all of a reset stream counts as read, so that nothing was taken
    have hfin := hstream.reset_fin (htaken.error ▸ herr)
    have hall := hstream.shape.recv_eq_fin _ hfin
    have hread := hshape.read_le_recv
    rw [htaken.recvOff, htaken.readOff] at hread
    rw [htaken.finOff, hfin, htaken.readOff]
    exact congrArg some (by omega)

theorem Kept.shutdownRead (h : Kept params m) (id : Nat) :
    Kept params ((m.streamShutdownRead id).toOption.getD m) := by
  rcases streamShutdownRead_cases h id with ⟨heq, -⟩ | ⟨-, stream, recv, hfind, -, rfl, hshape, heq⟩
  · rw [heq]
    exact h
  rw [heq]
  refine h.changed_recv (changed_credit ..) hshape fun herr => ?_
  have hstream := h.stream id stream hfind
  have hfin := hstream.reset_fin herr
  exact hfin.trans (congrArg some (hstream.shape.recv_eq_fin _ hfin).symm)

theorem Kept.sendCompleted (h : Kept params m) (id : Nat) : Kept params (m.sendCompleted id) :=
  h.changed (changed_sendCompleted m id) fun stream hfind => ⟨{ h.stream id stream hfind with }, rfl⟩

theorem ok_of_toOption {res : Option (Except Error StreamMap)} (h : res.bind Except.toOption = some m) :
    res = some (.ok m) := by
  match res, h with
  | some (.ok m), rfl => rfl

theorem Kept.step {c : StreamCall} (h : Kept params m) (hs : m.step c = some m') : Kept params m' := by
  cases c with
  | streamFrame id offset data fin => exact h.frame (ok_of_toOption hs)
  | resetFrame id errorCode finalSize => exact h.reset (ok_of_toOption hs)
  | read id cap =>
    cases hs
    exact h.streamRead id cap
  | shutdownRead id =>
    cases hs
    exact h.shutdownRead id
  | updateMaxData =>
    cases hs
    exact { h with }
  | updateStreamMaxData id =>
    cases hs
    refine h.changed (changed_updateStreamMaxData m id) fun stream hfind => ⟨?_, rfl⟩
    have hstream := h.stream id stream hfind
    exact { hstream with shape := hstream.shape.updateMaxData }
  | openStream id loc =>
    cases hs
    cases hget : m.getOrCreate id loc with
    | error e => exact h
    | ok got => exact (h.getOrCreate hget).1
  | sendCompleted id =>
    cases hs
    exact h.sendCompleted id
  | frameAcked id completes =>
    cases hs
    cases completes with
    | true => exact (h.sendCompleted id).closeIf id _
    | false => exact h.closeIf id _
  | destroy id =>
    obtain ⟨hclosed, hs⟩ := ite_none_right_eq_some.mp hs
    cases hs
    obtain ⟨stream, hfind, hclosed⟩ := (any_eq_true ..).mp hclosed
    exact h.streamDestroy hfind hclosed
  | updateLocalMaxStreams bidi =>
    cases hs
    exact h.updateLocalMaxStreams bidi
  | updatePeerMaxStreams bidi maxStreams =>
    cases hs
    exact h.updatePeerMaxStreams bidi maxStreams

theorem kept_run {isServer hasEvents : Bool} {calls : List StreamCall}
    (hr : run step (new isServer hasEvents params) calls = some m) : Kept params m :=
  run_invariant (fun _ _ _ h _ hs => h.step hs) (kept_new isServer hasEvents) (along_true _ calls) hr

end StreamMap

end MoqQuic.L3.Tquic
