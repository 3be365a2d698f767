import MoqQuic.L3Protocol.Tquic.StreamCalls

/-!
# Closing streams (`connection/stream.rs`)

A stream is closed when it is complete. `mark_closed` is called where the application
reads, where RESET_STREAM arrives, and where a frame that was sent is acknowledged. It
is called neither by `stream_shutdown` nor where a STREAM frame arrives.

`shutdown` moves the read position to the largest offset received so far, once. The
frames that arrive afterwards raise that offset but not the read position, so that
the receiving side does not become complete any more. If all had arrived, it is
complete at once; but if no acknowledgement follows, nothing closes the stream.

Results:
* `closed_after_shutdown_iff`: over every run, a stream that was shut down is complete
  and closed exactly if the shutdown comes after the last byte and before the
  acknowledgement that completes the sending side.
* `open_after_shutdown`: a run in which a stream stays incomplete and another one stays open.
-/
namespace MoqQuic.L3.Tquic
open LTS OrdMap Option
open Reader (Bytes)
open L2.Tquic

/-! ## What is to hold -/

namespace Stream

/-- Once the final size of a stream is known that was shut down, its receiving side is complete, and the stream is
closed if its sending side is complete or it has none. -/
def ClosesAfterShutdown (s : Stream) : Prop :=
  s.recv.shutdown = true → s.recv.finOff ≠ none → s.recv.isFin = true ∧ (s.isComplete = true → s.closed = true)

def ClosedOrSending (s : Stream) : Prop := s.closed = true ∨ s.bidi = true ∧ s.sendComplete = false

end Stream

namespace StreamMap

/-- FIN is no news on a stream that was shut down, unless it ends at the read position; a stream is shut down before
the final size is known or while its sending side goes on; and after both it is an acknowledgement that completes
the sending side. -/
def InTime (m : StreamMap) : StreamCall → Prop
  | .streamFrame id offset data fin => ∀ stream, m.streams.find id = some stream → stream.recv.shutdown = true →
      fin = true → stream.recv.finOff = none →
        stream.recv.readOff = offset + data.length ∧ stream.ClosedOrSending
  | .shutdownRead id => ∀ stream, m.streams.find id = some stream → Receives m.isServer id →
      stream.recv.shutdown = false → stream.recv.finOff ≠ none → stream.ClosedOrSending
  | .sendCompleted id => ∀ stream, m.streams.find id = some stream → stream.recv.shutdown = true →
      stream.recv.finOff ≠ none → stream.closed = true
  | _ => True

variable {m m' : StreamMap} {id offset : Nat} {stream : Stream} {params : StreamTransportParams} {loc fin : Bool}
  {data : Bytes} {recv : RecvBuf}

def Closes (m : StreamMap) : Prop := ∀ id stream, m.streams.find id = some stream → stream.ClosesAfterShutdown

theorem Changed.closes_iff {f : Stream → Stream} (hc : Changed m id f m') (h : Closes m) :
    Closes m' ↔ ∀ stream, m.streams.find id = some stream → (f stream).ClosesAfterShutdown := by
  rw [Closes, hc.streams]
  exact forall_find_modify.trans (and_iff_left fun k s _ => h k s)

theorem forall_find_iff {p : Stream → Prop} (hfind : m.streams.find id = some stream) :
    (∀ stream, m.streams.find id = some stream → p stream) ↔ p stream := by
  refine ⟨fun h => h stream hfind, fun h stream' hfind' => ?_⟩
  obtain rfl := some.inj (hfind.symm.trans hfind')
  exact h

theorem Closes.getOrCreate (h : Closes m) (hget : m.getOrCreate id loc = .ok (stream, m')) : Closes m' := by
  rcases getOrCreate_cases hget with ⟨-, rfl⟩ | ⟨-, -, l, maxData, -, rfl, rfl⟩
  · exact h
  · exact forall_find_insert.mpr ⟨(fun hshut => nomatch hshut), fun k s _ => h k s⟩

theorem Closes.closeIf (h : Closes m) (id : Nat) (done : Stream → Bool) : Closes (m.closeIf id done) := by
  unfold StreamMap.closeIf
  split
  · next stream hfind =>
    split
    · exact forall_markClosed hfind (fun hshut hfin => ⟨(h id stream hfind hshut hfin).1, fun _ => rfl⟩)
        fun k s _ => h k s
    · exact h
  · exact h

/-- A stream that was shut down has nothing to read, so that it is closed if a change has made it complete. -/
theorem Changed.closeIfDone {f : Stream → Stream} (hc : Changed m id f m') (hkept : Kept params m') (h : Closes m)
    (hf : ∀ stream, m.streams.find id = some stream → (f stream).recv.shutdown = true →
      (f stream).recv.finOff ≠ none → (f stream).recv.isFin = true) : Closes (m'.closeIfDone id) := by
  have hrest : ∀ k s, k ≠ id → m'.streams.find k = some s → s.ClosesAfterShutdown := by
    intro k s hk hs
    rw [hc.streams, find_modify, if_neg hk] at hs
    exact h k s hs
  have hfin : ∀ s, m'.streams.find id = some s → s.recv.shutdown = true → s.recv.finOff ≠ none →
      s.recv.isFin = true := by
    intro s hs
    rw [hc.streams, find_modify, if_pos rfl, map_eq_some_iff] at hs
    obtain ⟨stream, hfind, rfl⟩ := hs
    exact hf stream hfind
  unfold StreamMap.closeIfDone StreamMap.closeIf
  split
  · next stream hfind =>
    split
    · exact forall_markClosed hfind (fun hshut hne => ⟨hfin stream hfind hshut hne, fun _ => rfl⟩) hrest
    · next hnot =>
      intro k s hs
      by_cases hk : k = id
      · rw [hk, hfind] at hs
        cases hs
        refine fun hshut hne => ⟨hfin stream hfind hshut hne, fun hcomplete => absurd ?_ hnot⟩
        simp [hcomplete, (hkept.stream id stream hfind).shape.not_ready hshut]
      · exact hrest k s hk hs
  · next hnone =>
    intro k s hs
    refine hrest k s (fun hk => ?_) hs
    rw [hk, hnone] at hs
    cases hs

theorem StreamKept.isComplete_eq {isServer : Bool} (h : StreamKept isServer id stream) (hrecv : Receives isServer id)
    (recv : RecvBuf) (sendComplete : Bool) : ({ stream with recv, sendComplete } : Stream).isComplete =
      (recv.isFin && (!stream.bidi || sendComplete)) := by
  rw [Receives, ← h.bidi_eq, ← h.loc_eq] at hrecv
  rw [Stream.isComplete]
  cases hbidi : stream.bidi with
  | true => exact Bool.and_comm ..
  | false =>
    rw [(Bool.not_eq_true _).mp fun hloc => hrecv ⟨hbidi, hloc⟩]
    exact (Bool.and_true _).symm

/-- With the receiving side complete it is the sending side that matters. -/
theorem StreamKept.closed_iff {isServer : Bool} (h : StreamKept isServer id stream) (hrecv : Receives isServer id)
    (hfin : recv.isFin = true) : (({ stream with recv } : Stream).isComplete = true → stream.closed = true) ↔
      stream.ClosedOrSending := by
  rw [h.isComplete_eq hrecv recv stream.sendComplete, hfin, Stream.ClosedOrSending]
  cases stream.bidi <;> cases stream.sendComplete <;> simp

theorem accepted_closes_iff (hkept : StreamKept m.isServer id stream) (hrecv : Receives m.isServer id)
    (h : stream.ClosesAfterShutdown) (hcheck : stream.recv.checkFrame ⟨data, offset, fin⟩ = .ok ())
    (hacc : RecvBuf.Accepted stream.recv ⟨data, offset, fin⟩ recv) :
    ({ stream with recv } : Stream).ClosesAfterShutdown ↔ (stream.recv.shutdown = true → fin = true →
      stream.recv.finOff = none → stream.recv.readOff = offset + data.length ∧ stream.ClosedOrSending) := by
  have hsame := fun f hf => ((RecvBuf.checkFrame_ok hcheck).2.1 f hf).2
  have hfinOff := hacc.finOff
  have hisFin : recv.isFin = true ↔ recv.finOff = some stream.recv.readOff := by rw [RecvBuf.isFin_iff, hacc.readOff]
  have hcomplete := hkept.isComplete_eq hrecv recv stream.sendComplete
  have hwas := hkept.isComplete_eq hrecv stream.recv stream.sendComplete
  rw [Stream.ClosesAfterShutdown, hacc.shutdown, hcomplete]
  rw [Stream.ClosesAfterShutdown, hwas, RecvBuf.isFin_iff] at h
  simp only [RangeBuf.maxOff, RangeBuf.len] at hsame hfinOff
  grind [Stream.ClosedOrSending, RecvBuf.isFin_iff]

theorem frame_closes_iff (hkept : Kept params m) (h : Closes m)
    (hs : m.onStreamFrameReceived id offset data fin = some (.ok m')) :
    Closes m' ↔ InTime m (.streamFrame id offset data fin) := by
  rcases frame_cases hkept hs with ⟨rfl, hnone, -⟩ | ⟨hrecv, stream, m1, recv, hget, -, hcheck, hacc, rfl⟩
  · refine iff_of_true h fun stream hfind => ?_
    rw [hnone] at hfind
    cases hfind
  obtain ⟨hkept1, hfind1, hserver⟩ := hkept.getOrCreate hget
  have h1 := h.getOrCreate hget
  rw [← hserver] at hrecv
  rw [(changed_frameStored ..).closes_iff h1, forall_find_iff hfind1,
    accepted_closes_iff (hkept1.stream id stream hfind1) hrecv (h1 id stream hfind1) hcheck hacc]
  rcases getOrCreate_cases hget with ⟨hfind, -⟩ | ⟨hnone, -, l, maxData, -, rfl, -⟩
  · rw [InTime, forall_find_iff hfind]
  · refine iff_of_true (fun hshut => nomatch hshut) fun stream hfind => ?_
    rw [hnone] at hfind
    cases hfind

theorem Closes.reset {errorCode finalSize : Nat} (hkept : Kept params m) (h : Closes m)
    (hs : m.onResetStreamFrameReceived id errorCode finalSize = some (.ok m')) : Closes m' := by
  rcases reset_frame_cases hkept hs with ⟨rfl, -⟩ | ⟨stream, m1, recv, hget, -, hdone, rfl⟩
  · exact h
  obtain ⟨hkept1, -, -⟩ := hkept.getOrCreate hget
  have hc := changed_reset m1 id recv (finalSize - stream.recv.recvOff) finalSize stream.recv.readOff
    (finalSize - stream.recv.readOff)
  have hfin : recv.finOff = some recv.readOff := by rw [hdone.finOff, hdone.readOff]
  have hkept2 := hkept1.changed_recv hc hdone.shape fun _ => hfin
  exact hc.closeIfDone hkept2 (h.getOrCreate hget) fun _ _ _ _ => RecvBuf.isFin_iff.mpr hfin

theorem Closes.streamRead (hkept : Kept params m) (h : Closes m) (id cap : Nat) : Closes (m.streamRead id cap).1 := by
  rcases streamRead_cases hkept id cap with heq | ⟨stream, recv, hfind, -, ⟨hsame, heq⟩ | ⟨hshut, got, htaken, heq⟩⟩
  · rw [heq]
    exact h
  · rw [heq]
    refine Closes.closeIf (((changed_setRecv m id recv).closes_iff h).mpr ((forall_find_iff hfind).mpr ?_)) id _
    have hstream := h id stream hfind
    rw [hsame]
    exact hstream
  · rw [heq]
    refine Closes.closeIf (((changed_credit ..).closes_iff h).mpr fun _ _ hyes => ?_) id _
    rw [htaken.shutdown, hshut] at hyes
    cases hyes

theorem shutdownRead_closes_iff (hkept : Kept params m) (h : Closes m) (id : Nat) :
    Closes ((m.streamShutdownRead id).toOption.getD m) ↔ InTime m (.shutdownRead id) := by
  rcases streamShutdownRead_cases hkept id with ⟨heq, hnot⟩ | ⟨hrecv, stream, recv, hfind, hshut, hdown, -, heq⟩
  · rw [heq]
    refine iff_of_true h fun stream hfind hrecv hshut _ => ?_
    rcases hnot stream hfind with hyes | hsend
    · rw [hshut] at hyes
      cases hyes
    · exact absurd hrecv hsend
  have hstream := hkept.stream id stream hfind
  have hfinOff : recv.finOff = stream.recv.finOff := by rw [hdown]
  -- if the final size is known, all up to it was received, and now counts as read
  have hisFin : stream.recv.finOff ≠ none → recv.isFin = true := by
    intro hfin
    obtain ⟨f, hf⟩ := ne_none_iff_exists'.mp hfin
    rw [RecvBuf.isFin_iff, hfinOff, hdown]
    exact hf.trans (congrArg some (hstream.shape.recv_eq_fin f hf).symm)
  rw [heq, (changed_credit ..).closes_iff h, forall_find_iff hfind, InTime, forall_find_iff hfind,
    Stream.ClosesAfterShutdown, hfinOff]
  constructor
  · intro hclose _ _ hfin
    exact (hstream.closed_iff hrecv (hisFin hfin)).mp (hclose (by rw [hdown]) hfin).2
  · intro hopen _ hfin
    exact ⟨hisFin hfin, (hstream.closed_iff hrecv (hisFin hfin)).mpr (hopen hrecv hshut hfin)⟩

theorem sendCompleted_closes_iff (h : Closes m) (id : Nat) :
    Closes (m.sendCompleted id) ↔ InTime m (.sendCompleted id) := by
  rw [(changed_sendCompleted m id).closes_iff h]
  refine forall_congr' fun stream => imp_congr_right fun hfind => imp_congr_right fun hshut =>
    imp_congr_right fun hfin => ?_
  have hisFin := (h id stream hfind hshut hfin).1
  have hcomplete : ({ stream with sendComplete := true } : Stream).isComplete = true := by
    rw [Stream.isComplete]
    cases stream.bidi <;> cases stream.loc <;> simp [hisFin]
  rw [hcomplete]
  exact ⟨fun hclose => hclose.2 rfl, fun hclosed => ⟨hisFin, fun _ => hclosed⟩⟩

theorem Closes.onFrameAcked (hkept : Kept params m) (h : Closes m) (id : Nat) (completes : Bool) :
    Closes (m.onFrameAcked id completes) := by
  cases completes with
  | false => exact h.closeIf id _
  | true =>
    exact (changed_sendCompleted m id).closeIfDone (hkept.sendCompleted id) h fun stream hfind hshut hfin =>
      (h id stream hfind hshut hfin).1

theorem closes_step {c : StreamCall} (hkept : Kept params m) (h : Closes m) (hs : m.step c = some m') :
    Closes m' ↔ InTime m c := by
  cases c with
  | streamFrame id offset data fin => exact frame_closes_iff hkept h (ok_of_toOption hs)
  | resetFrame id errorCode finalSize => exact iff_of_true (h.reset hkept (ok_of_toOption hs)) trivial
  | read id cap =>
    cases hs
    exact iff_of_true (h.streamRead hkept id cap) trivial
  | shutdownRead id =>
    cases hs
    exact shutdownRead_closes_iff hkept h id
  | updateMaxData =>
    cases hs
    exact iff_of_true h trivial
  | updateStreamMaxData id =>
    cases hs
    exact iff_of_true (((changed_updateStreamMaxData m id).closes_iff h).mpr (h id)) trivial
  | openStream id loc =>
    cases hs
    refine iff_of_true ?_ trivial
    cases hget : m.getOrCreate id loc with
    | error e => exact h
    | ok got => exact h.getOrCreate hget
  | sendCompleted id =>
    cases hs
    exact sendCompleted_closes_iff h id
  | frameAcked id completes =>
    cases hs
    exact iff_of_true (h.onFrameAcked hkept id completes) trivial
  | destroy id =>
    obtain ⟨-, hs⟩ := ite_none_right_eq_some.mp hs
    cases hs
    exact iff_of_true (forall_find_erase.mpr fun k s _ => h k s) trivial
  | updateLocalMaxStreams bidi | updatePeerMaxStreams bidi maxStreams =>
    cases hs
    exact iff_of_true h trivial

/-- Over every run: after each call, each stream that was shut down and whose final size is known is complete on its
receiving side, and closed if it is complete altogether, exactly if every call is in time. For every stream of the
peer that was closed it may open another one. -/
theorem closed_after_shutdown_iff (isServer hasEvents : Bool) (params : StreamTransportParams) (calls : List StreamCall)
    (m : StreamMap) (hr : run step (new isServer hasEvents params) calls = some m) :
    (Ensures step (fun _ m => Closes m) (new isServer hasEvents params) calls ↔
      Along step InTime (new isServer hasEvents params) calls) ∧
    ∀ bidi, (m.concurrency.get false bidi).maxStreamsNext + m.openPeers bidi =
      params.initialMaxStreams bidi + m.openedPeers bidi := by
  refine ⟨?_, (kept_run hr).credited⟩
  refine ensures_iff_along (fun m c m' (h : Kept params m ∧ Closes m) hs => closes_step h.1 h.2 hs)
    (fun m c m' h hin hs => ⟨h.1.step hs, (closes_step h.1 h.2 hs).mpr hin⟩) ⟨kept_new isServer hasEvents, ?_⟩ hr
  exact fun _ _ hfind => nomatch hfind

/-- One byte is received and the stream shut down; FIN comes in an empty frame, and an acknowledgement completes the
sending side and closes the stream. The peer may open an eleventh one. -/
theorem closed_after_shutdown_acked : ∃ m, run step (new true true ⟨100, 50, 50, 50, 10, 10⟩)
      [.streamFrame 0 0 [7] false, .shutdownRead 0, .streamFrame 0 1 [] true, .frameAcked 0 true] = some m ∧
    (m.streams.find 0).any Stream.closed = true ∧ (m.concurrency.get false true).maxStreamsNext = 10 + 1 ∧
    Ensures step (fun _ m => Closes m) (new true true ⟨100, 50, 50, 50, 10, 10⟩)
      [.streamFrame 0 0 [7] false, .shutdownRead 0, .streamFrame 0 1 [] true, .frameAcked 0 true] := by
  refine exists_run (fun m => (m.streams.find 0).any Stream.closed && m.openPeers true == 0 && m.openedPeers true == 1)
    (by decide +kernel) fun m hr hm => ?_
  obtain ⟨hiff, hcredit⟩ := closed_after_shutdown_iff true true ⟨100, 50, 50, 50, 10, 10⟩ _ m hr
  simp only [Bool.and_eq_true, beq_iff_eq] at hm
  have hnext := hcredit true
  rw [hm.1.2, hm.2] at hnext
  refine ⟨hm.1.1, hnext, hiff.mpr ?_⟩
  refine .cons (fun _ hfind => nomatch hfind) rfl (.cons ?_ rfl (.cons ?_ rfl ⟨trivial, fun _ _ => trivial⟩))
  · intro stream hfind _ _ hfin
    cases hfind
    exact absurd rfl hfin
  · intro stream hfind _ _ _
    cases hfind
    exact ⟨rfl, .inr ⟨rfl, rfl⟩⟩

/-- On stream 0 the second byte comes after the shutdown, on stream 2 all comes before it; the sending side of the
first is complete and the second has none. One is never complete, and neither is closed. -/
theorem open_after_shutdown : ∃ m, run step (new true true ⟨100, 50, 50, 50, 10, 10⟩)
      [.streamFrame 0 0 [7] false, .shutdownRead 0, .streamFrame 0 1 [8] true, .frameAcked 0 true,
        .streamFrame 2 0 [9] true, .shutdownRead 2] = some m ∧
    (m.streams.find 0).any (fun stream => stream.sendComplete && stream.recv.finOff == some 2 &&
      !stream.recv.isFin && !stream.closed) = true ∧
    (m.streams.find 2).any (fun stream => stream.isComplete && !stream.closed) = true ∧
    (m.concurrency.get false true).maxStreamsNext = 10 ∧ (m.concurrency.get false false).maxStreamsNext = 10 ∧
    ¬ Closes m := by
  refine ⟨_, rfl, by decide +kernel, by decide +kernel, by decide +kernel, by decide +kernel, fun hclose => ?_⟩
  exact absurd (hclose 0 _ rfl rfl (some_ne_none 2)).1 (by decide +kernel)

end StreamMap

end MoqQuic.L3.Tquic
