import MoqQuic.L3Protocol.Tquic.CidControl

/-!
# Advertising of source connection IDs

A source ID that `add_scid` makes is announced to the peer by a NEW_CONNECTION_ID
frame: its sequence number waits in `scids_to_advertise` until the frame is written,
and is queued again when the frame is lost. `create_new_connection_id_frame` looks the
ID up in `scids` and fails with `InternalError` if it is not there.

The peer can retire an ID at any time, which takes it out of `scids`. `retire_scid`
leaves `scids_to_advertise` alone, and a lost frame is queued again whether its ID
still exists or not.

Results:
* `addScid_cases`, `retireScid_cases`: what the two methods do to the source IDs.
* `Advertising.tryWriteCidControlFrame`: a write does not fail with `InternalError`
  while every queued ID exists.
* `advertised_iff`: this holds exactly as long as no queued ID is removed and no frame
  of a removed ID is lost.
* `lost_after_retirement`: the error.
-/
namespace MoqQuic.L3.Tquic.Cid
open L1.Tquic L3.Tquic.Wire ConnectionIdMgr Option

namespace ConnectionIdMgr

variable {m : ConnectionIdMgr}

/-- The source IDs, the next sequence number and the queue are the old ones, or have a new ID with a token. -/
theorem insertScid_cases (cid : ConnectionId) (token : Option ResetToken) (advertise : Bool) (pathId : Option Nat) :
    SameScids m (m.insertScid cid token advertise pathId).2 ∨
      ∃ e : ConnectionIdItem, e.seq = m.nextScidSeq ∧ (m.nextScidSeq ≠ 0 → e.resetToken.isSome) ∧
        (m.insertScid cid token advertise pathId).2.scids.queue = m.scids.queue ++ [e] ∧
        (m.insertScid cid token advertise pathId).2.nextScidSeq = m.nextScidSeq + 1 ∧
        (m.insertScid cid token advertise pathId).2.scidsToAdvertise ⊆ m.scidsToAdvertise ++ [m.nextScidSeq] := by
  unfold insertScid
  dsimp only
  split
  · exact .inl (.refl m)
  rename_i htoken
  split
  · exact .inl (.refl m)
  rename_i scids hins
  unfold ConnectionIdDeque.insert at hins
  split at hins
  · cases hins
  cases hins
  refine .inr ⟨{ cid, seq := m.nextScidSeq, resetToken := token, pathId }, rfl, ?_, ?_⟩
  · intro hne
    cases token with
    | none => exact absurd ⟨hne, rfl⟩ htoken
    | some t => rfl
  cases advertise with
  | true => exact ⟨rfl, rfl, fun s hs => hs⟩
  | false => exact ⟨rfl, rfl, fun s hs => List.mem_append_left _ (List.mem_of_mem_filter hs)⟩

theorem addScid_cases (cid : ConnectionId) (token : Option ResetToken) (advertise : Bool) (pathId : Option Nat)
    (retireIfNeeded : Bool) :
    SameScids m (m.addScid cid token advertise pathId retireIfNeeded).2 ∨
      ∃ e : ConnectionIdItem, e.seq = m.nextScidSeq ∧ (m.nextScidSeq ≠ 0 → e.resetToken.isSome) ∧
        (m.addScid cid token advertise pathId retireIfNeeded).2.scids.queue = m.scids.queue ++ [e] ∧
        (m.addScid cid token advertise pathId retireIfNeeded).2.nextScidSeq = m.nextScidSeq + 1 ∧
        (m.addScid cid token advertise pathId retireIfNeeded).2.scidsToAdvertise ⊆
          m.scidsToAdvertise ++ [m.nextScidSeq] := by
  unfold addScid
  split
  · exact .inl (.refl m)
  split
  · split
    · exact .inl (.refl m)
    split
    · exact .inl (.refl m)
    rename_i lowest _
    obtain hsame | hnew :=
      insertScid_cases (m := { m with retirePriorTo := lowest + 1 }) cid token advertise pathId
    · exact .inl { hsame with }
    · exact .inr hnew
  · exact insertScid_cases cid token advertise pathId

theorem remove_ok {d d' : ConnectionIdDeque} {seq : Nat} {item : Option ConnectionIdItem}
    (h : d.remove seq = .ok (item, d')) : ¬ (d.queue.length = 1 ∧ (d.get seq).isSome) ∧ item = d.get seq ∧
      d' = { d with queue := d.queue.eraseP fun e => e.seq = seq } := by
  unfold ConnectionIdDeque.remove at h
  split at h
  · cases h
  split at h
  · cases h
  rename_i hlast
  cases h
  exact ⟨hlast, rfl, rfl⟩

/-- An ID is removed if it is there and is not the only one. -/
theorem retireScid_cases (seq : Nat) (pktDcid : ConnectionId) :
    (m.retireScid seq pktDcid).2.scidsToAdvertise = m.scidsToAdvertise ∧
    (m.retireScid seq pktDcid).2.nextScidSeq = m.nextScidSeq ∧
    ((m.retireScid seq pktDcid).2.scids.queue = m.scids.queue ∧
        (m.nextScidSeq ≤ seq ∨ m.scids.queue.length = 1 ∨ ∀ e ∈ m.scids.queue, e.seq ≠ seq) ∨
      m.scids.queue.length ≠ 1 ∧
        (m.retireScid seq pktDcid).2.scids.queue = m.scids.queue.eraseP fun e => e.seq = seq) := by
  unfold retireScid
  split
  · exact ⟨rfl, rfl, .inl ⟨rfl, .inl ‹_›⟩⟩
  split
  · rename_i hrem
    refine ⟨rfl, rfl, .inl ⟨rfl, .inr ?_⟩⟩
    unfold ConnectionIdDeque.remove at hrem
    split at hrem
    · rename_i hempty
      rw [List.isEmpty_iff.mp hempty]
      exact .inr fun e he => nomatch he
    split at hrem
    · rename_i hlast
      exact .inl hlast.1
    · cases hrem
  · rename_i hrem
    obtain ⟨-, hget, -⟩ := remove_ok hrem
    exact ⟨rfl, rfl, .inl ⟨rfl, .inr (.inr fun e he heq => by simpa [hget.symm] using get_isSome_iff.mpr ⟨e, he, heq⟩)⟩⟩
  rename_i e scids hrem
  obtain ⟨hlen, hget, rfl⟩ := remove_ok hrem
  have hlen : m.scids.queue.length ≠ 1 := fun h => hlen ⟨h, by rw [← hget]; rfl⟩
  dsimp only
  split
  · exact ⟨rfl, rfl, .inr ⟨hlen, rfl⟩⟩
  split <;> exact ⟨rfl, rfl, .inr ⟨hlen, rfl⟩⟩

end ConnectionIdMgr

namespace Conn

/-- Every sequence number that waits belongs to an ID with a reset token, the frame for the first one can be made, and
no write fails with an internal error. -/
structure Advertised (c : Conn) : Prop where
  exists_item : ∀ seq ∈ c.cids.scidsToAdvertise, ∃ e ∈ c.cids.scids.queue, e.seq = seq ∧ e.resetToken.isSome
  frame : ∀ seq, c.cids.nextScidToAdvertise = some seq → ∃ f, c.cids.createNewConnectionIdFrame seq = .ok f
  write : ∀ pid p, (pid, p) ∈ c.paths → ∀ left, (c.tryWriteCidControlFrame p left).1 ≠ some (.error .internalError)

/-- The peer does not retire an ID that waits to be announced, unless it is the only one, and a lost frame announces an
ID that is still there. -/
def StillThere (c : Conn) : Call → Prop
  | .retireScid seq _ => seq ∈ c.cids.scidsToAdvertise → c.cids.scids.queue.length = 1
  | .newCidLost seq => (c.cids.scids.get seq).isSome
  | _ => True

instance (c : Conn) : (l : Call) → Decidable (c.StillThere l)
  | .retireScid .. => inferInstanceAs (Decidable (_ → _))
  | .newCidLost _ => inferInstanceAs (Decidable (_ = true))
  | .addScid .. | .setScidLimit _ | .newCidAcked _ | .newConnectionId .. | .retireAcked _ | .retireLost _
  | .tryAllocateCidsFromPeer | .addPath _ | .newPath _ | .removePath _ | .setActive .. | .write .. =>
    inferInstanceAs (Decidable True)

/-! ## The invariant -/

/-- Only the initial ID can be without a token, and it is never announced. -/
structure Advertising (c : Conn) : Prop where
  nodup : (c.cids.scids.queue.map (·.seq)).Nodup
  below : ∀ e ∈ c.cids.scids.queue, e.seq < c.cids.nextScidSeq
  token : ∀ e ∈ c.cids.scids.queue, e.seq ≠ 0 → e.resetToken.isSome
  positive : c.cids.nextScidSeq ≠ 0
  queued : ∀ seq ∈ c.cids.scidsToAdvertise, seq ≠ 0 ∧ ∃ e ∈ c.cids.scids.queue, e.seq = seq
  inFlight : ∀ seq ∈ c.newCidsInFlight, seq ≠ 0

namespace Advertising

variable {c c' : Conn}

theorem createNewConnectionIdFrame {m : ConnectionIdMgr} {seq : Nat}
    (htoken : ∀ e ∈ m.scids.queue, e.seq ≠ 0 → e.resetToken.isSome) (hne : seq ≠ 0)
    (hseq : ∃ e ∈ m.scids.queue, e.seq = seq) : ∃ f, m.createNewConnectionIdFrame seq = .ok f := by
  obtain ⟨item, hitem⟩ := isSome_iff_exists.mp (get_isSome_iff.mpr hseq)
  have hmem := List.mem_of_find?_eq_some hitem
  have heq : item.seq = seq := by simpa using List.find?_some hitem
  obtain ⟨t, ht⟩ := isSome_iff_exists.mp (htoken item hmem (heq ▸ hne))
  unfold ConnectionIdMgr.createNewConnectionIdFrame
  rw [hitem]
  dsimp only
  rw [ht]
  exact ⟨_, rfl⟩

variable (h : Advertising c)
include h

/-- An iteration that leaves the first loop is at its end, or the packet has no room. -/
theorem advertiseOne_leave {w : Writer} (hw : Wrote c.cids w) {r : Except Error Unit} (hr : advertiseOne w = .leave r) :
    r ≠ .error .internalError := by
  unfold Conn.advertiseOne at hr
  split at hr
  · cases hr
    simp
  rename_i seq hnext
  obtain ⟨hne, hseq⟩ := h.queued seq (hw.scidsToAdvertise (List.mem_of_mem_head? hnext))
  obtain ⟨f, hf⟩ := createNewConnectionIdFrame (m := w.cids) (hw.scids ▸ h.token) hne (hw.scids ▸ hseq)
  rw [hf] at hr
  dsimp only at hr
  split at hr
  · rename_i hwrite
    cases hr
    rw [writeFrameToPacket_error hwrite]
    simp
  · cases hr

theorem tryWriteCidControlFrame (p : Path) (left : Nat) :
    (c.tryWriteCidControlFrame p left).1 ≠ some (.error .internalError) := by
  intro herr
  unfold Conn.tryWriteCidControlFrame at herr
  split at herr
  · split at herr
    · cases herr
    rename_i hactive
    obtain ⟨w', -, hr⟩ := loop_result (P := fun _ => True) (fun _ _ _ _ => trivial) trivial herr
    obtain ⟨d, hd⟩ : ∃ d, p.dcidSeq = some d := by
      simp only [Path.active, Bool.not_eq_true', Bool.not_eq_false, Bool.and_eq_true] at hactive
      exact isSome_iff_exists.mp hactive.2
    exact retireOne_leave hd hr rfl
  rename_i heq
  obtain ⟨w', hw, hr⟩ := loop_result (fun _ _ (hw : Wrote c.cids _) => hw.advertiseOne) (wrote_start c.cids left)
    ((congrArg Prod.fst heq).trans herr)
  exact h.advertiseOne_leave hw hr rfl

theorem advertised : Advertised c where
  exists_item seq hseq := by
    obtain ⟨hne, e, he, heq⟩ := h.queued seq hseq
    exact ⟨e, he, heq, h.token e he (heq ▸ hne)⟩
  frame seq hnext := by
    obtain ⟨hne, hseq⟩ := h.queued seq (List.mem_of_mem_head? hnext)
    exact createNewConnectionIdFrame h.token hne hseq
  write _ p _ left := h.tryWriteCidControlFrame p left

/-- The source IDs are the same, and frames leave the queue or are sent. -/
theorem congr (hqueue : c'.cids.scids.queue = c.cids.scids.queue) (hnext : c'.cids.nextScidSeq = c.cids.nextScidSeq)
    (hsub : c'.cids.scidsToAdvertise ⊆ c.cids.scidsToAdvertise)
    (hflight : ∀ seq ∈ c'.newCidsInFlight, seq ∈ c.cids.scidsToAdvertise ∨ seq ∈ c.newCidsInFlight) :
    Advertising c' := by
  constructor
  · rw [hqueue]
    exact h.nodup
  · rw [hqueue, hnext]
    exact h.below
  · rw [hqueue]
    exact h.token
  · rw [hnext]
    exact h.positive
  · rw [hqueue]
    exact fun seq hseq => h.queued seq (hsub hseq)
  · exact fun seq hseq => (hflight seq hseq).elim (fun hq => (h.queued seq hq).1) (h.inFlight seq)

theorem sameScids (hsame : ConnectionIdMgr.SameScids c.cids c'.cids)
    (hflight : c'.newCidsInFlight = c.newCidsInFlight) : Advertising c' :=
  h.congr (congrArg _ hsame.scids) hsame.nextScidSeq (fun _ hs => hsame.scidsToAdvertise ▸ hs)
    fun _ hs => .inr (hflight ▸ hs)

theorem addScid (cid : ConnectionId) (token : Option ResetToken) (advertise : Bool) (pathId : Option Nat)
    (retireIfNeeded : Bool) :
    Advertising { c with cids := (c.cids.addScid cid token advertise pathId retireIfNeeded).2 } := by
  obtain hsame | ⟨e, heq, htoken, hqueue, hnext, hsub⟩ :=
    addScid_cases (m := c.cids) cid token advertise pathId retireIfNeeded
  · exact h.sameScids hsame rfl
  have hnew : ∀ a ∈ c.cids.scids.queue, a.seq ≠ e.seq := by
    intro a ha
    have := h.below a ha
    omega
  constructor
  · rw [hqueue]
    exact nodup_append_item h.nodup hnew
  · intro a ha
    rw [hqueue, List.mem_append, List.mem_singleton] at ha
    rw [hnext]
    cases ha with
    | inl ha =>
      have := h.below a ha
      omega
    | inr ha =>
      rw [ha]
      omega
  · intro a ha hne
    rw [hqueue, List.mem_append, List.mem_singleton] at ha
    cases ha with
    | inl ha => exact h.token a ha hne
    | inr ha =>
      rw [ha]
      exact htoken h.positive
  · rw [hnext]
    omega
  · intro seq hseq
    rw [hqueue]
    cases List.mem_append.mp (hsub hseq) with
    | inl hold =>
      obtain ⟨hne, a, ha, haeq⟩ := h.queued seq hold
      exact ⟨hne, a, List.mem_append_left _ ha, haeq⟩
    | inr hlast =>
      rw [List.mem_singleton.mp hlast]
      exact ⟨h.positive, e, List.mem_append_right _ (List.mem_singleton_self e), heq⟩
  · exact h.inFlight

theorem retireScid {seq : Nat} {pktDcid : ConnectionId} (hok : c.StillThere (.retireScid seq pktDcid)) :
    Advertising { c with cids := (c.cids.retireScid seq pktDcid).2 } := by
  obtain ⟨hadv, hnext, ⟨hqueue, -⟩ | ⟨hlen, hqueue⟩⟩ := retireScid_cases (m := c.cids) seq pktDcid
  · exact h.congr hqueue hnext (fun _ hs => hadv ▸ hs) fun _ hs => .inr hs
  constructor
  · rw [hqueue]
    exact (List.eraseP_sublist.map _).nodup h.nodup
  · intro a ha
    rw [hqueue] at ha
    rw [hnext]
    exact h.below a (List.mem_of_mem_eraseP ha)
  · intro a ha
    rw [hqueue] at ha
    exact h.token a (List.mem_of_mem_eraseP ha)
  · rw [hnext]
    exact h.positive
  · intro s hs
    rw [hqueue]
    replace hs : s ∈ c.cids.scidsToAdvertise := hadv ▸ hs
    obtain ⟨hne, a, ha, rfl⟩ := h.queued s hs
    have hother : a.seq ≠ seq := fun heq => hlen (hok (heq ▸ hs))
    exact ⟨hne, a, (List.mem_eraseP_of_neg (by simpa using hother)).mpr ha, rfl⟩
  · exact h.inFlight

theorem newCidLost {seq : Nat} (hflight : seq ∈ c.newCidsInFlight) (hok : c.StillThere (.newCidLost seq)) :
    Advertising { c with
      cids := c.cids.markScidToAdvertise seq true, newCidsInFlight := c.newCidsInFlight.erase seq } := { h with
  queued := List.forall_mem_append.mpr ⟨h.queued,
    List.forall_mem_singleton.mpr ⟨h.inFlight seq hflight, get_isSome_iff.mp hok⟩⟩
  inFlight := fun s hs => h.inFlight s (List.mem_of_mem_erase hs) }

theorem step {l : Call} (hok : c.StillThere l) (hs : c.step l = some c') : Advertising c' := by
  cases l with
  | addScid cid token advertise pathId retire =>
    cases hs
    exact h.addScid cid token advertise pathId retire
  | retireScid seq pktDcid =>
    cases hs
    exact h.retireScid hok
  | setScidLimit limit =>
    cases hs
    refine h.congr ?_ rfl (fun _ hs => hs) fun _ hs => .inr hs
    unfold ConnectionIdMgr.setScidLimit ConnectionIdDeque.enlarge
    dsimp only
    split <;> rfl
  | newCidAcked seq =>
    simp only [Conn.step] at hs
    split at hs
    · cases hs
      exact h.congr rfl rfl (fun _ hs => hs) fun _ hs => .inr (List.mem_of_mem_erase hs)
    · cases hs
  | newCidLost seq =>
    obtain ⟨hflight, ⟨⟩⟩ := ite_none_right_eq_some.mp hs
    exact h.newCidLost hflight hok
  | newConnectionId cid seq token rpt =>
    obtain ⟨retired, m, hadd, hre⟩ := step_newConnectionId hs
    obtain ⟨hsame, hflight⟩ := sameScids_reassign hre
    exact h.sameScids ((sameScids_addDcid hadd).trans hsame) hflight
  | retireAcked seq | newPath pid | removePath pid =>
    simp only [Conn.step] at hs
    split at hs
    · cases hs
      exact h.sameScids (.refl _) rfl
    · cases hs
  | retireLost seq =>
    simp only [Conn.step] at hs
    split at hs
    · cases hs
      exact h.sameScids (sameScids_markDcidToRetire c.cids seq true) rfl
    · cases hs
  | tryAllocateCidsFromPeer =>
    cases hs
    obtain ⟨hsame, hflight⟩ := sameScids_allocate _ c
    exact h.sameScids hsame hflight
  | addPath pid =>
    obtain ⟨hsame, hflight⟩ := sameScids_addPath (step_addPath hs).2
    exact h.sameScids hsame hflight
  | setActive pid enabled =>
    cases hs
    exact h.sameScids (.refl _) rfl
  | write pid left =>
    simp only [Conn.step, map_eq_some_iff] at hs
    obtain ⟨path, -, rfl⟩ := hs
    have hw := wrote_tryWriteCidControlFrame c path left
    refine h.congr (congrArg _ hw.scids) hw.nextScidSeq hw.scidsToAdvertise ?_
    intro s hs
    obtain hs | hs := List.mem_append.mp hs
    · exact .inr hs
    obtain ⟨f, hf, heq⟩ := List.mem_filterMap.mp hs
    split at heq
    · cases heq
      exact .inl (hw.advertised s _ _ _ hf)
    · cases heq

end Advertising

theorem advertising_new (dcidLimit : Nat) (scid : ConnectionId) (scidToken : Option ResetToken) (dcid : ConnectionId)
    (dcidToken : Option ResetToken) : Advertising (new dcidLimit scid scidToken dcid dcidToken) where
  nodup := List.nodup_singleton 0
  below e he := by
    cases List.mem_singleton.mp he
    exact Nat.zero_lt_one
  token e he hne := by
    cases List.mem_singleton.mp he
    exact absurd rfl hne
  positive := Nat.one_ne_zero
  queued s hs := nomatch hs
  inFlight s hs := nomatch hs

/-- An ID that is removed while it waits, or announced again after it was removed, waits in vain. -/
theorem stillThere_of_advertised {c c' : Conn} {l : Call} (h : Advertising c) (hs : c.step l = some c')
    (hadv : Advertised c') : c.StillThere l := by
  cases l with
  | retireScid seq pktDcid =>
    intro hmem
    cases hs
    obtain ⟨hsame, -, ⟨-, hnot⟩ | ⟨-, hqueue⟩⟩ := retireScid_cases (m := c.cids) seq pktDcid
    · obtain ⟨-, e, he, rfl⟩ := h.queued seq hmem
      obtain hge | hlen | hnone := hnot
      · have := h.below e he
        omega
      · exact hlen
      · exact absurd rfl (hnone e he)
    obtain ⟨e, he, heq, -⟩ := hadv.exists_item seq (hsame ▸ hmem)
    rw [hqueue] at he
    exact absurd he (not_mem_eraseP h.nodup heq)
  | newCidLost seq =>
    simp only [Conn.step] at hs
    split at hs
    · cases hs
      obtain ⟨e, he, heq, -⟩ := hadv.exists_item seq (List.mem_append_right _ (List.mem_singleton_self seq))
      exact get_isSome_iff.mpr ⟨e, he, heq⟩
    · cases hs
  | _ => trivial

/-- In every run, each ID that waits to be announced exists, and no write fails with an internal error, exactly as long
as no such ID is removed and no lost frame announces one that was. -/
theorem advertised_iff (dcidLimit : Nat) (scid : ConnectionId) (scidToken : Option ResetToken) (dcid : ConnectionId)
    (dcidToken : Option ResetToken) {ls : List Call} {c : Conn}
    (hr : LTS.run step (new dcidLimit scid scidToken dcid dcidToken) ls = some c) :
    LTS.Ensures step (fun _ c => c.Advertised) (new dcidLimit scid scidToken dcid dcidToken) ls ↔
      LTS.Along step StillThere (new dcidLimit scid scidToken dcid dcidToken) ls := by
  have hpost : ∀ (c : Conn) l c', Advertising c → c.step l = some c' → (c'.Advertised ↔ c.StillThere l) := by
    intro c l c' h hs
    exact ⟨stillThere_of_advertised h hs, fun hok => (h.step hok hs).advertised⟩
  exact LTS.ensures_iff_along hpost (fun _ _ _ h hok hs => h.step hok hs) (advertising_new _ _ _ _ _) hr

/-- A source ID made for the peer. -/
def offered : Call := .addScid (ConnectionId.new [17]) (some (Vector.replicate 16 1)) true none false

/-- The frame is lost and sent again, and the peer then retires ID 1. -/
def offeredAgain : List Call :=
  [offered, .write 0 1200, .newCidLost 1, .write 0 1200, .newCidAcked 1, .retireScid 1 (ConnectionId.new [16])]

theorem advertised_iff_offeredAgain :
    LTS.Ensures step (fun _ c => c.Advertised) (new 2 (ConnectionId.new [16]) none (ConnectionId.new [0]) none)
        offeredAgain ∧
      ∃ c, LTS.run step (new 2 (ConnectionId.new [16]) none (ConnectionId.new [0]) none) offeredAgain = some c ∧
        c.cids.scids.queue.map (·.seq) = [0] ∧ c.cids.nextScidSeq = 2 := by
  refine ⟨(advertised_iff 2 _ none _ none rfl).mpr ?_, _, rfl, by decide +kernel⟩
  repeat apply LTS.Along.cons (by decide +kernel) rfl
  trivial

/-- The peer gets the frame and retires the ID, but the packet is declared lost: from then on no write succeeds. -/
theorem lost_after_retirement : ∃ c, LTS.run step (new 2 (ConnectionId.new [16]) none (ConnectionId.new [0]) none)
          [offered, .write 0 1200, .retireScid 1 (ConnectionId.new [16]), .newCidLost 1] = some c ∧
      c.cids.scidsToAdvertise = [1] ∧ c.cids.scids.queue.map (·.seq) = [0] ∧
      c.cids.createNewConnectionIdFrame 1 = .error .internalError ∧
      ∃ p, c.paths.find 0 = some p ∧ (c.tryWriteCidControlFrame p 1200).1 = some (.error .internalError) := by
  exact ⟨_, rfl, by decide +kernel, by decide +kernel, rfl, _, rfl, rfl⟩

end Conn

end MoqQuic.L3.Tquic.Cid
