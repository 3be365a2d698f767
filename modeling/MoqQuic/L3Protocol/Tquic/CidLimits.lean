import MoqQuic.L3Protocol.Tquic.CidAdvertising

/-!
# What the peer may object to (`connection/cid.rs`)

An endpoint announces how many IDs of the peer it keeps (`dcid_limit`), and its own
NEW_CONNECTION_ID frames must not retire the ID they bring.

`dcids` has room for almost twice the limit, as `scids` has for IDs that are being
replaced, and `add_dcid` relies on that room alone. `add_scid` raises
`retire_prior_to` before it knows that it succeeds, and the IDs below stay in
`scids`, with frames that may still be sent.

Results:
* `active_dcids_iff`: the limit is kept exactly if every new ID finds room below it.
* `new_cid_frames_iff`: frames are valid, and failed calls change nothing, exactly if
  every ID that is retired for a new one has no frame and the new one is accepted.
-/
namespace MoqQuic.L3.Tquic.Cid.ConnectionIdMgr
open LTS L1.Tquic L3.Tquic.Wire List Option

variable {m m' : ConnectionIdMgr}

/-! ## The limit on destination IDs -/

structure NewCid where
  cid : ConnectionId
  seq : Nat
  resetToken : ResetToken
  retirePriorTo : Nat

/-- A frame is received; `add_dcid` may fail. -/
def receive (m : ConnectionIdMgr) (f : NewCid) : Except Error (List (Nat × Nat)) × ConnectionIdMgr :=
  m.addDcid f.cid f.seq f.resetToken f.retirePriorTo

/-- If the call returns `Ok`, the number of IDs is within the limit. -/
def WithinLimit (m : ConnectionIdMgr) (f : NewCid) : Prop :=
  ∀ retired m', m.receive f = (.ok retired, m') → m'.dcids.queue.length ≤ m'.dcidLimit

/-- What the frame leaves of the IDs: a larger `retire_prior_to` removes those below it. -/
def kept (m : ConnectionIdMgr) (f : NewCid) : List ConnectionIdItem :=
  if m.largestPeerRetirePriorTo < f.retirePriorTo then m.dcids.queue.filter fun e => ¬ e.seq < f.retirePriorTo
  else m.dcids.queue

/-- The frame brings an ID that is to be kept: the peer uses IDs, this one is not known, its number is neither below the
frame's own `retire_prior_to` nor below an earlier one without being queued for retirement, and neither that queue nor
`dcids` is full. -/
structure Adds (m : ConnectionIdMgr) (f : NewCid) : Prop where
  nonzero : m.zeroLengthDcid = false
  unknown : ∀ e ∈ m.dcids.queue, e.cid ≠ f.cid ∧ e.seq ≠ f.seq
  le_seq : f.retirePriorTo ≤ f.seq
  not_late : f.seq < m.largestPeerRetirePriorTo → f.seq ∈ m.dcidsToRetire
  queued : m.largestPeerRetirePriorTo < f.retirePriorTo →
    m.dcidsToRetire.length + (m.dcids.queue.filter fun e => e.seq < f.retirePriorTo).length ≤ m.dcidLimit * 4
  capacity : (m.kept f).length ≠ m.dcids.capacity

/-- A new ID finds room below the limit beside the IDs that the frame leaves. -/
def HasRoom (m : ConnectionIdMgr) (f : NewCid) : Prop := m.Adds f → (m.kept f).length < m.dcidLimit

variable {f : NewCid}

/-- The end of a call that passed the checks, with the IDs that are kept. -/
theorem insertDcid_spec {m₁ : ConnectionIdMgr} (hadds : m₁.dcids.queue.length ≠ m₁.dcids.capacity ↔ m.Adds f)
    (hlimit : m₁.dcidLimit = m.dcidLimit) (hkept : m₁.dcids.queue = m.kept f)
    (hle : m₁.dcids.queue.length ≤ m.dcids.queue.length) (e : ConnectionIdItem) (r : List (Nat × Nat)) :
    m.Adds f ∧ (∃ retired, (m₁.insertDcid e r).1 = .ok retired) ∧ (m₁.insertDcid e r).2.dcidLimit = m.dcidLimit ∧
        (m₁.insertDcid e r).2.dcids.queue.length = (m.kept f).length + 1 ∨
      ¬ m.Adds f ∧ (m₁.insertDcid e r).2.dcidLimit = m.dcidLimit ∧
        (m₁.insertDcid e r).2.dcids.queue.length ≤ m.dcids.queue.length := by
  rw [← hkept, ← hadds]
  unfold insertDcid ConnectionIdDeque.insert
  by_cases hfull : m₁.dcids.queue.length = m₁.dcids.capacity
  · rw [if_pos hfull]
    exact .inr ⟨not_not.mpr hfull, hlimit, hle⟩
  · rw [if_neg hfull]
    exact .inl ⟨hfull, ⟨r, rfl⟩, hlimit, length_append⟩

/-- A call adds one ID to those that are kept, and succeeds, or it adds none. -/
theorem receive_spec (m : ConnectionIdMgr) (f : NewCid) :
    m.Adds f ∧ (∃ retired, (m.receive f).1 = .ok retired) ∧ (m.receive f).2.dcidLimit = m.dcidLimit ∧
        (m.receive f).2.dcids.queue.length = (m.kept f).length + 1 ∨
      ¬ m.Adds f ∧ (m.receive f).2.dcidLimit = m.dcidLimit ∧
        (m.receive f).2.dcids.queue.length ≤ m.dcids.queue.length := by
  unfold receive addDcid
  split
  · next hzero => exact .inr ⟨fun h => absurd (h.nonzero.symm.trans hzero) Bool.false_ne_true, rfl, le_rfl⟩
  next hzero =>
  split
  · next e hfind =>
    have hknown : ¬ m.Adds f := by
      intro h
      obtain ⟨hcid, hseq⟩ := h.unknown e (mem_of_find?_eq_some hfind)
      have heq := List.find?_some hfind
      rw [decide_eq_true_eq] at heq
      exact heq.elim hcid hseq
    split
    · exact .inr ⟨hknown, rfl, le_rfl⟩
    · exact .inr ⟨hknown, rfl, le_rfl⟩
  next hfind =>
  have hunknown : ∀ e ∈ m.dcids.queue, e.cid ≠ f.cid ∧ e.seq ≠ f.seq := by
    intro e he
    have := List.find?_eq_none.mp hfind e he
    rwa [decide_eq_true_eq, not_or] at this
  split
  · next hlt => exact .inr ⟨fun h => absurd h.le_seq (Nat.not_le.mpr hlt), rfl, le_rfl⟩
  next hle =>
  split
  · next hlate =>
    have hnot : ¬ m.Adds f := fun h => hlate.2 (h.not_late hlate.1)
    dsimp only
    split
    · exact .inr ⟨hnot, rfl, le_rfl⟩
    · exact .inr ⟨hnot, rfl, le_rfl⟩
  next hlate =>
  have hadds (hqueued) (hcap) : m.Adds f :=
    ⟨(Bool.not_eq_true _).mp hzero, hunknown, Nat.le_of_not_lt hle, fun hlt => by
      by_contra hno
      exact hlate ⟨hlt, hno⟩, hqueued, hcap⟩
  dsimp only
  split
  · next hlarger =>
    have hkept : (m.retireLower f.retirePriorTo).2.dcids.queue = m.kept f := by rw [kept, if_pos hlarger]; rfl
    have hlen : (m.retireLower f.retirePriorTo).2.dcids.queue.length ≤ m.dcids.queue.length := length_filter_le _ _
    have hqueue : (m.retireLower f.retirePriorTo).2.dcidsToRetire.length =
        m.dcidsToRetire.length + (m.dcids.queue.filter fun e => e.seq < f.retirePriorTo).length := by
      rw [retireLower, ConnectionIdDeque.removeLower, length_append, length_map]
    rw [checkDcidsToRetire, hqueue]
    by_cases hmany : m.dcidsToRetire.length + (m.dcids.queue.filter fun e => e.seq < f.retirePriorTo).length >
        m.dcidLimit * 4
    · rw [if_pos (by exact hmany)]
      exact .inr ⟨fun h => absurd (h.queued hlarger) (Nat.not_le.mpr hmany), rfl, hlen⟩
    · rw [if_neg (by exact hmany)]
      refine insertDcid_spec ⟨fun hcap => hadds (fun _ => Nat.le_of_not_lt hmany) (hkept ▸ hcap), fun h => ?_⟩ rfl hkept
        hlen _ _
      exact hkept ▸ h.capacity
  · next hnot =>
    have hkept : m.dcids.queue = m.kept f := by rw [kept, if_neg hnot]
    refine insertDcid_spec ⟨fun hcap => hadds (fun h => absurd h hnot) (hkept ▸ hcap), fun h => ?_⟩ rfl hkept le_rfl _ _
    exact hkept ▸ h.capacity

/-- While the IDs are within the limit, a call keeps them so exactly if there is room. -/
theorem withinLimit_iff (m : ConnectionIdMgr) (f : NewCid) (h : m.dcids.queue.length ≤ m.dcidLimit) :
    m.WithinLimit f ↔ m.HasRoom f := by
  rcases receive_spec m f with ⟨hadds, ⟨retired, hok⟩, hlimit, hlen⟩ | ⟨hnot, hlimit, hle⟩
  · have hiff : m.WithinLimit f ↔ (m.receive f).2.dcids.queue.length ≤ (m.receive f).2.dcidLimit :=
      ⟨fun hw => hw retired _ (Prod.ext hok rfl), fun hle _ m' heq => by rwa [heq] at hle⟩
    rw [hiff, hlimit, hlen]
    exact ⟨fun hle _ => hle, fun hroom => hroom hadds⟩
  · refine iff_of_true (fun _ m' heq => ?_) fun hadds => absurd hadds hnot
    rw [heq] at hlimit hle
    dsimp only at hlimit hle
    omega

theorem withinLimit_step (h : m.dcids.queue.length ≤ m.dcidLimit) (hw : m.WithinLimit f) :
    (m.receive f).2.dcids.queue.length ≤ (m.receive f).2.dcidLimit := by
  rcases receive_spec m f with ⟨-, ⟨retired, hok⟩, -⟩ | ⟨-, hlimit, hle⟩
  · exact hw retired _ (Prod.ext hok rfl)
  · omega

/-- After `set_initial_dcid`, every call of `add_dcid` that returns `Ok` leaves at most `dcid_limit` IDs, exactly if
every one that brings a new ID finds room for it. -/
theorem active_dcids_iff (limit : Nat) (hlimit : 2 ≤ limit) (scid dcid : ConnectionId) (pid : Nat)
    (scidToken dcidToken : Option ResetToken) (dcidPid : Option Nat) (frames : List NewCid) :
    Along (fun m f => some (m.receive f).2) WithinLimit
        ((new limit scid pid scidToken).setInitialDcid dcid dcidToken dcidPid) frames ↔
      Along (fun m f => some (m.receive f).2) HasRoom
        ((new limit scid pid scidToken).setInitialDcid dcid dcidToken dcidPid) frames := by
  have hnew := Nat.le_trans (by decide : 1 ≤ 2) hlimit
  refine Along.iff_of_invariant withinLimit_iff (fun m f m' h hr hs => ?_) hnew
  cases hs
  exact withinLimit_step h ((withinLimit_iff m f h).mpr hr)

/-- One ID beside the initial one, with a limit of two. -/
theorem active_dcids_two : Along (fun m f => some (m.receive f).2) WithinLimit
    ((new 2 (.new [0]) 0 none).setInitialDcid (.new [1]) none none) [⟨.new [2], 1, .replicate 16 0, 0⟩] :=
  (active_dcids_iff 2 (by decide) (.new [0]) (.new [1]) 0 none none none _).mpr
    ⟨fun _ => by decide, fun _ _ => trivial⟩

/-- With another one, three IDs are active. -/
theorem third_dcid_accepted :
    let m₀ := (new 2 (.new [0]) 0 none).setInitialDcid (.new [1]) none none
    let m := (m₀.receive ⟨.new [2], 1, .replicate 16 0, 0⟩).2
    (m.receive ⟨.new [3], 2, .replicate 16 0, 0⟩).1 = .ok [] ∧
      (m.receive ⟨.new [3], 2, .replicate 16 0, 0⟩).2.dcids.queue.length = 3 ∧ m.dcidLimit = 2 :=
  ⟨rfl, rfl, rfl⟩

/-! ## Frames for source IDs -/

inductive ScidCall where
  | addScid (cid : ConnectionId) (resetToken : Option ResetToken) (advertise : Bool) (pathId : Option Nat)
    (retireIfNeeded : Bool)
  | retireScid (seq : Nat) (pktDcid : ConnectionId)
  | setScidLimit (limit : Nat)

def scidStep (m : ConnectionIdMgr) : ScidCall → ConnectionIdMgr
  | .addScid cid resetToken advertise pathId retireIfNeeded =>
    (m.addScid cid resetToken advertise pathId retireIfNeeded).2
  | .retireScid seq pktDcid => (m.retireScid seq pktDcid).2
  | .setScidLimit limit => m.setScidLimit limit

/-- Every frame that can be made retires IDs below its own only. -/
def ValidFrames (m : ConnectionIdMgr) : Prop := ∀ seq seqNum retirePriorTo cid token,
  m.createNewConnectionIdFrame seq = .ok (.newConnectionId seqNum retirePriorTo cid token) → retirePriorTo ≤ seqNum

/-- After the call the frames are valid, `retire_prior_to` is not lower, and an `add_scid` that failed changed
nothing. -/
def KeepsFrames (m : ConnectionIdMgr) (c : ScidCall) : Prop :=
  (m.scidStep c).ValidFrames ∧ m.retirePriorTo ≤ (m.scidStep c).retirePriorTo ∧
    match c with
    | .addScid cid token advertise pathId retireIfNeeded =>
      (m.addScid cid token advertise pathId retireIfNeeded).1.isOk = false → m.scidStep c = m
    | _ => True

/-- `add_scid` retires the ID `lowest` for the new one. -/
def Retires (m : ConnectionIdMgr) (retireIfNeeded : Bool) (lowest : Nat) : Prop :=
  m.zeroLengthScid = false ∧ m.scids.queue.length ≥ m.scidLimit ∧ retireIfNeeded = true ∧
    m.lowestActiveScidSeq = .ok lowest

/-- An ID that `add_scid` retires has no reset token, and the call succeeds. -/
def RetiresSilently (m : ConnectionIdMgr) : ScidCall → Prop
  | .addScid _ token _ _ retireIfNeeded => ∀ lowest, m.Retires retireIfNeeded lowest →
    (token.isSome ∧ m.scids.queue.length ≠ m.scids.capacity) ∧
      ∀ e ∈ m.scids.queue, e.seq = lowest → e.resetToken = none
  | _ => True

structure ScidInv (m : ConnectionIdMgr) : Prop where
  nodup : (m.scids.queue.map (·.seq)).Nodup
  below : ∀ e ∈ m.scids.queue, e.seq < m.nextScidSeq
  positive : m.nextScidSeq ≠ 0
  le_next : m.retirePriorTo ≤ m.nextScidSeq
  frames : ∀ e ∈ m.scids.queue, e.resetToken ≠ none → m.retirePriorTo ≤ e.seq

theorem lowestActiveScidSeq_ok {lowest : Nat} (h : m.lowestActiveScidSeq = .ok lowest) :
    (∃ e ∈ m.scids.queue, e.seq = lowest) ∧ m.retirePriorTo ≤ lowest ∧
      ∀ e ∈ m.scids.queue, m.retirePriorTo ≤ e.seq → lowest ≤ e.seq := by
  unfold lowestActiveScidSeq at h
  split at h
  · next seq hmin =>
    cases h
    obtain ⟨hmem, hle⟩ := List.min?_eq_some_iff.mp hmin
    obtain ⟨e, he, rfl⟩ := mem_map.mp hmem
    obtain ⟨he, hge⟩ := mem_filter.mp he
    refine ⟨⟨e, he, rfl⟩, of_decide_eq_true hge, fun a ha hale => hle _ (mem_map_of_mem (mem_filter.mpr ?_))⟩
    exact ⟨ha, decide_eq_true hale⟩
  · cases h

theorem validFrames_iff (hn : (m.scids.queue.map (·.seq)).Nodup) :
    m.ValidFrames ↔ ∀ e ∈ m.scids.queue, e.resetToken ≠ none → m.retirePriorTo ≤ e.seq := by
  constructor
  · intro hv e he htoken
    obtain ⟨token, htoken⟩ := ne_none_iff_exists'.mp htoken
    obtain ⟨item, hitem⟩ := isSome_iff_exists.mp (get_isSome_iff.mpr ⟨e, he, rfl⟩)
    have hseq : item.seq = e.seq := by simpa using List.find?_some hitem
    obtain rfl := eq_of_seq_eq hn (mem_of_find?_eq_some hitem) he hseq
    refine hv item.seq item.seq m.retirePriorTo item.cid token ?_
    rw [createNewConnectionIdFrame, hitem]
    dsimp only
    rw [htoken]
  intro hv seq seqNum rpt cid token hf
  unfold createNewConnectionIdFrame at hf
  split at hf
  · cases hf
  · next item hitem =>
    split at hf
    · cases hf
    · next htoken =>
      cases hf
      have hseq : item.seq = seq := by simpa using List.find?_some hitem
      exact hseq ▸ hv item (mem_of_find?_eq_some hitem) (by rw [htoken]; exact some_ne_none _)

theorem ScidInv.validFrames (h : m.ScidInv) : m.ValidFrames :=
  (validFrames_iff h.nodup).mpr h.frames

section AddScid

variable {cid : ConnectionId} {token : Option ResetToken} {advertise retireIfNeeded : Bool} {pathId : Option Nat}

theorem insertScid_spec (hpos : m.nextScidSeq ≠ 0) : (token.isSome ∧ m.scids.queue.length ≠ m.scids.capacity) ∧
      (m.insertScid cid token advertise pathId).1.isOk = true ∧
      (m.insertScid cid token advertise pathId).2.scids.queue = m.scids.queue ++ [⟨cid, m.nextScidSeq, token, pathId⟩] ∧
      (m.insertScid cid token advertise pathId).2.nextScidSeq = m.nextScidSeq + 1 ∧
      (m.insertScid cid token advertise pathId).2.retirePriorTo = m.retirePriorTo ∨
    ¬ (token.isSome ∧ m.scids.queue.length ≠ m.scids.capacity) ∧
      (m.insertScid cid token advertise pathId).1.isOk = false ∧ (m.insertScid cid token advertise pathId).2 = m := by
  unfold insertScid ConnectionIdDeque.insert
  cases token with
  | none => simp [hpos, Except.isOk, Except.toBool]
  | some token =>
    by_cases hfull : m.scids.queue.length = m.scids.capacity
    · simp [hfull, Except.isOk, Except.toBool]
    · cases advertise <;> simp [hfull, markScidToAdvertise, Except.isOk, Except.toBool]

theorem ScidInv.insertScid (h : m.ScidInv) : (m.insertScid cid token advertise pathId).2.ScidInv := by
  obtain ⟨-, -, hqueue, hnext, hrpt⟩ | ⟨-, -, hm⟩ := @insertScid_spec m cid token advertise pathId h.positive
  · constructor
    · rw [hqueue]
      exact nodup_append_item h.nodup fun a ha => Nat.ne_of_lt (h.below a ha)
    · rw [hqueue, hnext, forall_mem_append, forall_mem_singleton]
      exact ⟨fun e he => Nat.lt_succ_of_lt (h.below e he), Nat.lt_succ_self _⟩
    · rw [hnext]
      exact Nat.succ_ne_zero _
    · rw [hnext, hrpt]
      exact Nat.le_succ_of_le h.le_next
    · rw [hqueue, hrpt, forall_mem_append, forall_mem_singleton]
      exact ⟨h.frames, fun _ => h.le_next⟩
  · rwa [hm]

theorem addScid_eq : (∀ lowest, ¬ m.Retires retireIfNeeded lowest) ∧
      ((m.addScid cid token advertise pathId retireIfNeeded).1.isOk = false ∧
          (m.addScid cid token advertise pathId retireIfNeeded).2 = m ∨
        m.addScid cid token advertise pathId retireIfNeeded = m.insertScid cid token advertise pathId) ∨
    ∃ lowest, m.Retires retireIfNeeded lowest ∧ m.addScid cid token advertise pathId retireIfNeeded =
      { m with retirePriorTo := lowest + 1 }.insertScid cid token advertise pathId := by
  unfold addScid Retires
  grind [Except.toBool]

/-- The ID that is retired is the lowest one that was not, so all others may keep their frames. -/
theorem ScidInv.retires (h : m.ScidInv) {lowest : Nat} (hr : m.Retires retireIfNeeded lowest)
    (hsilent : ∀ e ∈ m.scids.queue, e.seq = lowest → e.resetToken = none) :
    ScidInv { m with retirePriorTo := lowest + 1 } := by
  obtain ⟨⟨e, he, rfl⟩, -, hlow⟩ := lowestActiveScidSeq_ok hr.2.2.2
  refine ⟨h.nodup, h.below, h.positive, h.below e he, fun a ha htoken => ?_⟩
  have hle := hlow a ha (h.frames a ha htoken)
  have hne : a.seq ≠ e.seq := fun heq => htoken (hsilent a ha heq)
  exact Nat.lt_of_le_of_ne hle (Ne.symm hne)

/-- While the frames are valid, `add_scid` keeps them so, or changes nothing, exactly if it retires silently. -/
theorem ScidInv.keepsFrames_addScid (h : m.ScidInv) :
    m.KeepsFrames (.addScid cid token advertise pathId retireIfNeeded) ↔
      m.RetiresSilently (.addScid cid token advertise pathId retireIfNeeded) := by
  unfold KeepsFrames RetiresSilently scidStep
  dsimp only
  obtain ⟨hno, ⟨-, hm⟩ | heq⟩ | ⟨lowest, hr, heq⟩ := @addScid_eq m cid token advertise retireIfNeeded pathId
  · rw [hm]
    exact iff_of_true ⟨h.validFrames, le_rfl, fun _ => rfl⟩ fun l hl => absurd hl (hno l)
  · rw [heq]
    refine iff_of_true ⟨h.insertScid.validFrames, ?_⟩ fun l hl => absurd hl (hno l)
    obtain ⟨-, hok, -, -, hrpt⟩ | ⟨-, -, hm⟩ := @insertScid_spec m cid token advertise pathId h.positive
    · exact ⟨Nat.le_of_eq hrpt.symm, fun hfail => nomatch hok.symm.trans hfail⟩
    · exact ⟨Nat.le_of_eq (congrArg _ hm.symm), fun _ => hm⟩
  rw [heq]
  have hlow := (lowestActiveScidSeq_ok hr.2.2.2).2.1
  obtain ⟨haccept, hok, hqueue, -, hrpt⟩ | ⟨haccept, hfail, hm⟩ :=
    @insertScid_spec { m with retirePriorTo := lowest + 1 } cid token advertise pathId h.positive
  · constructor
    · intro hkeep l hl
      obtain rfl := Except.ok.inj (hl.2.2.2.symm.trans hr.2.2.2)
      refine ⟨haccept, fun e he hseq => by_contra fun htoken => ?_⟩
      have hnodup := hqueue ▸ nodup_append_item h.nodup fun a ha => Nat.ne_of_lt (h.below a ha)
      have hle := (validFrames_iff hnodup).mp hkeep.1 e (hqueue ▸ mem_append_left _ he) htoken
      rw [hrpt, hseq] at hle
      exact Nat.not_succ_le_self _ hle
    intro hs
    refine ⟨(h.retires hr (hs lowest hr).2).insertScid.validFrames, ?_, fun hfail => ?_⟩
    · exact hrpt ▸ Nat.le_succ_of_le hlow
    · exact nomatch hok.symm.trans hfail
  -- The call fails, with `retire_prior_to` raised.
  refine iff_of_false (fun hkeep => ?_) fun hs => haccept (hs lowest hr).1
  have hsame := congrArg retirePriorTo (hm.symm.trans (hkeep.2.2 hfail))
  exact absurd hlow (Nat.not_le.mpr (hsame ▸ Nat.lt_succ_self _))

end AddScid

theorem ScidInv.retireScid (h : m.ScidInv) (seq : Nat) (pktDcid : ConnectionId) :
    (m.retireScid seq pktDcid).2.ScidInv ∧ m.retirePriorTo ≤ (m.retireScid seq pktDcid).2.retirePriorTo := by
  unfold ConnectionIdMgr.retireScid
  split
  · exact ⟨h, le_rfl⟩
  split
  · exact ⟨h, le_rfl⟩
  · exact ⟨h, le_rfl⟩
  · next e scids hrem =>
    obtain ⟨-, -, rfl⟩ := remove_ok hrem
    have hsub : (m.scids.queue.eraseP fun e => e.seq = seq).Sublist m.scids.queue := eraseP_sublist
    have herase : ScidInv { m with scids := { m.scids with queue := m.scids.queue.eraseP fun e => e.seq = seq } } :=
      ⟨h.nodup.sublist (hsub.map _), fun e he => h.below e (hsub.mem he), h.positive, h.le_next,
        fun e he => h.frames e (hsub.mem he)⟩
    dsimp only
    split
    · exact ⟨herase, le_rfl⟩
    split
    · exact ⟨herase, le_rfl⟩
    · next lowest hlow =>
      obtain ⟨⟨a, ha, rfl⟩, hle, hlow⟩ := lowestActiveScidSeq_ok hlow
      refine ⟨⟨herase.nodup, herase.below, h.positive, Nat.le_of_lt (herase.below a ha), fun e he htoken => ?_⟩, hle⟩
      exact hlow e he (herase.frames e he htoken)

theorem ScidInv.setScidLimit (h : m.ScidInv) (limit : Nat) : (m.setScidLimit limit).ScidInv := by
  have hqueue : (m.setScidLimit limit).scids.queue = m.scids.queue := by
    grind [ConnectionIdMgr.setScidLimit, ConnectionIdDeque.enlarge]
  exact ⟨hqueue ▸ h.nodup, hqueue ▸ h.below, h.positive, h.le_next, hqueue ▸ h.frames⟩

theorem ScidInv.step (h : m.ScidInv) {c : ScidCall} (hs : m.RetiresSilently c) : (m.scidStep c).ScidInv := by
  cases c with
  | addScid cid token advertise pathId retireIfNeeded =>
    unfold scidStep
    dsimp only
    obtain ⟨-, ⟨-, hm⟩ | heq⟩ | ⟨lowest, hr, heq⟩ := @addScid_eq m cid token advertise retireIfNeeded pathId
    · rwa [hm]
    · rw [heq]
      exact h.insertScid
    · rw [heq]
      exact (h.retires hr (hs lowest hr).2).insertScid
  | retireScid seq pktDcid => exact (h.retireScid seq pktDcid).1
  | setScidLimit limit => exact h.setScidLimit limit

theorem ScidInv.keepsFrames_iff (h : m.ScidInv) (c : ScidCall) : m.KeepsFrames c ↔ m.RetiresSilently c := by
  cases c with
  | addScid => exact h.keepsFrames_addScid
  | retireScid seq pktDcid =>
    obtain ⟨hinv, hle⟩ := h.retireScid seq pktDcid
    exact iff_of_true ⟨hinv.validFrames, hle, trivial⟩ trivial
  | setScidLimit limit => exact iff_of_true ⟨(h.setScidLimit limit).validFrames, le_rfl, trivial⟩ trivial

/-- Along any calls, the frames are valid, `retire_prior_to` does not decrease and a failed `add_scid` changes nothing,
exactly if every ID that is retired for a new one has no frame and the new one is accepted. -/
theorem new_cid_frames_iff (limit : Nat) (scid : ConnectionId) (pid : Nat) (token : Option ResetToken)
    (calls : List ScidCall) :
    Along (fun m c => some (m.scidStep c)) KeepsFrames (new limit scid pid token) calls ↔
      Along (fun m c => some (m.scidStep c)) RetiresSilently (new limit scid pid token) calls := by
  have hnew : (new limit scid pid token).ScidInv := by
    refine ⟨nodup_singleton _, ?_, Nat.one_ne_zero, Nat.zero_le _, fun _ _ _ => Nat.zero_le _⟩
    exact forall_mem_singleton.mpr Nat.one_pos
  refine Along.iff_of_invariant (fun _ c h => h.keepsFrames_iff c) (fun m c m' h hr hs => ?_) hnew
  cases hs
  exact h.step hr

/-- At the limit of two, with room for three: the second ID is to be retired for another, which is not accepted. The
frame of the second ID would now retire that ID itself. -/
theorem frame_retires_own_id :
    let add cid m := addScid m (.new [cid]) (some (.replicate 16 0)) true none true
    let m := (add 2 (add 1 (new 2 (.new [0]) 0 none)).2).2
    (add 3 m).1 = .error .connectionIdLimitError ∧ m.retirePriorTo = 1 ∧ (add 3 m).2.retirePriorTo = 2 ∧
      (add 3 m).2.createNewConnectionIdFrame 1 = .ok (.newConnectionId 1 2 (.new [1]) (.replicate 16 0)) :=
  ⟨rfl, rfl, rfl, rfl⟩

end MoqQuic.L3.Tquic.Cid.ConnectionIdMgr
