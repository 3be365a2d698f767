import MoqQuic.L3Protocol.Tquic.CidControl

/-!
# Retirement of destination connection IDs

An ID whose sequence number is below the peer's `retire_prior_to` leaves `dcids` and
waits in `dcids_to_retire` until a RETIRE_CONNECTION_ID frame is written. The loop
that writes these frames goes on without doing anything while the ID at the front is
the one of the path, so it ends only if no path uses an ID that is to be retired.

`add_dcid` retires an ID that comes too late at once, "unless it has already done so".
If the ID waits in the queue already, the code does not return: it adds the ID to
`dcids`, where a path can take it.

Results:
* `Linked.reassign`, `Linked.allocate`: the ID of a path stays in `dcids`, under that path.
* `Inv.recvNewConnectionId`: a frame that `add_dcid` accepts is accepted, since every path that has to be
  given another ID exists (`Owned.reassign`).
* `Inv.step`: IDs below `largest_peer_retire_prior_to` are retired, the others are kept.
* `retirement_iff`: this holds exactly as long as no frame repeats an ID that waits for
  its retirement.
* `repeated_id_used`: such a frame, and the loop that does not end.
-/
namespace MoqQuic.L3.Tquic.Cid
open L1.Tquic L3.Tquic.Wire ConnectionIdMgr OrdMap Option
open List (mem_map mem_append mem_singleton forall_mem_append forall_mem_singleton)

namespace Conn

/-- No ID is active and to be retired, none is active that the peer wants back, and the loop that writes the
RETIRE_CONNECTION_ID frames ends on every path. -/
structure Retirement (c : Conn) : Prop where
  disjoint : ∀ e ∈ c.cids.dcids.queue, e.seq ∉ c.cids.dcidsToRetire
  kept : ∀ e ∈ c.cids.dcids.queue, c.cids.largestPeerRetirePriorTo ≤ e.seq
  terminates : ∀ pid p, (pid, p) ∈ c.paths → p.active = true →
    ∀ w : Writer, w.cids.dcidsToRetire = c.cids.dcidsToRetire → LTS.Terminates (iterate (retireOne p.dcidSeq)) w

/-- A NEW_CONNECTION_ID frame does not repeat an ID that the peer wants back and whose RETIRE_CONNECTION_ID frame
has not been written. -/
def NotRepeated (c : Conn) : Call → Prop
  | .newConnectionId _ seqNum _ _ => seqNum < c.cids.largestPeerRetirePriorTo → seqNum ∉ c.cids.dcidsToRetire
  | _ => True

instance (c : Conn) : (l : Call) → Decidable (c.NotRepeated l)
  | .newConnectionId .. => inferInstanceAs (Decidable (_ → _))
  | .addScid .. | .retireScid .. | .setScidLimit _ | .newCidAcked _ | .newCidLost _ | .retireAcked _
  | .retireLost _ | .tryAllocateCidsFromPeer | .addPath _ | .newPath _ | .removePath _ | .setActive ..
  | .write .. => inferInstanceAs (Decidable True)

/-! ## The IDs of paths -/

/-- The item of an ID gets a path. -/
def use (m : ConnectionIdMgr) (seq pid : Nat) : ConnectionIdMgr :=
  { m with dcids := { m.dcids with queue := ConnectionIdDeque.setPathId seq pid m.dcids.queue } }

theorem markDcidUsed_eq {m : ConnectionIdMgr} {seq pid : Nat} (h : ∃ e ∈ m.dcids.queue, e.seq = seq) :
    m.markDcidUsed seq pid = .ok (use m seq pid) := if_pos (get_isSome_iff.mpr h)

/-- Only the paths of the items and the IDs of the paths have changed. -/
structure Relabels (c c' : Conn) : Prop where
  seqs : c'.cids.dcids.queue.map (·.seq) = c.cids.dcids.queue.map (·.seq)
  zeroLengthDcid : c'.cids.zeroLengthDcid = c.cids.zeroLengthDcid
  largestPeerRetirePriorTo : c'.cids.largestPeerRetirePriorTo = c.cids.largestPeerRetirePriorTo
  dcidsToRetire : c'.cids.dcidsToRetire = c.cids.dcidsToRetire
  retiresInFlight : c'.retiresInFlight = c.retiresInFlight

theorem Relabels.refl (c : Conn) : Relabels c c := ⟨rfl, rfl, rfl, rfl, rfl⟩

theorem Relabels.trans {c₁ c₂ c₃ : Conn} (h : Relabels c₁ c₂) (h' : Relabels c₂ c₃) : Relabels c₁ c₃ :=
  ⟨h'.seqs.trans h.seqs, h'.zeroLengthDcid.trans h.zeroLengthDcid,
    h'.largestPeerRetirePriorTo.trans h.largestPeerRetirePriorTo, h'.dcidsToRetire.trans h.dcidsToRetire,
    h'.retiresInFlight.trans h.retiresInFlight⟩

/-- The ID of a path is an item of that path, or one of those that were just retired. -/
def Linked (retired : List (Nat × Nat)) (c : Conn) : Prop :=
  ∀ pid p seq, (pid, p) ∈ c.paths → p.dcidSeq = some seq →
    (∃ e ∈ c.cids.dcids.queue, e.seq = seq ∧ e.pathId = some pid) ∨ (seq, pid) ∈ retired

section Assign

variable {c c' : Conn} {retired : List (Nat × Nat)} {pid seq : Nat}

/-- A path takes over an unused ID. -/
theorem Linked.assign {paths : OrdMap Nat Path} (hn : (c.cids.dcids.queue.map (·.seq)).Nodup)
    (hunused : ∃ e ∈ c.cids.dcids.queue, e.seq = seq ∧ e.pathId = none)
    (hpaths : ∀ pid' p, (pid', p) ∈ paths → pid' = pid ∧ p.dcidSeq = some seq ∨ (pid', p) ∈ c.paths ∧ pid' ≠ pid)
    (h : ∀ pid' p s, pid' ≠ pid → (pid', p) ∈ c.paths → p.dcidSeq = some s →
      (∃ e ∈ c.cids.dcids.queue, e.seq = s ∧ e.pathId = some pid') ∨ (s, pid') ∈ retired) :
    Linked retired { c with cids := use c.cids seq pid, paths } := by
  obtain ⟨e₀, he₀, hseq₀, hnone⟩ := hunused
  intro pid' p s hmem hs
  obtain ⟨rfl, hseq⟩ | ⟨hmem, hne⟩ := hpaths pid' p hmem
  · cases hseq.symm.trans hs
    exact .inl (exists_mem_setPathId ⟨e₀, he₀, hseq₀⟩)
  obtain ⟨e, he, hseq, hpid⟩ | hret := h pid' p s hne hmem hs
  · refine .inl ⟨e, mem_setPathId_of_ne he ?_, hseq, hpid⟩
    intro heq
    rw [eq_of_seq_eq hn he he₀ (heq.trans hseq₀.symm), hnone] at hpid
    cases hpid
  · exact .inr hret

theorem mem_setDcid {pid' : Nat} {p : Path} {d : Option Nat} (h : (pid', p) ∈ (c.setDcid pid d).paths) :
    pid' = pid ∧ p.dcidSeq = d ∨ (pid', p) ∈ c.paths ∧ pid' ≠ pid := by
  obtain ⟨v, -, heq⟩ | hold := mem_modify.mp h
  · cases heq
    exact .inl ⟨rfl, rfl⟩
  · exact .inr hold

theorem relabels_assign (c : Conn) (pid seq : Nat) :
    Relabels c ({ c with cids := use c.cids seq pid }.setDcid pid (some seq)) :=
  ⟨setPathId_seqs, rfl, rfl, rfl, rfl⟩

/-- After the loop over the retired IDs no path has one of them. -/
theorem Linked.reassign {retired : List (Nat × Nat)} {c c' : Conn} (hn : (c.cids.dcids.queue.map (·.seq)).Nodup)
    (h : Linked retired c) (hr : reassign retired c = .ok c') : Relabels c c' ∧ Linked [] c' := by
  induction retired generalizing c c' with
  | nil =>
    cases hr
    exact ⟨.refl c, h⟩
  | cons r retired ih =>
    obtain ⟨seq, pid⟩ := r
    unfold Conn.reassign at hr
    split at hr
    · cases hr
    rename_i path hpath
    rw [find_eq_some] at hpath
    -- an ID of another path is not the one at the front
    have hrest : ∀ pid' p s, (pid' = pid → p.dcidSeq ≠ some seq) → (pid', p) ∈ c.paths → p.dcidSeq = some s →
        (∃ e ∈ c.cids.dcids.queue, e.seq = s ∧ e.pathId = some pid') ∨ (s, pid') ∈ retired := by
      intro pid' p s hother hmem hs
      obtain hlink | hmem' := h pid' p s hmem hs
      · exact .inl hlink
      cases List.mem_cons.mp hmem' with
      | inl heq =>
        cases heq
        exact absurd hs (hother rfl)
      | inr hmem' => exact .inr hmem'
    split at hr
    · rename_i hne
      refine ih hn (fun pid' p s hmem hs => hrest pid' p s ?_ hmem hs) hr
      rintro rfl
      cases eq_of_key_eq hmem hpath rfl
      exact hne
    split at hr
    · rename_i new hlow
      have hunused := lowestUnusedDcidSeq_eq_some hlow
      rw [markDcidUsed_eq (hunused.imp fun _ he => ⟨he.1, he.2.1⟩)] at hr
      have hrelabel := relabels_assign c pid new
      have hlinked : Linked retired ({ c with cids := use c.cids new pid }.setDcid pid (some new)) :=
        Linked.assign hn hunused (fun _ _ hmem => mem_setDcid hmem) fun pid' p s hne hmem hs =>
          hrest pid' p s (fun heq => absurd heq hne) hmem hs
      obtain ⟨hrel, hlink⟩ := ih (hrelabel.seqs ▸ hn) hlinked hr
      exact ⟨hrelabel.trans hrel, hlink⟩
    have hlinked : Linked retired (c.setDcid pid none) := by
      intro pid' p s hmem hs
      obtain ⟨-, hnone⟩ | ⟨hmem, hne⟩ := mem_setDcid hmem
      · cases hnone.symm.trans hs
      · exact hrest pid' p s (fun heq => absurd heq hne) hmem hs
    have hrelabel : Relabels c (c.setDcid pid none) := ⟨rfl, rfl, rfl, rfl, rfl⟩
    obtain ⟨hrel, hlink⟩ := ih (hrelabel.seqs ▸ hn) hlinked hr
    exact ⟨hrelabel.trans hrel, hlink⟩

/-- Every path without an ID gets an unused one while there are any. -/
theorem Linked.allocate {pids : List Nat} (hn : (c.cids.dcids.queue.map (·.seq)).Nodup) :
    Relabels c (allocate pids c) ∧ (c.cids.zeroLengthDcid = false → Linked [] c → Linked [] (allocate pids c)) := by
  induction pids generalizing c with
  | nil => exact ⟨.refl _, fun _ h => h⟩
  | cons pid pids ih =>
    unfold Conn.allocate
    split
    · rename_i hzero
      have hrelabel : Relabels c (c.setDcid pid (some 0)) := ⟨rfl, rfl, rfl, rfl, rfl⟩
      refine ⟨hrelabel.trans (ih (hrelabel.seqs ▸ hn)).1, fun hnot => ?_⟩
      rw [hzero] at hnot
      cases hnot
    split
    · exact ⟨.refl c, fun _ h => h⟩
    rename_i seq hlow
    have hunused := lowestUnusedDcidSeq_eq_some hlow
    rw [markDcidUsed_eq (hunused.imp fun _ he => ⟨he.1, he.2.1⟩)]
    have hrelabel := relabels_assign c pid seq
    obtain ⟨hrel, hlink⟩ := ih (hrelabel.seqs ▸ hn)
    refine ⟨hrelabel.trans hrel, fun hzero h => hlink hzero ?_⟩
    exact Linked.assign hn hunused (fun _ _ hmem => mem_setDcid hmem) fun pid' p s _ hmem hs => h pid' p s hmem hs

theorem Linked.addPath (hn : (c.cids.dcids.queue.map (·.seq)).Nodup) (hs : c.addPath pid = .ok c') :
    Relabels c c' ∧ (c.cids.zeroLengthDcid = false → Linked [] c → Linked [] c') := by
  unfold Conn.addPath at hs
  dsimp only at hs
  split at hs
  · rename_i seq hseq
    split at hs
    · cases hs
    rename_i cids hmark
    cases hs
    have hcids : cids = use c.cids seq pid := by
      unfold ConnectionIdMgr.markDcidUsed at hmark
      split at hmark
      · cases hmark
        rfl
      · cases hmark
    rw [hcids]
    refine ⟨⟨setPathId_seqs, rfl, rfl, rfl, rfl⟩, fun hzero h => ?_⟩
    rw [hzero, if_neg Bool.false_ne_true] at hseq
    refine Linked.assign hn (lowestUnusedDcidSeq_eq_some hseq) (fun pid' p hmem => ?_)
      fun pid' p s _ hmem hs => h pid' p s hmem hs
    obtain heq | hold := mem_insert.mp hmem
    · cases heq
      exact .inl ⟨rfl, by rw [hzero, if_neg Bool.false_ne_true, hseq]⟩
    · exact .inr hold
  rename_i hnone
  cases hs
  refine ⟨⟨rfl, rfl, rfl, rfl, rfl⟩, fun _ h pid' p s hmem hs => ?_⟩
  obtain heq | ⟨hmem, -⟩ := mem_insert.mp hmem
  · cases heq
    rw [hnone] at hs
    cases hs
  · exact h pid' p s hmem hs

end Assign

/-- The path of an item exists and has that ID. -/
def Owned (c : Conn) : Prop :=
  ∀ e ∈ c.cids.dcids.queue, ∀ pid, e.pathId = some pid → ∃ p, (pid, p) ∈ c.paths ∧ p.dcidSeq = some e.seq

section Owned

variable {c c' : Conn} {pid seq : Nat}

/-- A path of which no item is known gets an ID. -/
theorem Owned.assign {paths : OrdMap Nat Path} (h : Owned c) (hfree : ∀ e ∈ c.cids.dcids.queue, e.pathId ≠ some pid)
    (hpid : ∃ p, (pid, p) ∈ paths ∧ p.dcidSeq = some seq)
    (hpaths : ∀ pid' p, pid' ≠ pid → (pid', p) ∈ c.paths → (pid', p) ∈ paths) :
    Owned { c with cids := use c.cids seq pid, paths } := by
  intro e he pid' hpid'
  obtain hold | ⟨hseq, heq⟩ := mem_of_mem_setPathId he
  · obtain ⟨p, hp, hseq⟩ := h e hold pid' hpid'
    refine ⟨p, hpaths pid' p ?_ hp, hseq⟩
    rintro rfl
    exact hfree e hold hpid'
  cases hpid'.symm.trans heq
  rw [hseq]
  exact hpid

theorem mem_setDcid_self {p : Path} (d : Option Nat) (h : (pid, p) ∈ c.paths) :
    ∃ p', (pid, p') ∈ (c.setDcid pid d).paths ∧ p'.dcidSeq = d :=
  ⟨_, mem_modify.mpr (.inl ⟨p, h, rfl⟩), rfl⟩

theorem mem_setDcid_of_ne {pid' : Nat} {p : Path} {d : Option Nat} (hne : pid' ≠ pid) (h : (pid', p) ∈ c.paths) :
    (pid', p) ∈ (c.setDcid pid d).paths := mem_modify.mpr (.inr ⟨h, hne⟩)

theorem Owned.setDcid (h : Owned c) (hfree : ∀ e ∈ c.cids.dcids.queue, e.pathId ≠ some pid) (d : Option Nat) :
    Owned (c.setDcid pid d) := by
  intro e he pid' hpid'
  obtain ⟨p, hp, hseq⟩ := h e he pid' hpid'
  refine ⟨p, mem_setDcid_of_ne ?_ hp, hseq⟩
  rintro rfl
  exact hfree e he hpid'

/-- The loop over the retired IDs finds every path. -/
theorem Owned.reassign {retired : List (Nat × Nat)} (h : Owned c)
    (hret : ∀ r ∈ retired, r.1 ∉ c.cids.dcids.queue.map (·.seq) ∧ ∃ p, (r.2, p) ∈ c.paths) :
    ∃ c', reassign retired c = .ok c' ∧ Owned c' := by
  induction retired generalizing c with
  | nil => exact ⟨_, rfl, h⟩
  | cons r retired ih =>
    obtain ⟨seq, pid⟩ := r
    obtain ⟨⟨hgone, path, hpath⟩, hrest⟩ := List.forall_mem_cons.mp hret
    have hmore : ∀ {d : Option Nat} {r}, (∃ p, (r, p) ∈ c.paths) → ∃ p, (r, p) ∈ (c.setDcid pid d).paths := by
      rintro d r ⟨p, hp⟩
      by_cases heq : r = pid
      · subst heq
        exact (mem_setDcid_self d hp).imp fun _ h => h.1
      · exact ⟨p, mem_setDcid_of_ne heq hp⟩
    unfold Conn.reassign
    rw [find_eq_some.mpr hpath]
    dsimp only
    split
    · exact ih h hrest
    rename_i hseq
    -- the path's only item was the one that is gone
    have hfree : ∀ e ∈ c.cids.dcids.queue, e.pathId ≠ some pid := by
      intro e he heq
      obtain ⟨p, hp, hp'⟩ := h e he pid heq
      cases eq_of_key_eq hp hpath rfl
      cases hp'.symm.trans (not_not.mp hseq)
      exact hgone (List.mem_map_of_mem he)
    split
    · rename_i new hlow
      rw [markDcidUsed_eq ((lowestUnusedDcidSeq_eq_some hlow).imp fun _ he => ⟨he.1, he.2.1⟩)]
      refine ih (h.assign hfree (mem_setDcid_self _ hpath) fun _ _ => mem_setDcid_of_ne) fun r hr => ?_
      rw [(relabels_assign c pid new).seqs]
      exact ⟨(hrest r hr).1, hmore (hrest r hr).2⟩
    · exact ih (h.setDcid hfree none) fun r hr => ⟨(hrest r hr).1, hmore (hrest r hr).2⟩

theorem Owned.allocate {pids : List Nat} (hn : pids.Nodup)
    (hnone : ∀ pid ∈ pids, ∃ p, (pid, p) ∈ c.paths ∧ p.dcidSeq = none) (h : Owned c) : Owned (allocate pids c) := by
  induction pids generalizing c with
  | nil => exact h
  | cons pid pids ih =>
    obtain ⟨hhead, hn⟩ := List.nodup_cons.mp hn
    obtain ⟨⟨path, hpath, hdcid⟩, hrest⟩ := List.forall_mem_cons.mp hnone
    have hfree : ∀ e ∈ c.cids.dcids.queue, e.pathId ≠ some pid := by
      intro e he heq
      obtain ⟨p, hp, hp'⟩ := h e he pid heq
      cases eq_of_key_eq hp hpath rfl
      cases hdcid.symm.trans hp'
    have hmore : ∀ {d : Option Nat}, ∀ r ∈ pids, ∃ p, (r, p) ∈ (c.setDcid pid d).paths ∧ p.dcidSeq = none := by
      intro d r hr
      obtain ⟨p, hp, hp'⟩ := hrest r hr
      refine ⟨p, mem_setDcid_of_ne ?_ hp, hp'⟩
      rintro rfl
      exact hhead hr
    unfold Conn.allocate
    split
    · exact ih hn hmore (h.setDcid hfree (some 0))
    split
    · exact h
    rename_i seq hlow
    rw [markDcidUsed_eq ((lowestUnusedDcidSeq_eq_some hlow).imp fun _ he => ⟨he.1, he.2.1⟩)]
    exact ih hn hmore (h.assign hfree (mem_setDcid_self _ hpath) fun _ _ => mem_setDcid_of_ne)

theorem Owned.tryAllocateCidsFromPeer (h : Owned c) : Owned c.tryAllocateCidsFromPeer := by
  refine h.allocate ?_ fun pid hpid => ?_
  · have hkeys := List.pairwise_map.mpr (c.paths.ordered.imp ne_of_lt)
    exact (List.filter_sublist.map _).nodup hkeys
  obtain ⟨⟨pid', p⟩, hp, rfl⟩ := mem_map.mp hpid
  obtain ⟨hmem, hnone⟩ := List.mem_filter.mp hp
  exact ⟨p, hmem, isNone_iff_eq_none.mp hnone⟩

theorem Owned.addPath (h : Owned c) (hnew : ∀ p, (pid, p) ∉ c.paths) (hs : c.addPath pid = .ok c') : Owned c' := by
  have hfree : ∀ e ∈ c.cids.dcids.queue, e.pathId ≠ some pid := by
    intro e he heq
    obtain ⟨p, hp, -⟩ := h e he pid heq
    exact hnew p hp
  have hpaths : ∀ {v : Path} pid' p, pid' ≠ pid → (pid', p) ∈ c.paths → (pid', p) ∈ c.paths.insert pid v :=
    fun pid' p hne hp => mem_insert.mpr (.inr ⟨hp, hne⟩)
  unfold Conn.addPath at hs
  dsimp only at hs
  split at hs
  · rename_i seq hseq
    unfold ConnectionIdMgr.markDcidUsed at hs
    split at hs
    · cases hs
    rename_i cids hmark
    split at hmark
    · cases hmark
      cases hs
      exact h.assign hfree ⟨_, mem_insert.mpr (.inl rfl), hseq⟩ hpaths
    · cases hmark
  cases hs
  intro e he pid' hpid'
  obtain ⟨p, hp, hseq⟩ := h e he pid' hpid'
  refine ⟨p, hpaths pid' p ?_ hp, hseq⟩
  rintro rfl
  exact hfree e he hpid'

end Owned

/-! ## The loop -/

/-- An iteration that does not meet the path's own ID takes the ID at the front out of the queue. -/
theorem retireOne_decreasing {d : Option Nat} (w w' : Writer) (h : ∀ s ∈ w.cids.dcidsToRetire, d ≠ some s)
    (hs : retireOne d w = .continue w') : (∀ s ∈ w'.cids.dcidsToRetire, d ≠ some s) ∧
      w'.cids.dcidsToRetire.length < w.cids.dcidsToRetire.length := by
  obtain ⟨seq, hnext, ⟨heq, -⟩ | ⟨-, hcids, -⟩⟩ := retireOne_continue hs
  · exact absurd heq (h seq (List.mem_of_mem_head? hnext))
  have hqueue : w'.cids.dcidsToRetire = w.cids.dcidsToRetire.filter (· ≠ seq) := by
    rw [hcids]
    rfl
  rw [hqueue]
  refine ⟨fun s hs => h s (List.mem_of_mem_filter hs), ?_⟩
  rw [List.length_filter_lt_length_iff_exists]
  exact ⟨seq, List.mem_of_mem_head? hnext, by simp⟩

/-! ## The invariant -/

/-- The sequence numbers in use are at or above `largest_peer_retire_prior_to`, the retired ones below. -/
structure Bounded (c : Conn) : Prop where
  nodup : (c.cids.dcids.queue.map (·.seq)).Nodup
  active : ∀ e ∈ c.cids.dcids.queue, c.cids.largestPeerRetirePriorTo ≤ e.seq
  queued : ∀ s ∈ c.cids.dcidsToRetire, s < c.cids.largestPeerRetirePriorTo
  inFlight : ∀ s ∈ c.retiresInFlight, s < c.cids.largestPeerRetirePriorTo
  zeroLength : c.cids.zeroLengthDcid = true → c.cids.largestPeerRetirePriorTo = 0

structure Inv (c : Conn) : Prop extends Bounded c where
  linked : c.cids.zeroLengthDcid = false → Linked [] c
  owned : Owned c

theorem Bounded.relabels {c c' : Conn} (h : Bounded c) (hr : Relabels c c') : Bounded c' := by
  refine ⟨hr.seqs ▸ h.nodup, ?_, ?_, ?_, ?_⟩
  · rw [hr.largestPeerRetirePriorTo]
    exact forall_mem_of_seqs_eq hr.seqs h.active
  · rw [hr.largestPeerRetirePriorTo, hr.dcidsToRetire]
    exact h.queued
  · rw [hr.largestPeerRetirePriorTo, hr.retiresInFlight]
    exact h.inFlight
  · rw [hr.largestPeerRetirePriorTo, hr.zeroLengthDcid]
    exact h.zeroLength

namespace Inv

variable {c c' : Conn}

theorem retirement (h : Inv c) : Retirement c where
  disjoint e he hmem := by
    have hge := h.active e he
    have hlt := h.queued _ hmem
    omega
  kept := h.active
  terminates pid p hp hactive w hw := by
    apply terminates_of_decreasing retireOne_decreasing
    intro s hs heq
    rw [hw] at hs
    have hlt := h.queued s hs
    cases hzero : c.cids.zeroLengthDcid with
    | true =>
      rw [h.zeroLength hzero] at hlt
      omega
    | false =>
      obtain ⟨e, he, hseq, -⟩ | hnil := h.linked hzero pid p s hp heq
      · have hge := h.active e he
        omega
      · cases hnil

/-- A call that does not concern destination IDs, apart from RETIRE_CONNECTION_ID frames that leave the queue or
arrive. -/
theorem congr (h : Inv c) (hdcids : c'.cids.dcids = c.cids.dcids)
    (hzero : c'.cids.zeroLengthDcid = c.cids.zeroLengthDcid)
    (hlargest : c'.cids.largestPeerRetirePriorTo = c.cids.largestPeerRetirePriorTo)
    (hqueue : ∀ s ∈ c'.cids.dcidsToRetire, s ∈ c.cids.dcidsToRetire ∨ s ∈ c.retiresInFlight)
    (hflight : ∀ s ∈ c'.retiresInFlight, s ∈ c.cids.dcidsToRetire ∨ s ∈ c.retiresInFlight)
    (hpaths : ∀ pid seq, (∃ p, (pid, p) ∈ c'.paths ∧ p.dcidSeq = some seq) ↔
      ∃ p, (pid, p) ∈ c.paths ∧ p.dcidSeq = some seq) : Inv c' := by
  refine ⟨⟨?_, ?_, ?_, ?_, ?_⟩, ?_, ?_⟩
  · rw [hdcids]
    exact h.nodup
  · rw [hdcids, hlargest]
    exact h.active
  · intro s hs
    rw [hlargest]
    exact (hqueue s hs).elim (h.queued s) (h.inFlight s)
  · intro s hs
    rw [hlargest]
    exact (hflight s hs).elim (h.queued s) (h.inFlight s)
  · rw [hzero, hlargest]
    exact h.zeroLength
  · rw [hzero]
    intro hz pid p seq hmem hseq
    obtain ⟨p', hmem', hseq'⟩ := (hpaths pid seq).mp ⟨p, hmem, hseq⟩
    rw [hdcids]
    exact h.linked hz pid p' seq hmem' hseq'
  intro e he pid hpid
  rw [hdcids] at he
  exact (hpaths pid e.seq).mpr (h.owned e he pid hpid)

end Inv

/-! ## A NEW_CONNECTION_ID frame -/

section NewConnectionId

variable {c c' : Conn} {rpt : Nat} {e : ConnectionIdItem}

/-- A new item at or above `largest_peer_retire_prior_to`. -/
theorem Inv.pushDcid (h : Inv c) (hge : c.cids.largestPeerRetirePriorTo ≤ e.seq) (hnone : e.pathId = none)
    (hnew : ∀ a ∈ c.cids.dcids.queue, a.seq ≠ e.seq) : Inv { c with cids := c.cids.pushDcid e } := by
  refine ⟨⟨nodup_append_item h.nodup hnew, ?_, h.queued, h.inFlight, h.zeroLength⟩, ?_, ?_⟩
  · exact forall_mem_append.mpr ⟨h.active, forall_mem_singleton.mpr hge⟩
  · intro hz pid p seq hp hs
    obtain ⟨a, ha, hlink⟩ | hnil := h.linked hz pid p seq hp hs
    · exact .inl ⟨a, List.mem_append_left _ ha, hlink⟩
    · cases hnil
  exact forall_mem_append.mpr ⟨h.owned, forall_mem_singleton.mpr fun pid hpid => by cases hnone.symm.trans hpid⟩

variable {m : ConnectionIdMgr}

/-- The items that a larger `retire_prior_to` leaves, and the new one. -/
theorem mem_retireLower {a : ConnectionIdItem} :
    a ∈ ((m.retireLower rpt).2.pushDcid e).dcids.queue ↔ (a ∈ m.dcids.queue ∧ ¬ a.seq < rpt) ∨ a = e := by
  simp [ConnectionIdMgr.pushDcid, ConnectionIdMgr.retireLower, ConnectionIdDeque.removeLower]

theorem mem_retired {seq pid : Nat} :
    (seq, pid) ∈ (m.retireLower rpt).1 ↔ ∃ a ∈ m.dcids.queue, a.seq < rpt ∧ a.pathId = some pid ∧ a.seq = seq := by
  simp [ConnectionIdMgr.retireLower, ConnectionIdDeque.removeLower, and_assoc]

section

variable (hlarger : c.cids.largestPeerRetirePriorTo < rpt) (hseq : rpt ≤ e.seq)
  (hnew : ∀ a ∈ c.cids.dcids.queue, a.seq ≠ e.seq) (hz : c.cids.zeroLengthDcid = false)
include hlarger hseq hnew hz

theorem Bounded.retireLower (h : Bounded c) :
    Bounded { c with cids := (c.cids.retireLower rpt).2.pushDcid e } where
  nodup := nodup_append_item ((List.filter_sublist.map _).nodup h.nodup) fun a ha => hnew a (List.mem_of_mem_filter ha)
  active a ha := by
    obtain ⟨-, hge⟩ | rfl := mem_retireLower.mp ha
    · exact not_lt.mp hge
    · exact hseq
  queued s hs := by
    show s < rpt
    obtain hold | hnew := mem_append.mp hs
    · exact (h.queued s hold).trans hlarger
    obtain ⟨a, ha, rfl⟩ := mem_map.mp hnew
    simpa using (List.mem_filter.mp ha).2
  inFlight s hs := (h.inFlight s hs).trans hlarger
  zeroLength hzero := by cases hz.symm.trans hzero

/-- The peer asks for IDs back: each of their paths is found and gets another ID. -/
theorem Inv.retireLower (h : Inv c) (hnone : e.pathId = none) :
    ∃ c', reassign (c.cids.retireLower rpt).1 { c with cids := (c.cids.retireLower rpt).2.pushDcid e } = .ok c' ∧
      Inv c' := by
  have hbounded := h.toBounded.retireLower hlarger hseq hnew hz
  have hlinked : Linked (c.cids.retireLower rpt).1 { c with cids := (c.cids.retireLower rpt).2.pushDcid e } := by
    intro pid p seq hp hs
    obtain ⟨a, ha, haseq, hapid⟩ | hnil := h.linked hz pid p seq hp hs
    · by_cases hlt : a.seq < rpt
      · exact .inr (mem_retired.mpr ⟨a, ha, hlt, hapid, haseq⟩)
      · exact .inl ⟨a, mem_retireLower.mpr (.inl ⟨ha, hlt⟩), haseq, hapid⟩
    · cases hnil
  have howned : Owned { c with cids := (c.cids.retireLower rpt).2.pushDcid e } := by
    intro a ha pid hpid
    obtain ⟨ha, -⟩ | rfl := mem_retireLower.mp ha
    · exact h.owned a ha pid hpid
    · cases hnone.symm.trans hpid
  have hretired : ∀ r ∈ (c.cids.retireLower rpt).1,
      r.1 ∉ ((c.cids.retireLower rpt).2.pushDcid e).dcids.queue.map (·.seq) ∧ ∃ p, (r.2, p) ∈ c.paths := by
    intro r hr
    obtain ⟨a, ha, hlt, hpid, haseq⟩ := mem_retired.mp hr
    refine ⟨fun hkept => ?_, (h.owned a ha r.2 hpid).imp fun _ hp => hp.1⟩
    obtain ⟨b, hb, hbseq⟩ := mem_map.mp hkept
    obtain ⟨-, hge⟩ | rfl := mem_retireLower.mp hb
    · omega
    · omega
  obtain ⟨c', hr, howned'⟩ := howned.reassign hretired
  obtain ⟨hrel, hlink⟩ := hlinked.reassign hbounded.nodup hr
  exact ⟨c', hr, hbounded.relabels hrel, fun _ => hlink, howned'⟩

end

/-- A frame that `add_dcid` accepts is accepted. -/
theorem Inv.recvNewConnectionId (h : Inv c) {cid : ConnectionId} {seq : Nat} {token : ResetToken}
    {retired : List (Nat × Nat)} (hok : c.NotRepeated (.newConnectionId cid seq token rpt))
    (hadd : c.cids.addDcid cid seq token rpt = (.ok retired, m)) :
    ∃ c', c.recvNewConnectionId cid seq token rpt = .ok c' ∧ Inv c' := by
  have hz : c.cids.zeroLengthDcid = false := by
    rw [← Bool.not_eq_true]
    intro hz
    rw [ConnectionIdMgr.addDcid, if_pos hz] at hadd
    cases hadd
  unfold Conn.recvNewConnectionId
  rw [hz, hadd]
  obtain ⟨rfl, rfl, -⟩ | ⟨hlt, -, rfl, rfl⟩ |
      ⟨hnew, hrpt, e, rfl, hnone, ⟨-, hrep, rfl, rfl⟩ | ⟨hlarger, rfl, rfl⟩⟩ := addDcid_cases hadd
  · exact ⟨_, rfl, h⟩
  · exact ⟨_, rfl, { h with queued := forall_mem_append.mpr ⟨h.queued, forall_mem_singleton.mpr hlt⟩ }⟩
  · refine ⟨_, rfl, h.pushDcid ?_ hnone hnew⟩
    by_contra hlt
    exact hok (not_le.mp hlt) (hrep (not_le.mp hlt))
  · exact h.retireLower hlarger hrpt hnew hz hnone

end NewConnectionId

/-! ## Runs -/

theorem Inv.sameDcids {c : Conn} {m : ConnectionIdMgr} (h : Inv c) (hsame : SameDcids c.cids m) :
    Inv { c with cids := m } :=
  h.congr hsame.dcids hsame.zeroLengthDcid hsame.largestPeerRetirePriorTo
    (fun _ hs => .inl (hsame.dcidsToRetire ▸ hs)) (fun _ hs => .inr hs) fun _ _ => .rfl

theorem Inv.step {c c' : Conn} {l : Call} (h : Inv c) (hok : c.NotRepeated l) (hs : c.step l = some c') : Inv c' := by
  cases l with
  | addScid cid token advertise pathId retire =>
    cases hs
    exact h.sameDcids (sameDcids_addScid c.cids cid token advertise pathId retire)
  | retireScid seq pktDcid =>
    cases hs
    exact h.sameDcids (sameDcids_retireScid c.cids seq pktDcid)
  | setScidLimit limit =>
    cases hs
    exact { h with }
  | newCidAcked seq | newCidLost seq =>
    simp only [Conn.step] at hs
    split at hs
    · cases hs
      exact { h with }
    · cases hs
  | newConnectionId cid seq token rpt =>
    obtain ⟨retired, m, hadd, -⟩ := step_newConnectionId hs
    obtain ⟨c'', hrecv, h'⟩ := h.recvNewConnectionId hok hadd
    simp only [Conn.step, hrecv] at hs
    cases hs
    exact h'
  | retireAcked seq =>
    simp only [Conn.step] at hs
    split at hs
    · cases hs
      exact h.congr rfl rfl rfl (fun s hs => .inl hs) (fun s hs => .inr (List.mem_of_mem_erase hs)) fun _ _ => .rfl
    · cases hs
  | retireLost seq =>
    obtain ⟨hmem, ⟨⟩⟩ := ite_none_right_eq_some.mp hs
    exact h.congr rfl rfl rfl (forall_mem_append.mpr ⟨fun s hs => .inl hs, forall_mem_singleton.mpr (.inr hmem)⟩)
      (fun s hs => .inr (List.mem_of_mem_erase hs)) fun _ _ => .rfl
  | tryAllocateCidsFromPeer =>
    cases hs
    obtain ⟨hrel, hlink⟩ := Linked.allocate h.nodup
    exact ⟨h.toBounded.relabels hrel,
      fun hz => hlink (hrel.zeroLengthDcid ▸ hz) (h.linked (hrel.zeroLengthDcid ▸ hz)),
      h.owned.tryAllocateCidsFromPeer⟩
  | addPath pid =>
    obtain ⟨hfresh, hadd⟩ := step_addPath hs
    obtain ⟨hrel, hlink⟩ := Linked.addPath h.nodup hadd
    exact ⟨h.toBounded.relabels hrel,
      fun hz => hlink (hrel.zeroLengthDcid ▸ hz) (h.linked (hrel.zeroLengthDcid ▸ hz)),
      h.owned.addPath hfresh hadd⟩
  | newPath pid =>
    obtain ⟨hfresh, hs⟩ := ite_none_right_eq_some.mp hs
    rw [isNone_iff_eq_none, find_eq_none] at hfresh
    cases hs
    refine h.congr rfl rfl rfl (fun s hs => .inl hs) (fun s hs => .inr hs) fun pid' seq => ⟨?_, ?_⟩
    · rintro ⟨p, hp, hseq⟩
      obtain heq | ⟨hp, -⟩ := mem_insert.mp hp
      · cases heq
        cases hseq
      · exact ⟨p, hp, hseq⟩
    · rintro ⟨p, hp, hseq⟩
      exact ⟨p, mem_insert.mpr (.inr ⟨hp, fun heq => hfresh p (heq ▸ hp)⟩), hseq⟩
  | removePath pid =>
    obtain ⟨hunused, ⟨⟩⟩ := ite_none_right_eq_some.mp hs
    refine h.congr rfl rfl rfl (fun s hs => .inl hs) (fun s hs => .inr hs) fun pid' seq => ⟨?_, ?_⟩
    · rintro ⟨p, hp, hseq⟩
      exact ⟨p, (mem_erase.mp hp).1, hseq⟩
    rintro ⟨p, hp, hseq⟩
    refine ⟨p, mem_erase.mpr ⟨hp, ?_⟩, hseq⟩
    rintro rfl
    rw [find_eq_some.mpr hp] at hunused
    simp [Path.unused, hseq] at hunused
  | setActive pid enabled =>
    cases hs
    refine h.congr rfl rfl rfl (fun s hs => .inl hs) (fun s hs => .inr hs) fun pid' seq => ⟨?_, ?_⟩
    · rintro ⟨p, hp, hseq⟩
      obtain ⟨v, hv, heq⟩ | ⟨hp, -⟩ := mem_modify.mp hp
      · cases heq
        exact ⟨v, hv, hseq⟩
      · exact ⟨p, hp, hseq⟩
    rintro ⟨p, hp, hseq⟩
    by_cases heq : pid' = pid
    · subst heq
      exact ⟨_, mem_modify.mpr (.inl ⟨p, hp, rfl⟩), hseq⟩
    · exact ⟨p, mem_modify.mpr (.inr ⟨hp, heq⟩), hseq⟩
  | write pid left =>
    simp only [Conn.step, map_eq_some_iff] at hs
    obtain ⟨path, -, rfl⟩ := hs
    have hw := wrote_tryWriteCidControlFrame c path left
    refine h.congr hw.dcids hw.zeroLengthDcid hw.largestPeerRetirePriorTo (fun s hs => .inl (hw.dcidsToRetire hs)) ?_
      fun _ _ => .rfl
    intro s hs
    obtain hs | hs := mem_append.mp hs
    · exact .inr hs
    obtain ⟨f, hf, heq⟩ := List.mem_filterMap.mp hs
    split at heq
    · cases heq
      exact .inl (hw.retired s hf)
    · cases heq

theorem inv_new (dcidLimit : Nat) (scid : ConnectionId) (scidToken : Option ResetToken) (dcid : ConnectionId)
    (dcidToken : Option ResetToken) : Inv (new dcidLimit scid scidToken dcid dcidToken) where
  nodup := List.nodup_singleton 0
  active _ _ := Nat.zero_le _
  queued s hs := nomatch hs
  inFlight s hs := nomatch hs
  zeroLength _ := rfl
  linked _ pid p seq hp hs := by
    obtain heq | ⟨hp, -⟩ := mem_insert.mp hp
    · cases heq
      cases hs
      exact .inl ⟨_, List.mem_singleton_self _, rfl, rfl⟩
    · simp at hp
  owned e he pid hpid := by
    cases mem_singleton.mp he
    cases hpid
    exact ⟨_, mem_insert.mpr (.inl rfl), rfl⟩

/-- A repeated ID that is accepted is active and to be retired. -/
theorem notRepeated_of_retirement {c c' : Conn} {l : Call} (h : Inv c) (hs : c.step l = some c') (hr : Retirement c') :
    c.NotRepeated l := by
  cases l with
  | newConnectionId cid seq token rpt =>
    intro hlt hmem
    obtain ⟨retired, m, hadd, hs⟩ := step_newConnectionId hs
    obtain ⟨-, -, a, ha, rfl⟩ | ⟨-, hnot, -⟩ | ⟨-, hrpt, e, rfl, -, ⟨-, -, rfl, rfl⟩ | ⟨hlarger, -⟩⟩ :=
      addDcid_cases hadd
    · have := h.active a ha
      omega
    · exact hnot hmem
    · cases hs
      exact hr.disjoint e (List.mem_append_right _ (List.mem_singleton_self e)) hmem
    · omega
  | _ => trivial

/-- In every run of accepted frames, the IDs are retired as they should be exactly as long as no frame repeats an ID
that waits for its retirement. -/
theorem retirement_iff (dcidLimit : Nat) (scid : ConnectionId) (scidToken : Option ResetToken) (dcid : ConnectionId)
    (dcidToken : Option ResetToken) {ls : List Call} {c : Conn}
    (hr : LTS.run step (new dcidLimit scid scidToken dcid dcidToken) ls = some c) :
    LTS.Ensures step (fun _ c => c.Retirement) (new dcidLimit scid scidToken dcid dcidToken) ls ↔
      LTS.Along step NotRepeated (new dcidLimit scid scidToken dcid dcidToken) ls := by
  have hpost : ∀ (c : Conn) l c', Inv c → c.step l = some c' → (c'.Retirement ↔ c.NotRepeated l) := by
    intro c l c' h hs
    exact ⟨notRepeated_of_retirement h hs, fun hok => (h.step hok hs).retirement⟩
  exact LTS.ensures_iff_along hpost (fun _ _ _ h hok hs => h.step hok hs) (inv_new _ _ _ _ _) hr

def established : Conn := new 2 (ConnectionId.new [16]) none (ConnectionId.new [0]) none

/-- The peer gives the ID number `seq`. -/
def given (seq : UInt8) (retirePriorTo : Nat) : Call :=
  .newConnectionId (ConnectionId.new [seq]) seq.toNat (Vector.replicate 16 seq) retirePriorTo

/-- The peer replaces ID 0. The frame that retires it is lost, and ID 1 comes late and twice. -/
def replaced : List Call :=
  [given 2 2, .write 0 1200, .retireLost 0, given 1 0, .write 0 1200, .retireAcked 1, given 1 0, .write 0 1200]

theorem retirement_iff_replaced : LTS.Ensures step (fun _ c => c.Retirement) established replaced ∧
      ∃ c, LTS.run step established replaced = some c ∧ c.cids.dcids.queue.map (·.seq) = [2] ∧
        c.cids.dcidsToRetire = [] ∧ c.retiresInFlight = [0, 1] := by
  refine ⟨(retirement_iff 2 _ none _ none rfl).mpr ?_, _, rfl, by decide +kernel⟩
  repeat apply LTS.Along.cons (by decide +kernel) rfl
  trivial

/-- The late frame comes twice before a packet is sent: ID 1 is taken by a new path, on which no RETIRE_CONNECTION_ID
frame for it can be written. -/
theorem repeated_id_used :
    ∃ c, LTS.run step established [given 2 2, given 1 0, given 1 0, .newPath 1, .setActive 1 true,
          .tryAllocateCidsFromPeer] = some c ∧
      c.cids.dcids.queue.map (·.seq) = [2, 1] ∧ c.cids.dcidsToRetire = [0, 1] ∧
      c.cids.largestPeerRetirePriorTo = 2 ∧
      ∃ p, c.paths.find 1 = some p ∧ p.active = true ∧
        ¬ LTS.Terminates (iterate (retireOne p.dcidSeq)) { cids := c.cids, left := 1200 } := by
  refine ⟨_, rfl, by decide +kernel, by decide +kernel, by decide +kernel, _, rfl, by decide +kernel, ?_⟩
  intro h
  -- RETIRE_CONNECTION_ID is written for ID 0, and ID 1 is at the front
  exact LTS.not_terminates_of_loop (l := ()) rfl (h.next (l := ()) rfl)

end Conn

end MoqQuic.L3.Tquic.Cid
