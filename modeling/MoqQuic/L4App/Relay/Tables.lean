import MoqQuic.L4App.Relay.Handler

/-!
# The tables of the relay

`Close` takes a session out of `sm.sessions` and leaves its namespaces in
`sm.namespaces` (`removePublisher` is never called), so a Subscribe for them
is forwarded to the closed session. A session id is random and is not checked
either: a session under the id of another one replaces it.

`GetStreamID` joins the namespace and the track with an underscore, and both
may have underscores themselves.

Results:
* `namespaces_live_iff`: every entry of `sm.namespaces` is a session of
  `sm.sessions`, and Subscribes are forwarded to such sessions only, exactly
  in the runs where no publisher is closed, none announces after it was
  closed and no new session takes the id of one.
* `stream_shared_only_by_track`: two tracks have one stream id exactly if the
  underscore can be read in two ways, and without such a pair only
  subscriptions of one track share a relay stream.
-/
namespace MoqQuic.L4.Moqt
open Reader (Bytes)
open L1.Quicvarint (GoString)
open L3.Moqt Multiset Table Option

namespace Relay

variable {r r' : Relay} {e : Event} {h : Ref}

/-! ## Publishers -/

theorem inSessions_congr (hid : r'.idOf h = r.idOf h) (hs : r'.sessions = r.sessions) :
    r'.InSessions h ↔ r.InSessions h := by
  unfold InSessions
  rw [hid, hs]

structure ServesLive (r : Relay) : Prop where
  namespaces : ∀ ns h, r.namespaces.lookup ns = some h → r.InSessions h
  subscribes : ∀ h m, (h, Message.subscribe m) ∈ r.sent → r.InSessions h

/-- A new session has no publisher's id, an announcement comes from a session of `sm.sessions`, and no publisher is
closed. -/
def SparesPublishers (r : Relay) : Event → Prop
  | .createSession id => ∀ ns h, r.namespaces.lookup ns = some h → r.idOf h ≠ some id
  | .announce h _ => r.InSessions h
  | .close h _ => ∀ ns pub, r.namespaces.lookup ns = some pub → r.idOf pub ≠ r.idOf h
  | _ => True

/-- Nothing but the table has to be looked at after a call that forwards no Subscribe. -/
theorem servesLive_iff (hsent : ∀ h m, (h, Message.subscribe m) ∉ r.sent) :
    r.ServesLive ↔ ∀ ns h, r.namespaces.lookup ns = some h → r.InSessions h :=
  ⟨fun hl => hl.namespaces, fun hns => ⟨hns, fun h m hmem => absurd hmem (hsent h m)⟩⟩

theorem servesLive_createSession {id : SessionId} (hl : r.ServesLive) :
    ({ r with sent := 0 }.createSession id).ServesLive ↔ r.SparesPublishers (.createSession id) := by
  rw [servesLive_iff (fun _ _ => notMem_zero _)]
  refine forall₂_congr fun ns h => forall_congr' fun hns => ?_
  obtain ⟨i, hi, hlook⟩ := inSessions_iff.mp (hl.namespaces ns h hns)
  -- a publisher is allocated, so it is not the new session
  have hne : h ≠ r.handlers.length := by
    rintro rfl
    simp [idOf] at hi
  simp only [inSessions_iff, idOf_createSession, if_neg hne]
  change (∃ j, r.idOf h = some j ∧ (r.sessions.insert id r.handlers.length).lookup j = some h) ↔ r.idOf h ≠ some id
  simp only [hi, lookup_insert_eq, some.injEq, exists_eq_left', ne_eq]
  split
  · next heq => simp [heq, Ne.symm hne]
  · next heq => simp [heq, hlook]

theorem servesLive_announce {id : SessionId} {m : Announce} (hl : r.ServesLive) :
    ({ r with sent := 0 }.handleAnnounce h id m).ServesLive ↔ r.InSessions h := by
  rw [servesLive_iff]
  · change (∀ ns x, (r.namespaces.insert m.trackNameSpace.data h).lookup ns = some x → r.InSessions x) ↔ _
    simp only [lookup_insert_eq]
    constructor
    · intro hns
      exact hns m.trackNameSpace.data h (if_pos rfl)
    intro hin ns x hx
    split at hx
    · exact some.inj hx ▸ hin
    · exact hl.namespaces ns x hx
  · simp [handleAnnounce, write]

theorem servesLive_close {id : SessionId} {order : List Nat} (hid : r.idOf h = some id) (hl : r.ServesLive) :
    ({ r with sent := 0 }.close h id order).ServesLive ↔ r.SparesPublishers (.close h order) := by
  obtain ⟨streams, heq⟩ := handleClose_eq h id order { r with sent := 0 }
  rw [servesLive_iff] <;> simp only [close, heq]
  · refine forall₂_congr fun ns pub => forall_congr' fun hns => ?_
    obtain ⟨i, hi, hlook⟩ := inSessions_iff.mp (hl.namespaces ns pub hns)
    rw [inSessions_iff, hid]
    change (∃ j, r.idOf pub = some j ∧ (r.sessions.erase id).lookup j = some pub) ↔ r.idOf pub ≠ some id
    simp only [hi, lookup_erase_eq, some.injEq, exists_eq_left', ne_eq]
    split
    · next heq => simp [heq]
    · next heq => simp [heq, hlook]
  · exact fun _ _ => notMem_zero _

/-- After a call that changes neither table, the Subscribes that were forwarded went to publishers. -/
theorem ServesLive.of_same (hl : r.ServesLive) (hid : ∀ x, r'.idOf x = r.idOf x) (hs : r'.sessions = r.sessions)
    (hns : r'.namespaces = r.namespaces)
    (hsent : ∀ h m, (h, Message.subscribe m) ∈ r'.sent → ∃ ns, r.namespaces.lookup ns = some h) : r'.ServesLive where
  namespaces ns h hlook := (inSessions_congr (hid h) hs).mpr (hl.namespaces ns h (hns ▸ hlook))
  subscribes h m hmem := by
    obtain ⟨ns, hlook⟩ := hsent h m hmem
    exact (inSessions_congr (hid h) hs).mpr (hl.namespaces ns h hlook)

theorem ServesLive.subscribe {m : Subscribe} {order : List Nat} {rand : UInt32} (hl : r.ServesLive)
    (hs : r.step (.subscribe h m order rand) = some r') : r'.ServesLive := by
  obtain ⟨id, -, rfl | ⟨pub, hpub, ⟨-, rfl⟩ | ⟨u, rs, m', ok, -, -, -, rfl⟩⟩⟩ := step_subscribe hs
  · exact hl.of_same (fun _ => rfl) rfl rfl fun h m hmem => absurd hmem (notMem_zero _)
  · refine hl.of_same (fun x => (idOf_attach x).trans (idOf_sendSubscribe x)) rfl rfl fun x m' hmem => ?_
    change _ ∈ (pub, _) ::ₘ (0 : Multiset (Ref × Message)) at hmem
    rcases mem_cons.mp hmem with heq | hnone
    · cases heq
      exact ⟨_, hpub⟩
    · exact absurd hnone (notMem_zero _)
  refine hl.of_same (fun x => idOf_attach x) rfl rfl fun x m'' hmem => ?_
  change _ ∈ (h, Message.subscribeOk ok) ::ₘ (0 : Multiset (Ref × Message)) at hmem
  rcases mem_cons.mp hmem with heq | hnone
  · cases heq
  · exact absurd hnone (notMem_zero _)

theorem servesLive_step_iff (hl : r.ServesLive) (hs : r.step e = some r') : r'.ServesLive ↔ r.SparesPublishers e := by
  obtain ⟨-, hh⟩ := step_eq_some.mp hs
  cases e with
  | createSession id =>
    cases hh
    exact servesLive_createSession hl
  | announce h m =>
    obtain ⟨id, -, rfl⟩ := map_eq_some_iff.mp hh
    exact servesLive_announce hl
  | close h order =>
    obtain ⟨id, hid, rfl⟩ := map_eq_some_iff.mp hh
    exact servesLive_close hid hl
  | subscribe h m order rand => exact iff_of_true (hl.subscribe hs) trivial
  | setRemoteRole h role =>
    have hsame := same_step hs (by simp) (by simp)
    cases hh
    refine iff_of_true (hl.of_same hsame.idOf rfl rfl fun h m hmem => ?_) trivial
    exact absurd hmem (notMem_zero _)
  | subscribeOk h m orders =>
    cases hh
    refine iff_of_true (hl.of_same (fun _ => rfl) rfl rfl fun h m hmem => ?_) trivial
    simp [handleSubscribeOk] at hmem
  | unsubscribe h m =>
    have hsame := same_step hs (by simp) (by simp)
    obtain ⟨id, -, rfl⟩ := map_eq_some_iff.mp hh
    obtain ⟨streams, heq⟩ := leave_eq { r with sent := 0 } h id m.subscriptionID
    refine iff_of_true (hl.of_same hsame.idOf ?_ ?_ fun h m hmem => ?_) trivial
    · rw [handleUnsubscribe, heq]
    · rw [handleUnsubscribe, heq]
    rw [handleUnsubscribe, heq] at hmem
    exact absurd hmem (notMem_zero _)
  | objectStream h subid orders =>
    cases hh
    refine iff_of_true (hl.of_same (fun _ => rfl) rfl rfl fun h m hmem => ?_) trivial
    exact absurd hmem (notMem_zero _)

theorem servesLive_empty : ServesLive {} := by
  refine ⟨fun ns h hns => ?_, fun h m hmem => absurd hmem (notMem_zero _)⟩
  simp at hns

/-- The namespaces of the relay are served by sessions that are there, and Subscribes go to such sessions only, as long
as no publisher is closed, announces after that, or loses its session id to a new session. -/
theorem namespaces_live_iff {ls : List Event} {r : Relay} (hr : LTS.run step {} ls = some r) :
    LTS.Ensures step (fun _ => ServesLive) {} ls ↔ LTS.Along step SparesPublishers {} ls := by
  have hstep : ∀ r e r', ServesLive r → r.step e = some r' → (ServesLive r' ↔ r.SparesPublishers e) :=
    fun r e r' => servesLive_step_iff
  exact LTS.ensures_iff_along hstep (fun r e r' hl hok hs => (hstep r e r' hl hs).mpr hok) servesLive_empty hr

/-- A subscriber comes and goes, its publisher stays. -/
theorem namespaces_live_iff_subscriber_closed :
    LTS.Ensures step (fun _ => ServesLive) {} [.createSession [1], .createSession [2],
      .announce 0 { trackNameSpace := ⟨[0x61], by decide⟩ },
      .subscribe 1 { trackNameSpace := ⟨[0x61], by decide⟩ } [] 7, .close 1 [0]] := by
  refine (namespaces_live_iff rfl).mpr ?_
  refine .cons (fun ns h hns => ?_) rfl (.cons (fun ns h hns => ?_) rfl (.cons ?_ rfl (.cons trivial rfl
    (.cons (fun ns pub hns => ?_) rfl trivial))))
  · cases hns
  · cases hns
  · change InSessions _ 0
    decide +kernel
  change (Finmap.insert [0x61] 0 (∅ : Table Bytes Ref)).lookup ns = some pub at hns
  rw [lookup_insert_eq] at hns
  split at hns
  · cases hns
    decide
  · cases hns

/-- The publisher is closed, and a Subscribe for its namespace is still forwarded to it. -/
theorem subscribe_to_closed_publisher :
    ∃ r, LTS.run step {} [.createSession [1], .announce 0 { trackNameSpace := ⟨[0x61], by decide⟩ }, .close 0 [],
        .createSession [2], .subscribe 1 { trackNameSpace := ⟨[0x61], by decide⟩ } [] 7] = some r ∧
      r.namespaces.lookup [0x61] = some 0 ∧ ¬ r.InSessions 0 ∧
      (0, Message.subscribe { trackNameSpace := ⟨[0x61], by decide⟩, subscribeID := 7 }) ∈ r.sent := by
  refine ⟨_, rfl, ?_⟩
  decide +kernel

end Relay

/-! ## Stream ids -/

/-- A separator between two parts can be read in another place if it also stands inside one of them. -/
theorem append_cons_eq_append_cons_iff {α : Type} {sep : α} {n t n' t' : List α} : n ++ sep :: t = n' ++ sep :: t' ↔
      n = n' ∧ t = t' ∨
        ∃ mid, n' = n ++ sep :: mid ∧ t = mid ++ sep :: t' ∨ n = n' ++ sep :: mid ∧ t' = mid ++ sep :: t := by
  constructor
  · intro heq
    rcases List.append_eq_append_iff.mp heq with ⟨_ | ⟨b, mid⟩, hn, ht⟩ | ⟨_ | ⟨b, mid⟩, hn, ht⟩
    · exact .inl ⟨by simpa using hn.symm, by simpa using ht⟩
    · obtain ⟨rfl, rfl⟩ := List.cons.inj ht
      exact .inr ⟨mid, .inl ⟨hn, rfl⟩⟩
    · exact .inl ⟨by simpa using hn, by simpa using ht.symm⟩
    · obtain ⟨rfl, rfl⟩ := List.cons.inj ht
      exact .inr ⟨mid, .inr ⟨hn, rfl⟩⟩
  rintro (⟨rfl, rfl⟩ | ⟨mid, ⟨rfl, rfl⟩ | ⟨rfl, rfl⟩⟩)
  · rfl
  · simp
  · simp

/-- The underscore of the stream id also stands in the one namespace or in the one track, so that the names can be
taken for each other. -/
def Confusable (n t n' t' : GoString) : Prop :=
  ∃ mid, n'.data = n.data ++ 0x5F :: mid ∧ t.data = mid ++ 0x5F :: t'.data ∨
    n.data = n'.data ++ 0x5F :: mid ∧ t'.data = mid ++ 0x5F :: t.data

variable {n t n' t' : GoString}

theorem streamIDOf_eq_iff : streamIDOf n t = streamIDOf n' t' ↔ n = n' ∧ t = t' ∨ Confusable n t n' t' := by
  refine append_cons_eq_append_cons_iff.trans (or_congr_left ?_)
  exact ⟨fun h => ⟨GoString.ext h.1, GoString.ext h.2⟩, fun h => ⟨congrArg _ h.1, congrArg _ h.2⟩⟩

theorem Confusable.symm (h : Confusable n t n' t') : Confusable n' t' n t := by
  obtain ⟨mid, hmid⟩ := h
  exact ⟨mid, hmid.symm⟩

theorem not_confusable_self : ¬ Confusable n t n t := by
  rintro ⟨mid, ⟨h, -⟩ | ⟨h, -⟩⟩ <;> simp at h

namespace Relay

variable {r r' : Relay} {e : Event} {h pub rs : Ref} {id : SessionId} {m : Subscribe}

/-! ### What holds in every run -/

structure WellFormed (r : Relay) : Prop where
  publisher : ∀ ns pub, r.namespaces.lookup ns = some pub → ∃ id, r.idOf pub = some id
  entry : ∀ h i sub, r.subscribed h i = some sub →
    ∃ m, r.forwarded sub.stream = some m ∧ getStreamID m = streamIDOf sub.trackNameSpace sub.trackName
  upstream : ∀ p u rs, r.incoming p u = some rs → ∃ m, r.forwarded rs = some m ∧ m.subscribeID = u
  owner : ∀ p u p' u' rs, r.incoming p u = some rs → r.incoming p' u' = some rs → p = p'

namespace WellFormed

variable (hw : r.WellFormed)
include hw

theorem of_same (hsame : r.Same r') (hns : ∀ ns pub, r'.namespaces.lookup ns = some pub → ∃ id, r.idOf pub = some id) :
    r'.WellFormed where
  publisher ns pub hpub := hsame.idOf pub ▸ hns ns pub hpub
  entry h i sub hsub := hsame.forwarded sub.stream ▸ hw.entry h i sub (hsame.subscribed h i ▸ hsub)
  upstream p u rs hrs := hsame.forwarded rs ▸ hw.upstream p u rs (hsame.incoming p u ▸ hrs)
  owner p u p' u' rs hrs hrs' := hw.owner p u p' u' rs (hsame.incoming p u ▸ hrs) (hsame.incoming p' u' ▸ hrs')

theorem of_sent (sent : Multiset (Ref × Message)) : { r with sent := sent }.WellFormed :=
  hw.of_same (.of_handlers rfl fun _ => rfl) hw.publisher

theorem createSession (id : SessionId) : (r.createSession id).WellFormed where
  publisher ns pub hpub := by
    rw [idOf_createSession]
    split
    · exact ⟨id, rfl⟩
    · exact hw.publisher ns pub hpub
  entry h i sub hsub := hw.entry h i sub (subscribed_createSession h i ▸ hsub)
  upstream p u rs hrs := hw.upstream p u rs (incoming_createSession p u ▸ hrs)
  owner p u p' u' rs hrs hrs' :=
    hw.owner p u p' u' rs (incoming_createSession p u ▸ hrs) (incoming_createSession p' u' ▸ hrs')

theorem sendSubscribe {subid : Nat} (hid : r.idOf pub = some id) : (r.sendSubscribe pub m subid).WellFormed where
  publisher ns p hp := by
    rw [idOf_sendSubscribe]
    exact hw.publisher ns p hp
  entry h i sub hsub := by
    obtain ⟨m', hm', heq⟩ := hw.entry h i sub (subscribed_sendSubscribe h i ▸ hsub)
    exact ⟨m', forwarded_sendSubscribe_of_some hm', heq⟩
  upstream p u rs hrs := by
    rw [incoming_sendSubscribe hid] at hrs
    split at hrs
    · next heq =>
      cases hrs
      exact ⟨_, forwarded_sendSubscribe_new, heq.2.symm⟩
    · obtain ⟨m', hm', heq⟩ := hw.upstream p u rs hrs
      exact ⟨m', forwarded_sendSubscribe_of_some hm', heq⟩
  owner p u p' u' rs hrs hrs' := by
    -- the new stream is in no table yet
    have hfresh : ∀ p u, r.incoming p u ≠ some r.streams.length := fun p u hlen => by
      obtain ⟨m', hm', -⟩ := hw.upstream p u _ hlen
      exact lt_irrefl _ (lt_of_forwarded hm')
    rw [incoming_sendSubscribe hid] at hrs hrs'
    split at hrs <;> split at hrs'
    · next heq heq' => exact heq.1.trans heq'.1.symm
    · exact absurd (hrs'.trans hrs.symm) (hfresh p' u')
    · exact absurd (hrs.trans hrs'.symm) (hfresh p u)
    · exact hw.owner p u p' u' rs hrs hrs'

theorem attach {m' : Subscribe} (hid : r.idOf h = some id) (hrs : r.forwarded rs = some m')
    (hm : getStreamID m' = getStreamID m) : (r.attach h id pub m rs).WellFormed where
  publisher ns p hp := by
    rw [idOf_attach]
    exact hw.publisher ns p hp
  entry x i sub hsub := by
    rw [forwarded_attach]
    rw [subscribed_attach hid] at hsub
    split at hsub
    · cases hsub
      exact ⟨m', hrs, hm⟩
    · exact hw.entry x i sub hsub
  upstream p u rs hrs := by
    rw [forwarded_attach]
    exact hw.upstream p u rs (incoming_attach p u ▸ hrs)
  owner p u p' u' rs hrs hrs' := hw.owner p u p' u' rs (incoming_attach p u ▸ hrs) (incoming_attach p' u' ▸ hrs')

theorem subscribe {order : List Nat} {rand : UInt32} (hs : r.step (.subscribe h m order rand) = some r') :
    r'.WellFormed := by
  obtain ⟨id, hid, rfl | ⟨pub, hpub, ⟨-, rfl⟩ | ⟨u, rs, m', ok, -, hm', heq, rfl⟩⟩⟩ := step_subscribe hs
  · exact hw.of_sent 0
  · obtain ⟨pid, hpid⟩ := hw.publisher _ pub hpub
    have hnew : ({ r with sent := 0 }.sendSubscribe pub m rand.toNat).forwarded r.streams.length = some _ :=
      forwarded_sendSubscribe_new
    exact attach ((hw.of_sent 0).sendSubscribe hpid) ((idOf_sendSubscribe h).trans hid) hnew rfl
  · exact attach (hw.of_sent _) hid hm' heq

theorem step (hs : r.step e = some r') : r'.WellFormed := by
  obtain ⟨-, hh⟩ := step_eq_some.mp hs
  cases e with
  | createSession id =>
    cases hh
    exact (hw.of_sent 0).createSession id
  | subscribe h m order rand => exact hw.subscribe hs
  | announce h m =>
    refine hw.of_same (same_step hs (by simp) (by simp)) fun ns pub hpub => ?_
    obtain ⟨id, hid, rfl⟩ := map_eq_some_iff.mp hh
    change (Finmap.insert m.trackNameSpace.data h r.namespaces).lookup ns = some pub at hpub
    rw [lookup_insert_eq] at hpub
    split at hpub
    · exact some.inj hpub ▸ ⟨id, hid⟩
    · exact hw.publisher ns pub hpub
  | _ =>
    have hns := namespaces_step hs (by simp)
    exact hw.of_same (same_step hs (by simp) (by simp)) (hns ▸ hw.publisher)

omit hw

theorem empty : WellFormed {} where
  publisher ns pub hpub := by cases hpub
  entry h i sub hsub := by cases hsub
  upstream p u rs hrs := by cases hrs
  owner p u p' u' rs hrs _ := by cases hrs

end WellFormed

/-! ### Tracks that cannot be confused -/

/-- A Subscribe cannot be confused with a subscription that a session has made. -/
def Unambiguous (r : Relay) : Event → Prop
  | .subscribe _ m _ _ => ∀ h i sub, r.subscribed h i = some sub →
      ¬ Confusable sub.trackNameSpace sub.trackName m.trackNameSpace m.trackName
  | _ => True

def Unconfused (r : Relay) : Prop := ∀ h i h' i' sub sub', r.subscribed h i = some sub →
  r.subscribed h' i' = some sub' → ¬ Confusable sub.trackNameSpace sub.trackName sub'.trackNameSpace sub'.trackName

theorem subscribed_of_attach {i : Nat} {sub : Subscription} {x : Ref}
    (hsub : (r.attach h id pub m rs).subscribed x i = some sub) (hid : r.idOf h = some id) :
    r.subscribed x i = some sub ∨ sub.trackNameSpace = m.trackNameSpace ∧ sub.trackName = m.trackName := by
  rw [subscribed_attach hid] at hsub
  split at hsub
  · cases hsub
    exact .inr ⟨rfl, rfl⟩
  · exact .inl hsub

theorem subscribed_of_subscribe {order : List Nat} {rand : UInt32} {i : Nat} {sub : Subscription} {x : Ref}
    (hs : r.step (.subscribe h m order rand) = some r') (hsub : r'.subscribed x i = some sub) :
    r.subscribed x i = some sub ∨ sub.trackNameSpace = m.trackNameSpace ∧ sub.trackName = m.trackName := by
  obtain ⟨id, hid, rfl | ⟨pub, -, ⟨-, rfl⟩ | ⟨u, rs, m', ok, -, -, -, rfl⟩⟩⟩ := step_subscribe hs
  · exact .inl hsub
  · rcases subscribed_of_attach hsub ((idOf_sendSubscribe h).trans hid) with hold | hnew
    · rw [subscribed_sendSubscribe] at hold
      exact .inl hold
    · exact .inr hnew
  rcases subscribed_of_attach hsub hid with hold | hnew
  · exact .inl hold
  · exact .inr hnew

theorem Unconfused.step (hu : r.Unconfused) (hok : r.Unambiguous e) (hs : r.step e = some r') : r'.Unconfused := by
  intro x i x' i' sub sub' hsub hsub'
  cases e with
  | createSession id =>
    obtain ⟨-, hh⟩ := step_eq_some.mp hs
    cases hh
    rw [subscribed_createSession] at hsub hsub'
    exact hu x i x' i' sub sub' hsub hsub'
  | subscribe h m order rand =>
    rcases subscribed_of_subscribe hs hsub with hold | ⟨hn, ht⟩ <;>
      rcases subscribed_of_subscribe hs hsub' with hold' | ⟨hn', ht'⟩
    · exact hu x i x' i' sub sub' hold hold'
    · rw [hn', ht']
      exact hok x i sub hold
    · rw [hn, ht]
      exact fun hc => hok x' i' sub' hold' hc.symm
    · rw [hn, ht, hn', ht']
      exact not_confusable_self
  | _ =>
    have hsame := same_step hs (by simp) (by simp)
    exact hu x i x' i' sub sub' (hsame.subscribed x i ▸ hsub) (hsame.subscribed x' i' ▸ hsub')

/-- Two tracks have different stream ids exactly if they cannot be confused. In a run in which no Subscribe can be
confused with a subscription that is there, subscriptions share a relay stream only if they are for one track. -/
theorem stream_shared_only_by_track (m m' : Subscribe) (ls : List Event) (r : Relay) :
    ((m.trackNameSpace, m.trackName) ≠ (m'.trackNameSpace, m'.trackName) → (getStreamID m ≠ getStreamID m' ↔
        ¬ Confusable m.trackNameSpace m.trackName m'.trackNameSpace m'.trackName)) ∧
    (LTS.run step {} ls = some r → LTS.Along step Unambiguous {} ls →
      ∀ h i h' i' sub sub', r.subscribed h i = some sub → r.subscribed h' i' = some sub' →
        sub.stream = sub'.stream → sub.trackNameSpace = sub'.trackNameSpace ∧ sub.trackName = sub'.trackName) := by
  refine ⟨fun hne => not_congr (streamIDOf_eq_iff.trans (or_iff_right fun heq => ?_)), ?_⟩
  · exact hne (Prod.ext heq.1 heq.2)
  intro hr ha h i h' i' sub sub' hsub hsub' hstream
  have hinv : r.WellFormed ∧ r.Unconfused := by
    have hstep : ∀ r e r', WellFormed r ∧ Unconfused r → r.Unambiguous e → r.step e = some r' →
        WellFormed r' ∧ Unconfused r' := fun r e r' hi hok hs => ⟨hi.1.step hs, hi.2.step hok hs⟩
    exact LTS.run_invariant hstep ⟨.empty, fun h i h' i' sub sub' hsub => by cases hsub⟩ ha hr
  obtain ⟨m, hm, heq⟩ := hinv.1.entry h i sub hsub
  obtain ⟨m', hm', heq'⟩ := hinv.1.entry h' i' sub' hsub'
  -- one stream has one stream id, so the ids of both names are equal
  rw [hstream, hm'] at hm
  cases hm
  rcases streamIDOf_eq_iff.mp (heq.symm.trans heq') with hsame | hconf
  · exact hsame
  · exact absurd hconf (hinv.2 h i h' i' sub sub' hsub hsub')

/-- Two sessions subscribe to the track `b` in the namespace `a`. -/
theorem stream_shared_only_by_track_two_sessions :
    let m : Subscribe := { trackNameSpace := ⟨[0x61], by decide⟩, trackName := ⟨[0x62], by decide⟩ }
    getStreamID m ≠ getStreamID { m with trackName := ⟨[0x63], by decide⟩ } ∧
      ∃ r sub sub', LTS.run step {} [.createSession [1], .createSession [2], .createSession [3],
          .announce 0 { trackNameSpace := m.trackNameSpace }, .subscribe 1 m [] 7, .subscribe 2 m [7] 8] = some r ∧
        r.subscribed 1 0 = some sub ∧ r.subscribed 2 0 = some sub' ∧ sub.stream = sub'.stream ∧
        sub.trackNameSpace = sub'.trackNameSpace ∧ sub.trackName = sub'.trackName := by
  intro m
  refine ⟨((stream_shared_only_by_track _ _ [] {}).1 (by decide)).mpr ?_, ?r,
    { stream := 0, trackNameSpace := m.trackNameSpace, trackName := m.trackName },
    { stream := 0, trackNameSpace := m.trackNameSpace, trackName := m.trackName }, ?hr, ?hsub, ?hsub', rfl,
    (stream_shared_only_by_track m m _ ?r).2 ?hr ?ha 1 0 2 0 _ _ ?hsub ?hsub' rfl⟩
  · rintro ⟨mid, ⟨h, -⟩ | ⟨h, -⟩⟩ <;> simp at h
  case hr => rfl
  case hsub => decide +kernel
  case hsub' => decide +kernel
  case ha =>
    refine .cons trivial rfl (.cons trivial rfl (.cons trivial rfl (.cons trivial rfl
      (.cons (fun h i sub hsub => ?_) rfl (.cons (fun h i sub hsub => ?_) rfl trivial)))))
    · rcases h with _ | _ | _ | h <;> cases hsub
    rcases h with _ | _ | _ | h
    · cases hsub
    · change (Finmap.insert 0 _ (∅ : Table Nat Subscription)).lookup i = some sub at hsub
      rw [lookup_insert_eq] at hsub
      split at hsub
      · cases hsub
        exact not_confusable_self
      · cases hsub
    · cases hsub
    · cases hsub

/-- In every run a relay stream is filed at one publisher only, under one id. -/
theorem incoming_injective {ls : List Event} {p p' : Ref} {u u' : Nat} (hr : LTS.run step {} ls = some r)
    (hp : r.incoming p u = some rs) (hp' : r.incoming p' u' = some rs) : p = p' ∧ u = u' := by
  have hw : r.WellFormed := LTS.run_invariant (fun _ _ _ h _ hs => h.step hs) .empty (LTS.along_true _ _) hr
  obtain ⟨m, hm, rfl⟩ := hw.upstream p u rs hp
  obtain ⟨m', hm', rfl⟩ := hw.upstream p' u' rs hp'
  cases hm.symm.trans hm'
  exact ⟨hw.owner _ _ _ _ rs hp hp', rfl⟩

/-- The track `c` in the namespaces `a` and `b` of two publishers, with the same id at both. -/
theorem incoming_injective_two :
    let m : Subscribe := { trackNameSpace := ⟨[0x61], by decide⟩, trackName := ⟨[0x63], by decide⟩ }
    let m' : Subscribe := { subscribeID := 1, trackNameSpace := ⟨[0x62], by decide⟩, trackName := ⟨[0x63], by decide⟩ }
    ∃ r, LTS.run step {} [.createSession [1], .createSession [2], .createSession [3],
        .announce 0 { trackNameSpace := m.trackNameSpace }, .announce 1 { trackNameSpace := m'.trackNameSpace },
        .subscribe 2 m [] 7, .subscribe 2 m' [] 7] = some r ∧
      r.incoming 1 7 = some 1 ∧ ∀ p u, r.incoming p u = some 0 → 0 = p ∧ 7 = u := by
  refine LTS.exists_run (fun r => r.incoming 0 7 == some 0 && r.incoming 1 7 == some 1) (by decide +kernel)
    fun r hr hp => ?_
  rw [Bool.and_eq_true, beq_iff_eq, beq_iff_eq] at hp
  exact ⟨hp.2, fun p u => incoming_injective hr hp.1⟩

/-- One publisher has the namespaces `a` and `a_b`; the tracks `b_c` and `c` in them share a relay stream. -/
theorem tracks_share_stream :
    let m : Subscribe := { trackNameSpace := ⟨[0x61], by decide⟩, trackName := ⟨[0x62, 0x5F, 0x63], by decide⟩ }
    let m' : Subscribe :=
      { subscribeID := 1, trackNameSpace := ⟨[0x61, 0x5F, 0x62], by decide⟩, trackName := ⟨[0x63], by decide⟩ }
    (m.trackNameSpace, m.trackName) ≠ (m'.trackNameSpace, m'.trackName) ∧ getStreamID m = getStreamID m' ∧
      ∃ r, LTS.run step {} [.createSession [1], .createSession [2], .announce 0 { trackNameSpace := m.trackNameSpace },
          .announce 0 { trackNameSpace := m'.trackNameSpace }, .subscribe 1 m [] 7, .subscribe 1 m' [7] 8] = some r ∧
        r.subscribed 1 0 = some { stream := 0, trackNameSpace := m.trackNameSpace, trackName := m.trackName } ∧
        r.subscribed 1 1 = some { stream := 0, trackNameSpace := m'.trackNameSpace, trackName := m'.trackName } := by
  refine ⟨by decide, by decide, _, rfl, ?_⟩
  decide +kernel

end Relay

end MoqQuic.L4.Moqt
