import MoqQuic.L3Protocol.Moqt.RoundTrip

/-!
# Framing of the control stream

`ServeCS` (`controlstream.go:41-63`) calls `ParseMOQTMessage` again and again
on one reader, so a message has to be consumed to its last byte. A peer may
send parameters this side does not know, or an integer parameter whose
declared length is longer than the number in it. `Parameters.Parse` returns an
error right behind the first unknown parameter, and `ParseMOQTMessage` drops
that error, so the parameters behind it are taken for the next message; and
`IntParameter.Parse` ignores the declared length, so the bytes behind the
number are taken for the next parameter or message.

Results:
* `parameters_left?`: what the parameter list leaves unread, when padding
  stands at most in the last parameter.
* `inSync_iff_aligned`: two consecutive calls stay in sync when the only unknown
  parameter is the last one and no integer parameter is padded; conversely,
  without padding in front of the last parameter, they do so only then.
-/
namespace MoqQuic.L3.Moqt
open Reader L1.Quicvarint List
open Parameters (parseOne)

/-- A parameter as a peer may write it. -/
inductive WireParam where
  /-- ROLE_PARAM with its declared length, its number and the bytes of the value behind the number. -/
  | role (declared v : Nat) (pad : Bytes) (hd : Fits declared) (hv : Fits v)
  | path (s : GoString)
  | unknown (ptype : Nat) (body : GoString) (hf : Fits ptype) (hu : ptype ≠ ROLE_PARAM ∧ ptype ≠ ROLE_PATH)

namespace WireParam

def bytes : WireParam → Bytes
  | role declared v pad _ _ => enc ROLE_PARAM ++ (enc declared ++ enc v) ++ pad
  | path s => enc ROLE_PATH ++ encStr s
  | unknown ptype body _ _ => enc ptype ++ encStr body

/-- The bytes of the value that its declared length covers and its number does not. -/
def pad : WireParam → Bytes
  | role _ _ pad _ _ => pad
  | _ => []

def isKnown : WireParam → Bool
  | unknown _ _ _ _ => false
  | _ => true

theorem bytes_ne_nil (p : WireParam) : p.bytes ≠ [] := by
  intro h
  have hlen := congrArg List.length h
  cases p with
  | role declared v pad hd hv =>
    have := enc_length_pos (by decide : Fits ROLE_PARAM)
    simp only [bytes, length_append, length_nil] at hlen; omega
  | path s =>
    have := enc_length_pos (by decide : Fits ROLE_PATH)
    simp only [bytes, length_append, length_nil] at hlen; omega
  | unknown ptype body hf hu =>
    have := enc_length_pos hf
    simp only [bytes, length_append, length_nil] at hlen; omega

end WireParam

/-! ## One parameter -/

/-- A known parameter is read up to its padding. -/
theorem parseOne_known {p : WireParam} (h : p.isKnown = true) (m : Parameters) (s : Bytes) :
    ∃ m', parseOne.run m (p.bytes ++ s) = .ok () m' (p.pad ++ s) := by
  cases p with
  | role declared v pad hd hv =>
    have h0 : Fits ROLE_PARAM := by decide
    refine ⟨m.insert ROLE_PARAM (.int ROLE_PARAM v), ?_⟩
    have hr : Reads parseOne (enc ROLE_PARAM ++ (enc declared ++ enc v)) m ()
        (m.insert ROLE_PARAM (.int ROLE_PARAM v)) := by
      refine Reads.bind (reads_enc h0 m) ?_
      exact Reads.bind_pure (Reads.bind (reads_enc hd m)
        (Reads.bind_pure (reads_enc hv m) (Reads.pure _ m))) (Reads.assign _ m)
    simp only [WireParam.bytes, WireParam.pad, append_assoc (_ ++ _)]
    exact hr (pad ++ s)
  | path str => exact ⟨_, reads_parseOne (Or.inr ⟨str, rfl⟩) m s⟩
  | unknown _ _ _ _ => cases h

/-- An unknown parameter is skipped and then reported. -/
theorem parseOne_unknown {p : WireParam} (h : p.isKnown = false) (m : Parameters) (s : Bytes) :
    parseOne.run m (p.bytes ++ s) = .err (.errorf "[Unknown Param]") m s := by
  cases p with
  | role _ _ _ _ _ | path _ => cases h
  | unknown ptype body hf hu =>
    have hfit : body.len ≤ maxAlloc := body.fits
    unfold parseOne
    simp only [WireParam.bytes, encStr, append_assoc]
    rw [bind_ok (reads_enc hf m _), if_neg hu.1, if_neg hu.2, bind_ok (reads_enc body.len_lt m _),
      bind_ok (makeSlice_fits hfit m _), bind_ok (readFull_all m body.data s body.len rfl)]
    rfl

/-! ## The whole list -/

/-- The bytes of a parameter list that `Parameters.Parse` leaves unread when
padding stands at most in the last parameter. -/
def unread : List WireParam → Bytes
  | [] => []
  | [p] => p.pad
  | p :: q :: ps => if p.isKnown then unread (q :: ps) else (q :: ps).flatMap WireParam.bytes

theorem repeatN_left? : ∀ (ps : List WireParam), (∀ p ∈ ps.dropLast, p.pad = []) → ∀ (m : Parameters) (s : Bytes),
      ((Act.repeatN ps.length parseOne).run m (ps.flatMap WireParam.bytes ++ s)).left? =
        some (unread ps ++ s)
  | [], _, m, s => rfl
  | [p], _, m, s => by
    have hb : [p].flatMap WireParam.bytes ++ s = p.bytes ++ s := by simp
    rw [hb]
    cases hk : p.isKnown with
    | true =>
      obtain ⟨m', hm⟩ := parseOne_known hk m s
      show ((parseOne >>= fun _ => Act.repeatN 0 _).run m _).left? = _
      rw [bind_ok hm]
      rfl
    | false =>
      have hpad : p.pad = [] := by
        cases p with
        | unknown _ _ _ _ => rfl
        | _ => cases hk
      show ((parseOne >>= fun _ => Act.repeatN 0 _).run m _).left? = _
      rw [bind_err (parseOne_unknown hk m s)]
      simp [Res.left?, unread, hpad]
  | p :: q :: ps, hpad, m, s => by
    have hb : (p :: q :: ps).flatMap WireParam.bytes ++ s =
        p.bytes ++ ((q :: ps).flatMap WireParam.bytes ++ s) := by simp
    have hp : p.pad = [] := hpad p (by simp)
    rw [hb]
    cases hk : p.isKnown with
    | true =>
      obtain ⟨m', hm⟩ := parseOne_known hk m ((q :: ps).flatMap WireParam.bytes ++ s)
      rw [hp, nil_append] at hm
      show ((parseOne >>= fun _ => Act.repeatN (q :: ps).length _).run m _).left? = _
      rw [bind_ok hm, repeatN_left? (q :: ps) (fun r hr => hpad r (by simp_all)) m' s]
      simp [unread, hk]
    | false =>
      show ((parseOne >>= fun _ => Act.repeatN (q :: ps).length _).run m _).left? = _
      rw [bind_err (parseOne_unknown hk m _)]
      simp [unread, hk, Res.left?]

/-- Every parameter but the last is known, and no number is padded. -/
def Aligned (ps : List WireParam) : Prop :=
  (∀ p ∈ ps.dropLast, p.isKnown = true) ∧ ∀ p ∈ ps, p.pad = []

theorem unread_eq_nil_iff : ∀ (ps : List WireParam), (∀ p ∈ ps.dropLast, p.pad = []) → (unread ps = [] ↔ Aligned ps)
  | [], _ => by simp [unread, Aligned]
  | [p], _ => by simp [unread, Aligned]
  | p :: q :: ps, hpad => by
    have hp : p.pad = [] := hpad p (by simp)
    have ih := unread_eq_nil_iff (q :: ps) (fun r hr => hpad r (by simp_all))
    cases hk : p.isKnown with
    | true =>
      rw [unread, if_pos hk, ih]
      simp [Aligned, hk, hp]
    | false =>
      have hne : unread (p :: q :: ps) ≠ [] := by
        rw [unread, if_neg (by simp [hk]), flatMap_cons]
        intro h
        exact q.bytes_ne_nil (append_eq_nil_iff.mp h).1
      refine ⟨fun h => absurd h hne, fun h => ?_⟩
      have := h.1 p (by simp)
      rw [hk] at this; cases this

/-- A parameter list as a peer may write it. -/
def wireParams (ps : List WireParam) : Bytes := enc ps.length ++ ps.flatMap WireParam.bytes

theorem parameters_left? {ps : List WireParam} (hn : Fits ps.length)
    (hpad : ∀ p ∈ ps.dropLast, p.pad = []) (s : Bytes) :
    (Parameters.parse.run ∅ (wireParams ps ++ s)).left? = some (unread ps ++ s) := by
  unfold Parameters.parse wireParams
  rw [append_assoc, bind_ok (reads_enc hn ∅ _)]
  exact repeatN_left? ps hpad ∅ s

/-! ## Two messages on one stream -/

theorem Carries.lead_mem {c : Message} (hc : c.Carries) : Fits c.lead ∧ c.lead ∈ messageTypes := by
  cases c with
  | clientSetup m | serverSetup m | announce m | subscribe m => simp only [Message.lead]; decide
  | announceOk m | subscribeOk m | subscribeDone m | unsubcribe m => exact hc.elim

/-- `ParseMOQTMessage` leaves of a message what its parameter list leaves. -/
theorem carrier_left? {c : Message} (hc : c.Carries) (hi : ∀ i ∈ c.ints, Fits i) (s : Bytes) :
    (parseMOQTMessage.run () (enc c.lead ++ (c.encHead ++ s))).left? = (Parameters.parse.run ∅ s).left? := by
  unfold parseMOQTMessage
  rw [bind_ok (reads_enc (Carries.lead_mem hc).1 () _)]
  cases c with
  | clientSetup m =>
    refine (bind_left? _ _ fun _ _ _ => rfl).trans ?_
    rw [fill_left?, steps_clientSetup hi s, bind_left? _ _ fun _ _ _ => rfl, fill_left?]
  | serverSetup m =>
    refine (bind_left? _ _ fun _ _ _ => rfl).trans ?_
    rw [fill_left?, steps_serverSetup hi s, bind_left? _ _ fun _ _ _ => rfl, fill_left?]
  | announce m =>
    refine (bind_left? _ _ fun _ _ _ => rfl).trans ?_
    rw [fill_left?, steps_announce m s, bind_left? _ _ fun _ _ _ => rfl, sub_left?]
  | subscribe m =>
    refine (bind_left? _ _ fun _ _ _ => rfl).trans ?_
    rw [fill_left?, steps_subscribe hi s, bind_left? _ _ fun _ _ _ => rfl, sub_left?]
  | announceOk m | subscribeOk m | subscribeDone m | unsubcribe m => exact hc.elim

/-- The bytes of a message of the type and head of `c` with the given parameters. -/
def wireMessage (c : Message) (ps : List WireParam) : Bytes :=
  enc c.lead ++ (c.encHead ++ wireParams ps)

/-- Two calls on `bytes` and the encoding `bytes2` of `m2`: the first fails, or
it consumes exactly `bytes` and the second returns `m2`. -/
def InSync (bytes bytes2 : Bytes) (m2 : Message) : Prop :=
  (∃ e rest, parseMOQTMessage.run () (bytes ++ bytes2) = .err e () rest) ∨
  (∃ m, parseMOQTMessage.run () (bytes ++ bytes2) = .ok m () bytes2) ∧
    ∃ rest, parseMOQTMessage.run () bytes2 = .ok m2.normalize () rest

/-- The first call on a message with a parameter list never fails, so it has
to leave exactly the second message. -/
theorem first_call {c : Message} {ps : List WireParam} (hc : c.Carries)
    (hi : ∀ i ∈ c.ints, Fits i) (hn : Fits ps.length) (hpad : ∀ p ∈ ps.dropLast, p.pad = [])
    (s : Bytes) : ∃ m, parseMOQTMessage.run () (wireMessage c ps ++ s) = .ok m () (unread ps ++ s) := by
  obtain ⟨hf, hmem⟩ := Carries.lead_mem hc
  have hleft : (parseMOQTMessage.run () (wireMessage c ps ++ s)).left? = some (unread ps ++ s) := by
    simp only [wireMessage, append_assoc]
    rw [carrier_left? hc hi, parameters_left? hn hpad]
  have hrun : parseMOQTMessage.run () (wireMessage c ps ++ s) =
      (parseBody c.lead).run () (c.encHead ++ (wireParams ps ++ s)) := by
    simp only [wireMessage, append_assoc]
    exact bind_ok (reads_enc hf () _)
  cases hr : parseMOQTMessage.run () (wireMessage c ps ++ s) with
  | ok m b rest =>
    rw [hr] at hleft
    exact ⟨m, by rw [Option.some.inj hleft]⟩
  | err e b rest =>
    rw [hr] at hrun
    exact absurd hmem ((parseBody_err_iff c.lead () _).mp ⟨e, b, rest, hrun.symm⟩)
  | panic => rw [hr] at hleft; cases hleft

/-- Framing survives when only the last parameter may be unknown and no
number is padded, and the second message is one that comes back at all. When
padding stands at most in the last parameter it survives only then. -/
theorem inSync_iff_aligned {c m2 : Message} {ps : List WireParam} {order2 : List Entry} {bytes2 : Bytes}
    (hc : c.Carries) (hi : ∀ i ∈ c.ints, Fits i) (hn : Fits ps.length)
    (h2 : m2.InRange) (ho : Enumerates order2 m2.params) (hb : m2.getBytes order2 = some bytes2) :
    (Aligned ps ∧ m2.Recoverable → InSync (wireMessage c ps) bytes2 m2) ∧
    ((∀ p ∈ ps.dropLast, p.pad = []) → InSync (wireMessage c ps) bytes2 m2 → Aligned ps ∧ m2.Recoverable) := by
  rw [getBytes_eq h2 ho] at hb
  have hret : ∀ rest, parseMOQTMessage.run () bytes2 = .ok m2.normalize () rest ↔ m2.Recoverable ∧ rest = [] := by
    intro rest
    have := parse_returns_iff h2 ho [] rest (Nat.zero_le _)
    rwa [append_nil, Option.some.inj hb] at this
  constructor
  · intro ⟨hal, hrec⟩
    have hpad : ∀ p ∈ ps.dropLast, p.pad = [] := fun p hp => hal.2 p (mem_of_mem_dropLast hp)
    obtain ⟨m, hm⟩ := first_call hc hi hn hpad bytes2
    rw [(unread_eq_nil_iff ps hpad).mpr hal, nil_append] at hm
    exact Or.inr ⟨⟨m, hm⟩, [], (hret []).mpr ⟨hrec, rfl⟩⟩
  intro hpad hsync
  obtain ⟨m, hm⟩ := first_call hc hi hn hpad bytes2
  rcases hsync with ⟨e, rest, he⟩ | ⟨⟨m', hm'⟩, rest, hrest⟩
  · rw [hm] at he; cases he
  rw [hm] at hm'
  have hnil : unread ps = [] := by simpa using (Res.ok.inj hm').2.2
  exact ⟨(unread_eq_nil_iff ps hpad).mp hnil, ((hret rest).mp hrest).1⟩

/-- A path and then an unknown parameter in an `Announce`, followed by an `Unsubscribe`. -/
theorem inSync_iff_aligned_unknown_last : InSync (wireMessage (.announce {})
      [.path .empty, .unknown 5 .empty (by decide) (by decide)]) [10, 9]
      (.unsubcribe { subscriptionID := 9 }) := by
  have hk : Parameters.Known ∅ := fun e he => absurd he (Multiset.notMem_zero e)
  have h2 : (Message.unsubcribe { subscriptionID := 9 }).InRange := ⟨by decide, hk⟩
  have ho : Enumerates [] (Message.unsubcribe { subscriptionID := 9 }).params := rfl
  refine (inSync_iff_aligned (c := .announce {}) trivial (by decide) (by decide) h2 ho (by decide)).1
    ⟨⟨?_, ?_⟩, trivial⟩
  · intro p hp
    simp only [dropLast_cons_cons, dropLast_singleton, mem_singleton] at hp
    rw [hp]; rfl
  intro p hp
  simp only [mem_cons, not_mem_nil, or_false] at hp
  rcases hp with rfl | rfl <;> rfl

/-- With the unknown parameter first, or a padded role, the next call starts
inside the first message. -/
theorem unknown_param_desynchronises :
    (wireMessage (.announce {}) [.unknown 5 .empty (by decide) (by decide), .path .empty] = [6, 0, 2, 5, 0, 1, 0] ∧
      parseMOQTMessage.run () [6, 0, 2, 5, 0, 1, 0, 10, 9] = .ok (.announce {}) () [1, 0, 10, 9] ∧
      parseMOQTMessage.run () [1, 0, 10, 9] = .err (.errorf "unkown MOQT Message 1 <nil>") () [0, 10, 9]) ∧
    (wireMessage (.announce {}) [.role 2 1 [10] (by decide) (by decide)] = [6, 0, 1, 0, 2, 1, 10] ∧
      (parseMOQTMessage.run () [6, 0, 1, 0, 2, 1, 10, 10, 9]).left? = some [10, 10, 9] ∧
      parseMOQTMessage.run () [10, 10, 9] = .ok (.unsubcribe { subscriptionID := 10 }) () [9]) := by
  decide +kernel

end MoqQuic.L3.Moqt
