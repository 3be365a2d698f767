import MoqQuic.L3Protocol.Moqt.Message

/-!
# Control messages: what survives encoding and parsing

Six of the eight types come back as they were, with the trailing bytes
unread. `SubscribeOk` does so only when the ids it carries are both zero
(`subscribeok.go:45,49` assign the object id twice). `SubscribeDone` never
does: without the type in front (`subscribedone.go:50-67`) its subscribe id is
taken for the type. For the result to be a `SubscribeDone` at all the id must
be 11; then every field is read from the place of the next one, and reading
the reason again as a length-prefixed string costs at least one byte more than
the message has.

Results:
* `subscribeDone_not_recovered`: no `SubscribeDone` survives, whatever follows.
* `roundTrips_iff`: which messages round trip.
* `truncated_rejected_iff`: on which strict prefixes `ParseMOQTMessage` reports
  an error: those that end inside the first number.
-/
namespace MoqQuic.L3.Moqt
open Reader L1.Quicvarint Option
open Message (subscribeDone getBytes)
open List (length_append length_cons length_nil length_eq_zero_iff append_nil mem_cons prefix_append)

variable {β : Type}

/-! ## `SubscribeDone` -/

theorem enc_zero : enc 0 = [0] := rfl

/-- A list that is itself shifted by one place is constant. -/
theorem cons_eq_append_singleton {α : Type} {x y : α} : ∀ {l : List α}, x :: l = l ++ [y] → x = y
  | [], h => by simpa using h
  | z :: l, h => by
    rw [List.cons_append] at h
    obtain ⟨rfl, ht⟩ := List.cons.inj h
    exact cons_eq_append_singleton ht

/-- Where the parsing of a `SubscribeDone` can end behind its reason phrase. -/
inductive ContentEnd (m : SubscribeDone) (t : Bytes) : SubscribeDone → Bytes → Prop where
  | noFlag (ht : t = []) : ContentEnd m t { m with contentExists := 0 } []
  | absent {c : UInt8} {rest : Bytes} (hc : c ≠ 1) (ht : t = c :: rest) :
      ContentEnd m t { m with contentExists := c } rest
  | noGroup {u : Bytes} {b : SubscribeDone} (ht : t = 1 :: u) (hu : read.run b u = .err .eof b []) :
      ContentEnd m t { m with contentExists := 1, finalGroup := 0 } []
  | noObject {u u' : Bytes} {b : SubscribeDone} {fg : Nat} (ht : t = 1 :: u) (hg : read.run b u = .ok fg b u') :
      ContentEnd m t { m with contentExists := 1, finalGroup := fg, finalObject := 0 } []
  | all {g o rest : Bytes} {fg fo : Nat} (ht : t = 1 :: (g ++ (o ++ rest)))
      (hg : (enc fg).length ≤ g.length) (ho : (enc fo).length ≤ o.length) :
      ContentEnd m t { m with contentExists := 1, finalGroup := fg, finalObject := fo } rest

variable {m m' d : SubscribeDone} {t rest L e : Bytes} {k : Bytes → Option Bytes}

theorem parseContent_end (h : (SubscribeDone.parseContent.run m t).Leaves m' rest) : ContentEnd m t m' rest := by
  rcases h.field_bind with ⟨e, b1, hr, rfl⟩ | ⟨c, b1, s1, hr, h⟩
  · cases t with
    | nil => obtain ⟨-, rfl, rfl⟩ := Res.err.inj hr; exact .noFlag rfl
    | cons c u => cases hr
  cases t with
  | nil => cases hr
  | cons c' u =>
    obtain ⟨rfl, rfl, rfl⟩ := Res.ok.inj hr
    simp only [Act.guard] at h
    by_cases hc : c' = 1
    · subst hc
      rcases h.field_bind with ⟨e, b2, hg, rfl⟩ | ⟨fg, b2, s2, hg, h⟩
      · obtain ⟨rfl, rfl, rfl⟩ := read_err hg
        exact .noGroup rfl hg
      obtain ⟨rfl, -, g, hgs, hgle⟩ := read_ok_le hg
      rcases h.field with ⟨e, b3, ho, rfl⟩ | ⟨fo, b3, ho, rfl⟩
      · obtain ⟨-, rfl, rfl⟩ := read_err ho
        exact .noObject rfl hg
      obtain ⟨rfl, -, o, hos, hole⟩ := read_ok_le ho
      exact .all (by rw [hgs, hos]) hgle hole
    rw [if_neg hc] at h
    rcases h with ⟨_, h⟩ | ⟨_, h⟩
    · obtain ⟨-, rfl, rfl⟩ := Res.ok.inj h
      exact .absent hc rfl
    · cases h

theorem ContentEnd.keeps (h : ContentEnd m t m' rest) :
    m'.subscribeID = m.subscribeID ∧ m'.statusCode = m.statusCode ∧ m'.reasonPhrase = m.reasonPhrase := by
  cases h <;> exact ⟨rfl, rfl, rfl⟩

variable {b b' : β}

/-- A stream that ends in a zero byte and repeats itself one byte later starts
with a zero byte, so it does not start with the number 11. -/
theorem shift_zero (he : e.length = 1) (h : L ++ [0] = e ++ L)
    (hr : read.run b (L ++ [0]) = .ok 11 b' rest) : False := by
  obtain ⟨x, rfl⟩ := List.length_eq_one_iff.mp he
  rw [List.singleton_append] at h
  have hx : x = 0 := cons_eq_append_singleton h.symm
  subst hx
  have h0 := reads_enc (by decide : Fits 0) b L
  rw [enc_zero, List.singleton_append, ← h, hr] at h0
  exact absurd (Res.ok.inj h0).1 (by decide)

/-- Flag, group and object of one byte each, read one number later, end in an unread group: a zero byte. -/
theorem shift_no_group {u : Bytes} {err : Err} (he1 : 1 ≤ e.length)
    (h : L ++ ([1] ++ ([0] ++ [0])) = e ++ (L ++ 1 :: u)) (hu : read.run b u = .err err b' rest) : False := by
  have hcount := congrArg List.length h
  simp only [length_append, length_cons, length_nil] at hcount
  cases u with
  | nil =>
    have hl : (L ++ [1, 0]) ++ [0] = (e ++ L) ++ [(1 : UInt8)] := by simpa using h
    have := (List.append_inj' hl rfl).2
    simp at this
  | cons y u =>
    have hu0 : u = [] := length_eq_zero_iff.mp (by simp only [length_cons] at hcount; omega)
    subst hu0
    have hl : (L ++ [1, 0]) ++ [0] = (e ++ L ++ [1]) ++ [y] := by simpa using h
    have hy := (List.append_inj' hl rfl).2
    have h0 := reads_enc (by decide : Fits 0) b []
    rw [enc_zero, List.singleton_append, hy, hu] at h0
    cases h0

/-- Flag, group and a zero object, read one number later, do not leave the object unread. -/
theorem shift_no_object {γ : Type} {c : γ} {u u' : Bytes} {fg : Nat} (he1 : 1 ≤ e.length)
    (h : L ++ ([1] ++ (enc fg ++ [0])) = e ++ (L ++ 1 :: u)) (hg : read.run c u = .ok fg c u')
    (hr : read.run b (L ++ ([1] ++ (enc fg ++ [0]))) = .ok 11 b' rest) : False := by
  obtain ⟨-, -, g, rfl, hgle⟩ := read_ok_le hg
  have hcount := congrArg List.length h
  simp only [length_append, length_cons, length_nil] at hcount
  have hu' : u' = [] := length_eq_zero_iff.mp (by omega)
  subst hu'
  have hgc : g = enc fg := read_canonical hg (by omega)
  have hl : L ++ ([1] ++ (enc fg ++ [0])) = (L ++ 1 :: enc fg) ++ [0] := by simp
  rw [hgc, append_nil] at h
  rw [hl] at h hr
  exact shift_zero (by omega) h hr

/-- The bytes of a `SubscribeDone` behind its reason phrase. -/
def SubscribeDone.encContent (d : SubscribeDone) : Bytes :=
  [d.contentExists] ++ if d.contentExists = 1 then enc d.finalGroup ++ enc d.finalObject else []

/-- Reading reason, flag and ids from one number too early cannot give them
back and leave everything behind the message unread. -/
theorem shifted_impossible {trailing : Bytes}
    (hr : read.run b (d.reasonPhrase.data ++ d.encContent ++ trailing) = .ok 11 b (d.reasonPhrase.data ++ t))
    (hend : ContentEnd m t m' rest) (hm : m.finalGroup = 0 ∧ m.finalObject = 0)
    (hd : (subscribeDone d).normalize = .subscribeDone m') (hle : trailing.length ≤ rest.length) : False := by
  obtain ⟨-, -, e, he, hel⟩ := read_ok_le hr
  have he1 : 1 ≤ e.length := hel
  have hcount := congrArg List.length he
  simp only [Message.normalize, subscribeDone.injEq] at hd
  have hce := congrArg SubscribeDone.contentExists hd
  have hfg := congrArg SubscribeDone.finalGroup hd
  have hfo := congrArg SubscribeDone.finalObject hd
  simp only [SubscribeDone.encContent] at he hr hcount
  cases hend with
  | noFlag ht =>
    simp only at hce
    have htr : trailing = [] := length_eq_zero_iff.mp (Nat.le_zero.mp hle)
    subst ht htr
    rw [hce, if_neg (by decide)] at he hr hcount
    simp only [append_nil] at he hr hcount
    simp only [length_append, length_cons, length_nil] at hcount
    exact shift_zero (by omega) he hr
  | absent hc ht =>
    subst ht
    rw [hce, if_neg hc] at hcount
    simp only [length_append, length_cons, length_nil] at hcount
    omega
  | @noGroup u b2 ht hu =>
    replace hce : d.contentExists = 1 := hce
    simp only [hce, if_true] at hfg hfo
    have htr : trailing = [] := length_eq_zero_iff.mp (Nat.le_zero.mp hle)
    subst ht htr
    rw [hce, if_pos rfl, hfg, hfo, hm.2, enc_zero, append_nil] at he
    exact shift_no_group he1 he hu
  | @noObject u u' b2 fg ht hg =>
    replace hce : d.contentExists = 1 := hce
    simp only [hce, if_true] at hfg hfo
    have htr : trailing = [] := length_eq_zero_iff.mp (Nat.le_zero.mp hle)
    subst ht htr
    rw [hce, if_pos rfl, hfg, hfo, enc_zero, append_nil] at he hr
    exact shift_no_object he1 he hg hr
  | all ht hg ho =>
    replace hce : d.contentExists = 1 := hce
    simp only [hce, if_true] at hfg hfo
    subst ht
    rw [hce, if_pos rfl, hfg, hfo] at hcount
    simp only [length_append, length_cons, length_nil] at hcount
    omega

variable {m : Message}

theorem fill_return_ok {γ : Type} {p : Act Err γ Unit} {zero : γ} {f : γ → Message} {s : Bytes}
    (h : (Act.fill p zero >>= fun g => pure (f g)).run b s = .ok m b' rest) :
    ∃ g, m = f g ∧ (p.run zero s).Leaves g rest := by
  cases hf : (Act.fill p zero : Act Err β γ).run b s with
  | ok g b1 s1 =>
    rw [bind_ok hf] at h
    obtain ⟨rfl, rfl, rfl⟩ := Res.ok.inj h
    exact ⟨g, rfl, fill_ok hf⟩
  | err e b1 s1 => rw [bind_err hf] at h; cases h
  | panic => simp only [Bind.bind] at h; rw [hf] at h; cases h

/-- Only the type 11 makes `ParseMOQTMessage` return a `SubscribeDone`. -/
theorem parseBody_subscribeDone {t : Nat} {s : Bytes} (h : (parseBody t).run b s = .ok (.subscribeDone d) b' rest) :
    t = SUBSCRIBE_DONE ∧ (SubscribeDone.parse.run {} s).Leaves d rest := by
  unfold parseBody at h
  by_cases ht : t = SUBSCRIBE_DONE
  · refine ⟨ht, ?_⟩
    subst ht
    obtain ⟨g, hg, hl⟩ := fill_return_ok h
    rw [subscribeDone.inj hg]
    exact hl
  repeat' split at h
  all_goals first
    | (obtain ⟨g, hg, -⟩ := fill_return_ok h; cases hg)
    | cases h

variable {order : List Entry}

theorem subscribeDone_not_recovered (h : (subscribeDone d).InRange)
    {trailing : Bytes} (hle : trailing.length ≤ rest.length) :
    parseMOQTMessage.run b (enc d.subscribeID ++ (subscribeDone d).encBody order ++ trailing) ≠
      .ok (subscribeDone d).normalize b' rest := by
  intro hrun
  have hid' : Fits d.subscribeID := h.lead
  have hst : Fits d.statusCode := h.ints _ (by simp [Message.ints])
  unfold parseMOQTMessage at hrun
  rw [List.append_assoc, bind_ok (reads_enc hid' b _)] at hrun
  obtain ⟨hid, hl⟩ := parseBody_subscribeDone hrun
  simp only [Message.encBody, encStr, List.append_assoc] at hl
  -- the status code is taken for the subscribe id, the reason's length for the status code
  rcases hl.field_bind with ⟨e, b1, hr, -⟩ | ⟨id, b1, s1, hr, hl⟩ <;>
    rw [reads_enc hst _ _] at hr
  · cases hr
  obtain ⟨rfl, rfl, rfl⟩ := Res.ok.inj hr
  rcases hl.field_bind with ⟨e, b1, hr, -⟩ | ⟨st, b1, s1, hr, hl⟩ <;>
    rw [reads_enc d.reasonPhrase.len_lt _ _] at hr
  · cases hr
  obtain ⟨rfl, rfl, rfl⟩ := Res.ok.inj hr
  rcases hl.field_bind with ⟨e, b1, hr, hd⟩ | ⟨str, b1, s1, hr, hl⟩
  · -- no reason is read: the phrase is empty, so its length is not the status code 11
    obtain ⟨rfl, -⟩ := parseVarIntString_err hr
    have h1 := congrArg SubscribeDone.subscribeID hd
    have h2 := congrArg SubscribeDone.statusCode hd
    have h3 := congrArg SubscribeDone.reasonPhrase hd
    rw [h1, h2, h3] at hid
    cases hid
  obtain ⟨rfl, hread⟩ := parseVarIntString_ok hr
  have hend := parseContent_end hl
  obtain ⟨k1, k2, k3⟩ := hend.keeps
  have h1 : d.subscribeID = d.statusCode := k1
  have h2 : d.statusCode = d.reasonPhrase.len := k2
  have h3 : d.reasonPhrase = str := k3
  have hlen : str.len = 11 := by rw [← h3, ← h2, ← h1, hid]; rfl
  rw [hlen, ← h3] at hread
  have hbytes : ∀ F : Bytes, d.reasonPhrase.data ++ ([d.contentExists] ++ (F ++ trailing)) =
      d.reasonPhrase.data ++ ([d.contentExists] ++ F) ++ trailing := by simp
  rw [hbytes] at hread
  exact shifted_impossible hread hend ⟨rfl, rfl⟩ rfl hle

/-! ## Which messages come back -/

/-- The messages that survive encoding and parsing. -/
def Message.Recoverable : Message → Prop
  | subscribeDone _ => False
  | subscribeOk m => m.contentExists = 1 → m.largestGroupId = 0 ∧ m.largestObjectId = 0
  | _ => True

/-- `ParseMOQTMessage` on `msg.GetBytes()` and trailing bytes returns the
message, absent fields zero, and leaves exactly the trailing bytes. -/
def RoundTrips (m : Message) (order : List Entry) (trailing : Bytes) : Prop :=
  ∃ bytes, m.getBytes order = some bytes ∧ parseMOQTMessage.run () (bytes ++ trailing) = .ok m.normalize () trailing

theorem decoded_eq_normalize_iff (hd : ∀ d, m ≠ .subscribeDone d) : m.decoded = m.normalize ↔ m.Recoverable := by
  cases m with
  | subscribeDone d => exact absurd rfl (hd d)
  | subscribeOk m =>
    by_cases hc : m.contentExists = 1
    · simp only [Message.decoded, Message.normalize, Message.Recoverable, hc, if_true, true_implies,
        Message.subscribeOk.injEq, SubscribeOk.mk.injEq, true_and]
      omega
    · simp [Message.decoded, Message.normalize, Message.Recoverable, hc]
  | _ => exact ⟨fun _ => trivial, fun _ => rfl⟩

/-- When at least as much as follows the message is left unread, the message
comes back only if it is one of those, and exactly what follows it is left. -/
theorem parse_returns_iff (h : m.InRange) (ho : Enumerates order m.params) (trailing rest : Bytes)
    (hle : trailing.length ≤ rest.length) :
    parseMOQTMessage.run () (enc m.lead ++ m.encBody order ++ trailing) = .ok m.normalize () rest ↔
      m.Recoverable ∧ rest = trailing := by
  by_cases hd : ∀ d, m ≠ .subscribeDone d
  · rw [reads_parseMOQTMessage h ho hd () trailing, ← decoded_eq_normalize_iff hd]
    constructor
    · intro hp
      obtain ⟨h1, -, h2⟩ := Res.ok.inj hp
      exact ⟨h1, h2.symm⟩
    · intro ⟨h1, h2⟩
      rw [h1, h2]
  simp only [not_forall, not_not] at hd
  obtain ⟨d, rfl⟩ := hd
  exact ⟨fun hp => absurd hp (subscribeDone_not_recovered h hle), fun hp => hp.1.elim⟩

/-- For every message with numbers below 2^62 and known parameters, every
order of the parameter map and all trailing bytes. -/
theorem roundTrips_iff {m : Message} {order : List Entry} (h : m.InRange)
    (ho : Enumerates order m.params) (trailing : Bytes) : RoundTrips m order trailing ↔ m.Recoverable := by
  have hp := parse_returns_iff h ho trailing trailing le_rfl
  constructor
  · intro ⟨bytes, hb, hrun⟩
    rw [getBytes_eq h ho] at hb
    rw [← some.inj hb] at hrun
    exact (hp.mp hrun).1
  · intro hr
    exact ⟨_, getBytes_eq h ho, hp.mpr ⟨hr, rfl⟩⟩

/-- A `Subscribe` with the range filter and a `SubscribeOk` whose largest ids are not zero. -/
theorem roundTrips_iff_range_and_largest :
    RoundTrips (.subscribe { subscribeID := 1, filterType := 4, endGroup := 7 }) [] [0x0A] ∧
    ¬ RoundTrips (.subscribeOk { contentExists := 1, largestGroupId := 7 }) [] [] := by
  have hk : Parameters.Known ∅ := fun e he => absurd he (Multiset.notMem_zero e)
  have h1 : (Message.subscribe { subscribeID := 1, filterType := 4, endGroup := 7 }).InRange :=
    ⟨by decide, hk⟩
  have h2 : (Message.subscribeOk { contentExists := 1, largestGroupId := 7 }).InRange :=
    ⟨by decide, hk⟩
  refine ⟨(roundTrips_iff h1 rfl _).mpr trivial, fun h => ?_⟩
  exact absurd ((roundTrips_iff h2 rfl _).mp h rfl).1 (by decide)

/-- A `SubscribeDone` is not recognised, and a `SubscribeOk` comes back with its
group id in the place of its object id. -/
theorem subscribeDone_subscribeOk_lost :
    (getBytes [] (.subscribeDone { subscribeID := 1 }) = some [1, 0, 0, 0] ∧
      parseMOQTMessage.run () [1, 0, 0, 0] = .err (.errorf "unkown MOQT Message 1 <nil>") () [0, 0, 0]) ∧
    (getBytes [] (.subscribeOk { contentExists := 1, largestGroupId := 7, largestObjectId := 5 }) =
        some [4, 0, 0, 1, 5, 7] ∧
      parseMOQTMessage.run () [4, 0, 0, 1, 5, 7] =
        .ok (.subscribeOk { contentExists := 1, largestGroupId := 0, largestObjectId := 7 }) () []) := by
  decide +kernel

/-! ## Truncated messages -/

/-- The cases of the switch in `ParseMOQTMessage`. -/
def messageTypes : List Nat :=
  [CLIENT_SETUP, SERVER_SETUP, ANNOUNCE, ANNOUNCE_OK, SUBSCRIBE, SUBSCRIBE_OK, UNSUBSCRIBE, SUBSCRIBE_DONE]

/-- Behind a known type no error is reported. -/
theorem parseBody_err_iff (t : Nat) (b : β) (s : Bytes) :
    (∃ e b' rest, (parseBody t).run b s = .err e b' rest) ↔ t ∉ messageTypes := by
  have hfill : ∀ {γ : Type} (p : Act Err γ Unit) (zero : γ) (f : γ → Message) (e : Err) (b' : β)
      (rest : Bytes), (Act.fill p zero >>= fun g => pure (f g)).run b s ≠ .err e b' rest := by
    intro γ p zero f e b' rest h
    simp only [Bind.bind, Act.fill] at h
    cases hp : p.run zero s <;> rw [hp] at h <;> cases h
  constructor
  · rintro ⟨e, b', rest, h⟩ hmem
    simp only [messageTypes, mem_cons, List.not_mem_nil, or_false] at hmem
    rcases hmem with rfl | rfl | rfl | rfl | rfl | rfl | rfl | rfl <;>
      exact hfill _ _ _ _ _ _ h
  intro hmem
  simp only [messageTypes, mem_cons, List.not_mem_nil, or_false, not_or] at hmem
  obtain ⟨h1, h2, h3, h4, h5, h6, h7, h8⟩ := hmem
  unfold parseBody
  rw [if_neg h1, if_neg h2, if_neg h3, if_neg h4, if_neg h5, if_neg h6, if_neg h7, if_neg h8]
  exact ⟨_, b, s, rfl⟩

/-- A step of an encoder: the bytes written so far stay. -/
def Grows (k : Bytes → Option Bytes) : Prop := ∀ d d', k d = some d' → d <+: d'

theorem grows_append (v : Nat) : Grows (append · v) := by
  intro d d' h
  simp only [append_eq] at h
  split at h
  · rw [← some.inj h]; exact prefix_append _ _
  · cases h

theorem grows_data {f : Bytes → Bytes} (hf : ∀ d, d <+: f d) : Grows (fun d => some (f d)) := by
  intro d d' h
  cases h
  exact hf d

theorem Grows.data (h : Grows k) (x : Bytes) : Grows (fun d => k (d ++ x)) := by
  intro d d' hd
  exact (prefix_append d x).trans (h _ _ hd)

theorem Grows.ite {k' : Bytes → Option Bytes} {c : Prop} [Decidable c] (h : Grows k)
    (h' : Grows k') : Grows (fun d => if c then k d else k' d) := by
  intro d d' hd
  split at hd
  · exact h d d' hd
  · exact h' d d' hd

theorem Grows.bind {k' : Bytes → Option Bytes} (h : Grows k) (h' : Grows k') : Grows (fun d => k d >>= k') := by
  intro d d' hd
  obtain ⟨d1, h1, h2⟩ := bind_eq_some_iff.mp hd
  exact (h d d1 h1).trans (h' d1 d' h2)

theorem Grows.bind_const {α : Type} {o : Option α} {k : α → Bytes → Option Bytes}
    (h : ∀ a, Grows (k a)) : Grows (fun d => o >>= fun a => k a d) := by
  intro d d' hd
  obtain ⟨a, -, h2⟩ := bind_eq_some_iff.mp hd
  exact h a d d' h2

theorem grows_appendIf (c : Prop) [Decidable c] (v : Nat) : Grows (appendIf c · v) := by
  intro d d' h
  unfold appendIf at h
  split at h
  · exact grows_append v d d' h
  · rw [some.inj h]

theorem grows_foldlM (vs : List Nat) : Grows (vs.foldlM append ·) := by
  induction vs with
  | nil => intro d d' h; rw [some.inj h]
  | cons v vs ih => exact (grows_append v).bind ih

theorem lead_of_grows {t : Nat} {bytes : Bytes} (hk : Grows k)
    (h : (append [] t >>= k) = some bytes) : Fits t ∧ enc t <+: bytes := by
  obtain ⟨d, h1, h2⟩ := bind_eq_some_iff.mp h
  rw [append_eq] at h1
  split at h1
  · rename_i hf
    rw [← some.inj h1] at h2
    exact ⟨hf, hk _ _ h2⟩
  · cases h1

theorem getBytes_lead {bytes : Bytes} (h : m.getBytes order = some bytes) : Fits m.lead ∧ enc m.lead <+: bytes := by
  have happ : ∀ x d : Bytes, d <+: d ++ x := fun x d => prefix_append d x
  have happ2 : ∀ x y d : Bytes, d <+: d ++ x ++ y := fun x y d =>
    (happ x d).trans (prefix_append _ y)
  have hstay : Grows some := grows_data fun d => List.prefix_rfl
  cases m with
  | clientSetup m =>
    exact lead_of_grows ((grows_append _).bind ((grows_foldlM _).bind
      (Grows.bind_const fun x => grows_data (happ x)))) h
  | serverSetup m =>
    exact lead_of_grows ((grows_append _).bind (Grows.bind_const fun x => grows_data (happ x))) h
  | announce m =>
    exact lead_of_grows ((grows_append _).bind (Grows.bind_const fun x => grows_data (happ2 _ x))) h
  | announceOk m => exact lead_of_grows ((grows_append _).bind (grows_data (happ _))) h
  | subscribe m =>
    have hrange := (grows_append m.filterType).bind ((grows_appendIf m.Starts m.startGroup).bind
      ((grows_appendIf m.Starts m.startObject).bind ((grows_appendIf m.Ends m.endGroup).bind
      ((grows_appendIf m.Ends m.endObject).bind
      (Grows.bind_const (o := m.params.getBytes order) fun z => grows_data (happ z))))))
    exact lead_of_grows ((grows_append _).bind ((grows_append _).bind
      (Grows.bind_const fun x => Grows.data (Grows.bind_const fun y => hrange.data y) x))) h
  | subscribeOk m =>
    exact lead_of_grows ((grows_append _).bind ((grows_append _).bind
      (Grows.data (Grows.ite ((grows_append _).bind (grows_append _)) hstay) _))) h
  | subscribeDone m =>
    exact lead_of_grows ((grows_append _).bind ((grows_append _).bind
      (Grows.data (Grows.data (Grows.ite ((grows_append _).bind (grows_append _)) hstay) _) _))) h
  | unsubcribe m => exact lead_of_grows (grows_append _) h

/-- `ParseMOQTMessage` reports an error on a prefix of an encoding, strict or
not, exactly when the prefix ends inside the first number, or that number (the
subscribe id of a `SubscribeDone`) is no message type. -/
theorem truncated_rejected_iff {m : Message} {order : List Entry} {bytes pre : Bytes}
    (hb : m.getBytes order = some bytes) (hpre : pre <+: bytes) :
    (∃ e rest, parseMOQTMessage.run () pre = .err e () rest) ↔
      pre.length < (enc m.lead).length ∨ m.lead ∉ messageTypes := by
  obtain ⟨hf, hlead⟩ := getBytes_lead hb
  rcases Nat.lt_or_ge pre.length (enc m.lead).length with hlt | hge
  · have hp := List.prefix_of_prefix_length_le hpre hlead hlt.le
    obtain ⟨e, b', he⟩ := starves_enc hf () pre hp (fun h => by rw [h] at hlt; omega)
    exact ⟨fun _ => Or.inl hlt, fun _ => ⟨e, [], bind_err he⟩⟩
  obtain ⟨body, rfl⟩ := List.prefix_of_prefix_length_le hlead hpre hge
  have hrun : parseMOQTMessage.run () (enc m.lead ++ body) = (parseBody m.lead).run () body :=
    bind_ok (reads_enc hf () body)
  rw [hrun, ← parseBody_err_iff m.lead () body]
  constructor
  · intro ⟨e, rest, h⟩
    exact Or.inr ⟨e, (), rest, h⟩
  intro h
  rcases h with hlt | ⟨e, b', rest, h⟩
  · omega
  · exact ⟨e, rest, h⟩

/-- The first byte of a `ServerSetup` alone is rejected, its type is not. -/
theorem truncated_rejected_iff_serverSetup :
    getBytes [] (.serverSetup { selectedVersion := 1 }) = some [0x40, 0x41, 1, 0] ∧
    (∃ e rest, parseMOQTMessage.run () [0x40] = .err e () rest) ∧
    ¬ ∃ e rest, parseMOQTMessage.run () [0x40, 0x41] = .err e () rest := by
  have hb : getBytes [] (.serverSetup { selectedVersion := 1 }) = some [0x40, 0x41, 1, 0] := by
    decide +kernel
  refine ⟨hb, (truncated_rejected_iff hb (by decide)).mpr (by decide), fun h => ?_⟩
  exact absurd ((truncated_rejected_iff hb (by decide)).mp h) (by decide)

/-- An `Announce` of "ab" cut inside the name is returned as an `Announce` of nothing. -/
theorem truncated_announce_accepted : getBytes [] (.announce { trackNameSpace := ⟨[97, 98], by decide⟩ }) =
      some [6, 2, 97, 98, 0] ∧
    parseMOQTMessage.run () [6, 2, 97] = .ok (.announce {}) () [] := by
  decide +kernel

end MoqQuic.L3.Moqt
