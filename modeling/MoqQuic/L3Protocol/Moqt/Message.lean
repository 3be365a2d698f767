import MoqQuic.L3Protocol.Moqt.Parameter

/-!
# MOQT control messages (`moqt/wire/*.go`)

The eight message types `ParseMOQTMessage` dispatches to, each with its
`Parse` and its `GetBytes`. A `Parse` method is a sequence of `Act.field`
reads that stops at the first error, with the fields read so far assigned;
`ParseMOQTMessage` drops that error (`message.go:107`), so it goes on with a
half-filled message. `ClientSetup` and `ServerSetup` drop the error of their
parameter list in the same way.

Two encoders disagree with their decoder: `SubscribeDone.GetBytes` does not
write its type, and `SubscribeOk.Parse` assigns the object id twice.

Results:
* `getBytes_eq`: what `GetBytes` writes, for numbers below 2^62.
* `reads_parseMOQTMessage`: what `ParseMOQTMessage` returns on those bytes,
  whatever follows them.
-/
namespace MoqQuic.L3.Moqt
open Reader L1.Quicvarint List
open Reads (field bind_pure fill assign)
open Act (field fill assign guard sub)

/-! ## Message types -/

def SUBSCRIBE : Nat := 0x3
def SUBSCRIBE_OK : Nat := 0x4
def ANNOUNCE : Nat := 0x6
def ANNOUNCE_OK : Nat := 0x7
def UNSUBSCRIBE : Nat := 0xA
def SUBSCRIBE_DONE : Nat := 0xB
def CLIENT_SETUP : Nat := 0x40
def SERVER_SETUP : Nat := 0x41

def AbsoluteStart : Nat := 0x3
def AbsoluteRange : Nat := 0x4

structure ClientSetup where
  supportedVersions : List Nat := []
  params : Parameters := ∅
  deriving DecidableEq

structure ServerSetup where
  selectedVersion : Nat := 0
  params : Parameters := ∅
  deriving DecidableEq

structure Announce where
  trackNameSpace : GoString := .empty
  params : Parameters := ∅
  deriving DecidableEq

structure AnnounceOk where
  trackNameSpace : GoString := .empty
  deriving DecidableEq

structure Subscribe where
  subscribeID : Nat := 0
  trackAlias : Nat := 0
  trackNameSpace : GoString := .empty
  trackName : GoString := .empty
  filterType : Nat := 0
  startGroup : Nat := 0
  startObject : Nat := 0
  endGroup : Nat := 0
  endObject : Nat := 0
  params : Parameters := ∅
  deriving DecidableEq

structure SubscribeOk where
  subscribeID : Nat := 0
  expires : Nat := 0
  contentExists : UInt8 := 0
  largestGroupId : Nat := 0
  largestObjectId : Nat := 0
  deriving DecidableEq

structure SubscribeDone where
  subscribeID : Nat := 0
  statusCode : Nat := 0
  reasonPhrase : GoString := .empty
  contentExists : UInt8 := 0
  finalGroup : Nat := 0
  finalObject : Nat := 0
  deriving DecidableEq

structure Unsubcribe where
  subscriptionID : Nat := 0
  deriving DecidableEq

inductive Message where
  | clientSetup (m : ClientSetup)
  | serverSetup (m : ServerSetup)
  | announce (m : Announce)
  | announceOk (m : AnnounceOk)
  | subscribe (m : Subscribe)
  | subscribeOk (m : SubscribeOk)
  | subscribeDone (m : SubscribeDone)
  | unsubcribe (m : Unsubcribe)
  deriving DecidableEq

/-! ## Parsing -/

/-- mirrors clientsetup.go:52-78 -/
def ClientSetup.parse : Act Err ClientSetup Unit := do
  let nversions ← read
  Act.repeatN nversions do
    let version ← read
    assign fun setup => { setup with supportedVersions := setup.supportedVersions ++ [version] }
  -- the error of `params.Parse` is dropped
  let params ← fill Parameters.parse ∅
  assign fun setup => { setup with params := params }

/-- mirrors serversetup.go:50-66 -/
def ServerSetup.parse : Act Err ServerSetup Unit := do
  field read 0 fun v setup => { setup with selectedVersion := v }
  -- the error of `params.Parse` is dropped
  let params ← fill Parameters.parse ∅
  assign fun setup => { setup with params := params }

/-- mirrors announce.go:18-34 -/
def Announce.parse : Act Err Announce Unit := do
  field parseVarIntString .empty fun v a => { a with trackNameSpace := v }
  let params ← sub Parameters.parse ∅
  assign fun a => { a with params := params }

/-- mirrors announceok.go:21-24 -/
def AnnounceOk.parse : Act Err AnnounceOk Unit :=
  field parseVarIntString .empty fun v msg => { msg with trackNameSpace := v }

/-- The fields of the start of the range are on the wire. -/
abbrev Subscribe.Starts (s : Subscribe) : Prop :=
  s.filterType = AbsoluteStart ∨ s.filterType = AbsoluteRange

/-- The fields of the end of the range are on the wire. -/
abbrev Subscribe.Ends (s : Subscribe) : Prop := s.filterType = AbsoluteRange

/-- mirrors subscribe.go:48-113 -/
def Subscribe.parse : Act Err Subscribe Unit := do
  field read 0 fun v s => { s with subscribeID := v }
  field read 0 fun v s => { s with trackAlias := v }
  field parseVarIntString .empty fun v s => { s with trackNameSpace := v }
  field parseVarIntString .empty fun v s => { s with trackName := v }
  field read 0 fun v s => { s with filterType := v }
  guard Starts (field read 0 fun v s => { s with startGroup := v })
  guard Starts (field read 0 fun v s => { s with startObject := v })
  guard Ends (field read 0 fun v s => { s with endGroup := v })
  guard Ends (field read 0 fun v s => { s with endObject := v })
  let params ← sub Parameters.parse ∅
  assign fun s => { s with params := params }

/-- mirrors subscribeok.go:30-55 -/
def SubscribeOk.parse : Act Err SubscribeOk Unit := do
  field read 0 fun v s => { s with subscribeID := v }
  field read 0 fun v s => { s with expires := v }
  field readByte 0 fun v s => { s with contentExists := v }
  guard (fun s => s.contentExists = 1) do
    -- both reads assign the object id; the group id is never assigned
    field read 0 fun v s => { s with largestObjectId := v }
    field read 0 fun v s => { s with largestObjectId := v }

/-- mirrors subscribedone.go:32-45 -/
def SubscribeDone.parseContent : Act Err SubscribeDone Unit := do
  field readByte 0 fun v m => { m with contentExists := v }
  guard (fun m => m.contentExists = 1) do
    field read 0 fun v m => { m with finalGroup := v }
    field read 0 fun v m => { m with finalObject := v }

/-- mirrors subscribedone.go:18-48 -/
def SubscribeDone.parse : Act Err SubscribeDone Unit := do
  field read 0 fun v m => { m with subscribeID := v }
  field read 0 fun v m => { m with statusCode := v }
  field parseVarIntString .empty fun v m => { m with reasonPhrase := v }
  parseContent

/-- mirrors unsubscribe.go:13-20 -/
def Unsubcribe.parse : Act Err Unsubcribe Unit :=
  field read 0 fun v msg => { msg with subscriptionID := v }

variable {β : Type}

/-- The switch of `ParseMOQTMessage` and the call behind it, whose error is
dropped. mirrors message.go:86-109 -/
def parseBody (mtype : Nat) : Act Err β Message :=
  if mtype = CLIENT_SETUP then do return .clientSetup (← fill ClientSetup.parse {})
  else if mtype = SERVER_SETUP then do return .serverSetup (← fill ServerSetup.parse {})
  else if mtype = ANNOUNCE then do return .announce (← fill Announce.parse {})
  else if mtype = ANNOUNCE_OK then do return .announceOk (← fill AnnounceOk.parse {})
  else if mtype = SUBSCRIBE then do return .subscribe (← fill Subscribe.parse {})
  else if mtype = SUBSCRIBE_OK then do return .subscribeOk (← fill SubscribeOk.parse {})
  else if mtype = UNSUBSCRIBE then do return .unsubcribe (← fill Unsubcribe.parse {})
  else if mtype = SUBSCRIBE_DONE then do return .subscribeDone (← fill SubscribeDone.parse {})
  else Act.throw (.errorf s!"unkown MOQT Message {mtype} <nil>")

/-- mirrors message.go:76-110 -/
def parseMOQTMessage : Act Err β Message := do
  let mtype ← read
  parseBody mtype

/-! ## Writing -/

/-- `if c { data = quicvarint.Append(data, v) }` -/
def appendIf (c : Prop) [Decidable c] (data : Bytes) (v : Nat) : Option Bytes :=
  if c then append data v else some data

/-- Lines 41-47 are `Parameters.GetBytes` written out.
mirrors clientsetup.go:29-50 -/
def ClientSetup.getBytes (setup : ClientSetup) (order : List Entry) : Option Bytes := do
  let data ← append [] CLIENT_SETUP
  let data ← append data setup.supportedVersions.length
  let data ← setup.supportedVersions.foldlM append data
  return data ++ (← setup.params.getBytes order)

/-- Lines 40-45 are `Parameters.GetBytes` written out.
mirrors serversetup.go:34-48 -/
def ServerSetup.getBytes (setup : ServerSetup) (order : List Entry) : Option Bytes := do
  let data ← append [] SERVER_SETUP
  let data ← append data setup.selectedVersion
  return data ++ (← setup.params.getBytes order)

/-- mirrors announce.go:36-47 -/
def Announce.getBytes (a : Announce) (order : List Entry) : Option Bytes := do
  let data ← append [] ANNOUNCE
  let data ← append data a.trackNameSpace.len
  return data ++ a.trackNameSpace.data ++ (← a.params.getBytes order)

/-- mirrors announceok.go:26-33 -/
def AnnounceOk.getBytes (msg : AnnounceOk) : Option Bytes := do
  let data ← append [] ANNOUNCE_OK
  let data ← append data msg.trackNameSpace.len
  return data ++ msg.trackNameSpace.data

/-- mirrors subscribe.go:115-144 -/
def Subscribe.getBytes (s : Subscribe) (order : List Entry) : Option Bytes := do
  let data ← append [] SUBSCRIBE
  let data ← append data s.subscribeID
  let data ← append data s.trackAlias
  let data := data ++ (← getBytesVarIntString s.trackNameSpace)
  let data := data ++ (← getBytesVarIntString s.trackName)
  let data ← append data s.filterType
  let data ← appendIf s.Starts data s.startGroup
  let data ← appendIf s.Starts data s.startObject
  let data ← appendIf s.Ends data s.endGroup
  let data ← appendIf s.Ends data s.endObject
  return data ++ (← s.params.getBytes order)

/-- mirrors subscribeok.go:57-71 -/
def SubscribeOk.getBytes (s : SubscribeOk) : Option Bytes := do
  let data ← append [] SUBSCRIBE_OK
  let data ← append data s.subscribeID
  let data ← append data s.expires
  let data := data ++ [s.contentExists]
  if s.contentExists = 1 then
    let data ← append data s.largestObjectId
    append data s.largestGroupId
  else return data

/-- No type is written. mirrors subscribedone.go:50-67 -/
def SubscribeDone.getBytes (m : SubscribeDone) : Option Bytes := do
  let data ← append [] m.subscribeID
  let data ← append data m.statusCode
  let data ← append data m.reasonPhrase.len
  let data := data ++ m.reasonPhrase.data ++ [m.contentExists]
  if m.contentExists = 1 then
    let data ← append data m.finalGroup
    append data m.finalObject
  else return data

/-- mirrors unsubscribe.go:22-28 -/
def Unsubcribe.getBytes (msg : Unsubcribe) : Option Bytes := do
  let data ← append [] UNSUBSCRIBE
  append data msg.subscriptionID

namespace Message

/-- `msg.GetBytes()`, walking the parameter map in the given order. -/
def getBytes (order : List Entry) : Message → Option Bytes
  | clientSetup m => m.getBytes order
  | serverSetup m => m.getBytes order
  | announce m => m.getBytes order
  | announceOk m => m.getBytes
  | subscribe m => m.getBytes order
  | subscribeOk m => m.getBytes
  | subscribeDone m => m.getBytes
  | unsubcribe m => m.getBytes

/-- The parameter map of a message; empty for the types that have none. -/
def params : Message → Parameters
  | clientSetup m => m.params
  | serverSetup m => m.params
  | announce m => m.params
  | subscribe m => m.params
  | _ => ∅

/-- Every number of the message, those its encoding leaves out included. -/
def ints : Message → List Nat
  | clientSetup m => m.supportedVersions.length :: m.supportedVersions
  | serverSetup m => [m.selectedVersion]
  | announce _ => []
  | announceOk _ => []
  | subscribe m => [m.subscribeID, m.trackAlias, m.filterType, m.startGroup, m.startObject, m.endGroup, m.endObject]
  | subscribeOk m => [m.subscribeID, m.expires, m.largestGroupId, m.largestObjectId]
  | subscribeDone m => [m.subscribeID, m.statusCode, m.finalGroup, m.finalObject]
  | unsubcribe m => [m.subscriptionID]

/-- Numbers below 2^62 and parameters of the two known types. -/
structure InRange (m : Message) : Prop where
  ints : ∀ i ∈ m.ints, Fits i
  params : m.params.Known

/-- The message with the fields its encoding leaves out set to zero. -/
def normalize : Message → Message
  | subscribe m => subscribe { m with
      startGroup := if m.Starts then m.startGroup else 0
      startObject := if m.Starts then m.startObject else 0
      endGroup := if m.Ends then m.endGroup else 0
      endObject := if m.Ends then m.endObject else 0 }
  | subscribeOk m => subscribeOk { m with
      largestGroupId := if m.contentExists = 1 then m.largestGroupId else 0
      largestObjectId := if m.contentExists = 1 then m.largestObjectId else 0 }
  | subscribeDone m => subscribeDone { m with
      finalGroup := if m.contentExists = 1 then m.finalGroup else 0
      finalObject := if m.contentExists = 1 then m.finalObject else 0 }
  | m => m

/-- The number at the head of the encoding: the type, except for
`SubscribeDone`, which starts with its subscribe id. -/
def lead : Message → Nat
  | clientSetup _ => CLIENT_SETUP
  | serverSetup _ => SERVER_SETUP
  | announce _ => ANNOUNCE
  | announceOk _ => ANNOUNCE_OK
  | subscribe _ => SUBSCRIBE
  | subscribeOk _ => SUBSCRIBE_OK
  | subscribeDone m => m.subscribeID
  | unsubcribe _ => UNSUBSCRIBE

/-- The types that end in a parameter list. -/
def Carries : Message → Prop
  | clientSetup _ | serverSetup _ | announce _ | subscribe _ => True
  | _ => False

/-- What stands between the type and the parameter list. -/
def encHead : Message → Bytes
  | clientSetup m => enc m.supportedVersions.length ++ m.supportedVersions.flatMap enc
  | serverSetup m => enc m.selectedVersion
  | announce m => encStr m.trackNameSpace
  | subscribe m =>
    enc m.subscribeID ++ (enc m.trackAlias ++ (encStr m.trackNameSpace ++ (encStr m.trackName ++
      (enc m.filterType ++ ((if m.Starts then enc m.startGroup else []) ++
      ((if m.Starts then enc m.startObject else []) ++ ((if m.Ends then enc m.endGroup else []) ++
      (if m.Ends then enc m.endObject else []))))))))
  | _ => []

/-- The bytes behind the leading number. -/
def encBody (order : List Entry) : Message → Bytes
  | announceOk m => encStr m.trackNameSpace
  | subscribeOk m =>
    enc m.subscribeID ++ (enc m.expires ++ ([m.contentExists] ++
      (if m.contentExists = 1 then enc m.largestObjectId ++ enc m.largestGroupId else [])))
  | subscribeDone m =>
    enc m.statusCode ++ (encStr m.reasonPhrase ++ ([m.contentExists] ++
      (if m.contentExists = 1 then enc m.finalGroup ++ enc m.finalObject else [])))
  | unsubcribe m => enc m.subscriptionID
  | m => m.encHead ++ encParams order

end Message

open Message (lead ints encBody getBytes encHead)

theorem foldlM_append (vs : List Nat) (h : ∀ v ∈ vs, Fits v) (data : Bytes) :
    vs.foldlM append data = some (data ++ vs.flatMap enc) := by
  induction vs generalizing data with
  | nil => simp
  | cons v vs ih =>
    have ht := ih (fun v' h' => h v' (mem_cons_of_mem _ h')) (data ++ enc v)
    rw [foldlM_cons, append_fits _ (h v mem_cons_self), flatMap_cons, ← append_assoc, ← ht]
    rfl

theorem appendIf_fits (c : Prop) [Decidable c] (data : Bytes) {v : Nat} (h : Fits v) :
    appendIf c data v = some (data ++ if c then enc v else []) := by
  unfold appendIf
  by_cases hc : c
  · rw [if_pos hc, if_pos hc, append_fits _ h]
  · rw [if_neg hc, if_neg hc, append_nil]

variable {order : List Entry}

theorem getBytes_eq {m : Message} (h : m.InRange) (ho : Enumerates order m.params) :
    m.getBytes order = some (enc m.lead ++ m.encBody order) := by
  obtain ⟨hi, hk⟩ := h
  cases m with
  | clientSetup m =>
    have hp : m.params.getBytes order = _ := getBytes_params ho hk
    simp only [ints, forall_mem_cons] at hi
    simp [getBytes, ClientSetup.getBytes, lead, encBody, encHead,
      append_fits _ (by decide : Fits CLIENT_SETUP), append_fits _ hi.1, foldlM_append _ hi.2,
      hp]
  | serverSetup m =>
    have hp : m.params.getBytes order = _ := getBytes_params ho hk
    simp only [ints, forall_mem_cons] at hi
    simp [getBytes, ServerSetup.getBytes, lead, encBody, encHead,
      append_fits _ (by decide : Fits SERVER_SETUP), append_fits _ hi.1, hp]
  | announce m =>
    have hp : m.params.getBytes order = _ := getBytes_params ho hk
    simp [getBytes, Announce.getBytes, lead, encBody, encHead, encStr,
      append_fits _ (by decide : Fits ANNOUNCE), append_fits _ m.trackNameSpace.len_lt,
      hp]
  | announceOk m =>
    simp [getBytes, AnnounceOk.getBytes, lead, encBody, encStr,
      append_fits _ (by decide : Fits ANNOUNCE_OK), append_fits _ m.trackNameSpace.len_lt]
  | subscribe m =>
    have hp : m.params.getBytes order = _ := getBytes_params ho hk
    simp only [ints, forall_mem_cons] at hi
    obtain ⟨h1, h2, h3, h4, h5, h6, h7, -⟩ := hi
    simp [getBytes, Subscribe.getBytes, lead, encBody, encHead,
      append_fits _ (by decide : Fits SUBSCRIBE), append_fits _ h1, append_fits _ h2,
      append_fits _ h3, appendIf_fits _ _ h4, appendIf_fits _ _ h5, appendIf_fits _ _ h6, appendIf_fits _ _ h7,
      getBytesVarIntString_eq, hp]
  | subscribeOk m =>
    simp only [ints, forall_mem_cons] at hi
    obtain ⟨h1, h2, h3, h4, -⟩ := hi
    by_cases hc : m.contentExists = 1 <;>
      simp [getBytes, SubscribeOk.getBytes, lead, encBody, hc,
        append_fits _ (by decide : Fits SUBSCRIBE_OK), append_fits _ h1, append_fits _ h2,
        append_fits _ h3, append_fits _ h4]
  | subscribeDone m =>
    simp only [ints, forall_mem_cons] at hi
    obtain ⟨h1, h2, h3, h4, -⟩ := hi
    by_cases hc : m.contentExists = 1 <;>
      simp [getBytes, SubscribeDone.getBytes, lead, encBody, hc, encStr,
        append_fits _ h1, append_fits _ h2, append_fits _ h3, append_fits _ h4,
        append_fits _ m.reasonPhrase.len_lt]
  | unsubcribe m =>
    simp only [ints, forall_mem_cons] at hi
    simp [getBytes, Unsubcribe.getBytes, lead, encBody,
      append_fits _ (by decide : Fits UNSUBSCRIBE), append_fits _ hi.1]

/-! ## `Parse` on what `GetBytes` wrote -/

theorem reads_readByte (x : UInt8) (b : β) : Reads readByte [x] b x b := fun _ => rfl

theorem foldl_versions (vs : List Nat) : ∀ setup : ClientSetup,
    vs.foldl (fun setup v => { setup with supportedVersions := setup.supportedVersions ++ [v] }) setup =
      { setup with supportedVersions := setup.supportedVersions ++ vs } := by
  induction vs with
  | nil => intro setup; simp
  | cons v vs ih => intro setup; rw [foldl_cons, ih]; simp

/-- The part of `ClientSetup.Parse` in front of the parameters. -/
theorem steps_clientSetup {m : ClientSetup} (h : ∀ i ∈ (Message.clientSetup m).ints, Fits i) :
    Steps ClientSetup.parse (Message.clientSetup m).encHead {}
      (fill Parameters.parse ∅ >>= fun ps => assign fun setup => { setup with params := ps })
      { supportedVersions := m.supportedVersions } := by
  simp only [ints, forall_mem_cons] at h
  obtain ⟨hlen, hvs⟩ := h
  have hloop := Reads.repeatN enc (fun s v => { s with supportedVersions := s.supportedVersions ++ [v] })
    m.supportedVersions (fun v hv b => bind_pure (reads_enc (hvs v hv) b) (assign _ b))
    ({} : ClientSetup)
  rw [foldl_versions] at hloop
  exact Steps.bind (reads_enc hlen _) (Steps.last hloop)

theorem steps_serverSetup {m : ServerSetup} (h : ∀ i ∈ (Message.serverSetup m).ints, Fits i) :
    Steps ServerSetup.parse (Message.serverSetup m).encHead {}
      (fill Parameters.parse ∅ >>= fun ps => assign fun setup => { setup with params := ps })
      { selectedVersion := m.selectedVersion } :=
  Steps.last (field (reads_enc (h _ mem_cons_self) _))

theorem steps_announce (m : Announce) : Steps Announce.parse (Message.announce m).encHead {}
      (sub Parameters.parse ∅ >>= fun ps => assign fun a => { a with params := ps })
      { trackNameSpace := m.trackNameSpace } :=
  Steps.last (field (reads_encStr _ _))

/-- `if c { m.f, err = quicvarint.Read(r) }` on a field that is still zero. -/
theorem reads_guard_field {c : β → Prop} [DecidablePred c] {set : Nat → β → β} {v : Nat} {b : β}
    (h : Fits v) (h0 : set 0 b = b) :
    Reads (guard c (field read 0 set)) (if c b then enc v else []) b () (set (if c b then v else 0) b) := by
  by_cases hc : c b
  · rw [if_pos hc, if_pos hc]
    exact Reads.guard_pos hc (field (reads_enc h b))
  rw [if_neg hc, if_neg hc, h0]
  exact Reads.guard_neg hc

theorem steps_subscribe {m : Subscribe} (h : ∀ i ∈ (Message.subscribe m).ints, Fits i) :
    Steps Subscribe.parse (Message.subscribe m).encHead {}
      (sub Parameters.parse ∅ >>= fun ps => assign fun s => { s with params := ps })
      { m with
        startGroup := if m.Starts then m.startGroup else 0
        startObject := if m.Starts then m.startObject else 0
        endGroup := if m.Ends then m.endGroup else 0
        endObject := if m.Ends then m.endObject else 0
        params := ∅ } := by
  simp only [ints, forall_mem_cons] at h
  obtain ⟨h1, h2, h3, h4, h5, h6, h7, -⟩ := h
  exact Steps.bind (field (reads_enc h1 _)) (Steps.bind (field (reads_enc h2 _))
    (Steps.bind (field (reads_encStr _ _)) (Steps.bind (field (reads_encStr _ _))
    (Steps.bind (field (reads_enc h3 _)) (Steps.bind (reads_guard_field h4 rfl)
    (Steps.bind (reads_guard_field h5 rfl) (Steps.bind (reads_guard_field h6 rfl)
    (Steps.last (reads_guard_field h7 rfl)))))))))

theorem reads_announceOk (m : AnnounceOk) (order : List Entry) :
    Reads AnnounceOk.parse ((Message.announceOk m).encBody order) {} () m :=
  field (reads_encStr _ _)

theorem reads_unsubcribe {m : Unsubcribe} (h : (Message.unsubcribe m).InRange) :
    Reads Unsubcribe.parse ((Message.unsubcribe m).encBody order) {} () m :=
  field (reads_enc (h.ints _ mem_cons_self) _)

theorem reads_subscribeOk {m : SubscribeOk} (h : (Message.subscribeOk m).InRange) :
    Reads SubscribeOk.parse ((Message.subscribeOk m).encBody order) {} () { m with
      largestGroupId := 0
      largestObjectId := if m.contentExists = 1 then m.largestGroupId else 0 } := by
  obtain ⟨hi, -⟩ := h
  simp only [ints, forall_mem_cons] at hi
  obtain ⟨h1, h2, h3, h4, -⟩ := hi
  refine Reads.bind (field (reads_enc h1 _)) (Reads.bind (field (reads_enc h2 _))
    (Reads.bind (field (reads_readByte _ _)) ?_))
  by_cases hc : m.contentExists = 1
  · rw [if_pos hc, if_pos hc]
    exact Reads.guard_pos hc (Reads.bind (field (reads_enc h4 _)) (field (reads_enc h3 _)))
  rw [if_neg hc, if_neg hc]
  exact Reads.guard_neg hc

/-- What comes back: `SubscribeOk.Parse` leaves the group id at zero and
stores the last number read, the group id, as the object id. -/
def Message.decoded : Message → Message
  | subscribeOk m => subscribeOk { m with
      largestGroupId := 0
      largestObjectId := if m.contentExists = 1 then m.largestGroupId else 0 }
  | m => m.normalize

variable {m : Message} (h : m.InRange)
include h

theorem Message.InRange.lead : Fits m.lead := by
  cases m with
  | subscribeDone d => exact h.ints _ mem_cons_self
  | _ => simp only [lead]; decide

/-- The parameter list behind a head is read into the message. -/
theorem reads_parameters (ho : Enumerates order m.params) {γ : Type} {g g' : γ} {set : Parameters → γ → γ}
    (hset : set m.params g = g') :
    Reads (fill Parameters.parse ∅ >>= fun ps => assign (set ps)) (encParams order) g () g' ∧
    Reads (sub Parameters.parse ∅ >>= fun ps => assign (set ps)) (encParams order) g () g' := by
  rw [← hset]
  exact ⟨bind_pure (fill g (reads_params ho h.params)) (assign _ g),
    bind_pure (Reads.sub g (reads_params ho h.params)) (assign _ g)⟩

theorem reads_parseMOQTMessage (ho : Enumerates order m.params) (hd : ∀ d, m ≠ .subscribeDone d) (b : β) :
    Reads parseMOQTMessage (enc m.lead ++ m.encBody order) b m.decoded b := by
  refine Reads.bind (reads_enc h.lead b) ?_
  cases m with
  | clientSetup m =>
    have hp := (steps_clientSetup h.ints).reads (reads_parameters h ho rfl).1
    exact bind_pure (fill b hp) (Reads.pure _ b)
  | serverSetup m =>
    have hp := (steps_serverSetup h.ints).reads (reads_parameters h ho rfl).1
    exact bind_pure (fill b hp) (Reads.pure _ b)
  | announce m =>
    have hp := (steps_announce m).reads (reads_parameters h ho rfl).2
    exact bind_pure (fill b hp) (Reads.pure _ b)
  | announceOk m => exact bind_pure (fill b (reads_announceOk m order)) (Reads.pure _ b)
  | subscribe m =>
    have hp := (steps_subscribe h.ints).reads (reads_parameters h ho rfl).2
    exact bind_pure (fill b hp) (Reads.pure _ b)
  | subscribeOk m => exact bind_pure (fill b (reads_subscribeOk h)) (Reads.pure _ b)
  | subscribeDone m => exact absurd rfl (hd m)
  | unsubcribe m => exact bind_pure (fill b (reads_unsubcribe h)) (Reads.pure _ b)

end MoqQuic.L3.Moqt
