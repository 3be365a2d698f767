import MoqQuic.L3Protocol.Moqt.Message

/-!
# MOQT data streams (`stream.go`, `groupstream.go`, `trackstream.go`, `object.go`)

A data stream is a header and then objects. A group stream's header names the
group, and its objects carry no group id; a track stream's objects each start
with theirs. `ReadObject` is called until it fails; the buffer it fills and
its lock are the subject of `L5Concurrency.Pipe`.

`NewTrackStream` takes the alias and does not store it (`trackstream.go:25-37`).
`Object.Parse` ignores the error of `io.ReadFull` (`object.go:30`), so a stream
that ends inside a payload yields an object with the missing bytes zero.

Results:
* `streamRoundTrips_iff`: which streams survive: group streams whose ids have
  an encoding, track streams whose alias is zero.
* `truncated_stream_iff`: a stream cut inside an object yields exactly the
  objects before it and an error only when the cut lies in front of the
  payload.
-/
namespace MoqQuic.L3.Moqt
open Reader L1.Quicvarint Option
open Act (onErr sub field assign)

def STREAM_HEADER_GROUP : Nat := 0x51
def STREAM_HEADER_TRACK : Nat := 0x50

/-! ## Objects -/

structure Object where
  groupID : Nat := 0
  id : Nat := 0
  payload : GoString := .empty
  deriving DecidableEq

/-- mirrors object.go:15-33 -/
def Object.parse : Act Err Object Unit := do
  field read 0 fun v object => { object with id := v }
  let length ← read
  let ⟨h⟩ ← makeSlice length
  -- the error of `io.ReadFull` is dropped: what was not read stays zero
  let (payload, _) ← readFull length
  assign fun object => { object with payload := ⟨payload.1, buffer_fits payload h⟩ }

/-- mirrors object.go:35-45 -/
def Object.getBytes (object : Object) : Option Bytes := do
  let data ← append [] object.id
  let data ← append data object.payload.len
  return data ++ object.payload.data

/-! ## Streams -/

structure GroupStream where
  subID : Nat := 0
  trackAlias : Nat := 0
  groupID : Nat := 0
  sendOrder : Nat := 0
  objectsArr : List Object := []
  isEOF : Bool := false
  deriving DecidableEq

structure TrackStream where
  subID : Nat := 0
  trackAlias : Nat := 0
  sendOrder : Nat := 0
  objectsArr : List Object := []
  isEOF : Bool := false
  deriving DecidableEq

/-- mirrors groupstream.go:26-40 -/
def newGroupStream (subid grouid trackAlias : Nat) : GroupStream :=
  { subID := subid, trackAlias := trackAlias, sendOrder := 0, groupID := grouid }

/-- The alias is not stored. mirrors trackstream.go:25-37 -/
def newTrackStream (subid _trackAlias : Nat) : TrackStream := { subID := subid }

namespace GroupStream

/-- mirrors groupstream.go:42-67 -/
def parse (subid : Nat) : Act Err GroupStream Unit := do
  assign fun gs => { gs with subID := subid, isEOF := false, objectsArr := [] }
  field read 0 fun v gs => { gs with trackAlias := v }
  field read 0 fun v gs => { gs with groupID := v }
  field read 0 fun v gs => { gs with sendOrder := v }

/-- mirrors groupstream.go:93-103 -/
def getHeaderBytes (gs : GroupStream) : Option Bytes := do
  let data ← append [] STREAM_HEADER_GROUP
  let data ← append data gs.subID
  let data ← append data gs.trackAlias
  let data ← append data gs.groupID
  append data gs.sendOrder

/-- What the loop of `Pipe` adds for one object. mirrors groupstream.go:127-128 -/
def objectBytes (obj : Object) : Option Bytes := obj.getBytes

/-- The buffered objects, the flag and the wake-up are in `L5Concurrency.Pipe`.
mirrors groupstream.go:178-183 -/
def close (gs : GroupStream) : GroupStream := { gs with isEOF := true }

/-- mirrors groupstream.go:145-169 -/
def readObject : Act Err GroupStream (Nat × Object) := do
  let object ← onErr (sub Object.parse {}) fun err gs => if err = .eof then gs.close else gs
  assign fun gs => { gs with objectsArr := gs.objectsArr ++ [object] }
  let gs ← Act.target
  return (gs.groupID, object)

end GroupStream

namespace TrackStream

/-- The buffer is not reset. mirrors trackstream.go:39-59 -/
def parse (subid : Nat) : Act Err TrackStream Unit := do
  assign fun ts => { ts with subID := subid, isEOF := false }
  field read 0 fun v ts => { ts with trackAlias := v }
  field read 0 fun v ts => { ts with sendOrder := v }

/-- mirrors trackstream.go:85-95 -/
def getHeaderBytes (ts : TrackStream) : Option Bytes := do
  let data ← append [] STREAM_HEADER_TRACK
  let data ← append data ts.subID
  let data ← append data ts.trackAlias
  append data ts.sendOrder

/-- What the loop of `Pipe` adds for one object. mirrors trackstream.go:119-120 -/
def objectBytes (obj : Object) : Option Bytes := do
  let data ← append [] obj.groupID
  return data ++ (← obj.getBytes)

def close (ts : TrackStream) : TrackStream := { ts with isEOF := true }

/-- mirrors trackstream.go:137-174 -/
def readObject : Act Err TrackStream (Nat × Object) := do
  let groupid ← onErr read fun err ts => if err = .eof then ts.close else ts
  let object ← onErr (sub Object.parse {}) fun err ts => if err = .eof then ts.close else ts
  let object := { object with groupID := groupid }
  assign fun ts => { ts with objectsArr := ts.objectsArr ++ [object] }
  return (groupid, object)

end TrackStream

/-- The two implementations of `MOQTStream`. -/
inductive Stream where
  | group (gs : GroupStream)
  | track (ts : TrackStream)
  deriving DecidableEq

variable {β : Type} {objs : List Object}

/-- `%X` -/
def hexUpper (n : Nat) : String := String.ofList ((Nat.toDigits 16 n).map Char.toUpper)

/-- mirrors stream.go:26-59 -/
def parseMOQTStream : Act Err β (Nat × Stream) := do
  let htype ← read
  if htype = STREAM_HEADER_GROUP then
    let subid ← read
    let gs ← sub (GroupStream.parse subid) {}
    return (subid, .group gs)
  else if htype = STREAM_HEADER_TRACK then
    let subid ← read
    let ts ← sub (TrackStream.parse subid) {}
    return (subid, .track ts)
  else
    let text := hexUpper htype
    Act.throw (.errorf s!"Unknown Header Type - {text}")

namespace Stream

def readObject : Act Err Stream (Nat × Object) := ⟨fun st s =>
  match st with
  | group gs =>
    match GroupStream.readObject.run gs s with
    | .ok x gs' s' => .ok x (.group gs') s'
    | .err e gs' s' => .err e (.group gs') s'
    | .panic => .panic
  | track ts =>
    match TrackStream.readObject.run ts s with
    | .ok x ts' s' => .ok x (.track ts') s'
    | .err e ts' s' => .err e (.track ts') s'
    | .panic => .panic⟩

/-- How calling `ReadObject` again and again ended. -/
inductive End where
  | failed (e : Err)
  | panicked
  | running
  deriving DecidableEq

/-- At most `n` calls of `ReadObject`, up to the first that fails: what they
return (group id, object id, payload), and how they ended. -/
def readObjects : Nat → Stream → Bytes → List (Nat × Nat × GoString) × End
  | 0, _, _ => ([], .running)
  | n + 1, st, s =>
    match readObject.run st s with
    | .ok (groupid, object) st' s' =>
      let (xs, e) := readObjects n st' s'
      ((groupid, object.id, object.payload) :: xs, e)
    | .err e _ _ => ([], .failed e)
    | .panic => ([], .panicked)

/-- Every object read takes a byte, so this is `ReadObject` until it fails. -/
def readAll (st : Stream) (s : Bytes) : List (Nat × Nat × GoString) × End :=
  readObjects (s.length + 1) st s

/-- All that reading depends on: the group of a group stream, none for a track stream. -/
def kind : Stream → Option Nat
  | group gs => some gs.groupID
  | track _ => none

end Stream

/-! ## One object on the wire -/

namespace Object

/-- The fields in front of the payload, on a stream of the given kind. -/
def encHead : Option Nat → Object → Bytes
  | some _, o => enc o.id ++ enc o.payload.len
  | none, o => enc o.groupID ++ (enc o.id ++ enc o.payload.len)

def enc (k : Option Nat) (o : Object) : Bytes := o.encHead k ++ o.payload.data

/-- What `ReadObject` should return for it. -/
def shown (k : Option Nat) (o : Object) : Nat × Nat × GoString := (k.getD o.groupID, o.id, o.payload)

def InRange (o : Object) : Prop := Fits o.groupID ∧ Fits o.id

variable {o : Object}

theorem encHead_length_pos {k : Option Nat} (h : o.InRange) : 0 < (o.encHead k).length := by
  have h2 := enc_length_pos h.2
  cases k <;> simp only [encHead, List.length_append] <;> omega

/-- `Object.Parse` behind the object's id and the payload's length, on whatever
is left of the stream. -/
theorem parse_head (h : Fits o.id) (s : Bytes) : ∃ p : {bs : Bytes // bs.length = o.payload.len}, ∃ hp,
      Object.parse.run {} (L1.Quicvarint.enc o.id ++ L1.Quicvarint.enc o.payload.len ++ s) =
        .ok () { id := o.id, payload := ⟨p.1, hp⟩ } (s.drop o.payload.len) ∧
      (o.payload.len ≤ s.length → p.1 = s.take o.payload.len) := by
  have hfit : o.payload.len ≤ maxAlloc := o.payload.fits
  refine ⟨⟨_, buffer_length o.payload.len s⟩, by rw [buffer_length]; exact hfit, ?_, ?_⟩
  · have hsteps : Steps Object.parse (L1.Quicvarint.enc o.id ++ L1.Quicvarint.enc o.payload.len) {} _
        { id := o.id } :=
      Steps.bind (Reads.field (reads_enc h _)) (Steps.last (reads_enc o.payload.len_lt _))
    rw [hsteps s, bind_ok (makeSlice_fits hfit _ s)]
    rfl
  intro hle
  have : o.payload.len - s.length = 0 := by omega
  simp only [this, List.replicate_zero, List.append_nil]

theorem starves_parse (h : Fits o.id) :
    Starves Object.parse (L1.Quicvarint.enc o.id ++ L1.Quicvarint.enc o.payload.len) {} :=
  Starves.bind (Reads.field (reads_enc h _)) (Starves.field (starves_enc h _))
    (Starves.head (starves_enc o.payload.len_lt _))

end Object

/-! ## `ReadObject` on a whole, a missing and a cut object -/

theorem GroupStream.readObject_ok (gs : GroupStream) {obj : Object} {s s' : Bytes}
    (h : Object.parse.run {} s = .ok () obj s') :
    readObject.run gs s = .ok (gs.groupID, obj) { gs with objectsArr := gs.objectsArr ++ [obj] } s' := by
  have hsub : (onErr (sub Object.parse {}) fun err gs =>
      if err = .eof then GroupStream.close gs else gs).run gs s = .ok obj gs s' := by
    simp only [onErr, sub]; rw [h]
  unfold readObject
  rw [bind_ok hsub]
  rfl

theorem TrackStream.readObject_ok {ts : TrackStream} {g : Nat} {obj : Object} {s s1 s' : Bytes}
    (hr : read.run ts s = .ok g ts s1) (h : Object.parse.run {} s1 = .ok () obj s') :
    readObject.run ts s = .ok (g, { obj with groupID := g })
      { ts with objectsArr := ts.objectsArr ++ [{ obj with groupID := g }] } s' := by
  have hread : (onErr read fun err ts => if err = .eof then TrackStream.close ts else ts).run ts s =
      .ok g ts s1 := by
    simp only [onErr]; rw [hr]
  have hsub : (onErr (sub Object.parse {}) fun err ts =>
      if err = .eof then TrackStream.close ts else ts).run ts s1 = .ok obj ts s' := by
    simp only [onErr, sub]; rw [h]
  unfold readObject
  rw [bind_ok hread, bind_ok hsub]
  rfl

namespace Stream

variable {o : Object}

/-- With the fields in front of the payload there, `ReadObject` returns an
object, whose payload is right when all of it is there. -/
theorem readObject_head (h : o.InRange) (st : Stream) (s : Bytes) :
    ∃ x obj st', readObject.run st (o.encHead st.kind ++ s) = .ok (x, obj) st' (s.drop o.payload.len) ∧
      st'.kind = st.kind ∧
      (o.payload.data <+: s → (x, obj.id, obj.payload) = o.shown st.kind) := by
  obtain ⟨p, hp, hrun, hpay⟩ := Object.parse_head h.2 s
  have hshown : o.payload.data <+: s → (⟨p.1, hp⟩ : GoString) = o.payload := by
    intro hpre
    refine GoString.ext ?_
    show p.1 = o.payload.data
    rw [hpay hpre.length_le]
    exact (List.prefix_iff_eq_take.mp hpre).symm
  cases st with
  | group gs =>
    have hok := GroupStream.readObject_ok gs hrun
    refine ⟨gs.groupID, { id := o.id, payload := ⟨p.1, hp⟩ },
      .group { gs with objectsArr := gs.objectsArr ++ [{ id := o.id, payload := ⟨p.1, hp⟩ }] }, ?_,
      rfl, fun hpre => ?_⟩
    · simp only [readObject, kind, Object.encHead]
      rw [hok]
    show (gs.groupID, o.id, _) = (gs.groupID, o.id, o.payload)
    rw [hshown hpre]
  | track ts =>
    have hok := TrackStream.readObject_ok (reads_enc h.1 ts _) hrun
    refine ⟨o.groupID, { groupID := o.groupID, id := o.id, payload := ⟨p.1, hp⟩ },
      .track { ts with objectsArr := ts.objectsArr ++
        [{ groupID := o.groupID, id := o.id, payload := ⟨p.1, hp⟩ }] }, ?_, rfl, fun hpre => ?_⟩
    · simp only [readObject, kind, Object.encHead]
      rw [List.append_assoc, hok]
    show (o.groupID, o.id, _) = (o.groupID, o.id, o.payload)
    rw [hshown hpre]

theorem readObject_starves (h : o.InRange) (st : Stream) : Starves readObject (o.encHead st.kind) st := by
  intro pre hpre hne
  cases st with
  | group gs =>
    have hs : Starves GroupStream.readObject (o.encHead (some gs.groupID)) gs :=
      Starves.head (Starves.onErr (Starves.sub gs (Object.starves_parse h.2)))
    obtain ⟨e, gs', he⟩ := hs pre hpre hne
    exact ⟨e, .group gs', by simp only [readObject]; rw [he]⟩
  | track ts =>
    have hs : Starves TrackStream.readObject (o.encHead none) ts :=
      Starves.bind (Reads.onErr (reads_enc h.1 ts)) (Starves.onErr (starves_enc h.1 ts))
        (Starves.head (Starves.onErr (Starves.sub ts (Object.starves_parse h.2))))
    obtain ⟨e, ts', he⟩ := hs pre hpre hne
    exact ⟨e, .track ts', by simp only [readObject]; rw [he]⟩

theorem readObject_nil (st : Stream) : ∃ st', readObject.run st [] = .err .eof st' [] := by
  cases st with
  | group gs | track ts => exact ⟨_, rfl⟩

/-! ## Whole streams -/

/-- Reading over a list of whole objects. -/
theorem readObjects_append (n : Nat) (s : Bytes) : ∀ (objs : List Object) (st : Stream),
    (∀ o ∈ objs, o.InRange) → ∃ st', st'.kind = st.kind ∧
      readObjects (objs.length + n) st (objs.flatMap (Object.enc st.kind) ++ s) =
        (objs.map (Object.shown st.kind) ++ (readObjects n st' s).1, (readObjects n st' s).2)
  | [], st, _ => ⟨st, rfl, by simp⟩
  | o :: objs, st, h => by
    obtain ⟨x, obj, st1, hrun, hk, hshow⟩ := readObject_head (h o List.mem_cons_self) st
      (o.payload.data ++ (objs.flatMap (Object.enc st.kind) ++ s))
    obtain ⟨st', hk', ih⟩ := readObjects_append n s objs st1 (fun o' h' => h o' (List.mem_cons_of_mem _ h'))
    have hb : (o :: objs).flatMap (Object.enc st.kind) ++ s =
        o.encHead st.kind ++ (o.payload.data ++ (objs.flatMap (Object.enc st.kind) ++ s)) := by
      simp [Object.enc]
    have hd : (o.payload.data ++ (objs.flatMap (Object.enc st.kind) ++ s)).drop o.payload.len =
        objs.flatMap (Object.enc st.kind) ++ s := List.drop_left
    have hn : (o :: objs).length + n = objs.length + n + 1 := by simp only [List.length_cons]; omega
    rw [hd] at hrun
    rw [hk] at ih hk'
    refine ⟨st', hk', ?_⟩
    rw [hn, hb, readObjects, hrun]
    simp only [ih, hshow (List.prefix_append _ _), List.map_cons, List.cons_append]

theorem flatMap_enc_length {k : Option Nat} (objs : List Object) (h : ∀ o ∈ objs, o.InRange) :
    objs.length ≤ (objs.flatMap (Object.enc k)).length := by
  induction objs with
  | nil => simp
  | cons o objs ih =>
    have ho := Object.encHead_length_pos (k := k) (h o List.mem_cons_self)
    have ht := ih (fun o' h' => h o' (List.mem_cons_of_mem _ h'))
    simp only [List.flatMap_cons, List.length_append, List.length_cons, Object.enc]
    omega

/-- The number of calls allowed is enough to get past the whole objects and
into what follows them. -/
theorem readAll_append (h : ∀ o ∈ objs, o.InRange) (st : Stream) (s : Bytes) :
    ∃ st' n, st'.kind = st.kind ∧ s.length ≤ n ∧ readAll st (objs.flatMap (Object.enc st.kind) ++ s) =
        (objs.map (Object.shown st.kind) ++ (readObjects (n + 1) st' s).1, (readObjects (n + 1) st' s).2) := by
  have hle := flatMap_enc_length (k := st.kind) objs h
  obtain ⟨n, hn⟩ := Nat.exists_eq_add_of_le hle
  obtain ⟨st', hk, hrun⟩ := readObjects_append (n + s.length + 1) s objs st h
  refine ⟨st', n + s.length, hk, by omega, ?_⟩
  unfold readAll
  have : (objs.flatMap (Object.enc st.kind) ++ s).length + 1 = objs.length + (n + s.length + 1) := by
    rw [List.length_append, hn]; omega
  rw [this, hrun]

/-- What the loop of `Pipe` adds for one object. -/
def objectBytes : Stream → Object → Option Bytes
  | group _, obj => GroupStream.objectBytes obj
  | track _, obj => TrackStream.objectBytes obj

/-- What `Pipe` writes for a run of objects.
mirrors groupstream.go:124-130 and trackstream.go:115-122 -/
def pipeData (st : Stream) (objs : List Object) : Option Bytes :=
  objs.foldlM (fun data obj => do return data ++ (← st.objectBytes obj)) []

theorem objectBytes_eq (h : o.InRange) (st : Stream) : st.objectBytes o = some (o.enc st.kind) := by
  cases st with
  | group gs =>
    simp [objectBytes, GroupStream.objectBytes, Object.getBytes, Object.enc, Object.encHead, kind,
      append_fits _ h.2, append_fits _ o.payload.len_lt]
  | track ts =>
    simp [objectBytes, TrackStream.objectBytes, Object.getBytes, Object.enc, Object.encHead, kind,
      append_fits _ h.1, append_fits _ h.2, append_fits _ o.payload.len_lt]

theorem foldlM_objectBytes (st : Stream) (objs : List Object) (h : ∀ o ∈ objs, o.InRange)
    (data : Bytes) : objs.foldlM (fun data obj => do return data ++ (← st.objectBytes obj)) data =
      some (data ++ objs.flatMap (Object.enc st.kind)) := by
  induction objs generalizing data with
  | nil => simp
  | cons o objs ih =>
    have ht := ih (fun o' h' => h o' (List.mem_cons_of_mem _ h')) (data ++ o.enc st.kind)
    rw [List.append_assoc] at ht
    rw [List.foldlM_cons, objectBytes_eq (h o List.mem_cons_self) st]
    exact ht

theorem pipeData_eq (h : ∀ o ∈ objs, o.InRange) (st : Stream) :
    st.pipeData objs = some (objs.flatMap (Object.enc st.kind)) :=
  foldlM_objectBytes st objs h []

/-! ## A stream that ends inside an object -/

/-- After the objects `objs`, a stream of either kind ends `c` bytes into the
object `o`. The receiver gets exactly `objs` and an error only when the cut
lies in front of the payload. -/
theorem truncated_stream_iff {objs : List Object} {o : Object} {c : Nat} {data bytes : Bytes}
    (st : Stream) (h : ∀ o ∈ objs, o.InRange) (ho : o.InRange) (hd : st.pipeData objs = some data)
    (hb : st.objectBytes o = some bytes) (hc : c < bytes.length) :
    (∃ e, st.readAll (data ++ bytes.take c) = (objs.map (Object.shown st.kind), .failed e)) ↔
      c < (o.encHead st.kind).length := by
  rw [pipeData_eq h st] at hd
  rw [objectBytes_eq ho st] at hb
  obtain rfl := some.inj hd
  obtain rfl := some.inj hb
  obtain ⟨st', n, hk, hn, hrun⟩ := readAll_append h st ((o.enc st.kind).take c)
  rw [hrun]
  have hlen : ((o.enc st.kind).take c).length = c := by
    rw [List.length_take]; omega
  constructor
  · -- with all of the head there one more object is returned
    intro ⟨e, he⟩
    by_contra hge
    obtain ⟨j, hj⟩ := Nat.exists_eq_add_of_le (Nat.le_of_not_lt hge)
    have hcut : (o.enc st.kind).take c = o.encHead st'.kind ++ o.payload.data.take j := by
      rw [hj, hk, Object.enc, List.take_length_add_append]
    obtain ⟨x, obj, st'', hread, -, -⟩ := readObject_head ho st' (o.payload.data.take j)
    rw [hcut, readObjects, hread] at he
    have hl := congrArg (fun r => r.1.length) he
    simp only [List.length_append, List.length_map, List.length_cons] at hl
    omega
  intro hlt
  have hpre : (o.enc st.kind).take c <+: o.encHead st'.kind := by
    rw [hk, Object.enc, List.take_append_of_le_length hlt.le]
    exact List.take_prefix _ _
  have hne : (o.enc st.kind).take c ≠ o.encHead st'.kind := by
    intro heq
    rw [heq, hk] at hlen; omega
  obtain ⟨e, st'', hread⟩ := readObject_starves ho st' _ hpre hne
  exact ⟨e, by rw [readObjects, hread, List.append_nil]⟩

/-- Cut behind the object id, and cut inside the payload. -/
theorem truncated_stream_iff_one_object : (∃ e, readAll (group {}) [7] = ([], .failed e)) ∧
    ¬ ∃ e, readAll (group {}) [7, 3, 1] = ([], .failed e) := by
  have ho : ({ id := 7, payload := ⟨[1, 2, 3], by decide⟩ } : Object).InRange := by
    constructor <;> decide
  have hd : (group {}).pipeData [] = some [] := rfl
  have hb : (group {}).objectBytes { id := 7, payload := ⟨[1, 2, 3], by decide⟩ } =
      some [7, 3, 1, 2, 3] := by decide +kernel
  refine ⟨(truncated_stream_iff (c := 1) (group {}) (by simp) ho hd hb (by decide)).mpr (by decide),
    fun h => ?_⟩
  exact absurd ((truncated_stream_iff (c := 3) (group {}) (by simp) ho hd hb (by decide)).mp h) (by decide)

/-- Two of three payload bytes are missing, on a group and on a track stream:
the object is delivered with zeros in their place. -/
theorem truncated_payload_delivered :
    objectBytes (group {}) { id := 7, payload := ⟨[1, 2, 3], by decide⟩ } = some [7, 3, 1, 2, 3] ∧
    readAll (group {}) [7, 3, 1] = ([(0, 7, ⟨[1, 0, 0], by decide⟩)], .failed .eof) ∧
    objectBytes (track {}) { groupID := 9, id := 7, payload := ⟨[1, 2, 3], by decide⟩ } = some [9, 7, 3, 1, 2, 3] ∧
    readAll (track {}) [9, 7, 3, 1] = ([(9, 7, ⟨[1, 0, 0], by decide⟩)], .failed .eof) := by
  decide +kernel

end Stream

/-! ## Header and objects -/

/-- The two constructor calls. -/
inductive NewStream where
  | group (subid grouid trackAlias : Nat)
  | track (subid trackAlias : Nat)

namespace NewStream

def stream : NewStream → Stream
  | group subid grouid trackAlias => .group (newGroupStream subid grouid trackAlias)
  | track subid trackAlias => .track (newTrackStream subid trackAlias)

def getHeaderBytes : NewStream → Option Bytes
  | group subid grouid trackAlias => (newGroupStream subid grouid trackAlias).getHeaderBytes
  | track subid trackAlias => (newTrackStream subid trackAlias).getHeaderBytes

def subid : NewStream → Nat
  | group subid _ _ => subid
  | track subid _ => subid

/-- A stream of the kind asked for, with the ids that were passed. -/
def Given : NewStream → Stream → Prop
  | group subid grouid trackAlias, .group gs =>
    gs.subID = subid ∧ gs.groupID = grouid ∧ gs.trackAlias = trackAlias
  | track subid trackAlias, .track ts => ts.subID = subid ∧ ts.trackAlias = trackAlias
  | _, _ => False

/-- Group and object ids below 2^62; on a group stream all objects are in its group. -/
def Carries : NewStream → List Object → Prop
  | group _ grouid _, objs => Fits grouid ∧ ∀ o ∈ objs, o.InRange ∧ o.groupID = grouid
  | track _ _, objs => ∀ o ∈ objs, o.InRange

/-- The constructor calls whose streams survive. -/
def Kept : NewStream → Prop
  | group subid _ trackAlias => Fits subid ∧ Fits trackAlias
  | track subid trackAlias => Fits subid ∧ trackAlias = 0

/-- Header and piped objects, parsed and read to the end, give the same stream
and the same objects, and then `io.EOF`. -/
def RoundTrips (c : NewStream) (objs : List Object) : Prop :=
  ∃ header data st rest, c.getHeaderBytes = some header ∧ c.stream.pipeData objs = some data ∧
    parseMOQTStream.run () (header ++ data) = .ok (c.subid, st) () rest ∧ c.Given st ∧
    st.readAll rest = (objs.map (fun o => (o.groupID, o.id, o.payload)), .failed .eof)

end NewStream

theorem reads_groupHeader {subid grouid trackAlias : Nat} (hs : Fits subid) (hg : Fits grouid)
    (ha : Fits trackAlias) : ∃ header, (newGroupStream subid grouid trackAlias).getHeaderBytes = some header ∧
    Reads parseMOQTStream header () (subid, .group (newGroupStream subid grouid trackAlias)) () := by
  have ht : Fits STREAM_HEADER_GROUP := by decide
  have h0 : Fits 0 := by decide
  refine ⟨enc STREAM_HEADER_GROUP ++ (enc subid ++ (enc trackAlias ++ (enc grouid ++ enc 0))), ?_, ?_⟩
  · simp [GroupStream.getHeaderBytes, newGroupStream, append_fits _ ht, append_fits _ hs,
      append_fits _ hg, append_fits _ ha]
  refine Reads.bind (reads_enc ht ()) ?_
  refine Reads.bind (reads_enc hs ()) (Reads.bind_pure (Reads.sub () ?_) (Reads.pure _ ()))
  exact Reads.assign_bind (Reads.bind (Reads.field (reads_enc ha _))
    (Reads.bind (Reads.field (reads_enc hg _)) (Reads.field (reads_enc h0 _))))

theorem reads_trackHeader {subid : Nat} (hs : Fits subid) (trackAlias : Nat) :
    ∃ header, (newTrackStream subid trackAlias).getHeaderBytes = some header ∧
    Reads parseMOQTStream header () (subid, .track (newTrackStream subid trackAlias)) () := by
  have ht : Fits STREAM_HEADER_TRACK := by decide
  have h0 : Fits 0 := by decide
  refine ⟨enc STREAM_HEADER_TRACK ++ (enc subid ++ (enc 0 ++ enc 0)), ?_, ?_⟩
  · simp [TrackStream.getHeaderBytes, newTrackStream, append_fits _ ht, append_fits _ hs]
  refine Reads.bind (reads_enc ht ()) ?_
  refine Reads.bind (reads_enc hs ()) (Reads.bind_pure (Reads.sub () ?_) (Reads.pure _ ()))
  exact Reads.assign_bind (Reads.bind (Reads.field (reads_enc h0 _)) (Reads.field (reads_enc h0 _)))

theorem fits_of_append {d d' : Bytes} {v : Nat} (h : append d v = some d') : Fits v := by
  rw [append_eq] at h
  split at h
  · assumption
  · cases h

/-- Reading whole objects to the end of the stream. -/
theorem readAll_whole (h : ∀ o ∈ objs, o.InRange) (st : Stream) :
    st.readAll (objs.flatMap (Object.enc st.kind)) = (objs.map (Object.shown st.kind), .failed .eof) := by
  obtain ⟨st', n, -, -, hrun⟩ := Stream.readAll_append h st []
  obtain ⟨st'', hnil⟩ := Stream.readObject_nil st'
  rw [List.append_nil] at hrun
  rw [hrun, Stream.readObjects, hnil, List.append_nil]

/-- For every list of objects with ids below 2^62 a group stream survives when
its ids have an encoding, a track stream only when the alias is zero. -/
theorem streamRoundTrips_iff {c : NewStream} {objs : List Object} (h : c.Carries objs) :
    c.RoundTrips objs ↔ c.Kept := by
  cases c with
  | group subid grouid trackAlias =>
    obtain ⟨hg, hobjs⟩ := h
    have hin : ∀ o ∈ objs, o.InRange := fun o ho => (hobjs o ho).1
    constructor
    · intro ⟨header, data, st, rest, hh, _⟩
      simp only [NewStream.getHeaderBytes, GroupStream.getHeaderBytes, bind_eq_bind,
        bind_eq_some_iff] at hh
      obtain ⟨d1, -, d2, h2, d3, h3, -⟩ := hh
      exact ⟨fits_of_append h2, fits_of_append h3⟩
    intro ⟨hs, ha⟩
    obtain ⟨header, hh, hr⟩ := reads_groupHeader hs hg ha
    refine ⟨header, _, _, _, hh, Stream.pipeData_eq hin _, hr _, ⟨rfl, rfl, rfl⟩, ?_⟩
    refine (readAll_whole hin _).trans ?_
    congr 1
    refine List.map_congr_left fun o ho => ?_
    rw [(hobjs o ho).2]; rfl
  | track subid trackAlias =>
    constructor
    · intro ⟨header, data, st, rest, hh, _, hp, hgiven, _⟩
      have hs : Fits subid := by
        simp only [NewStream.getHeaderBytes, TrackStream.getHeaderBytes, bind_eq_bind,
          bind_eq_some_iff] at hh
        obtain ⟨d1, -, d2, h2, -⟩ := hh
        exact fits_of_append h2
      obtain ⟨header', hh', hr⟩ := reads_trackHeader hs trackAlias
      obtain rfl := some.inj (hh.symm.trans hh')
      rw [hr data] at hp
      obtain ⟨hst, -⟩ := Res.ok.inj hp
      rw [← (Prod.mk.inj hst).2] at hgiven
      exact ⟨hs, hgiven.2.symm⟩
    intro ⟨hs, ha⟩
    obtain ⟨header, hh, hr⟩ := reads_trackHeader hs trackAlias
    exact ⟨header, _, _, _, hh, Stream.pipeData_eq h _, hr _, ⟨rfl, ha.symm⟩, readAll_whole h _⟩

/-- A group stream with two objects, and a track stream with an alias. -/
theorem streamRoundTrips_iff_group_track :
    (NewStream.group 1 5 9).RoundTrips [{ groupID := 5, id := 0 }, { groupID := 5, id := 1 }] ∧
    ¬ (NewStream.track 1 9).RoundTrips [{ groupID := 5, id := 0 }] := by
  have hg : (NewStream.group 1 5 9).Carries [{ groupID := 5, id := 0 }, { groupID := 5, id := 1 }] := by
    refine ⟨by decide, fun o ho => ?_⟩
    simp only [List.mem_cons, List.not_mem_nil, or_false] at ho
    rcases ho with rfl | rfl <;> exact ⟨⟨by decide, by decide⟩, rfl⟩
  have ht : (NewStream.track 1 9).Carries [{ groupID := 5, id := 0 }] := by
    intro o ho
    rw [List.mem_singleton.mp ho]; exact ⟨by decide, by decide⟩
  refine ⟨(streamRoundTrips_iff hg).mpr ⟨by decide, by decide⟩, fun h => ?_⟩
  exact absurd ((streamRoundTrips_iff ht).mp h).2 (by decide)

/-- The alias 9 of a track stream comes back as 0. -/
theorem trackStream_alias_lost : (newTrackStream 1 9).getHeaderBytes = some [0x40, 0x50, 1, 0, 0] ∧
    parseMOQTStream.run () [0x40, 0x50, 1, 0, 0] = .ok (1, .track { subID := 1, trackAlias := 0 }) () [] := by
  decide +kernel

end MoqQuic.L3.Moqt
