import MoqQuic.L1Encoding.TquicCodec

/-!
# Transport parameters (`trans_param.rs`)

`encode` writes the parameters one behind the other, each as an id, a length and
a value, and leaves a parameter out when its field is zero, false or absent;
`decode` starts from the defaults and assigns what it finds. Leaving out is
right where the default is the value that was left out. It is not for
`ack_delay_exponent` and `max_ack_delay`, whose defaults are 3 and 25: the peer
of an endpoint that configures zero goes on with the default. A preferred
address `0.0.0.0:0` stands for no address on the wire, and the flow label and
the scope of an IPv6 address are not on the wire at all.

Results:
* `decode_encode`: what the peer reads, for every admissible value.
* `params_round_trip_iff`: when it is the value that was configured.

Line numbers without a file are those of `trans_param.rs`.
-/
namespace MoqQuic.L3.Tquic
open Reader (Bytes Reads)
open Writer L1.Tquic

/-- mirrors lib.rs:133 -/
def MAX_STREAMS_PER_TYPE : Nat := 2 ^ 60

structure SocketAddrV4 where
  ip : Vector UInt8 4
  port : UInt16
  deriving DecidableEq

structure SocketAddrV6 where
  ip : Vector UInt8 16
  port : UInt16
  flowinfo : UInt32
  scopeId : UInt32
  deriving DecidableEq

/-- mirrors :492-497 -/
structure PreferredAddress where
  ipv4Address : Option SocketAddrV4
  ipv6Address : Option SocketAddrV6
  connectionId : ConnectionId
  statelessResetToken : ResetToken
  deriving DecidableEq

/-- The field defaults are `Default`. mirrors :39-124 and :447-488 -/
structure TransportParams where
  originalDestinationConnectionId : Option ConnectionId := none
  maxIdleTimeout : Nat := 0
  statelessResetToken : Option (BitVec 128) := none
  maxUdpPayloadSize : Nat := 65527
  initialMaxData : Nat := 0
  initialMaxStreamDataBidiLocal : Nat := 0
  initialMaxStreamDataBidiRemote : Nat := 0
  initialMaxStreamDataUni : Nat := 0
  initialMaxStreamsBidi : Nat := 0
  initialMaxStreamsUni : Nat := 0
  ackDelayExponent : Nat := 3
  maxAckDelay : Nat := 25
  disableActiveMigration : Bool := false
  preferredAddress : Option PreferredAddress := none
  activeConnIdLimit : Nat := 2
  initialSourceConnectionId : Option ConnectionId := none
  retrySourceConnectionId : Option ConnectionId := none
  enableMultipath : Bool := false
  disableEncryption : Bool := false
  deriving DecidableEq

/-! ## The preferred address -/

namespace PreferredAddress

/-- `Ipv4Addr::UNSPECIFIED`, `Ipv6Addr::UNSPECIFIED` -/
def unspecified (n : Nat) : Vector UInt8 n := Vector.replicate n 0

def wireLen (a : PreferredAddress) : Nat := 4 + 2 + 16 + 2 + 1 + a.connectionId.data.length + 16

/-- mirrors :504-526 -/
def toBytes (a : PreferredAddress) : List Piece :=
  (match a.ipv4Address with
    | some addr => [write addr.ip.toList, writeU16 addr.port.toNat]
    | none => [write (unspecified 4).toList, writeU16 0]) ++
  (match a.ipv6Address with
    | some addr => [write addr.ip.toList, writeU16 addr.port.toNat]
    | none => [write (unspecified 16).toList, writeU16 0]) ++
  [writeU8 a.connectionId.data.length, write a.connectionId.data, write a.statelessResetToken.toList]

/-- mirrors :541-545 -/
def ipv4Of (ip : Vector UInt8 4) (port : Nat) : Option SocketAddrV4 :=
  if ip = unspecified 4 ∧ port = 0 then none else some ⟨ip, UInt16.ofNat port⟩

/-- mirrors :546-550 -/
def ipv6Of (ip : Vector UInt8 16) (port : Nat) : Option SocketAddrV6 :=
  if ip = unspecified 16 ∧ port = 0 then none else some ⟨ip, UInt16.ofNat port, 0, 0⟩

/-- mirrors :528-556 -/
def fromBytes : Read PreferredAddress := do
  let ipv4Addr ← readArray 4
  let ipv4Port ← readU16
  let ipv6Addr ← readArray 16
  let ipv6Port ← readU16
  let cidLen ← readU8
  let cid ← read cidLen
  let token ← readArray 16
  pure {
    ipv4Address := ipv4Of ipv4Addr ipv4Port
    ipv6Address := ipv6Of ipv6Addr ipv6Port
    connectionId := .new cid
    statelessResetToken := token }

/-- What `fromBytes` makes of the address. -/
def received (a : PreferredAddress) : PreferredAddress :=
  { a with
    ipv4Address := a.ipv4Address.bind fun addr => ipv4Of addr.ip addr.port.toNat
    ipv6Address := a.ipv6Address.bind fun addr => ipv6Of addr.ip addr.port.toNat }

/-- No address that stands for none, and nothing that is not on the wire. -/
def Carried (a : PreferredAddress) : Prop :=
  (∀ addr ∈ a.ipv4Address, addr.ip = unspecified 4 → addr.port ≠ 0) ∧
  ∀ addr ∈ a.ipv6Address, (addr.ip = unspecified 16 → addr.port ≠ 0) ∧ addr.flowinfo = 0 ∧ addr.scopeId = 0

end PreferredAddress

/-! ## Encoding -/

/-- A number that is left out when it is zero. -/
def writeNumber (id n : Nat) : List Piece :=
  if n ≠ 0 then [writeVarint id, writeVarint (encodeVarintLen n), writeVarint n] else []

def writeConnectionId (id : Nat) : Option ConnectionId → List Piece
  | some cid => [writeVarint id, writeVarint cid.data.length, write cid.data]
  | none => []

def writeToken (id : Nat) : Option (BitVec 128) → List Piece
  | some token => [writeVarint id, writeVarint 16, write (beBytes 16 token.toNat)]
  | none => []

def writeFlag (id : Nat) (flag : Bool) : List Piece :=
  if flag then [writeVarint id, writeVarint 0] else []

def writePreferredAddress (id : Nat) : Option PreferredAddress → List Piece
  | some a => [writeVarint id, writeVarint a.wireLen] ++ a.toBytes
  | none => []

/-- Left out below 2, not at zero. mirrors :375-379 -/
def writeConnIdLimit (id n : Nat) : List Piece :=
  if n ≥ 2 then [writeVarint id, writeVarint (encodeVarintLen n), writeVarint n] else []

namespace TransportParams

/-- mirrors :278-408 -/
def encode (tp : TransportParams) (isServer : Bool) : List Piece :=
  (if isServer then writeConnectionId 0x00 tp.originalDestinationConnectionId else []) ++
  (writeNumber 0x01 tp.maxIdleTimeout ++
  ((if isServer then writeToken 0x02 tp.statelessResetToken else []) ++
  (writeNumber 0x03 tp.maxUdpPayloadSize ++
  (writeNumber 0x04 tp.initialMaxData ++
  (writeNumber 0x05 tp.initialMaxStreamDataBidiLocal ++
  (writeNumber 0x06 tp.initialMaxStreamDataBidiRemote ++
  (writeNumber 0x07 tp.initialMaxStreamDataUni ++
  (writeNumber 0x08 tp.initialMaxStreamsBidi ++
  (writeNumber 0x09 tp.initialMaxStreamsUni ++
  (writeNumber 0x0a tp.ackDelayExponent ++
  (writeNumber 0x0b tp.maxAckDelay ++
  (writeFlag 0x0c tp.disableActiveMigration ++
  (writePreferredAddress 0x0d tp.preferredAddress ++
  (writeConnIdLimit 0x0e tp.activeConnIdLimit ++
  (writeConnectionId 0x0f tp.initialSourceConnectionId ++
  ((if isServer then writeConnectionId 0x10 tp.retrySourceConnectionId else []) ++
  (writeFlag 0x0f739bbc1b666d05 tp.enableMultipath ++
  writeFlag 0xbaad tp.disableEncryption)))))))))))))))))

/-! ## Decoding -/

/-- A value is read from its own slice; what it leaves unread is dropped. -/
def valueOf {α : Type} (p : Read α) (val : Bytes) : Except WireError α :=
  match p.run () val with
  | .ok a _ _ => .ok a
  | .err e _ _ => .error e
  | .panic => .error .bufferTooShort

/-- `stateless_reset_token` is a 128-bit number in network order. -/
def tokenOf (val : Bytes) : Except WireError (BitVec 128) := do
  return BitVec.ofNat 128 (beVal (← valueOf (read 16) val))

/-- A number that has to pass a check. -/
def numberOf (ok : Nat → Bool) (val : Bytes) : Except WireError Nat := do
  let n ← valueOf readVarint val
  if ok n then return n else throw .transportParameterError

/-- A parameter that a client must not send. -/
def fromServer (isServer : Bool) (tp : Except WireError TransportParams) : Except WireError TransportParams :=
  if isServer then throw .transportParameterError else tp

/-- One turn of the loop; `isServer` is the role of the receiver. mirrors :142-271 -/
def setParam (isServer : Bool) (id : Nat) (val : Bytes) (tp : TransportParams) : Except WireError TransportParams :=
  match id with
  | 0x00 => fromServer isServer (do return { tp with originalDestinationConnectionId := some (.new val) })
  | 0x01 => do return { tp with maxIdleTimeout := ← valueOf readVarint val }
  | 0x02 => fromServer isServer (do return { tp with statelessResetToken := some (← tokenOf val) })
  | 0x03 => do return { tp with maxUdpPayloadSize := ← numberOf (fun n => !(n < 1200)) val }
  | 0x04 => do return { tp with initialMaxData := ← valueOf readVarint val }
  | 0x05 => do return { tp with initialMaxStreamDataBidiLocal := ← valueOf readVarint val }
  | 0x06 => do return { tp with initialMaxStreamDataBidiRemote := ← valueOf readVarint val }
  | 0x07 => do return { tp with initialMaxStreamDataUni := ← valueOf readVarint val }
  | 0x08 => do return { tp with initialMaxStreamsBidi := ← numberOf (fun n => !(n > MAX_STREAMS_PER_TYPE)) val }
  | 0x09 => do return { tp with initialMaxStreamsUni := ← numberOf (fun n => !(n > MAX_STREAMS_PER_TYPE)) val }
  | 0x0a => do return { tp with ackDelayExponent := ← numberOf (fun n => !(n > 20)) val }
  | 0x0b => do return { tp with maxAckDelay := ← numberOf (fun n => !(n ≥ 2 ^ 14)) val }
  | 0x0c => return { tp with disableActiveMigration := true }
  | 0x0d => fromServer isServer
      (do return { tp with preferredAddress := some (← valueOf PreferredAddress.fromBytes val) })
  | 0x0e => do return { tp with activeConnIdLimit := ← numberOf (fun n => !(n < 2)) val }
  | 0x0f => return { tp with initialSourceConnectionId := some (.new val) }
  | 0x10 => fromServer isServer (do return { tp with retrySourceConnectionId := some (.new val) })
  | 0x0f739bbc1b666d05 => return { tp with enableMultipath := true }
  | 0xbaad => return { tp with disableEncryption := true }
  | _ => return tp

/-- The loop; each turn reads at least two bytes. mirrors :133-272 -/
def decodeLoop (isServer : Bool) : Nat → List Nat → TransportParams → Bytes → Except WireError TransportParams
  | _, _, tp, [] => return tp
  | 0, _, _, _ :: _ => throw .bufferTooShort
  | fuel + 1, found, tp, buf =>
    match readVarint.run () buf with
    | .ok id _ buf =>
      if id ∈ found then throw .transportParameterError
      else
        match readWithVarintLength.run () buf with
        | .ok val _ buf => do
          let tp ← setParam isServer id val tp
          decodeLoop isServer fuel (id :: found) tp buf
        | .err e _ _ => throw e
        | .panic => throw .bufferTooShort
    | .err e _ _ => throw e
    | .panic => throw .bufferTooShort

/-- The parameters and the number of bytes. mirrors :128-275 -/
def decode (buf : Bytes) (isServer : Bool) : Except WireError (TransportParams × Nat) := do
  let tp ← decodeLoop isServer buf.length [] {} buf
  return (tp, buf.length)

/-! ## What the peer reads -/

/-- The parameters that `decode` accepts, in the role that may send them. -/
structure Valid (tp : TransportParams) (isServer : Bool) : Prop where
  maxIdleTimeout : tp.maxIdleTimeout < 2 ^ 62
  maxUdpPayloadSize : 1200 ≤ tp.maxUdpPayloadSize ∧ tp.maxUdpPayloadSize < 2 ^ 62
  initialMaxData : tp.initialMaxData < 2 ^ 62
  initialMaxStreamDataBidiLocal : tp.initialMaxStreamDataBidiLocal < 2 ^ 62
  initialMaxStreamDataBidiRemote : tp.initialMaxStreamDataBidiRemote < 2 ^ 62
  initialMaxStreamDataUni : tp.initialMaxStreamDataUni < 2 ^ 62
  initialMaxStreamsBidi : tp.initialMaxStreamsBidi ≤ MAX_STREAMS_PER_TYPE
  initialMaxStreamsUni : tp.initialMaxStreamsUni ≤ MAX_STREAMS_PER_TYPE
  ackDelayExponent : tp.ackDelayExponent ≤ 20
  maxAckDelay : tp.maxAckDelay < 2 ^ 14
  activeConnIdLimit : 2 ≤ tp.activeConnIdLimit ∧ tp.activeConnIdLimit < 2 ^ 62
  client : isServer = false → tp.originalDestinationConnectionId = none ∧ tp.statelessResetToken = none ∧
    tp.preferredAddress = none ∧ tp.retrySourceConnectionId = none

/-- The defaults take the place of the two zeros that are left out. -/
def received (tp : TransportParams) : TransportParams :=
  { tp with
    ackDelayExponent := if tp.ackDelayExponent = 0 then 3 else tp.ackDelayExponent
    maxAckDelay := if tp.maxAckDelay = 0 then 25 else tp.maxAckDelay
    preferredAddress := tp.preferredAddress.map PreferredAddress.received }

/-- A parameter that is sent: its id and the bytes of its value. -/
def entryPieces (id : Nat) (val : Bytes) : List Piece := [writeVarint id, writeVarint val.length, write val]

def varintBytes (n : Nat) : Bytes := (writeVarint n).getD []

/-- The value of a parameter, if it is sent. -/
def numberSlot (n : Nat) : Option Bytes := if n ≠ 0 then some (varintBytes n) else none

def flagSlot (flag : Bool) : Option Bytes := if flag then some [] else none

def addressBytes (a : PreferredAddress) : Bytes := (join a.toBytes).getD []

def serverSlot (isServer : Bool) (val : Option Bytes) : Option Bytes := if isServer then val else none

/-- What one slot does to the parameters. -/
def fill (isServer : Bool) (tp : TransportParams) (slot : Nat × Option Bytes) : Except WireError TransportParams :=
  match slot.2 with
  | some val => setParam isServer slot.1 val tp
  | none => return tp

end TransportParams

theorem valueOf_of_reads {α : Type} {p : Read α} {bytes : Bytes} {a : α} (h : Reads p bytes () a ()) :
    TransportParams.valueOf p bytes = .ok a := by
  have hrun := h []
  rw [List.append_nil] at hrun
  simp only [TransportParams.valueOf, hrun]

namespace PreferredAddress

/-- The octets and the port that stand for an IPv4 address. -/
def wireIpv4 : Option SocketAddrV4 → Vector UInt8 4 × Nat
  | some addr => (addr.ip, addr.port.toNat)
  | none => (unspecified 4, 0)

def wireIpv6 : Option SocketAddrV6 → Vector UInt8 16 × Nat
  | some addr => (addr.ip, addr.port.toNat)
  | none => (unspecified 16, 0)

variable (a : PreferredAddress)

theorem toBytes_eq : a.toBytes = [write (wireIpv4 a.ipv4Address).1.toList, writeU16 (wireIpv4 a.ipv4Address).2,
     write (wireIpv6 a.ipv6Address).1.toList, writeU16 (wireIpv6 a.ipv6Address).2,
     writeU8 a.connectionId.data.length, write a.connectionId.data, write a.statelessResetToken.toList] := by
  unfold toBytes
  cases a.ipv4Address <;> cases a.ipv6Address <;> rfl

theorem port_lt_ipv4 (addr : Option SocketAddrV4) : (wireIpv4 addr).2 < 256 ^ 2 := by
  cases addr with
  | none => simp [wireIpv4]
  | some addr => exact addr.port.toNat_lt

theorem port_lt_ipv6 (addr : Option SocketAddrV6) : (wireIpv6 addr).2 < 256 ^ 2 := by
  cases addr with
  | none => simp [wireIpv6]
  | some addr => exact addr.port.toNat_lt

theorem ipv4Of_wireIpv4 (addr : Option SocketAddrV4) :
    ipv4Of (wireIpv4 addr).1 (wireIpv4 addr).2 = addr.bind fun addr => ipv4Of addr.ip addr.port.toNat := by
  cases addr <;> simp [wireIpv4, ipv4Of]

theorem ipv6Of_wireIpv6 (addr : Option SocketAddrV6) :
    ipv6Of (wireIpv6 addr).1 (wireIpv6 addr).2 = addr.bind fun addr => ipv6Of addr.ip addr.port.toNat := by
  cases addr <;> simp [wireIpv6, ipv6Of]

theorem new_data (cid : ConnectionId) : ConnectionId.new cid.data = cid := by
  apply ConnectionId.ext
  exact List.take_of_length_le cid.fits

/-- The address is read back, as far as it is on the wire. -/
theorem codes_toBytes : Codes a.toBytes a.wireLen fromBytes a.received := by
  have hcid : a.connectionId.data.length < 256 ^ 1 := by
    have hfits := a.connectionId.fits
    simp only [MAX_CID_LEN] at hfits
    omega
  have hlen : a.wireLen = 4 + (2 + (16 + (2 + (1 + (a.connectionId.data.length + 16))))) := by
    unfold wireLen
    omega
  have hrec : a.received = {
      ipv4Address := ipv4Of (wireIpv4 a.ipv4Address).1 (wireIpv4 a.ipv4Address).2
      ipv6Address := ipv6Of (wireIpv6 a.ipv6Address).1 (wireIpv6 a.ipv6Address).2
      connectionId := .new a.connectionId.data
      statelessResetToken := a.statelessResetToken } := by
    rw [received, ipv4Of_wireIpv4, ipv6Of_wireIpv6, new_data]
  rw [toBytes_eq, hlen, hrec]
  refine (codes_readArray _).cons ((codes_be (port_lt_ipv4 _)).cons ?_)
  refine (codes_readArray _).cons ((codes_be (port_lt_ipv6 _)).cons ?_)
  exact (codes_be hcid).cons ((codes_read _).cons (codes_readArray _).bind_pure)

theorem port_eq_zero (port : UInt16) : port.toNat = 0 ↔ port = 0 := UInt16.toNat_inj (b := 0)

theorem ipv4Of_eq_iff (addr : SocketAddrV4) :
    ipv4Of addr.ip addr.port.toNat = some addr ↔ (addr.ip = unspecified 4 → addr.port ≠ 0) := by
  unfold ipv4Of
  by_cases h : addr.ip = unspecified 4 ∧ addr.port.toNat = 0
  · have hport := (port_eq_zero addr.port).mp h.2
    simp [h.1, hport]
  rw [if_neg h, UInt16.ofNat_toNat]
  rw [port_eq_zero] at h
  simpa using h

theorem ipv6Of_eq_iff (addr : SocketAddrV6) : ipv6Of addr.ip addr.port.toNat = some addr ↔
    (addr.ip = unspecified 16 → addr.port ≠ 0) ∧ addr.flowinfo = 0 ∧ addr.scopeId = 0 := by
  obtain ⟨ip, port, flowinfo, scopeId⟩ := addr
  unfold ipv6Of
  by_cases h : ip = unspecified 16 ∧ port.toNat = 0
  · have hport := (port_eq_zero port).mp h.2
    simp [h.1, hport]
  rw [if_neg h, UInt16.ofNat_toNat]
  rw [port_eq_zero] at h
  have hspecified : ip = unspecified 16 → port ≠ 0 := by simpa using h
  simp [eq_comm]
  exact fun _ _ => hspecified

theorem received_eq_iff : a.received = a ↔ a.Carried := by
  obtain ⟨ipv4, ipv6, cid, token⟩ := a
  unfold received Carried
  cases ipv4 <;> cases ipv6 <;> simp [ipv4Of_eq_iff, ipv6Of_eq_iff]

end PreferredAddress

namespace TransportParams

variable {tp t : TransportParams} {isServer : Bool} {id n : Nat} {val : Bytes}

/-- A number below `2^62` has its bytes. -/
theorem writeVarint_eq (h : n < 2 ^ 62) : writeVarint n = some (varintBytes n) ∧
    (varintBytes n).length = encodeVarintLen n ∧ Reads readVarint (varintBytes n) () n () := by
  obtain ⟨bytes, hjoin, hlen, hreads⟩ := codes_varint h
  cases hw : writeVarint n with
  | none => simp [hw, join] at hjoin
  | some bytes' =>
    have hbytes : varintBytes n = bytes' := by simp [varintBytes, hw]
    have heq : bytes' = bytes := by simpa [hw, join] using hjoin
    subst heq
    rw [hbytes]
    exact ⟨rfl, hlen, hreads⟩

def slotPieces (slot : Nat × Option Bytes) : List Piece :=
  match slot.2 with
  | some val => entryPieces slot.1 val
  | none => []

theorem encodeVarintLen_pos (h : n < 2 ^ 62) : 0 < encodeVarintLen n := by
  unfold encodeVarintLen
  repeat' split
  all_goals omega

/-- One parameter on the wire, and the turn of the loop that reads it. -/
theorem decodeLoop_entry (hid : id < 2 ^ 62) (hval : val.length < 2 ^ 62) :
    ∃ bytes, join (entryPieces id val) = some bytes ∧ 0 < bytes.length ∧
      ∀ isServer fuel found t rest, id ∉ found → decodeLoop isServer (fuel + 1) found t (bytes ++ rest) =
        (setParam isServer id val t).bind fun t => decodeLoop isServer fuel (id :: found) t rest := by
  obtain ⟨idBytes, hjoin, hlen, hreads⟩ := codes_varint hid
  obtain ⟨valBytes, hjoin', -, hreads'⟩ := codes_withVarintLength hval
  have hpos := encodeVarintLen_pos hid
  refine ⟨idBytes ++ valBytes, ?_, by rw [List.length_append]; omega, ?_⟩
  · have happ := join_append [writeVarint id] [writeVarint val.length, write val]
    rwa [hjoin, hjoin'] at happ
  intro isServer fuel found t rest hnew
  have hrun := hreads (valBytes ++ rest)
  cases idBytes with
  | nil => simp at hlen; omega
  | cons b tail =>
    rw [List.append_assoc]
    rw [decodeLoop]
    · simp only [hrun, hreads' rest, if_neg hnew]
      rfl
    · simp

/-! ## One parameter, from its bytes to what it assigns -/

theorem join_congr {a a' b b' : List Piece} (ha : join a = join a') (hb : join b = join b') :
    join (a ++ b) = join (a' ++ b') := by
  rw [join_append, join_append, ha, hb]

theorem addressBytes_spec (a : PreferredAddress) : join a.toBytes = some (addressBytes a) ∧
    (addressBytes a).length = a.wireLen ∧ Reads PreferredAddress.fromBytes (addressBytes a) () a.received () := by
  obtain ⟨bytes, hjoin, hlen, hreads⟩ := a.codes_toBytes
  have hbytes : addressBytes a = bytes := by simp [addressBytes, hjoin]
  rw [hbytes]
  exact ⟨hjoin, hlen, hreads⟩

/-- The id and the length of the value are varints. -/
def Fits (slot : Nat × Option Bytes) : Prop := slot.1 < 2 ^ 62 ∧ ∀ val ∈ slot.2, val.length < 2 ^ 62

theorem fits_varintBytes (h : n < 2 ^ 62) : (varintBytes n).length < 2 ^ 62 := by
  rw [(writeVarint_eq h).2.1]
  unfold encodeVarintLen
  repeat' split
  all_goals omega

theorem fits_cid (cid : ConnectionId) : cid.data.length < 2 ^ 62 := by
  have hfits := cid.fits
  simp only [MAX_CID_LEN] at hfits
  omega

theorem fits_address (a : PreferredAddress) : (addressBytes a).length < 2 ^ 62 := by
  have hfits := a.connectionId.fits
  rw [(addressBytes_spec a).2.1]
  simp only [MAX_CID_LEN, PreferredAddress.wireLen] at hfits ⊢
  omega

/-- A number that was left out keeps its default. -/
def orDefault (d n : Nat) : Nat := if n = 0 then d else n

theorem valueOf_varint (h : n < 2 ^ 62) : valueOf readVarint (varintBytes n) = .ok n :=
  valueOf_of_reads (writeVarint_eq h).2.2

theorem numberOf_varint {ok : Nat → Bool} (h : n < 2 ^ 62) (hok : ok n = true) :
    numberOf ok (varintBytes n) = .ok n := by
  rw [numberOf, valueOf_varint h]
  change (if ok n = true then _ else _) = _
  rw [if_pos hok]
  rfl

theorem tokenOf_beBytes (token : BitVec 128) : tokenOf (beBytes 16 token.toNat) = .ok token := by
  have hread : valueOf (read 16) (beBytes 16 token.toNat) = .ok (beBytes 16 token.toNat) :=
    valueOf_of_reads (slice_reads (readBytes_append (beBytes_length 16 token.toNat)))
  rw [tokenOf, hread]
  change Except.ok (BitVec.ofNat 128 (beVal (beBytes 16 token.toNat))) = _
  rw [beVal_beBytes, Nat.mod_eq_of_lt (show _ < 256 ^ 16 from token.isLt), BitVec.ofNat_toNat, BitVec.setWidth_eq]

/-- A parameter is written as its slot, and the peer's reading of the slot assigns it. -/
structure Carries (isServer : Bool) (pieces : List Piece) (slot : Nat × Option Bytes)
    (f : TransportParams → TransportParams) : Prop where
  join_eq : join pieces = join (slotPieces slot)
  fits : Fits slot
  fill_eq : ∀ t, fill (!isServer) t slot = .ok (f t)

theorem carries_number {g : TransportParams → Nat} {u : TransportParams → Nat → TransportParams}
    (h : n < 2 ^ 62) (hset : ∀ t, setParam (!isServer) id (varintBytes n) t = .ok (u t n))
    (hid : id < 2 ^ 62 := by decide) (hself : ∀ t, u t (g t) = t := by exact fun _ => rfl) :
    Carries isServer (writeNumber id n) (id, numberSlot n) fun t => u t (orDefault (g t) n) := by
  obtain ⟨hw, hlen, -⟩ := writeVarint_eq h
  by_cases hn : n = 0
  · have hslot : numberSlot n = none := by simp [numberSlot, hn]
    rw [hslot]
    refine ⟨by simp [writeNumber, slotPieces, hn], ⟨hid, by simp⟩, fun t => ?_⟩
    simp only [orDefault, hn, if_true, hself]
    rfl
  have hslot : numberSlot n = some (varintBytes n) := by simp [numberSlot, hn]
  rw [hslot]
  refine ⟨?_, ⟨hid, fun val hval => ?_⟩, fun t => ?_⟩
  · simp only [writeNumber, ne_eq, hn, not_false_eq_true, if_true, slotPieces, entryPieces, hlen, hw, write]
  · cases hval
    exact fits_varintBytes h
  · simp only [orDefault, hn, if_false]
    exact hset t

theorem carries_flag {flag : Bool} {g : TransportParams → Bool} {u : TransportParams → Bool → TransportParams}
    (hset : ∀ t, setParam (!isServer) id [] t = .ok (u t true))
    (hid : id < 2 ^ 62 := by decide) (hself : ∀ t, u t (g t) = t := by exact fun _ => rfl) :
    Carries isServer (writeFlag id flag) (id, flagSlot flag) fun t => u t (flag || g t) := by
  cases flag with
  | false => exact ⟨rfl, ⟨hid, by simp [flagSlot]⟩, fun t => congrArg Except.ok (hself t).symm⟩
  | true =>
    refine ⟨?_, ⟨hid, by simp [flagSlot]⟩, hset⟩
    simp only [writeFlag, flagSlot, slotPieces, entryPieces, if_true, write, List.length_nil]
    cases writeVarint id <;> cases writeVarint 0 <;> simp [join]

variable {pieces : List Piece} {α : Type} {o : Option α} {enc : α → Bytes}

theorem carries_option {β : Type} {f : α → β} {g : TransportParams → Option β}
    {u : TransportParams → Option β → TransportParams} (hjoin : join pieces = join (slotPieces (id, o.map enc)))
    (hlen : ∀ a, (enc a).length < 2 ^ 62)
    (hset : ∀ a ∈ o, ∀ t, setParam (!isServer) id (enc a) t = .ok (u t (some (f a))))
    (hid : id < 2 ^ 62 := by decide) (hself : ∀ t, u t (g t) = t := by exact fun _ => rfl) :
    Carries isServer pieces (id, o.map enc) fun t => u t ((o.map f).or (g t)) := by
  cases o with
  | none => exact ⟨hjoin, ⟨hid, by simp⟩, fun t => congrArg Except.ok (hself t).symm⟩
  | some a => exact ⟨hjoin, ⟨hid, by simpa using hlen a⟩, hset a rfl⟩

theorem carries_connectionId {cid : Option ConnectionId} {g : TransportParams → Option ConnectionId}
    {u : TransportParams → Option ConnectionId → TransportParams}
    (hset : ∀ a ∈ cid, ∀ t, setParam (!isServer) id a.data t = .ok (u t (some a)))
    (hid : id < 2 ^ 62 := by decide) (hself : ∀ t, u t (g t) = t := by exact fun _ => rfl) :
    Carries isServer (writeConnectionId id cid) (id, cid.map (·.data)) fun t => u t (cid.or (g t)) := by
  have hjoin : join (writeConnectionId id cid) = join (slotPieces (id, cid.map (·.data))) := by cases cid <;> rfl
  have hcarries := carries_option (f := fun a => a) hjoin fits_cid hset hid hself
  rwa [Option.map_id'] at hcarries

theorem carries_token {token : Option (BitVec 128)} {g : TransportParams → Option (BitVec 128)}
    {u : TransportParams → Option (BitVec 128) → TransportParams}
    (hset : ∀ a ∈ token, ∀ t, setParam (!isServer) id (beBytes 16 a.toNat) t = .ok (u t (some a)))
    (hid : id < 2 ^ 62 := by decide) (hself : ∀ t, u t (g t) = t := by exact fun _ => rfl) :
    Carries isServer (writeToken id token) (id, token.map fun token => beBytes 16 token.toNat)
      fun t => u t (token.or (g t)) := by
  have hjoin : join (writeToken id token) =
      join (slotPieces (id, token.map fun token => beBytes 16 token.toNat)) := by
    cases token <;> simp [writeToken, slotPieces, entryPieces]
  have hcarries := carries_option (f := fun a => a) hjoin (fun _ => by rw [beBytes_length]; decide) hset hid hself
  rwa [Option.map_id'] at hcarries

theorem carries_connIdLimit (h : 2 ≤ n ∧ n < 2 ^ 62) : Carries isServer (writeConnIdLimit 0x0e n)
    (0x0e, if n ≥ 2 then some (varintBytes n) else none) fun t => { t with activeConnIdLimit := n } := by
  obtain ⟨hw, hlen, -⟩ := writeVarint_eq h.2
  rw [if_pos h.1]
  refine ⟨?_, ⟨by simp, fun val hval => ?_⟩, fun t => ?_⟩
  · rw [writeConnIdLimit, if_pos h.1]
    simp only [slotPieces, entryPieces, hlen, hw, write]
  · cases hval
    exact fits_varintBytes h.2
  change setParam (!isServer) 0x0e (varintBytes n) t = _
  rw [setParam, numberOf_varint h.2 (by simp; omega)]
  rfl

/-- A client has nothing to put into a server's slot. -/
theorem serverSlot_eq (h : isServer = false → o = none) : serverSlot isServer (o.map enc) = o.map enc := by
  cases isServer with
  | false => simp [serverSlot, h rfl]
  | true => rfl

/-- In a server's slot the receiver is a client. -/
theorem fromServer_of_some {a : α} (hclient : isServer = false → o = none)
    (ha : a ∈ o) (r : Except WireError TransportParams) : fromServer (!isServer) r = r := by
  cases isServer with
  | false => simp [hclient rfl] at ha
  | true => rfl

/-- A server's parameter, which a client does not have. -/
theorem Carries.server {f : TransportParams → TransportParams}
    (hclient : isServer = false → o = none) (h : Carries isServer pieces (id, o.map enc) f) :
    Carries isServer (if isServer then pieces else []) (id, serverSlot isServer (o.map enc)) f := by
  rw [serverSlot_eq hclient]
  refine ⟨?_, h.fits, h.fill_eq⟩
  cases isServer with
  | false => simp [hclient rfl, slotPieces]
  | true => exact h.join_eq

theorem join_writePreferredAddress (a : Option PreferredAddress) :
    join (writePreferredAddress id a) = join (slotPieces (id, a.map addressBytes)) := by
  cases a with
  | none => rfl
  | some a =>
    obtain ⟨hjoin, hlen, -⟩ := addressBytes_spec a
    change join ([writeVarint id, writeVarint a.wireLen] ++ a.toBytes) =
      join ([writeVarint id, writeVarint (addressBytes a).length] ++ [write (addressBytes a)])
    rw [hlen]
    exact join_congr rfl (hjoin.trans (join_singleton _).symm)

/-- The parameters after some assignments, the last one first. -/
def assigned (fs : List (TransportParams → TransportParams)) : TransportParams := fs.foldr (fun f t => f t) {}

/-- What is written takes the peer from the assignments `fs` to `tp`, if it has met no other ids than `found` before. -/
def Transfers (isServer : Bool) (pieces : List Piece) (found : List Nat) (fs : List (TransportParams → TransportParams))
    (tp : TransportParams) : Prop :=
  ∃ bytes, join pieces = some bytes ∧
    ∀ fuel seen, bytes.length ≤ fuel → seen ⊆ found → decodeLoop (!isServer) fuel seen (assigned fs) bytes = .ok tp

section Transfers

variable {found : List Nat} {fs : List (TransportParams → TransportParams)}

theorem Transfers.nil (h : assigned fs = tp) : Transfers isServer [] found fs tp := by
  refine ⟨[], rfl, fun fuel seen _ _ => ?_⟩
  rw [← h]
  cases fuel <;> rfl

/-- One parameter after the other is assigned. -/
theorem Transfers.cons {rest : List Piece} {slot : Option Bytes} {f : TransportParams → TransportParams}
    (h : Carries isServer pieces (id, slot) f) (hrest : Transfers isServer rest (id :: found) (f :: fs) tp)
    (hnew : id ∉ found := by decide) : Transfers isServer (pieces ++ rest) found fs tp := by
  obtain ⟨bytes, hjoin, hloop⟩ := hrest
  have hfill : fill (!isServer) (assigned fs) (id, slot) = .ok (assigned (f :: fs)) := h.fill_eq _
  rw [Transfers, join_append, h.join_eq, hjoin]
  cases slot with
  | none =>
    have hsame : assigned fs = assigned (f :: fs) := Except.ok.inj hfill
    refine ⟨bytes, rfl, fun fuel seen hfuel hseen => ?_⟩
    rw [hsame]
    exact hloop fuel seen hfuel (List.subset_cons_of_subset id hseen)
  | some val =>
    obtain ⟨entry, hentry, hpos, hturn⟩ := decodeLoop_entry h.fits.1 (h.fits.2 val rfl)
    refine ⟨entry ++ bytes, by simp [slotPieces, hentry], fun fuel seen hfuel hseen => ?_⟩
    rw [List.length_append] at hfuel
    obtain ⟨fuel, rfl⟩ : ∃ k, fuel = k + 1 := ⟨fuel - 1, by omega⟩
    have hset : setParam (!isServer) id val (assigned fs) = .ok (assigned (f :: fs)) := hfill
    rw [hturn _ fuel seen _ bytes fun hmem => hnew (hseen hmem), hset]
    exact hloop fuel (id :: seen) (by omega) (List.cons_subset_cons id hseen)

end Transfers

theorem encode_transfers (h : tp.Valid isServer) : Transfers isServer (tp.encode isServer) [] [] tp.received := by
  have hstreams : MAX_STREAMS_PER_TYPE < 2 ^ 62 := by decide
  have hudp := h.maxUdpPayloadSize
  have hbidi := h.initialMaxStreamsBidi
  have huni := h.initialMaxStreamsUni
  have hexponent := h.ackDelayExponent
  have hdelay := h.maxAckDelay
  have hlimit := h.activeConnIdLimit
  have hclient := h.client
  refine .cons (.server (fun hs => (hclient hs).1) (carries_connectionId (g := originalDestinationConnectionId)
    (u := fun t o => { t with originalDestinationConnectionId := o }) fun a ha t => by
      rw [setParam, fromServer_of_some (fun hs => (hclient hs).1) ha, PreferredAddress.new_data]; rfl)) ?_
  refine .cons (carries_number (g := maxIdleTimeout) (u := fun t n => { t with maxIdleTimeout := n }) h.maxIdleTimeout
    fun t => by rw [setParam, valueOf_varint h.maxIdleTimeout]; rfl) ?_
  refine .cons (.server (fun hs => (hclient hs).2.1) (carries_token (g := statelessResetToken)
    (u := fun t o => { t with statelessResetToken := o }) fun a ha t => by
      rw [setParam, fromServer_of_some (fun hs => (hclient hs).2.1) ha, tokenOf_beBytes]; rfl)) ?_
  refine .cons (carries_number (g := maxUdpPayloadSize) (u := fun t n => { t with maxUdpPayloadSize := n }) hudp.2
    fun t => by rw [setParam, numberOf_varint hudp.2 (by simp; omega)]; rfl) ?_
  refine .cons (carries_number (g := initialMaxData) (u := fun t n => { t with initialMaxData := n }) h.initialMaxData
    fun t => by rw [setParam, valueOf_varint h.initialMaxData]; rfl) ?_
  refine .cons (carries_number (g := initialMaxStreamDataBidiLocal)
    (u := fun t n => { t with initialMaxStreamDataBidiLocal := n }) h.initialMaxStreamDataBidiLocal
    fun t => by rw [setParam, valueOf_varint h.initialMaxStreamDataBidiLocal]; rfl) ?_
  refine .cons (carries_number (g := initialMaxStreamDataBidiRemote)
    (u := fun t n => { t with initialMaxStreamDataBidiRemote := n }) h.initialMaxStreamDataBidiRemote
    fun t => by rw [setParam, valueOf_varint h.initialMaxStreamDataBidiRemote]; rfl) ?_
  refine .cons (carries_number (g := initialMaxStreamDataUni)
    (u := fun t n => { t with initialMaxStreamDataUni := n }) h.initialMaxStreamDataUni
    fun t => by rw [setParam, valueOf_varint h.initialMaxStreamDataUni]; rfl) ?_
  refine .cons (carries_number (g := initialMaxStreamsBidi)
    (u := fun t n => { t with initialMaxStreamsBidi := n }) (by omega)
    fun t => by rw [setParam, numberOf_varint (by omega) (by simp; omega)]; rfl) ?_
  refine .cons (carries_number (g := initialMaxStreamsUni)
    (u := fun t n => { t with initialMaxStreamsUni := n }) (by omega)
    fun t => by rw [setParam, numberOf_varint (by omega) (by simp; omega)]; rfl) ?_
  refine .cons (carries_number (g := ackDelayExponent) (u := fun t n => { t with ackDelayExponent := n }) (by omega)
    fun t => by rw [setParam, numberOf_varint (by omega) (by simp; omega)]; rfl) ?_
  refine .cons (carries_number (g := maxAckDelay) (u := fun t n => { t with maxAckDelay := n }) (by omega)
    fun t => by rw [setParam, numberOf_varint (by omega) (by simp; omega)]; rfl) ?_
  refine .cons (carries_flag (g := disableActiveMigration)
    (u := fun t b => { t with disableActiveMigration := b }) fun _ => rfl) ?_
  refine .cons (carries_option (f := PreferredAddress.received) (g := preferredAddress)
    (u := fun t o => { t with preferredAddress := o }) (join_writePreferredAddress _) fits_address
    fun a ha t => by
      rw [setParam, fromServer_of_some (fun hs => (hclient hs).2.2.1) ha, valueOf_of_reads (addressBytes_spec a).2.2]
      rfl) ?_
  refine .cons (carries_connIdLimit hlimit) ?_
  refine .cons (carries_connectionId (g := initialSourceConnectionId)
    (u := fun t o => { t with initialSourceConnectionId := o }) fun a _ t => by
      rw [setParam, PreferredAddress.new_data]; rfl) ?_
  refine .cons (.server (fun hs => (hclient hs).2.2.2) (carries_connectionId (g := retrySourceConnectionId)
    (u := fun t o => { t with retrySourceConnectionId := o }) fun a ha t => by
      rw [setParam, fromServer_of_some (fun hs => (hclient hs).2.2.2) ha, PreferredAddress.new_data]; rfl)) ?_
  refine .cons (carries_flag (g := enableMultipath) (u := fun t b => { t with enableMultipath := b }) fun _ => rfl) ?_
  rw [← List.append_nil (writeFlag 0xbaad tp.disableEncryption)]
  refine .cons (carries_flag (g := disableEncryption) (u := fun t b => { t with disableEncryption := b })
    fun _ => rfl) ?_
  refine .nil ?_
  simp [assigned, received, orDefault]
  omega

/-- What the peer reads from what is written. -/
theorem decode_encode (h : tp.Valid isServer) : ∃ bytes, join (tp.encode isServer) = some bytes ∧
    decode bytes (!isServer) = .ok (tp.received, bytes.length) := by
  obtain ⟨bytes, hjoin, hloop⟩ := encode_transfers h
  have hread : decodeLoop (!isServer) bytes.length [] {} bytes = .ok tp.received :=
    hloop _ [] le_rfl (List.Subset.refl _)
  refine ⟨bytes, hjoin, ?_⟩
  rw [decode, hread]
  rfl

theorem received_eq_iff : tp.received = tp ↔
    tp.ackDelayExponent ≠ 0 ∧ tp.maxAckDelay ≠ 0 ∧ ∀ a ∈ tp.preferredAddress, a.Carried := by
  have hzero : ∀ d n : Nat, d ≠ 0 → ((if n = 0 then d else n) = n ↔ n ≠ 0) := by
    intro d n hd
    split <;> omega
  have hfields : tp.received = tp ↔
      (if tp.ackDelayExponent = 0 then 3 else tp.ackDelayExponent) = tp.ackDelayExponent ∧
      (if tp.maxAckDelay = 0 then 25 else tp.maxAckDelay) = tp.maxAckDelay ∧
      tp.preferredAddress.map PreferredAddress.received = tp.preferredAddress := by
    cases tp
    simp [received]
  rw [hfields, hzero 3 _ (by decide), hzero 25 _ (by decide)]
  cases tp.preferredAddress with
  | none => simp
  | some a => simp [PreferredAddress.received_eq_iff]

/-- Writing the parameters gives bytes, of which the peer makes the same parameters, exactly when none of the two
delays is zero and a preferred address is one the wire can carry. -/
theorem params_round_trip_iff (tp : TransportParams) (isServer : Bool) (h : tp.Valid isServer) :
    (∃ bytes, (∀ room, put room (tp.encode isServer) = if room < bytes.length then .short else .ok bytes) ∧
        decode bytes (!isServer) = .ok (tp, bytes.length)) ↔
      tp.ackDelayExponent ≠ 0 ∧ tp.maxAckDelay ≠ 0 ∧ ∀ a ∈ tp.preferredAddress, a.Carried := by
  obtain ⟨written, hjoin, hdecode⟩ := decode_encode h
  rw [← received_eq_iff]
  constructor
  · rintro ⟨bytes, hput, hread⟩
    have hsame := (put_of_join hjoin (written.length + bytes.length)).symm.trans (hput _)
    rw [if_neg (by omega), if_neg (by omega)] at hsame
    cases hsame
    rw [hdecode] at hread
    exact congrArg Prod.fst (Except.ok.inj hread)
  intro hsame
  rw [hsame] at hdecode
  exact ⟨written, put_of_join hjoin, hdecode⟩

/-- A preferred address at 192.0.2.1, port 443. -/
def withPreferred : TransportParams :=
  { preferredAddress := some
      { ipv4Address := some ⟨#v[192, 0, 2, 1], 443⟩, ipv6Address := none
        connectionId := .new [1, 2, 3], statelessResetToken := .replicate 16 7 } }

theorem params_round_trip_iff_preferred : withPreferred.Valid true ∧ ∃ bytes,
    (∀ room, put room (withPreferred.encode true) = if room < bytes.length then .short else .ok bytes) ∧
      decode bytes false = .ok (withPreferred, bytes.length) := by
  have hvalid : withPreferred.Valid true := by
    constructor <;> simp [MAX_STREAMS_PER_TYPE, withPreferred]
  refine ⟨hvalid, (params_round_trip_iff withPreferred true hvalid).mpr ?_⟩
  simp [PreferredAddress.Carried, withPreferred]

/-- A client that configures an `ack_delay_exponent` of zero sends nothing about it, and the server assumes 3. -/
theorem zero_exponent_lost : Valid { ackDelayExponent := 0 } false ∧
    put 100 (encode { ackDelayExponent := 0 } false) = .ok [3, 4, 0x80, 0, 0xff, 0xf7, 0x0b, 1, 25, 0x0e, 1, 2] ∧
    (decode [3, 4, 0x80, 0, 0xff, 0xf7, 0x0b, 1, 25, 0x0e, 1, 2] true).toOption = some ({}, 12) := by
  refine ⟨?_, ?_, ?_⟩
  · constructor <;> simp [MAX_STREAMS_PER_TYPE]
  · decide +kernel
  · decide +kernel

end TransportParams

end MoqQuic.L3.Tquic
