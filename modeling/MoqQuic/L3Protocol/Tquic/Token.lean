import MoqQuic.Core.Aead
import MoqQuic.L1Encoding.TquicCodec

/-!
# Address tokens (`token.rs`)

A token is the label `quic`, a byte for its type, a nonce, and the sealed body
(the time, for a Retry token also the original DCID). The client's address, for
a Retry token also its port and the Retry's source CID, are additional data:
they are not in the token but must be the same when it comes back.

Neither the type byte nor the lengths of the parts are authenticated, so one
string of additional data can be read in several ways: four octets, a port and
ten bytes of CID are also the sixteen octets of an IPv6 address.

The cipher is ideal (`MoqQuic.Aead`); times are nanoseconds since the epoch.

Results:
* `token_authentic_iff`: a token that is accepted was issued for the client
  exactly when it is no fresh token of another type or address family with the
  same additional data.
-/
namespace MoqQuic.L3.Tquic
open Reader (Bytes)
open Aead L1.Tquic IpAddr

inductive AddressTokenType where
  | retryToken
  | resumeToken
  deriving DecidableEq

inductive TokenError where
  | bufferTooShort
  | invalidToken
  | internalError
  deriving DecidableEq

abbrev Nonce := Vector UInt8 12

/-- A cipher under one key; the nonce it is given when opening is whatever the token has. -/
abbrev Cipher := Scheme Bytes

/-- `b"quic"` -/
def LABEL : Bytes := [0x71, 0x75, 0x69, 0x63]

def NANOS : Nat := 10 ^ 9

/-- `self.token_type as u8` -/
def AddressTokenType.toByte : AddressTokenType → UInt8
  | .retryToken => 0
  | .resumeToken => 1

def AddressTokenType.ofByte (b : UInt8) : Except TokenError AddressTokenType :=
  if b = 0 then .ok .retryToken else if b = 1 then .ok .resumeToken else .error .invalidToken

structure AddressToken where
  tokenType : AddressTokenType
  issued : Nat
  address : SocketAddr
  odcid : Option ConnectionId
  rscid : Option ConnectionId
  deriving DecidableEq

namespace AddressToken

/-- mirrors token.rs:66-78 -/
def newRetryToken (now : Nat) (address : SocketAddr) (odcid rscid : ConnectionId) : AddressToken :=
  { tokenType := .retryToken, issued := now, address, odcid := some odcid, rscid := some rscid }

/-- mirrors token.rs:81-89 -/
def newResumeToken (now : Nat) (address : SocketAddr) : AddressToken :=
  { tokenType := .resumeToken, issued := now, address, odcid := none, rscid := none }

/-- mirrors token.rs:233-238 -/
def issueTime (t : AddressToken) : Nat := t.issued / NANOS

/-- mirrors token.rs:241-270 -/
def additionalData (tokenType : AddressTokenType) (address : SocketAddr) (rscid : Option ConnectionId) :
    Except TokenError Bytes :=
  match tokenType, rscid with
  | .resumeToken, _ => .ok (address.ip.octets)
  | .retryToken, some rscid =>
    .ok (address.ip.octets ++ (beBytes 2 address.port.toNat ++ rscid.data))
  | .retryToken, none => .error .internalError

/-- What stands behind the time in the body. -/
def bodyRest (t : AddressToken) : Except TokenError Bytes :=
  match t.tokenType, t.odcid with
  | .resumeToken, _ => .ok []
  | .retryToken, some odcid => .ok (beBytes 1 odcid.data.length ++ odcid.data)
  | .retryToken, none => .error .internalError

/-- mirrors token.rs:104-115 -/
def body (t : AddressToken) : Except TokenError Bytes := do
  return beBytes 8 t.issueTime ++ (← t.bodyRest)

/-- What `encode` passes to the cipher. mirrors token.rs:118-128 -/
def sealing (nonce : Nonce) (t : AddressToken) : Except TokenError (Sealing Bytes) := do
  let body ← t.body
  let aad ← additionalData t.tokenType t.address t.rscid
  return { nonce := nonce.toList, aad, body }

/-- mirrors token.rs:92-131 -/
def encode (cipher : Cipher) (nonce : Nonce) (t : AddressToken) : Except TokenError Bytes := do
  let s ← t.sealing nonce
  return LABEL ++ t.tokenType.toByte :: (s.nonce ++ cipher.sealAppendTag s.nonce s.aad s.body)

/-- mirrors token.rs:278-287 -/
def tokenTypeOf (token : Bytes) : Except TokenError AddressTokenType :=
  match token[4]? with
  | some b => AddressTokenType.ofByte b
  | none => .error .invalidToken

/-- Label, type and nonce; what is left is the ciphertext. mirrors token.rs:156-171 -/
def readHeader (token : Bytes) : Except TokenError (AddressTokenType × Bytes × Bytes) :=
  match readBytes 4 token with
  | none => .error .bufferTooShort
  | some (label, buf) =>
    if label ≠ LABEL then .error .invalidToken
    else
      match buf with
      | [] => .error .bufferTooShort
      | b :: buf => do
        let tokenType ← AddressTokenType.ofByte b
        match readBytes 12 buf with
        | none => .error .bufferTooShort
        | some (nonce, buf) => return (tokenType, nonce, buf)

/-- mirrors token.rs:209-218 -/
def readOdcid (buf : Bytes) : Except TokenError (Option ConnectionId) :=
  match readBe 1 buf with
  | none => .error .bufferTooShort
  | some (cidLen, buf) =>
    if cidLen = 0 then .ok none
    else if cidLen ≤ 20 then
      match readBytes cidLen buf with
      | none => .error .bufferTooShort
      | some (cid, _) => .ok (some (.new cid))
    else .error .invalidToken

/-- The token was issued by now and is not older than `lifetime`; a `SystemTime` has 63 bits of seconds.
mirrors token.rs:190-206 -/
def checkTime (secs now lifetime : Nat) : Bool :=
  secs < 2 ^ 63 && secs * NANOS ≤ now && now - secs * NANOS ≤ lifetime

/-- mirrors token.rs:187-229 -/
def readBody (tokenType : AddressTokenType) (buf : Bytes) (address : SocketAddr) (pktDcid : ConnectionId)
    (now lifetime : Nat) : Except TokenError AddressToken :=
  match readBe 8 buf with
  | none => .error .bufferTooShort
  | some (secs, buf) =>
    if !checkTime secs now lifetime then .error .invalidToken
    else
      match tokenType with
      | .retryToken => do
        let odcid ← readOdcid buf
        return { tokenType, issued := secs * NANOS, address, odcid, rscid := some pktDcid }
      | .resumeToken =>
        .ok { tokenType, issued := secs * NANOS, address, odcid := some pktDcid, rscid := none }

/-- The result, and what is left in the buffer. The body is read from the whole buffer, tag included.
mirrors token.rs:148-230 -/
def decode (cipher : Cipher) (log : List (Sealing Bytes)) (token : Bytes) (address : SocketAddr)
    (pktDcid : ConnectionId) (now lifetime : Nat) : Except TokenError AddressToken × Bytes :=
  match readHeader token with
  | .error e => (.error e, token)
  | .ok (tokenType, nonce, ct) =>
    let header := token.take (token.length - ct.length)
    let rscid := if tokenType = .retryToken then some pktDcid else none
    match additionalData tokenType address rscid with
    | .error e => (.error e, token)
    | .ok aad =>
      match cipher.openInPlace log nonce aad ct with
      | none => (.error .invalidToken, header ++ cipher.spoil nonce aad ct)
      | some body =>
        let buf := Scheme.opened body ct
        (readBody tokenType buf address pktDcid now lifetime, header ++ buf)

/-! ## What is accepted -/

variable {cipher : Cipher} {log : List (Sealing Bytes)} {token nonce ct : Bytes} {address : SocketAddr}
  {dcid : ConnectionId} {now lifetime : Nat} {ty : AddressTokenType}

theorem ofByte_eq_ok {b : UInt8} : AddressTokenType.ofByte b = .ok ty ↔ b = ty.toByte := by
  unfold AddressTokenType.ofByte
  cases ty <;> by_cases h0 : b = 0 <;> by_cases h1 : b = 1 <;> simp_all [AddressTokenType.toByte]

/-- The header of a token is what `encode` writes. -/
theorem readHeader_eq_ok : readHeader token = .ok (ty, nonce, ct) ↔
    nonce.length = 12 ∧ token = LABEL ++ ty.toByte :: (nonce ++ ct) := by
  constructor
  · intro h
    unfold readHeader at h
    split at h
    · cases h
    rename_i label buf hlabel
    split at h
    · cases h
    rename_i heq
    cases buf with
    | nil => cases h
    | cons b buf =>
      cases hb : AddressTokenType.ofByte b with
      | error e => simp [hb, bind, Except.bind] at h
      | ok ty' =>
        simp only [hb, bind, Except.bind] at h
        split at h
        · cases h
        rename_i nonce' ct' hnonce
        cases h
        obtain ⟨-, htoken⟩ := readBytes_eq_some hlabel
        obtain ⟨hlen, hbuf⟩ := readBytes_eq_some hnonce
        rw [ofByte_eq_ok.mp hb] at htoken
        exact ⟨hlen, by rw [htoken, hbuf, not_not.mp heq]⟩
  rintro ⟨hlen, rfl⟩
  have hb : AddressTokenType.ofByte ty.toByte = .ok ty := ofByte_eq_ok.mpr rfl
  rw [readHeader, readBytes_append (by rfl)]
  simp [hb, readBytes_append hlen, bind, Except.bind, pure, Except.pure]

theorem tokenTypeOf_header (ty : AddressTokenType) (rest : Bytes) :
    tokenTypeOf (LABEL ++ ty.toByte :: rest) = .ok ty :=
  ofByte_eq_ok.mpr rfl

/-- The additional data of a token that is presented: the address the packet came from and, for a Retry
token, the packet's DCID. -/
def presentedData (ty : AddressTokenType) (address : SocketAddr) (dcid : ConnectionId) : Bytes :=
  match ty with
  | .resumeToken => address.ip.octets
  | .retryToken => address.ip.octets ++ (beBytes 2 address.port.toNat ++ dcid.data)

theorem additionalData_presented : additionalData ty address (if ty = .retryToken then some dcid else none) =
      .ok (presentedData ty address dcid) := by
  cases ty <;> rfl

variable {t : AddressToken}

theorem decode_eq_ok_iff : (decode cipher log token address dcid now lifetime).1 = .ok t ↔
      ∃ ty nonce ct body, nonce.length = 12 ∧ token = LABEL ++ ty.toByte :: (nonce ++ ct) ∧
        { nonce, aad := presentedData ty address dcid, body } ∈ log ∧
        cipher.sealAppendTag nonce (presentedData ty address dcid) body = ct ∧
        readBody ty (Scheme.opened body ct) address dcid now lifetime = .ok t := by
  constructor
  · intro h
    unfold decode at h
    split at h
    · cases h
    rename_i ty nonce ct hhdr
    obtain ⟨hlen, htoken⟩ := readHeader_eq_ok.mp hhdr
    simp only [additionalData_presented] at h
    split at h
    · cases h
    · next body hopen =>
      obtain ⟨hmem, hct⟩ := Scheme.openInPlace_eq_some_iff.mp hopen
      exact ⟨ty, nonce, ct, body, hlen, htoken, hmem, hct, h⟩
  rintro ⟨ty, nonce, ct, body, hlen, htoken, hmem, hct, hbody⟩
  have hopen := Scheme.openInPlace_eq_some_iff.mpr ⟨hmem, hct⟩
  simp only [decode, readHeader_eq_ok.mpr ⟨hlen, htoken⟩, additionalData_presented, hopen, hbody]

/-- Time and original DCID are all that is checked in the body. -/
theorem readBody_ok_iff {secs : Nat} {rest : Bytes} :
    (∃ t, readBody ty (beBytes 8 secs ++ rest) address dcid now lifetime = .ok t) ↔
      checkTime (secs % 2 ^ 64) now lifetime = true ∧ (ty = .retryToken → ∃ odcid, readOdcid rest = .ok odcid) := by
  have hread := readBe_beBytes 8 secs rest
  generalize secs % 2 ^ 64 = time at hread ⊢
  cases htime : checkTime time now lifetime with
  | false => simp [readBody, hread, htime]
  | true =>
    cases ty with
    | resumeToken => simp [readBody, hread, htime]
    | retryToken =>
      cases ho : readOdcid rest <;>
        simp [readBody, hread, htime, ho, bind, Except.bind, pure, Except.pure]

/-- The type is the one of the header. -/
theorem readBody_tokenType {buf : Bytes} (h : readBody ty buf address dcid now lifetime = .ok t) :
    t.tokenType = ty := by
  unfold readBody at h
  split at h
  · cases h
  split at h
  · cases h
  cases ty with
  | resumeToken => cases h; rfl
  | retryToken =>
    rename_i buf' _ _
    cases ho : readOdcid buf' with
    | error e => rw [ho] at h; cases h
    | ok odcid => rw [ho] at h; cases h; rfl

/-- The original DCID of a Retry token is read back; an empty one is read as none. -/
theorem readOdcid_bodyRest (odcid : ConnectionId) (tag : Bytes) :
    readOdcid (beBytes 1 odcid.data.length ++ odcid.data ++ tag) =
      .ok (if odcid.isEmpty then none else some odcid) := by
  have hfits : odcid.data.length ≤ 20 := odcid.fits
  rw [List.append_assoc, readOdcid, readBe_beBytes, Nat.mod_eq_of_lt (by omega)]
  dsimp only
  cases hd : odcid.data with
  | nil => simp [ConnectionId.isEmpty, hd]
  | cons b bs =>
    have hnew : ConnectionId.new (b :: bs) = odcid :=
      ConnectionId.ext (by rw [← hd]; exact List.take_of_length_le hfits)
    rw [hd] at hfits
    rw [if_neg (by simp), if_pos hfits, readBytes_append rfl]
    simp [ConnectionId.isEmpty, hd, hnew]

/-- The original DCID is the body's for a Retry token and the packet's DCID otherwise. -/
theorem readBody_odcid {secs : Nat} {rest : Bytes}
    (h : readBody ty (beBytes 8 secs ++ rest) address dcid now lifetime = .ok t) :
    ty = .retryToken ∧ readOdcid rest = .ok t.odcid ∨ ty = .resumeToken ∧ t.odcid = some dcid := by
  have hread := readBe_beBytes 8 secs rest
  rw [readBody, hread] at h
  dsimp only at h
  split at h
  · cases h
  cases ty with
  | resumeToken => cases h; exact .inr ⟨rfl, rfl⟩
  | retryToken =>
    cases ho : readOdcid rest with
    | error e => rw [ho] at h; cases h
    | ok odcid => rw [ho] at h; cases h; exact .inl ⟨rfl, rfl⟩

/-- The seals that `encode` made for the tokens it issued. -/
def logOf (issued : List (Nonce × AddressToken)) : List (Sealing Bytes) :=
  issued.filterMap fun (nonce, t) => (t.sealing nonce).toOption

/-- What `encode` seals, and when it succeeds. -/
theorem sealing_eq_ok {nonce : Nonce} {s : Sealing Bytes} :
    t.sealing nonce = .ok s ↔ ∃ rest aad, t.bodyRest = .ok rest ∧
      additionalData t.tokenType t.address t.rscid = .ok aad ∧
      s = { nonce := nonce.toList, aad, body := beBytes 8 t.issueTime ++ rest } := by
  unfold sealing body
  cases t.bodyRest <;> cases additionalData t.tokenType t.address t.rscid <;>
    simp [bind, Except.bind, pure, Except.pure, eq_comm]

theorem mem_logOf {issued : List (Nonce × AddressToken)} {s : Sealing Bytes} :
    s ∈ logOf issued ↔ ∃ nonce t, (nonce, t) ∈ issued ∧ t.sealing nonce = .ok s := by
  simp only [logOf, List.mem_filterMap, Prod.exists]
  refine exists_congr fun nonce => exists_congr fun t => and_congr_right fun _ => ?_
  cases t.sealing nonce <;> simp [Except.toOption]

/-- The header of the buffer stays, so the type can still be read when `decode` has failed. -/
theorem tokenTypeOf_decode :
    tokenTypeOf (decode cipher log token address dcid now lifetime).2 = tokenTypeOf token := by
  unfold decode
  split
  · rfl
  rename_i ty nonce ct hhdr
  obtain ⟨hlen, htoken⟩ := readHeader_eq_ok.mp hhdr
  have hheader : token.take (token.length - ct.length) = LABEL ++ ty.toByte :: nonce := by
    rw [htoken, ← List.cons_append, ← List.append_assoc]
    exact List.take_left' (by simp only [List.length_append, List.length_cons]; omega)
  have htype : ∀ rest, tokenTypeOf (LABEL ++ ty.toByte :: nonce ++ rest) = tokenTypeOf token := by
    intro rest
    rw [htoken, tokenTypeOf_header, List.append_assoc, List.cons_append, tokenTypeOf_header]
  simp only [additionalData_presented, hheader]
  split <;> exact htype _

/-- A token that is not presented as a Retry token is accepted for the DCID of the packet. -/
theorem decode_odcid_of_resume (h : (decode cipher log token address dcid now lifetime).1 = .ok t)
    (hty : tokenTypeOf token ≠ .ok .retryToken) : t.odcid = some dcid := by
  obtain ⟨ty, nonce, ct, body, -, rfl, -, -, hbody⟩ := decode_eq_ok_iff.mp h
  cases ty with
  | retryToken => exact absurd rfl hty
  | resumeToken =>
    unfold readBody at hbody
    split at hbody
    · cases hbody
    split at hbody
    · cases hbody
    · cases hbody; rfl

/-- A token that is accepted without an original DCID is a Retry token that was issued with an empty one, or
a Resume token for the IPv6 address that the client's address, port and DCID spell. -/
theorem decode_odcid_none {issued : List (Nonce × AddressToken)}
    (h : (decode cipher (logOf issued) token address dcid now lifetime).1 = .ok t) (hnone : t.odcid = none) :
    ∃ nonce e, (nonce, e) ∈ issued ∧
      (e.tokenType = .retryToken ∧ (∃ odcid, e.odcid = some odcid ∧ odcid.isEmpty = true) ∨
        e.tokenType = .resumeToken ∧ e.address.ip.octets = presentedData .retryToken address dcid) := by
  obtain ⟨ty, nonce, ct, body, -, -, hlog, rfl, hbody⟩ := decode_eq_ok_iff.mp h
  obtain ⟨n, e, hmem, hs⟩ := mem_logOf.mp hlog
  obtain ⟨rest, aad, hrest, haad, heq⟩ := sealing_eq_ok.mp hs
  cases heq
  rw [Scheme.opened, List.append_assoc] at hbody
  obtain ⟨rfl, hodcid⟩ | ⟨-, hodcid⟩ := readBody_odcid hbody
  · refine ⟨n, e, hmem, ?_⟩
    cases hety : e.tokenType with
    | resumeToken =>
      simp only [additionalData, hety, Except.ok.injEq] at haad
      exact .inr ⟨rfl, haad⟩
    | retryToken =>
      simp only [bodyRest, hety] at hrest
      cases he : e.odcid with
      | none => simp [he] at hrest
      | some odcid =>
        simp only [he, Except.ok.injEq] at hrest
        rw [← hrest, readOdcid_bodyRest, hnone] at hodcid
        refine .inl ⟨rfl, odcid, rfl, ?_⟩
        by_contra hne
        simp [hne] at hodcid
  · rw [hnone] at hodcid
    cases hodcid

end AddressToken

/-! ## Authenticity -/

open AddressToken

variable {cipher : Cipher} {issued : List (Nonce × AddressToken)} {token : Bytes} {address : SocketAddr}
  {dcid : ConnectionId} {now lifetime : Nat} {ty : AddressTokenType} {nonce : Nonce} {t e : AddressToken}

/-- `e` is a token of this type for this client: for its IP address and, if it is a Retry token, its port and
this DCID. -/
def Genuine (e : AddressToken) (ty : AddressTokenType) (address : SocketAddr) (dcid : ConnectionId) : Prop :=
  e.tokenType = ty ∧ e.address.ip = address.ip ∧
    (ty = .retryToken → e.address.port = address.port ∧ e.rscid = some dcid)

/-- Whatever `decode` accepts, a token of its type was issued for the client. -/
def Authentic (cipher : Cipher) (issued : List (Nonce × AddressToken)) (token : Bytes) (address : SocketAddr)
    (dcid : ConnectionId) (now lifetime : Nat) : Prop :=
  ∀ t, (decode cipher (logOf issued) token address dcid now lifetime).1 = .ok t →
    ∃ nonce e, (nonce, e) ∈ issued ∧ (∃ bytes, e.encode cipher nonce = .ok bytes) ∧ Genuine e t.tokenType address dcid

/-- Apart from its type byte, `token` is the one that was issued as `e`. -/
def Carries (cipher : Cipher) (nonce : Nonce) (e : AddressToken) (token : Bytes) : Prop :=
  ∃ bytes, e.encode cipher nonce = .ok bytes ∧ token.take 4 = LABEL ∧ token.drop 5 = bytes.drop 5

def Fresh (e : AddressToken) (now lifetime : Nat) : Prop :=
  checkTime (e.issueTime % 2 ^ 64) now lifetime = true

/-- Presented as `ty` from `address` with `dcid`, a token `e` of another type or for another address family
has the same additional data. A Resume token passes for a Retry token if the bytes of its tag can be read as
a CID. -/
def CrossRead (cipher : Cipher) (nonce : Nonce) (e : AddressToken) (ty : AddressTokenType)
    (address : SocketAddr) (dcid : ConnectionId) : Prop :=
  ¬ (e.tokenType = ty ∧ e.address.ip.SameFamily address.ip) ∧
    additionalData e.tokenType e.address e.rscid = .ok (presentedData ty address dcid) ∧
    (e.tokenType = .resumeToken → ty = .retryToken → ∃ odcid, readOdcid
      ((cipher.sealAppendTag nonce.toList e.address.ip.octets (beBytes 8 e.issueTime)).drop 8) = .ok odcid)

/-- With one type and one family, the additional data has one reading. -/
theorem genuine_of_sameFamily (hty : e.tokenType = ty) (hfam : e.address.ip.SameFamily address.ip)
    (haad : additionalData e.tokenType e.address e.rscid = .ok (presentedData ty address dcid)) :
    Genuine e ty address dcid := by
  have hlen := sameFamily_iff.mp hfam
  subst hty
  cases hety : e.tokenType with
  | resumeToken =>
    rw [hety] at haad
    exact ⟨hety, octets_injective (Except.ok.inj haad), fun h => by cases h⟩
  | retryToken =>
    rw [hety] at haad
    cases hr : e.rscid with
    | none => rw [hr] at haad; cases haad
    | some rscid =>
      rw [hr] at haad
      obtain ⟨hoct, hrest⟩ := List.append_inj (Except.ok.inj haad) hlen
      obtain ⟨hport, hcid⟩ := List.append_inj hrest (by simp)
      refine ⟨hety, octets_injective hoct, fun _ => ⟨?_, ?_⟩⟩
      · exact UInt16.toNat_inj.mp (beBytes_injective (e.address.port.toNat_lt) (address.port.toNat_lt) hport)
      · rw [hr, ConnectionId.ext hcid]

/-- What an issued token's body passes as, under whatever type it is presented. -/
theorem readBody_sealed (ty : AddressTokenType) (address : SocketAddr) (dcid : ConnectionId) {rest : Bytes}
    (hrest : e.bodyRest = .ok rest) (tag : Bytes) :
    (∃ t, readBody ty (beBytes 8 e.issueTime ++ rest ++ tag) address dcid now lifetime = .ok t) ↔
      Fresh e now lifetime ∧
        (e.tokenType = .resumeToken → ty = .retryToken → ∃ odcid, readOdcid tag = .ok odcid) := by
  rw [List.append_assoc, readBody_ok_iff]
  refine and_congr_right fun _ => ?_
  cases hety : e.tokenType with
  | resumeToken =>
    simp only [bodyRest, hety, Except.ok.injEq] at hrest
    simp [← hrest]
  | retryToken =>
    cases ho : e.odcid with
    | none => simp [bodyRest, hety, ho] at hrest
    | some odcid =>
      simp only [bodyRest, hety, ho, Except.ok.injEq] at hrest
      exact iff_of_true (fun _ => hrest ▸ ⟨_, readOdcid_bodyRest odcid tag⟩) (fun h => by cases h)

theorem encode_eq_ok {bytes : Bytes} : e.encode cipher nonce = .ok bytes ↔ ∃ s, e.sealing nonce = .ok s ∧
      bytes = LABEL ++ e.tokenType.toByte :: (s.nonce ++ cipher.sealAppendTag s.nonce s.aad s.body) := by
  unfold encode
  cases e.sealing nonce <;> simp [bind, Except.bind, pure, Except.pure, eq_comm]

variable {s : Sealing Bytes}

/-- A token with the label, a type byte and the rest of an issued token. -/
theorem token_of_carries (hs : e.sealing nonce = .ok s)
    (htype : tokenTypeOf token = .ok ty) (hc : Carries cipher nonce e token) :
    token = LABEL ++ ty.toByte :: (s.nonce ++ cipher.sealAppendTag s.nonce s.aad s.body) := by
  obtain ⟨bytes, henc, htake, hdrop⟩ := hc
  obtain ⟨s', hs', rfl⟩ := encode_eq_ok.mp henc
  cases hs.symm.trans hs'
  unfold tokenTypeOf at htype
  split at htype
  · next b hb =>
    obtain ⟨hlt, hget⟩ := List.getElem?_eq_some_iff.mp hb
    rw [← ofByte_eq_ok.mp htype, ← List.take_append_drop 4 token, htake, List.drop_eq_getElem_cons hlt, hget, hdrop]
    rfl
  · cases htype

theorem carries_of_token (hs : e.sealing nonce = .ok s)
    (h : token = LABEL ++ ty.toByte :: (s.nonce ++ cipher.sealAppendTag s.nonce s.aad s.body)) :
    Carries cipher nonce e token :=
  ⟨_, encode_eq_ok.mpr ⟨s, hs, rfl⟩, by rw [h]; rfl, by rw [h]; rfl⟩

/-- The tag of a Resume token, as it stands behind the body. -/
theorem resume_tag {rest aad : Bytes} (hety : e.tokenType = .resumeToken) (hrest : e.bodyRest = .ok rest)
    (haad : additionalData e.tokenType e.address e.rscid = .ok aad) :
    (cipher.sealAppendTag nonce.toList aad (beBytes 8 e.issueTime ++ rest)).drop
        (beBytes 8 e.issueTime ++ rest).length =
      (cipher.sealAppendTag nonce.toList e.address.ip.octets (beBytes 8 e.issueTime)).drop 8 := by
  simp only [bodyRest, hety, Except.ok.injEq] at hrest
  simp only [additionalData, hety, Except.ok.injEq] at haad
  simp [← hrest, ← haad]

theorem Genuine.data (h : Genuine e ty address dcid) :
    additionalData e.tokenType e.address e.rscid = .ok (presentedData ty address dcid) := by
  obtain ⟨rfl, hip, hport⟩ := h
  cases hty : e.tokenType with
  | resumeToken => simp [additionalData, presentedData, hip]
  | retryToken =>
    obtain ⟨hp, hr⟩ := hport hty
    simp [additionalData, presentedData, hip, hp, hr]

/-- A fresh token is accepted under every type and address that give its additional data. -/
theorem decode_issued (hmem : (nonce, e) ∈ issued) (hs : e.sealing nonce = .ok s)
    (htoken : token = LABEL ++ ty.toByte :: (s.nonce ++ cipher.sealAppendTag s.nonce s.aad s.body))
    (hdata : additionalData e.tokenType e.address e.rscid = .ok (presentedData ty address dcid))
    (hfresh : Fresh e now lifetime) (htag : e.tokenType = .resumeToken → ty = .retryToken → ∃ odcid, readOdcid
      ((cipher.sealAppendTag nonce.toList e.address.ip.octets (beBytes 8 e.issueTime)).drop 8) = .ok odcid) :
    ∃ t, (decode cipher (logOf issued) token address dcid now lifetime).1 = .ok t ∧ t.tokenType = ty := by
  have hlog := mem_logOf.mpr ⟨nonce, e, hmem, hs⟩
  obtain ⟨rest, aad, hrest, haad, rfl⟩ := sealing_eq_ok.mp hs
  cases haad.symm.trans hdata
  -- the body passes the checks under the presented type
  obtain ⟨t, hbody⟩ := (readBody_sealed ty address dcid hrest
    ((cipher.sealAppendTag nonce.toList _ (beBytes 8 e.issueTime ++ rest)).drop
      (beBytes 8 e.issueTime ++ rest).length)).mpr
    ⟨hfresh, fun hety hty => by rw [resume_tag hety hrest haad]; exact htag hety hty⟩
  exact ⟨t, decode_eq_ok_iff.mpr ⟨ty, nonce.toList, _, _, by simp, htoken, hlog, rfl, hbody⟩, readBody_tokenType hbody⟩

/-- For every set of issued tokens and everything a client can present: what is accepted was issued for the
client, exactly when a fresh token that is presented under another type or from another address family, with
the same additional data, is matched by a token that was issued for just that. -/
theorem token_authentic_iff (cipher : Cipher) (issued : List (Nonce × AddressToken)) (token : Bytes)
    (address : SocketAddr) (dcid : ConnectionId) (now lifetime : Nat) :
    Authentic cipher issued token address dcid now lifetime ↔
      ∀ ty nonce e, tokenTypeOf token = .ok ty → (nonce, e) ∈ issued → Carries cipher nonce e token →
        Fresh e now lifetime → CrossRead cipher nonce e ty address dcid →
        ∃ nonce' e', (nonce', e') ∈ issued ∧ (∃ bytes, e'.encode cipher nonce' = .ok bytes) ∧
          Genuine e' ty address dcid := by
  constructor
  · intro hauth ty nonce e htype hmem hcarries hfresh hcross
    have ⟨bytes, henc, _⟩ := hcarries
    obtain ⟨s, hs, -⟩ := encode_eq_ok.mp henc
    obtain ⟨-, hdata, htag⟩ := hcross
    obtain ⟨t, hdec, rfl⟩ := decode_issued hmem hs (token_of_carries hs htype hcarries) hdata hfresh htag
    exact hauth t hdec
  intro h t hdec
  obtain ⟨ty, nonce, ct, body, -, htoken, hlog, hct, hbody⟩ := decode_eq_ok_iff.mp hdec
  obtain ⟨n, e, hmem, hs⟩ := mem_logOf.mp hlog
  obtain ⟨rest, aad, hrest, haad, heq⟩ := sealing_eq_ok.mp hs
  cases heq
  rw [readBody_tokenType hbody]
  by_cases hsame : e.tokenType = ty ∧ e.address.ip.SameFamily address.ip
  · exact ⟨n, e, hmem, ⟨_, encode_eq_ok.mpr ⟨_, hs, rfl⟩⟩, genuine_of_sameFamily hsame.1 hsame.2 haad⟩
  subst hct
  obtain ⟨hfresh, htag⟩ := (readBody_sealed ty address dcid hrest _).mp ⟨t, hbody⟩
  refine h ty n e (by rw [htoken]; exact tokenTypeOf_header ty _) hmem (carries_of_token hs htoken) hfresh
    ⟨hsame, haad, fun hety hty => ?_⟩
  rw [← resume_tag hety hrest haad]
  exact htag hety hty

/-- A cipher to evaluate examples with; the tag is constant. -/
def clearCipher : Cipher where
  sealAppendTag _ _ body := body ++ List.replicate 16 0
  tagLen := 16
  spoil _ _ ct := ct
  sealAppendTag_length := by simp
  sealAppendTag_injective _ _ _ _ h := List.append_cancel_right h

/-- A Retry token for an IPv6 client, with a source CID of eight bytes, is accepted unchanged from an IPv4
address: the DCID of twenty bytes takes up the rest of the additional data. -/
theorem retry_token_across_families :
    let octets : Vector UInt8 16 := #v[192, 0, 2, 1, 17, 34, 7, 8, 9, 10, 11, 12, 13, 14, 15, 16]
    let client : SocketAddr := { ip := .v6 octets, port := 443 }
    let rscid : ConnectionId := .new [1, 2, 3, 4, 5, 6, 7, 8]
    let e : AddressToken := .newRetryToken 0 client (.new [5]) rscid
    let token : Bytes := LABEL ++ 0 :: List.replicate 20 0 ++ 1 :: 5 :: List.replicate 16 0
    let attacker : SocketAddr := { ip := .v4 #v[192, 0, 2, 1], port := 4386 }
    let dcid : ConnectionId := .new [7, 8, 9, 10, 11, 12, 13, 14, 15, 16, 1, 187, 1, 2, 3, 4, 5, 6, 7, 8]
    e.encode clearCipher (.replicate 12 0) = .ok token ∧
      (decode clearCipher (logOf [(.replicate 12 0, e)]) token attacker dcid 0 60).1 =
        .ok (.newRetryToken 0 attacker (.new [5]) dcid) ∧
      ¬ Authentic clearCipher [(.replicate 12 0, e)] token attacker dcid 0 60 := by
  intro octets client rscid e token attacker dcid
  have hdec : (decode clearCipher (logOf [(.replicate 12 0, e)]) token attacker dcid 0 60).1 =
      .ok (.newRetryToken 0 attacker (.new [5]) dcid) := by decide +kernel
  refine ⟨by decide +kernel, hdec, fun h => ?_⟩
  obtain ⟨nonce, e', hmem, -, -, hip, -⟩ := h _ hdec
  rw [(Prod.mk.inj (List.mem_singleton.mp hmem)).2] at hip
  cases hip

end MoqQuic.L3.Tquic
