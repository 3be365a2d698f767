import MoqQuic.L4App.Tquic.Endpoint

/-!
# Address validation on the server (`endpoint.rs`, `token.rs`)

`recv` unwraps the original DCID of every token that `validate_address_token`
accepts. `decode` gives a Retry token no original DCID when the one it was
issued for is empty, and `send_retry` issues a token for whatever DCID the
Initial has. So a client that sends an Initial with an empty DCID, and then
returns the token of the Retry, makes the server panic.

A Resume token has no original DCID in its body. It is read as a Retry token
if its type byte is changed and its IPv6 address is spelled by the client's
IPv4 address, port and DCID; what stands in place of the CID is then the tag.

Results:
* `address_tokens_never_panic`: in every run in which the Initials have a DCID
  and no Resume token is spelled in this way, each accepted token has an
  original DCID, and no datagram makes `recv` panic.
* `rotated_token_accepted_iff`: the keys are tried in place, so a token of an
  older key is accepted when no key before it overwrites the token.
-/
namespace MoqQuic.L4.Tquic
open Reader (Bytes)
open L1.Tquic List Option
open L3.Tquic (AddressToken AddressTokenType TokenError Nonce Cipher clearCipher LABEL)
open L3.Tquic.AddressToken

/-- The Retry tokens under the key were issued for a DCID that is not empty. -/
def Key.Named (k : Key) : Prop :=
  ∀ nonce t odcid, (nonce, t) ∈ k.issued → t.tokenType = .retryToken → t.odcid = some odcid → odcid.isEmpty = false

namespace Endpoint

variable {e e' : Endpoint} {d : Datagram} {env : Env}

/-- No Resume token was issued for the address that the client's address, port and DCID spell. -/
def Unspelled (e : Endpoint) (d : Datagram) : Prop :=
  ∀ k ∈ e.keys, ∀ nonce t, (nonce, t) ∈ k.issued → t.tokenType = .resumeToken →
    t.address.ip.octets ≠ presentedData .retryToken d.src d.dcid

/-- Only an IPv4 address with ten bytes of DCID spells an address. -/
theorem unspelled_of_length (h : d.dcid.data.length ≠ 10) : e.Unspelled d := by
  intro k _ nonce t _ _ heq
  have hlen := congrArg List.length heq
  have ht := t.address.ip.octets_length
  have hd := d.src.ip.octets_length
  simp only [presentedData, length_append, beBytes_length] at hlen
  omega

/-- A datagram that matches no connection: if it is an Initial, it has a DCID, and none that spells an address
with the client's. -/
def Sane (e : Endpoint) : Call → Prop
  | .recv d _ => e.target d = none → d.pktType = .initial → d.dcid.isEmpty = false ∧ e.Unspelled d
  | _ => True

/-- A token that is accepted has an original DCID, and the datagram does not make `recv` panic. -/
def OdcidKnown (e : Endpoint) : Call → Prop
  | .recv d env =>
    (e.target d = none → d.pktType = .initial → ∀ token t, d.token = some token →
      (validateAddressToken d.src d.dcid env.now e.config.addressTokenLifetime token e.keys).1 = .ok t →
        t.odcid.isSome = true) ∧
    (e.recv d env).isSome = true
  | _ => True

variable {t : AddressToken}

/-- A token that is accepted is accepted under one of the keys. -/
theorem validateAddressToken_ok {address : SocketAddr} {dcid : ConnectionId} {now lifetime : Nat} (keys : List Key)
    {token : Bytes} (h : (validateAddressToken address dcid now lifetime token keys).1 = .ok t) :
    ∃ k ∈ keys, ∃ token', (decode k.cipher (logOf k.issued) token' address dcid now lifetime).1 = .ok t := by
  induction keys generalizing token with
  | nil => cases h
  | cons k ks ih =>
    unfold validateAddressToken at h
    split at h
    · next t' token' hdec => cases h; exact ⟨k, mem_cons_self, token, by rw [hdec]⟩
    · next err token' hdec =>
      obtain ⟨k', hmem, hk'⟩ := ih h
      exact ⟨k', mem_cons_of_mem _ hmem, hk'⟩

theorem odcid_isSome {token : Bytes} (hkeys : ∀ k ∈ e.keys, k.Named) (hd : e.Unspelled d)
    (h : (validateAddressToken d.src d.dcid env.now e.config.addressTokenLifetime token e.keys).1 = .ok t) :
    t.odcid.isSome = true := by
  obtain ⟨k, hk, token', hdec⟩ := validateAddressToken_ok e.keys h
  by_contra hnone
  rw [Bool.not_eq_true, isSome_eq_false_iff, isNone_iff_eq_none] at hnone
  obtain ⟨nonce, issued, hmem, ⟨hty, odcid, hodcid, hempty⟩ | ⟨hty, haddr⟩⟩ := decode_odcid_none hdec hnone
  · rw [hkeys k hk nonce issued odcid hmem hty hodcid] at hempty
    cases hempty
  · exact hd k hk nonce issued hmem hty haddr

/-- `recv` panics at the unwrap only. -/
theorem recv_isSome (h : e.target d = none → d.pktType = .initial → ∀ token t, d.token = some token →
    (validateAddressToken d.src d.dcid env.now e.config.addressTokenLifetime token e.keys).1 = .ok t →
      t.odcid.isSome = true) : (e.recv d env).isSome = true := by
  unfold recv
  split
  · dsimp only
    split <;> rfl
  rename_i ht
  split
  · rfl
  split
  · next hinit =>
    unfold accept
    split
    · rfl
    split
    · rfl
    split
    · rfl
    · rfl
    rename_i token hadm
    have hodcid : (originalDcid d token).isSome = true := by
      unfold admission at hadm
      split at hadm
      · next bytes hbytes =>
        split at hadm
        · next t rest hval => cases hadm; exact h ht hinit.1 bytes t hbytes (by rw [hval])
        · split at hadm <;> cases hadm
      split at hadm
      · cases hadm
      · cases hadm; rfl
    obtain ⟨odcid, ho⟩ := isSome_iff_exists.mp hodcid
    rw [ho, bind_some]
    split <;> rfl
  · split <;> rfl

/-- Every call but `recv` leaves the keys alone. -/
theorem step_fixed {call : Call} (hs : e.step call = some e') (hrecv : ∀ d env, call ≠ .recv d env) :
    e'.fixed = e.fixed := by
  cases call with
  | connect scid path starts => cases hs; exact e.connect_fixed scid path starts
  | recv d env => exact absurd rfl (hrecv d env)
  | onTimeout expired => cases hs; exact onTimeout_fixed expired e
  | useConn idx marks acts => cases hs; exact e.useConn_fixed idx marks acts
  | close force => cases hs; exact e.close_fixed force
  | processConnections turns =>
    exact processConnections_invariant (·.fixed = e.fixed) (fun p t p' h _ hp => (Pass.step_fixed hp).trans h)
      rfl (LTS.along_true _ _) hs

theorem keys_of_fixed (h : e'.fixed = e.fixed) : e'.keys = e.keys := by
  have hk := Prod.mk.inj (Prod.mk.inj (Prod.mk.inj h).2).2
  rw [keys, keys, hk.1, hk.2]

theorem issue_named {nonce : Nonce} (h : ∀ k ∈ e.keys, k.Named)
    (ht : ∀ odcid, t.tokenType = .retryToken → t.odcid = some odcid → odcid.isEmpty = false) :
    ∀ k ∈ (e.issue nonce t).keys, k.Named := by
  obtain ⟨hkey, holder⟩ := forall_mem_cons.mp h
  refine forall_mem_cons.mpr ⟨fun n u odcid hmem hty hodcid => ?_, holder⟩
  rcases mem_append.mp hmem with hmem | hmem
  · exact hkey n u odcid hmem hty hodcid
  cases mem_singleton.mp hmem
  exact ht odcid hty hodcid

theorem createConnection_fixed (e : Endpoint) (d : Datagram) (env : Env) (token : Option AddressToken)
    (odcid : ConnectionId) :
    (e.createConnection d env token odcid).fixed = (e.issue env.nonce (newResumeToken env.now d.src)).fixed :=
  markTickable_fixed _ _ _

/-- The tokens that a server issues keep naming a DCID. -/
theorem step_named {call : Call} (h : ∀ k ∈ e.keys, k.Named) (hsane : e.Sane call)
    (hs : e.step call = some e') : ∀ k ∈ e'.keys, k.Named := by
  by_cases hrecv : ∃ d env, call = .recv d env
  · obtain ⟨d, env, rfl⟩ := hrecv
    obtain ⟨⟨e1, r⟩, hr, rfl⟩ := map_eq_some_iff.mp hs
    cases received_of_recv hr with
    | delivered idx reset ht _ =>
      have hk := keys_of_fixed (e.touch_fixed idx (·.recv d.packets))
      exact fun k hmem => h k (hk ▸ hmem)
    | reset idx ht =>
      have hk := keys_of_fixed (e.touch_fixed idx .reset)
      exact fun k hmem => h k (hk ▸ hmem)
    | answered _ _ _ _ => exact h
    | retry ht hinitial =>
      refine issue_named h fun odcid _ hodcid => ?_
      cases hodcid
      exact (hsane ht hinitial).1
    | created _ _ token odcid _ _ =>
      rw [keys_of_fixed (e.createConnection_fixed d env token odcid)]
      exact issue_named h fun odcid hty => by cases hty
  · rw [keys_of_fixed (step_fixed hs fun d env hc => hrecv ⟨d, env, hc⟩)]
    exact h

end Endpoint

open Endpoint Exchange

/-- In every run in which the Initials for no known connection have a DCID, and none that spells the address
of a Resume token with the client's: each token that is accepted has an original DCID, and no datagram makes
`recv` panic. -/
theorem address_tokens_never_panic (isServer : Bool) (config : Config) (key : Key) (olderKeys : List Key)
    (hkeys : ∀ k ∈ key :: olderKeys, k.Named) (calls : List Call)
    (ha : LTS.Along Endpoint.step Sane (Endpoint.new isServer config key olderKeys) calls) :
    LTS.Along Endpoint.step OdcidKnown (Endpoint.new isServer config key olderKeys) calls := by
  refine LTS.Along.of_invariant (fun e call hk hsane => ?_) (fun e call e' => step_named) hkeys ha
  cases call with
  | recv d env =>
    have hodcid : e.target d = none → d.pktType = .initial → ∀ token t, d.token = some token →
        (validateAddressToken d.src d.dcid env.now e.config.addressTokenLifetime token e.keys).1 = .ok t →
          t.odcid.isSome = true :=
      fun ht hinitial token t _ hval => odcid_isSome hk (hsane ht hinitial).2 hval
    exact ⟨hodcid, recv_isSome hodcid⟩
  | _ => trivial

/-- A client is sent a Retry and comes back with its token: the DCIDs have four and eight bytes. -/
theorem address_tokens_never_panic_retry :
    LTS.Along Endpoint.step OdcidKnown (endpoint true true)
      [.recv (initial (.new [9, 9, 9, 9])) env, .recv (returned [9, 9, 9, 9]) { env with cid := .new [7] }] := by
  refine address_tokens_never_panic _ _ _ _ (fun k hk => ?_) _ ?_
  · cases mem_singleton.mp hk
    exact fun _ _ _ hmem => absurd hmem (not_mem_nil)
  exact ⟨fun _ _ => ⟨rfl, unspelled_of_length (by decide)⟩, fun _ _ =>
    ⟨fun _ _ => ⟨rfl, unspelled_of_length (by decide)⟩, fun _ _ => trivial⟩⟩

/-- An Initial without a DCID is answered by a Retry, and the Initial that returns the token makes the server
panic. -/
theorem empty_dcid_panics : let first : Datagram := initial (.new [])
    let token : Bytes := LABEL ++ List.replicate 38 0
    let second : Datagram := { first with dcid := rscid, token := some token }
    let e : Endpoint := endpoint true true
    (newRetryToken 0 client first.dcid rscid).encode clearCipher env.nonce = .ok token ∧
      e.recv first env = some (e.sendRetry first env, .retry) ∧
      (e.sendRetry first env).recv second env = none ∧
      ¬ LTS.Along Endpoint.step OdcidKnown e [.recv first env, .recv second env] := by
  intro first token second e
  have hretry : e.recv first env = some (e.sendRetry first env, .retry) := rfl
  have hpanic : (e.sendRetry first env).recv second env = none := by
    decide +kernel
  refine ⟨by decide +kernel, hretry, hpanic, fun h => ?_⟩
  have hsecond := (h.2 (e.sendRetry first env) (by rw [Endpoint.step, hretry]; rfl)).1.2
  rw [hpanic] at hsecond
  cases hsecond

/-! ## Key rotation -/

namespace Endpoint

open L3.Tquic (Genuine Fresh)

variable {address : SocketAddr} {dcid : ConnectionId} {now lifetime : Nat} {ty : AddressTokenType}
  {nonce aad ct : Bytes} {k : Key}

/-- `open_in_place` fails under this key. -/
abbrev Fails (nonce aad ct : Bytes) (k : Key) : Prop := k.cipher.openInPlace (logOf k.issued) nonce aad ct = none

/-- A failed `open_in_place` leaves the ciphertext or zeros, and zeros do not open. -/
abbrev Zeroes (nonce aad ct : Bytes) (k : Key) : Prop :=
  let zeros := replicate ct.length 0
  (k.cipher.spoil nonce aad ct = ct ∨ k.cipher.spoil nonce aad ct = zeros) ∧
    Fails nonce aad zeros k ∧ k.cipher.spoil nonce aad zeros = zeros

theorem validateAddressToken_fails {keys : List Key} (hlen : nonce.length = 12)
    (hk : Fails nonce (presentedData ty address dcid) ct k) :
    validateAddressToken address dcid now lifetime (LABEL ++ ty.toByte :: (nonce ++ ct)) (k :: keys) =
      validateAddressToken address dcid now lifetime
        (LABEL ++ ty.toByte :: (nonce ++ k.cipher.spoil nonce (presentedData ty address dcid) ct)) keys := by
  simp only [validateAddressToken, decode, readHeader_eq_ok.mpr ⟨hlen, rfl⟩, additionalData_presented, hk]
  rw [← cons_append, ← append_assoc, take_left' (by simp only [length_append]; omega), append_assoc]
  rfl

theorem zeros_rejected (hlen : nonce.length = 12) (keys : List Key)
    (h : ∀ k ∈ keys, Zeroes nonce (presentedData ty address dcid) ct k) :
    (validateAddressToken address dcid now lifetime (LABEL ++ ty.toByte :: (nonce ++ replicate ct.length 0)) keys).1 =
      .error .invalidToken := by
  induction keys with
  | nil => rfl
  | cons k keys ih =>
    obtain ⟨⟨-, hfails, hzeros⟩, hkeys⟩ := forall_mem_cons.mp h
    rw [validateAddressToken_fails hlen hfails, hzeros, ih hkeys]

/-- A token that was issued to the client under `k`, and that the keys before `k` do not open, is accepted
exactly when none of them overwrites it. -/
theorem rotated_token_accepted_iff {issued : Nonce} {t : AddressToken} (before after : List Key)
    (hmem : (issued, t) ∈ k.issued)
    (henc : t.encode k.cipher issued = .ok (LABEL ++ t.tokenType.toByte :: (issued.toList ++ ct)))
    (hgenuine : Genuine t t.tokenType address dcid) (hfresh : Fresh t now lifetime)
    (hfails : ∀ k' ∈ before, Fails issued.toList (presentedData t.tokenType address dcid) ct k')
    (hzeroes : ∀ k' ∈ before ++ k :: after, Zeroes issued.toList (presentedData t.tokenType address dcid) ct k') :
    (∃ t', (validateAddressToken address dcid now lifetime (LABEL ++ t.tokenType.toByte :: (issued.toList ++ ct))
      (before ++ k :: after)).1 = .ok t') ↔
      ∀ k' ∈ before, k'.cipher.spoil issued.toList (presentedData t.tokenType address dcid) ct = ct := by
  induction before with
  | nil =>
    obtain ⟨s, hs, htoken⟩ := L3.Tquic.encode_eq_ok.mp henc
    obtain ⟨t', hdec, -⟩ := L3.Tquic.decode_issued hmem hs htoken hgenuine.data hfresh (by simp_all)
    refine iff_of_true ⟨t', ?_⟩ (by simp)
    rw [nil_append, validateAddressToken]
    split <;> simp_all
  | cons k' before ih =>
    obtain ⟨hk', hbefore⟩ := forall_mem_cons.mp hfails
    rw [cons_append] at hzeroes ⊢
    obtain ⟨⟨hspoil, -⟩, hrest⟩ := forall_mem_cons.mp hzeroes
    rw [validateAddressToken_fails (by simp) hk', forall_mem_cons]
    by_cases hct : k'.cipher.spoil issued.toList (presentedData t.tokenType address dcid) ct = ct
    · rw [hct, ih hbefore hrest, and_iff_right rfl]
    · refine iff_of_false ?_ (fun h => hct h.1)
      rw [hspoil.resolve_left hct, zeros_rejected (by simp) _ hrest]
      simp

/-- Seals like `clearCipher` and leaves zeros where it cannot open. -/
def zeroingCipher : Cipher := { clearCipher with spoil := fun _ _ ct => replicate ct.length 0 }

/-- A Resume token of the second key is lost to the attempt with the first. -/
theorem rotated_token_rejected :
    let client : SocketAddr := { ip := .v4 #v[192, 0, 2, 1], port := 443 }
    let t : AddressToken := .newResumeToken 1000000000 client
    let k : Key := ⟨clearCipher, [(.replicate 12 0, t)]⟩
    let token : Bytes := LABEL ++ 1 :: (replicate 19 0 ++ 1 :: replicate 16 0)
    t.encode clearCipher (.replicate 12 0) = .ok token ∧
      (validateAddressToken client (.new [5]) 1000000000 0 token [k]).1 = .ok { t with odcid := some (.new [5]) } ∧
      (validateAddressToken client (.new [5]) 1000000000 0 token [⟨zeroingCipher, []⟩, k]).1 =
        .error .invalidToken := by
  decide +kernel

theorem rotated_token_accepted :
    let client : SocketAddr := { ip := .v4 #v[192, 0, 2, 1], port := 443 }
    let t : AddressToken := .newResumeToken 1000000000 client
    let keys : List Key := [⟨clearCipher, []⟩, ⟨clearCipher, [(.replicate 12 0, t)]⟩]
    ∃ t', (validateAddressToken client (.new [5]) 1000000000 0
      (LABEL ++ 1 :: (replicate 12 0 ++ (replicate 7 0 ++ 1 :: replicate 16 0))) keys).1 = .ok t' := by
  intro client t keys
  refine (rotated_token_accepted_iff (k := ⟨clearCipher, [(.replicate 12 0, t)]⟩) [⟨clearCipher, []⟩] []
    mem_cons_self (by decide +kernel) ⟨rfl, rfl, nofun⟩ ?_ ?_ ?_).mpr ?_
  · rw [Fresh]; decide +kernel
  all_goals decide +kernel

end Endpoint

end MoqQuic.L4.Tquic
