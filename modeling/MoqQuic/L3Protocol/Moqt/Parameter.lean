import Mathlib.Data.Finmap
import MoqQuic.L1Encoding.Quicvarint

/-!
# MOQT parameters (`moqt/wire/parameter.go`, `intparameter.go`, `stringparameter.go`)

A `Parameters` value is a Go map from the parameter type to the parameter.
`GetBytes` walks the map in whatever order the runtime picks, so it takes the
order as an argument; `Enumerates` says the order is one of the map.

`Parse` has two oddities that later modules use: an integer parameter's
declared length is read and not compared with the number that follows
(`intparameter.go:30`), and an unknown parameter is skipped and then reported
as an error, so the parameters behind it stay on the stream.

Results:
* `reads_params`: `Parse` inverts `GetBytes`, for every enumeration order, on
  maps whose keys are ROLE_PARAM (an integer) and ROLE_PATH (a string).
-/
namespace MoqQuic.L3.Moqt
open Reader L1.Quicvarint List

def ROLE_PARAM : Nat := 0x00
def ROLE_PATH : Nat := 0x01

/-- `IntParameter{Ptype, Pvalue}` or `StringParameter{ptype, pvalue}`. -/
inductive Parameter where
  | int (ptype pvalue : Nat)
  | str (ptype : Nat) (pvalue : GoString)
  deriving DecidableEq

abbrev Parameters := Finmap fun _ : Nat => Parameter

abbrev Entry := Sigma fun _ : Nat => Parameter

/-- `order` is an order in which `range` can walk the map. -/
def Enumerates (order : List Entry) (ps : Parameters) : Prop := (order : Multiset Entry) = ps.entries

variable {β : Type}

/-- mirrors intparameter.go:47-54 and stringparameter.go:62-69 (`GetBytes`) -/
def Parameter.getBytes : Parameter → Option Bytes
  | .int ptype pvalue => do
    let data ← append [] ptype
    let data ← append data (← len? pvalue)
    append data pvalue
  | .str ptype pvalue => do
    let data ← append [] ptype
    let data ← append data pvalue.len
    return data ++ pvalue.data

/-- mirrors intparameter.go:28-45 (`IntParameter.Parse`) -/
def parseIntParameter (ptype : Nat) : Act Err β Parameter := do
  -- the declared length is read and dropped
  let _ ← read
  let pvalue ← read
  return .int ptype pvalue

/-- mirrors stringparameter.go:50-60 (`StringParameter.Parse`) -/
def parseStringParameter (ptype : Nat) : Act Err β Parameter := do
  let str ← parseVarIntString
  return .str ptype str

/-- The loop body of `Parameters.Parse`.
mirrors parameter.go:103-137 -/
def Parameters.parseOne : Act Err Parameters Unit := do
  let ptype ← read
  if ptype = ROLE_PARAM then
    let param ← parseIntParameter ptype
    Act.assign (·.insert ptype param)
  else if ptype = ROLE_PATH then
    let param ← parseStringParameter ptype
    Act.assign (·.insert ptype param)
  else
    let len ← read
    let _ ← makeSlice len
    let _ ← readFull len
    Act.throw (.errorf "[Unknown Param]")

/-- mirrors parameter.go:95-140 (`Parameters.Parse`) -/
def Parameters.parse : Act Err Parameters Unit := do
  let length ← read
  Act.repeatN length parseOne

/-- mirrors parameter.go:153-163 (`Parameters.GetBytes`) -/
def Parameters.getBytes (ps : Parameters) (order : List Entry) : Option Bytes := do
  let data ← append [] ps.entries.card
  order.foldlM (fun data e => do return data ++ (← e.2.getBytes)) data

/-! ## Round trip -/

/-- What `ParseMOQTMessage` can produce: ROLE_PARAM is an integer below 2^62
and ROLE_PATH a string, each under its own type. -/
def Known (e : Entry) : Prop :=
  (∃ v, Fits v ∧ e = ⟨ROLE_PARAM, .int ROLE_PARAM v⟩) ∨ ∃ s, e = ⟨ROLE_PATH, .str ROLE_PATH s⟩

def Parameters.Known (ps : Parameters) : Prop := ∀ e ∈ ps.entries, Moqt.Known e

def Parameter.enc : Parameter → Bytes
  | .int ptype pvalue =>
    L1.Quicvarint.enc ptype ++ (L1.Quicvarint.enc (L1.Quicvarint.enc pvalue).length ++ L1.Quicvarint.enc pvalue)
  | .str ptype pvalue => L1.Quicvarint.enc ptype ++ encStr pvalue

theorem fits_enc_length {v : Nat} (h : Fits v) : Fits (enc v).length := by
  obtain ⟨n, hn, hle⟩ := len?_le (c := 3) (by decide) (show v < 2 ^ (8 * 2 ^ 3 - 2) from h)
  rw [enc_length h] at hn
  have := Option.some.inj hn
  simp only [Fits] at *; omega

theorem getBytes_known {e : Entry} (h : Known e) : e.2.getBytes = some e.2.enc := by
  rcases h with ⟨v, hv, rfl⟩ | ⟨s, rfl⟩
  · have h0 : Fits ROLE_PARAM := by decide
    simp [Parameter.getBytes, Parameter.enc, append_fits _ h0, append_fits _ hv, enc_length hv,
      append_fits _ (fits_enc_length hv)]
  · have h1 : Fits ROLE_PATH := by decide
    simp [Parameter.getBytes, Parameter.enc, append_fits _ h1, append_fits _ s.len_lt, encStr]

theorem reads_parseOne {e : Entry} (h : Known e) (m : Parameters) :
    Reads Parameters.parseOne e.2.enc m () (m.insert e.1 e.2) := by
  rcases h with ⟨v, hv, rfl⟩ | ⟨s, rfl⟩
  · have h0 : Fits ROLE_PARAM := by decide
    refine Reads.bind (reads_enc h0 m) ?_
    refine Reads.bind_pure (a := .int ROLE_PARAM v) ?_ (Reads.assign _ m)
    exact Reads.bind (reads_enc (fits_enc_length hv) m) (Reads.bind_pure (reads_enc hv m) (Reads.pure _ m))
  have h1 : Fits ROLE_PATH := by decide
  refine Reads.bind (reads_enc h1 m) ?_
  refine Reads.bind_pure (a := .str ROLE_PATH s) ?_ (Reads.assign _ m)
  exact Reads.bind_pure (reads_encStr s m) (Reads.pure _ m)

/-- Inserting a list of entries with distinct keys, one after the other. -/
theorem lookup_foldl_insert (k : Nat) (order : List Entry) (m : Parameters) (hn : order.NodupKeys) :
    (order.foldl (fun m e => m.insert e.1 e.2) m).lookup k = (order.dlookup k).or (m.lookup k) := by
  induction order generalizing m with
  | nil => rfl
  | cons e order ih =>
    obtain ⟨hne, hn'⟩ := nodupKeys_cons.mp hn
    rw [foldl_cons, ih _ hn']
    by_cases hk : k = e.1
    · subst hk
      rw [Finmap.lookup_insert, dlookup_cons_eq, dlookup_eq_none.mpr hne]; rfl
    · rw [Finmap.lookup_insert_of_ne _ hk, dlookup_cons_ne _ _ hk]

theorem foldl_insert_enumerates {order : List Entry} {ps : Parameters} (h : Enumerates order ps) :
    order.foldl (fun m e => m.insert e.1 e.2) ∅ = ps := by
  have hn : order.NodupKeys := by
    have := ps.nodupKeys
    rwa [← h] at this
  have hps : ps = AList.toFinmap ⟨order, hn⟩ := by
    cases ps with
    | mk entries nd => simp only [Enumerates] at h; subst h; rfl
  apply Finmap.ext_lookup
  intro k
  rw [lookup_foldl_insert k order ∅ hn, hps]
  simp [Finmap.lookup_toFinmap, AList.lookup]

theorem foldlM_getBytes (order : List Entry) (h : ∀ e ∈ order, Known e) (data : Bytes) :
    order.foldlM (fun data e => do return data ++ (← e.2.getBytes)) data =
      some (data ++ order.flatMap (fun e => e.2.enc)) := by
  induction order generalizing data with
  | nil => simp
  | cons e order ih =>
    have he := getBytes_known (h e mem_cons_self)
    rw [foldlM_cons, he]
    have ht := ih (fun e' h' => h e' (mem_cons_of_mem _ h')) (data ++ e.2.enc)
    rw [append_assoc] at ht
    exact ht

/-- The bytes of a parameter list written in a given order. -/
def encParams (order : List Entry) : Bytes := enc order.length ++ order.flatMap fun e => e.2.enc

variable {order : List Entry} {ps : Parameters} (h : Enumerates order ps)
include h

theorem Enumerates.known (hk : ps.Known) : ∀ e ∈ order, Moqt.Known e := by
  intro e he
  refine hk e ?_
  rw [← h]
  exact he

/-- Keys are among two numbers, so the count always has an encoding. -/
theorem Enumerates.fits_length (hk : ps.Known) : Fits order.length := by
  have hn : (order.map Sigma.fst).Nodup := by
    have := ps.nodupKeys
    rwa [← h] at this
  have hsub : order.map Sigma.fst ⊆ [ROLE_PARAM, ROLE_PATH] := by
    intro k hkey
    obtain ⟨e, he, rfl⟩ := mem_map.mp hkey
    rcases h.known hk e he with ⟨v, -, rfl⟩ | ⟨s, rfl⟩ <;> simp
  have hle := (hn.subperm hsub).length_le
  simp only [length_map, length_cons, length_nil] at hle
  simp only [Fits]; omega

theorem getBytes_params (hk : ps.Known) : ps.getBytes order = some (encParams order) := by
  have hcard : ps.entries.card = order.length := by rw [← h]; rfl
  unfold Parameters.getBytes
  rw [hcard, append_fits _ (h.fits_length hk)]
  exact foldlM_getBytes order (h.known hk) _

theorem reads_params (hk : ps.Known) : Reads Parameters.parse (encParams order) ∅ () ps := by
  have hloop := Reads.repeatN (p := Parameters.parseOne) (fun e : Entry => e.2.enc)
    (fun m e => m.insert e.1 e.2) order (fun e he => reads_parseOne (h.known hk e he)) ∅
  rw [foldl_insert_enumerates h] at hloop
  exact Reads.bind (reads_enc (h.fits_length hk) _) hloop

end MoqQuic.L3.Moqt
