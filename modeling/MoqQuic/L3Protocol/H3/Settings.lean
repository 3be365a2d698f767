import MoqQuic.L1Encoding.Quicvarint

/-!
# HTTP/3 SETTINGS (`h3/settingsframe.go`)

`SettingsFrame.Parse` reads the declared number of bytes and then takes pairs of
numbers from them until the count is used up. The count is a `uint64` and goes
down by the size a pair would have in its shortest encoding, not by the bytes the
pair was read from, and the error of reading a pair is dropped: at the end of the
payload every further pair is `{0, 0}`. A count that does not go down to exactly
zero wraps around.

The loop takes fuel; `none` means that it is not done after that many rounds.

Results:
* `loop_some`: if the loop ends, the shortest encodings of what it appended add up
  to the count, modulo 2^64.
* `loop_enc`: on a payload in the shortest encoding it ends with its pairs.
* `correct_iff_shortest`: on exactly those payloads `Parse` is right.
-/
namespace MoqQuic.L3.H3
open Reader L1.Quicvarint List
open UInt64 (ofNat)

/-- mirrors frame.go:14 -/
def FRAME_SETTINGS : Nat := 0x04

/-- mirrors settingsframe.go:48-51 -/
structure Setting where
  key : Nat
  value : Nat
  deriving DecidableEq, Repr

namespace Setting

/-- Nothing is assigned before both numbers are read. mirrors settingsframe.go:53-71 -/
def parse : Act Err Setting Unit := do
  let key ← read
  let value ← read
  Act.assign fun _ => ⟨key, value⟩

/-- mirrors settingsframe.go:73-80 -/
def getBytes (setting : Setting) : Option Bytes := do
  let data ← append [] setting.key
  append data setting.value

/-- mirrors settingsframe.go:82-86 -/
def getLength (setting : Setting) : Option Nat := do
  return (← len? setting.key) + (← len? setting.value)

/-- The numbers of a pair that can be written. -/
structure Fits (x : Setting) : Prop where
  key : L1.Quicvarint.Fits x.key
  value : L1.Quicvarint.Fits x.value

/-- The shortest encoding of a pair. -/
def enc (x : Setting) : Bytes := L1.Quicvarint.enc x.key ++ L1.Quicvarint.enc x.value

variable {x : Setting}

theorem Fits.getBytes_eq (h : x.Fits) : x.getBytes = some x.enc := by
  simp [getBytes, enc, append_fits _ h.key, append_fits _ h.value]

theorem Fits.getLength_eq (h : x.Fits) : x.getLength = some x.enc.length := by
  simp [getLength, enc, enc_length h.key, enc_length h.value]

theorem Fits.enc_pos (h : x.Fits) : 0 < x.enc.length := by
  have := enc_length_pos h.key
  simp only [enc, length_append]
  omega

theorem Fits.reads (h : x.Fits) (b : Setting) : Reads parse x.enc b () x :=
  (reads_enc h.key b).bind ((reads_enc h.value b).bind_pure (Reads.assign _ b))

/-- Whatever the stream, a pair that can be written comes out. -/
theorem fill_parse (s : Bytes) : ∃ x rest, (Act.fill parse ⟨0, 0⟩).run () s = .ok x () rest ∧ x.Fits := by
  have hzero : Setting.Fits ⟨0, 0⟩ := ⟨by decide, by decide⟩
  unfold Act.fill parse
  dsimp only
  cases hk : read.run (⟨0, 0⟩ : Setting) s with
  | panic => exact absurd hk (read_ne_panic _ _)
  | err e b mid =>
    obtain ⟨-, rfl, -⟩ := read_err hk
    rw [bind_err hk]
    exact ⟨_, _, rfl, hzero⟩
  | ok key b mid =>
    obtain ⟨rfl, hkey, -⟩ := read_ok_le hk
    rw [bind_ok hk]
    cases hv : read.run (⟨0, 0⟩ : Setting) mid with
    | panic => exact absurd hv (read_ne_panic _ _)
    | err e b rest =>
      obtain ⟨-, rfl, -⟩ := read_err hv
      rw [bind_err hv]
      exact ⟨_, _, rfl, hzero⟩
    | ok value b rest =>
      obtain ⟨rfl, hvalue, -⟩ := read_ok_le hv
      rw [bind_ok hv]
      exact ⟨_, _, rfl, hkey, hvalue⟩

end Setting

/-! ## The frame -/

/-- `for dlength > 0`: the pairs appended to `settings`; `some none` is a panic of `Len`.
mirrors settingsframe.go:110-117 -/
def loop : Nat → Bytes → UInt64 → List Setting → Option (Option (List Setting))
  | 0, _, _, _ => none
  | fuel + 1, reader, dlength, settings =>
    if dlength = 0 then some (some settings)
    else
      -- the error of `setting.Parse` is dropped
      match (Act.fill Setting.parse ⟨0, 0⟩).run () reader with
      | .ok setting _ reader =>
        match setting.getLength with
        | some n => loop fuel reader (dlength - ofNat n) (settings ++ [setting])
        | none => some none
      | .err _ _ _ => some (some settings)
      | .panic => some none

/-- The payload is read as `ParseVarIntString` reads a string: its length, `make`, `io.ReadFull`.
mirrors settingsframe.go:92-120 -/
def parse (fuel : Nat) (settings : List Setting) (s : Bytes) : Option (Res Err (List Setting) Unit) :=
  match parseVarIntString.run settings s with
  | .ok data settings rest =>
    match loop fuel data.data (ofNat data.len) settings with
    | some (some settings) => some (.ok () settings rest)
    | some none => some .panic
    | none => none
  | .err e settings rest => some (.err e settings rest)
  | .panic => some .panic

/-- A slice of settings in memory, of two words each. -/
structure SettingsFrame where
  settings : List Setting
  fits : 16 * settings.length ≤ maxAlloc

/-- mirrors settingsframe.go:122-140 -/
def SettingsFrame.getBytes (sframe : SettingsFrame) : Option Bytes := do
  let data ← append [] FRAME_SETTINGS
  let length ← sframe.settings.foldlM (fun length setting => do return (length + (← setting.getLength)) % 2 ^ 64) 0
  let data ← append data length
  sframe.settings.foldlM (fun data setting => do return data ++ (← setting.getBytes)) data

/-! ## What `Parse` is for -/

/-- The bytes are exactly these pairs, each number in any of its encodings. -/
def Splits : Bytes → List Setting → Prop
  | s, [] => s = []
  | s, x :: xs => ∃ mid rest, read.run () s = .ok x.key () mid ∧ read.run () mid = .ok x.value () rest ∧ Splits rest xs

/-- The declared number of bytes is there and consists of these pairs. -/
def WellFormed (s : Bytes) (settings : List Setting) : Prop :=
  ∃ n rest, read.run ([] : List Setting) s = .ok n [] rest ∧ n ≤ rest.length ∧ Splits (rest.take n) settings

/-- `Parse` on a new frame returns, with or without an error. -/
def Returns (s : Bytes) : Prop := ∃ fuel r, parse fuel [] s = some r ∧ r ≠ .panic

/-- `Parse` on a new frame returns nil and leaves these settings. -/
def ParsesTo (s : Bytes) (settings : List Setting) : Prop :=
  ∃ fuel rest, parse fuel [] s = some (.ok () settings rest)

/-- `Parse` returns, and without an error exactly for what is well formed. -/
def Correct (s : Bytes) : Prop := Returns s ∧ ∀ settings, ParsesTo s settings ↔ WellFormed s settings

/-- A declared length can be allocated, and the payload, if it is all there, is in the shortest encoding. -/
def Shortest (s : Bytes) : Prop :=
  ∀ n rest, read.run ([] : List Setting) s = .ok n [] rest →
    n ≤ maxAlloc ∧ (n ≤ rest.length → ∃ xs : List Setting, (∀ x ∈ xs, x.Fits) ∧ rest.take n = xs.flatMap Setting.enc)

/-! ## The loop -/

/-- Pairs that can be written are never refused. -/
theorem loop_succ {d : UInt64} (hd : d ≠ 0) (fuel : Nat) (s : Bytes) (xs : List Setting) :
    ∃ x rest, (Act.fill Setting.parse ⟨0, 0⟩).run () s = .ok x () rest ∧ x.Fits ∧
      loop (fuel + 1) s d xs = loop fuel rest (d - ofNat x.enc.length) (xs ++ [x]) := by
  obtain ⟨x, rest, hx, hfits⟩ := Setting.fill_parse s
  refine ⟨x, rest, hx, hfits, ?_⟩
  rw [loop, if_neg hd, hx]
  dsimp only
  rw [hfits.getLength_eq]

variable {xs : List Setting}

/-- The count is used up by the shortest encodings of what was appended. -/
theorem loop_some {fuel : Nat} {d : UInt64} {r : Option (List Setting)} (h : loop fuel s d xs = some r) :
    ∃ new, r = some (xs ++ new) ∧ d = ofNat (new.flatMap Setting.enc).length := by
  induction fuel generalizing s d xs with
  | zero => cases h
  | succ fuel ih =>
    by_cases hd : d = 0
    · rw [loop, if_pos hd] at h
      exact ⟨[], by rw [← Option.some.inj h, append_nil], hd⟩
    obtain ⟨x, rest, -, -, hloop⟩ := loop_succ hd fuel s xs
    rw [hloop] at h
    obtain ⟨new, hr, hsum⟩ := ih h
    refine ⟨x :: new, by rw [hr, append_assoc, singleton_append], ?_⟩
    rw [flatMap_cons, length_append, UInt64.ofNat_add, ← hsum]
    grind

theorem loop_enc (hfits : ∀ x ∈ xs, x.Fits) (hlen : (xs.flatMap Setting.enc).length < 2 ^ 64) (fuel : Nat)
    (done : List Setting) :
    loop fuel (xs.flatMap Setting.enc) (ofNat (xs.flatMap Setting.enc).length) done =
      if xs.length < fuel then some (some (done ++ xs)) else none := by
  induction xs generalizing fuel done with
  | nil => cases fuel <;> simp [loop]
  | cons x xs ih =>
    have hx := hfits x mem_cons_self
    rw [flatMap_cons, length_append] at *
    cases fuel with
    | zero => rfl
    | succ fuel =>
      have hne : ofNat (x.enc.length + (xs.flatMap Setting.enc).length) ≠ 0 := by
        intro h0
        have hzero := congrArg UInt64.toNat h0
        rw [UInt64.toNat_ofNat', Nat.mod_eq_of_lt hlen, UInt64.toNat_zero] at hzero
        have hpos := hx.enc_pos
        omega
      have hread : (Act.fill Setting.parse ⟨0, 0⟩).run () (x.enc ++ xs.flatMap Setting.enc) =
          .ok x () (xs.flatMap Setting.enc) := Reads.fill () (hx.reads ⟨0, 0⟩) _
      obtain ⟨x', rest, hx', -, hloop⟩ := loop_succ hne fuel (x.enc ++ xs.flatMap Setting.enc) done
      rw [hread] at hx'
      cases hx'
      have hsub : ofNat (x.enc.length + (xs.flatMap Setting.enc).length) - ofNat x.enc.length =
          ofNat (xs.flatMap Setting.enc).length := by
        rw [UInt64.ofNat_add]
        grind
      rw [hloop, hsub, ih (fun y hy => hfits y (mem_cons_of_mem _ hy)) (by omega)]
      simp

/-- An odd count never becomes zero once the payload has been read. -/
theorem loop_odd (fuel : Nat) {d : UInt64} (hd : d.toNat % 2 = 1) (xs : List Setting) : loop fuel [] d xs = none := by
  induction fuel generalizing d xs with
  | zero => rfl
  | succ fuel ih =>
    have hne : d ≠ 0 := by
      intro h0
      rw [h0] at hd
      cases hd
    obtain ⟨x, rest, hx, -, hloop⟩ := loop_succ hne fuel [] xs
    cases hx
    rw [hloop]
    refine ih ?_ _
    have htwo : (ofNat (Setting.enc ⟨0, 0⟩).length).toNat = 2 := by decide
    rw [UInt64.toNat_sub, htwo]
    omega

/-! ## Splitting -/

theorem splits_inj {ys : List Setting} (hx : Splits s xs) (hy : Splits s ys) : xs = ys := by
  induction xs generalizing s ys with
  | nil =>
    cases ys with
    | nil => rfl
    | cons y ys =>
      obtain ⟨_, _, hkey, -⟩ := hy
      rw [show s = [] from hx] at hkey
      cases hkey
  | cons x xs ih =>
    obtain ⟨_, _, hkey, hvalue, hrest⟩ := hx
    cases ys with
    | nil =>
      rw [show s = [] from hy] at hkey
      cases hkey
    | cons y ys =>
      obtain ⟨_, _, hkey', hvalue', hrest'⟩ := hy
      obtain ⟨hk, -, rfl⟩ := Res.ok.inj (hkey.symm.trans hkey')
      obtain ⟨hv, -, rfl⟩ := Res.ok.inj (hvalue.symm.trans hvalue')
      rw [ih hrest hrest']
      cases x
      cases y
      cases hk
      cases hv
      rfl

theorem splits_enc (hfits : ∀ x ∈ xs, x.Fits) : Splits (xs.flatMap Setting.enc) xs := by
  induction xs with
  | nil => rfl
  | cons x xs ih =>
    have hx := hfits x mem_cons_self
    refine ⟨L1.Quicvarint.enc x.value ++ xs.flatMap Setting.enc, xs.flatMap Setting.enc, ?_, reads_enc hx.value () _,
      ih fun y hy => hfits y (mem_cons_of_mem _ hy)⟩
    rw [flatMap_cons, Setting.enc, append_assoc]
    exact reads_enc hx.key () _

/-- Pairs take at least the bytes of their shortest encodings, and no more only if they are in them. -/
theorem Splits.length_le (h : Splits s xs) : (∀ x ∈ xs, x.Fits) ∧ (xs.flatMap Setting.enc).length ≤ s.length ∧
    (s.length = (xs.flatMap Setting.enc).length → s = xs.flatMap Setting.enc) := by
  induction xs generalizing s with
  | nil =>
    simp
  | cons x xs ih =>
    obtain ⟨mid, rest, hkey, hvalue, hrest⟩ := h
    obtain ⟨-, hkfits, ek, rfl, hk⟩ := read_ok_le hkey
    obtain ⟨-, hvfits, ev, rfl, hv⟩ := read_ok_le hvalue
    obtain ⟨hfits, hle, heq⟩ := ih hrest
    simp only [flatMap_cons, Setting.enc, length_append, forall_mem_cons]
    refine ⟨⟨⟨hkfits, hvfits⟩, hfits⟩, by omega, fun hlen => ?_⟩
    rw [← heq (by omega), ← read_canonical hkey (by omega), ← read_canonical hvalue (by omega), append_assoc]

/-! ## Correctness -/

/-- The ways `Parse` can go: it fails, or it has the payload and loops over it. -/
theorem parse_cases (s : Bytes) :
    (∃ e rest, (∀ settings, ¬ WellFormed s settings) ∧ Shortest s ∧ ∀ fuel, parse fuel [] s = some (.err e [] rest)) ∨
    (¬ Shortest s ∧ ∀ fuel, parse fuel [] s = some .panic) ∨
    ∃ payload rest, read.run ([] : List Setting) s = .ok payload.length [] (payload ++ rest) ∧
      payload.length ≤ maxAlloc ∧
      ∀ fuel, parse fuel [] s = match loop fuel payload (ofNat payload.length) [] with
        | some (some settings) => some (.ok () settings rest)
        | some none => some .panic
        | none => none := by
  cases hr : read.run ([] : List Setting) s with
  | panic => exact absurd hr (read_ne_panic _ _)
  | err e b rest =>
    obtain ⟨-, rfl, -⟩ := read_err hr
    refine .inl ⟨e, rest, ?_, ?_, fun fuel => ?_⟩
    · rintro settings ⟨n, rest', hr', -⟩
      rw [hr] at hr'
      cases hr'
    · intro n rest' hr'
      rw [hr] at hr'
      cases hr'
    · unfold parse parseVarIntString
      rw [bind_err hr]
  | ok n b rest =>
    obtain ⟨rfl, -⟩ := read_ok_le hr
    obtain ⟨hn, hp⟩ | ⟨e, hn, hlt, hp⟩ | ⟨str, rest', rfl, rfl, hp⟩ := parseVarIntString_cases hr
    · refine .inr (.inl ⟨fun h => hn (h n rest hr).1, fun fuel => ?_⟩)
      unfold parse
      rw [hp]
    · refine .inl ⟨e, [], ?_, ?_, fun fuel => ?_⟩
      · rintro settings ⟨n', rest', hr', hle, -⟩
        obtain ⟨rfl, -, rfl⟩ := Res.ok.inj (hr.symm.trans hr')
        omega
      · intro n' rest' hr'
        obtain ⟨rfl, -, rfl⟩ := Res.ok.inj (hr.symm.trans hr')
        exact ⟨hn, fun hle => by omega⟩
      · unfold parse
        rw [hp]
    refine .inr (.inr ⟨str.data, rest', rfl, str.fits, fun fuel => ?_⟩)
    unfold parse
    rw [hp]
    rfl

theorem not_returns_of_panic (h : ∀ fuel, parse fuel [] s = some .panic) : ¬ Returns s := by
  rintro ⟨fuel, r, hr, hne⟩
  rw [h fuel] at hr
  exact hne (Option.some.inj hr).symm

variable {s payload rest : Bytes} (hr : read.run ([] : List Setting) s = .ok payload.length [] (payload ++ rest))
include hr

/-- Well-formedness once the payload is known. -/
theorem wellFormed_iff : WellFormed s xs ↔ Splits payload xs := by
  constructor
  · rintro ⟨n, rest', hr', -, hsplit⟩
    obtain ⟨rfl, -, rfl⟩ := Res.ok.inj (hr.symm.trans hr')
    rwa [take_left] at hsplit
  intro hsplit
  refine ⟨_, _, hr, by simp, ?_⟩
  rwa [take_left]

theorem shortest_iff (hn : payload.length ≤ maxAlloc) :
    Shortest s ↔ ∃ xs : List Setting, (∀ x ∈ xs, x.Fits) ∧ payload = xs.flatMap Setting.enc := by
  constructor
  · intro h
    have hxs := (h _ _ hr).2 (by simp)
    rwa [take_left] at hxs
  intro hxs n rest' hr'
  obtain ⟨rfl, -, rfl⟩ := Res.ok.inj (hr.symm.trans hr')
  refine ⟨hn, fun _ => ?_⟩
  rwa [take_left]

omit hr

/-- A payload in the shortest encoding is parsed, whatever the fuel as long as it suffices. -/
theorem parsesTo_enc (hfits : ∀ x ∈ xs, x.Fits) (hn : (xs.flatMap Setting.enc).length ≤ maxAlloc)
    (hparse : ∀ fuel, parse fuel [] s =
      match loop fuel (xs.flatMap Setting.enc) (ofNat (xs.flatMap Setting.enc).length) [] with
      | some (some settings) => some (.ok () settings rest)
      | some none => some .panic
      | none => none)
    (fuel : Nat) : parse fuel [] s = if xs.length < fuel then some (.ok () xs rest) else none := by
  have hlt : (xs.flatMap Setting.enc).length < 2 ^ 64 := by
    unfold maxAlloc at hn
    omega
  rw [hparse, loop_enc hfits hlt]
  by_cases hfuel : xs.length < fuel
  · rw [if_pos hfuel, if_pos hfuel]
    rfl
  · rw [if_neg hfuel, if_neg hfuel]

theorem correct_iff_shortest (s : Bytes) : Correct s ↔ Shortest s := by
  obtain ⟨e, rest, hnot, hshort, hparse⟩ | ⟨hshort, hparse⟩ | ⟨payload, rest, hr, hn, hparse⟩ := parse_cases s
  · refine iff_of_true ⟨⟨0, _, hparse 0, by simp⟩, fun settings => ?_⟩ hshort
    refine iff_of_false ?_ (hnot settings)
    rintro ⟨fuel, rest', hp⟩
    rw [hparse] at hp
    cases hp
  · exact iff_of_false (fun h => not_returns_of_panic hparse h.1) hshort
  rw [shortest_iff hr hn]
  constructor
  · -- the loop ends, so the pairs it appended are those of the payload and as long as it
    rintro ⟨⟨fuel, r, hfuel, hne⟩, hall⟩
    have hrun := hparse fuel
    cases hloop : loop fuel payload (ofNat payload.length) [] with
    | none =>
      rw [hrun, hloop] at hfuel
      cases hfuel
    | some out =>
      obtain ⟨xs, rfl, hsum⟩ := loop_some hloop
      rw [hloop] at hrun
      have hsplit := (wellFormed_iff hr).mp ((hall xs).mp ⟨fuel, rest, hrun⟩)
      obtain ⟨hfits, hle, heq⟩ := hsplit.length_le
      refine ⟨xs, hfits, heq ?_⟩
      have hnat := congrArg UInt64.toNat hsum
      unfold maxAlloc at hn
      rw [UInt64.toNat_ofNat', UInt64.toNat_ofNat', Nat.mod_eq_of_lt (by omega), Nat.mod_eq_of_lt (by omega)] at hnat
      exact hnat
  rintro ⟨xs, hfits, rfl⟩
  have hrun := parsesTo_enc hfits hn hparse
  have hdone : parse (xs.length + 1) [] s = some (.ok () xs rest) := by
    rw [hrun, if_pos (Nat.lt_succ_self _)]
  refine ⟨⟨_, _, hdone, by simp⟩, fun settings => ?_⟩
  rw [wellFormed_iff hr]
  constructor
  · rintro ⟨fuel, rest', hp⟩
    rw [hrun, Option.ite_none_right_eq_some] at hp
    cases hp.2
    exact splits_enc hfits
  intro hsplit
  rw [splits_inj hsplit (splits_enc hfits)]
  exact ⟨_, _, hdone⟩

/-! ## Round trip -/

theorem enc_length_le (x : Setting) : x.enc.length ≤ 16 := by
  have hle : ∀ i, (L1.Quicvarint.enc i).length ≤ 8 := by
    intro i
    unfold L1.Quicvarint.enc append
    repeat' split
    all_goals simp
  have hkey := hle x.key
  have hvalue := hle x.value
  simp only [Setting.enc, length_append]
  omega

theorem SettingsFrame.length_le (sframe : SettingsFrame) :
    (sframe.settings.flatMap Setting.enc).length ≤ maxAlloc := by
  have hle : ∀ xs : List Setting, (xs.flatMap Setting.enc).length ≤ 16 * xs.length := by
    intro xs
    induction xs with
    | nil => simp
    | cons x xs ih =>
      have := enc_length_le x
      simp only [flatMap_cons, length_append, length_cons]
      omega
  exact (hle _).trans sframe.fits

theorem foldlM_getLength (hfits : ∀ x ∈ xs, x.Fits) (n : Nat) (hlen : n + (xs.flatMap Setting.enc).length < 2 ^ 64) :
    xs.foldlM (fun length setting => do return (length + (← setting.getLength)) % 2 ^ 64) n =
      some (n + (xs.flatMap Setting.enc).length) := by
  induction xs generalizing n with
  | nil => rfl
  | cons x xs ih =>
    obtain ⟨hx, hxs⟩ := forall_mem_cons.mp hfits
    rw [flatMap_cons, length_append] at *
    rw [foldlM_cons, hx.getLength_eq]
    show xs.foldlM _ ((n + x.enc.length) % 2 ^ 64) = _
    rw [Nat.mod_eq_of_lt (by omega), ih hxs _ (by omega), Nat.add_assoc]

theorem foldlM_getBytes (hfits : ∀ x ∈ xs, x.Fits) (data : Bytes) :
    xs.foldlM (fun data setting => do return data ++ (← setting.getBytes)) data =
      some (data ++ xs.flatMap Setting.enc) := by
  induction xs generalizing data with
  | nil => simp
  | cons x xs ih =>
    obtain ⟨hx, hxs⟩ := forall_mem_cons.mp hfits
    rw [foldlM_cons, hx.getBytes_eq, flatMap_cons, ← append_assoc]
    exact ih hxs (data ++ x.enc)

/-- `GetBytes` writes the type of the frame, and `Parse` makes the same settings of the rest. -/
def RoundTrips (sframe : SettingsFrame) : Prop :=
  ∃ bs rest, sframe.getBytes = some bs ∧ read.run () bs = .ok FRAME_SETTINGS () rest ∧ ParsesTo rest sframe.settings

theorem roundTrips {sframe : SettingsFrame} (hfits : ∀ x ∈ sframe.settings, x.Fits) : RoundTrips sframe := by
  obtain ⟨payload, hpayload⟩ : ∃ payload, payload = sframe.settings.flatMap Setting.enc := ⟨_, rfl⟩
  have hle := hpayload ▸ sframe.length_le
  have hlen : payload.length < 2 ^ 62 := by
    unfold maxAlloc at hle
    omega
  have hread : read.run ([] : List Setting) (L1.Quicvarint.enc payload.length ++ payload) =
      .ok payload.length [] (payload ++ []) := by
    rw [append_nil]
    exact reads_enc hlen [] payload
  refine ⟨L1.Quicvarint.enc FRAME_SETTINGS ++ (L1.Quicvarint.enc payload.length ++ payload), _, ?_,
    reads_enc (by decide) () _, ?_⟩
  · have hsum := foldlM_getLength hfits 0 (by rw [← hpayload]; omega)
    rw [← hpayload, Nat.zero_add] at hsum
    unfold SettingsFrame.getBytes
    rw [append_fits _ (by decide : L1.Quicvarint.Fits FRAME_SETTINGS), hsum]
    show (append (L1.Quicvarint.enc FRAME_SETTINGS) payload.length).bind _ = _
    rw [append_fits _ hlen]
    show sframe.settings.foldlM _ (L1.Quicvarint.enc FRAME_SETTINGS ++ L1.Quicvarint.enc payload.length) = _
    rw [foldlM_getBytes hfits, ← hpayload, append_assoc]
  have hshort := (shortest_iff hread hle).mpr ⟨_, hfits, hpayload⟩
  have hsplit := hpayload ▸ splits_enc hfits
  exact (((correct_iff_shortest _).mpr hshort).2 _).mpr ((wellFormed_iff hread).mpr hsplit)

/-- `Parse` is right about the bytes `s` exactly when the declared length can be allocated and the payload, if it
is there, is in the shortest encoding; this covers all that `GetBytes` writes. -/
theorem parse_correct_iff (s : Bytes) (sframe : SettingsFrame) :
    (Correct s ↔ Shortest s) ∧ ((∀ x ∈ sframe.settings, x.Fits) → RoundTrips sframe) :=
  ⟨correct_iff_shortest s, roundTrips⟩

/-- SETTINGS with one pair. -/
def oneSetting : SettingsFrame := ⟨[⟨0x33, 1⟩], by decide⟩

theorem parse_correct_iff_one : Correct [2, 0x33, 1] ∧ RoundTrips oneSetting := by
  obtain ⟨hcorrect, htrip⟩ := parse_correct_iff [2, 0x33, 1] oneSetting
  have hfits : Setting.Fits ⟨0x33, 1⟩ := ⟨by decide, by decide⟩
  refine ⟨hcorrect.mpr fun n rest hr => ?_, htrip fun x hx => ?_⟩
  · cases hr
    exact ⟨by decide, fun _ => ⟨[⟨0x33, 1⟩], by simpa using hfits, by decide⟩⟩
  rw [mem_singleton.mp hx]
  exact hfits

/-- A payload of one byte is half a pair: the count goes from one to the largest odd number, and `Parse` never
returns. A pair in two bytes each is followed by one that is not there. -/
theorem cut_pair_never_returns : (∀ fuel, parse fuel [] [1, 0] = none) ∧ ¬ Correct [1, 0] ∧
    parse 3 [] [4, 0x40, 0, 0x40, 0] = some (.ok () [⟨0, 0⟩, ⟨0, 0⟩] []) := by
  have hnever : ∀ fuel, parse fuel [] [1, 0] = none := by
    intro fuel
    have hloop : loop fuel [0] 1 [] = none := by
      cases fuel with
      | zero => rfl
      | succ fuel => exact loop_odd fuel (by decide) _
    have hparse : parse fuel [] [1, 0] = match loop fuel [0] 1 [] with
        | some (some settings) => some (.ok () settings [])
        | some none => some .panic
        | none => none := rfl
    rw [hparse, hloop]
  refine ⟨hnever, fun hcorrect => ?_, by decide +kernel⟩
  obtain ⟨fuel, r, hr, -⟩ := hcorrect.1
  rw [hnever fuel] at hr
  cases hr

end MoqQuic.L3.H3
