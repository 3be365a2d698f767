import MoqQuic.Core.Reader

/-!
# Authenticated encryption, idealised

An ideal scheme under one key: `sealAppendTag` is injective in the body, and a
ciphertext opens exactly when the log of what was sealed has it with the same
nonce and the same additional data. The log belongs to whoever holds the key
and is an argument, so that it may grow along a run.

* `openInPlace_eq_some_iff`: what opens was sealed.
-/
namespace MoqQuic.Aead
open Reader

variable {N : Type} [DecidableEq N]

/-- `spoil` is what an opening that fails leaves of the ciphertext it worked on in place. -/
structure Scheme (N : Type) where
  sealAppendTag : N → Bytes → Bytes → Bytes
  tagLen : Nat
  spoil : N → Bytes → Bytes → Bytes
  sealAppendTag_length : ∀ nonce aad body, (sealAppendTag nonce aad body).length = body.length + tagLen
  sealAppendTag_injective : ∀ nonce aad, Function.Injective (sealAppendTag nonce aad)

/-- One call of `sealAppendTag`. -/
structure Sealing (N : Type) where
  nonce : N
  aad : Bytes
  body : Bytes
  deriving DecidableEq

namespace Scheme

/-- The body of the sealing that the ciphertext comes from. -/
def openInPlace (s : Scheme N) (log : List (Sealing N)) (nonce : N) (aad ct : Bytes) : Option Bytes :=
  (log.find? fun e => e.nonce = nonce ∧ e.aad = aad ∧ s.sealAppendTag nonce aad e.body = ct).map Sealing.body

theorem openInPlace_eq_some_iff {s : Scheme N} {log : List (Sealing N)} {nonce : N} {aad ct body : Bytes} :
    s.openInPlace log nonce aad ct = some body ↔
      { nonce, aad, body } ∈ log ∧ s.sealAppendTag nonce aad body = ct := by
  constructor
  · intro h
    obtain ⟨e, he, rfl⟩ := Option.map_eq_some_iff.mp h
    have hmatch := List.find?_some he
    obtain ⟨rfl, rfl, hct⟩ := of_decide_eq_true hmatch
    exact ⟨List.mem_of_find?_eq_some he, hct⟩
  rintro ⟨hmem, hct⟩
  cases hf : log.find? fun e => e.nonce = nonce ∧ e.aad = aad ∧ s.sealAppendTag nonce aad e.body = ct with
  | none =>
    have := List.find?_eq_none.mp hf _ hmem
    simp [hct] at this
  | some e =>
    have hmatch := List.find?_some hf
    have hbody : e.body = body :=
      s.sealAppendTag_injective nonce aad ((of_decide_eq_true hmatch).2.2.trans hct.symm)
    rw [openInPlace, hf, Option.map_some, hbody]

/-- What a buffer holds once its ciphertext was opened in place: the body, and the tag behind it. -/
def opened (body ct : Bytes) : Bytes := body ++ ct.drop body.length

end Scheme

end MoqQuic.Aead
