import SshKeys.Proofs.Generated

/-!
# What inspection tells

Inspection of a container reads its clear part and nothing else
(`inspect_of_parse`).  So it describes every public key that can be read back
(`exists_inspect_of_valid`), and of the keys that are loaded or generated only an
RSA key cannot, if its modulus is longer than a field: `PublicKey.Sized`,
`PublicKey.Sized.valid_iff` and `PublicKey.Sized.ofBlob_eq` say which these are
and how they fail.
-/

namespace SshKeys

open KeyReader (IsInteger maxLength)

/-! ## Sizes -/

namespace PublicKey

/-- Valid, but for the modulus of an RSA key: one that was made from a number may be longer than
a field. -/
def Sized (k : PublicKey) : Prop :=
  k.Valid ∨ ∃ e n, k = .rsa e (Integer.ofNat n) ∧ IsInteger e

/-- What was read has no field of a megabyte. -/
theorem Valid.bitLength_lt {k : PublicKey} {n : Nat} (h : k.Valid) (hBits : k.bitLength = .ok n) :
    n < 8 * maxLength := by
  have hMax : maxLength = 1048575 := rfl
  cases k with
  | rsa e n =>
    obtain ⟨-, -, hLength⟩ := h
    cases hBits
    exact Integer.bits_lt hLength (by omega)
  | dsa p q g y =>
    obtain ⟨⟨-, hLength⟩, -⟩ := h
    cases hBits
    exact Integer.bits_lt hLength (by omega)
  | ecdsa curve point =>
    cases hBits
    cases curve <;> decide
  | ed25519 key =>
    cases hBits
    decide
  | skEcdsa point application => cases hBits
  | skEd25519 key application => cases hBits
  | other name body => cases hBits

namespace Sized

variable {k : PublicKey}

/-- **The size that is reported tells whether the key can be read.** -/
theorem valid_iff {n : Nat} (h : k.Sized) (hBits : k.bitLength = .ok n) :
    k.Valid ↔ n < 8 * maxLength := by
  constructor
  · intro hValid
    exact hValid.bitLength_lt hBits
  · intro hLt
    rcases h with hValid | ⟨e, m, rfl, he⟩
    · exact hValid
    · cases hBits
      exact ⟨he, Integer.isCanonical_ofNat m, (Integer.length_ofNat_le_iff (by decide)).2 hLt⟩

theorem ofBlob_eq (h : k.Sized) (hNot : ¬k.Valid) (hBlob : k.blob.length < 2 ^ 32) :
    ofBlob k.blob = .error .overflow := by
  rcases h with hValid | ⟨e, m, rfl, he⟩
  · exact absurd hValid hNot
  · refine ofBlob_of_long he ?_ ?_
    · by_contra hLe
      exact hNot ⟨he, Integer.isCanonical_ofNat m, not_lt.1 hLe⟩
    · simp only [blob, fields, List.length_append, Field.length_putString, Field.length_putText,
        Field.stringLength] at hBlob
      omega

end Sized

end PublicKey

/-- Public exponents are short: they have at most 33 bits. -/
theorem Rsa.isInteger_of_check {m : Rsa.Numbers} (h : Rsa.check m = .ok ()) :
    IsInteger (Integer.ofNat m.e) := by
  have hBound : maxExponent < 128 * 256 ^ 5 := by decide
  have hLength := Integer.length_ofNat_le ((exponent_le_of_check h).trans_lt hBound)
  have hMax : maxLength = 1048575 := rfl
  exact ⟨Integer.isCanonical_ofNat m.e, by omega⟩

theorem KeyPair.IsDerived.sized {k : KeyPair} (h : k.IsDerived) : k.publicKey.Sized := by
  rcases h.rsa_or_consistent with ⟨pair, m, rfl, hCheck, hPair⟩ | ⟨hConsistent, hFits⟩
  · obtain ⟨qinv, -, hPure⟩ := Option.bind_eq_some_iff.1 hPair
    cases hPure
    exact .inr ⟨_, m.n, rfl, Rsa.isInteger_of_check hCheck⟩
  · exact .inl (hConsistent.valid hFits).publicKey

/-- Containers hold valid keys, and documents hold numbers. -/
theorem PrivateKey.sized_of_load {text : String} {passphrase : Option String} {k : PrivateKey}
    (h : load text passphrase = .ok k) : k.publicKey.Sized := by
  by_cases hFormat : KeyFormat.ofText text = .openssh
  · exact .inl (valid_of_load hFormat h).publicKey
  · exact (PemFile.isDerived_of_load hFormat h).1.sized

/-! ## Reports -/

theorem PublicKey.describes_of_info {k : PublicKey} {comment : String} {i : PublicKeyInfo}
    (h : k.info comment = .ok i) : i.Describes k := by
  obtain ⟨t, hType, h⟩ := Result.bind_eq_ok_iff.1 h
  obtain ⟨n, hBits, h⟩ := Result.bind_eq_ok_iff.1 h
  cases h
  exact ⟨hType, hBits, rfl⟩

/-- A key that is described under one comment is described under every other. -/
theorem PublicKeyInfo.Describes.exists_info {i : PublicKeyInfo} {k : PublicKey}
    (h : i.Describes k) (comment : String) :
    ∃ j, k.info comment = .ok j ∧ j.keyType = i.keyType ∧ j.bitLength = i.bitLength ∧
      j.fingerprints = i.fingerprints := by
  refine ⟨⟨i.keyType, i.bitLength, k.line comment, k.fingerprints⟩, ?_, rfl, rfl,
    h.fingerprints.symm⟩
  simp only [PublicKey.info, h.keyType, h.bitLength]
  rfl

/-- The report of a text whose clear part is read. -/
theorem inspect_of_parse {text : String} {h : ContainerHeader}
    (hParse : ContainerHeader.parse text = .ok h) :
    inspect text = (do
      let key ← h.publicKey
      let info ← key.info ""
      pure ⟨true, some .openssh, ((CipherProfile.byName? h.cipherName).map (·.kind)).getD .none,
        some h.cipherName, h.isEncrypted, some h.kdfName, h.kdf.map (·.rounds), some info⟩) := by
  have hTrim : ContainerHeader.parse (Text.trim text) = .ok h := by
    rw [ContainerHeader.parse_trim, hParse]
  obtain ⟨payload, hUnwrap, -⟩ := Result.bind_eq_ok_iff.1 hTrim
  have hNe := Armor.ne_empty_of_unwrap hUnwrap
  rw [inspect]
  simp only [if_neg hNe, TextKind.ofText_of_unwrap hUnwrap, KeyFormat.ofText_of_unwrap hUnwrap,
    Detection.ofText_of_parse hTrim, hTrim, bind, Except.bind]

section

variable {text : String} {h : ContainerHeader} {key : PublicKey} {i : PublicKeyInfo}

theorem exists_inspect_of_valid (hParse : ContainerHeader.parse text = .ok h)
    (hBlob : h.publicBlob = key.blob) (hValid : key.Valid) (hInfo : i.Describes key) :
    ∃ r j, inspect text = .ok r ∧ r.info = some j ∧ j.keyType = i.keyType ∧
      j.bitLength = i.bitLength ∧ j.fingerprints = i.fingerprints := by
  obtain ⟨j, hOwn, hSame⟩ := hInfo.exists_info ""
  have hKey : h.publicKey = .ok key := by
    rw [ContainerHeader.publicKey_eq_ok_iff, hBlob]
    exact PublicKey.ofBlob_blob hValid
  rw [inspect_of_parse hParse, hKey]
  simp only [bind, Except.bind, hOwn]
  exact ⟨_, j, rfl, rfl, hSame⟩

theorem inspect_of_ofBlob_error (hParse : ContainerHeader.parse text = .ok h) {f : KeyFault}
    (hBlob : PublicKey.ofBlob h.publicBlob = .error f) :
    inspect text = .error (.malformedContainer (.publicKey f)) := by
  rw [inspect_of_parse hParse, ContainerHeader.publicKey, hBlob]
  rfl

end

end SshKeys
