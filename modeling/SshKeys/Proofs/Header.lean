import SshKeys.Proofs.Wire

/-!
# The clear part read back

`ContainerHeader.ofPayload_eq_ok_iff`: reading a payload gives a header exactly
when the payload is the one the header is written as and the header is `Valid`,
that is, its names and options are among those that containers may hold.
-/

namespace SshKeys

/-- The bounds set for parameters that come from a file. -/
def KdfParameters.InBounds (k : KdfParameters) : Prop :=
  (1 ≤ k.rounds.toNat ∧ k.rounds.toNat ≤ maxRounds) ∧ 1 ≤ k.salt.length ∧
    k.salt.length ≤ maxSaltLength

theorem KdfParameters.InBounds.salt_ne {k : KdfParameters} (h : k.InBounds) : k.salt ≠ [] := by
  obtain ⟨-, hSalt, -⟩ := h
  exact List.ne_nil_of_length_pos hSalt

theorem KdfParameters.InBounds.rounds_ne {k : KdfParameters} (h : k.InBounds) : k.rounds ≠ 0 := by
  obtain ⟨⟨hRounds, -⟩, -⟩ := h
  rintro hZero
  rw [hZero] at hRounds
  exact absurd hRounds (by decide)

namespace ContainerHeader

/-- The options that go with the name of a key derivation. -/
def KdfValid (name : String) (kdf : Option KdfParameters) : Prop :=
  name = KdfParameters.noneName ∧ kdf = none ∨
    name = KdfParameters.bcryptName ∧ ∃ k, kdf = some k ∧ k.InBounds

/-- A header that a payload can hold. -/
structure Valid (h : ContainerHeader) : Prop where
  cipherName_ne : h.cipherName ≠ ""
  cipherName_lt : h.cipherName.utf8ByteSize < 2 ^ 32
  kdf : KdfValid h.kdfName h.kdf
  publicBlob_lt : h.publicBlob.length < 2 ^ 32
  privateSection_lt : h.privateSection.length < 2 ^ 32

/-! ## Options of the key derivation -/

/-- The reader of the salt and the number of rounds. -/
def kdfFields : ExceptT Failure (StateM Bytes) (Bytes × UInt32) := do
  let salt ← field Field.string
  let rounds ← field Field.word
  pure (salt, rounds)

theorem kdfFields_eq_ok_iff {options rest salt : Bytes} {rounds : UInt32} :
    kdfFields options = (.ok (salt, rounds), rest) ↔
      options = Field.putString salt ++ Bytes.be32 rounds ++ rest ∧ salt.length < 2 ^ 32 := by
  simp only [kdfFields, ExceptState.bind_eq_ok_iff, field_eq_ok_iff, Field.string_eq_ok_iff,
    Field.word_eq_ok_iff]
  constructor
  · rintro ⟨s, t, ⟨rfl, hs⟩, r, u, rfl, h⟩
    cases h
    exact ⟨by rw [List.append_assoc], hs⟩
  · rintro ⟨rfl, hs⟩
    exact ⟨salt, _, ⟨List.append_assoc .., hs⟩, rounds, rest, rfl, rfl⟩

theorem kdfOptions_bcrypt (options : Bytes) :
    kdfOptions KdfParameters.bcryptName options =
      match kdfFields options with
      | (.error e, _) => .error e
      | (.ok (salt, rounds), rest) =>
        if rest ≠ [] then .error (.malformedContainer .kdfOptionsTrailing)
        else if rounds.toNat < 1 ∨ KdfParameters.maxRounds < rounds.toNat then
          .error (.malformedContainer (.kdfRounds rounds.toNat 1 KdfParameters.maxRounds))
        else if salt.length < 1 ∨ KdfParameters.maxSaltLength < salt.length then
          .error (.malformedContainer (.kdfSaltLength salt.length))
        else .ok (some ⟨salt, rounds⟩) := by
  rw [kdfOptions, if_neg (by decide), if_pos rfl]
  rfl

theorem kdfOptions_none_eq_ok_iff {options : Bytes} {kdf : Option KdfParameters} :
    kdfOptions KdfParameters.noneName options = .ok kdf ↔ kdf = none ∧ options = [] := by
  rw [kdfOptions, if_pos rfl]
  by_cases hEmpty : options = []
  · rw [if_pos hEmpty]
    constructor
    · intro h
      cases h
      exact ⟨rfl, hEmpty⟩
    · rintro ⟨rfl, -⟩
      rfl
  · rw [if_neg hEmpty]
    constructor
    · intro h
      cases h
    · rintro ⟨-, h⟩
      exact absurd h hEmpty

theorem kdfOptions_bcrypt_eq_ok_iff {options : Bytes} {kdf : Option KdfParameters} :
    kdfOptions KdfParameters.bcryptName options = .ok kdf ↔
      ∃ k, kdf = some k ∧ k.InBounds ∧ options = putKdfOptions k := by
  rw [kdfOptions_bcrypt]
  constructor
  · intro h
    match hf : kdfFields options with
    | (.error e, _) =>
      rw [hf] at h
      cases h
    | (.ok (salt, rounds), rest) =>
      rw [hf] at h
      simp only at h
      split at h
      · cases h
      split at h
      · cases h
      split at h
      · cases h
      rename_i hRest hRounds hSalt
      cases h
      obtain ⟨rfl, -⟩ := kdfFields_eq_ok_iff.1 hf
      refine ⟨_, rfl, ?_, ?_⟩
      · simp only [KdfParameters.InBounds]
        omega
      · rw [not_not.1 hRest, List.append_nil]
        rfl
  · rintro ⟨k, rfl, ⟨hRounds, hSalt⟩, rfl⟩
    have hMax : KdfParameters.maxSaltLength = 64 := rfl
    have hf : kdfFields (putKdfOptions k) = (.ok (k.salt, k.rounds), []) :=
      kdfFields_eq_ok_iff.2 ⟨by rw [List.append_nil]; rfl, by omega⟩
    rw [hf]
    simp only
    rw [if_neg (by simp), if_neg (by omega), if_neg (by omega)]

theorem kdfOptions_eq_ok_iff {name : String} {options : Bytes} {kdf : Option KdfParameters} :
    kdfOptions name options = .ok kdf ↔ KdfValid name kdf ∧ options = putOptions kdf := by
  have hNames : KdfParameters.bcryptName ≠ KdfParameters.noneName := by decide
  by_cases hNone : name = KdfParameters.noneName
  · subst hNone
    rw [kdfOptions_none_eq_ok_iff]
    constructor
    · rintro ⟨rfl, rfl⟩
      exact ⟨.inl ⟨rfl, rfl⟩, rfl⟩
    · rintro ⟨⟨-, rfl⟩ | ⟨h, -⟩, rfl⟩
      · exact ⟨rfl, rfl⟩
      · exact absurd h.symm hNames
  by_cases hBcrypt : name = KdfParameters.bcryptName
  · subst hBcrypt
    rw [kdfOptions_bcrypt_eq_ok_iff]
    constructor
    · rintro ⟨k, rfl, hBounds, rfl⟩
      exact ⟨.inr ⟨rfl, k, rfl, hBounds⟩, rfl⟩
    · rintro ⟨⟨h, -⟩ | ⟨-, k, rfl, hBounds⟩, rfl⟩
      · exact absurd h hNone
      · exact ⟨k, rfl, hBounds, rfl⟩
  rw [kdfOptions, if_neg hNone, if_neg hBcrypt]
  constructor
  · intro h
    cases h
  · rintro ⟨⟨h, -⟩ | ⟨h, -⟩, -⟩
    · exact absurd h hNone
    · exact absurd h hBcrypt

theorem KdfValid.name_lt {name : String} {kdf : Option KdfParameters} (h : KdfValid name kdf) :
    name.utf8ByteSize < 2 ^ 32 := by
  rcases h with ⟨rfl, _⟩ | ⟨rfl, _⟩ <;> decide

theorem KdfValid.options_lt {name : String} {kdf : Option KdfParameters} (h : KdfValid name kdf) :
    (putOptions kdf).length < 2 ^ 32 := by
  rcases h with ⟨_, rfl⟩ | ⟨_, k, rfl, _, hSalt⟩
  · decide
  · have hMax : KdfParameters.maxSaltLength = 64 := rfl
    simp only [putOptions, putKdfOptions, List.length_append, Field.length_putString,
      Field.stringLength, Bytes.length_be32]
    omega

/-! ## The whole payload -/

/-- The reader leaves the tag, which is all that stands behind the private section. -/
theorem fields_eq_ok_iff {input rest : Bytes} {h : ContainerHeader} :
    fields input = (.ok h, rest) ↔ input = h.payload ∧ rest = h.tag ∧ h.Valid := by
  constructor
  · intro hRead
    -- `hₖ` says how the input of field `k` is split; the last field leaves the tag.
    obtain ⟨m, t₁, h₁, hRead⟩ := ExceptState.bind_eq_ok_iff.1 hRead
    obtain ⟨hMagic, hRead⟩ := ExceptState.refuse_eq_ok_iff.1 hRead
    obtain ⟨cipherName, t₂, h₂, hRead⟩ := ExceptState.bind_eq_ok_iff.1 hRead
    obtain ⟨hNe, hRead⟩ := ExceptState.refuse_eq_ok_iff.1 hRead
    obtain ⟨kdfName, t₃, h₃, hRead⟩ := ExceptState.bind_eq_ok_iff.1 hRead
    obtain ⟨options, t₄, h₄, hRead⟩ := ExceptState.bind_eq_ok_iff.1 hRead
    obtain ⟨kdf, t₅, h₅, hRead⟩ := ExceptState.bind_eq_ok_iff.1 hRead
    obtain ⟨count, t₆, h₆, hRead⟩ := ExceptState.bind_eq_ok_iff.1 hRead
    obtain ⟨hOne, hRead⟩ := ExceptState.refuse_eq_ok_iff.1 hRead
    obtain ⟨publicBlob, t₇, h₇, hRead⟩ := ExceptState.bind_eq_ok_iff.1 hRead
    obtain ⟨privateSection, t₈, h₈, hRead⟩ := ExceptState.bind_eq_ok_iff.1 hRead
    rw [field_eq_ok_iff, Field.bytes_eq_ok_iff] at h₁
    rw [field_eq_ok_iff, Field.text_eq_ok_iff] at h₂ h₃
    rw [field_eq_ok_iff, Field.string_eq_ok_iff] at h₄ h₇ h₈
    rw [ExceptState.lift_eq_ok_iff, kdfOptions_eq_ok_iff] at h₅
    rw [field_eq_ok_iff, Field.word_eq_ok_iff] at h₆
    cases hRead
    refine ⟨?_, rfl, ?_, h₂.2, h₅.1.1, h₇.2, h₈.2⟩
    · rw [payload, h₁.1, h₂.1, h₃.1, h₄.1, h₅.1.2, ← h₅.2, h₆, h₇.1, h₈.1, not_not.1 hMagic,
        not_not.1 hOne]
      simp only [List.append_assoc]
    · rintro rfl
      exact hNe rfl
  · rintro ⟨rfl, rfl, hv⟩
    have hSplit : h.payload = magic ++ (Field.putText h.cipherName ++ (Field.putText h.kdfName ++
        (Field.putString (putOptions h.kdf) ++ (Bytes.be32 1 ++ (Field.putString h.publicBlob ++
          (Field.putString h.privateSection ++ h.tag)))))) := by
      simp only [payload, List.append_assoc]
    rw [fields]
    refine ExceptState.bind_eq_ok_iff.2 ⟨magic, _, field_eq_ok_iff.2
      (Field.bytes_eq_ok_iff.2 ⟨hSplit, rfl⟩), ?_⟩
    refine ExceptState.refuse_eq_ok_iff.2 ⟨not_not.2 rfl, ?_⟩
    refine ExceptState.bind_eq_ok_iff.2 ⟨h.cipherName, _, field_eq_ok_iff.2
      (Field.text_eq_ok_iff.2 ⟨rfl, hv.cipherName_lt⟩), ?_⟩
    refine ExceptState.refuse_eq_ok_iff.2 ⟨by rw [String.isEmpty_iff]; exact hv.cipherName_ne, ?_⟩
    refine ExceptState.bind_eq_ok_iff.2 ⟨h.kdfName, _, field_eq_ok_iff.2
      (Field.text_eq_ok_iff.2 ⟨rfl, hv.kdf.name_lt⟩), ?_⟩
    refine ExceptState.bind_eq_ok_iff.2 ⟨putOptions h.kdf, _, field_eq_ok_iff.2
      (Field.string_eq_ok_iff.2 ⟨rfl, hv.kdf.options_lt⟩), ?_⟩
    refine ExceptState.bind_eq_ok_iff.2 ⟨h.kdf, _, ExceptState.lift_eq_ok_iff.2
      ⟨kdfOptions_eq_ok_iff.2 ⟨hv.kdf, rfl⟩, rfl⟩, ?_⟩
    refine ExceptState.bind_eq_ok_iff.2 ⟨1, _, field_eq_ok_iff.2
      (Field.word_eq_ok_iff.2 rfl), ?_⟩
    refine ExceptState.refuse_eq_ok_iff.2 ⟨not_not.2 rfl, ?_⟩
    refine ExceptState.bind_eq_ok_iff.2 ⟨h.publicBlob, _, field_eq_ok_iff.2
      (Field.string_eq_ok_iff.2 ⟨rfl, hv.publicBlob_lt⟩), ?_⟩
    exact ExceptState.bind_eq_ok_iff.2 ⟨h.privateSection, h.tag, field_eq_ok_iff.2
      (Field.string_eq_ok_iff.2 ⟨rfl, hv.privateSection_lt⟩), rfl⟩

/-- **Reading accepts exactly what is written.** -/
theorem ofPayload_eq_ok_iff {input : Bytes} {h : ContainerHeader} :
    ofPayload input = .ok h ↔ input = h.payload ∧ h.Valid := by
  rw [ofPayload]
  constructor
  · intro hRead
    have hPair : fields input = (.ok h, (fields input).2) := Prod.ext hRead rfl
    obtain ⟨hInput, -, hv⟩ := fields_eq_ok_iff.1 hPair
    exact ⟨hInput, hv⟩
  · rintro ⟨hInput, hv⟩
    rw [fields_eq_ok_iff.2 ⟨hInput, rfl, hv⟩]

end ContainerHeader

end SshKeys
