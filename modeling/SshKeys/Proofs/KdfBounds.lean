import SshKeys.Proofs.General
import SshKeys.Proofs.Load

/-!
# Bounds on the parameters of a key derivation

A file can ask for any number of rounds.  `ContainerHeader.ofPayload` refuses what
is out of bounds, and so does loading wherever it goes that way.  The general
reader has no such check: `load_malformed_iff` says **for which texts with
parameters out of bounds loading fails as it should**.
-/

namespace SshKeys

open SshKeys.Field (putString putText)

/-- What is wrong with parameters that are out of bounds. -/
def KdfParameters.boundsFault (k : KdfParameters) : ContainerFault :=
  if k.rounds.toNat < 1 ∨ maxRounds < k.rounds.toNat then .kdfRounds k.rounds.toNat 1 maxRounds
  else .kdfSaltLength k.salt.length

/-- A payload that begins with a cipher and parameters of bcrypt. -/
def bcryptPayload (name : String) (kdf : KdfParameters) (rest : Bytes) : Bytes :=
  ContainerHeader.magic ++ (putText name ++ (putText KdfParameters.bcryptName ++
    (putString (ContainerHeader.putKdfOptions kdf) ++ rest)))

namespace ContainerHeader

theorem kdfOptions_of_not_inBounds {kdf : KdfParameters} (hSalt : kdf.salt.length < 2 ^ 32)
    (h : ¬kdf.InBounds) :
    kdfOptions KdfParameters.bcryptName (putKdfOptions kdf) =
      .error (.malformedContainer kdf.boundsFault) := by
  have hFields : kdfFields (putKdfOptions kdf) = (.ok (kdf.salt, kdf.rounds), []) :=
    kdfFields_eq_ok_iff.2 ⟨by rw [List.append_nil]; rfl, hSalt⟩
  rw [kdfOptions_bcrypt, hFields, KdfParameters.boundsFault]
  simp only [ne_eq, not_true_eq_false, if_false]
  by_cases hRounds : kdf.rounds.toNat < 1 ∨ KdfParameters.maxRounds < kdf.rounds.toNat
  · rw [if_pos hRounds, if_pos hRounds]
  · have hLength : kdf.salt.length < 1 ∨ KdfParameters.maxSaltLength < kdf.salt.length := by
      rw [KdfParameters.InBounds] at h
      omega
    rw [if_neg hRounds, if_neg hRounds, if_pos hLength]

/-- **Parameters out of bounds are refused before anything behind them is read.** -/
theorem ofPayload_of_not_inBounds {name : String} {kdf : KdfParameters} (rest : Bytes)
    (hName : name.utf8ByteSize < 2 ^ 32) (hNe : name ≠ "")
    (hOptions : (putKdfOptions kdf).length < 2 ^ 32) (h : ¬kdf.InBounds) :
    ofPayload (bcryptPayload name kdf rest) = .error (.malformedContainer kdf.boundsFault) := by
  have hSalt : kdf.salt.length < 2 ^ 32 := by
    rw [putKdfOptions, List.length_append, Field.length_putString, Field.stringLength] at hOptions
    omega
  have hBcrypt : KdfParameters.bcryptName.utf8ByteSize < 2 ^ 32 := by decide
  -- The reader stops at the options: what is left is all that stands behind them.
  have hFields : fields (bcryptPayload name kdf rest) =
      (.error (.malformedContainer kdf.boundsFault), rest) := by
    rw [fields, bcryptPayload]
    refine (ExceptState.bind_of_ok (field_eq_ok_iff.2
      (Field.bytes_eq_ok_iff.2 ⟨rfl, rfl⟩))).trans ?_
    refine (ExceptState.refuse_of_not (not_not.2 rfl)).trans ?_
    refine (ExceptState.bind_of_ok (field_eq_ok_iff.2
      (Field.text_eq_ok_iff.2 ⟨rfl, hName⟩))).trans ?_
    refine (ExceptState.refuse_of_not (by rw [String.isEmpty_iff]; exact hNe)).trans ?_
    refine (ExceptState.bind_of_ok (field_eq_ok_iff.2
      (Field.text_eq_ok_iff.2 ⟨rfl, hBcrypt⟩))).trans ?_
    refine (ExceptState.bind_of_ok (field_eq_ok_iff.2
      (Field.string_eq_ok_iff.2 ⟨rfl, hOptions⟩))).trans ?_
    rw [kdfOptions_of_not_inBounds hSalt h]
    exact ExceptState.bind_of_error rfl
  rw [ofPayload, hFields]

end ContainerHeader

/-! ## Loading -/

/-- The reader that is chosen for a text fails before it uses the parameters: it checks their
bounds, or finds another fault in the text first. -/
def BoundsEnforced (text name : String) : Prop :=
  (CipherProfile.byName? name).isSome ∨ name = "" ∨
    ∃ f, f ≠ KeyFault.algorithm ∧ GeneralContainer.parse (Text.trim text) = .error f

theorem PrivateKey.checked_ne_malformed (k : PrivateKey) (f : ContainerFault) :
    k.checked ≠ .error (.malformedContainer f) := by
  intro h
  rw [checked] at h
  cases hType : k.pair.publicKey.keyType with
  | ok t =>
    rw [hType] at h
    cases h
  | error e =>
    rw [hType] at h
    cases h
    rw [PublicKey.keyType.eq_def] at hType
    split at hType <;> cases hType

namespace GeneralContainer

theorem privateKey_of_parse_error {text : String} {f : KeyFault} (hNe : f ≠ .algorithm)
    (hParse : parse text = .error f) (passphrase : Option Bytes) :
    privateKey text passphrase = .error (.malformedContainer (.key f)) := by
  rw [privateKey.eq_def, hParse]
  cases f with
  | algorithm => exact absurd rfl hNe
  | _ => rfl

/-- The general reader calls a container malformed only for what it sees without a passphrase. -/
theorem privateKey_eq_malformed_iff {text : String} {passphrase : Option Bytes} :
    (∃ f, privateKey text passphrase = .error (.malformedContainer f)) ↔
      ∃ f, f ≠ KeyFault.algorithm ∧ parse text = .error f := by
  constructor
  · rintro ⟨f, h⟩
    rw [privateKey.eq_def] at h
    split at h
    · cases h
    · next fault hFault hParse => exact ⟨fault, fun hEq => hFault hEq, hParse⟩
    · next k hParse => exact absurd h (k.checked_ne_malformed f)
    · split at h
      · cases h
      · split at h
        · cases h
        · cases h
        · next k hDecrypt => exact absurd h (k.checked_ne_malformed f)
  · rintro ⟨f, hNe, hParse⟩
    exact ⟨_, privateKey_of_parse_error hNe hParse passphrase⟩

end GeneralContainer

namespace PrivateKey

variable {text name : String} {kdf : KdfParameters} {rest : Bytes}

/-- With a passphrase, only the name of the cipher decides who reads the container. -/
theorem load_bcryptPayload (hUnwrap : Armor.unwrap text = .ok (bcryptPayload name kdf rest))
    (hName : name.utf8ByteSize < 2 ^ 32)
    (hOptions : (ContainerHeader.putKdfOptions kdf).length < 2 ^ 32) (hBounds : ¬kdf.InBounds)
    {passphrase : String} (hPassphrase : passphrase ≠ "") :
    load text (some passphrase) =
      if name = "" then .error (.malformedContainer .emptyCipherName)
      else if (CipherProfile.byName? name).isSome then .error (.malformedContainer kdf.boundsFault)
      else GeneralContainer.privateKey (Text.trim text) (some (Bytes.ofString passphrase)) := by
  have hDeclared := Detection.declaredNameOf_append hName
    (putText KdfParameters.bcryptName ++ (putString (ContainerHeader.putKdfOptions kdf) ++ rest))
  by_cases hEmpty : name = ""
  · rw [if_pos hEmpty]
    rw [if_pos (by rw [String.isEmpty_iff]; exact hEmpty)] at hDeclared
    exact load_of_declaredNameOf_error hUnwrap hDeclared _
  · rw [if_neg hEmpty]
    rw [if_neg (by rw [String.isEmpty_iff]; exact hEmpty)] at hDeclared
    rw [load_of_unwrap_some hUnwrap hDeclared hPassphrase]
    cases hNative : CipherProfile.byName? name with
    | none => rfl
    | some profile =>
      have hParse : ContainerHeader.parse text = .error (.malformedContainer kdf.boundsFault) := by
        rw [ContainerHeader.parse, hUnwrap]
        exact ContainerHeader.ofPayload_of_not_inBounds rest hName hEmpty hOptions hBounds
      simp only [Container.decode, hParse]
      rfl

/-! ## Containers under other ciphers -/

theorem unwrap_sealed (name : String) (kdf : KdfParameters) (key : PublicKey)
    (ciphertext : Bytes) :
    Armor.unwrap (Armor.wrap (GeneralContainer.sealedPayload name kdf key ciphertext)) =
      .ok (bcryptPayload name kdf
        (Bytes.be32 1 ++ (putString key.blob ++ putString ciphertext))) := by
  rw [Armor.unwrap_wrap (GeneralContainer.sealedPayload_ne_nil name kdf key ciphertext),
    GeneralContainer.sealedPayload, bcryptPayload, List.append_assoc (putText _)]

/-- The key is derived, in particular, with parameters out of bounds. -/
theorem not_boundsEnforced_of_sealed {c : SectionCipher} {key : PublicKey} {ciphertext : Bytes}
    (hCipher : SectionCipher.ofName? name = some (some c))
    (hNative : CipherProfile.byName? name = none)
    (hFits : GeneralContainer.Fits c kdf key ciphertext) :
    ¬BoundsEnforced (Armor.wrap (GeneralContainer.sealedPayload name kdf key ciphertext))
      name := by
  rintro (hSome | hEmpty | ⟨f, -, hParse⟩)
  · rw [hNative] at hSome
    cases hSome
  · exact SectionCipher.name_ne hCipher hEmpty
  · rw [GeneralContainer.parse_wrap hCipher hFits] at hParse
    cases hParse

/-! ## When the bounds are enforced -/

/-- A text that ends every operation with the same fault, under any passphrase: none is used. -/
structure Refused (text : String) (f : ContainerFault) : Prop where
  load_eq : ∀ passphrase, passphrase ≠ "" →
    load text (some passphrase) = .error (.malformedContainer f)
  importKey_eq : ∀ passphrase, passphrase ≠ "" → ∀ comment,
    importKey text (some passphrase) comment = .error (.malformedContainer f)
  convert_eq : ∀ passphrase, passphrase ≠ "" → ∀ o : ExportOptions, o.validate = .ok () →
    ∀ source, convert text (some passphrase) o source = .error (.malformedContainer f)

theorem Refused.of_load {payload : Bytes} {f : ContainerFault}
    (hUnwrap : Armor.unwrap text = .ok payload)
    (h : ∀ passphrase, passphrase ≠ "" →
      load text (some passphrase) = .error (.malformedContainer f)) : Refused text f where
  load_eq := h
  importKey_eq p hp := importKey_of_load_error hUnwrap (h p hp)
  convert_eq p hp _ hValid := convert_of_load_error (h p hp) hValid

theorem boundsEnforced_of_load (hUnwrap : Armor.unwrap text = .ok (bcryptPayload name kdf rest))
    (hName : name.utf8ByteSize < 2 ^ 32)
    (hOptions : (ContainerHeader.putKdfOptions kdf).length < 2 ^ 32) (hBounds : ¬kdf.InBounds)
    {passphrase : String} (hPassphrase : passphrase ≠ "") {f : ContainerFault}
    (h : load text (some passphrase) = .error (.malformedContainer f)) :
    BoundsEnforced text name := by
  rw [load_bcryptPayload hUnwrap hName hOptions hBounds hPassphrase] at h
  by_cases hEmpty : name = ""
  · exact .inr (.inl hEmpty)
  by_cases hNative : (CipherProfile.byName? name).isSome = true
  · exact .inl hNative
  rw [if_neg hEmpty, if_neg hNative] at h
  exact .inr (.inr (GeneralContainer.privateKey_eq_malformed_iff.1 ⟨f, h⟩))

theorem exists_refused (hEnforced : BoundsEnforced text name)
    (hUnwrap : Armor.unwrap text = .ok (bcryptPayload name kdf rest))
    (hName : name.utf8ByteSize < 2 ^ 32)
    (hOptions : (ContainerHeader.putKdfOptions kdf).length < 2 ^ 32) (hBounds : ¬kdf.InBounds) :
    ∃ f, Refused text f := by
  have hLoad {passphrase : String} (hPassphrase : passphrase ≠ "") :=
    load_bcryptPayload hUnwrap hName hOptions hBounds hPassphrase
  by_cases hEmpty : name = ""
  · refine ⟨.emptyCipherName, .of_load hUnwrap fun p hp => ?_⟩
    rw [hLoad hp, if_pos hEmpty]
  by_cases hNative : (CipherProfile.byName? name).isSome = true
  · refine ⟨kdf.boundsFault, .of_load hUnwrap fun p hp => ?_⟩
    rw [hLoad hp, if_neg hEmpty, if_pos hNative]
  obtain ⟨f, hNe, hParse⟩ := (hEnforced.resolve_left hNative).resolve_left hEmpty
  refine ⟨.key f, .of_load hUnwrap fun p hp => ?_⟩
  rw [hLoad hp, if_neg hEmpty, if_neg hNative,
    GeneralContainer.privateKey_of_parse_error hNe hParse]

/-- **When parameters out of bounds are refused.**  Loading with a passphrase fails with a
malformed container exactly when the bounds are enforced.  Then it does so under every passphrase,
and so does all that is done with the text. -/
theorem load_malformed_iff (hUnwrap : Armor.unwrap text = .ok (bcryptPayload name kdf rest))
    (hName : name.utf8ByteSize < 2 ^ 32)
    (hOptions : (ContainerHeader.putKdfOptions kdf).length < 2 ^ 32) (hBounds : ¬kdf.InBounds) :
    (∀ passphrase, passphrase ≠ "" →
      ((∃ f, load text (some passphrase) = .error (.malformedContainer f)) ↔
        BoundsEnforced text name)) ∧
    (BoundsEnforced text name ↔ ∃ f, Refused text f) := by
  have hRefused (h : BoundsEnforced text name) :=
    exists_refused h hUnwrap hName hOptions hBounds
  have hEnforced {passphrase : String} (hPassphrase : passphrase ≠ "") {f : ContainerFault}
      (h : load text (some passphrase) = .error (.malformedContainer f)) :=
    boundsEnforced_of_load hUnwrap hName hOptions hBounds hPassphrase h
  have hNe : "p" ≠ "" := by decide
  refine ⟨fun p hp => ⟨fun ⟨f, h⟩ => hEnforced hp h, fun h => ?_⟩, hRefused,
    fun ⟨f, h⟩ => hEnforced hNe (h.load_eq "p" hNe)⟩
  obtain ⟨f, hAll⟩ := hRefused h
  exact ⟨f, hAll.load_eq p hp⟩

/-- The bounds are enforced for a cipher that is also written. -/
theorem load_malformed_iff_aes256 :
    (∀ passphrase, passphrase ≠ "" →
      ((∃ f, load (Armor.wrap (bcryptPayload "aes256-ctr" ⟨[], 0⟩ [])) (some passphrase) =
          .error (.malformedContainer f)) ↔
        BoundsEnforced (Armor.wrap (bcryptPayload "aes256-ctr" ⟨[], 0⟩ [])) "aes256-ctr")) ∧
    (BoundsEnforced (Armor.wrap (bcryptPayload "aes256-ctr" ⟨[], 0⟩ [])) "aes256-ctr" ↔
      ∃ f, Refused (Armor.wrap (bcryptPayload "aes256-ctr" ⟨[], 0⟩ [])) f) := by
  have hNe : bcryptPayload "aes256-ctr" ⟨[], 0⟩ [] ≠ [] :=
    List.append_ne_nil_of_right_ne_nil _ (List.append_ne_nil_of_left_ne_nil
      (GeneralContainer.putString_ne_nil _) _)
  exact load_malformed_iff (Armor.unwrap_wrap hNe) (by decide) (by decide)
    fun hBounds => hBounds.rounds_ne rfl

/-- One round more than a file may ask for. -/
def excessive : KdfParameters :=
  ⟨Bytes.zeros 16, 1025⟩

/-- A container with parameters out of bounds that loading does not call malformed. -/
theorem not_load_malformed_excessive :
    ¬excessive.InBounds ∧
    Armor.unwrap (Armor.wrap (GeneralContainer.sealedPayload "aes128-ctr" excessive
        (.ed25519 (Bytes.zeros 32)) (Bytes.zeros 16))) =
      .ok (bcryptPayload "aes128-ctr" excessive (Bytes.be32 1 ++
        (putString (PublicKey.ed25519 (Bytes.zeros 32)).blob ++ putString (Bytes.zeros 16)))) ∧
    ¬∃ f, load (Armor.wrap (GeneralContainer.sealedPayload "aes128-ctr" excessive
      (.ed25519 (Bytes.zeros 32)) (Bytes.zeros 16))) (some "p") =
        .error (.malformedContainer f) := by
  have hCipher : SectionCipher.ofName? "aes128-ctr" =
      some (some ⟨"aes128-ctr", .ctr, 16, 16, 16, 0⟩) := by decide
  have hOptions : (ContainerHeader.putKdfOptions excessive).length = 24 := by
    rw [ContainerHeader.putKdfOptions, List.length_append, Field.length_putString]
    decide
  have hBlob : (PublicKey.ed25519 (Bytes.zeros 32)).blob.length ≤ KeyReader.maxLength := by
    rw [PublicKey.blob, List.length_append, Field.length_putText, PublicKey.fields,
      Field.length_putString]
    decide
  have hFits : GeneralContainer.Fits ⟨"aes128-ctr", .ctr, 16, 16, 16, 0⟩ excessive
      (.ed25519 (Bytes.zeros 32)) (Bytes.zeros 16) :=
    ⟨rfl, by rw [hOptions]; decide, rfl, hBlob, by decide, by decide, by decide⟩
  have hBounds : ¬excessive.InBounds := by
    rintro ⟨⟨-, hRounds⟩, -⟩
    exact absurd hRounds (by decide)
  have hUnwrap := unwrap_sealed "aes128-ctr" excessive (.ed25519 (Bytes.zeros 32)) (Bytes.zeros 16)
  refine ⟨hBounds, hUnwrap, ?_⟩
  rintro ⟨f, h⟩
  exact not_boundsEnforced_of_sealed hCipher (by decide) hFits
    (boundsEnforced_of_load hUnwrap (by decide) (by rw [hOptions]; decide) hBounds (by decide) h)

end PrivateKey

end SshKeys
