import SshKeys.Proofs.Detection

/-!
# What a failure can be

`FailsOnly P x` says that every failure of `x` satisfies `P`.  Three such predicates
matter here: a failure is `OfFormat` if a container is malformed or names what is
not known, it is `Structural` if it has nothing to do with a passphrase, and the
readers that come after a passphrase was given never ask for one.

The reader of the clear part of a container has failures of the format only
(`failsOnly_parse`), that of PEM files without encryption structural ones
(`PemFile.failsOnly_keyPair`).  That of a private section may also take the
passphrase for wrong, if there is one (`Section.readsOnly_parse`).
-/

namespace SshKeys

variable {α β : Type} {P Q : Failure → Prop}

/-- A failure that no other passphrase changes. -/
def Failure.Structural (f : Failure) : Prop :=
  f.isPassphraseProblem = false

theorem Failure.Structural.ne_required {f : Failure} (h : f.Structural) :
    f ≠ .passphraseRequired := by
  rintro rfl
  cases h

theorem Failure.Structural.ne_decryptionFailed {f : Failure} (h : f.Structural) :
    f ≠ .decryptionFailed := by
  rintro rfl
  cases h

theorem Failure.structural_iff {f : Failure} :
    f.Structural ↔ f ≠ .passphraseRequired ∧ f ≠ .decryptionFailed := by
  constructor
  · intro h
    exact ⟨h.ne_required, h.ne_decryptionFailed⟩
  · rintro ⟨hRequired, hWrong⟩
    cases f with
    | passphraseRequired => exact absurd rfl hRequired
    | decryptionFailed => exact absurd rfl hWrong
    | _ => rfl

/-- A failure of the format: the container is malformed, or names what is not known. -/
def Failure.OfFormat (f : Failure) : Prop :=
  f.kind = .malformedContainer ∨ f.kind = .unsupportedAlgorithm

theorem Failure.OfFormat.structural {f : Failure} (h : f.OfFormat) : f.Structural := by
  cases f with
  | malformedContainer fault => rfl
  | unsupportedAlgorithm name => rfl
  | _ => rcases h with h | h <;> cases h

theorem Failure.structural_of_malformed {f : Failure} (h : f.kind = .malformedContainer) :
    f.Structural :=
  OfFormat.structural (.inl h)

/-- Every failure of a computation satisfies `P`. -/
def FailsOnly (P : Failure → Prop) (x : Except Failure α) : Prop :=
  ∀ f, x = .error f → P f

/-! ## Sequences -/

theorem failsOnly_ok (a : α) : FailsOnly P (.ok a : Except Failure α) := by
  intro f h
  cases h

theorem failsOnly_error {f : Failure} (h : P f) : FailsOnly P (.error f : Except Failure α) := by
  intro g hg
  cases hg
  exact h

theorem FailsOnly.mono {x : Except Failure α} (h : FailsOnly P x) (hPQ : ∀ f, P f → Q f) :
    FailsOnly Q x :=
  fun f hf => hPQ f (h f hf)

theorem FailsOnly.ne {x : Except Failure α} {f : Failure} (h : FailsOnly P x) (hf : ¬P f) :
    x ≠ .error f :=
  fun hx => hf (h f hx)

theorem FailsOnly.bind {x : Except Failure α} {g : α → Except Failure β} (hx : FailsOnly P x)
    (hg : ∀ a, FailsOnly P (g a)) : FailsOnly P (x >>= g) := by
  cases x with
  | error f => exact failsOnly_error (hx f rfl)
  | ok a => exact hg a

/-- What comes second may rely on what came first. -/
theorem FailsOnly.bind_of_ok {x : Except Failure α} {g : α → Except Failure β}
    (hx : FailsOnly P x) (hg : ∀ a, x = .ok a → FailsOnly P (g a)) : FailsOnly P (x >>= g) := by
  cases x with
  | error f => exact failsOnly_error (hx f rfl)
  | ok a => exact hg a rfl

theorem failsOnly_refuse {c : Prop} [Decidable c] {f : Failure} {k : Unit → Except Failure β}
    (hf : P f) (hk : ¬c → FailsOnly P (k ())) :
    FailsOnly P (if c then throw f >>= k else k ()) := by
  by_cases hc : c
  · rw [if_pos hc]
    exact failsOnly_error hf
  · rw [if_neg hc]
    exact hk hc

/-- The same for a reader, on every input. -/
def ReadsOnly (P : Failure → Prop) (r : ExceptT Failure (StateM Bytes) α) : Prop :=
  ∀ input, FailsOnly P (r input).1

namespace ReadsOnly

variable {r : ExceptT Failure (StateM Bytes) α} {g : α → ExceptT Failure (StateM Bytes) β}

theorem bind (hr : ReadsOnly P r) (hg : ∀ a, ReadsOnly P (g a)) : ReadsOnly P (r >>= g) := by
  intro input
  match hRead : r input with
  | (.error f, rest) =>
    rw [ExceptState.bind_of_error hRead]
    exact failsOnly_error (hr input f (by rw [hRead]))
  | (.ok a, rest) =>
    rw [ExceptState.bind_of_ok hRead]
    exact hg a rest

theorem of_ok (h : ∀ input, ∃ a rest, r input = (.ok a, rest)) : ReadsOnly P r := by
  intro input
  obtain ⟨a, rest, hRead⟩ := h input
  rw [hRead]
  exact failsOnly_ok a

theorem pure (a : α) : ReadsOnly P (Pure.pure a) :=
  of_ok fun input => ⟨a, input, rfl⟩

theorem get : ReadsOnly P (MonadState.get : ExceptT Failure (StateM Bytes) Bytes) :=
  of_ok fun input => ⟨input, input, rfl⟩

theorem set (rest : Bytes) :
    ReadsOnly P (MonadStateOf.set rest : ExceptT Failure (StateM Bytes) PUnit) :=
  of_ok fun _ => ⟨⟨⟩, rest, rfl⟩

theorem throw {f : Failure} (h : P f) :
    ReadsOnly P (throwThe Failure f : ExceptT Failure (StateM Bytes) α) :=
  fun _ => failsOnly_error h

theorem refuse {c : Prop} [Decidable c] {f : Failure}
    {k : Unit → ExceptT Failure (StateM Bytes) α} (hf : P f) (hk : ReadsOnly P (k ())) :
    ReadsOnly P (if c then MonadExcept.throw f >>= k else k ()) := by
  intro input
  by_cases hc : c
  · rw [ExceptState.refuse_of hc]
    exact failsOnly_error hf
  · rw [ExceptState.refuse_of_not hc]
    exact hk input

theorem lift {x : Except Failure α} (h : FailsOnly P x) :
    ReadsOnly P (liftM x : ExceptT Failure (StateM Bytes) α) := by
  cases x with
  | error f => exact fun _ => failsOnly_error (h f rfl)
  | ok a => exact of_ok fun input => ⟨a, input, rfl⟩

theorem field (h : ∀ f, P (.malformedContainer f)) (r : Field.Reader α) :
    ReadsOnly P (ContainerHeader.field r) := by
  intro input
  match hRead : r input with
  | (.error f, rest) =>
    rw [ContainerHeader.field, hRead]
    exact failsOnly_error (h (.field f))
  | (.ok a, rest) =>
    rw [ContainerHeader.field, hRead]
    exact failsOnly_ok a

end ReadsOnly

/-! ## Containers -/

namespace ContainerHeader

theorem ofFormat_malformed (f : ContainerFault) : Failure.OfFormat (.malformedContainer f) :=
  .inl rfl

theorem failsOnly_kdfOptions (name : String) (options : Bytes) :
    FailsOnly Failure.OfFormat (kdfOptions name options) := by
  by_cases hNone : name = KdfParameters.noneName
  · rw [kdfOptions, if_pos hNone]
    split
    · exact failsOnly_ok _
    · exact failsOnly_error (.inl rfl)
  by_cases hBcrypt : name = KdfParameters.bcryptName
  · have hFields : ReadsOnly Failure.OfFormat kdfFields :=
      (ReadsOnly.field ofFormat_malformed _).bind fun _ =>
        (ReadsOnly.field ofFormat_malformed _).bind fun _ => .pure _
    have hRead := hFields options
    rw [hBcrypt, kdfOptions_bcrypt]
    split
    · next f _ hFail => exact failsOnly_error (hRead f (by rw [hFail]))
    · split_ifs
      · exact failsOnly_error (.inl rfl)
      · exact failsOnly_error (.inl rfl)
      · exact failsOnly_error (.inl rfl)
      · exact failsOnly_ok _
  · rw [kdfOptions, if_neg hNone, if_neg hBcrypt]
    exact failsOnly_error (.inr rfl)

theorem readsOnly_fields : ReadsOnly Failure.OfFormat fields := by
  have hField {α : Type} (r : Field.Reader α) := ReadsOnly.field ofFormat_malformed r
  refine (hField _).bind fun _ => .refuse (.inl rfl) ?_
  refine (hField _).bind fun _ => .refuse (.inl rfl) ?_
  refine (hField _).bind fun kdfName => (hField _).bind fun options => ?_
  refine (ReadsOnly.lift (failsOnly_kdfOptions kdfName options)).bind fun _ => ?_
  refine (hField _).bind fun _ => .refuse (.inl rfl) ?_
  refine (hField _).bind fun _ => (hField _).bind fun _ => ?_
  exact ReadsOnly.get.bind fun _ => .pure _

theorem failsOnly_parse (text : String) : FailsOnly Failure.OfFormat (parse text) := by
  refine FailsOnly.bind ?_ fun payload => readsOnly_fields payload
  intro f hUnwrap
  exact .inl (Armor.kind_of_unwrap_error hUnwrap)

theorem failsOnly_publicKey (h : ContainerHeader) : FailsOnly Failure.OfFormat h.publicKey := by
  rw [publicKey]
  split
  · exact failsOnly_ok _
  · exact failsOnly_error (.inl rfl)

end ContainerHeader

/-- Only under a cipher is a passphrase found to be wrong. -/
theorem Section.readsOnly_parse {h : ContainerHeader} {profile : CipherProfile}
    (hP : ∀ f, Failure.OfFormat f → P f)
    (hWrong : profile.isEncrypted = true → P .decryptionFailed) :
    ReadsOnly P (parse h profile) := by
  have hMalformed (f : ContainerFault) : P (.malformedContainer f) := hP _ (.inl rfl)
  have hField {α : Type} (r : Field.Reader α) := ReadsOnly.field hMalformed r
  have hCheck :
      P (if profile.isEncrypted then .decryptionFailed else .malformedContainer .checkNumbers) := by
    split
    · next hEncrypted => exact hWrong hEncrypted
    · exact hMalformed _
  rw [parse]
  refine (hField _).bind fun _ => (hField _).bind fun _ => .refuse hCheck ?_
  refine ReadsOnly.get.bind fun rest => ?_
  split
  · exact .throw (hMalformed _)
  · refine (ReadsOnly.set _).bind fun _ => ?_
    refine (ReadsOnly.lift (h.failsOnly_publicKey.mono hP)).bind fun _ => ?_
    refine .refuse (hMalformed _) ((hField _).bind fun _ => ReadsOnly.get.bind fun _ => ?_)
    exact .refuse (hMalformed _) (.pure _)

/-! ## Ciphers -/

theorem KdfParameters.failsOnly_derive (k : KdfParameters) (passphrase : Bytes) (length : Nat) :
    FailsOnly Failure.Structural (k.derive passphrase length) := by
  rw [derive]
  split
  · exact failsOnly_error rfl
  · split
    · exact failsOnly_error rfl
    · split
      · exact failsOnly_ok _
      · exact failsOnly_error rfl

namespace CipherProfile

theorem failsOnly_aes (data key iv : Bytes) :
    FailsOnly Failure.Structural (AesCtr.apply data key iv) := by
  rw [AesCtr.apply]
  split
  · exact failsOnly_ok _
  · exact failsOnly_error rfl

theorem failsOnly_chacha (data material : Bytes) :
    FailsOnly Failure.Structural (ChaChaPoly.apply data material) := by
  rw [ChaChaPoly.apply]
  split
  · exact failsOnly_ok _
  · exact failsOnly_error rfl

/-- Decrypting finds a passphrase wrong, but does not ask for one. -/
theorem failsOnly_decrypt (p : CipherProfile) (sealed material : Bytes) :
    FailsOnly (· ≠ .passphraseRequired) (p.decrypt sealed material) := by
  have hSizes : FailsOnly (· ≠ .passphraseRequired) (p.checkMaterial material) := by
    rw [checkMaterial]
    split
    · exact failsOnly_ok _
    · exact failsOnly_error Failure.noConfusion
  refine hSizes.bind fun _ => ?_
  split
  · exact failsOnly_ok _
  · exact (failsOnly_aes _ _ _).mono fun _ => Failure.Structural.ne_required
  · rw [ChaChaPoly.decrypt]
    split
    · exact failsOnly_error Failure.noConfusion
    · have hLength : FailsOnly (· ≠ .passphraseRequired) (ChaChaPoly.checkMaterial material) := by
        rw [ChaChaPoly.checkMaterial]
        split
        · exact failsOnly_ok _
        · exact failsOnly_error Failure.noConfusion
      refine hLength.bind fun _ => ?_
      simp only
      split
      · exact (failsOnly_chacha _ _).mono fun _ => Failure.Structural.ne_required
      · exact failsOnly_error Failure.noConfusion

end CipherProfile

/-! ## Keys -/

theorem PublicKey.failsOnly_keyType (k : PublicKey) :
    FailsOnly Failure.Structural k.keyType := by
  rw [keyType.eq_def]
  split <;> first | exact failsOnly_ok _ | exact failsOnly_error rfl

theorem PrivateKey.failsOnly_checked (k : PrivateKey) : FailsOnly Failure.Structural k.checked :=
  FailsOnly.bind k.pair.publicKey.failsOnly_keyType fun _ => failsOnly_ok _

theorem KeyPair.failsOnly_ofRsa (k : Rsa.Numbers) : FailsOnly Failure.Structural (ofRsa k) := by
  rw [ofRsa]
  split
  · exact failsOnly_ok _
  · exact failsOnly_error rfl

/-- The failures of a document that was read: its numbers, or its algorithm. -/
def Failure.OfDocument (f : Failure) : Prop :=
  f = .invalidInput (.rsa .crypto) ∨ f.kind = .unsupportedAlgorithm

theorem Failure.OfDocument.structural {f : Failure} (h : f.OfDocument) : f.Structural := by
  rcases h with rfl | hKind
  · rfl
  · exact OfFormat.structural (.inr hKind)

theorem KeyPair.failsOnly_document (k : Pkcs8) : FailsOnly Failure.OfDocument (ofPkcs8 k) := by
  rw [ofPkcs8]
  split
  · exact failsOnly_ok _
  · split
    · rw [ofRsa]
      split
      · exact failsOnly_ok _
      · exact failsOnly_error (.inl rfl)
    · split
      · exact failsOnly_ok _
      · exact failsOnly_error (.inr rfl)

theorem KeyPair.failsOnly_ofPkcs8 (k : Pkcs8) : FailsOnly Failure.Structural (ofPkcs8 k) :=
  (failsOnly_document k).mono fun _ => Failure.OfDocument.structural

namespace PemFile

variable {text : String}

theorem failsOnly_traditional (hLegacy : Text.contains text legacyEncryptedMarker = false)
    (passphrase : Option String) : FailsOnly Failure.Structural (traditional text passphrase) := by
  rw [traditional.eq_def, hLegacy]
  simp only [Bool.false_eq_true, if_false]
  split
  · split
    · exact failsOnly_error rfl
    · exact KeyPair.failsOnly_ofRsa _
  · split
    · split
      · exact failsOnly_error rfl
      · exact failsOnly_ok _
    · split
      · exact failsOnly_error rfl
      · exact failsOnly_error rfl

theorem failsOnly_pkcs8 (hEncrypted : Text.contains text encryptedPkcs8Marker = false)
    (passphrase : Option String) : FailsOnly Failure.Structural (pkcs8 text passphrase) := by
  rw [pkcs8.eq_def, hEncrypted]
  simp only [Bool.false_eq_true, if_false]
  split
  · exact failsOnly_error rfl
  · exact failsOnly_ok _

/-- A file without a sign of encryption has structural faults only. -/
theorem failsOnly_keyPair (hLegacy : Text.contains text legacyEncryptedMarker = false)
    (hEncrypted : Text.contains text encryptedPkcs8Marker = false) (format : KeyFormat)
    (passphrase : Option String) :
    FailsOnly Failure.Structural (keyPair format text passphrase) := by
  cases format with
  | openssh => exact failsOnly_error rfl
  | pem => exact failsOnly_traditional hLegacy passphrase
  | pkcs8 => exact (failsOnly_pkcs8 hEncrypted passphrase).bind KeyPair.failsOnly_ofPkcs8

/-- Nor is the passphrase looked at then. -/
theorem keyPair_eq_none (hLegacy : Text.contains text legacyEncryptedMarker = false)
    (hEncrypted : Text.contains text encryptedPkcs8Marker = false) (format : KeyFormat)
    (passphrase : Option String) :
    keyPair format text passphrase = keyPair format text none := by
  cases format with
  | openssh => rfl
  | pem => simp only [keyPair, traditional.eq_def, hLegacy, Bool.false_eq_true, if_false]
  | pkcs8 => simp only [keyPair, pkcs8.eq_def, hEncrypted, Bool.false_eq_true, if_false]

/-- With a passphrase no file asks for one. -/
theorem failsOnly_keyPair_some (format : KeyFormat) (passphrase : String) :
    FailsOnly (· ≠ .passphraseRequired) (keyPair format text (some passphrase)) := by
  have hKnown (f : Failure) (hf : f.Structural) : f ≠ .passphraseRequired := hf.ne_required
  cases format with
  | openssh => exact failsOnly_error Failure.noConfusion
  | pem =>
    by_cases hLegacy : Text.contains text legacyEncryptedMarker = true
    · rw [keyPair, traditional, if_pos hLegacy]
      exact failsOnly_error Failure.noConfusion
    · exact (failsOnly_traditional (Bool.eq_false_iff.2 hLegacy) (some passphrase)).mono hKnown
  | pkcs8 =>
    refine FailsOnly.bind ?_ fun k => (KeyPair.failsOnly_ofPkcs8 k).mono hKnown
    by_cases hEncrypted : Text.contains text encryptedPkcs8Marker = true
    · rw [pkcs8, if_pos hEncrypted]
      show FailsOnly _ (decrypted text (Bytes.ofString passphrase))
      rw [decrypted]
      split
      · exact failsOnly_error Failure.noConfusion
      · split
        · exact failsOnly_error Failure.noConfusion
        · exact failsOnly_ok _
    · exact (failsOnly_pkcs8 (Bool.eq_false_iff.2 hEncrypted) (some passphrase)).mono hKnown

end PemFile

/-- Nor does the general reader of containers. -/
theorem GeneralContainer.failsOnly_privateKey (text : String) (passphrase : Bytes) :
    FailsOnly (· ≠ .passphraseRequired) (privateKey text (some passphrase)) := by
  have hChecked (k : PrivateKey) : FailsOnly (· ≠ .passphraseRequired) k.checked :=
    k.failsOnly_checked.mono fun _ => Failure.Structural.ne_required
  rw [privateKey.eq_def]
  split
  · exact failsOnly_error Failure.noConfusion
  · exact failsOnly_error Failure.noConfusion
  · exact hChecked _
  · simp only
    split
    · exact failsOnly_error Failure.noConfusion
    · exact failsOnly_error Failure.noConfusion
    · exact hChecked _

end SshKeys
