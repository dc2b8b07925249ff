import SshKeys.Proofs.Faults

/-!
# All or nothing

Whether a text needs a passphrase does not depend on the passphrase.  A reader
that gets a text and a passphrase is either open, so that no passphrase makes a
difference, or sealed, so that any passphrase but the empty one gets past the
question for it.  `allOrNothing_load` and `allOrNothing_decode` show it of the two
readers of private keys, and `isSealed_load_iff` that the detector tells the two
cases apart.
-/

namespace SshKeys

variable {α : Type} {read : Option String → Except Failure α}

/-- The passphrase makes no difference, and no failure is about it. -/
structure IsOpen (read : Option String → Except Failure α) : Prop where
  eq_none : ∀ passphrase, read passphrase = read none
  not_required : ∀ passphrase, read passphrase ≠ .error .passphraseRequired
  not_wrong : ∀ passphrase, read passphrase ≠ .error .decryptionFailed

/-- Without a passphrase one is asked for, with one it is not. -/
structure IsSealed (read : Option String → Except Failure α) : Prop where
  none_eq : read none = .error .passphraseRequired
  some_ne : ∀ s, s ≠ "" → read (some s) ≠ .error .passphraseRequired

/-- A reader is open or sealed, and takes the empty passphrase for none. -/
structure AllOrNothing (read : Option String → Except Failure α) : Prop where
  empty_eq : read none = read (some "")
  open_or_sealed : Xor (IsOpen read) (IsSealed read)

theorem IsOpen.of_const {x : Except Failure α} (h : ∀ passphrase, read passphrase = x)
    (hx : FailsOnly Failure.Structural x) : IsOpen read := by
  refine ⟨fun passphrase => ?_, fun passphrase => ?_, fun passphrase => ?_⟩
  · rw [h, h]
  · rw [h]
    exact hx.ne fun hf => hf.ne_required rfl
  · rw [h]
    exact hx.ne fun hf => hf.ne_decryptionFailed rfl

theorem IsOpen.failsOnly (h : IsOpen read) : FailsOnly Failure.Structural (read none) := by
  intro f hf
  refine Failure.structural_iff.2 ⟨?_, ?_⟩
  · rintro rfl
    exact h.not_required none hf
  · rintro rfl
    exact h.not_wrong none hf

theorem IsOpen.not_isSealed (h : IsOpen read) : ¬IsSealed read :=
  fun hSealed => h.not_required none hSealed.none_eq

theorem IsOpen.allOrNothing (h : IsOpen read) : AllOrNothing read :=
  ⟨(h.eq_none (some "")).symm, .inl ⟨h, h.not_isSealed⟩⟩

theorem AllOrNothing.of_error {f : Failure} (h : ∀ passphrase, read passphrase = .error f)
    (hf : f.Structural) : AllOrNothing read :=
  (IsOpen.of_const h (failsOnly_error hf)).allOrNothing

theorem IsSealed.allOrNothing (h : IsSealed read) (hEmpty : read none = read (some "")) :
    AllOrNothing read :=
  ⟨hEmpty, .inr ⟨h, fun hOpen => hOpen.not_isSealed h⟩⟩

/-- Past the question for a passphrase there is none. -/
theorem AllOrNothing.failsOnly (h : AllOrNothing read) {s : String} (hs : s ≠ "") :
    FailsOnly (· ≠ .passphraseRequired) (read (some s)) := by
  rintro f hf rfl
  rcases h.open_or_sealed with ⟨hOpen, -⟩ | ⟨hSealed, -⟩
  · exact hOpen.not_required (some s) hf
  · exact hSealed.some_ne s hs hf

/-- What some passphrase opens is opened without one in the same way, or asks for one. -/
theorem AllOrNothing.of_ok (h : AllOrNothing read) {passphrase : Option String} {a : α}
    (hRead : read passphrase = .ok a) :
    read none = .ok a ∨ read none = .error .passphraseRequired := by
  rcases h.open_or_sealed with ⟨hOpen, -⟩ | ⟨hSealed, -⟩
  · rw [← hOpen.eq_none passphrase]
    exact .inl hRead
  · exact .inr hSealed.none_eq

theorem filter_empty : (some "").filter (· ≠ "") = (none : Option String) := by
  decide

theorem filter_some {s : String} (h : s ≠ "") : (some s).filter (· ≠ "") = some s := by
  rw [Option.filter_some, if_pos (decide_eq_true h)]

/-- With a passphrase at hand none is asked for. -/
theorem not_asked {required : Prop} {s : String} (hs : s ≠ "") :
    ¬(required ∧ ((some s).filter (· ≠ "")).isNone = true) := by
  rw [filter_some hs]
  exact fun hBoth => nomatch hBoth.2

/-! ## Containers -/

namespace Container

/-- With a passphrase, opening a section does not ask for one. -/
theorem failsOnly_openSection {h : ContainerHeader} {profile : CipherProfile} {s : String}
    (hs : s ≠ "") : FailsOnly (· ≠ .passphraseRequired) (openSection h profile (some s)) := by
  rw [openSection, nonEmpty_some hs]
  split
  · split
    · exact failsOnly_error Failure.noConfusion
    · next kdf _ =>
      have hDerive := (kdf.failsOnly_derive (Bytes.ofString s) profile.keyMaterialLength).mono
        fun _ => Failure.Structural.ne_required
      exact hDerive.bind fun material => profile.failsOnly_decrypt _ material
  · exact failsOnly_ok _

/-- A container in the clear is read without regard to the passphrase. -/
theorem isOpen_ofHeader {h : ContainerHeader} (hPlain : h.isEncrypted = false) :
    IsOpen (ofHeader h) := by
  have hName : CipherProfile.byName? h.cipherName = some CipherKind.none.profile := by
    rw [not_not.1 (of_decide_eq_false hPlain)]
    exact CipherProfile.byName?_name .none
  have hRead (passphrase : Option String) :
      ofHeader h passphrase = ofHeader { h with kdf := none } none := by
    simp only [ofHeader, hName, openSection]
    rfl
  have hParse : ReadsOnly Failure.Structural (Section.parse h CipherKind.none.profile) :=
    Section.readsOnly_parse (fun _ hf => hf.structural) fun hEncrypted => by cases hEncrypted
  refine IsOpen.of_const hRead ?_
  simp only [ofHeader, hName]
  refine failsOnly_refuse rfl fun _ => failsOnly_refuse rfl fun _ => ?_
  exact (hParse h.privateSection).bind fun _ => failsOnly_ok _

/-- Whether a section can be opened at all shows before the passphrase is looked at. -/
theorem allOrNothing_ofHeader (h : ContainerHeader) : AllOrNothing (ofHeader h) := by
  have hEmpty : ofHeader h none = ofHeader h (some "") := by
    have hNone : nonEmpty (some "") = nonEmpty none := (nonEmpty_filter (some "")).symm
    simp only [ofHeader, openSection, hNone]
  by_cases hEncrypted : h.isEncrypted = false
  · exact (isOpen_ofHeader hEncrypted).allOrNothing
  cases hName : CipherProfile.byName? h.cipherName with
  | none =>
    refine .of_error (f := .unsupportedAlgorithm s!"cipher {h.cipherName}") ?_ rfl
    intro passphrase
    rw [ofHeader, hName]
  | some profile =>
    have hProfile : profile.isEncrypted = true := by
      obtain ⟨kind, rfl, hKind⟩ := CipherProfile.byName?_eq_some_iff.1 hName
      rw [ContainerHeader.isEncrypted, hKind] at hEncrypted
      cases kind with
      | none => exact absurd rfl hEncrypted
      | aes256Ctr => rfl
      | chacha20Poly1305 => rfl
    by_cases hSection : h.privateSection.length = 0 ∨
        h.privateSection.length % profile.blockSize ≠ 0
    · refine .of_error (f := .malformedContainer
        (.sectionLength h.privateSection.length profile.blockSize)) ?_ rfl
      intro passphrase
      simp only [ofHeader, hName]
      rw [if_pos hSection]
      rfl
    by_cases hTag : h.tag.length ≠ profile.tagLength
    · refine .of_error (f := .malformedContainer
        (.tagLength profile.tagLength h.tag.length)) ?_ rfl
      intro passphrase
      simp only [ofHeader, hName]
      rw [if_neg hSection, if_pos hTag]
      rfl
    -- What is left are the steps that come after the checks of the lengths.
    have hRead (passphrase : Option String) : ofHeader h passphrase = (do
        let plain ← openSection h profile passphrase
        let content ← (Section.parse h profile plain).1
        pure ⟨profile.kind, content.pair, content.comment, h.publicBlob⟩) := by
      simp only [ofHeader, hName]
      rw [if_neg hSection, if_neg hTag]
    cases hKdf : h.kdf with
    | none =>
      refine .of_error (f := .malformedContainer .noKdf) ?_ rfl
      intro passphrase
      rw [hRead, openSection, if_pos hProfile, hKdf]
      rfl
    | some kdf =>
      refine IsSealed.allOrNothing ⟨?_, ?_⟩ hEmpty
      · rw [hRead, openSection, if_pos hProfile, hKdf]
        rfl
      · intro s hs
        have hParse : ReadsOnly (· ≠ .passphraseRequired) (Section.parse h profile) :=
          Section.readsOnly_parse (fun _ hf => hf.structural.ne_required) fun _ => Failure.noConfusion
        rw [hRead]
        refine FailsOnly.ne ((failsOnly_openSection hs).bind fun plain => ?_) (not_not.2 rfl)
        exact (hParse plain).bind fun _ => failsOnly_ok _

theorem isOpen_decode {text : String} {payload : Bytes} (hUnwrap : Armor.unwrap text = .ok payload)
    (hName : Detection.declaredNameOf payload = .ok CipherKind.none.name) :
    IsOpen (decode text) := by
  have hDecode (passphrase : Option String) : decode text passphrase = (do
      ofHeader (← ContainerHeader.ofPayload payload) passphrase) := by
    rw [decode, ContainerHeader.parse, hUnwrap]
    rfl
  cases hPayload : ContainerHeader.ofPayload payload with
  | error f =>
    have hStructural := (ContainerHeader.readsOnly_fields payload f hPayload).structural
    refine IsOpen.of_const (fun passphrase => ?_) (failsOnly_error hStructural)
    rw [hDecode, hPayload]
    rfl
  | ok h =>
    have hPlain : h.isEncrypted = false := by
      rw [Detection.declaredNameOf_of_ofPayload hPayload] at hName
      exact decide_eq_false (not_not.2 (Except.ok.inj hName))
    have hRead : decode text = ofHeader h := by
      funext passphrase
      rw [hDecode, hPayload]
      rfl
    rw [hRead]
    exact isOpen_ofHeader hPlain

/-- **The reader of containers is open or sealed on every text.** -/
theorem allOrNothing_decode (text : String) : AllOrNothing (decode text) := by
  cases hParse : ContainerHeader.parse text with
  | error f =>
    refine .of_error ?_ (ContainerHeader.failsOnly_parse text f hParse).structural
    intro passphrase
    rw [decode, hParse]
    rfl
  | ok h =>
    have hDecode : decode text = ofHeader h := by
      funext passphrase
      rw [decode, hParse]
      rfl
    rw [hDecode]
    exact allOrNothing_ofHeader h

end Container

/-! ## Loading -/

/-- What is detected in a text that is about to be loaded. -/
def Detection.ofKey (text : String) : Except Failure Detection :=
  ofText (KeyFormat.ofText text) text

namespace PrivateKey

variable {text : String}

/-- The text of a container that is detected has a payload with the name of a cipher. -/
theorem exists_payload_of_ofText {d : Detection}
    (h : Detection.ofText .openssh text = .ok d) :
    ∃ payload name, Armor.unwrap text = .ok payload ∧
      Detection.declaredNameOf payload = .ok name ∧ d = Detection.ofDeclaredName name := by
  cases hUnwrap : Armor.unwrap text with
  | error f =>
    rw [Detection.ofText_of_unwrap_error hUnwrap] at h
    cases h
  | ok payload =>
    rw [Detection.ofText_of_unwrap hUnwrap] at h
    cases hName : Detection.declaredNameOf payload with
    | error f =>
      rw [hName] at h
      cases h
    | ok name =>
      rw [hName] at h
      cases h
      exact ⟨payload, name, rfl, hName, rfl⟩

theorem ofKey_of_ne {d : Detection} (hFormat : KeyFormat.ofText text ≠ .openssh)
    (h : Detection.ofKey text = .ok d) : Detection.ofPem (Text.trim text) = d := by
  rw [Detection.ofKey] at h
  cases hKind : KeyFormat.ofText text with
  | openssh => exact absurd hKind hFormat
  | pem =>
    rw [hKind] at h
    exact Except.ok.inj h
  | pkcs8 =>
    rw [hKind] at h
    exact Except.ok.inj h

theorem passphraseRequired_ofPem (text : String) : (Detection.ofPem text).passphraseRequired =
    [encryptedPkcs8Marker, legacyEncryptedMarker, legacyCipherMarker].any (Text.contains text) := by
  rw [Detection.ofPem]
  split
  · next hSome => exact hSome.symm
  · next hNone => exact (Bool.eq_false_iff.2 hNone).symm

/-- A file that needs no passphrase has no marker of encryption. -/
theorem contains_of_not_required {text : String}
    (h : (Detection.ofPem text).passphraseRequired = false) :
    Text.contains text encryptedPkcs8Marker = false ∧
      Text.contains text legacyEncryptedMarker = false := by
  simp only [passphraseRequired_ofPem, List.any_cons, List.any_nil, Bool.or_false,
    Bool.or_eq_false_iff] at h
  exact ⟨h.1, h.2.1⟩

theorem ofText_ofText_trim (text : String) :
    Detection.ofText (KeyFormat.ofText (Text.trim text)) (Text.trim text) =
      Detection.ofKey text := by
  simp only [Detection.ofKey, KeyFormat.ofText_trim, Detection.ofText.eq_def, Text.trim_trim]

theorem load_of_ofKey_error {f : Failure} (h : Detection.ofKey text = .error f)
    (passphrase : Option String) : load text passphrase = .error f := by
  rw [load, ofText_ofText_trim, h]
  rfl

theorem structural_of_ofKey_error {f : Failure} (h : Detection.ofKey text = .error f) :
    f.Structural := by
  rw [Detection.ofKey] at h
  cases hFormat : KeyFormat.ofText text with
  | openssh =>
    rw [hFormat] at h
    exact Failure.structural_of_malformed (Detection.parse_of_ofText_error h).1
  | pem =>
    rw [hFormat] at h
    cases h
  | pkcs8 =>
    rw [hFormat] at h
    cases h

/-- Without a sign of encryption no passphrase is looked at. -/
theorem isOpen_load {d : Detection} (h : Detection.ofKey text = .ok d)
    (hPlain : d.passphraseRequired = false) : IsOpen (load text) := by
  by_cases hFormat : KeyFormat.ofText text = .openssh
  · rw [Detection.ofKey, hFormat] at h
    obtain ⟨payload, name, hUnwrap, hName, rfl⟩ := exists_payload_of_ofText h
    have hNone : name = CipherKind.none.name := by
      rw [Detection.ofDeclaredName_eq] at hPlain
      exact not_not.1 (of_decide_eq_false hPlain)
    have hOpen : IsOpen (Container.decode text) := Container.isOpen_decode hUnwrap (hNone ▸ hName)
    have hLoad (passphrase : Option String) : load text passphrase = (do
        let c ← Container.decode text none
        ofPair c.pair c.comment) := by
      have hNot : ¬((Detection.ofDeclaredName name).passphraseRequired = true ∧
          (passphrase.filter (· ≠ "")).isNone = true) := by
        rw [hPlain]
        exact fun hBoth => nomatch hBoth.1
      rw [load_of_unwrap hUnwrap hName, if_neg hNot, hNone, CipherProfile.byName?_name,
        hOpen.eq_none]
    exact IsOpen.of_const hLoad
      (hOpen.failsOnly.bind fun c => failsOnly_checked ⟨c.pair, c.comment, none⟩)
  · have hPem : (Detection.ofPem (Text.trim text)).passphraseRequired = false := by
      rw [← hPlain, ← ofKey_of_ne hFormat h]
    obtain ⟨hEncrypted, hLegacy⟩ := contains_of_not_required hPem
    have hLoad (passphrase : Option String) : load text passphrase = (do
        ofPair (← PemFile.keyPair (KeyFormat.ofText text) (Text.trim text) none) "") := by
      rw [PemFile.load_of_format (KeyFormat.ofText_trim text) hFormat, hPem,
        PemFile.keyPair_eq_none hLegacy hEncrypted]
      exact if_neg fun hBoth => nomatch hBoth.1
    have hPair := PemFile.failsOnly_keyPair hLegacy hEncrypted (KeyFormat.ofText text) none
    exact IsOpen.of_const hLoad (hPair.bind fun _ => failsOnly_checked _)

/-- A text that shows a sign of encryption asks for a passphrase, whatever else is in it. -/
theorem isSealed_load {d : Detection} (h : Detection.ofKey text = .ok d)
    (hRequired : d.passphraseRequired = true) : IsSealed (load text) := by
  by_cases hFormat : KeyFormat.ofText text = .openssh
  · rw [Detection.ofKey, hFormat] at h
    obtain ⟨payload, name, hUnwrap, hName, rfl⟩ := exists_payload_of_ofText h
    constructor
    · rw [load_of_unwrap hUnwrap hName]
      exact if_pos ⟨hRequired, rfl⟩
    · intro s hs
      rw [load_of_unwrap_some hUnwrap hName hs]
      refine FailsOnly.ne (P := (· ≠ .passphraseRequired)) ?_ (not_not.2 rfl)
      split
      · refine ((Container.allOrNothing_decode text).failsOnly hs).bind fun c => ?_
        exact (failsOnly_checked _).mono fun _ => Failure.Structural.ne_required
      · exact GeneralContainer.failsOnly_privateKey _ _
  · have hPem : (Detection.ofPem (Text.trim text)).passphraseRequired = true := by
      rw [← hRequired, ← ofKey_of_ne hFormat h]
    have hLoad := PemFile.load_of_format (KeyFormat.ofText_trim text) hFormat
    constructor
    · rw [hLoad]
      exact if_pos ⟨hPem, rfl⟩
    · intro s hs
      rw [hLoad, if_neg (not_asked hs), filter_some hs]
      refine FailsOnly.ne (P := (· ≠ .passphraseRequired)) ?_ (not_not.2 rfl)
      refine (PemFile.failsOnly_keyPair_some _ s).bind fun _ => ?_
      exact (failsOnly_checked _).mono fun _ => Failure.Structural.ne_required

theorem load_empty (text : String) : load text none = load text (some "") := by
  simp only [load, filter_empty, Option.filter_none]

/-- **Loading is open or sealed on every text.** -/
theorem allOrNothing_load (text : String) : AllOrNothing (load text) := by
  cases hDetect : Detection.ofKey text with
  | error f =>
    exact .of_error (load_of_ofKey_error hDetect) (structural_of_ofKey_error hDetect)
  | ok d =>
    cases hRequired : d.passphraseRequired with
    | false => exact (isOpen_load hDetect hRequired).allOrNothing
    | true => exact (isSealed_load hDetect hRequired).allOrNothing (load_empty text)

/-- The detector tells which of the two it is. -/
theorem isSealed_load_iff : IsSealed (load text) ↔
    ∃ d, Detection.ofKey text = .ok d ∧ d.passphraseRequired = true := by
  constructor
  · intro hSealed
    cases hDetect : Detection.ofKey text with
    | error f =>
      have hOpen : IsOpen (load text) := IsOpen.of_const (load_of_ofKey_error hDetect)
        (failsOnly_error (structural_of_ofKey_error hDetect))
      exact absurd hSealed hOpen.not_isSealed
    | ok d =>
      cases hRequired : d.passphraseRequired with
      | false => exact absurd hSealed (isOpen_load hDetect hRequired).not_isSealed
      | true => exact ⟨d, rfl, hRequired⟩
  · rintro ⟨d, hDetect, hRequired⟩
    exact isSealed_load hDetect hRequired

end PrivateKey

/-- **A passphrase is asked for before anything depends on it**, and a text that some passphrase
opens is opened alike without one or asks for one. -/
theorem passphrase_allOrNothing (text : String) :
    AllOrNothing (PrivateKey.load text) ∧ AllOrNothing (Container.decode text) ∧
    (∀ passphrase k, PrivateKey.load text passphrase = .ok k →
      PrivateKey.load text none = .ok k ∨ PrivateKey.load text none = .error .passphraseRequired) ∧
    ∀ passphrase c, Container.decode text passphrase = .ok c →
      Container.decode text none = .ok c ∨
        Container.decode text none = .error .passphraseRequired := by
  have hLoad := PrivateKey.allOrNothing_load text
  have hDecode := Container.allOrNothing_decode text
  exact ⟨hLoad, hDecode, fun _ _ h => hLoad.of_ok h, fun _ _ h => hDecode.of_ok h⟩

end SshKeys
