import SshKeys.Proofs.Agreement

/-!
# Containers that cannot be decrypted

A container may name a cipher that is not known, or one that is known but not
supported, which is `tripleDes` alone.  It is read by the general reader then, and
that takes the failure of either for another one:

* `ReadTwice`: the texts that the lenient and the strict reader read alike.
* `GeneralContainer.parse_of_unknown`: an unknown name is refused as a name, so the
  container is malformed.
* `PrivateKey.load_tripleDes`: under `tripleDes` a section that is not decrypted
  counts as one under a wrong passphrase.

`PrivateKey.load_undecryptable` says **when such a container is reported as
unsupported**, and `PrivateKey.not_load_unsupported` shows one of each kind that is not.
-/

namespace SshKeys

open SshKeys.Field (putString putText)

/-! ## Ciphers -/

namespace SectionCipher

/-- The cipher that is known by its name only. -/
def tripleDes : SectionCipher :=
  ⟨"3des-cbc", .unsupported, 24, 8, 8, 0⟩

theorem ofName?_tripleDes : ofName? "3des-cbc" = some (some tripleDes) := by
  decide

theorem eq_none_of_ofName? {name : String} (h : ofName? name = some none) :
    name = CipherKind.none.name := by
  rw [ofName?] at h
  split at h
  · next hName => exact hName
  · cases hFind : all.find? (·.name = name) <;> rw [hFind] at h <;> cases h

/-- A cipher that is supported decrypts some section. -/
theorem never_decrypts_iff {c : SectionCipher} :
    (∀ key iv ciphertext tag, c.decrypt? key iv ciphertext tag = none) ↔
      c.mode = .unsupported := by
  constructor
  · intro h
    cases hMode : c.mode with
    | unsupported => rfl
    | cbc =>
      have hNone := h [] [] [] []
      rw [decrypt?, hMode] at hNone
      cases hNone
    | ctr =>
      have hNone := h [] [] [] []
      rw [decrypt?, hMode] at hNone
      cases hNone
    | gcm =>
      have hNone := h [] [] [] (Gcm.tag (Aes.encrypt (Aes.schedule [])) [] [])
      rw [decrypt?, hMode] at hNone
      simp only [if_true] at hNone
      cases hNone
    | chacha =>
      have hNone := h [] [] [] (ChaChaPoly.tag [] [])
      rw [decrypt?, hMode] at hNone
      simp only [if_true] at hNone
      cases hNone
  · intro hMode key iv ciphertext tag
    rw [decrypt?, hMode]

/-- No reader can decrypt under a name: it is none of the names that containers are written with,
and the general reader knows no cipher of this name that ever decrypts. -/
def Undecryptable (name : String) : Prop :=
  CipherProfile.byName? name = none ∧ ∀ c, ofName? name = some (some c) →
    ∀ key iv ciphertext tag, c.decrypt? key iv ciphertext tag = none

theorem Undecryptable.unknown_or_tripleDes {name : String} (h : Undecryptable name) :
    ofName? name = none ∨ name = "3des-cbc" := by
  obtain ⟨hNative, hNever⟩ := h
  have hAll : ∀ c ∈ all, c.mode = .unsupported → c.name = "3des-cbc" := by decide
  cases hName : ofName? name with
  | none => exact .inl rfl
  | some cipher =>
    cases cipher with
    | none =>
      rw [eq_none_of_ofName? hName] at hNative
      exact absurd hNative (by decide)
    | some c =>
      obtain ⟨hMem, rfl⟩ := name_eq_of_ofName? hName
      exact .inr (hAll c hMem (never_decrypts_iff.1 (hNever c hName)))

/-- The names that cannot be decrypted: those that are not known, and one that is. -/
theorem undecryptable_iff {name : String} : Undecryptable name ↔
    CipherProfile.byName? name = none ∧ ofName? name = none ∨ name = "3des-cbc" := by
  constructor
  · intro h
    exact h.unknown_or_tripleDes.imp_left fun hUnknown => ⟨h.1, hUnknown⟩
  · rintro (⟨hNative, hUnknown⟩ | rfl)
    · refine ⟨hNative, fun c hc => ?_⟩
      rw [hUnknown] at hc
      cases hc
    · refine ⟨by decide, fun c hc => ?_⟩
      rw [ofName?_tripleDes] at hc
      cases hc
      exact never_decrypts_iff.2 rfl

end SectionCipher

/-! ## Texts that both readers read -/

/-- The lenient and the strict reader of a text come to the payload of the same header. -/
structure ReadTwice (text : String) (h : ContainerHeader) : Prop where
  parse_eq : ContainerHeader.parse text = .ok h
  payload?_eq : GeneralContainer.payload? (Text.trim text) = some h.payload

namespace ReadTwice

variable {text : String} {h : ContainerHeader}

theorem exists_unwrap (hText : ReadTwice text h) :
    ∃ payload, Armor.unwrap text = .ok payload ∧ ContainerHeader.ofPayload payload = .ok h :=
  Result.bind_eq_ok_iff.1 hText.parse_eq

theorem valid (hText : ReadTwice text h) : h.Valid := by
  obtain ⟨payload, -, hHeader⟩ := hText.exists_unwrap
  exact (ContainerHeader.ofPayload_eq_ok_iff.1 hHeader).2

theorem exists_input (hText : ReadTwice text h) : ∃ input,
    Pem.input? Armor.lineWidth "OPENSSH PRIVATE KEY" (Text.trim text) = some input ∧
      input.bytes = h.payload ∧ input.limits = [] := by
  obtain ⟨input, hInput, hBytes⟩ := Option.map_eq_some_iff.1 hText.payload?_eq
  exact ⟨input, hInput, hBytes, Pem.limits_of_input? hInput⟩

/-- The readers agree on all that begins with the marker line and is in strict form. -/
theorem of_input? {input : KeyInput}
    (hMarker : Text.startsWith (Text.trim text) Armor.beginMarker = true)
    (hInput : Pem.input? Armor.lineWidth "OPENSSH PRIVATE KEY" (Text.trim text) = some input)
    (hEnd : input.unreadable = 0) (hParse : ContainerHeader.parse text = .ok h) :
    ReadTwice text h := by
  refine ⟨hParse, ?_⟩
  obtain ⟨payload, hUnwrap, hHeader⟩ := Result.bind_eq_ok_iff.1 hParse
  have hOwn := Armor.unwrap_of_input? hMarker hInput hEnd
  rw [Armor.unwrap_trim, hUnwrap] at hOwn
  cases hOwn
  rw [GeneralContainer.payload?, hInput, Option.map_some,
    (ContainerHeader.ofPayload_eq_ok_iff.1 hHeader).1]

/-- So they do on a header as it is written. -/
theorem of_valid (hValid : h.Valid) : ReadTwice (Armor.wrap h.payload) h := by
  have hTrim : Text.trim (Armor.wrap h.payload) = Armor.strictText h.payload := by
    rw [Pem.wrap_eq_file h.payload_ne_nil, Pem.trim_file, Armor.strictText]
  refine of_input? ?_ (by rw [hTrim, Armor.input?_strictText h.payload_ne_nil]) rfl
    (ContainerHeader.parse_wrap hValid)
  rw [hTrim]
  exact Armor.startsWith_strictText h.payload

end ReadTwice

/-! ## The general reader -/

/-- The fields of a payload, those of the key derivation together. -/
theorem ContainerHeader.payload_eq_append (h : ContainerHeader) : h.payload = magic ++
    (putText h.cipherName ++ ((putText h.kdfName ++ putString (putOptions h.kdf)) ++
      (Bytes.be32 1 ++ putString h.publicBlob ++ putString h.privateSection ++ h.tag))) := by
  rw [payload]
  simp only [List.append_assoc]

namespace KeyReader

variable {i j : KeyInput} {h : ContainerHeader}

theorem yields_kdfOptions_of_valid {name : String} {kdf : Option KdfParameters}
    (hKdf : ContainerHeader.KdfValid name kdf) :
    Yields kdfOptions (putText name ++ putString (ContainerHeader.putOptions kdf)) kdf := by
  rcases hKdf with ⟨rfl, rfl⟩ | ⟨rfl, params, rfl, hBounds⟩
  · have hName : Yields (name fun s => if s = KdfParameters.noneName then some false
        else if s = KdfParameters.bcryptName then some true else none)
        (putText KdfParameters.noneName) false := yields_name (by decide) (by decide)
    have hCount : Yields count (putString (ContainerHeader.putOptions none)) 0 :=
      yields_count (n := 0) (by decide)
    exact hName.bind (hCount.check (yields_pure none))
  · exact yields_kdfOptions hBounds.options_le

/-- An unknown name is refused, and what follows is not looked at. -/
theorem container_of_unknown (hUnknown : SectionCipher.ofName? h.cipherName = none)
    (hValid : h.Valid) (hBytes : i.bytes = h.payload) (hLimits : i.limits = []) :
    container i = .error (nameFault h.cipherName) := by
  have hRefused : Refuses container (ContainerHeader.magic ++ putText h.cipherName)
      (nameFault h.cipherName) := by
    refine (yields_take rfl).refuses ?_
    rw [if_neg (not_not.2 rfl)]
    exact (refuses_name hUnknown hValid.cipherName_lt).bind
  refine hRefused i _ (.inr ?_) (by rw [hBytes, h.payload_eq_append, ← List.append_assoc]) ?_
  · exact List.append_ne_nil_of_left_ne_nil (List.append_ne_nil_of_right_ne_nil _
      (GeneralContainer.putString_ne_nil _)) _
  · rw [hLimits]
    exact fun l hl => nomatch hl

/-- Under a known cipher, what is taken apart has the parameters of the header. -/
theorem exists_sealed_of_container {c : SectionCipher} {g : GeneralContainer}
    (hCipher : SectionCipher.ofName? h.cipherName = some (some c)) (hValid : h.Valid)
    (hBytes : i.bytes = h.payload) (hLimits : i.limits = []) (hRun : container i = .ok (g, j)) :
    ∃ key ciphertext tag, g = .sealed c h.kdf key ciphertext tag := by
  rw [h.payload_eq_append] at hBytes
  obtain ⟨_, key, _, -, -, hSection⟩ :=
    steps_of_fields hCipher (yields_kdfOptions_of_valid hValid.kdf) hBytes hLimits hRun
  cases hSection with
  | sealed _ _ _ _ => exact ⟨key, _, _, rfl⟩

end KeyReader

namespace GeneralContainer

variable {text : String} {h : ContainerHeader}

/-- **The strict reader refuses an unknown name as such**, whatever else there is in the text. -/
theorem parse_of_unknown (hText : ReadTwice text h)
    (hUnknown : SectionCipher.ofName? h.cipherName = none) :
    parse (Text.trim text) = .error (KeyReader.nameFault h.cipherName) := by
  obtain ⟨input, hInput, hBytes, hLimits⟩ := hText.exists_input
  rw [parse, hInput]
  exact congrArg (Except.map (·.1))
    (KeyReader.container_of_unknown hUnknown hText.valid hBytes hLimits)

/-- What is read under a known cipher is sealed with the parameters of the header. -/
theorem exists_sealed_of_readTwice {c : SectionCipher} {g : GeneralContainer}
    (hText : ReadTwice text h) (hCipher : SectionCipher.ofName? h.cipherName = some (some c))
    (hParse : parse (Text.trim text) = .ok g) :
    ∃ key ciphertext tag, g = .sealed c h.kdf key ciphertext tag := by
  obtain ⟨input, hInput, hBytes, hLimits⟩ := hText.exists_input
  rw [parse, hInput] at hParse
  obtain ⟨⟨_, j⟩, hRun, rfl⟩ := Result.map_eq_ok_iff.1 hParse
  exact KeyReader.exists_sealed_of_container hCipher hText.valid hBytes hLimits hRun

/-- A section that is never decrypted fails like one under a wrong passphrase, unless there is no
derivation of a key from the passphrase. -/
theorem decrypt_tripleDes (kdf : Option KdfParameters) (key : PublicKey)
    (ciphertext tag passphrase : Bytes) :
    decrypt SectionCipher.tripleDes kdf key ciphertext tag passphrase =
      .error (if kdf = none then .alreadyDecrypted else .crypto) := by
  cases kdf with
  | none => rfl
  | some params =>
    rw [decrypt.eq_def, if_neg (Option.some_ne_none params)]
    simp only
    split
    · rfl
    · rfl

end GeneralContainer

/-! ## Loading -/

namespace PrivateKey

variable {text p : String} {h : ContainerHeader}

/-- What the general reader is left with. -/
theorem load_eq_privateKey (hText : ReadTwice text h)
    (hNative : CipherProfile.byName? h.cipherName = none) (hp : p ≠ "") :
    load text (some p) =
      GeneralContainer.privateKey (Text.trim text) (some (Bytes.ofString p)) := by
  obtain ⟨payload, hUnwrap, hHeader⟩ := hText.exists_unwrap
  rw [load_of_unwrap_some hUnwrap (Detection.declaredNameOf_of_ofPayload hHeader) hp, hNative]

theorem load_unknown (hText : ReadTwice text h)
    (hNative : CipherProfile.byName? h.cipherName = none)
    (hUnknown : SectionCipher.ofName? h.cipherName = none) (hp : p ≠ "") :
    load text (some p) = .error (.malformedContainer (.key (KeyReader.nameFault h.cipherName))) := by
  have hNe : KeyReader.nameFault h.cipherName ≠ .algorithm := by
    rw [KeyReader.nameFault]
    split
    · exact KeyFault.noConfusion
    · split <;> exact KeyFault.noConfusion
  rw [load_eq_privateKey hText hNative hp, GeneralContainer.privateKey_of_parse_error hNe
    (GeneralContainer.parse_of_unknown hText hUnknown)]

/-- Everything that can come of a container under the cipher that is known by name. -/
theorem load_tripleDes (hText : ReadTwice text h) (hName : h.cipherName = "3des-cbc")
    (hp : p ≠ "") : load text (some p) =
      match GeneralContainer.parse (Text.trim text) with
      | .error .algorithm => .error (.unsupportedAlgorithm KeyFault.algorithm.message)
      | .error f => .error (.malformedContainer (.key f))
      | .ok _ =>
        if h.kdf = none then
          .error (.unsupportedAlgorithm s!"3des-cbc: {KeyFault.alreadyDecrypted.message}")
        else .error .decryptionFailed := by
  have hNative : CipherProfile.byName? h.cipherName = none := by
    rw [hName]
    decide
  have hCipher : SectionCipher.ofName? h.cipherName = some (some SectionCipher.tripleDes) := by
    rw [hName]
    exact SectionCipher.ofName?_tripleDes
  rw [load_eq_privateKey hText hNative hp, GeneralContainer.privateKey.eq_def]
  cases hParse : GeneralContainer.parse (Text.trim text) with
  | error f => cases f <;> rfl
  | ok g =>
    obtain ⟨key, ciphertext, tag, rfl⟩ :=
      GeneralContainer.exists_sealed_of_readTwice hText hCipher hParse
    by_cases hKdf : h.kdf = none
    · simp only [GeneralContainer.decrypt_tripleDes, if_pos hKdf]
      rfl
    · simp only [GeneralContainer.decrypt_tripleDes, if_neg hKdf]

/-- **When a container that cannot be decrypted is reported as unsupported.**  Never under an
unknown name, which makes it malformed; under the name that is known, if the text shows a fault of
this kind before the passphrase is used, or derives no key from it.  With a derivation it is the
passphrase that is blamed, whichever it is. -/
theorem load_undecryptable (hText : ReadTwice text h)
    (hCipher : SectionCipher.Undecryptable h.cipherName) (hp : p ≠ "") :
    (h.cipherName ≠ "3des-cbc" → load text (some p) =
      .error (.malformedContainer (.key (KeyReader.nameFault h.cipherName)))) ∧
    ((∃ what, load text (some p) = .error (.unsupportedAlgorithm what)) ↔
      h.cipherName = "3des-cbc" ∧
        (GeneralContainer.parse (Text.trim text) = .error .algorithm ∨
          h.kdf = none ∧ ∃ g, GeneralContainer.parse (Text.trim text) = .ok g)) ∧
    (load text (some p) = .error .decryptionFailed ↔
      h.cipherName = "3des-cbc" ∧ h.kdf ≠ none ∧
        ∃ g, GeneralContainer.parse (Text.trim text) = .ok g) := by
  by_cases hName : h.cipherName = "3des-cbc"
  · refine ⟨fun hNe => absurd hName hNe, ?_⟩
    rw [load_tripleDes hText hName hp]
    cases hParse : GeneralContainer.parse (Text.trim text) with
    | error f => cases f <;> simp [hName]
    | ok g => by_cases hKdf : h.kdf = none <;> simp [hName, hKdf]
  · have hUnknown := hCipher.unknown_or_tripleDes.resolve_right hName
    have hLoad := load_unknown hText hCipher.1 hUnknown hp
    refine ⟨fun _ => hLoad, ?_, ?_⟩
    · rw [hLoad]
      exact iff_of_false (fun ⟨_, hEq⟩ => nomatch hEq) fun hBoth => hName hBoth.1
    · rw [hLoad]
      exact iff_of_false (fun hEq => nomatch hEq) fun hBoth => hName hBoth.1

/-! ## Two containers -/

/-- A header under a cipher of a given name, with parameters as they are written by default. -/
def headerUnder (name : String) : ContainerHeader :=
  ⟨name, KdfParameters.bcryptName, some ⟨Bytes.zeros 16, 16⟩,
    (PublicKey.ed25519 (Bytes.zeros 32)).blob, Bytes.zeros 16, []⟩

theorem readTwice_headerUnder (name : String) (hNe : name ≠ "")
    (hLt : name.utf8ByteSize < 2 ^ 32) :
    ReadTwice (Armor.wrap (headerUnder name).payload) (headerUnder name) := by
  have hBlob : (PublicKey.ed25519 (Bytes.zeros 32)).blob.length < 2 ^ 32 := by decide +kernel
  have hBounds : (⟨Bytes.zeros 16, 16⟩ : KdfParameters).InBounds :=
    ⟨⟨by decide, by decide⟩, by decide, by decide⟩
  have hSection : (Bytes.zeros 16).length < 2 ^ 32 := by decide
  exact .of_valid ⟨hNe, hLt, .inr ⟨rfl, _, rfl, hBounds⟩, hBlob, hSection⟩

theorem exists_parse_headerUnder :
    ∃ g, GeneralContainer.parse (Text.trim (Armor.wrap (headerUnder "3des-cbc").payload)) =
      .ok g := by
  have hBlob : (PublicKey.ed25519 (Bytes.zeros 32)).blob.length ≤ KeyReader.maxLength := by
    decide +kernel
  have hFits : GeneralContainer.Fits SectionCipher.tripleDes ⟨Bytes.zeros 16, 16⟩
      (.ed25519 (Bytes.zeros 32)) (Bytes.zeros 16) :=
    ⟨rfl, by decide, rfl, hBlob, by decide, by decide, by decide⟩
  have hPayload : (headerUnder "3des-cbc").payload = GeneralContainer.sealedPayload "3des-cbc"
      ⟨Bytes.zeros 16, 16⟩ (.ed25519 (Bytes.zeros 32)) (Bytes.zeros 16) := by
    decide +kernel
  rw [hPayload]
  exact ⟨_, GeneralContainer.parse_wrap SectionCipher.ofName?_tripleDes hFits⟩

/-- Under the cipher that is known by name, a passphrase is taken for a wrong one. -/
theorem load_undecryptable_tripleDes :
    SectionCipher.Undecryptable "3des-cbc" ∧ "p" ≠ "" ∧
      load (Armor.wrap (headerUnder "3des-cbc").payload) (some "p") = .error .decryptionFailed := by
  have hText := readTwice_headerUnder "3des-cbc" (by decide) (by decide)
  have hCipher : SectionCipher.Undecryptable "3des-cbc" :=
    SectionCipher.undecryptable_iff.2 (.inr rfl)
  have hp : "p" ≠ "" := by decide
  exact ⟨hCipher, hp, (load_undecryptable hText hCipher hp).2.2.2
    ⟨rfl, Option.some_ne_none _, exists_parse_headerUnder⟩⟩

/-- A container under a name that is not known is not reported as unsupported, and one under a
name that is known is reported as opened with a wrong passphrase. -/
theorem not_load_unsupported :
    (¬∀ (text p : String) (h : ContainerHeader), ReadTwice text h →
      SectionCipher.Undecryptable h.cipherName → p ≠ "" →
        ∃ what, load text (some p) = .error (.unsupportedAlgorithm what)) ∧
    ¬∀ (text p : String) (h : ContainerHeader), ReadTwice text h →
      SectionCipher.Undecryptable h.cipherName → p ≠ "" →
        load text (some p) ≠ .error .decryptionFailed := by
  have hp : "p" ≠ "" := by decide
  constructor
  · intro hAll
    have hText := readTwice_headerUnder "aes256-cfb" (by decide) (by decide)
    have hNative : CipherProfile.byName? "aes256-cfb" = none := by decide
    have hUnknown : SectionCipher.ofName? "aes256-cfb" = none := by decide
    obtain ⟨what, hLoad⟩ :=
      hAll _ "p" _ hText (SectionCipher.undecryptable_iff.2 (.inl ⟨hNative, hUnknown⟩)) hp
    rw [load_unknown hText hNative hUnknown hp] at hLoad
    cases hLoad
  · intro hAll
    have hText := readTwice_headerUnder "3des-cbc" (by decide) (by decide)
    obtain ⟨g, hParse⟩ := exists_parse_headerUnder
    refine hAll _ "p" _ hText (SectionCipher.undecryptable_iff.2 (.inr rfl)) hp ?_
    rw [load_tripleDes hText rfl hp, hParse]
    exact if_neg (Option.some_ne_none _)

end PrivateKey

end SshKeys
