import SshKeys.Proofs.Load

/-!
# What is detected and what is read

The detector reads the clear part of a container only as far as the name of the
cipher.  `Detection.agrees_with_container`: **on every text it says what the
reader of the clear part and the reader of the whole container say**, and where it
fails, they fail in the same way.

* `Detection.ofText_of_unwrap`: what is detected follows from the payload alone.
* `ContainerHeader.fields_of_declaredNameOf_error`: a payload without a name
  of a cipher has no clear part either.
-/

namespace SshKeys

open SshKeys.Detection (declaredNameOf)

/-! ## The clear part without a name -/

namespace ContainerHeader

/-- The reader of the clear part meets the same fault as the detector, or one of its own kind. -/
theorem fields_of_declaredNameOf_error {payload : Bytes} {f : Failure}
    (h : declaredNameOf payload = .error f) :
    f.kind = .malformedContainer ∧
      ∃ g rest, fields payload = (.error g, rest) ∧ g.kind = .malformedContainer := by
  rw [declaredNameOf] at h
  by_cases hCut : payload.length < magic.length
  · rw [if_pos hCut] at h
    cases h
    have hMagic : field (Field.bytes magic.length) payload =
        (.error (.malformedContainer (.field (.short magic.length payload.length))), payload) := by
      rw [field, Field.bytes, if_pos hCut]
    exact ⟨rfl, _, _, ExceptState.bind_of_error hMagic, rfl⟩
  rw [if_neg hCut] at h
  have hMagic : field (Field.bytes magic.length) payload =
      (.ok (payload.take magic.length), payload.drop magic.length) := by
    rw [field, Field.bytes, if_neg hCut]
  by_cases hOther : payload.take magic.length ≠ magic
  · rw [if_pos hOther] at h
    cases h
    exact ⟨rfl, _, _, (ExceptState.bind_of_ok hMagic).trans (ExceptState.refuse_of hOther), rfl⟩
  rw [if_neg hOther] at h
  -- From here on both readers look at the same field.
  cases hText : Field.text (payload.drop magic.length) with
  | mk result rest =>
    rw [hText] at h
    cases result with
    | error g =>
      cases h
      have hField : field Field.text (payload.drop magic.length) =
          (.error (.malformedContainer (.field g)), rest) := by
        rw [field, hText]
      exact ⟨rfl, _, _, (ExceptState.bind_of_ok hMagic).trans
        ((ExceptState.refuse_of_not hOther).trans (ExceptState.bind_of_error hField)), rfl⟩
    | ok name =>
      by_cases hEmpty : name.isEmpty = true
      · simp only [hEmpty, if_true] at h
        cases h
        exact ⟨rfl, _, _, (ExceptState.bind_of_ok hMagic).trans
          ((ExceptState.refuse_of_not hOther).trans
            ((ExceptState.bind_of_ok (field_eq_ok_iff.2 hText)).trans
              (ExceptState.refuse_of hEmpty))), rfl⟩
      · simp only [hEmpty] at h
        cases h

end ContainerHeader

/-! ## Texts -/

/-- The clear part of the text declares a cipher of the given name. -/
def Declares (text name : String) : Prop :=
  ∃ payload, Armor.unwrap text = .ok payload ∧ declaredNameOf payload = .ok name

theorem declares_of_parse {text : String} {h : ContainerHeader}
    (hParse : ContainerHeader.parse text = .ok h) : Declares text h.cipherName := by
  obtain ⟨payload, hUnwrap, hPayload⟩ := Result.bind_eq_ok_iff.1 hParse
  exact ⟨payload, hUnwrap, Detection.declaredNameOf_of_ofPayload hPayload⟩

/-- What is decoded was declared to be under the cipher it is decoded with. -/
theorem declares_of_decode {text : String} {passphrase : Option String} {c : Container}
    (h : Container.decode text passphrase = .ok c) : Declares text c.cipher.name := by
  obtain ⟨header, profile, _, _, _, _, hAccepts⟩ := Container.exists_accepts_iff.1 h
  obtain ⟨kind, rfl, hKind⟩ := CipherProfile.byName?_eq_some_iff.1 hAccepts.profile_eq
  rw [hAccepts.cipher_eq, CipherKind.profile_kind, ← hKind]
  exact declares_of_parse hAccepts.header

namespace Detection

theorem ofText_of_unwrap {text : String} {payload : Bytes} (h : Armor.unwrap text = .ok payload) :
    ofText .openssh text = (declaredNameOf payload).map ofDeclaredName := by
  have hTrim : Armor.unwrap (Text.trim text) = .ok payload := by
    rw [Armor.unwrap_trim, h]
  simp only [ofText, ofContainer, hTrim, bind, Except.bind]
  cases declaredNameOf payload with
  | error f => rfl
  | ok name => rfl

theorem ofText_of_unwrap_error {text : String} {f : Failure} (h : Armor.unwrap text = .error f) :
    ofText .openssh text = .error f := by
  have hTrim : Armor.unwrap (Text.trim text) = .error f := by
    rw [Armor.unwrap_trim, h]
  simp only [ofText, ofContainer, hTrim, bind, Except.bind]

theorem ofDeclaredName_eq (name : String) :
    ofDeclaredName name = ⟨((CipherProfile.byName? name).map (·.kind)).getD .none,
      decide (name ≠ CipherKind.none.name), some name⟩ := by
  rw [ofDeclaredName]
  by_cases hName : name = CipherKind.none.name
  · rw [if_pos hName, hName, CipherProfile.byName?_name]
    rfl
  · rw [if_neg hName, decide_eq_true hName]

/-- What is detected in a text whose clear part is read. -/
theorem ofText_of_parse {text : String} {h : ContainerHeader}
    (hParse : ContainerHeader.parse text = .ok h) :
    ofText .openssh text = .ok ⟨((CipherProfile.byName? h.cipherName).map (·.kind)).getD .none,
      h.isEncrypted, some h.cipherName⟩ := by
  obtain ⟨payload, hUnwrap, hPayload⟩ := Result.bind_eq_ok_iff.1 hParse
  rw [ofText_of_unwrap hUnwrap, declaredNameOf_of_ofPayload hPayload, Except.map,
    ofDeclaredName_eq]
  rfl

theorem parse_of_ofText_error {text : String} {f : Failure}
    (h : ofText .openssh text = .error f) :
    f.kind = .malformedContainer ∧
      ∃ g, ContainerHeader.parse text = .error g ∧ g.kind = .malformedContainer := by
  cases hUnwrap : Armor.unwrap text with
  | error e =>
    rw [ofText_of_unwrap_error hUnwrap] at h
    cases h
    have hKind := Armor.kind_of_unwrap_error hUnwrap
    refine ⟨hKind, f, ?_, hKind⟩
    rw [ContainerHeader.parse, hUnwrap]
    rfl
  | ok payload =>
    rw [ofText_of_unwrap hUnwrap] at h
    cases hName : declaredNameOf payload with
    | ok name =>
      rw [hName] at h
      cases h
    | error e =>
      rw [hName] at h
      cases h
      rw [ContainerHeader.parse, hUnwrap]
      obtain ⟨hKind, g, _, hFields, hOther⟩ := ContainerHeader.fields_of_declaredNameOf_error hName
      refine ⟨hKind, g, ?_, hOther⟩
      show ContainerHeader.ofPayload payload = .error g
      rw [ContainerHeader.ofPayload, hFields]

/-- **The detector agrees with both readers of containers.** -/
theorem agrees_with_container (text : String) :
    (∀ h, ContainerHeader.parse text = .ok h →
      ofText .openssh text = .ok ⟨((CipherProfile.byName? h.cipherName).map (·.kind)).getD .none,
        h.isEncrypted, some h.cipherName⟩) ∧
    (∀ passphrase c, Container.decode text passphrase = .ok c →
      ∃ d, ofText .openssh text = .ok d ∧ d.cipher = c.cipher ∧
        (d.passphraseRequired = true ↔ c.cipher ≠ .none)) ∧
    ∀ f, ofText .openssh text = .error f → f.kind = .malformedContainer ∧
      (∃ g, ContainerHeader.parse text = .error g ∧ g.kind = .malformedContainer) ∧
      ∀ passphrase, ∃ g, Container.decode text passphrase = .error g ∧
        g.kind = .malformedContainer := by
  refine ⟨fun h hParse => ofText_of_parse hParse, ?_, ?_⟩
  · intro passphrase c hDecode
    obtain ⟨h, hParse, hRead⟩ := Result.bind_eq_ok_iff.1 hDecode
    obtain ⟨profile, _, hProfile, _, _, _, _, _, hCipher, _⟩ := Container.ofHeader_eq_ok_iff.1 hRead
    refine ⟨_, ofText_of_parse hParse, ?_, ?_⟩
    · rw [hProfile, hCipher]
      rfl
    · obtain ⟨kind, rfl, hName⟩ := CipherProfile.byName?_eq_some_iff.1 hProfile
      show h.isEncrypted = true ↔ c.cipher ≠ .none
      rw [ContainerHeader.isEncrypted, hName, hCipher, CipherKind.profile_kind]
      cases kind <;> decide
  · intro f hDetect
    obtain ⟨hKind, g, hParse, hOther⟩ := parse_of_ofText_error hDetect
    refine ⟨hKind, ⟨g, hParse, hOther⟩, ?_⟩
    intro passphrase
    refine ⟨g, ?_, hOther⟩
    rw [Container.decode, hParse]
    rfl

end Detection

end SshKeys
