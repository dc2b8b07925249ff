import SshKeys.Proofs.ContainerFaults
import SshKeys.Proofs.Envelope
import SshKeys.Proofs.General
import SshKeys.Proofs.Passphrase

/-!
# What a wrong passphrase fails with

A wrong passphrase is found out by the tag of a ciphertext, by the two check numbers in
front of the plaintext, or by a document that cannot be read.  What it decrypts is as
long as the right plaintext (`SectionCipher.length_of_decrypt?`), so the check numbers
are always there to be compared.

`PrivateKey.load_of_wrong`: **of a text that some passphrase opens, any other one that is
not empty fails with `decryptionFailed`**, unless it passes that check, which
`PassesCheck` lists for the three kinds of texts that can be encrypted.
-/

namespace SshKeys

/-! ## Lengths of plaintexts -/

theorem KdfParameters.length_of_derive {kdf : KdfParameters} {passphrase material : Bytes} {n : Nat}
    (h : kdf.derive passphrase n = .ok material) : material.length = n := by
  rw [derive] at h
  split at h
  · cases h
  split at h
  · cases h
  split at h
  · next hDerive =>
    cases h
    rw [Bcrypt.derive] at hDerive
    split at hDerive
    · cases hDerive
    split at hDerive
    · cases hDerive
    split at hDerive
    · cases hDerive
    · cases hDerive
      simp [Bcrypt.interleave]
  · cases h

/-- The length of a plaintext is that of its blocks, under any key. -/
theorem Cbc.length_decryptBlocks {f g : Bytes → Bytes} (hf : ∀ b, (f b).length = 16)
    (hg : ∀ b, (g b).length = 16) (blocks : List Bytes) {a b : Bytes} (h : a.length = b.length) :
    (decryptBlocks f a blocks).length = (decryptBlocks g b blocks).length := by
  induction blocks generalizing a b with
  | nil => rfl
  | cons c rest ih =>
    rw [decryptBlocks, decryptBlocks, List.length_append, List.length_append, Bytes.length_xor,
      Bytes.length_xor, hf, hg, h, ih rfl]

theorem Gcm.length_apply {f : Bytes → Bytes} (hf : ∀ b, (f b).length = 16) (nonce data : Bytes) :
    (apply f nonce data).length = data.length := by
  rw [apply, Bytes.length_xor, length_flatMap_range (fun _ => hf _)]
  omega

theorem Aes.length_decrypt (ks : Schedule) (b : Bytes) : (decrypt ks b).length = 16 := rfl

theorem ChaChaPoly.length_of_apply {data material masked : Bytes}
    (h : (apply data material).toOption = some masked) : masked.length = data.length := by
  rw [apply] at h
  split at h
  · cases h
    exact length_mask material data
  · cases h

/-- Whether a key is the right one does not show in the length of what it decrypts. -/
theorem SectionCipher.length_of_decrypt? {c : SectionCipher} {key key' iv iv' : Bytes}
    {ciphertext tag plain plain' : Bytes} (hIv : iv.length = iv'.length)
    (h : c.decrypt? key iv ciphertext tag = some plain)
    (h' : c.decrypt? key' iv' ciphertext tag = some plain') : plain.length = plain'.length := by
  rw [decrypt?] at h h'
  cases hMode : c.mode with
  | cbc =>
    rw [hMode] at h h'
    cases h
    cases h'
    exact Cbc.length_decryptBlocks (Aes.length_decrypt _) (Aes.length_decrypt _) _ hIv
  | ctr =>
    rw [hMode] at h h'
    cases h
    cases h'
    rw [Ctr.length_apply (Aes.length_encrypt _), Ctr.length_apply (Aes.length_encrypt _)]
  | gcm =>
    rw [hMode] at h h'
    obtain ⟨-, hPlain⟩ := Option.ite_none_right_eq_some.1 h
    obtain ⟨-, hPlain'⟩ := Option.ite_none_right_eq_some.1 h'
    cases hPlain
    cases hPlain'
    rw [Gcm.length_apply (Aes.length_encrypt _), Gcm.length_apply (Aes.length_encrypt _)]
  | chacha =>
    rw [hMode] at h h'
    obtain ⟨-, hPlain⟩ := Option.ite_none_right_eq_some.1 h
    obtain ⟨-, hPlain'⟩ := Option.ite_none_right_eq_some.1 h'
    rw [ChaChaPoly.length_of_apply hPlain, ChaChaPoly.length_of_apply hPlain']
  | unsupported =>
    rw [hMode] at h
    cases h

/-! ## Check numbers -/

/-- Eight bytes are two words. -/
theorem exists_words {b : Bytes} (h : 8 ≤ b.length) :
    ∃ x y rest, b = Bytes.be32 x ++ (Bytes.be32 y ++ rest) := by
  refine ⟨Field.wordOf (b.take 4), Field.wordOf ((b.drop 4).take 4), (b.drop 4).drop 4, ?_⟩
  have hSecond : ((b.drop 4).take 4).length = 4 := by
    rw [List.length_take, List.length_drop]
    omega
  rw [Field.be32_wordOf (List.length_take_of_le (by omega)), Field.be32_wordOf hSecond,
    List.take_append_drop, List.take_append_drop]

/-- The check number of a section is written twice. -/
def Section.StartsTwice (plain : Bytes) : Prop :=
  ∃ check rest, plain = Bytes.be32 check ++ (Bytes.be32 check ++ rest)

theorem Section.StartsTwice.le_length {plain : Bytes} (h : StartsTwice plain) :
    8 ≤ plain.length := by
  obtain ⟨check, rest, rfl⟩ := h
  rw [List.length_append, List.length_append, Bytes.length_be32]
  omega

theorem Section.Holds.startsTwice {plain kb : Bytes} {block k : Nat} {pair : KeyPair}
    {comment : String} {check : UInt32} (h : Holds plain block pair comment check kb k) :
    StartsTwice plain := by
  refine ⟨check, kb ++ (Field.putText comment ++ padding k), ?_⟩
  rw [h.plain_eq, content]
  simp only [List.append_assoc]

/-- Under a cipher, two different numbers are taken for a wrong passphrase. -/
theorem Section.parse_of_not_startsTwice {h : ContainerHeader} {profile : CipherProfile}
    {plain : Bytes} (hEncrypted : profile.isEncrypted = true) (hLength : 8 ≤ plain.length)
    (hTwice : ¬StartsTwice plain) : (parse h profile plain).1 = .error .decryptionFailed := by
  obtain ⟨x, y, rest, rfl⟩ := exists_words hLength
  have hNe : x ≠ y := by
    rintro rfl
    exact hTwice ⟨x, rest, rfl⟩
  have hWord (w : UInt32) (tail : Bytes) :
      ContainerHeader.field Field.word (Bytes.be32 w ++ tail) = (.ok w, tail) :=
    ContainerHeader.field_eq_ok_iff.2 (Field.word_eq_ok_iff.2 rfl)
  rw [parse, ExceptState.bind_of_ok (hWord _ _), ExceptState.bind_of_ok (hWord _ _), hEncrypted]
  exact congrArg Prod.fst (ExceptState.refuse_of hNe)

theorem KeyReader.privateSection_of_not_startsTwice {key : PublicKey} {block : Nat}
    {content : Bytes} (hBlocks : content.length % block = 0) (hLength : 8 ≤ content.length)
    (hTwice : ¬Section.StartsTwice content) :
    privateSection key block (.ofBytes content) = .error .crypto := by
  obtain ⟨x, y, rest, rfl⟩ := exists_words hLength
  have hNe : x.toNat ≠ y.toNat := by
    intro hSame
    exact hTwice ⟨x, rest, by rw [UInt32.toNat_inj.1 hSame]⟩
  have hRemaining (b : Bytes) : remaining (.ofBytes b) = .ok (b.length, .ofBytes b) := rfl
  refine (StateExcept.bind_of_ok (hRemaining _)).trans ?_
  rw [if_neg (not_not.2 hBlocks)]
  refine (StateExcept.bind_of_ok (run_of_yields (yields_word x) _)).trans ?_
  refine (StateExcept.bind_of_ok (run_of_yields (yields_word y) _)).trans ?_
  rw [if_pos hNe]
  rfl

/-! ## Passing the check -/

/-- What the passphrase decrypts passes for the plaintext: the tag fits, if there is one, and the
two check numbers are the same, or a document can be read.  A wrong passphrase does so by chance
only. -/
inductive PassesCheck (text passphrase : String) : Prop
  | container {h : ContainerHeader} {profile : CipherProfile} {plain : Bytes}
      (hParse : ContainerHeader.parse text = .ok h)
      (hProfile : CipherProfile.byName? h.cipherName = some profile)
      (hOpens : Container.Opens h profile (some passphrase) plain)
      (hTwice : Section.StartsTwice plain)
  | general {c : SectionCipher} {kdf : KdfParameters} {key : PublicKey}
      {ciphertext tag material content : Bytes}
      (hParse : GeneralContainer.parse (Text.trim text) =
        .ok (.sealed c (some kdf) key ciphertext tag))
      (hMaterial : kdf.derive (Bytes.ofString passphrase) (c.keyLength + c.ivLength) =
        .ok material)
      (hContent : c.decrypt? (material.take c.keyLength) (material.drop c.keyLength) ciphertext
        tag = some content)
      (hTwice : Section.StartsTwice content)
  | document {e : Envelope} {k : Pkcs8} (hText : Envelope.ofText (Text.trim text) = .ok e)
      (hOpen : e.open? (Bytes.ofString passphrase) = some k)

variable {text p q : String} {f : Failure} {k : PrivateKey}

/-! ### Containers -/

/-- With material of the right length, a tag of the right length and a keystream that lasts, only
the tag can be wrong. -/
theorem CipherProfile.decrypt_or_wrong {kind : CipherKind} {material tag ciphertext : Bytes}
    (h : material.length = kind.profile.keyMaterialLength)
    (hTag : tag.length = kind.profile.tagLength) (hLasts : kind.Lasts ciphertext.length) :
    (∃ plain, kind.profile.decrypt (ciphertext ++ tag) material = .ok plain) ∨
      kind.profile.decrypt (ciphertext ++ tag) material = .error .decryptionFailed := by
  cases kind with
  | none => exact .inl ⟨_, decrypt_none h⟩
  | aes256Ctr => exact .inl ⟨_, decrypt_aes h⟩
  | chacha20Poly1305 =>
    rw [decrypt_chacha h, ChaChaPoly.decrypt_append h hTag]
    split
    · exact .inl ⟨_, ChaChaPoly.apply_eq_ok_iff.2 ⟨hLasts rfl, rfl⟩⟩
    · exact .inr rfl

/-- A section that one passphrase opens is opened by any other, or its tag does not fit. -/
theorem Container.opens_or_wrong {h : ContainerHeader} {kind : CipherKind} {plain : Bytes}
    (hValid : h.Valid) (hTag : h.tag.length = kind.profile.tagLength) (hq : q ≠ "")
    (hOpens : Opens h kind.profile (some p) plain) :
    (∃ plain', Opens h kind.profile (some q) plain') ∨
      openSection h kind.profile (some q) = .error .decryptionFailed := by
  by_cases hEncrypted : kind.profile.isEncrypted = true
  · rw [Opens, if_pos hEncrypted] at hOpens
    obtain ⟨kdf, -, -, hKdf, -⟩ := hOpens
    obtain ⟨material, hMaterial, hLength⟩ := exists_material (hValid.inBounds hKdf) hEncrypted hq
    rcases CipherProfile.decrypt_or_wrong hLength hTag
      (kind.lasts_of_lt hValid.privateSection_lt) with ⟨plain', hPlain⟩ | hWrong
    · refine .inl ⟨plain', ?_⟩
      rw [Opens, if_pos hEncrypted]
      exact ⟨kdf, q, material, hKdf, rfl, hq, hMaterial, hPlain⟩
    · refine .inr ?_
      rw [openSection, if_pos hEncrypted, hKdf, nonEmpty_some hq]
      simp only [hMaterial]
      exact hWrong
  · refine .inl ⟨plain, ?_⟩
    rw [Opens, if_neg hEncrypted] at hOpens ⊢
    exact hOpens

/-- **A wrong passphrase for a container**, of which another one is the right one. -/
theorem Container.decode_of_wrong {c : Container} (hOpen : decode text (some p) = .ok c)
    (hq : q ≠ "") :
    decode text (some q) = .error .decryptionFailed ∨ PassesCheck text q := by
  obtain ⟨h, hParse, hHeader⟩ := Result.bind_eq_ok_iff.1 hOpen
  obtain ⟨payload, -, hPayload⟩ := Result.bind_eq_ok_iff.1 hParse
  obtain ⟨-, hValid⟩ := ContainerHeader.ofPayload_eq_ok_iff.1 hPayload
  obtain ⟨_, plain, hName, hNe, hBlocks, hTag, hOpens, hContent, -, -⟩ :=
    ofHeader_eq_ok_iff.1 hHeader
  obtain ⟨kind, rfl, -⟩ := CipherProfile.byName?_eq_some_iff.1 hName
  obtain ⟨-, _, _, _, hHolds⟩ := Section.exists_holds_of_parse hContent
  have hTwice := hHolds.startsTwice
  have hDecode : decode text (some q) = ofHeader h (some q) := by
    rw [decode, hParse]
    rfl
  rcases opens_or_wrong hValid hTag hq hOpens with ⟨plain', hOpens'⟩ | hWrong
  · by_cases hTwice' : Section.StartsTwice plain'
    · exact .inr (.container hParse hName hOpens' hTwice')
    · have hEncrypted : kind.profile.isEncrypted = true := by
        by_contra hClear
        rw [Opens, if_neg hClear] at hOpens hOpens'
        rw [hOpens', ← hOpens] at hTwice'
        exact hTwice' hTwice
      have hLength' : 8 ≤ plain'.length := by
        rw [hOpens'.length_eq hTag, ← hOpens.length_eq hTag]
        exact hTwice.le_length
      refine .inl ?_
      rw [hDecode]
      exact ofHeader_of_parse_error hName hNe hBlocks hTag hOpens'
        (Section.parse_of_not_startsTwice hEncrypted hLength' hTwice')
  · refine .inl ?_
    rw [hDecode, ofHeader_of_shape hName hNe hBlocks hTag, hWrong]
    rfl

/-- **A wrong passphrase for a container under another cipher.** -/
theorem GeneralContainer.privateKey_of_wrong
    (hOpen : privateKey (Text.trim text) (some (Bytes.ofString p)) = .ok k)
    (hWrong : privateKey (Text.trim text) (some (Bytes.ofString q)) = .error f) :
    f = .decryptionFailed ∨ PassesCheck text q := by
  rcases privateKey_eq_ok hOpen with
    hParse | ⟨c, kdf, key, ciphertext, tag, _, hParse, hp, hDecrypt⟩
  · rw [privateKey, hParse] at hOpen hWrong
    cases hOpen.symm.trans hWrong
  · cases hp
    obtain ⟨params, material, content, _, rfl, hMaterial, hContent, hSection⟩ :=
      decrypt_eq_ok hDecrypt
    obtain ⟨hBlocks, -, _, _, _, hHolds⟩ := KeyReader.exists_holds_of_privateSection hSection
    have hLength := hHolds.startsTwice.le_length
    -- Whatever keeps the section closed is a wrong passphrase.
    have hCrypto (h : decrypt c (some params) key ciphertext tag (Bytes.ofString q) =
        .error .crypto) : f = .decryptionFailed := by
      rw [privateKey, hParse] at hWrong
      simp only [h] at hWrong
      exact (Except.error.inj hWrong).symm
    rw [decrypt.eq_def] at hCrypto
    cases hMaterial' : params.derive (Bytes.ofString q) (c.keyLength + c.ivLength) with
    | error _ =>
      simp only [hMaterial'] at hCrypto
      exact .inl (hCrypto trivial)
    | ok material' =>
      have hIv : (material.drop c.keyLength).length = (material'.drop c.keyLength).length := by
        rw [List.length_drop, List.length_drop, KdfParameters.length_of_derive hMaterial,
          KdfParameters.length_of_derive hMaterial']
      cases hContent' : c.decrypt? (material'.take c.keyLength) (material'.drop c.keyLength)
          ciphertext tag with
      | none =>
        simp only [hMaterial', hContent'] at hCrypto
        exact .inl (hCrypto trivial)
      | some content' =>
        have hSame := SectionCipher.length_of_decrypt? hIv hContent hContent'
        by_cases hTwice' : Section.StartsTwice content'
        · exact .inr (.general hParse hMaterial' hContent' hTwice')
        · have hRefused : KeyReader.privateSection key c.blockSize (.ofBytes content') =
              .error .crypto :=
            KeyReader.privateSection_of_not_startsTwice (hSame ▸ hBlocks) (hSame ▸ hLength) hTwice'
          simp only [hMaterial', hContent', StateT.run, hRefused] at hCrypto
          exact .inl (hCrypto rfl)

/-! ### Files -/

/-- Only an encrypted document is read under the passphrase itself. -/
theorem PemFile.keyPair_or_wrong {format : KeyFormat} {pair : KeyPair} (q : String)
    (hOpen : keyPair format (Text.trim text) (some p) = .ok pair) :
    keyPair format (Text.trim text) (some q) = .ok pair ∨
      keyPair format (Text.trim text) (some q) = .error .decryptionFailed ∨
      PassesCheck text q := by
  cases format with
  | openssh => cases hOpen
  | pem => exact .inl hOpen
  | pkcs8 =>
    by_cases hMarker : Text.contains (Text.trim text) encryptedPkcs8Marker = true
    · refine .inr ?_
      rw [keyPair, pkcs8, if_pos hMarker] at hOpen ⊢
      obtain ⟨_, hDocument, -⟩ := Result.bind_eq_ok_iff.1 hOpen
      rw [decrypted] at hDocument ⊢
      cases hText : Envelope.ofText (Text.trim text) with
      | error _ =>
        rw [Envelope.ofText] at hText
        rw [hText] at hDocument
        cases hDocument
      | ok e =>
        cases hKey : e.open? (Bytes.ofString q) with
        | some key => exact .inr (.document hText hKey)
        | none =>
          rw [Envelope.ofText] at hText
          rw [Envelope.open?] at hKey
          simp only [hText, hKey]
          exact .inl rfl
    · refine .inl ?_
      rw [keyPair, pkcs8, if_neg hMarker] at hOpen ⊢
      exact hOpen

namespace PrivateKey

/-- **A wrong passphrase is told from other failures, but for two exceptions.**  Of a text that
asks for a passphrase and is opened by one, any other fails to decrypt it, unless it is empty or
what it decrypts passes for the plaintext. -/
theorem load_of_wrong (hRequired : load text none = .error .passphraseRequired)
    (hOpen : load text (some p) = .ok k) (hq : q ≠ "") (hWrong : load text (some q) = .error f) :
    f = .decryptionFailed ∨ PassesCheck text q := by
  have hp : p ≠ "" := by
    rintro rfl
    rw [← load_empty, hRequired] at hOpen
    cases hOpen
  have hSealed : IsSealed (load text) := by
    rcases (allOrNothing_load text).open_or_sealed with ⟨hPlain, -⟩ | ⟨hSealed, -⟩
    · exact absurd hRequired (hPlain.not_required none)
    · exact hSealed
  obtain ⟨d, hDetect, -⟩ := isSealed_load_iff.1 hSealed
  by_cases hFormat : KeyFormat.ofText text = .openssh
  · rw [Detection.ofKey, hFormat] at hDetect
    obtain ⟨payload, name, hUnwrap, hName, -⟩ := exists_payload_of_ofText hDetect
    rw [load_of_unwrap_some hUnwrap hName hp] at hOpen
    rw [load_of_unwrap_some hUnwrap hName hq] at hWrong
    cases hProfile : CipherProfile.byName? name with
    | none =>
      rw [hProfile] at hOpen hWrong
      exact GeneralContainer.privateKey_of_wrong hOpen hWrong
    | some profile =>
      rw [hProfile] at hOpen hWrong
      obtain ⟨c, hDecode, -⟩ := Result.bind_eq_ok_iff.1 hOpen
      refine (Container.decode_of_wrong hDecode hq).imp_left fun hFailed => ?_
      simp only [hFailed] at hWrong
      cases hWrong
      rfl
  · have hLoad := PemFile.load_of_format (KeyFormat.ofText_trim text) hFormat
    rw [hLoad, if_neg (not_asked hp), filter_some hp] at hOpen
    rw [hLoad, if_neg (not_asked hq), filter_some hq] at hWrong
    obtain ⟨pair, hPair, hChecked⟩ := Result.bind_eq_ok_iff.1 hOpen
    rcases PemFile.keyPair_or_wrong q hPair with hSame | hFailed | hPasses
    · cases hWrong.symm.trans (Result.bind_eq_ok_iff.2 ⟨pair, hSame, hChecked⟩)
    · rw [hFailed] at hWrong
      cases hWrong
      exact .inl rfl
    · exact .inr hPasses

end PrivateKey

end SshKeys
