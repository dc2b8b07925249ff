import SshKeys.Proofs.ContainerFaults
import SshKeys.Proofs.Export
import SshKeys.Proofs.KdfBounds
import SshKeys.Proofs.StrictText

/-!
# Two readers of one container

A container under a cipher that is also written can be read in two ways: by
`Container.decode`, and by the general reader.  They differ in the armor, in the
lengths they allow and in how they read fields; the general reader is the
stricter one in all of these but one.  It does not skip what it leaves unread of a
string, so a string may declare more than it holds.

* `Container.exists_decode_of_privateKey`: **what the general reader opens, `decode`
  opens to the same key**, if the strings of the parameters and of the public key
  hold just these.
* `Container.not_forall_exists_decode`: neither condition can be left out.
-/

namespace SshKeys

open SshKeys.Field (putString putText)

/-- The fields of `bcryptPayload`, with `n` declared as the length of the parameters. -/
def declaredPayload (n : Nat) (name : String) (kdf : KdfParameters) (rest : Bytes) : Bytes :=
  ContainerHeader.magic ++ (putText name ++ ((putText KdfParameters.bcryptName ++
    (Bytes.be32 (UInt32.ofNat n) ++ ContainerHeader.putKdfOptions kdf)) ++ rest))

theorem declaredPayload_ne_nil (n : Nat) (name : String) (kdf : KdfParameters) (rest : Bytes) :
    declaredPayload n name kdf rest ≠ [] :=
  List.append_ne_nil_of_right_ne_nil _ (List.append_ne_nil_of_left_ne_nil
    (GeneralContainer.putString_ne_nil _) _)

theorem bcryptPayload_eq (name : String) (kdf : KdfParameters) (rest : Bytes) :
    bcryptPayload name kdf rest =
      declaredPayload (ContainerHeader.putKdfOptions kdf).length name kdf rest := by
  rw [bcryptPayload, declaredPayload, List.append_assoc (putText KdfParameters.bcryptName)]
  rfl

namespace GeneralContainer

/-- The payload of a text in strict form, as far as it can be decoded. -/
def payload? (text : String) : Option Bytes :=
  (Pem.input? Armor.lineWidth "OPENSSH PRIVATE KEY" text).map KeyInput.bytes

/-- Behind the parameters there are the number of keys and one public key, whose string holds
nothing else. -/
def HoldsOneKey (rest : Bytes) : Prop :=
  ∃ blob key more, rest = Bytes.be32 1 ++ (putString blob ++ more) ∧ blob.length < 2 ^ 32 ∧
    PublicKey.read blob = .ok (key, [])

/-- A text in strict form whose payload the general reader takes apart. -/
theorem exists_sealed_of_parse {text : String} {cipher : CipherKind} {c : SectionCipher}
    {kdf : KdfParameters} {blob more : Bytes} {key : PublicKey} {g : GeneralContainer}
    (hKind : c.IsKind cipher) (hKdf : kdf.InBounds)
    (hPayload : payload? text = some (bcryptPayload cipher.name kdf (Bytes.be32 1 ++
      (putString blob ++ more)))) (hBlob : blob.length < 2 ^ 32)
    (hRead : PublicKey.read blob = .ok (key, [])) (hParse : parse text = .ok g) :
    ∃ ciphertext tag, g = .sealed c (some kdf) key ciphertext tag ∧
      more = putString ciphertext ++ tag ∧ ciphertext.length ≤ KeyReader.maxLength ∧
      ciphertext.length % c.blockSize = 0 ∧ tag.length = c.tagLength ∧
      (Text.startsWith text Armor.beginMarker = true →
        Armor.unwrap text = .ok (bcryptPayload cipher.name kdf (Bytes.be32 1 ++
          (putString blob ++ more)))) := by
  obtain ⟨input, hInput, hBytes⟩ := Option.map_eq_some_iff.1 hPayload
  rw [parse, hInput] at hParse
  obtain ⟨⟨_, j⟩, hRun, rfl⟩ := Result.map_eq_ok_iff.1 hParse
  obtain ⟨ciphertext, tag, hSealed, hMore, hLong, hBlocks, hTag, hEnd⟩ :=
    KeyReader.sealed_of_container hKind.cipher_eq hKdf.options_le hBlob hRead
      (hBytes.trans (bcryptPayload_eq _ _ _)) (Pem.limits_of_input? hInput) hRun
  refine ⟨ciphertext, tag, hSealed, hMore, hLong, hBlocks, hTag, fun hMarker => ?_⟩
  rw [Armor.unwrap_of_input? hMarker hInput hEnd, hBytes]

end GeneralContainer

theorem CipherKind.name_valid (k : CipherKind) : k.name ≠ "" ∧ k.name.utf8ByteSize < 2 ^ 32 := by
  cases k <;> decide

theorem CipherKind.isEncrypted_of_ne {k : CipherKind} (h : k ≠ none) :
    k.profile.isEncrypted = true := by
  rw [CipherProfile.isEncrypted, k.profile_kind]
  exact decide_eq_true h

namespace ContainerHeader

/-- The header of a payload with parameters of bcrypt. -/
def ofFields (cipher : CipherKind) (kdf : KdfParameters) (blob ciphertext tag : Bytes) :
    ContainerHeader :=
  ⟨cipher.name, KdfParameters.bcryptName, some kdf, blob, ciphertext, tag⟩

theorem ofPayload_bcryptPayload {cipher : CipherKind} {kdf : KdfParameters}
    {blob ciphertext : Bytes} (hKdf : kdf.InBounds) (hBlob : blob.length < 2 ^ 32)
    (hCiphertext : ciphertext.length < 2 ^ 32) (tag : Bytes) :
    ofPayload (bcryptPayload cipher.name kdf (Bytes.be32 1 ++ (putString blob ++
      (putString ciphertext ++ tag)))) = .ok (ofFields cipher kdf blob ciphertext tag) := by
  refine ofPayload_eq_ok_iff.2 ⟨?_, cipher.name_valid.1, cipher.name_valid.2,
    .inr ⟨rfl, kdf, rfl, hKdf⟩, hBlob, hCiphertext⟩
  simp only [bcryptPayload, payload, ofFields, putOptions, List.append_assoc]

end ContainerHeader

namespace Container

/-- The text is decoded to the key `k` under `cipher`. -/
def DecodesTo (text s : String) (cipher : CipherKind) (k : PrivateKey) : Prop :=
  ∃ c, decode text (some s) = .ok c ∧ c.cipher = cipher ∧ c.pair = k.pair ∧
    c.comment = k.comment ∧ PublicKey.ofBlob c.publicBlob = .ok k.publicKey

/-- A private section that the general reader opens is opened to one that holds the key. -/
theorem opens_of_decrypt {c : SectionCipher} {cipher : CipherKind} {kdf : KdfParameters}
    {key : PublicKey} {blob ciphertext tag : Bytes} {s : String} {k : PrivateKey}
    (hKind : c.IsKind cipher) (hCipher : cipher ≠ .none) (hKdf : kdf.InBounds) (hs : s ≠ "")
    (hTag : tag.length = cipher.profile.tagLength)
    (h : GeneralContainer.decrypt c (some kdf) key ciphertext tag (Bytes.ofString s) = .ok k) :
    k.publicKey = key ∧ ∃ content check kb n,
      Opens (.ofFields cipher kdf blob ciphertext tag) cipher.profile (some s) content ∧
        Section.Holds content cipher.profile.blockSize k.pair k.comment check kb n := by
  have hEncrypted := CipherKind.isEncrypted_of_ne hCipher
  obtain ⟨_, material, content, i, hSome, hDerive, hContent, hSection⟩ :=
    GeneralContainer.decrypt_eq_ok h
  cases hSome
  obtain ⟨own, hOwn, hLength⟩ := exists_material hKdf hEncrypted hs
  rw [hKind.material_eq] at hDerive
  cases hDerive.symm.trans hOwn
  have hOpen := (hKind.decrypt_iff hLength hTag).1 hContent
  rw [hKind.blockSize_eq] at hSection
  obtain ⟨-, hSame, check, kb, n, hHolds⟩ := KeyReader.exists_holds_of_privateSection hSection
  refine ⟨hSame, content, check, kb, n, ?_, hHolds⟩
  rw [Opens, if_pos hEncrypted]
  exact ⟨kdf, s, material, rfl, rfl, hs, hOwn, hOpen⟩

/-- **What the general reader opens under a cipher of containers is decoded to the same key.** -/
theorem exists_decode_of_privateKey {text s : String} {cipher : CipherKind} {kdf : KdfParameters}
    {rest : Bytes} {k : PrivateKey} (hMarker : Text.startsWith text Armor.beginMarker = true)
    (hCipher : cipher ≠ .none) (hKdf : kdf.InBounds)
    (hPayload : GeneralContainer.payload? text = some (bcryptPayload cipher.name kdf rest))
    (hKey : GeneralContainer.HoldsOneKey rest) (hs : s ≠ "")
    (h : GeneralContainer.privateKey text (some (Bytes.ofString s)) = .ok k) :
    DecodesTo text s cipher k := by
  have hMax : KeyReader.maxLength < 2 ^ 32 := by decide
  obtain ⟨blob, key, more, rfl, hBlob, hRead⟩ := hKey
  obtain ⟨c, hKind⟩ := SectionCipher.exists_isKind hCipher
  -- The general reader takes the payload apart and opens the section,
  obtain hPlain | ⟨_, _, _, ciphertext, tag, _, hParse, hPassphrase, hDecrypt⟩ :=
    GeneralContainer.privateKey_eq_ok h
  · obtain ⟨_, _, hSealed, -⟩ :=
      GeneralContainer.exists_sealed_of_parse hKind hKdf hPayload hBlob hRead hPlain
    cases hSealed
  obtain ⟨_, _, hSealed, rfl, hLong, hBlocks, hTag, hUnwrap⟩ :=
    GeneralContainer.exists_sealed_of_parse hKind hKdf hPayload hBlob hRead hParse
  cases hSealed
  cases hPassphrase
  rw [hKind.blockSize_eq] at hBlocks
  rw [hKind.tagLength_eq] at hTag
  obtain ⟨hSame, content, check, kb, n, hOpens, hHolds⟩ :=
    opens_of_decrypt hKind hCipher hKdf hs hTag hDecrypt
  -- and the header has the same fields.
  have hHeader : ContainerHeader.parse text = .ok (.ofFields cipher kdf blob ciphertext tag) := by
    rw [ContainerHeader.parse, hUnwrap hMarker]
    exact ContainerHeader.ofPayload_bcryptPayload hKdf hBlob (hLong.trans_lt hMax) tag
  have hPublic : PublicKey.ofBlob blob = .ok k.publicKey := by
    rw [hSame]
    exact PublicKey.ofBlob_of_read hRead
  exact ⟨_, decode_of_holds hHeader rfl hTag hBlocks hOpens hHolds hPublic, rfl, rfl, rfl, hPublic⟩

end Container

/-! ## Texts that only the general reader reads -/

/-- One public key, with `n` declared as its length. -/
def declaredKey (n : Nat) (key : PublicKey) (more : Bytes) : Bytes :=
  Bytes.be32 1 ++ ((Bytes.be32 (UInt32.ofNat n) ++ key.blob) ++ more)

namespace ContainerHeader

/-- A string that declares more than there is. -/
theorem field_of_overrun {n : Nat} {rest : Bytes} (hn : n < 2 ^ 32) (hShort : rest.length < n) :
    field Field.string (Bytes.be32 (UInt32.ofNat n) ++ rest) =
      (.error (.malformedContainer (.field (.overrun n rest.length))), rest) := by
  have hWord := Field.toNat_ofNat_length hn
  have hOverrun : Field.string (Bytes.be32 (UInt32.ofNat n) ++ rest) =
      (.error (.overrun (UInt32.ofNat n).toNat rest.length), rest) :=
    Field.string_of_overrun (by rwa [hWord])
  rw [field, hOverrun, hWord]

theorem ofPayload_of_options_overrun {cipher : CipherKind} {kdf : KdfParameters} {n : Nat}
    {rest : Bytes} (hn : n < 2 ^ 32) (hShort : (putKdfOptions kdf ++ rest).length < n) :
    ofPayload (declaredPayload n cipher.name kdf rest) =
      .error (.malformedContainer (.field (.overrun n (putKdfOptions kdf ++ rest).length))) := by
  have hBcrypt : KdfParameters.bcryptName.utf8ByteSize < 2 ^ 32 := by decide
  have hFields : fields (declaredPayload n cipher.name kdf rest) =
      (.error (.malformedContainer (.field (.overrun n (putKdfOptions kdf ++ rest).length))),
        putKdfOptions kdf ++ rest) := by
    rw [fields, declaredPayload, List.append_assoc (putText KdfParameters.bcryptName),
      List.append_assoc (Bytes.be32 _)]
    refine (ExceptState.bind_of_ok (field_eq_ok_iff.2
      (Field.bytes_eq_ok_iff.2 ⟨rfl, rfl⟩))).trans ?_
    refine (ExceptState.refuse_of_not (not_not.2 rfl)).trans ?_
    refine (ExceptState.bind_of_ok (field_eq_ok_iff.2
      (Field.text_eq_ok_iff.2 ⟨rfl, cipher.name_valid.2⟩))).trans ?_
    refine (ExceptState.refuse_of_not
      (by rw [String.isEmpty_iff]; exact cipher.name_valid.1)).trans ?_
    refine (ExceptState.bind_of_ok (field_eq_ok_iff.2
      (Field.text_eq_ok_iff.2 ⟨rfl, hBcrypt⟩))).trans ?_
    exact ExceptState.bind_of_error (field_of_overrun hn hShort)
  rw [ofPayload, hFields]

theorem ofPayload_of_publicKey_overrun {cipher : CipherKind} {kdf : KdfParameters} {n : Nat}
    {key : PublicKey} {more : Bytes} (hKdf : kdf.InBounds) (hn : n < 2 ^ 32)
    (hShort : (key.blob ++ more).length < n) :
    ofPayload (bcryptPayload cipher.name kdf (declaredKey n key more)) =
      .error (.malformedContainer (.field (.overrun n (key.blob ++ more).length))) := by
  have hValid : KdfValid KdfParameters.bcryptName (some kdf) := .inr ⟨rfl, kdf, rfl, hKdf⟩
  have hFields : fields (bcryptPayload cipher.name kdf (declaredKey n key more)) =
      (.error (.malformedContainer (.field (.overrun n (key.blob ++ more).length))),
        key.blob ++ more) := by
    rw [fields, bcryptPayload, declaredKey, List.append_assoc (Bytes.be32 (UInt32.ofNat n))]
    refine (ExceptState.bind_of_ok (field_eq_ok_iff.2
      (Field.bytes_eq_ok_iff.2 ⟨rfl, rfl⟩))).trans ?_
    refine (ExceptState.refuse_of_not (not_not.2 rfl)).trans ?_
    refine (ExceptState.bind_of_ok (field_eq_ok_iff.2
      (Field.text_eq_ok_iff.2 ⟨rfl, cipher.name_valid.2⟩))).trans ?_
    refine (ExceptState.refuse_of_not
      (by rw [String.isEmpty_iff]; exact cipher.name_valid.1)).trans ?_
    refine (ExceptState.bind_of_ok (field_eq_ok_iff.2
      (Field.text_eq_ok_iff.2 ⟨rfl, hValid.name_lt⟩))).trans ?_
    refine (ExceptState.bind_of_ok (field_eq_ok_iff.2
      (Field.string_eq_ok_iff.2 ⟨rfl, hValid.options_lt⟩))).trans ?_
    refine (ExceptState.bind_of_ok (ExceptState.lift_eq_ok_iff.2
      ⟨kdfOptions_eq_ok_iff.2 ⟨hValid, rfl⟩, rfl⟩)).trans ?_
    refine (ExceptState.bind_of_ok (field_eq_ok_iff.2 (Field.word_eq_ok_iff.2 rfl))).trans ?_
    refine (ExceptState.refuse_of_not (not_not.2 rfl)).trans ?_
    exact ExceptState.bind_of_error (field_of_overrun hn hShort)
  rw [ofPayload, hFields]

end ContainerHeader

namespace GeneralContainer

/-- A section that is opened to one that holds a key is read by the general reader. -/
theorem decrypt_of_holds {c : SectionCipher} {cipher : CipherKind} {kdf : KdfParameters}
    {ciphertext tag passphrase material plain kb : Bytes} {k : PrivateKey} {check : UInt32}
    {n : Nat} (hKind : c.IsKind cipher)
    (hDerive : kdf.derive passphrase cipher.profile.keyMaterialLength = .ok material)
    (hMaterial : material.length = cipher.profile.keyMaterialLength)
    (hTag : tag.length = cipher.profile.tagLength)
    (hOpen : cipher.profile.decrypt (ciphertext ++ tag) material = .ok plain)
    (hHolds : Section.Holds plain cipher.profile.blockSize k.pair k.comment check kb n)
    (hBlocks : plain.length % cipher.profile.blockSize = 0)
    (hComment : k.comment.utf8ByteSize ≤ KeyReader.maxLength) (hCheck : k.check = some check) :
    decrypt c (some kdf) k.publicKey ciphertext tag passphrase = .ok k := by
  have hContent := (hKind.decrypt_iff hMaterial hTag).2 hOpen
  have hSection := KeyReader.privateSection_of_holds hHolds hBlocks hComment hCheck
  rw [← hKind.material_eq] at hDerive
  rw [← hKind.blockSize_eq] at hSection
  rw [decrypt.eq_def]
  simp only [hDerive, hContent]
  exact Result.bind_eq_ok_iff.2 ⟨_, hSection, rfl⟩

/-- **Some container under AES is opened**, whatever lengths `m` and `n` the strings of the
parameters and of the public key declare. -/
theorem exists_privateKey {pair : KeyPair} (hPair : pair.Valid) {t : KeyType}
    (hType : pair.publicKey.keyType = .ok t) {kdf : KdfParameters} (hKdf : kdf.InBounds)
    {s comment : String} (hs : s ≠ "")
    (hSection : Section.length pair.blob.length comment.utf8ByteSize
      CipherKind.aes256Ctr.profile.blockSize ≤ KeyReader.maxLength) {m n : Nat}
    (hOptions : (ContainerHeader.putKdfOptions kdf).length ≤ m) (hm : m ≤ KeyReader.maxLength)
    (hBlob : pair.publicKey.blob.length ≤ n) (hn : n ≤ KeyReader.maxLength) (check : UInt32) :
    ∃ ciphertext, ciphertext.length = Section.length pair.blob.length comment.utf8ByteSize
        CipherKind.aes256Ctr.profile.blockSize ∧
      privateKey (Armor.strictText (declaredPayload m CipherKind.aes256Ctr.name kdf
        (declaredKey n pair.publicKey (putString ciphertext)))) (some (Bytes.ofString s)) =
          .ok ⟨pair, comment, some check⟩ := by
  have hMax : KeyReader.maxLength < 2 ^ 32 := by decide
  have hBlock := Container.blockSize_pos .aes256Ctr
  have hComment : comment.utf8ByteSize ≤ KeyReader.maxLength := by
    simp only [Section.length, Field.stringLength] at hSection
    omega
  have hHolds := Section.holds_build hPair check (hComment.trans_lt hMax) hBlock
  have hPlain := Section.length_build check pair.blob comment
    CipherKind.aes256Ctr.profile.blockSize
  generalize Section.build check pair.blob comment CipherKind.aes256Ctr.profile.blockSize = plain
    at hHolds hPlain
  have hAes : CipherKind.aes256Ctr ≠ .none := by decide
  obtain ⟨c, hKind⟩ := SectionCipher.exists_isKind hAes
  obtain ⟨material, hDerive, hMaterial⟩ := exists_material (k := .aes256Ctr) hKdf rfl hs
  have hLasts : CipherKind.aes256Ctr.Lasts plain.length := CipherKind.lasts_of_ne (by decide) _
  obtain ⟨ciphertext, -, hLength, hOpen⟩ := CipherProfile.exists_encrypt hMaterial hLasts
  replace hLength : ciphertext.length = plain.length := hLength
  have hBlocks : plain.length % CipherKind.aes256Ctr.profile.blockSize = 0 := by
    rw [hPlain]
    exact Section.mod_add_paddingLength hBlock _
  have hPos : 0 < plain.length := by
    rw [hPlain, Section.length]
    omega
  have hParse : parse (Armor.strictText (declaredPayload m CipherKind.aes256Ctr.name kdf
      (declaredKey n pair.publicKey (putString ciphertext)))) =
        .ok (.sealed c (some kdf) pair.publicKey ciphertext []) := by
    have hRun := run_fields hKind.cipher_eq hKind.tagLength_eq
      (KeyReader.yields_kdfOptions_of_le hOptions hm)
      ((KeyReader.yields_publicKey hPair.publicKey).nested hBlob hn)
      (List.ne_nil_of_length_pos (hLength ▸ hPos)) (by rw [hLength, hPlain]; exact hSection)
      (by rw [hLength, hKind.blockSize_eq, hBlocks])
    rw [parse, Armor.input?_strictText (declaredPayload_ne_nil _ _ _ _)]
    exact congrArg (Except.map (·.1)) hRun
  have hDecrypt : decrypt c (some kdf) pair.publicKey ciphertext [] (Bytes.ofString s) =
      .ok ⟨pair, comment, some check⟩ :=
    decrypt_of_holds (k := ⟨pair, comment, some check⟩) hKind hDerive hMaterial rfl
      (by rwa [List.append_nil]) hHolds hBlocks hComment rfl
  refine ⟨ciphertext, hLength.trans hPlain, ?_⟩
  rw [privateKey.eq_def, hParse]
  simp only [hDecrypt]
  exact Result.bind_eq_ok_iff.2 ⟨t, hType, rfl⟩

/-! The containers below hold a key of zeros, under a salt of one byte and one round. -/

def oneRound : KdfParameters :=
  ⟨[1], 1⟩

theorem inBounds_oneRound : oneRound.InBounds :=
  ⟨⟨by decide, by decide⟩, by decide, by decide⟩

def zeroPair : KeyPair :=
  KeyPair.ofSeed (Bytes.zeros 32)

theorem valid_zeroPair : zeroPair.Valid := by
  have hConsistent : zeroPair.Consistent := ⟨List.length_replicate, rfl⟩
  exact hConsistent.valid trivial

theorem length_blob_zeroPair :
    zeroPair.blob.length = 119 ∧ zeroPair.publicKey.blob.length = 51 := by
  decide +kernel

theorem length_options_oneRound : (ContainerHeader.putKdfOptions oneRound).length = 9 := by
  decide

/-- Its parameters declare `m` bytes, and its public key `n`. -/
def zeroPayload (m n : Nat) (ciphertext : Bytes) : Bytes :=
  declaredPayload m CipherKind.aes256Ctr.name oneRound
    (declaredKey n zeroPair.publicKey (putString ciphertext))

theorem payload?_zeroPayload (m n : Nat) (ciphertext : Bytes) :
    payload? (Armor.strictText (zeroPayload m n ciphertext)) =
      some (zeroPayload m n ciphertext) := by
  rw [payload?, zeroPayload, Armor.input?_strictText (declaredPayload_ne_nil _ _ _ _)]
  rfl

theorem exists_privateKey_zeroPayload {m n : Nat} (hOptions : 9 ≤ m) (hm : m ≤ KeyReader.maxLength)
    (hBlob : 51 ≤ n) (hn : n ≤ KeyReader.maxLength) :
    ∃ ciphertext, ciphertext.length ≤ 1000 ∧
      privateKey (Armor.strictText (zeroPayload m n ciphertext)) (some (Bytes.ofString "p")) =
        .ok ⟨zeroPair, "", some 0⟩ := by
  have hSection : Section.length zeroPair.blob.length "".utf8ByteSize
      CipherKind.aes256Ctr.profile.blockSize ≤ 1000 := by
    rw [length_blob_zeroPair.1]
    decide
  have hMax : 1000 ≤ KeyReader.maxLength := by decide
  have hType : zeroPair.publicKey.keyType = .ok .ed25519 := rfl
  have hs : "p" ≠ "" := by decide
  obtain ⟨ciphertext, hLength, h⟩ := exists_privateKey valid_zeroPair hType inBounds_oneRound hs
    (hSection.trans hMax) (length_options_oneRound.trans_le hOptions) hm
    (length_blob_zeroPair.2.trans_le hBlob) hn 0
  exact ⟨ciphertext, hLength ▸ hSection, h⟩

theorem holdsOneKey_zeroPair (more : Bytes) :
    HoldsOneKey (declaredKey 51 zeroPair.publicKey more) := by
  obtain ⟨-, hBlob⟩ := length_blob_zeroPair
  have hRead := PublicKey.read_blob valid_zeroPair.publicKey []
  rw [List.append_nil] at hRead
  exact ⟨_, _, _, by rw [putString, hBlob]; rfl, by omega, hRead⟩

end GeneralContainer

namespace Container

open GeneralContainer (payload? HoldsOneKey privateKey oneRound zeroPair zeroPayload
  inBounds_oneRound payload?_zeroPayload exists_privateKey_zeroPayload)

/-- An Ed25519 key in a container as it is written. -/
theorem exists_decode_of_privateKey_ed25519 : ∃ text kdf rest k,
    Text.startsWith text Armor.beginMarker = true ∧ kdf.InBounds ∧
      payload? text = some (bcryptPayload CipherKind.aes256Ctr.name kdf rest) ∧
      HoldsOneKey rest ∧ privateKey text (some (Bytes.ofString "p")) = .ok k ∧
      DecodesTo text "p" .aes256Ctr k := by
  obtain ⟨ciphertext, -, h⟩ := exists_privateKey_zeroPayload (le_refl 9) (by decide) (le_refl 51)
    (by decide)
  have hMarker := Armor.startsWith_strictText (zeroPayload 9 51 ciphertext)
  have hPayload := (payload?_zeroPayload 9 51 ciphertext).trans
    (congrArg some (bcryptPayload_eq _ oneRound _).symm)
  have hOneKey := GeneralContainer.holdsOneKey_zeroPair (putString ciphertext)
  exact ⟨_, _, _, _, hMarker, inBounds_oneRound, hPayload, hOneKey, h,
    exists_decode_of_privateKey hMarker (by decide) inBounds_oneRound hPayload hOneKey
      (by decide) h⟩

/-- What has no header is not decoded. -/
theorem not_decodesTo {payload : Bytes} {f : Failure} {s : String} {cipher : CipherKind}
    {k : PrivateKey} (hNe : payload ≠ []) (h : ContainerHeader.ofPayload payload = .error f) :
    ¬DecodesTo (Armor.strictText payload) s cipher k := by
  rintro ⟨c, hDecode, -⟩
  obtain ⟨header, hHeader, -⟩ := Result.bind_eq_ok_iff.1 hDecode
  rw [ContainerHeader.parse, Armor.unwrap_of_input? (Armor.startsWith_strictText _)
    (Armor.input?_strictText hNe) rfl] at hHeader
  cases h.symm.trans hHeader

/-- The general reader takes the parameters and a key from the front of their strings, and reads on
behind them.  Here one of the strings would not end before the container does. -/
theorem not_forall_exists_decode :
    (¬∀ (text s : String) (cipher : CipherKind) (kdf : KdfParameters) (rest : Bytes)
        (k : PrivateKey),
      Text.startsWith text Armor.beginMarker = true → cipher ≠ .none → kdf.InBounds →
      payload? text = some (bcryptPayload cipher.name kdf rest) → s ≠ "" →
      privateKey text (some (Bytes.ofString s)) = .ok k → DecodesTo text s cipher k) ∧
    ¬∀ (text s : String) (cipher : CipherKind) (kdf : KdfParameters) (n : Nat) (rest : Bytes)
        (k : PrivateKey),
      Text.startsWith text Armor.beginMarker = true → cipher ≠ .none → kdf.InBounds →
      payload? text = some (declaredPayload n cipher.name kdf rest) → HoldsOneKey rest → s ≠ "" →
      privateKey text (some (Bytes.ofString s)) = .ok k → DecodesTo text s cipher k := by
  have hAes : CipherKind.aes256Ctr ≠ .none := by decide
  have hs : "p" ≠ "" := by decide
  have hMax : KeyReader.maxLength = 1048575 := rfl
  obtain ⟨-, hBlob⟩ := GeneralContainer.length_blob_zeroPair
  constructor
  · intro hAll
    obtain ⟨ciphertext, hLength, h⟩ := exists_privateKey_zeroPayload (le_refl 9) (by decide)
      (by decide) (le_refl KeyReader.maxLength)
    have hHeader : ContainerHeader.ofPayload (zeroPayload 9 KeyReader.maxLength ciphertext) = _ :=
      (congrArg ContainerHeader.ofPayload (bcryptPayload_eq _ oneRound _).symm).trans
        (ContainerHeader.ofPayload_of_publicKey_overrun inBounds_oneRound (by decide) (by
          rw [List.length_append, Field.length_putString, Field.stringLength]
          omega))
    exact not_decodesTo (declaredPayload_ne_nil _ _ _ _) hHeader
      (hAll _ "p" .aes256Ctr _ _ _ (Armor.startsWith_strictText _) hAes inBounds_oneRound
        ((payload?_zeroPayload _ _ _).trans (congrArg some (bcryptPayload_eq _ oneRound _).symm))
        hs h)
  · intro hAll
    obtain ⟨ciphertext, hLength, h⟩ := exists_privateKey_zeroPayload (by decide)
      (le_refl KeyReader.maxLength) (le_refl 51) (by decide)
    have hHeader : ContainerHeader.ofPayload (zeroPayload KeyReader.maxLength 51 ciphertext) = _ :=
      ContainerHeader.ofPayload_of_options_overrun (by decide) (by
        simp only [List.length_append, GeneralContainer.length_options_oneRound, declaredKey,
          Bytes.length_be32, Field.length_putString, Field.stringLength]
        omega)
    exact not_decodesTo (declaredPayload_ne_nil _ _ _ _) hHeader
      (hAll _ "p" .aes256Ctr _ _ _ _ (Armor.startsWith_strictText _) hAes inBounds_oneRound
        (payload?_zeroPayload _ _ _) (GeneralContainer.holdsOneKey_zeroPair _) hs h)

end Container

end SshKeys
