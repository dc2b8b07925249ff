import SshKeys.Proofs.Inspected

/-!
# What an exported text shows

`ExportedKey.Reflects x o source rest` lists what detection, the reader of clear
parts and inspection find in the text of `x`, an export under `o` that left
`rest` of the source.  `Exported.reflects`: **that holds of all that is generated
and of all that is converted**.  It is the work of three writers:
`PrivateKey.exists_seals_of_write` for containers under a passphrase,
`PrivateKey.write_clear_eq_ok_iff` for those in the clear, and
`PrivateKey.exists_document_of_write` for PEM files.

Inspection has an exception, which no new key meets.  A document can hold an RSA
modulus of a megabyte, and the container it is converted to can not be inspected;
`not_inspect_of_long` gives one.
-/

namespace SshKeys

open KeyReader (maxLength)

/-! ## Containers under a passphrase -/

/-- The clear part names the cipher and sixteen rounds of bcrypt with the salt, and under the
passphrase the section opens to a plaintext with the check number twice in front. -/
structure ContainerHeader.Seals (h : ContainerHeader) (cipher : CipherKind) (passphrase : String)
    (salt check : Bytes) : Prop where
  cipherName_eq : h.cipherName = cipher.name
  kdfName_eq : h.kdfName = KdfParameters.bcryptName
  kdf_eq : h.kdf = some ⟨salt, 16⟩
  opens : ∃ body, Container.Opens h cipher.profile (some passphrase) (check ++ (check ++ body))

namespace PrivateKey

/-- Sealing draws a salt, then a check number, and nothing else. -/
theorem exists_seals_of_write {k : PrivateKey} {o : ExportOptions} {s text : String}
    {cipher : CipherKind} {source rest : Bytes} (hFormat : o.format = .openssh)
    (hSecret : o.activePassphrase = some s)
    (h : k.write o source = .ok ((text, cipher), rest)) :
    cipher = o.cipher.forEncryption ∧ ∃ header salt check,
      ContainerHeader.parse text = .ok header ∧ header.publicBlob = k.publicKey.blob ∧
      header.Seals o.cipher.forEncryption s salt check ∧ source = salt ++ (check ++ rest) ∧
      salt.length = 16 ∧ check.length = 4 := by
  obtain ⟨-, hNe⟩ := ExportOptions.activePassphrase_eq_some hSecret
  have hNonEmpty := nonEmpty_some hNe
  have hDrawn : Container.drawn (some s) = 16 + 4 := Container.drawn_of_some hNonEmpty
  have hCipher : Container.cipherFor (some s) o.cipher.forEncryption = o.cipher.forEncryption :=
    (Container.cipherFor_of_some hNonEmpty _).trans (CipherKind.forEncryption_forEncryption o.cipher)
  simp only [write, hFormat, hSecret, KeyPair.written_write] at h
  obtain ⟨text', t, hEncode, hPure⟩ := StateExcept.bind_eq_ok_iff.1 h
  cases hPure
  obtain ⟨header, hParse, hWritten, hSource, hRest⟩ := Container.exists_written_of_encode hEncode
  rw [hDrawn] at hSource hRest
  have hKdf : header.kdfName = KdfParameters.bcryptName ∧
      header.kdf = some (.drawnFrom source) := by
    rcases hWritten.kdf_eq with ⟨-, -, hNone⟩ | ⟨hName, hSome, -⟩
    · rw [hNonEmpty] at hNone
      cases hNone
    · exact ⟨hName, hSome⟩
  have hSalt : (source.take 16).length = 16 := List.length_take_of_le (by omega)
  have hCheck : ((source.drop 16).take 4).length = 4 :=
    List.length_take_of_le (by rw [List.length_drop]; omega)
  have hOpens := hWritten.opens
  rw [hDrawn, hCipher, Section.build, Section.content, Field.be32_wordOf hCheck] at hOpens
  simp only [List.append_assoc] at hOpens
  refine ⟨rfl, header, source.take 16, (source.drop 16).take 4, hParse, hWritten.publicBlob_eq,
    ⟨?_, hKdf.1, hKdf.2, _, hOpens⟩, ?_, hSalt, hCheck⟩
  · rw [hWritten.cipherName_eq, hCipher]
  · rw [hRest, ← List.drop_drop, List.take_append_drop, List.take_append_drop]

end PrivateKey

/-! ## Documents -/

namespace PemFile

/-- The names of the documents that are written. -/
def labels : List String :=
  [Pkcs1.label, Sec1.label, Pkcs8.label]

theorem isPlain_of_mem_labels {label : String} (h : label ∈ labels) : isPlain label = true := by
  simp only [labels, List.mem_cons, List.not_mem_nil, or_false] at h
  rcases h with rfl | rfl | rfl
  · exact isPlain_pkcs1
  · exact isPlain_sec1
  · exact isPlain_pkcs8

theorem kind_encode {label : String} (h : label ∈ labels) (document : Bytes) :
    TextKind.ofText (Pem.encode label document) = .privateKey := by
  have hMarks : ∀ l ∈ labels, Pem.marks l "PRIVATE KEY-----" = true := by
    decide +kernel
  have hContains : Text.contains (trimmed label document) "PRIVATE KEY-----" = true := by
    rw [trimmed, Pem.contains_file (by decide) (by decide) (by decide)]
    exact hMarks label h
  rw [TextKind.ofText, trim_encode, hContains, Bool.true_or, Bool.true_or]
  rfl

theorem detection_encode {label : String} (h : label ∈ labels) (document : Bytes)
    {format : KeyFormat} (hFormat : format ≠ .openssh) :
    Detection.ofText format (Pem.encode label document) = .ok .unencrypted := by
  have hPem := ofPem_trimmed (isPlain_of_mem_labels h) document
  rw [← trim_encode] at hPem
  cases format with
  | openssh => exact absurd rfl hFormat
  | pem => rw [Detection.ofText, hPem]
  | pkcs8 => rw [Detection.ofText, hPem]

end PemFile

namespace KeyPair

theorem exists_of_toPkcs8 {k : KeyPair} {text : String} (h : k.toPkcs8 = .ok text) :
    ∃ document, text = Pem.encode Pkcs8.label document := by
  rw [toPkcs8.eq_def] at h
  split at h
  · obtain ⟨_, -, hPure⟩ := Result.bind_eq_ok_iff.1 h
    cases hPure
    exact ⟨_, rfl⟩
  · obtain ⟨_, -, hPure⟩ := Result.bind_eq_ok_iff.1 h
    cases hPure
    exact ⟨_, rfl⟩
  · cases h
    exact ⟨_, rfl⟩
  · cases h
  · cases h
  · cases h
  · cases h

/-- Only an Ed25519 key, which has no format of its own, is written as PKCS#8 here. -/
theorem exists_of_toPem {k : KeyPair} {text : String} {t : KeyType} (h : k.toPem = .ok text)
    (hType : k.publicKey.keyType = .ok t) :
    ∃ label document, text = Pem.encode label document ∧ label ∈ PemFile.labels ∧
      PemFile.formatOf label = if t = .ed25519 then .pkcs8 else .pem := by
  cases k with
  | rsa pair =>
    obtain ⟨_, -, hPure⟩ := Result.bind_eq_ok_iff.1 h
    cases hPure
    cases hType
    exact ⟨_, _, rfl, by simp [PemFile.labels], PemFile.formatOf_pkcs1⟩
  | ecdsa curve point scalar =>
    obtain ⟨_, -, hPure⟩ := Result.bind_eq_ok_iff.1 h
    cases hPure
    cases hType
    exact ⟨_, _, rfl, by simp [PemFile.labels], PemFile.formatOf_sec1⟩
  | ed25519 key seed =>
    obtain ⟨document, rfl⟩ := exists_of_toPkcs8 (k := .ed25519 key seed) h
    cases hType
    exact ⟨_, document, rfl, by simp [PemFile.labels], PemFile.formatOf_pkcs8⟩
  | dsa _ => cases h
  | skEcdsa _ _ _ => cases h
  | skEd25519 _ _ _ => cases h
  | other _ _ _ => cases h

end KeyPair

theorem PrivateKey.exists_document_of_write {k : PrivateKey} {o : ExportOptions} {text : String}
    {cipher : CipherKind} {t : KeyType} {source rest : Bytes} (hFormat : o.format ≠ .openssh)
    (hType : k.publicKey.keyType = .ok t) (h : k.write o source = .ok ((text, cipher), rest)) :
    ∃ label document, text = Pem.encode label document ∧ label ∈ PemFile.labels ∧
      PemFile.formatOf label = if o.format = .pem ∧ t = .ed25519 then .pkcs8 else o.format := by
  have hSecret := activePassphrase_of_write hFormat h
  cases hKind : o.format with
  | openssh => exact absurd hKind hFormat
  | pem =>
    simp only [write, hKind, hSecret] at h
    obtain ⟨text', _, hLift, hPure⟩ := StateExcept.bind_eq_ok_iff.1 h
    cases hPure
    obtain ⟨label, document, hText, hLabel, hOf⟩ :=
      KeyPair.exists_of_toPem (StateExcept.lift_eq_ok_iff.1 hLift).1 hType
    refine ⟨label, document, hText, hLabel, ?_⟩
    simpa using hOf
  | pkcs8 =>
    simp only [write, hKind, hSecret] at h
    obtain ⟨text', _, hLift, hPure⟩ := StateExcept.bind_eq_ok_iff.1 h
    cases hPure
    obtain ⟨document, hText⟩ := KeyPair.exists_of_toPkcs8 (StateExcept.lift_eq_ok_iff.1 hLift).1
    refine ⟨_, document, hText, by simp [PemFile.labels], ?_⟩
    simpa using PemFile.formatOf_pkcs8

/-! ## Exports -/

/-- What is found in an exported text. -/
structure ExportedKey.Reflects (x : ExportedKey) (o : ExportOptions) (source rest : Bytes) :
    Prop where
  kind_eq : TextKind.ofText x.text = .privateKey
  format_eq : KeyFormat.ofText x.text =
    if o.format = .pem ∧ x.info.keyType = .ed25519 then .pkcs8 else o.format
  /-- With a passphrase it is a container that needs one. -/
  sealed : ∀ s, o.activePassphrase = some s → o.format = .openssh ∧
    (∃ h used salt check, ContainerHeader.parse x.text = .ok h ∧
      h.Seals o.cipher.forEncryption s salt check ∧
      source = used ++ (salt ++ (check ++ rest)) ∧ salt.length = 16 ∧ check.length = 4) ∧
    ∃ name, Detection.ofText (KeyFormat.ofText x.text) x.text = .ok ⟨x.cipher, true, name⟩
  clear : o.activePassphrase = none →
    ∃ name, Detection.ofText (KeyFormat.ofText x.text) x.text = .ok ⟨.none, false, name⟩
  /-- A container is inspected, unless the modulus of its key is longer than a field. -/
  inspected : o.format = .openssh → x.info.bitLength < 8 * maxLength →
    ∃ r i, inspect x.text = .ok r ∧ r.info = some i ∧ i.keyType = x.info.keyType ∧
      i.bitLength = x.info.bitLength ∧ i.fingerprints = x.info.fingerprints
  refused : o.format = .openssh → 8 * maxLength ≤ x.info.bitLength →
    inspect x.text = .error (.malformedContainer (.publicKey .overflow))

theorem PrivateKey.exists_of_exportWith {k : PrivateKey} {o : ExportOptions} {x : ExportedKey}
    {source rest : Bytes} (h : k.exportWith o source = .ok (x, rest)) :
    ∃ own : PrivateKey, own.publicKey = k.publicKey ∧
      own.write o source = .ok ((x.text, x.cipher), rest) ∧ x.info.Describes k.publicKey := by
  obtain ⟨⟨text, cipher⟩, t, hWrite, hReport⟩ := StateExcept.bind_eq_ok_iff.1 h
  obtain ⟨i, u, hLift, hPure⟩ := StateExcept.bind_eq_ok_iff.1 hReport
  obtain ⟨hInfo, rfl⟩ := StateExcept.lift_eq_ok_iff.1 hLift
  cases hPure
  exact ⟨k.withComment (o.comment.getD k.comment), rfl, hWrite,
    PublicKey.describes_of_info hInfo⟩

namespace ExportedKey

variable {x : ExportedKey} {o : ExportOptions} {key : PublicKey} {h : ContainerHeader}
  {source rest : Bytes}

/-- What all containers have in common. -/
theorem reflects_of_parse (hFormat : o.format = .openssh)
    (hParse : ContainerHeader.parse x.text = .ok h) (hBlob : h.publicBlob = key.blob)
    (hSized : key.Sized) (hInfo : x.info.Describes key)
    (hSealed : ∀ s, o.activePassphrase = some s → h.isEncrypted = true ∧
      ((CipherProfile.byName? h.cipherName).map (·.kind)).getD .none = x.cipher ∧
      ∃ used salt check, h.Seals o.cipher.forEncryption s salt check ∧
        source = used ++ (salt ++ (check ++ rest)) ∧ salt.length = 16 ∧ check.length = 4)
    (hClear : o.activePassphrase = none → h.cipherName = CipherKind.none.name) :
    x.Reflects o source rest := by
  obtain ⟨payload, hUnwrap, hPayload⟩ := Result.bind_eq_ok_iff.1 hParse
  obtain ⟨-, hHeader⟩ := ContainerHeader.ofPayload_eq_ok_iff.1 hPayload
  have hOwn := KeyFormat.ofText_of_unwrap hUnwrap
  have hDetect := Detection.ofText_of_parse hParse
  have hNotPem : ¬(o.format = .pem ∧ x.info.keyType = .ed25519) := by
    rintro ⟨hPem, -⟩
    rw [hFormat] at hPem
    cases hPem
  refine ⟨TextKind.ofText_of_unwrap hUnwrap, ?_, ?_, ?_, ?_, ?_⟩
  · rw [if_neg hNotPem, hOwn, hFormat]
  · intro s hSecret
    obtain ⟨hEncrypted, hCipher, used, salt, check, hSeals⟩ := hSealed s hSecret
    rw [hEncrypted, hCipher] at hDetect
    rw [hOwn]
    exact ⟨hFormat, ⟨h, used, salt, check, hParse, hSeals⟩, _, hDetect⟩
  · intro hSecret
    rw [ContainerHeader.isEncrypted, hClear hSecret, CipherProfile.byName?_name] at hDetect
    rw [hOwn]
    exact ⟨_, hDetect⟩
  · intro _ hShort
    have hValid := (hSized.valid_iff hInfo.bitLength).2 hShort
    exact exists_inspect_of_valid hParse hBlob hValid hInfo
  · intro _ hLong
    have hNot : ¬key.Valid := fun hValid =>
      absurd ((hSized.valid_iff hInfo.bitLength).1 hValid) (not_lt.2 hLong)
    have hShort := hHeader.publicBlob_lt
    rw [hBlob] at hShort
    refine inspect_of_ofBlob_error hParse ?_
    rw [hBlob]
    exact hSized.ofBlob_eq hNot hShort

/-- What all PEM files have in common: nothing is encrypted. -/
theorem reflects_of_document (hFormat : o.format ≠ .openssh) (hSecret : o.activePassphrase = none)
    {label : String} {document : Bytes} (hText : x.text = Pem.encode label document)
    (hLabel : label ∈ PemFile.labels)
    (hOf : PemFile.formatOf label =
      if o.format = .pem ∧ x.info.keyType = .ed25519 then .pkcs8 else o.format) :
    x.Reflects o source rest := by
  have hOwn : KeyFormat.ofText x.text = PemFile.formatOf label := by
    rw [hText, PemFile.ofText_encode (PemFile.isPlain_of_mem_labels hLabel)]
  refine ⟨?_, hOwn.trans hOf, ?_, ?_, fun h => absurd h hFormat, fun h => absurd h hFormat⟩
  · rw [hText]
    exact PemFile.kind_encode hLabel document
  · intro s hSome
    rw [hSecret] at hSome
    cases hSome
  · intro _
    rw [hOwn, hText, PemFile.detection_encode hLabel document (PemFile.formatOf_ne label)]
    exact ⟨_, rfl⟩

end ExportedKey

/-- **An export of a sized key is detected as what it is**, by the three ways of writing it. -/
theorem PrivateKey.reflects_of_exportWith {k : PrivateKey} {o : ExportOptions} {x : ExportedKey}
    {source rest : Bytes} (hSized : k.publicKey.Sized) (hValid : o.validate = .ok ())
    (h : k.exportWith o source = .ok (x, rest)) (used : Bytes) :
    x.Reflects o (used ++ source) rest := by
  obtain ⟨own, hKey, hWrite, hInfo⟩ := exists_of_exportWith h
  by_cases hFormat : o.format = .openssh
  · cases hSecret : o.activePassphrase with
    | some s =>
      obtain ⟨hCipher, header, salt, check, hParse, hBlob, hSeals, hSource, hSalt, hCheck⟩ :=
        exists_seals_of_write hFormat hSecret hWrite
      rw [hKey] at hBlob
      refine ExportedKey.reflects_of_parse hFormat hParse hBlob hSized hInfo ?_ ?_
      · intro s' hSome
        rw [hSecret] at hSome
        cases hSome
        rw [ContainerHeader.isEncrypted, hSeals.cipherName_eq, CipherProfile.byName?_name, hCipher]
        refine ⟨?_, ?_, used, salt, check, hSeals, by rw [hSource], hSalt, hCheck⟩
        · cases o.cipher <;> decide
        · cases o.cipher <;> rfl
      · intro hNone
        rw [hSecret] at hNone
        cases hNone
    | none =>
      obtain ⟨hLengths, hPair, -⟩ := (write_clear_eq_ok_iff hFormat hSecret).1 hWrite
      have hParse := parse_toContainer hLengths
      rw [← (Prod.mk.inj hPair).1] at hParse
      have hBlob : own.clearHeader.publicBlob = k.publicKey.blob := by
        rw [← hKey]
        rfl
      refine ExportedKey.reflects_of_parse hFormat hParse hBlob hSized hInfo ?_ fun _ => rfl
      intro s hSome
      rw [hSecret] at hSome
      cases hSome
  · have hSecret := ExportOptions.activePassphrase_eq_none hValid hFormat
    have hType := hInfo.keyType
    rw [← hKey] at hType
    obtain ⟨label, document, hText, hLabel, hOf⟩ := exists_document_of_write hFormat hType hWrite
    exact ExportedKey.reflects_of_document hFormat hSecret hText hLabel hOf

/-! ## Generated and converted keys -/

/-- An export that a user can come by: a new key, or a text that was converted. -/
inductive Exported (o : ExportOptions) (source : Bytes) (x : ExportedKey) (rest : Bytes) : Prop
  | generated (algorithm : KeyAlgorithm) (rsaBits : Nat)
    (h : generate algorithm rsaBits o source = .ok (x, rest))
  | converted (text : String) (passphrase : Option String)
    (h : convert text passphrase o source = .ok (x, rest))

theorem exists_exportWith_of_generate {algorithm : KeyAlgorithm} {rsaBits : Nat}
    {o : ExportOptions} {x : ExportedKey} {source rest : Bytes}
    (h : generate algorithm rsaBits o source = .ok (x, rest)) :
    o.validate = .ok () ∧ ∃ (k : PrivateKey) (used left : Bytes), source = used ++ left ∧
      k.publicKey.Valid ∧ k.exportWith o left = .ok (x, rest) := by
  obtain ⟨_, t, hCheck, hSteps⟩ := StateExcept.bind_eq_ok_iff.1 h
  obtain ⟨hValid, rfl⟩ := StateExcept.lift_eq_ok_iff.1 hCheck
  obtain ⟨k, left, hKey, hExport⟩ := StateExcept.bind_eq_ok_iff.1 hSteps
  obtain ⟨⟨used, hSource⟩, hPair, -⟩ := PrivateKey.gives_generate algorithm rsaBits _ _ _ hKey
  exact ⟨hValid, k, used, left, hSource.symm, hPair.publicKey, hExport⟩

theorem exists_exportWith_of_convert {text : String} {passphrase : Option String}
    {o : ExportOptions} {x : ExportedKey} {source rest : Bytes}
    (h : convert text passphrase o source = .ok (x, rest)) :
    o.validate = .ok () ∧ ∃ k : PrivateKey, PrivateKey.load text passphrase = .ok k ∧
      k.exportWith o source = .ok (x, rest) := by
  obtain ⟨_, t, hCheck, hSteps⟩ := StateExcept.bind_eq_ok_iff.1 h
  obtain ⟨hValid, rfl⟩ := StateExcept.lift_eq_ok_iff.1 hCheck
  obtain ⟨k, u, hRead, hExport⟩ := StateExcept.bind_eq_ok_iff.1 hSteps
  obtain ⟨hLoad, rfl⟩ := StateExcept.lift_eq_ok_iff.1 hRead
  exact ⟨hValid, k, hLoad, hExport⟩

/-- **Every export is detected as what it is**, and under a passphrase it is sealed.  A new key is
short enough to be inspected. -/
theorem Exported.reflects {o : ExportOptions} {source : Bytes} {x : ExportedKey} {rest : Bytes}
    (h : Exported o source x rest) :
    x.Reflects o source rest ∧ ∀ algorithm rsaBits,
      generate algorithm rsaBits o source = .ok (x, rest) →
        x.info.bitLength < 8 * maxLength := by
  constructor
  · cases h with
    | generated algorithm rsaBits h =>
      obtain ⟨hValid, k, used, left, rfl, hKey, hExport⟩ := exists_exportWith_of_generate h
      exact PrivateKey.reflects_of_exportWith (.inl hKey) hValid hExport used
    | converted text passphrase h =>
      obtain ⟨hValid, k, hLoad, hExport⟩ := exists_exportWith_of_convert h
      exact PrivateKey.reflects_of_exportWith (PrivateKey.sized_of_load hLoad) hValid hExport []
  · intro algorithm rsaBits hGenerate
    obtain ⟨-, k, _, left, -, hKey, hExport⟩ := exists_exportWith_of_generate hGenerate
    obtain ⟨_, -, -, hInfo⟩ := PrivateKey.exists_of_exportWith hExport
    exact hKey.bitLength_lt hInfo.bitLength

/-- A new Ed25519 key under a passphrase. -/
theorem Exported.reflects_ed25519 :
    ∃ x, generate .ed25519 defaultRsaBits { passphrase := some "p" } (Bytes.zeros 52) =
        .ok (x, []) ∧
      x.Reflects { passphrase := some "p" } (Bytes.zeros 52) [] ∧
      x.info.bitLength < 8 * maxLength := by
  have hConsistent : (KeyPair.ofSeed (Bytes.zeros 32)).Consistent := ⟨List.length_replicate, rfl⟩
  have hFits : (KeyPair.ofSeed (Bytes.zeros 32)).Fits := trivial
  have hSection : PrivateKey.SectionFits ⟨KeyPair.ofSeed (Bytes.zeros 32), "", none⟩
      { passphrase := some "p" } :=
    PrivateKey.sectionFits_of_short hConsistent hFits (by decide)
  have hSource : ExportOptions.drawn { passphrase := some "p" } ≤ (Bytes.zeros 20).length := by
    decide
  obtain ⟨x, hExport, -⟩ := PrivateKey.exists_exportWith hConsistent hFits rfl hSection hSource
  have hPair : KeyPair.generate .ed25519 defaultRsaBits (Bytes.zeros 52) =
      .ok (KeyPair.ofSeed (Bytes.zeros 32), Bytes.zeros 20) :=
    StateExcept.bind_eq_ok_iff.2 ⟨Bytes.zeros 32, Bytes.zeros 20,
      Random.bytes_eq_ok_iff.2 ⟨by decide, by decide, by decide⟩, rfl⟩
  have hKey : PrivateKey.generate .ed25519 defaultRsaBits (Bytes.zeros 52) =
      .ok (⟨KeyPair.ofSeed (Bytes.zeros 32), "", none⟩, Bytes.zeros 20) :=
    StateExcept.bind_eq_ok_iff.2 ⟨_, _, hPair,
      StateExcept.lift_eq_ok_iff.2 ⟨hConsistent.ofPair_eq "", rfl⟩⟩
  have hGenerate : generate .ed25519 defaultRsaBits { passphrase := some "p" } (Bytes.zeros 52) =
      .ok (x, []) :=
    StateExcept.bind_eq_ok_iff.2 ⟨(), _, StateExcept.lift_eq_ok_iff.2 ⟨by decide, rfl⟩,
      StateExcept.bind_eq_ok_iff.2 ⟨_, _, hKey, hExport⟩⟩
  obtain ⟨hReflects, hBits⟩ := Exported.reflects (.generated .ed25519 defaultRsaBits hGenerate)
  exact ⟨x, hGenerate, hReflects, hBits .ed25519 defaultRsaBits hGenerate⟩

/-! ## A modulus that is too long -/

namespace Rsa

/-- The key with the factors three and `x + 1`, and the exponent three. -/
def Numbers.beside (x : Nat) : Numbers :=
  ⟨3 * (x + 1), 3, (2 * x + 1) / 3, 3, x + 1⟩

theorem check_beside {x : Nat} (h : x % 6 = 4) : check (.beside x) = .ok () := by
  have hExponent : 3 * ((2 * x + 1) / 3) = 2 * x + 1 := by omega
  have hPublic : checkPublic (3 * (x + 1)) 3 = .ok () := by
    rw [checkPublic, if_neg (by decide), if_neg (by omega), if_neg (by decide),
      if_neg (by decide), if_neg (by decide)]
  have hFirst : inverseModPred (.beside x) (Numbers.beside x).p = true := by
    refine decide_eq_true ?_
    show 3 * ((2 * x + 1) / 3) % 2 = 1
    omega
  have hSecond : inverseModPred (.beside x) (Numbers.beside x).q = true := by
    refine decide_eq_true ?_
    show 3 * ((2 * x + 1) / 3) % x = 1
    rw [hExponent, Nat.mul_add_mod_self_right]
    exact Nat.mod_eq_of_lt (by omega)
  refine Result.bind_eq_ok_iff.2 ⟨(), hPublic, ?_⟩
  refine Result.refuse_eq_ok_iff.2 ⟨?_, ?_⟩
  · show ¬(3 ≤ 1 ∨ x + 1 ≤ 1)
    omega
  · refine Result.refuse_eq_ok_iff.2 ⟨not_not.2 rfl, ?_⟩
    rw [hFirst, hSecond]
    rfl

theorem qinv?_beside {x : Nat} (h : x % 6 = 4) : (Numbers.beside x).qinv? = some 2 := by
  have hRemainder : (x + 1) % 3 = 2 := by omega
  show Modular.inverse? (x + 1) 3 = some 2
  rw [Modular.inverse?, hRemainder]
  decide +kernel

/-- No number of the key is longer than its modulus. -/
theorem fits_beside {x limit : Nat} (h : (Integer.ofNat (3 * (x + 1))).length ≤ limit) :
    (Numbers.beside x).Fits limit := by
  have hShort {m : Nat} (hm : m ≤ 3 * (x + 1)) : (Integer.ofNat m).length ≤ limit :=
    (Integer.length_ofNat_mono hm).trans h
  have hPrivate : (2 * x + 1) / 3 ≤ 3 * (x + 1) := by omega
  exact ⟨h, hShort (by show 3 ≤ _; omega), hShort hPrivate, hShort (by show 3 ≤ _; omega),
    hShort (by show x + 1 ≤ _; omega)⟩

end Rsa

/-- The key of a document is the one its numbers make. -/
theorem load_pkcs1_write {m : Rsa.Numbers} {pair : RsaPair} {qinv limit : Nat}
    (hCheck : Rsa.check m = .ok ()) (hPair : RsaPair.ofNumbers? m = some pair) (hLt : qinv < m.p)
    (hFits : m.Fits limit) (hLimit : 9 * (limit + 7) ≤ Der.maxLength) (passphrase : Option String) :
    PrivateKey.load (Pem.encode Pkcs1.label (Pkcs1.write m qinv)) passphrase =
      .ok ⟨.rsa pair, "", none⟩ := by
  rw [PemFile.load_pkcs1 (Pkcs1.read?_write hCheck hFits hLimit hLt), KeyPair.ofRsa, hPair]
  rfl

/-- The key of a document is written into a container, though it may not be read from there. -/
theorem exists_convert_pkcs1 {m : Rsa.Numbers} {qinv limit : Nat} (hCheck : Rsa.check m = .ok ())
    (hInverse : m.qinv? = some qinv) (hLt : qinv < m.p) (hFits : m.Fits limit)
    (hLimit : 9 * (limit + 7) ≤ Der.maxLength) :
    ∃ x, convert (Pem.encode Pkcs1.label (Pkcs1.write m qinv)) none {} [] = .ok (x, []) ∧
      x.info.bitLength = Integer.bits (Integer.ofNat m.n) := by
  have hMax : Der.maxLength = 268435455 := rfl
  obtain ⟨pair, hPair, hModulus, hShort⟩ : ∃ pair, RsaPair.ofNumbers? m = some pair ∧
      pair.n = Integer.ofNat m.n ∧ pair.n.length + pair.e.length + pair.d.length +
        pair.iqmp.length + pair.p.length + pair.q.length ≤ 6 * limit := by
    refine ⟨_, by rw [RsaPair.ofNumbers?, hInverse]; rfl, rfl, ?_⟩
    have hQinv := Integer.length_ofNat_mono hLt.le
    obtain ⟨hn, he, hd, hp, hq⟩ := hFits
    simp only
    omega
  have hLoad := load_pkcs1_write hCheck hPair hLt hFits hLimit none
  have hExport := (PrivateKey.exportWith_default_eq_ok_iff (k := ⟨.rsa pair, "", none⟩) rfl).2
    ⟨declarable_rsa (by omega), rfl, (rfl : ([] : Bytes) = [])⟩
  rw [← PrivateKey.convert_of_load hLoad rfl] at hExport
  exact ⟨_, hExport, congrArg Integer.bits hModulus⟩

/-- A key whose modulus has one byte more than a field is converted from a document, and the
container of it can not be inspected. -/
theorem not_inspect_of_long : ∃ x,
    convert (Pem.encode Pkcs1.label (Pkcs1.write (.beside (6 * 256 ^ maxLength + 4)) 2)) none {}
      [] = .ok (x, []) ∧
    inspect x.text = .error (.malformedContainer (.publicKey .overflow)) := by
  have hPow : 2 ^ (8 * maxLength) = 256 ^ maxLength := by rw [Nat.pow_mul]
  generalize 256 ^ maxLength = y at hPow ⊢
  have hOne : 1 ≤ y := by
    rw [← hPow]
    exact Nat.one_le_two_pow
  have hShape : (6 * y + 4) % 6 = 4 := by omega
  have hLength : (Integer.ofNat (3 * (6 * y + 4 + 1))).length ≤ maxLength + 1 := by
    refine Integer.length_ofNat_le ?_
    have hSame : 256 ^ maxLength = y := by rw [← hPow, Nat.pow_mul]
    rw [hSame]
    omega
  obtain ⟨x, hConvert, hBits⟩ := exists_convert_pkcs1 (Rsa.check_beside hShape)
    (Rsa.qinv?_beside hShape) (by show 2 < 3; decide) (Rsa.fits_beside hLength) (by decide)
  have hLong : 8 * maxLength ≤ x.info.bitLength := by
    have hLog : 8 * maxLength ≤ (3 * (6 * y + 4 + 1)).log2 := by
      refine (Nat.le_log2 (by omega)).2 ?_
      rw [hPow]
      omega
    rw [hBits]
    show 8 * maxLength ≤ Integer.bits (Integer.ofNat (3 * (6 * y + 4 + 1)))
    rw [Integer.bits_ofNat (by omega)]
    omega
  obtain ⟨-, k, hLoad, hExport⟩ := exists_exportWith_of_convert hConvert
  have hReflects := PrivateKey.reflects_of_exportWith (PrivateKey.sized_of_load hLoad) rfl hExport []
  exact ⟨x, hConvert, hReflects.refused rfl hLong⟩

end SshKeys
