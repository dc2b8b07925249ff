import SshKeys.Proofs.Exported

/-!
# Importing and inspecting

`Imports text passphrase comment r` lists the two ways in which a text is
imported, as a line or as a private key; `importKey_eq_ok_iff` says that there
are no others.

`inspect_agrees`: **what is imported without a new comment is inspected, and both
reports agree** (`InspectReport.Agrees`).  The key of a container is imported
from its private section and inspected in its clear part; they agree because a
container is not read unless its two parts do.  This needs one of the ciphers that
are also written, as the clear part of the others is read by `GeneralContainer`.
-/

namespace SshKeys

/-! ## What is imported -/

namespace TextKind

theorem ofText_trim (text : String) : ofText (Text.trim text) = ofText text := by
  rw [ofText, ofText, Text.trim_trim]

/-- Nothing is not taken for a line. -/
theorem trim_ne_of_publicKey {text : String} (h : ofText text = .publicKey) :
    Text.trim text ≠ "" := by
  intro hEmpty
  rw [ofText, hEmpty] at h
  exact absurd h (by decide)

end TextKind

theorem Detection.ofText_trim (format : KeyFormat) (text : String) :
    ofText format (Text.trim text) = ofText format text := by
  rw [ofText.eq_def, ofText.eq_def, Text.trim_trim]

/-- A comment that is not blank. -/
def givenComment (comment : Option String) : Option String :=
  comment.filter (Text.trim · ≠ "")

/-- How a text is imported: as a line, or as a private key. -/
inductive Imports (text : String) (passphrase comment : Option String) : ImportReport → Prop
  | line {key : PublicKey} {own : Option String} {i : PublicKeyInfo}
    (hKind : TextKind.ofText text = .publicKey)
    (hLine : PublicKey.ofLine (Text.trim text) = .ok (key, own))
    (hInfo : key.info (((givenComment comment).or own).getD "") = .ok i) :
    Imports text passphrase comment ⟨false, false, none, .none, i, none⟩
  | key {d : Detection} {k : PrivateKey} {i : PublicKeyInfo}
    (hNe : Text.trim text ≠ "") (hKind : TextKind.ofText text = .privateKey)
    (hDetect : Detection.ofKey text = .ok d) (hLoad : PrivateKey.load text passphrase = .ok k)
    (hInfo : k.publicKey.info ((givenComment comment).getD k.comment) = .ok i) :
    Imports text passphrase comment ⟨true, d.passphraseRequired, some (KeyFormat.ofText text),
      d.cipher, i, some (Text.trim text)⟩

section

variable {text : String} {passphrase comment : Option String} {r : ImportReport}

/-- How a line is imported. -/
theorem importKey_of_publicKey (hKind : TextKind.ofText text = .publicKey) :
    importKey text passphrase comment = (do
      let (key, own) ← PublicKey.ofLine (Text.trim text)
      let info ← key.info (((givenComment comment).or own).getD "")
      pure ⟨false, false, none, .none, info, none⟩) := by
  have hTrim : TextKind.ofText (Text.trim text) = .publicKey := by
    rw [TextKind.ofText_trim, hKind]
  rw [importKey]
  simp only [if_neg (TextKind.trim_ne_of_publicKey hKind), hTrim, givenComment]

/-- How a private key is imported. -/
theorem importKey_of_privateKey (hNe : Text.trim text ≠ "")
    (hKind : TextKind.ofText text = .privateKey) :
    importKey text passphrase comment = (do
      let d ← Detection.ofKey text
      let k ← PrivateKey.load text passphrase
      let info ← k.publicKey.info ((givenComment comment).getD k.comment)
      pure ⟨true, d.passphraseRequired, some (KeyFormat.ofText text), d.cipher, info,
        some (Text.trim text)⟩) := by
  have hTrim : TextKind.ofText (Text.trim text) = .privateKey := by
    rw [TextKind.ofText_trim, hKind]
  rw [importKey]
  simp only [if_neg hNe, hTrim, KeyFormat.ofText_trim, Detection.ofText_trim, Detection.ofKey,
    PrivateKey.load_trim, givenComment, PrivateKey.info, PrivateKey.withComment,
    PrivateKey.publicKey]

theorem importKey_eq_ok_iff :
    importKey text passphrase comment = .ok r ↔ Imports text passphrase comment r := by
  constructor
  · intro h
    by_cases hEmpty : Text.trim text = ""
    · rw [importKey] at h
      simp only [if_pos hEmpty] at h
      cases h
    cases hKind : TextKind.ofText text with
    | publicKey =>
      rw [importKey_of_publicKey hKind] at h
      obtain ⟨⟨key, own⟩, hLine, h⟩ := Result.bind_eq_ok_iff.1 h
      obtain ⟨i, hInfo, hPure⟩ := Result.bind_eq_ok_iff.1 h
      cases hPure
      exact .line hKind hLine hInfo
    | privateKey =>
      rw [importKey_of_privateKey hEmpty hKind] at h
      obtain ⟨d, hDetect, h⟩ := Result.bind_eq_ok_iff.1 h
      obtain ⟨k, hLoad, h⟩ := Result.bind_eq_ok_iff.1 h
      obtain ⟨i, hInfo, hPure⟩ := Result.bind_eq_ok_iff.1 h
      cases hPure
      exact .key hEmpty hKind hDetect hLoad hInfo
  · intro h
    cases h with
    | line hKind hLine hInfo =>
      rw [importKey_of_publicKey hKind]
      exact Result.bind_eq_ok_iff.2 ⟨_, hLine, Result.bind_eq_ok_iff.2 ⟨_, hInfo, rfl⟩⟩
    | key hNe hKind hDetect hLoad hInfo =>
      rw [importKey_of_privateKey hNe hKind]
      exact Result.bind_eq_ok_iff.2 ⟨_, hDetect, Result.bind_eq_ok_iff.2 ⟨_, hLoad,
        Result.bind_eq_ok_iff.2 ⟨_, hInfo, rfl⟩⟩⟩

end

/-! ## What is inspected -/

/-- How a line is inspected. -/
theorem inspect_of_publicKey {text : String} (hKind : TextKind.ofText text = .publicKey) :
    inspect text = (do
      let (key, own) ← PublicKey.ofLine (Text.trim text)
      let info ← key.info (own.getD "")
      pure ⟨false, none, .none, none, false, none, none, some info⟩) := by
  have hTrim : TextKind.ofText (Text.trim text) = .publicKey := by
    rw [TextKind.ofText_trim, hKind]
  rw [inspect]
  simp only [if_neg (TextKind.trim_ne_of_publicKey hKind), hTrim]

/-- The report of a document says nothing of its key. -/
theorem inspect_of_document {text : String} {d : Detection} (hNe : Text.trim text ≠ "")
    (hKind : TextKind.ofText text = .privateKey) (hFormat : KeyFormat.ofText text ≠ .openssh)
    (hDetect : Detection.ofKey text = .ok d) :
    inspect text = .ok ⟨true, some (KeyFormat.ofText text), d.cipher, d.declaredName,
      d.passphraseRequired, none, none, none⟩ := by
  have hTrim : TextKind.ofText (Text.trim text) = .privateKey := by
    rw [TextKind.ofText_trim, hKind]
  rw [Detection.ofKey] at hDetect
  rw [inspect]
  simp only [if_neg hNe, hTrim, KeyFormat.ofText_trim, Detection.ofText_trim, hDetect, bind,
    Except.bind]
  cases hOther : KeyFormat.ofText text with
  | openssh => exact absurd hOther hFormat
  | pem => rfl
  | pkcs8 => rfl

/-! ## Both reports -/

/-- What inspection says beside what importing says. -/
structure InspectReport.Agrees (s : InspectReport) (r : ImportReport) : Prop where
  isPrivate_eq : s.isPrivate = r.isPrivate
  format_eq : s.format = r.format
  cipher_eq : s.cipher = r.cipher
  required_eq : s.passphraseRequired = r.passphraseProtected
  line : r.isPrivate = false → s.info = some r.info
  /-- Only the comment of a container is in its private section alone. -/
  container : r.format = some .openssh → ∃ i, s.info = some i ∧ i.keyType = r.info.keyType ∧
    i.bitLength = r.info.bitLength ∧ i.fingerprints = r.info.fingerprints
  document : r.format = some .pem ∨ r.format = some .pkcs8 → s.info = none

/-- The key of a container is described by the clear part that it was compared with. -/
theorem exists_inspect_of_decode {text : String} {passphrase : Option String} {c : Container}
    {i : PublicKeyInfo} (hDecode : Container.decode text passphrase = .ok c)
    (hInfo : i.Describes c.pair.publicKey) {d : Detection}
    (hDetect : Detection.ofText .openssh text = .ok d) :
    ∃ s j, inspect text = .ok s ∧ s.isPrivate = true ∧ s.format = some .openssh ∧
      s.cipher = d.cipher ∧ s.passphraseRequired = d.passphraseRequired ∧ s.info = some j ∧
      j.keyType = i.keyType ∧ j.bitLength = i.bitLength ∧ j.fingerprints = i.fingerprints := by
  obtain ⟨h, _, _, _, _, _, hAccepts⟩ := Container.exists_accepts_iff.1 hDecode
  have hKey := ContainerHeader.publicKey_eq_ok_iff.2 hAccepts.public_eq
  obtain ⟨j, hOwn, hSame⟩ := hInfo.exists_info ""
  rw [Detection.ofText_of_parse hAccepts.header] at hDetect
  cases hDetect
  rw [inspect_of_parse hAccepts.header, hKey]
  simp only [bind, Except.bind, hOwn]
  exact ⟨_, j, rfl, rfl, rfl, rfl, rfl, rfl, hSame⟩

/-- **Every text that is imported is inspected, and the reports agree**, if a container among them
declares one of the three ciphers that are also written. -/
theorem inspect_agrees {text : String} {passphrase : Option String} {r : ImportReport}
    (h : importKey text passphrase none = .ok r)
    (hCipher : KeyFormat.ofText text = .openssh → ∃ kind : CipherKind, Declares text kind.name) :
    ∃ s, inspect text = .ok s ∧ s.Agrees r := by
  cases importKey_eq_ok_iff.1 h with
  | @line key own i hKind hLine hInfo =>
    have hOwn : key.info (own.getD "") = .ok i := by
      rw [← hInfo]
      rfl
    have hInspect : inspect text = .ok ⟨false, none, .none, none, false, none, none, some i⟩ := by
      rw [inspect_of_publicKey hKind]
      exact Result.bind_eq_ok_iff.2 ⟨_, hLine, Result.bind_eq_ok_iff.2 ⟨_, hOwn, rfl⟩⟩
    refine ⟨_, hInspect, ⟨rfl, rfl, rfl, rfl, fun _ => rfl, fun hFormat => ?_, fun hFormat => ?_⟩⟩
    · cases hFormat
    · rcases hFormat with hFormat | hFormat <;> cases hFormat
  | @key d k i hNe hKind hDetect hLoad hInfo =>
    by_cases hFormat : KeyFormat.ofText text = .openssh
    · obtain ⟨kind, payload, hUnwrap, hName⟩ := hCipher hFormat
      obtain ⟨c, hDecode, rfl⟩ := PrivateKey.exists_decode_of_load hUnwrap hName hLoad
      have hDescribes : i.Describes c.pair.publicKey := PublicKey.describes_of_info hInfo
      rw [Detection.ofKey, hFormat] at hDetect
      obtain ⟨s, j, hInspect, hPrivate, hOwn, hSame, hRequired, hSome, hBoth⟩ :=
        exists_inspect_of_decode hDecode hDescribes hDetect
      refine ⟨s, hInspect, ⟨hPrivate, by rw [hOwn, hFormat], hSame, hRequired,
        fun hPublic => ?_, fun _ => ⟨j, hSome, hBoth⟩, fun hOther => ?_⟩⟩
      · cases hPublic
      · rw [hFormat] at hOther
        rcases hOther with hOther | hOther <;> cases hOther
    · refine ⟨_, inspect_of_document hNe hKind hFormat hDetect, ⟨rfl, rfl, rfl, rfl,
        fun hPublic => ?_, fun hContainer => ?_, fun _ => rfl⟩⟩
      · cases hPublic
      · exact absurd (Option.some.inj hContainer) hFormat

/-- What `Container.decode` reads is imported, and declares a cipher that is also written. -/
theorem exists_importKey_of_decode {text : String} {passphrase : Option String} {c : Container}
    {i : PublicKeyInfo} (hDecode : Container.decode text passphrase = .ok c)
    (hInfo : c.pair.publicKey.info c.comment = .ok i) :
    (∃ r, importKey text passphrase none = .ok r ∧ r.cipher = c.cipher ∧ r.info = i) ∧
      Declares text c.cipher.name := by
  obtain ⟨h, profile, _, _, _, _, hAccepts⟩ := Container.exists_accepts_iff.1 hDecode
  obtain ⟨payload, hUnwrap, hPayload⟩ := Result.bind_eq_ok_iff.1 hAccepts.header
  obtain ⟨kind, rfl, -⟩ := CipherProfile.byName?_eq_some_iff.1 hAccepts.profile_eq
  have hCipher : c.cipher = kind := by rw [hAccepts.cipher_eq, CipherKind.profile_kind]
  have hNe : Text.trim text ≠ "" := by
    have hTrim : Armor.unwrap (Text.trim text) = .ok payload := by
      rw [Armor.unwrap_trim, hUnwrap]
    exact Armor.ne_empty_of_unwrap hTrim
  have hDetect := Detection.ofText_of_parse hAccepts.header
  rw [← KeyFormat.ofText_of_unwrap hUnwrap] at hDetect
  have hLoad : PrivateKey.load text passphrase = .ok ⟨c.pair, c.comment, none⟩ := by
    obtain ⟨t, hType, -⟩ := Result.bind_eq_ok_iff.1 hInfo
    rw [PrivateKey.load_of_decode hDecode]
    exact Result.bind_eq_ok_iff.2 ⟨t, hType, rfl⟩
  refine ⟨⟨_, importKey_eq_ok_iff.2 (.key hNe (TextKind.ofText_of_unwrap hUnwrap) hDetect hLoad
    hInfo), ?_, rfl⟩, declares_of_decode hDecode⟩
  rw [hCipher, hAccepts.profile_eq]
  exact CipherKind.profile_kind kind

/-- An Ed25519 key under a passphrase is inspected without it. -/
theorem inspect_agrees_sealed : ∃ text r s,
    importKey text (some "p") none = .ok r ∧ Declares text CipherKind.aes256Ctr.name ∧
      inspect text = .ok s ∧ s.Agrees r := by
  have hConsistent : (KeyPair.ofSeed (Bytes.zeros 32)).Consistent := ⟨List.length_replicate, rfl⟩
  have hCipher : Container.cipherFor (some "p") .aes256Ctr = .aes256Ctr :=
    Container.cipherFor_of_some (nonEmpty_some (by decide)) .aes256Ctr
  have hDrawn : Container.drawn (some "p") ≤ (Bytes.zeros 20).length := by
    decide +kernel
  have hSection : Section.length (KeyPair.ofSeed (Bytes.zeros 32)).blob.length
      ("".utf8ByteSize) (Container.cipherFor (some "p") .aes256Ctr).profile.blockSize < 2 ^ 32 := by
    decide +kernel
  obtain ⟨text, -, hDecode⟩ := Container.exists_encode (hConsistent.valid trivial) (some "p")
    .aes256Ctr none hDrawn hSection
  rw [hCipher] at hDecode
  obtain ⟨⟨r, hImport, -, -⟩, hDeclares⟩ := exists_importKey_of_decode hDecode rfl
  obtain ⟨s, hInspect, hAgrees⟩ := inspect_agrees hImport fun _ => ⟨_, hDeclares⟩
  exact ⟨text, r, s, hImport, hDeclares, hInspect, hAgrees⟩

end SshKeys
