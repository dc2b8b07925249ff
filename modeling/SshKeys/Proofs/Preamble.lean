import SshKeys.Proofs.Exported
import SshKeys.Proofs.StrictText

/-!
# Text in front of a PEM file

The reader of PEM files drops the lines in front of the block.  The headers of
encrypted files are looked for in these lines too, and a text with such a header
is not loaded without a passphrase, whether its key is encrypted or not.

* `PemFile.load_of_readable`: of the files that are readable without a passphrase,
  **those are loaded without one that have no such header in their text**.  All
  that begin with their marker line are among them, as no colon occurs in these
  (`PemFile.colon_not_mem`).
* `PemFile.load_of_preamble`: a header in a line in front of a file that is not
  encrypted blocks its key; `PemFile.not_load_of_readable` gives two such texts.
-/

namespace SshKeys

open SshKeys.Bytes (isAscii isAscii_iff)

namespace PemFile

/-! ## Readable files -/

section

variable {format : KeyFormat} {text : String} {pair : KeyPair}

/-- What is read without a passphrase is read alike with any. -/
theorem keyPair_of_none (h : keyPair format text none = .ok pair) (passphrase : Option String) :
    keyPair format text passphrase = .ok pair := by
  cases format with
  | openssh => cases h
  | pem =>
    have hRead : traditional text none = .ok pair := h
    obtain ⟨hLegacy, -⟩ := exists_of_traditional hRead
    rw [keyPair, traditional.eq_def, hLegacy] at h ⊢
    exact h
  | pkcs8 =>
    obtain ⟨k, hRead, -⟩ := Result.bind_eq_ok_iff.1 h
    obtain ⟨hEncrypted, -⟩ := exists_of_pkcs8 hRead
    rw [keyPair, pkcs8.eq_def, hEncrypted] at h ⊢
    exact h

/-- The marker of an encrypted PKCS#8 file is one that its own reader goes by. -/
theorem not_encrypted_of_readable (hFormat : KeyFormat.ofText text = format)
    (h : keyPair format text none = .ok pair) :
    Text.contains text encryptedPkcs8Marker = false := by
  cases format with
  | openssh => cases h
  | pem =>
    rw [← Bool.not_eq_true]
    intro hEncrypted
    rw [KeyFormat.ofText, Text.contains_trim (by decide), Text.contains_trim (by decide),
      Text.contains_trim (by decide), hEncrypted, Bool.or_true, if_pos rfl] at hFormat
    split at hFormat <;> cases hFormat
  | pkcs8 =>
    obtain ⟨k, hRead, -⟩ := Result.bind_eq_ok_iff.1 h
    exact (exists_of_pkcs8 hRead).1

/-- What is read without a passphrase is read from a document of one of the three names. -/
theorem exists_decode?_of_keyPair (h : keyPair format text none = .ok pair) :
    ∃ name ∈ labels, ∃ document, Pem.decode? name text = some document := by
  cases format with
  | openssh => cases h
  | pem =>
    have hRead : traditional text none = .ok pair := h
    obtain ⟨-, ⟨document, -, hDecode, -⟩ | ⟨document, -, hDecode, -⟩⟩ :=
      exists_of_traditional hRead
    · exact ⟨Pkcs1.label, by simp [labels], document, hDecode⟩
    · exact ⟨Sec1.label, by simp [labels], document, hDecode⟩
  | pkcs8 =>
    obtain ⟨k, hRead, -⟩ := Result.bind_eq_ok_iff.1 h
    obtain ⟨-, document, hDecode, -⟩ := exists_of_pkcs8 hRead
    exact ⟨Pkcs8.label, by simp [labels], document, hDecode⟩

/-- Marker lines, base64 and line ends have no colon. -/
theorem colon_not_mem {name : String} {document : Bytes} (hName : name ∈ labels)
    (hBegin : Text.startsWith text "-----BEGIN " = true)
    (h : Pem.decode? name text = some document) : ':' ∉ text.toList := by
  have hLabels : ∀ l ∈ labels, isAscii l.toList = true ∧ ':' ∉ Pem.beginLine l ∧
      ':' ∉ Pem.endLine l := by
    decide
  obtain ⟨hAscii, hBeginLine, hEndLine⟩ := hLabels name hName
  simp only [Pem.decode?, Option.bind_eq_bind, Option.bind_eq_some_iff, Option.guard_eq_some'] at h
  obtain ⟨input, hInput, _, hEnd, -⟩ := h
  obtain ⟨-, body, more, hBody, hMore, -, hChars⟩ := Armor.exists_body_of_input? hAscii
    (Armor.ofString_of_startsWith hBegin) hInput hEnd
  rw [hChars]
  simp only [List.mem_append, not_or]
  exact ⟨hBeginLine, hBody.not_mem (by decide) (by decide) (by decide), hEndLine,
    hMore.not_mem (by decide) (by decide) (by decide)⟩

theorem not_contains_of_colon {pattern : String} (hPattern : ':' ∈ pattern.toList)
    (h : ':' ∉ text.toList) : Text.contains text pattern = false := by
  rw [← Bool.not_eq_true, Text.contains_iff]
  exact fun hInfix => h (hInfix.subset hPattern)

/-- Neither header of an encrypted file occurs in the text. -/
def HasNoHeader (text : String) : Prop :=
  Text.contains text legacyEncryptedMarker = false ∧ Text.contains text legacyCipherMarker = false

instance (text : String) : Decidable (HasNoHeader text) :=
  inferInstanceAs (Decidable (_ ∧ _))

theorem hasNoHeader_trim (text : String) : HasNoHeader (Text.trim text) ↔ HasNoHeader text := by
  rw [HasNoHeader, HasNoHeader, Text.contains_trim (by decide), Text.contains_trim (by decide)]

theorem hasNoHeader_of_keyPair (hBegin : Text.startsWith text "-----BEGIN " = true)
    (h : keyPair format text none = .ok pair) : HasNoHeader text := by
  obtain ⟨name, hName, document, hDecode⟩ := exists_decode?_of_keyPair h
  have hColon := colon_not_mem hName hBegin hDecode
  exact ⟨not_contains_of_colon (by decide) hColon, not_contains_of_colon (by decide) hColon⟩

/-- What a file that is readable without a passphrase is loaded as. -/
theorem load_none (hFormat : KeyFormat.ofText text ≠ .openssh)
    (h : keyPair (KeyFormat.ofText text) (Text.trim text) none = .ok pair) :
    PrivateKey.load text none =
      if HasNoHeader text then .ok ⟨pair, "", none⟩ else .error .passphraseRequired := by
  have hEncrypted := not_encrypted_of_readable (KeyFormat.ofText_trim text) h
  have hHeader : (Detection.ofPem (Text.trim text)).passphraseRequired = false ↔
      HasNoHeader text := by
    rw [PrivateKey.passphraseRequired_ofPem, ← hasNoHeader_trim, HasNoHeader]
    simp only [List.any_cons, List.any_nil, hEncrypted, Bool.false_or, Bool.or_false,
      Bool.or_eq_false_iff]
  rw [load_of_format (KeyFormat.ofText_trim text) hFormat, Option.filter_none, h]
  by_cases hNone : HasNoHeader text
  · rw [if_pos hNone, hHeader.2 hNone, if_neg (fun hBoth => nomatch hBoth.1)]
    exact (isDerived_of_keyPair h).ofPair_eq ""
  · rw [if_neg hNone, if_pos ⟨Bool.eq_true_of_not_eq_false (mt hHeader.1 hNone), rfl⟩]

/-! ## Text in front of a block -/

/-- A text that holds no part of a marker line, without blanks around it. -/
structure IsPreamble (preamble : String) : Prop where
  chars : preamble.toList.all (fun c => 0 < c.toNat && c.toNat < 128) = true
  unmarked : Text.contains preamble "BEGIN " = false
  isSolid : Text.isSolid preamble.toList = true

end

end PemFile

namespace Pem

theorem prefix_of_prefix_append_cons {x : UInt8} {pat a rest : Bytes} (hx : x ∉ pat)
    (h : pat <+: a ++ x :: rest) : pat <+: a := by
  rcases le_or_gt pat.length a.length with hLe | hLt
  · exact List.prefix_of_prefix_length_le h (List.prefix_append ..) hLe
  · have hFront : a ++ [x] <+: a ++ x :: rest := by
      rw [List.append_cons a x rest]
      exact List.prefix_append ..
    have hMore : a ++ [x] <+: pat := List.prefix_of_prefix_length_le hFront h
      (by rw [List.length_append, List.length_singleton]; exact hLt)
    exact absurd (hMore.subset (by simp)) hx

theorem lineFeed_not_mem_beginStart : lineFeed ∉ beginStart := by
  rw [beginStart_eq]
  decide

/-- The block is looked for behind every line feed. -/
theorem block?_append {a text : Bytes} (hZero : 0 ∉ a) (hMarker : ¬beginStart <:+: a)
    (hText : beginStart <+: text) : block? (a ++ lineFeed :: text) = some text := by
  induction a with
  | nil =>
    rw [List.nil_append, block?, if_neg (by decide),
      if_pos ⟨rfl, List.isPrefixOf_iff_prefix.2 hText⟩]
  | cons x a ih =>
    have hFirst : x ≠ 0 := by
      rintro rfl
      exact hZero List.mem_cons_self
    have hTail : ¬beginStart <:+: a := fun hInfix =>
      hMarker (hInfix.trans (List.suffix_cons x a).isInfix)
    have hNot : ¬(x = lineFeed ∧ beginStart.isPrefixOf (a ++ lineFeed :: text) = true) := by
      rintro ⟨-, hPrefix⟩
      exact hTail (prefix_of_prefix_append_cons lineFeed_not_mem_beginStart
        (List.isPrefixOf_iff_prefix.1 hPrefix)).isInfix
    rw [List.cons_append, block?, if_neg hFirst, if_neg hNot,
      ih (fun hMem => hZero (List.mem_cons_of_mem x hMem)) hTail]

theorem encapsulated?_append {a text : Bytes} (hZero : 0 ∉ a) (hMarker : ¬beginStart <:+: a)
    (hText : beginStart <+: text) : encapsulated? (a ++ lineFeed :: text) = encapsulated? text := by
  have hNot : ¬beginStart.isPrefixOf (a ++ lineFeed :: text) = true := fun hPrefix =>
    hMarker (prefix_of_prefix_append_cons lineFeed_not_mem_beginStart
      (List.isPrefixOf_iff_prefix.1 hPrefix)).isInfix
  rw [encapsulated?, encapsulated?, if_neg hNot, block?_append hZero hMarker hText,
    if_pos (List.isPrefixOf_iff_prefix.2 hText)]

end Pem

namespace PemFile

namespace IsPreamble

variable {preamble : String} (h : IsPreamble preamble)
include h

theorem bounds {c : Char} (hc : c ∈ preamble.toList) : 0 < c.toNat ∧ c.toNat < 128 := by
  simpa only [Bool.and_eq_true, decide_eq_true_eq] using List.all_eq_true.1 h.chars c hc

theorem isAscii : isAscii preamble.toList = true :=
  isAscii_iff.2 fun _ hc => (h.bounds hc).2

theorem zero_not_mem : 0 ∉ Bytes.ofString preamble := by
  rw [Bytes.ofString_ascii h.isAscii]
  intro hMem
  obtain ⟨c, hc, hZero⟩ := List.mem_map.1 hMem
  obtain ⟨hPos, hLt⟩ := h.bounds hc
  have hNat := congrArg UInt8.toNat hZero
  rw [UInt8.toNat_ofNat', Nat.mod_eq_of_lt (by omega)] at hNat
  exact absurd hNat hPos.ne'

theorem not_beginStart_infix : ¬Pem.beginStart <:+: Bytes.ofString preamble := by
  intro hInfix
  have hBegin : "BEGIN ".toList <:+: Pem.beginChars := by decide
  have hAscii : Bytes.isAscii Pem.beginChars = true := by decide
  rw [Bytes.ofString_ascii h.isAscii, Pem.beginStart_eq] at hInfix
  have hChars := hInfix.map Pem.charOf
  rw [Pem.map_charOf_byteOf hAscii] at hChars
  have hBack : (preamble.toList.map Pem.byteOf).map Pem.charOf = preamble.toList :=
    Pem.map_charOf_byteOf h.isAscii
  have hContains := Text.contains_iff.2 (hBegin.trans (hBack ▸ hChars))
  rw [h.unmarked] at hContains
  cases hContains

/-- The reader passes over it. -/
theorem decode?_append {text : String} (hBegin : Text.startsWith text "-----BEGIN " = true)
    (name : String) : Pem.decode? name (preamble ++ "\n" ++ text) = Pem.decode? name text := by
  have hFeed : Bytes.ofString "\n" = [Pem.lineFeed] := by
    rw [Bytes.ofString_ascii (by decide)]
    rfl
  have hBytes : Bytes.ofString (preamble ++ "\n" ++ text) =
      Bytes.ofString preamble ++ Pem.lineFeed :: Bytes.ofString text := by
    rw [Bytes.ofString_append, Bytes.ofString_append, hFeed, List.append_assoc,
      List.singleton_append]
  rw [Pem.decode?, Pem.decode?, Pem.input?, Pem.input?, hBytes,
    Pem.encapsulated?_append h.zero_not_mem h.not_beginStart_infix
      (Armor.ofString_of_startsWith hBegin)]

/-- No marker of a block is found in it. -/
theorem contains_marker {pattern text : String} (hFeed : '\n' ∉ pattern.toList)
    (hMarker : "BEGIN ".toList <:+: pattern.toList) :
    Text.contains (preamble ++ "\n" ++ text) pattern = Text.contains text pattern := by
  have hNone : Text.contains preamble pattern = false := by
    rw [← Bool.not_eq_true, Text.contains_iff]
    intro hInfix
    have hBegin := Text.contains_iff.2 (hMarker.trans hInfix)
    rw [h.unmarked] at hBegin
    cases hBegin
  rw [Text.contains_append_line hFeed, hNone, Bool.false_or]

theorem trim_append {text : String} (hText : Text.isSolid text.toList = true) :
    Text.trim (preamble ++ "\n" ++ text) = preamble ++ "\n" ++ text := by
  refine Text.trim_of_isSolid ?_
  rw [String.toList_append, String.toList_append, List.append_assoc]
  exact Text.isSolid_append h.isSolid hText

theorem ofText_append {text : String} (hText : Text.isSolid text.toList = true) :
    KeyFormat.ofText (preamble ++ "\n" ++ text) = KeyFormat.ofText text := by
  rw [KeyFormat.ofText, KeyFormat.ofText, h.trim_append hText, Text.trim_of_isSolid hText,
    h.contains_marker (by decide) (by decide), h.contains_marker (by decide) (by decide),
    h.contains_marker (by decide) (by decide)]

theorem document_append {α : Type} {read? : Bytes → Option α} {name text : String} {a : α}
    (hBegin : Text.startsWith text "-----BEGIN " = true)
    (hRead : Pem.document name read? text = .ok a) :
    Pem.document name read? (preamble ++ "\n" ++ text) = .ok a := by
  rwa [Pem.document_eq_ok_iff, h.decode?_append hBegin, ← Pem.document_eq_ok_iff]

theorem decrypted_append {text : String} {secret : Bytes} {k : Pkcs8}
    (hBegin : Text.startsWith text "-----BEGIN " = true) (hRead : decrypted text secret = .ok k) :
    decrypted (preamble ++ "\n" ++ text) secret = .ok k := by
  rw [decrypted] at hRead ⊢
  cases hEnvelope : Pem.document Envelope.label Envelope.read? text with
  | error f =>
    rw [hEnvelope] at hRead
    cases hRead
  | ok envelope =>
    rw [hEnvelope] at hRead
    rw [h.document_append hBegin hEnvelope]
    exact hRead

theorem pkcs8_append {text : String} {passphrase : Option String} {k : Pkcs8}
    (hBegin : Text.startsWith text "-----BEGIN " = true) (hRead : pkcs8 text passphrase = .ok k) :
    pkcs8 (preamble ++ "\n" ++ text) passphrase = .ok k := by
  rw [pkcs8.eq_def] at hRead ⊢
  rw [h.contains_marker (by decide) (by decide)]
  by_cases hEncrypted : Text.contains text encryptedPkcs8Marker = true
  · rw [if_pos hEncrypted] at hRead ⊢
    cases passphrase with
    | none => cases hRead
    | some s => exact h.decrypted_append hBegin hRead
  · rw [if_neg hEncrypted] at hRead ⊢
    cases hDocument : Pem.document Pkcs8.label Pkcs8.read? text with
    | error f =>
      rw [hDocument] at hRead
      cases hRead
    | ok k' =>
      rw [hDocument] at hRead
      rw [h.document_append hBegin hDocument]
      exact hRead

theorem traditional_append {text : String} {passphrase : Option String} {pair : KeyPair}
    (hBegin : Text.startsWith text "-----BEGIN " = true)
    (hLegacy : Text.contains preamble legacyEncryptedMarker = false)
    (hRead : traditional text passphrase = .ok pair) :
    traditional (preamble ++ "\n" ++ text) passphrase = .ok pair := by
  rw [traditional.eq_def] at hRead ⊢
  rw [Text.contains_append_line (by decide), hLegacy, Bool.false_or,
    h.contains_marker (by decide) (by decide), h.contains_marker (by decide) (by decide),
    h.contains_marker (by decide) (by decide), h.decode?_append hBegin]
  by_cases hHeader : Text.contains text legacyEncryptedMarker = true
  · rw [if_pos hHeader] at hRead ⊢
    exact hRead
  · rw [if_neg hHeader] at hRead ⊢
    by_cases hRsa : Text.contains text rsaMarker = true
    · rw [if_pos hRsa] at hRead ⊢
      cases hDocument : Pem.document Pkcs1.label Pkcs1.read? text with
      | error f =>
        rw [hDocument] at hRead
        cases hRead
      | ok numbers =>
        rw [hDocument] at hRead
        rw [h.document_append hBegin hDocument]
        exact hRead
    · rw [if_neg hRsa] at hRead ⊢
      exact hRead

/-- A key that is read from a file is read behind it. -/
theorem keyPair_append {format : KeyFormat} {text : String} {passphrase : Option String}
    {pair : KeyPair} (hBegin : Text.startsWith text "-----BEGIN " = true)
    (hLegacy : format = .pem → Text.contains preamble legacyEncryptedMarker = false)
    (hRead : keyPair format text passphrase = .ok pair) :
    keyPair format (preamble ++ "\n" ++ text) passphrase = .ok pair := by
  cases format with
  | openssh => cases hRead
  | pem => exact h.traditional_append hBegin (hLegacy rfl) hRead
  | pkcs8 =>
    obtain ⟨k, hDocument, hPair⟩ := Result.bind_eq_ok_iff.1 hRead
    exact Result.bind_eq_ok_iff.2 ⟨k, h.pkcs8_append hBegin hDocument, hPair⟩

end IsPreamble

/-- **A header in front of a file blocks its key**, although the reader passes over the lines
there: what it reads from the file it reads behind a preamble. -/
theorem load_of_preamble {preamble text : String} {format : KeyFormat} {pair : KeyPair}
    (hPreamble : IsPreamble preamble) (hBegin : Text.startsWith text "-----BEGIN " = true)
    (hText : Text.isSolid text.toList = true) (hFormat : KeyFormat.ofText text = format)
    (h : keyPair format text none = .ok pair)
    (hLegacy : format = .pem → Text.contains preamble legacyEncryptedMarker = false) :
    KeyFormat.ofText (preamble ++ "\n" ++ text) = format ∧
    keyPair format (Text.trim (preamble ++ "\n" ++ text)) none = .ok pair ∧
    PrivateKey.load (preamble ++ "\n" ++ text) none =
      if HasNoHeader preamble then .ok ⟨pair, "", none⟩ else .error .passphraseRequired := by
  have hWhole : KeyFormat.ofText (preamble ++ "\n" ++ text) = format :=
    (hPreamble.ofText_append hText).trans hFormat
  have hNe : format ≠ .openssh := by
    rintro rfl
    cases h
  have hRead : keyPair format (Text.trim (preamble ++ "\n" ++ text)) none = .ok pair := by
    rw [hPreamble.trim_append hText, hPreamble.keyPair_append hBegin hLegacy h]
  have hHeader : HasNoHeader (preamble ++ "\n" ++ text) ↔ HasNoHeader preamble := by
    obtain ⟨hEncrypted, hCipher⟩ := hasNoHeader_of_keyPair hBegin h
    rw [HasNoHeader, HasNoHeader, Text.contains_append_line (by decide),
      Text.contains_append_line (by decide), hEncrypted, hCipher, Bool.or_false, Bool.or_false]
  refine ⟨hWhole, hRead, ?_⟩
  rw [load_none (by rwa [hWhole]) (by rwa [hWhole])]
  simp only [hHeader]

/-! ## Loading without a passphrase -/

theorem startsWith_trimmed (name : String) (document : Bytes) :
    Text.startsWith (trimmed name document) "-----BEGIN " = true := by
  rw [Text.startsWith, Pem.toList_begin, List.isPrefixOf_iff_prefix, trimmed,
    String.toList_ofList, Pem.file, Pem.beginLine, List.append_assoc]
  exact List.prefix_append ..

theorem isSolid_trimmed (name : String) (document : Bytes) :
    Text.isSolid (trimmed name document).toList = true := by
  rw [trimmed, String.toList_ofList, Pem.isSolid_file]

theorem ofText_trimmed_sec1 (document : Bytes) :
    KeyFormat.ofText (trimmed Sec1.label document) = .pem :=
  (ofText_trimmed isPlain_sec1 document).trans formatOf_sec1

theorem ofText_trimmed_pkcs8 (document : Bytes) :
    KeyFormat.ofText (trimmed Pkcs8.label document) = .pkcs8 :=
  (ofText_trimmed isPlain_pkcs8 document).trans formatOf_pkcs8

theorem privateKey_of_keyPair {format : KeyFormat} {text : String} {pair : KeyPair}
    (h : keyPair format text none = .ok pair) :
    privateKey format text none = .ok ⟨pair, "", none⟩ := by
  rw [privateKey, h]
  rfl

theorem keyPair_sec1_write {curve : NistCurve} {d : Nat} (h : curve.IsScalar d) :
    keyPair .pem (trimmed Sec1.label (Sec1.write curve d)) none =
      .ok (KeyPair.ofScalar curve d) :=
  keyPair_sec1 (Sec1.read?_write curve d) (KeyPair.ofScalarOn?_eq h) none

/-- **A file that is readable without a passphrase is loaded without one if no header of an
encrypted file occurs in its text**, which is so if it begins with its marker line.  Otherwise a
passphrase is asked for, and any that is not empty will do. -/
theorem load_of_readable {text : String} {k : PrivateKey}
    (hFormat : KeyFormat.ofText text ≠ .openssh)
    (h : privateKey (KeyFormat.ofText text) (Text.trim text) none = .ok k) :
    (PrivateKey.load text none = .ok k ↔ HasNoHeader text) ∧
    (PrivateKey.load text none ≠ .ok k → PrivateKey.load text none = .error .passphraseRequired) ∧
    (Text.startsWith (Text.trim text) "-----BEGIN " = true → PrivateKey.load text none = .ok k) ∧
    ∀ s, s ≠ "" → PrivateKey.load text (some s) = .ok k := by
  obtain ⟨pair, hPair, hPure⟩ := Result.bind_eq_ok_iff.1 h
  cases hPure
  have hNone := load_none hFormat hPair
  have hLoad : PrivateKey.load text none = .ok ⟨pair, "", none⟩ ↔ HasNoHeader text := by
    rw [hNone]
    split
    · next hHeader => exact iff_of_true rfl hHeader
    · next hHeader => exact iff_of_false (fun hEq => nomatch hEq) hHeader
  refine ⟨hLoad, ?_, ?_, ?_⟩
  · intro hNot
    rw [hNone, if_neg (mt hLoad.2 hNot)]
  · intro hBegin
    exact hLoad.2 ((hasNoHeader_trim text).1 (hasNoHeader_of_keyPair hBegin hPair))
  · intro s hs
    rw [load_of_format (KeyFormat.ofText_trim text) hFormat, if_neg (not_asked hs),
      keyPair_of_none hPair]
    exact (isDerived_of_keyPair hPair).ofPair_eq ""

/-- A file as it is written begins with its marker line. -/
theorem load_of_readable_sec1 :
    PrivateKey.load (trimmed Sec1.label (Sec1.write .p256 1)) none =
      .ok ⟨KeyPair.ofScalar .p256 1, "", none⟩ := by
  have hFormat := ofText_trimmed_sec1 (Sec1.write .p256 1)
  have hScalar : NistCurve.IsScalar .p256 1 := by decide
  have hRead := privateKey_of_keyPair (keyPair_sec1_write hScalar)
  rw [← trim_trimmed, ← hFormat] at hRead
  refine (load_of_readable ?_ hRead).2.2.1 ?_
  · rw [hFormat]
    decide
  · rw [trim_trimmed, startsWith_trimmed]

/-- The key of an unencrypted file is not loaded behind a line that looks like a header of an
encrypted one: neither that of a SEC 1 file nor that of a PKCS#8 file. -/
theorem not_load_of_readable :
    let ec := "DEK-Info:" ++ "\n" ++ trimmed Sec1.label (Sec1.write .p256 1)
    let pkcs8 := "Proc-Type: 4,ENCRYPTED" ++ "\n" ++
      trimmed Pkcs8.label (Pkcs8.ofScalar .p256 1)
    (KeyFormat.ofText ec = .pem ∧
      privateKey .pem (Text.trim ec) none = .ok ⟨KeyPair.ofScalar .p256 1, "", none⟩ ∧
      PrivateKey.load ec none = .error .passphraseRequired) ∧
    (KeyFormat.ofText pkcs8 = .pkcs8 ∧
      privateKey .pkcs8 (Text.trim pkcs8) none = .ok ⟨KeyPair.ofScalar .p256 1, "", none⟩ ∧
      PrivateKey.load pkcs8 none = .error .passphraseRequired) := by
  have hScalar : NistCurve.IsScalar .p256 1 := by decide
  have hCipherLine : IsPreamble "DEK-Info:" := ⟨by decide, by decide +kernel, by decide⟩
  have hTypeLine : IsPreamble "Proc-Type: 4,ENCRYPTED" :=
    ⟨by decide, by decide +kernel, by decide⟩
  have hCipher : ¬HasNoHeader "DEK-Info:" := by decide +kernel
  have hType : ¬HasNoHeader "Proc-Type: 4,ENCRYPTED" := by decide +kernel
  have hNotType : Text.contains "DEK-Info:" legacyEncryptedMarker = false := by decide +kernel
  constructor
  · obtain ⟨hFormat, hBehind, hLoad⟩ := load_of_preamble hCipherLine (startsWith_trimmed ..)
      (isSolid_trimmed ..) (ofText_trimmed_sec1 _) (keyPair_sec1_write hScalar) (fun _ => hNotType)
    rw [if_neg hCipher] at hLoad
    exact ⟨hFormat, privateKey_of_keyPair hBehind, hLoad⟩
  · obtain ⟨k, hDocument, hPair⟩ := KeyPair.ofPkcs8_ofScalar hScalar
    obtain ⟨hFormat, hBehind, hLoad⟩ := load_of_preamble hTypeLine (startsWith_trimmed ..)
      (isSolid_trimmed ..) (ofText_trimmed_pkcs8 _) (keyPair_pkcs8 hDocument hPair none)
      (fun hPem => nomatch hPem)
    rw [if_neg hType] at hLoad
    exact ⟨hFormat, privateKey_of_keyPair hBehind, hLoad⟩

end PemFile

end SshKeys
